import Mathlib
import AgenticGovernance.Audit.Rotation

/-!
# Rotations that overlap

`rotate_chain_key` runs five statements in one READ COMMITTED transaction and
takes no lock before the last one, the conditional update that retires the
outgoing version.  The transaction commits whether or not that update matched a
row.

The model runs any number of such transactions that all rotate away from the
key of one history, between ordinary inserts.  A statement sees what is committed
when it starts.  The update waits for a transaction that holds the row and then
evaluates its condition again.  `commits` lists the rotations that have committed,
and `ConcurrentOk` gives the key versions as a function of that list: only the
first rotation retires anything.
-/

namespace AgenticGovernance.Audit

open Support

/-- What a rotation has inserted and not yet committed. -/
structure PendingRotation where
  outgoing : ℕ
  marker : AuditRow
  incoming : KeyVersion

/-- The last statement of a rotation that has completed. -/
inductive RotationPhase where
  | idle
  | lookedUp (outgoing : ℕ)
  | headRead (outgoing : ℕ) (prevHash : Option String)
  | markerInserted (outgoing : ℕ) (marker : AuditRow)
  | keyInserted (pending : PendingRotation)
  | updated (pending : PendingRotation) (matched : Bool)
  | committed
  | raised

namespace RotationPhase

def Running : RotationPhase → Prop
  | idle => False
  | committed => False
  | raised => False
  | _ => True

/-- The marker that the open transaction has inserted. -/
def marker? : RotationPhase → Option AuditRow
  | markerInserted _ marker => some marker
  | keyInserted p => some p.marker
  | updated p _ => some p.marker
  | _ => none

/-- The key version that the open transaction has inserted. -/
def incoming? : RotationPhase → Option KeyVersion
  | keyInserted p => some p.incoming
  | updated p _ => some p.incoming
  | _ => none

end RotationPhase

/-- The committed tables, the sequence numbers that ordinary inserts have drawn
and not committed, and the committed rotations in commit order. -/
structure RotationState (ι : Type*) where
  tables : ChainTables
  drawn : List ℕ
  commits : List PendingRotation
  phase : ι → RotationPhase

/-- Some row satisfies the condition of the retiring update. -/
def updateMatches (version : ℕ) (keyVersions : List KeyVersion) : Bool :=
  keyVersions.any fun kv => kv.keyVersion = version && kv.retiredAtChainSeq = none

namespace RotationState

variable {ι : Type*}

def start (T : ChainTables) : RotationState ι where
  tables := T
  drawn := []
  commits := []
  phase := fun _ => .idle

def setPhase [DecidableEq ι] (s : RotationState ι) (i : ι) (p : RotationPhase) : RotationState ι :=
  { s with phase := Function.update s.phase i p }

def drawSeq (s : RotationState ι) : RotationState ι :=
  { s with tables := { s.tables with nextSeq := s.tables.nextSeq + 1 } }

def drawVersion (s : RotationState ι) : RotationState ι :=
  { s with tables := { s.tables with nextKeyVersion := s.tables.nextKeyVersion + 1 } }

/-- What becomes visible when a rotation commits. -/
def commit (s : RotationState ι) (p : PendingRotation) (matched : Bool) :
    RotationState ι :=
  { s with
    tables :=
      { s.tables with
        rows := s.tables.rows ++ [p.marker]
        keyVersions :=
          (if matched then
            retireVersion p.outgoing (p.marker.chainSeq + 1) s.tables.keyVersions
          else s.tables.keyVersions) ++ [p.incoming] }
    commits := s.commits ++ [p] }

/-- What becomes visible when an ordinary insert commits. -/
def insertRow (s : RotationState ι) (seq : ℕ) (record : AuditEventRecord) :
    RotationState ι :=
  { s with
    tables := { s.tables with rows := s.tables.rows ++ [⟨seq, record, none⟩] }
    drawn := s.drawn.erase seq }

variable [DecidableEq ι]

@[simp] theorem setPhase_self (s : RotationState ι) (i : ι) (p : RotationPhase) :
    (s.setPhase i p).phase i = p :=
  Function.update_self ..

theorem setPhase_of_ne (s : RotationState ι) {i j : ι} (h : j ≠ i) (p : RotationPhase) :
    (s.setPhase i p).phase j = s.phase j :=
  Function.update_of_ne h ..

end RotationState

variable {ι : Type*}

inductive RotationStep [DecidableEq ι] (H : Hmac) (calls : ι → RotationRequest) :
    RotationState ι → RotationState ι → Prop
  | lookup (s : RotationState ι) (i : ι) (outgoing : ℕ) (hphase : s.phase i = .idle)
      (hne : (calls i).outgoingSecret ≠ (calls i).incomingSecret)
      (hselect : selectActiveVersion s.tables.keyVersions
        (fingerprintKey H (calls i).outgoingSecret) = some outgoing) :
      RotationStep H calls s (s.setPhase i (.lookedUp outgoing))
  | readHead (s : RotationState ι) (i : ι) (outgoing : ℕ)
      (hphase : s.phase i = .lookedUp outgoing) :
      RotationStep H calls s
        (s.setPhase i (.headRead outgoing (headHmac s.tables.rows)))
  | insertMarker (s : RotationState ι) (i : ι) (outgoing : ℕ) (prevHash : Option String)
      (eventId : Uuid) (createdAt : Datetime) (marker : AuditEventRecord)
      (hphase : s.phase i = .headRead outgoing prevHash)
      (hmarker : AuditEventRecord.construct
        ((calls i).markerFields H eventId createdAt outgoing prevHash) = some marker)
      (hfresh : eventId ∉ s.tables.rows.map fun row => row.record.eventId)
      (hwait : ∀ j row, (s.phase j).marker? = some row → row.record.eventId ≠ eventId) :
      RotationStep H calls s
        (s.drawSeq.setPhase i (.markerInserted outgoing
          ⟨s.tables.nextSeq, marker,
            some (computeEventHmac H (calls i).incomingSecret marker.toEventContent)⟩))
  | insertKey (s : RotationState ι) (i : ι) (outgoing : ℕ) (marker : AuditRow)
      (hphase : s.phase i = .markerInserted outgoing marker)
      (hunique : fingerprintKey H (calls i).incomingSecret ∉
        s.tables.keyVersions.map fun kv => kv.fingerprint)
      (hwait : ∀ j kv, (s.phase j).incoming? = some kv →
        kv.fingerprint ≠ fingerprintKey H (calls i).incomingSecret) :
      RotationStep H calls s
        (s.drawVersion.setPhase i (.keyInserted ⟨outgoing, marker,
          ⟨s.tables.nextKeyVersion, fingerprintKey H (calls i).incomingSecret,
            marker.chainSeq + 1, none⟩⟩))
  | update (s : RotationState ι) (i : ι) (p : PendingRotation)
      (hphase : s.phase i = .keyInserted p)
      -- another transaction that has updated the row holds it until it ends
      (hwait : ∀ j q, s.phase j = .updated q true → q.outgoing ≠ p.outgoing) :
      RotationStep H calls s
        (s.setPhase i (.updated p (updateMatches p.outgoing s.tables.keyVersions)))
  | commit (s : RotationState ι) (i : ι) (p : PendingRotation) (matched : Bool)
      (hphase : s.phase i = .updated p matched) :
      RotationStep H calls s ((s.commit p matched).setPhase i .committed)
  | fail (s : RotationState ι) (i : ι) (hphase : s.phase i = .idle ∨ (s.phase i).Running) :
      RotationStep H calls s (s.setPhase i .raised)
  | drawSeq (s : RotationState ι) :
      RotationStep H calls s { s.drawSeq with drawn := s.tables.nextSeq :: s.drawn }
  | insertRow (s : RotationState ι) (seq : ℕ) (record : AuditEventRecord)
      (hseq : seq ∈ s.drawn)
      (hfresh : record.eventId ∉ s.tables.rows.map fun row => row.record.eventId) :
      RotationStep H calls s (s.insertRow seq record)

/-- The rotations `calls`, on top of the tables of a history. -/
def concurrentRotations [DecidableEq ι] (H : Hmac) (base : History) (calls : ι → RotationRequest) :
    System (RotationState ι) where
  init s := s = .start base.tables
  step := RotationStep H calls

/-- At most one key version is unretired, and every committed marker is verified
as one. -/
structure KeysSound (H : Hmac) (S : KeySource) (uriMap : String → Option String)
    (T : ChainTables) : Prop where
  unretired : (T.keyVersions.filter fun kv => kv.retiredAtChainSeq = none).length ≤ 1
  markers : ∀ row ∈ T.rows, row.hmacNext ≠ none → isMarker row = true ∧
    checkRow H S (sortVersions T.keyVersions) uriMap row = .ok .verified

/-! ## What a rotation carries -/

section Carried

variable (H : Hmac) (base : History) (req : RotationRequest)

/-- The lookup of the outgoing version succeeded on the tables of the history. -/
structure LookedUp (outgoing : ℕ) : Prop where
  secrets_ne : req.outgoingSecret ≠ req.incomingSecret
  selected : selectActiveVersion base.tables.keyVersions
    (fingerprintKey H req.outgoingSecret) = some outgoing

/-- The row is a marker of the request, later than the history. -/
structure MarkerOn (outgoing : ℕ) (row : AuditRow) : Prop
    extends LookedUp H base req outgoing where
  seq : base.tables.nextSeq ≤ row.chainSeq
  fresh : row.record.eventId ∉ base.tables.rows.map fun row => row.record.eventId
  fields : ∃ createdAt prevHash, row.record.toRecordFields =
    req.markerFields H row.record.eventId createdAt outgoing prevHash
  hmacNext : row.hmacNext =
    some (computeEventHmac H req.incomingSecret row.record.toEventContent)

/-- The marker and the incoming version belong to the request. -/
structure PendingOn (p : PendingRotation) : Prop
    extends MarkerOn H base req p.outgoing p.marker where
  numbered : base.tables.nextKeyVersion ≤ p.incoming.keyVersion
  incoming : p.incoming = ⟨p.incoming.keyVersion, fingerprintKey H req.incomingSecret,
    p.marker.chainSeq + 1, none⟩
  unregistered : fingerprintKey H req.incomingSecret ∉
    base.tables.keyVersions.map fun kv => kv.fingerprint

/-- What a rotation carries in each phase.  Its update has matched exactly if no
rotation had committed. -/
def PhaseOn (commits : List PendingRotation) : RotationPhase → Prop
  | .idle => True
  | .lookedUp outgoing => LookedUp H base req outgoing
  | .headRead outgoing _ => LookedUp H base req outgoing
  | .markerInserted outgoing marker => MarkerOn H base req outgoing marker
  | .keyInserted p => PendingOn H base req p
  | .updated p matched => PendingOn H base req p ∧ (matched = true ↔ commits = [])
  | .committed => True
  | .raised => True

end Carried

/-- The key versions after the commits: the first of them has retired its outgoing
version, and all have registered their incoming one. -/
def committedVersions (keyVersions : List KeyVersion) :
    List PendingRotation → List KeyVersion
  | [] => keyVersions
  | p :: rest =>
      retireVersion p.outgoing (p.marker.chainSeq + 1) keyVersions ++
        (p :: rest).map fun q => q.incoming

structure ConcurrentOk (H : Hmac) (base : History) (calls : ι → RotationRequest)
    (s : RotationState ι) : Prop where
  nextSeq : base.tables.nextSeq ≤ s.tables.nextSeq
  nextKeyVersion : base.tables.nextKeyVersion ≤ s.tables.nextKeyVersion
  keyVersions : s.tables.keyVersions =
    committedVersions base.tables.keyVersions s.commits
  kept : ∀ row ∈ base.tables.rows, row ∈ s.tables.rows
  markers : ∀ row ∈ s.tables.rows, row.hmacNext ≠ none →
    row ∈ base.tables.rows ∨ ∃ p ∈ s.commits, row = p.marker
  commits : ∀ p ∈ s.commits, ∃ i, PendingOn H base (calls i) p
  phase : ∀ i, PhaseOn H base (calls i) s.commits (s.phase i)
  exclusive : ∀ i j p q, s.phase i = .updated p true → s.phase j = .updated q true → i = j

variable {H : Hmac} {base : History} {calls : ι → RotationRequest}
  {s t : RotationState ι} {activation : ℕ}

theorem HistoryOk.unretired_unique (h : HistoryOk H activation base) {kv kv' : KeyVersion}
    (hkv : kv ∈ base.tables.keyVersions) (hopen : kv.retiredAtChainSeq = none)
    (hkv' : kv' ∈ base.tables.keyVersions) (hopen' : kv'.retiredAtChainSeq = none) :
    kv = kv' := by
  obtain ⟨active, hactive, -⟩ := h.active base.tables.nextSeq h.started
  have hone := h.eq_of_unretired le_rfl hactive hkv hopen
  have htwo := h.eq_of_unretired le_rfl hactive hkv' hopen'
  rw [hone, htwo]

theorem updateMatches_eq_true_iff {version : ℕ} {keyVersions : List KeyVersion} :
    updateMatches version keyVersions = true ↔
      ∃ kv ∈ keyVersions, kv.keyVersion = version ∧ kv.retiredAtChainSeq = none := by
  simp [updateMatches]

theorem mem_retireVersion_of_unretired {version seq : ℕ} {keyVersions : List KeyVersion}
    {kv : KeyVersion} (hkv : kv ∈ retireVersion version seq keyVersions)
    (hopen : kv.retiredAtChainSeq = none) :
    kv ∈ keyVersions ∧ kv.keyVersion ≠ version := by
  obtain ⟨old, hold, rfl⟩ := List.mem_map.mp hkv
  by_cases hret : retires version old
  · rw [if_pos hret] at hopen
    cases hopen
  · rw [if_neg hret] at hopen ⊢
    exact ⟨hold, fun heq => hret ⟨heq, hopen⟩⟩

theorem LookedUp.outgoing_eq (hbase : HistoryOk H activation base)
    {req req' : RotationRequest} {v v' : ℕ} (h : LookedUp H base req v)
    (h' : LookedUp H base req' v') : v = v' := by
  obtain ⟨kv, hkv, -, hopen, rfl⟩ := exists_of_selectActiveVersion h.selected
  obtain ⟨kv', hkv', -, hopen', rfl⟩ := exists_of_selectActiveVersion h'.selected
  rw [hbase.unretired_unique hkv hopen hkv' hopen']

/-- Rotations never take a fingerprint out of the table. -/
theorem fingerprint_mem_committedVersions {fingerprint : String}
    {keyVersions : List KeyVersion} (commits : List PendingRotation)
    (h : fingerprint ∈ keyVersions.map fun kv => kv.fingerprint) :
    fingerprint ∈ (committedVersions keyVersions commits).map fun kv => kv.fingerprint := by
  cases commits with
  | nil => exact h
  | cons p rest =>
      obtain ⟨kv, hkv, rfl⟩ := List.mem_map.mp h
      rw [committedVersions, List.map_append]
      apply List.mem_append_left
      refine List.mem_map.mpr ⟨_, List.mem_map_of_mem hkv, ?_⟩
      exact fingerprint_retire _ _ kv

/-- Once a rotation has committed, only incoming versions are unretired. -/
theorem incoming_of_unretired (hbase : HistoryOk H activation base)
    {commits : List PendingRotation}
    (hcommits : ∀ p ∈ commits, ∃ i, PendingOn H base (calls i) p) (hne : commits ≠ [])
    {kv : KeyVersion} (hkv : kv ∈ committedVersions base.tables.keyVersions commits)
    (hopen : kv.retiredAtChainSeq = none) :
    ∃ p ∈ commits, kv = p.incoming := by
  obtain ⟨p, rest, rfl⟩ := List.exists_cons_of_ne_nil hne
  rw [committedVersions] at hkv
  rcases List.mem_append.mp hkv with hkv | hkv
  · obtain ⟨i, hp⟩ := hcommits p (by simp)
    obtain ⟨out, hout, -, hopen', hversion⟩ := exists_of_selectActiveVersion hp.selected
    obtain ⟨hold, hnumber⟩ := mem_retireVersion_of_unretired hkv hopen
    rw [hbase.unretired_unique hold hopen hout hopen'] at hnumber
    exact absurd hversion hnumber
  · obtain ⟨q, hq, rfl⟩ := List.mem_map.mp hkv
    exact ⟨q, hq, rfl⟩

/-- A lookup that succeeds runs before every commit. -/
theorem commits_eq_nil_of_lookup (hbase : HistoryOk H activation base)
    (hcalls : ∀ i, (calls i).outgoingSecret = base.current) (h : ConcurrentOk H base calls s)
    {i : ι} {outgoing : ℕ}
    (hselect : selectActiveVersion s.tables.keyVersions
      (fingerprintKey H (calls i).outgoingSecret) = some outgoing) :
    s.commits = [] := by
  by_contra hne
  obtain ⟨kv, hkv, hfingerprint, hopen, -⟩ := exists_of_selectActiveVersion hselect
  rw [h.keyVersions] at hkv
  obtain ⟨p, hp, rfl⟩ := incoming_of_unretired hbase h.commits hne hkv hopen
  obtain ⟨j, hpending⟩ := h.commits p hp
  obtain ⟨out, hout, hregistered, -, -⟩ := exists_of_selectActiveVersion hpending.selected
  apply hpending.unregistered
  rw [hpending.incoming] at hfingerprint
  change fingerprintKey H (calls j).incomingSecret = _ at hfingerprint
  rw [hfingerprint, hcalls i, ← hcalls j, ← hregistered]
  exact List.mem_map_of_mem hout

/-- The update of a rotation matches exactly if none has committed. -/
theorem updateMatches_iff (hbase : HistoryOk H activation base)
    (h : ConcurrentOk H base calls s) {req : RotationRequest} {outgoing : ℕ}
    (hlooked : LookedUp H base req outgoing) :
    updateMatches outgoing s.tables.keyVersions = true ↔ s.commits = [] := by
  obtain ⟨out, hout, -, hopen, hversion⟩ := exists_of_selectActiveVersion hlooked.selected
  rw [updateMatches_eq_true_iff, h.keyVersions]
  constructor
  · rintro ⟨kv, hkv, hnumber, hunretired⟩
    by_contra hne
    obtain ⟨p, hp, rfl⟩ := incoming_of_unretired hbase h.commits hne hkv hunretired
    obtain ⟨j, hpending⟩ := h.commits p hp
    have hlt := hbase.numbered out hout
    have hle := hpending.numbered
    omega
  · intro hnil
    rw [hnil]
    exact ⟨out, hout, hversion, hopen⟩

/-! ## Steps -/

namespace ConcurrentOk

theorem start (base : History) (calls : ι → RotationRequest) :
    ConcurrentOk H base calls (.start base.tables) where
  nextSeq := le_rfl
  nextKeyVersion := le_rfl
  keyVersions := rfl
  kept := fun _ hrow => hrow
  markers := fun _ hrow _ => Or.inl hrow
  commits := by
    intro p hp
    cases hp
  phase := fun _ => trivial
  exclusive := by
    intro i j p q hi
    cases hi

theorem drawSeq (h : ConcurrentOk H base calls s) : ConcurrentOk H base calls s.drawSeq :=
  { h with nextSeq := Nat.le_succ_of_le h.nextSeq }

theorem drawVersion (h : ConcurrentOk H base calls s) :
    ConcurrentOk H base calls s.drawVersion :=
  { h with nextKeyVersion := Nat.le_succ_of_le h.nextKeyVersion }

theorem insertRow (h : ConcurrentOk H base calls s) (seq : ℕ) (record : AuditEventRecord) :
    ConcurrentOk H base calls (s.insertRow seq record) :=
  { h with
    kept := fun row hrow => List.mem_append_left _ (h.kept row hrow)
    markers := by
      intro row hrow hmarker
      rcases List.mem_append.mp hrow with hrow | hrow
      · exact h.markers row hrow hmarker
      · rw [List.mem_singleton.mp hrow] at hmarker
        exact absurd rfl hmarker }

theorem keyVersions_commit (h : ConcurrentOk H base calls s) {p : PendingRotation}
    {matched : Bool} (hmatched : matched = true ↔ s.commits = []) :
    (s.commit p matched).tables.keyVersions =
      committedVersions base.tables.keyVersions (s.commits ++ [p]) := by
  change (if matched = true then _ else _) ++ [p.incoming] = _
  rw [h.keyVersions]
  by_cases hnil : s.commits = []
  · rw [if_pos (hmatched.mpr hnil), hnil]
    rfl
  · rw [if_neg (mt hmatched.mp hnil)]
    obtain ⟨q, rest, hcommits⟩ := List.exists_cons_of_ne_nil hnil
    simp [hcommits, committedVersions]

variable [DecidableEq ι]

/-- A rotation moves to a phase in which it holds the row only if no other does. -/
theorem setPhase (h : ConcurrentOk H base calls s) {i : ι} {p : RotationPhase}
    (hp : PhaseOn H base (calls i) s.commits p)
    (hholds : ∀ q, p = .updated q true → ∀ j q', j ≠ i → s.phase j ≠ .updated q' true) :
    ConcurrentOk H base calls (s.setPhase i p) where
  nextSeq := h.nextSeq
  nextKeyVersion := h.nextKeyVersion
  keyVersions := h.keyVersions
  kept := h.kept
  markers := h.markers
  commits := h.commits
  phase := by
    intro j
    by_cases hji : j = i
    · subst hji
      rw [RotationState.setPhase_self]
      exact hp
    · rw [s.setPhase_of_ne hji]
      exact h.phase j
  exclusive := by
    intro j k q q' hj hk
    by_cases hji : j = i
    · subst hji
      by_cases hkj : k = j
      · exact hkj.symm
      · rw [RotationState.setPhase_self] at hj
        rw [s.setPhase_of_ne hkj] at hk
        exact absurd hk (hholds q hj k q' hkj)
    · rw [s.setPhase_of_ne hji] at hj
      by_cases hki : k = i
      · subst hki
        rw [RotationState.setPhase_self] at hk
        exact absurd hj (hholds q' hk j q hji)
      · rw [s.setPhase_of_ne hki] at hk
        exact h.exclusive j k q q' hj hk

theorem commit (h : ConcurrentOk H base calls s) {i : ι} {p : PendingRotation}
    {matched : Bool} (hphase : s.phase i = .updated p matched) :
    ConcurrentOk H base calls ((s.commit p matched).setPhase i .committed) := by
  have hi := h.phase i
  rw [hphase] at hi
  obtain ⟨hpending, hmatched⟩ := hi
  -- no other update has matched and not committed
  have hother : ∀ j q b, j ≠ i → s.phase j = .updated q b → b = false := by
    intro j q b hji hj
    rcases b with _ | _
    · rfl
    · have hj' := h.phase j
      rw [hj] at hj'
      have htrue := hmatched.mpr (hj'.2.mp rfl)
      rw [htrue] at hphase
      exact absurd (h.exclusive j i q p hj hphase) hji
  refine ⟨h.nextSeq, h.nextKeyVersion, h.keyVersions_commit hmatched, ?_, ?_, ?_, ?_, ?_⟩
  · exact fun row hrow => List.mem_append_left _ (h.kept row hrow)
  · intro row hrow hmarker
    rcases List.mem_append.mp hrow with hrow | hrow
    · rcases h.markers row hrow hmarker with hold | ⟨q, hq, rfl⟩
      · exact Or.inl hold
      · exact Or.inr ⟨q, List.mem_append_left _ hq, rfl⟩
    · exact Or.inr ⟨p, List.mem_append_right _ (by simp), List.mem_singleton.mp hrow⟩
  · intro q hq
    rcases List.mem_append.mp hq with hq | hq
    · exact h.commits q hq
    · rw [List.mem_singleton.mp hq]
      exact ⟨i, hpending⟩
  · intro j
    by_cases hji : j = i
    · subst hji
      rw [RotationState.setPhase_self]
      trivial
    · rw [(s.commit p matched).setPhase_of_ne hji]
      have hj := h.phase j
      change PhaseOn H base (calls j) (s.commits ++ [p]) (s.phase j)
      cases hpj : s.phase j with
      | updated q b =>
          rw [hpj] at hj
          refine ⟨hj.1, ?_⟩
          rw [hother j q b hji hpj]
          simp
      | idle => trivial
      | committed => trivial
      | raised => trivial
      | lookedUp v => rw [hpj] at hj; exact hj
      | headRead v prev => rw [hpj] at hj; exact hj
      | markerInserted v row => rw [hpj] at hj; exact hj
      | keyInserted q => rw [hpj] at hj; exact hj
  · intro j k q q' hj hk
    by_cases hji : j = i
    · subst hji
      rw [RotationState.setPhase_self] at hj
      cases hj
    · rw [(s.commit p matched).setPhase_of_ne hji] at hj
      exact absurd (hother j q true hji hj) (by decide)

theorem step (h : ConcurrentOk H base calls s) (hbase : HistoryOk H activation base)
    (hcalls : ∀ i, (calls i).outgoingSecret = base.current)
    (hstep : RotationStep H calls s t) : ConcurrentOk H base calls t := by
  cases hstep with
  | lookup i outgoing hphase hne hselect =>
      have hnil := commits_eq_nil_of_lookup hbase hcalls h hselect
      have hkv := h.keyVersions
      rw [hnil] at hkv
      rw [hkv] at hselect
      refine h.setPhase ⟨hne, hselect⟩ ?_
      intro q hq
      cases hq
  | readHead i outgoing hphase =>
      have hi := h.phase i
      rw [hphase] at hi
      refine h.setPhase hi ?_
      intro q hq
      cases hq
  | insertMarker i outgoing prevHash eventId createdAt marker hphase hmarker hfresh hwait =>
      have hi := h.phase i
      rw [hphase] at hi
      have hfields := AuditEventRecord.construct_eq_some_iff.mp hmarker
      have hid : marker.eventId = eventId := by
        rw [hfields]
        rfl
      refine h.drawSeq.setPhase ⟨hi, h.nextSeq, ?_, ⟨createdAt, prevHash, ?_⟩, rfl⟩ ?_
      · intro hmem
        rw [hid] at hmem
        obtain ⟨row, hrow, hrowId⟩ := List.mem_map.mp hmem
        exact hfresh (List.mem_map.mpr ⟨row, h.kept row hrow, hrowId⟩)
      · rw [hid]
        exact hfields
      · intro q hq
        cases hq
  | insertKey i outgoing marker hphase hunique hwait =>
      have hi := h.phase i
      rw [hphase] at hi
      refine h.drawVersion.setPhase ⟨hi, h.nextKeyVersion, rfl, ?_⟩ ?_
      · intro hmem
        apply hunique
        rw [h.keyVersions]
        exact fingerprint_mem_committedVersions _ hmem
      · intro q hq
        cases hq
  | update i p hphase hwait =>
      have hi := h.phase i
      rw [hphase] at hi
      refine h.setPhase ⟨hi, updateMatches_iff hbase h hi.toLookedUp⟩ ?_
      intro q _ j q' _ hj
      have hj' := h.phase j
      rw [hj] at hj'
      exact hwait j q' hj (hj'.1.toLookedUp.outgoing_eq hbase hi.toLookedUp)
  | commit i p matched hphase => exact h.commit hphase
  | fail i hphase =>
      refine h.setPhase trivial ?_
      intro q hq
      cases hq
  | drawSeq => exact { h.drawSeq with }
  | insertRow seq record hseq hfresh => exact h.insertRow seq record

theorem of_reachable (hbase : HistoryOk H activation base)
    (hcalls : ∀ i, (calls i).outgoingSecret = base.current)
    (h : (concurrentRotations H base calls).Reachable s) : ConcurrentOk H base calls s := by
  refine System.invariant (I := ConcurrentOk H base calls) ?_ ?_ h
  · rintro s rfl
    exact .start base calls
  · intro s t _ hs hstep
    exact hs.step hbase hcalls hstep

end ConcurrentOk

/-! ## Soundness -/

variable {S : KeySource} {uriMap : String → Option String}

theorem isMarker_of_asMarker {row : AuditRow}
    (hcontent : row.record.asMarker = row.record.toEventContent)
    (hnext : row.hmacNext ≠ none) : isMarker row = true := by
  have hkind : row.record.kind = keyRotationKind := by
    rw [← hcontent]
    rfl
  rw [isMarker, hkind, Option.isSome_iff_ne_none.mpr hnext]
  decide

/-- The key versions of a history are sound for its markers. -/
theorem HistoryOk.keysSound (h : HistoryOk H activation base)
    (hres : ∀ n, activation ≤ n → Resolves H S uriMap (base.keyAt n)) {T : ChainTables}
    (hversions : T.keyVersions = base.tables.keyVersions)
    (hrows : ∀ row ∈ T.rows, row.hmacNext ≠ none → row ∈ base.tables.rows) :
    KeysSound H S uriMap T where
  unretired := by
    obtain ⟨kv, hactive, -⟩ := h.active base.tables.nextSeq h.started
    have hone := congrArg List.length hactive
    rw [activeKeyCandidates, ← List.countP_eq_length_filter] at hone
    rw [hversions, ← List.countP_eq_length_filter]
    refine le_trans (List.countP_mono_left ?_) hone.le
    intro x hx hopen
    rw [decide_eq_true_eq] at hopen
    simp [h.activated x hx, hopen]
  markers := by
    intro row hrow hnext
    have hbase := hrows row hrow hnext
    obtain ⟨mac, hmac⟩ := Option.ne_none_iff_exists'.mp hnext
    have hcontent := ((h.rows row hbase).marker mac hmac).1
    rw [hversions]
    exact ⟨isMarker_of_asMarker hcontent hnext, h.checkRow_eq hres (perm_sortVersions _) hbase⟩

/-- A single rotation, whatever its sequence number, is a rotation of the history
after the numbers before it have been burned. -/
theorem PendingOn.historyOk {req : RotationRequest} {p : PendingRotation}
    (h : PendingOn H base req p) (hbase : HistoryOk H activation base)
    (hcurrent : req.outgoingSecret = base.current) :
    ∃ after : History, HistoryOk H activation after ∧
      after.tables.keyVersions = committedVersions base.tables.keyVersions [p] ∧
      after.tables.rows = base.tables.rows ++ [p.marker] ∧
      ∀ n, after.keyAt n = base.keyAt n ∨ after.keyAt n = req.incomingSecret := by
  obtain ⟨createdAt, prevHash, hfields⟩ := h.fields
  obtain ⟨out, hout, -, -, hversion⟩ := exists_of_selectActiveVersion h.selected
  let seqs := p.marker.chainSeq - base.tables.nextSeq
  let versions := p.incoming.keyVersion - base.tables.nextKeyVersion
  have hseq : base.tables.nextSeq + seqs = p.marker.chainSeq :=
    Nat.add_sub_cancel' h.seq
  have hnumber : base.tables.nextKeyVersion + versions = p.incoming.keyVersion :=
    Nat.add_sub_cancel' h.numbered
  have hkeep : ¬(p.incoming.keyVersion = p.outgoing ∧
      p.incoming.retiredAtChainSeq = none) := by
    have hlt := hbase.numbered out hout
    have hle := h.numbered
    omega
  let T : ChainTables :=
    { rows := base.tables.rows ++ [p.marker]
      nextSeq := p.marker.chainSeq + 1
      keyVersions := committedVersions base.tables.keyVersions [p]
      nextKeyVersion := p.incoming.keyVersion + 1 }
  let result : RotationResult :=
    ⟨fingerprintKey H req.outgoingSecret, fingerprintKey H req.incomingSecret,
      p.marker.record.eventId, p.marker.chainSeq, p.outgoing, p.incoming.keyVersion⟩
  have hrotated : Rotated H (base.burn seqs versions).tables req T result
      p.marker.record.eventId createdAt prevHash p.marker.record := by
    refine ⟨h.secrets_ne, h.selected, hfields, h.fresh, h.unregistered, hseq.symm, ?_,
      ?_, ?_, ?_⟩
    · change base.tables.rows ++ [p.marker] = base.tables.rows ++ [⟨_ + seqs, _, _⟩]
      rw [hseq, ← h.hmacNext]
    · change _ = base.tables.nextSeq + seqs + 1
      rw [hseq]
    · change retireVersion _ _ base.tables.keyVersions ++ [p.incoming] =
        retireVersion _ (base.tables.nextSeq + seqs + 1) (base.tables.keyVersions ++
          [⟨base.tables.nextKeyVersion + versions, _, base.tables.nextSeq + seqs + 1, none⟩])
      rw [hseq, hnumber, ← h.incoming, retireVersion, retireVersion, List.map_append,
        List.map_singleton, if_neg hkeep]
    · change _ = base.tables.nextKeyVersion + versions + 1
      rw [hnumber]
  have hburned : req.outgoingSecret = (base.burn seqs versions).current :=
    hcurrent.trans (hbase.current _ (Nat.le_add_right _ _)).symm
  refine ⟨_, (hbase.burn seqs versions).rotate hrotated hburned, rfl, rfl, ?_⟩
  intro n
  by_cases hn : n ≤ result.markerChainSeq
  · exact Or.inl (if_pos hn)
  · exact Or.inr (if_neg hn)

namespace ConcurrentOk

/-- The tables are sound exactly if at most one rotation has committed. -/
theorem keysSound_iff (h : ConcurrentOk H base calls s)
    (hbase : HistoryOk H activation base)
    (hcalls : ∀ i, (calls i).outgoingSecret = base.current)
    (hres : ∀ n, activation ≤ n → Resolves H S uriMap (base.keyAt n))
    (hincoming : ∀ i, Resolves H S uriMap (calls i).incomingSecret) :
    KeysSound H S uriMap s.tables ↔ s.commits.length ≤ 1 := by
  have hversions := h.keyVersions
  rcases hcommits : s.commits with _ | ⟨p, _ | ⟨q, rest⟩⟩
  · rw [hcommits] at hversions
    refine iff_of_true (hbase.keysSound hres hversions ?_) (by simp)
    intro row hrow hnext
    rcases h.markers row hrow hnext with hold | ⟨p, hp, -⟩
    · exact hold
    · rw [hcommits] at hp
      cases hp
  · rw [hcommits] at hversions
    obtain ⟨i, hp⟩ := h.commits p (by rw [hcommits]; simp)
    obtain ⟨after, hafter, hkv, hrows, hkeys⟩ := hp.historyOk hbase (hcalls i)
    refine iff_of_true (hafter.keysSound ?_ (hversions.trans hkv.symm) ?_) (by simp)
    · intro n hn
      rcases hkeys n with hkey | hkey
      · rw [hkey]
        exact hres n hn
      · rw [hkey]
        exact hincoming i
    · intro row hrow hnext
      rw [hrows]
      rcases h.markers row hrow hnext with hold | ⟨p', hp', rfl⟩
      · exact List.mem_append_left _ hold
      · rw [hcommits, List.mem_singleton] at hp'
        rw [hp']
        exact List.mem_append_right _ (by simp)
  · rw [hcommits] at hversions
    refine iff_of_false ?_ (by simp)
    intro hsound
    -- the versions of the first two rotations are both unretired
    have hopen : ∀ r ∈ s.commits, r.incoming.retiredAtChainSeq = none := by
      intro r hr
      obtain ⟨i, hpending⟩ := h.commits r hr
      rw [hpending.incoming]
    have hp := hopen p (by rw [hcommits]; simp)
    have hq := hopen q (by rw [hcommits]; simp)
    have hle := hsound.unretired
    rw [hversions] at hle
    simp only [committedVersions, List.map_cons, List.filter_append, List.length_append,
      List.filter_cons, hp, hq, decide_true, if_true, List.length_cons] at hle
    omega

end ConcurrentOk

/-- The closing update of a rotation finds its outgoing version unretired. -/
def UpdateFindsVersion (s t : RotationState ι) : Prop :=
  ∀ i p matched, s.phase i = .keyInserted p → t.phase i = .updated p matched →
    ∃ kv ∈ s.tables.keyVersions,
      kv.keyVersion = p.outgoing ∧ kv.retiredAtChainSeq = none

/-- No update has gone by without a match, and at most one rotation has committed. -/
structure AllMatched (s : RotationState ι) : Prop where
  matched : ∀ i p, s.phase i ≠ .updated p false
  commits : s.commits.length ≤ 1

section Along

variable [DecidableEq ι]

theorem AllMatched.setPhase (h : AllMatched s) {i : ι} {p : RotationPhase}
    (hp : ∀ q, p ≠ .updated q false) : AllMatched (s.setPhase i p) := by
  refine ⟨?_, h.commits⟩
  intro j q
  by_cases hji : j = i
  · subst hji
    rw [RotationState.setPhase_self]
    exact hp q
  · rw [s.setPhase_of_ne hji]
    exact h.matched j q

theorem AllMatched.step (h : AllMatched s) (hok : ConcurrentOk H base calls s)
    (hstep : RotationStep H calls s t) (hfinds : UpdateFindsVersion s t) :
    AllMatched t := by
  cases hstep with
  | lookup i outgoing hphase hne hselect => exact h.setPhase (by rintro q ⟨⟩)
  | readHead i outgoing hphase => exact h.setPhase (by rintro q ⟨⟩)
  | insertMarker i outgoing prevHash eventId createdAt marker hphase hmarker hfresh hwait =>
      exact AllMatched.setPhase (s := s.drawSeq) ⟨h.matched, h.commits⟩ (by rintro q ⟨⟩)
  | insertKey i outgoing marker hphase hunique hwait =>
      exact AllMatched.setPhase (s := s.drawVersion) ⟨h.matched, h.commits⟩
        (by rintro q ⟨⟩)
  | update i p hphase hwait =>
      have hfound := hfinds i p _ hphase (s.setPhase_self i _)
      rw [updateMatches_eq_true_iff.mpr hfound]
      exact h.setPhase (by rintro q ⟨⟩)
  | commit i p matched hphase =>
      rcases matched with _ | _
      · exact absurd hphase (h.matched i p)
      · have hi := hok.phase i
        rw [hphase] at hi
        have hnil := hi.2.mp rfl
        refine AllMatched.setPhase (s := s.commit p true) ⟨h.matched, ?_⟩ (by rintro q ⟨⟩)
        change (s.commits ++ [p]).length ≤ 1
        rw [hnil]
        rfl
  | fail i hphase => exact h.setPhase (by rintro q ⟨⟩)
  | drawSeq => exact ⟨h.matched, h.commits⟩
  | insertRow seq record hseq hfresh => exact ⟨h.matched, h.commits⟩

theorem AllMatched.of_reachable (hbase : HistoryOk H activation base)
    (hcalls : ∀ i, (calls i).outgoingSecret = base.current)
    (h : ((concurrentRotations H base calls).along UpdateFindsVersion).Reachable s) :
    AllMatched s := by
  refine System.invariant (I := AllMatched) ?_ ?_ h
  · rintro s rfl
    exact ⟨by rintro i p ⟨⟩, Nat.zero_le _⟩
  · rintro s t hreach hs ⟨hstep, hfinds⟩
    exact hs.step (.of_reachable hbase hcalls hreach.of_along) hstep hfinds

/-- Rotations away from one key, interleaved with each other and with ordinary
inserts in any way.  As long as every closing update finds its outgoing version
unretired, at most one version is unretired and every committed marker verifies;
and the tables are unsound in every state in which two rotations have committed. -/
theorem concurrent_rotations_sound {B : Bootstrap}
    (hbase : (rotationHistory H B).Reachable base)
    (hcalls : ∀ i, (calls i).outgoingSecret = base.current)
    (hres : ∀ n, B.activation ≤ n → Resolves H S uriMap (base.keyAt n))
    (hincoming : ∀ i, Resolves H S uriMap (calls i).incomingSecret) :
    (∀ s, ((concurrentRotations H base calls).along UpdateFindsVersion).Reachable s →
      KeysSound H S uriMap s.tables) ∧
    ∀ s, (concurrentRotations H base calls).Reachable s →
      (KeysSound H S uriMap s.tables ↔ s.commits.length ≤ 1) := by
  have hhistory := HistoryOk.of_reachable hbase
  have hiff : ∀ s, (concurrentRotations H base calls).Reachable s →
      (KeysSound H S uriMap s.tables ↔ s.commits.length ≤ 1) := by
    intro s hs
    have hok := ConcurrentOk.of_reachable hhistory hcalls hs
    exact hok.keysSound_iff hhistory hcalls hres hincoming
  refine ⟨?_, hiff⟩
  intro s hs
  exact (hiff s hs.of_along).mpr (AllMatched.of_reachable hhistory hcalls hs).commits

end Along

/-! ### Two rotations that overlap -/

def rivalIncoming : Bytes := (List.range' 64 32).map UInt8.ofNat

def rivalFingerprint : BitVec 256 :=
  0x5ffd0bd3fb1dfb74cb156cc2caed4c1a4377a2db224ac5dd618871eced17c9e9#256

/-- Two operators rotate the same key, each to a key of their own. -/
def rivalCalls : Bool → RotationRequest
  | false => sampleRequest false
  | true => { sampleRequest false with incomingSecret := rivalIncoming }

def rivalEventId : Bool → Uuid
  | false => ⟨2⟩
  | true => ⟨3⟩

def rivalMarker (second : Bool) : EventContent :=
  rotationContent (rivalEventId second) systemSessionId "governance.system" none
    [("outgoing_fingerprint", .str (digestText sampleFingerprint₁)),
     ("incoming_fingerprint",
       .str (digestText (if second then rivalFingerprint else sampleFingerprint₂))),
     ("outgoing_key_version", .int 1),
     ("rotation_reason", .str "scheduled"),
     ("operator_id", .str "ops")]
    none sampleTime

def rivalDigestOut : BitVec 256 :=
  0xb740729556f2526cf0563d62c09fbe8db9bbe11094fcf1b5fac55e34f29a63c9#256

def rivalDigestUnderFirst : BitVec 256 :=
  0x0ac0f6d53c14f5ec1d540097cd4cf8cb71192a2159fc1d5948aa6625052c9c98#256

/-- HMAC-SHA256 on the messages of the two rotations. -/
def rivalHmac : Hmac :=
  (Hmac.ofTable
    [tableEntry sampleSecret (rivalMarker true) rivalDigestOut,
     tableEntry sampleIncoming (rivalMarker true) rivalDigestUnderFirst,
     tableEntry rivalIncoming (rivalMarker true)
       0x95b5d9182d7624b153cc9ccea9d8b8d19ee5f03ba3339e8fe64f9fb6e5a0ba41#256,
     tableEntry sampleSecret (rivalMarker false)
       0x2afd418eaddc2e9d3eb028daee1c19390347c98fcd1a8383a9bcd099f5c6316b#256,
     tableEntry sampleIncoming (rivalMarker false)
       0xba576adc646bb0f3bd72d6bb8a79afb771dd2c5b741dc399719bef90d88a5776#256
    ]).withFingerprints
    [(sampleSecret, sampleFingerprint₁), (sampleIncoming, sampleFingerprint₂),
     (rivalIncoming, rivalFingerprint)]

theorem rival_fingerprint₁ :
    fingerprintKey rivalHmac sampleSecret = digestText sampleFingerprint₁ :=
  fingerprintKey_withFingerprints _ (by decide)

theorem rival_fingerprint (second : Bool) :
    fingerprintKey rivalHmac (rivalCalls second).incomingSecret =
      digestText (if second then rivalFingerprint else sampleFingerprint₂) := by
  cases second
  · exact fingerprintKey_withFingerprints _ (by decide)
  · exact fingerprintKey_withFingerprints _ (by decide)

def rivalRecord (second : Bool) : AuditEventRecord where
  toRecordFields :=
    (rivalCalls second).markerFields rivalHmac (rivalEventId second) sampleTime 1 none
  valid := by
    refine RotationRequest.markerFields_valid ?_ ?_
    · cases second <;> decide
    · rintro t ⟨⟩

theorem rivalRecord_content (second : Bool) :
    (rivalRecord second).toEventContent = rivalMarker second := by
  have hout : (rivalCalls second).outgoingSecret = sampleSecret := by
    cases second <;> rfl
  change (rivalCalls second).markerContent rivalHmac (rivalEventId second) sampleTime 1
    none = _
  rw [RotationRequest.markerContent, RotationRequest.metadata, hout, rival_fingerprint₁,
    rival_fingerprint]
  cases second <;> rfl

def rivalBase : History := .start rivalHmac sampleBootstrap

theorem rival_selects (second : Bool) :
    selectActiveVersion rivalBase.tables.keyVersions
      (fingerprintKey rivalHmac (rivalCalls second).outgoingSecret) = some 1 := by
  have hout : (rivalCalls second).outgoingSecret = sampleSecret := by
    cases second <;> rfl
  simp [selectActiveVersion, rivalBase, History.start, sampleBootstrap, hout]

theorem rival_unregistered (second : Bool) :
    fingerprintKey rivalHmac (rivalCalls second).incomingSecret ∉
      rivalBase.tables.keyVersions.map fun kv => kv.fingerprint := by
  change _ ∉ [fingerprintKey rivalHmac sampleSecret]
  rw [rival_fingerprint, rival_fingerprint₁, List.mem_singleton]
  intro heq
  cases second <;> exact absurd (digestText_injective heq) (by decide)

/-- Both lookups see the key unretired, so both rotations commit. -/
theorem rivals_both_commit :
    ∃ s, (concurrentRotations rivalHmac rivalBase rivalCalls).Reachable s ∧
      (∀ i, s.phase i = .committed) ∧
      s.tables.keyVersions =
        [⟨1, fingerprintKey rivalHmac sampleSecret, 0, some 2⟩,
         ⟨2, fingerprintKey rivalHmac sampleIncoming, 2, none⟩,
         ⟨3, fingerprintKey rivalHmac rivalIncoming, 3, none⟩] ∧
      ⟨2, rivalRecord true, some (computeEventHmac rivalHmac rivalIncoming
        (rivalRecord true).toEventContent)⟩ ∈ s.tables.rows := by
  have hmarker : ∀ b, AuditEventRecord.construct ((rivalCalls b).markerFields rivalHmac
      (rivalEventId b) sampleTime 1 none) = some (rivalRecord b) :=
    fun b => AuditEventRecord.construct_eq_some_iff.mpr rfl
  have hdistinct : fingerprintKey rivalHmac (rivalCalls false).incomingSecret ≠
      fingerprintKey rivalHmac (rivalCalls true).incomingSecret := by
    rw [rival_fingerprint, rival_fingerprint]
    exact fun heq => absurd (digestText_injective heq) (by decide)
  have h₀ : (concurrentRotations rivalHmac rivalBase rivalCalls).Reachable
      (.start rivalBase.tables) := .start rfl
  have h₁ := h₀.next (.lookup _ false 1 rfl (by decide) (rival_selects false))
  have h₂ := h₁.next (.lookup _ true 1 rfl (by decide) (rival_selects true))
  have h₃ := h₂.next (.readHead _ false 1 rfl)
  have h₄ := h₃.next (.readHead _ true 1 rfl)
  have h₅ := h₄.next (.insertMarker _ false 1 none ⟨2⟩ sampleTime _ rfl (hmarker false)
    List.not_mem_nil (by rintro (_ | _) row ⟨⟩))
  have h₆ := h₅.next (.insertMarker _ true 1 none ⟨3⟩ sampleTime _ rfl (hmarker true)
    List.not_mem_nil (by rintro (_ | _) row ⟨⟩; decide))
  have h₇ := h₆.next (.insertKey _ false 1 _ rfl (rival_unregistered false)
    (by rintro (_ | _) kv ⟨⟩))
  have h₈ := h₇.next (.insertKey _ true 1 _ rfl (rival_unregistered true)
    (by rintro (_ | _) kv ⟨⟩; exact hdistinct))
  have h₉ := h₈.next (.update _ false _ rfl (by rintro (_ | _) q ⟨⟩))
  have h₁₀ := h₉.next (.commit _ false _ _ rfl)
  have h₁₁ := h₁₀.next (.update _ true _ rfl (by rintro (_ | _) q ⟨⟩))
  have h₁₂ := h₁₁.next (.commit _ true _ _ rfl)
  refine ⟨_, h₁₂, ?_, rfl, List.mem_append_right _ (List.mem_singleton.mpr rfl)⟩
  rintro (_ | _) <;> rfl

/-- All three keys are files. -/
def rivalKeySource : KeySource where
  environ := fun _ => none
  readBytes := fun path =>
    if path = "/keys/3" then some rivalIncoming else sampleKeySource.readBytes path

def rivalUriMap (fingerprint : String) : Option String :=
  if fingerprint = digestText rivalFingerprint then some "file:///keys/3"
  else sampleUriMap fingerprint

theorem rival_resolves₁ : Resolves rivalHmac rivalKeySource rivalUriMap sampleSecret := by
  refine Resolves.of_uri (?_ : _ = some "file:///keys/1") (by decide) (by decide)
  rw [rival_fingerprint₁, rivalUriMap, if_neg]
  · exact if_pos rfl
  · exact fun h => absurd (digestText_injective h) (by decide)

theorem rival_resolves (second : Bool) :
    Resolves rivalHmac rivalKeySource rivalUriMap (rivalCalls second).incomingSecret := by
  cases second with
  | false =>
      refine Resolves.of_uri (?_ : _ = some "file:///keys/2") (by decide) (by decide)
      rw [rival_fingerprint, rivalUriMap, if_neg]
      · exact (if_neg sampleFingerprint_ne).trans (if_pos rfl)
      · exact fun h => absurd (digestText_injective h) (by decide)
  | true =>
      refine Resolves.of_uri (?_ : _ = some "file:///keys/3") (by decide) (by decide)
      rw [rival_fingerprint]
      exact if_pos rfl

theorem rival_hmac_out :
    computeEventHmac rivalHmac sampleSecret (rivalMarker true) =
      digestText rivalDigestOut := by
  rw [rivalHmac, computeEventHmac_withFingerprints]
  exact computeEventHmac_ofTable_self _ _

theorem rival_hmac_under_first :
    computeEventHmac rivalHmac sampleIncoming (rivalMarker true) =
      digestText rivalDigestUnderFirst := by
  rw [rivalHmac, computeEventHmac_withFingerprints,
    computeEventHmac_ofTable_of_ne (Or.inr (by decide))]
  exact computeEventHmac_ofTable_self _ _

/-- Two overlapping rotations leave two versions unretired, and the second marker
does not verify: the key active at its number is the first incoming one. -/
theorem overlapping_rotations_unsound :
    ∃ s, (concurrentRotations rivalHmac rivalBase rivalCalls).Reachable s ∧
      (∀ i, s.phase i = .committed) ∧
      1 < (s.tables.keyVersions.filter fun kv => kv.retiredAtChainSeq = none).length ∧
      ∃ row ∈ s.tables.rows, isMarker row = true ∧
        checkRow rivalHmac rivalKeySource (sortVersions s.tables.keyVersions) rivalUriMap
          row ≠ .ok .verified := by
  obtain ⟨s, hreach, hdone, hversions, hrow⟩ := rivals_both_commit
  have hmarker : isMarker ⟨2, rivalRecord true, some (computeEventHmac rivalHmac
      rivalIncoming (rivalRecord true).toEventContent)⟩ = true := by
    apply isMarker_of_asMarker
    · rfl
    · simp
  refine ⟨s, hreach, hdone, ?_, _, hrow, hmarker, ?_⟩
  · rw [hversions]
    decide
  · intro hverified
    rw [checkRow_eq_verified_iff] at hverified
    obtain ⟨active, secret, hactive, -, hcheck⟩ := hverified
    rw [if_pos hmarker, checkMarker_eq_verified_iff] at hcheck
    obtain ⟨-, outgoing, -, -, -, houtgoing, -, hmac, -⟩ := hcheck
    rw [hversions] at hactive
    have hfirst : active = ⟨2, fingerprintKey rivalHmac sampleIncoming, 2, none⟩ := by
      have hfound : findActiveKeyAtSeq 2 (sortVersions
          [⟨1, fingerprintKey rivalHmac sampleSecret, 0, some 2⟩,
           ⟨2, fingerprintKey rivalHmac sampleIncoming, 2, none⟩,
           ⟨3, fingerprintKey rivalHmac rivalIncoming, 3, none⟩]) =
          some ⟨2, fingerprintKey rivalHmac sampleIncoming, 2, none⟩ := rfl
      exact Option.some.inj (hactive.symm.trans hfound)
    rw [hfirst] at houtgoing
    have hsecret : sampleIncoming = outgoing :=
      Option.some.inj ((rival_resolves false).symm.trans houtgoing)
    rw [← hsecret] at hmac
    change computeEventHmac rivalHmac sampleSecret (rivalRecord true).toEventContent =
      computeEventHmac rivalHmac sampleIncoming (rivalRecord true).toEventContent at hmac
    rw [rivalRecord_content, rival_hmac_out, rival_hmac_under_first] at hmac
    exact absurd (digestText_injective hmac) (by decide)

/-- If the first rotation is over when the second one looks its key up, the second
one raises and the tables are sound. -/
theorem serial_rotations_sound :
    ∃ s, ((concurrentRotations rivalHmac rivalBase rivalCalls).along
        UpdateFindsVersion).Reachable s ∧
      s.phase false = .committed ∧ s.phase true = .raised ∧
      KeysSound rivalHmac rivalKeySource rivalUriMap s.tables := by
  have hmarker : AuditEventRecord.construct ((rivalCalls false).markerFields rivalHmac
      (rivalEventId false) sampleTime 1 none) = some (rivalRecord false) :=
    AuditEventRecord.construct_eq_some_iff.mpr rfl
  have hquiet : ∀ {s t : RotationState Bool}, (∀ i p, s.phase i ≠ .keyInserted p) →
      UpdateFindsVersion s t := fun h i p _ hi => absurd hi (h i p)
  have h₀ : ((concurrentRotations rivalHmac rivalBase rivalCalls).along
      UpdateFindsVersion).Reachable (.start rivalBase.tables) := .start rfl
  have h₁ := h₀.next ⟨.lookup _ false 1 rfl (by decide) (rival_selects false),
    hquiet (by rintro (_ | _) p ⟨⟩)⟩
  have h₂ := h₁.next ⟨.readHead _ false 1 rfl, hquiet (by rintro (_ | _) p ⟨⟩)⟩
  have h₃ := h₂.next ⟨.insertMarker _ false 1 none ⟨2⟩ sampleTime _ rfl hmarker
    List.not_mem_nil (by rintro (_ | _) row ⟨⟩), hquiet (by rintro (_ | _) p ⟨⟩)⟩
  have h₄ := h₃.next ⟨.insertKey _ false 1 _ rfl (rival_unregistered false)
    (by rintro (_ | _) kv ⟨⟩), hquiet (by rintro (_ | _) p ⟨⟩)⟩
  have h₅ := h₄.next ⟨.update _ false _ rfl (by rintro (_ | _) q ⟨⟩), by
    rintro (_ | _) p matched ⟨⟩ -
    exact ⟨_, List.mem_singleton.mpr rfl, rfl, rfl⟩⟩
  have h₆ := h₅.next ⟨.commit _ false _ _ rfl, hquiet (by rintro (_ | _) p ⟨⟩)⟩
  have h₇ := h₆.next ⟨.fail _ true (Or.inl rfl), hquiet (by rintro (_ | _) p ⟨⟩)⟩
  refine ⟨_, h₇, rfl, rfl, ?_⟩
  have hbase : (rotationHistory rivalHmac sampleBootstrap).Reachable rivalBase := .start rfl
  refine (concurrent_rotations_sound hbase ?_ ?_ rival_resolves).1 _ h₇
  · rintro (_ | _) <;> rfl
  · intro n _
    exact rival_resolves₁

end AgenticGovernance.Audit

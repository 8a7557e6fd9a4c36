import Mathlib
import AgenticGovernance.Audit.Keys
import AgenticGovernance.Audit.PostgresStore

/-!
# Verifying a chain across key rotations

A rotation marker carries two MACs over one payload: `hmac` under the outgoing
key, and `hmac_next` under the incoming one.  `verifyChainWithRotation` checks
every row under the key version that is active at its sequence number, and a
marker also under the version that is active at the next one.

The loop of the source is a fold of `checkRow` over the rows, and
`verifyChainWithRotation_status_ok_iff` says what a clean result means for the
rows.
-/

namespace AgenticGovernance.Audit

open Support

def keyRotationKind : String := "audit.chain_key_rotation"

/-- A stored rotation marker with the fingerprints of its two keys. -/
structure RotationMarkerRow where
  record : AuditEventRecord
  hmacNext : String
  outgoingFingerprint : String
  incomingFingerprint : String

/-- The payload of a marker: no model, no hashes, and the kind fixed. -/
def rotationContent (eventId sessionId : Uuid) (agentId : String)
    (parentEventId : Option Uuid) (metadata : Metadata) (prevHash : Option String)
    (createdAt : Datetime) : EventContent where
  eventId := eventId
  sessionId := sessionId
  agentId := agentId
  parentEventId := parentEventId
  kind := keyRotationKind
  model := none
  inputHash := none
  outputHash := none
  metadata := metadata
  prevHash := prevHash
  createdAt := createdAt

def computeRotationMarkerMacs (H : Hmac) (outgoingSecret incomingSecret : Bytes)
    (eventId sessionId : Uuid) (agentId : String) (parentEventId : Option Uuid)
    (metadata : Metadata) (prevHash : Option String) (createdAt : Datetime) :
    String × String :=
  let content := rotationContent eventId sessionId agentId parentEventId metadata
    prevHash createdAt
  (computeEventHmac H outgoingSecret content, computeEventHmac H incomingSecret content)

def verifyRotationMarker (H : Hmac) (marker : RotationMarkerRow)
    (outgoingSecret incomingSecret : Bytes) : Except PyError Bool := do
  let r := marker.record
  let expected := computeRotationMarkerMacs H outgoingSecret incomingSecret r.eventId
    r.sessionId r.agentId r.parentEventId r.metadata r.prevHash r.createdAt
  let outOk ← compareDigest expected.1 r.hmac
  let inOk ← compareDigest expected.2 marker.hmacNext
  return outOk && inOk

/-- A row to feed to `verify_chain_with_rotation`. -/
abbrev ChainVerifyRow := AuditRow

inductive ChainVerifyStatus where
  | ok
  | failed
  | unverified
  deriving DecidableEq, Repr

structure ChainVerifyResult where
  verified : ℕ
  failed : ℕ
  unverified : ℕ
  status : ChainVerifyStatus
  unresolvedFingerprints : List String
  deriving DecidableEq, Repr

/-- What one turn of the loop counts a row as. -/
inductive RowOutcome where
  | verified
  | failed
  | unverified (unresolved : String)
  deriving DecidableEq, Repr

def noKeyVersionForSeq : String := "<no-key-version-for-seq>"

def noIncomingKeyForMarker : String := "<no-incoming-key-for-marker>"

def RowOutcome.ofCheck (ok : Bool) : RowOutcome :=
  if ok then .verified else .failed

/-- `row.record.kind == KEY_ROTATION_KIND and row.hmac_next is not None` -/
def isMarker (row : ChainVerifyRow) : Bool :=
  row.record.kind = keyRotationKind && row.hmacNext.isSome

variable (H : Hmac) (S : KeySource)

/-- The marker branch of the loop. -/
def checkMarker (sortedVersions : List KeyVersion) (uriMap : String → Option String)
    (row : ChainVerifyRow) (active : KeyVersion) (outgoing : ResolvedKey) :
    Except PyError RowOutcome :=
  match findActiveKeyAtSeq (row.chainSeq + 1) sortedVersions with
  | none => .ok (.unverified noIncomingKeyForMarker)
  | some incomingVersion =>
      if incomingVersion.fingerprint = active.fingerprint then
        .ok (.unverified noIncomingKeyForMarker)
      else
        let incoming := resolveKey H S incomingVersion.fingerprint uriMap
        if incoming.status = .unavailable then
          .ok (.unverified incomingVersion.fingerprint)
        else
          match outgoing.material, incoming.material with
          | some outgoingSecret, some incomingSecret =>
              (verifyRotationMarker H
                ⟨row.record, row.hmacNext.getD "", active.fingerprint,
                  incomingVersion.fingerprint⟩
                outgoingSecret incomingSecret).map .ofCheck
          | _, _ => .error .runtimeError

def checkRow (sortedVersions : List KeyVersion) (uriMap : String → Option String)
    (row : ChainVerifyRow) : Except PyError RowOutcome :=
  match findActiveKeyAtSeq row.chainSeq sortedVersions with
  | none => .ok (.unverified noKeyVersionForSeq)
  | some active =>
      let outgoing := resolveKey H S active.fingerprint uriMap
      if outgoing.status = .unavailable then
        .ok (.unverified active.fingerprint)
      else if isMarker row then
        checkMarker H S sortedVersions uriMap row active outgoing
      else
        match outgoing.material with
        | some secret => (verifyEvent H row.record secret).map .ofCheck
        | none => .error .runtimeError

/-- The counters of the loop and the set of unresolved fingerprints. -/
structure Tally where
  verified : ℕ
  failed : ℕ
  unverified : ℕ
  unresolved : List String

def Tally.zero : Tally := ⟨0, 0, 0, []⟩

def Tally.add (t : Tally) : RowOutcome → Tally
  | .verified => { t with verified := t.verified + 1 }
  | .failed => { t with failed := t.failed + 1 }
  | .unverified name =>
      { t with
        unverified := t.unverified + 1
        unresolved := if name ∈ t.unresolved then t.unresolved else name :: t.unresolved }

def Tally.status (t : Tally) : ChainVerifyStatus :=
  if t.failed > 0 then .failed else if t.unverified > 0 then .unverified else .ok

def Tally.result (t : Tally) : ChainVerifyResult where
  verified := t.verified
  failed := t.failed
  unverified := t.unverified
  status := t.status
  unresolvedFingerprints := t.unresolved.insertionSort (· ≤ ·)

/-- `sorted(key_versions, key=lambda k: k.activated_at_chain_seq)` -/
def sortVersions (keyVersions : List KeyVersion) : List KeyVersion :=
  keyVersions.insertionSort fun a b => a.activatedAtChainSeq ≤ b.activatedAtChainSeq

theorem perm_sortVersions (keyVersions : List KeyVersion) :
    (sortVersions keyVersions).Perm keyVersions :=
  List.perm_insertionSort _ _

/-- One turn of the loop. -/
def tallyRow (sortedVersions : List KeyVersion) (uriMap : String → Option String)
    (t : Tally) (row : ChainVerifyRow) : Except PyError Tally := do
  return t.add (← checkRow H S sortedVersions uriMap row)

def verifyChainWithRotation (rows : List ChainVerifyRow) (keyVersions : List KeyVersion)
    (uriMap : String → Option String) : Except PyError ChainVerifyResult := do
  let sortedVersions := sortVersions keyVersions
  let tally ← rows.foldlM (tallyRow H S sortedVersions uriMap) Tally.zero
  return tally.result

variable {H S}
variable {versions : List KeyVersion} {uriMap : String → Option String}

/-! ## Reading the checks -/

/-- The payload that `verify_rotation_marker` recomputes from a stored row. -/
def EventContent.asMarker (c : EventContent) : EventContent :=
  rotationContent c.eventId c.sessionId c.agentId c.parentEventId c.metadata c.prevHash
    c.createdAt

/-- A marker is accepted exactly if both MACs are those of its payload. -/
theorem verifyRotationMarker_eq_ok_true_iff {marker : RotationMarkerRow}
    {outgoing incoming : Bytes} :
    verifyRotationMarker H marker outgoing incoming = .ok true ↔
      marker.record.hmac = computeEventHmac H outgoing marker.record.asMarker ∧
        marker.hmacNext = computeEventHmac H incoming marker.record.asMarker := by
  rw [← compareDigest_eq_ok_true_iff, ← compareDigest_eq_ok_true_iff]
  simp only [verifyRotationMarker, computeRotationMarkerMacs, EventContent.asMarker,
    bind, Except.bind, pure, Except.pure]
  grind

theorem map_ofCheck_eq_verified_iff {check : Except PyError Bool} :
    check.map RowOutcome.ofCheck = .ok .verified ↔ check = .ok true := by
  rcases check with e | b
  · simp [Except.map]
  · cases b <;> simp [Except.map, RowOutcome.ofCheck]

theorem ResolvedKey.material_eq_none_of_unavailable {k : ResolvedKey}
    (h : k.status = .unavailable) : k.material = none := by
  have hnot : ¬k.material.isSome := by
    rw [k.material_isSome, h]
    decide
  simpa using hnot

/-- When the marker branch counts a row as verified. -/
theorem checkMarker_eq_verified_iff {row : ChainVerifyRow} {active : KeyVersion}
    {outgoing : ResolvedKey} :
    checkMarker H S versions uriMap row active outgoing = .ok .verified ↔
      ∃ incoming outgoingSecret incomingSecret,
        findActiveKeyAtSeq (row.chainSeq + 1) versions = some incoming ∧
        incoming.fingerprint ≠ active.fingerprint ∧
        outgoing.material = some outgoingSecret ∧
        (resolveKey H S incoming.fingerprint uriMap).material = some incomingSecret ∧
        row.record.hmac = computeEventHmac H outgoingSecret row.record.asMarker ∧
        row.hmacNext.getD "" = computeEventHmac H incomingSecret row.record.asMarker := by
  unfold checkMarker
  cases hfind : findActiveKeyAtSeq (row.chainSeq + 1) versions with
  | none => simp
  | some incoming =>
      by_cases hsame : incoming.fingerprint = active.fingerprint
      · simp [hsame]
      · by_cases hun : (resolveKey H S incoming.fingerprint uriMap).status = .unavailable
        · have hnone := ResolvedKey.material_eq_none_of_unavailable hun
          simp [hsame, hun, hnone]
        · rcases hout : outgoing.material with _ | outgoingSecret
          · simp [hsame, hun]
          · rcases hin : (resolveKey H S incoming.fingerprint uriMap).material with
              _ | incomingSecret
            · simp [hsame, hun, hin]
            · simp [hsame, hun, hin, map_ofCheck_eq_verified_iff,
                verifyRotationMarker_eq_ok_true_iff]

/-- When the loop counts a row as verified. -/
theorem checkRow_eq_verified_iff {row : ChainVerifyRow} :
    checkRow H S versions uriMap row = .ok .verified ↔
      ∃ active secret,
        findActiveKeyAtSeq row.chainSeq versions = some active ∧
        (resolveKey H S active.fingerprint uriMap).material = some secret ∧
        if isMarker row then
          checkMarker H S versions uriMap row active
            (resolveKey H S active.fingerprint uriMap) = .ok .verified
        else
          row.record.hmac = computeEventHmac H secret row.record.toEventContent := by
  unfold checkRow
  cases hfind : findActiveKeyAtSeq row.chainSeq versions with
  | none => simp
  | some active =>
      by_cases hun : (resolveKey H S active.fingerprint uriMap).status = .unavailable
      · have hnone := ResolvedKey.material_eq_none_of_unavailable hun
        simp [hun, hnone]
      · have hsome : (resolveKey H S active.fingerprint uriMap).status = .resolved := by
          rcases hstatus : (resolveKey H S active.fingerprint uriMap).status with _ | _
          · rfl
          · exact absurd hstatus hun
        obtain ⟨secret, hsecret⟩ := Option.isSome_iff_exists.mp
          ((resolveKey H S active.fingerprint uriMap).material_isSome.mpr hsome)
        by_cases hmarker : isMarker row = true
        · simp [hun, hmarker, hsecret]
        · simp [hun, hmarker, hsecret, map_ofCheck_eq_verified_iff,
            verifyEvent_eq_ok_true_iff]

/-! ## The loop -/

/-- The rows that were not counted as verified. -/
def Tally.bad (t : Tally) : ℕ := t.failed + t.unverified

theorem Tally.status_eq_ok_iff {t : Tally} : t.status = .ok ↔ t.bad = 0 := by
  unfold Tally.status Tally.bad
  split
  · simp
    omega
  · split
    · simp
      omega
    · simp
      omega

theorem Tally.bad_le_add (t : Tally) (o : RowOutcome) : t.bad ≤ (t.add o).bad := by
  cases o <;> simp [Tally.add, Tally.bad]

theorem Tally.bad_add_eq_iff (t : Tally) (o : RowOutcome) :
    (t.add o).bad = t.bad ↔ o = .verified := by
  cases o <;> simp [Tally.add, Tally.bad]

theorem tallyRow_eq_ok_iff {t t' : Tally} {row : ChainVerifyRow} :
    tallyRow H S versions uriMap t row = .ok t' ↔
      ∃ o, checkRow H S versions uriMap row = .ok o ∧ t' = t.add o := by
  rw [tallyRow]
  rcases checkRow H S versions uriMap row with e | o
  · simp [bind, Except.bind]
  · simp [bind, Except.bind, pure, Except.pure, eq_comm]

/-- A row that is not verified is counted, and the count is never taken back. -/
theorem foldlM_tallyRow_bad {rows : List ChainVerifyRow} {t t' : Tally}
    (h : rows.foldlM (tallyRow H S versions uriMap) t = .ok t') :
    t.bad ≤ t'.bad ∧
      (t'.bad = t.bad → ∀ row ∈ rows, checkRow H S versions uriMap row = .ok .verified) := by
  induction rows generalizing t with
  | nil =>
      cases h
      exact ⟨le_rfl, fun _ row hrow => absurd hrow (List.not_mem_nil)⟩
  | cons row rows ih =>
      rw [List.foldlM_cons] at h
      rcases hrow : tallyRow H S versions uriMap t row with e | next
      · rw [hrow] at h
        cases h
      · rw [hrow] at h
        obtain ⟨o, hcheck, rfl⟩ := tallyRow_eq_ok_iff.mp hrow
        obtain ⟨hle, hall⟩ := ih h
        have hstep := t.bad_le_add o
        refine ⟨hstep.trans hle, ?_⟩
        intro hbad x hx
        have hsame : (t.add o).bad = t.bad := by omega
        rcases List.mem_cons.mp hx with rfl | hx
        · rw [hcheck, (t.bad_add_eq_iff o).mp hsame]
        · exact hall (by omega) x hx

theorem foldlM_tallyRow_of_verified {rows : List ChainVerifyRow}
    (h : ∀ row ∈ rows, checkRow H S versions uriMap row = .ok .verified) (t : Tally) :
    rows.foldlM (tallyRow H S versions uriMap) t =
      .ok { t with verified := t.verified + rows.length } := by
  induction rows generalizing t with
  | nil => rfl
  | cons row rows ih =>
      have hrow : tallyRow H S versions uriMap t row = .ok (t.add .verified) :=
        tallyRow_eq_ok_iff.mpr ⟨_, h row (by simp), rfl⟩
      rw [List.foldlM_cons, hrow]
      change rows.foldlM _ (t.add .verified) = _
      rw [ih fun x hx => h x (List.mem_cons_of_mem _ hx)]
      simp [Tally.add, Nat.add_assoc, Nat.add_comm 1]

theorem verifyChainWithRotation_of_verified {rows : List ChainVerifyRow}
    {keyVersions : List KeyVersion}
    (h : ∀ row ∈ rows, checkRow H S (sortVersions keyVersions) uriMap row = .ok .verified) :
    verifyChainWithRotation H S rows keyVersions uriMap =
      .ok ⟨rows.length, 0, 0, .ok, []⟩ := by
  have hfold := foldlM_tallyRow_of_verified h Tally.zero
  rw [verifyChainWithRotation, hfold]
  simp [bind, Except.bind, pure, Except.pure, Tally.result, Tally.status, Tally.zero]

/-- The status is clean exactly if every row is verified. -/
theorem verifyChainWithRotation_status_ok_iff {rows : List ChainVerifyRow}
    {keyVersions : List KeyVersion} :
    (∃ result, verifyChainWithRotation H S rows keyVersions uriMap = .ok result ∧
        result.status = .ok) ↔
      ∀ row ∈ rows, checkRow H S (sortVersions keyVersions) uriMap row = .ok .verified := by
  constructor
  · rintro ⟨result, hresult, hstatus⟩
    rw [verifyChainWithRotation] at hresult
    rcases hfold : rows.foldlM (tallyRow H S (sortVersions keyVersions) uriMap)
        Tally.zero with e | tally
    · rw [hfold] at hresult
      cases hresult
    · rw [hfold] at hresult
      cases hresult
      exact (foldlM_tallyRow_bad hfold).2 (Tally.status_eq_ok_iff.mp hstatus)
  · intro h
    exact ⟨_, verifyChainWithRotation_of_verified h, rfl⟩

end AgenticGovernance.Audit

import Mathlib
import AgenticGovernance.Audit.PostgresStore
import AgenticGovernance.Identity.Revocation

/-!
# The window of a revocation

A revocation governs the rows from its boundary on, and the boundary is meant to be the
sequence number of the revocation's own event.  `revoke_with_chain_event` does not know
that number: after the event is stored it reads `MAX(chain_seq)` in a separate query, and
takes zero if the query fails.

The audit writers are the calls of `PostgresStore`, one of which is the insert of the
event.  `revocation_window_exact_iff` says for which rows the boundary does not matter.
-/

namespace AgenticGovernance.Identity

open Support Audit

/-! ## The lookup -/

/-- `SELECT COALESCE(MAX(chain_seq), 0)` -/
def getCurrentChainSeq (rows : List AuditRow) : ℕ :=
  rows.foldr (fun row seq => max row.chainSeq seq) 0

theorem getCurrentChainSeq_le_iff {rows : List AuditRow} {seq : ℕ} :
    getCurrentChainSeq rows ≤ seq ↔ ∀ row ∈ rows, row.chainSeq ≤ seq := by
  induction rows with
  | nil => simp [getCurrentChainSeq]
  | cons row rows ih =>
      rw [List.forall_mem_cons, ← ih, getCurrentChainSeq, List.foldr_cons, max_le_iff]
      rfl

/-- The outcome of the lookup, from the rows that it saw; `none` if it failed. -/
def seqLookup : Option (List AuditRow) → SeqLookup
  | none => .raises
  | some seen => .returns (getCurrentChainSeq seen)

/-! ## A revocation among audit writers -/

/-- A call of `revoke_with_chain_event` whose event is inserted by call `me` of the store,
with what else the call reads. -/
structure Revoker (ι : Type*) where
  call : RevocationCall
  me : ι
  nfc : String → String
  sessionId : Uuid
  parentId : Option Uuid
  createdAt : Datetime
  /-- the metadata of the event as it is printed -/
  metadata : Metadata
  sql : SqlFates
  now : Datetime
  /-- the revocations before the call -/
  earlier : RevocationStore

inductive RevokerPhase where
  /-- in `await audit_module.log(event)`, or before the answer of the lookup -/
  | logging
  | resolved (seen : Option (List AuditRow))
  | revoked (seen : Option (List AuditRow))

structure WindowState (ι : Type*) where
  audit : PostgresStore.State ι
  revoker : RevokerPhase
  store : RevocationStore

variable {ι : Type*} [DecidableEq ι]

/-- The calls of all writers, with the insert of the event among them. -/
def Revoker.calls (R : Revoker ι) (writers : ι → ChainBuilder) : ι → ChainBuilder :=
  Function.update writers R.me (.record
    ((LoggedCall.mk (R.call.eventArgs.sanitize R.nfc) R.sessionId R.parentId
      R.createdAt).toLogCall R.metadata))

/-- The revocation that the call appends. -/
def Revoker.revocation (R : Revoker ι) (seen : Option (List AuditRow)) (eventId : Uuid) :
    RevocationRecord :=
  R.call.record (seqLookup seen) R.now (some eventId)

section Steps

variable (K : ModuleKeys) (R : Revoker ι) (writers : ι → ChainBuilder)

/-- The revoker goes on when `log` has returned the record of the event. -/
inductive WindowStep : WindowState ι → WindowState ι → Prop
  | audit (σ : WindowState ι) (t : PostgresStore.State ι)
      (h : PostgresStore.Step K (R.calls writers) σ.audit t) :
      WindowStep σ { σ with audit := t }
  | lookup (σ : WindowState ι) (record : AuditEventRecord)
      (hphase : σ.revoker = .logging) (hlogged : σ.audit.phase R.me = .returned record) :
      WindowStep σ { σ with revoker := .resolved (some σ.audit.rows) }
  | lookupFails (σ : WindowState ι) (record : AuditEventRecord)
      (hphase : σ.revoker = .logging) (hlogged : σ.audit.phase R.me = .returned record) :
      WindowStep σ { σ with revoker := .resolved none }
  | append (σ : WindowState ι) (seen : Option (List AuditRow)) (record : AuditEventRecord)
      (hphase : σ.revoker = .resolved seen) (hlogged : σ.audit.phase R.me = .returned record) :
      WindowStep σ
        { σ with
          revoker := .revoked seen
          store := σ.store.persist R.sql (R.revocation seen record.eventId) }

def windowSystem : System (WindowState ι) where
  init σ := σ = ⟨.initial, .logging, R.earlier⟩
  step := WindowStep K R writers

end Steps

/-! ## The window -/

def SignedBy (fingerprint : String) (row : AuditRow) : Prop :=
  row.record.signature ≠ none ∧ row.record.signingKeyFingerprint = some fingerprint

/-- Of the rows signed by the key, those from `boundary` on are classified as revoked, and
no others. -/
def WindowExact (fingerprint : String) (boundary : ℕ) (rows : List AuditRow)
    (m : RevocationMirror) : Prop :=
  ∀ row ∈ rows, SignedBy fingerprint row →
    (m.isRevokedAt fingerprint row.chainSeq = true ↔ boundary ≤ row.chainSeq)

/-- What makes the lookup harmless for the rows of the key, where the event has number
`boundary`. -/
structure LookupHarmless (R : Revoker ι) (boundary : ℕ) (seen : Option (List AuditRow))
    (rows : List AuditRow) : Prop where
  /-- no row from the event on was overtaken before the lookup, unless it was revoked
  already -/
  later : ∀ row ∈ rows, SignedBy R.call.keyFingerprint row → boundary ≤ row.chainSeq →
    (∀ ahead ∈ seen.getD [], ahead.chainSeq ≤ row.chainSeq) ∨
      R.earlier.mirror.isRevokedAt R.call.keyFingerprint row.chainSeq = true
  /-- a row before the event was not revoked already, and then the lookup succeeded -/
  sooner : ∀ row ∈ rows, SignedBy R.call.keyFingerprint row → row.chainSeq < boundary →
    seen ≠ none ∧
      R.earlier.mirror.isRevokedAt R.call.keyFingerprint row.chainSeq = false

/-! ## Every run -/

theorem mem_commits_of_step {K : ModuleKeys} {calls : ι → ChainBuilder}
    {s t : PostgresStore.State ι} (hstep : PostgresStore.Step K calls s t)
    {c : ι × AuditRow} (hc : c ∈ s.commits) : c ∈ t.commits := by
  cases hstep with
  | commit i row hphase => exact List.mem_append_left _ hc
  | readHead | build | acquire | headUnchanged | rebuild | insert | fail => exact hc

section Runs

variable {K : ModuleKeys} {R : Revoker ι} {writers : ι → ChainBuilder} {σ : WindowState ι}

/-- The rows of a lookup include the event's own. -/
def SeesEvent (R : Revoker ι) (commits : List (ι × AuditRow)) (seen : Option (List AuditRow)) :
    Prop :=
  ∀ rows, seen = some rows → ∃ row ∈ rows, (R.me, row) ∈ commits

/-- What is known in each phase of the revoker. -/
def RevokerOk (R : Revoker ι) (commits : List (ι × AuditRow)) (store : RevocationStore) :
    RevokerPhase → Prop
  | .logging => store = R.earlier
  | .resolved seen => store = R.earlier ∧ SeesEvent R commits seen
  | .revoked seen => SeesEvent R commits seen ∧
      ∃ eventId, store.mirror = R.earlier.mirror.append (R.revocation seen eventId)

omit [DecidableEq ι] in
theorem SeesEvent.mono {commits commits' : List (ι × AuditRow)}
    {seen : Option (List AuditRow)} (h : SeesEvent R commits seen)
    (hmono : ∀ c ∈ commits, c ∈ commits') : SeesEvent R commits' seen := by
  intro rows hrows
  obtain ⟨row, hrow, hcommit⟩ := h rows hrows
  exact ⟨row, hrow, hmono _ hcommit⟩

omit [DecidableEq ι] in
theorem RevokerOk.mono {commits commits' : List (ι × AuditRow)} {store : RevocationStore}
    {phase : RevokerPhase} (h : RevokerOk R commits store phase)
    (hmono : ∀ c ∈ commits, c ∈ commits') : RevokerOk R commits' store phase := by
  cases phase with
  | logging => exact h
  | resolved seen => exact ⟨h.1, h.2.mono hmono⟩
  | revoked seen => exact ⟨h.1.mono hmono, h.2⟩

theorem audit_reachable (h : (windowSystem K R writers).Reachable σ) :
    (PostgresStore.system K (R.calls writers)).Reachable σ.audit := by
  refine System.invariant
    (I := fun σ => (PostgresStore.system K (R.calls writers)).Reachable σ.audit) ?_ ?_ h
  · rintro σ rfl
    exact .start rfl
  · intro σ τ _ hreach hstep
    cases hstep with
    | audit t h => exact hreach.next h
    | lookup | lookupFails | append => exact hreach

/-- A returned call has committed its row. -/
theorem exists_commit_of_returned {record : AuditEventRecord}
    (h : (windowSystem K R writers).Reachable σ)
    (hlogged : σ.audit.phase R.me = .returned record) :
    ∃ row ∈ σ.audit.rows, (R.me, row) ∈ σ.audit.commits := by
  have haccounted := PostgresStore.accounted_of_reachable (audit_reachable h) R.me
  rw [hlogged] at haccounted
  obtain ⟨row, hrow, -⟩ := haccounted
  have hmem : row ∈ σ.audit.contributed R.me := by
    rw [hrow]
    exact List.mem_singleton_self row
  obtain ⟨⟨i, row'⟩, hcommit, rfl⟩ := List.mem_map.mp hmem
  obtain ⟨hcommit, hi⟩ := List.mem_filter.mp hcommit
  have hme : i = R.me := of_decide_eq_true hi
  subst hme
  exact ⟨row', List.mem_map.mpr ⟨_, hcommit, rfl⟩, hcommit⟩

theorem revokerOk_of_reachable (h : (windowSystem K R writers).Reachable σ) :
    RevokerOk R σ.audit.commits σ.store σ.revoker := by
  refine System.invariant (I := fun σ => RevokerOk R σ.audit.commits σ.store σ.revoker)
    ?_ ?_ h
  · rintro σ rfl
    rfl
  · intro σ τ hreach hok hstep
    cases hstep with
    | audit t h => exact hok.mono fun c hc => mem_commits_of_step h hc
    | lookup record hphase hlogged =>
        rw [hphase] at hok
        refine ⟨hok, ?_⟩
        rintro rows ⟨⟩
        exact exists_commit_of_returned hreach hlogged
    | lookupFails record hphase hlogged =>
        rw [hphase] at hok
        exact ⟨hok, by rintro rows ⟨⟩⟩
    | append seen record hphase hlogged =>
        rw [hphase] at hok
        refine ⟨hok.2, record.eventId, ?_⟩
        rw [RevocationStore.persist_mirror, hok.1]

/-- No call commits two rows. -/
theorem commit_unique (h : (windowSystem K R writers).Reachable σ) {i : ι} {row row' : AuditRow}
    (hrow : (i, row) ∈ σ.audit.commits) (hrow' : (i, row') ∈ σ.audit.commits) : row = row' := by
  have haccounted := PostgresStore.accounted_of_reachable (audit_reachable h) i
  have hmem : ∀ row, (i, row) ∈ σ.audit.commits → row ∈ σ.audit.contributed i := by
    intro row hcommit
    exact List.mem_map.mpr ⟨_, List.mem_filter.mpr ⟨hcommit, by simp⟩, rfl⟩
  have hone : ∃ only, σ.audit.contributed i = [only] ∨ σ.audit.contributed i = [] := by
    cases hphase : σ.audit.phase i with
    | returned r =>
        rw [hphase] at haccounted
        obtain ⟨only, honly, -⟩ := haccounted
        exact ⟨only, Or.inl honly⟩
    | idle | optimistic | built | locked | checked | inserted | raised =>
        rw [hphase] at haccounted
        exact ⟨row, Or.inr haccounted⟩
  obtain ⟨only, honly | hnone⟩ := hone
  · have hleft := hmem row hrow
    have hright := hmem row' hrow'
    rw [honly, List.mem_singleton] at hleft hright
    rw [hleft, hright]
  · have hleft := hmem row hrow
    rw [hnone] at hleft
    cases hleft

/-- The boundary that the lookup gave, against a row that it did or did not see overtaken. -/
theorem revokedSeq_le_iff {seen : Option (List AuditRow)} {seq : ℕ} :
    (seqLookup seen).revokedSeq ≤ seq ↔ ∀ ahead ∈ seen.getD [], ahead.chainSeq ≤ seq := by
  rcases seen with _ | rows
  · simp [seqLookup, SeqLookup.revokedSeq]
  · exact getCurrentChainSeq_le_iff

/-- In every run, once the call has appended its revocation, the window is exact if and
only if the lookup was harmless for the rows of the key that are committed by then. -/
theorem revocation_window_exact_iff {seen : Option (List AuditRow)} {event : AuditRow}
    (h : (windowSystem K R writers).Reachable σ) (hrevoked : σ.revoker = .revoked seen)
    (hevent : (R.me, event) ∈ σ.audit.commits) :
    WindowExact R.call.keyFingerprint event.chainSeq σ.audit.rows σ.store.mirror ↔
      LookupHarmless R event.chainSeq seen σ.audit.rows := by
  have hok := revokerOk_of_reachable h
  rw [hrevoked] at hok
  obtain ⟨hsees, eventId, hmirror⟩ := hok
  have hclassified : ∀ seq, σ.store.mirror.isRevokedAt R.call.keyFingerprint seq = true ↔
      R.earlier.mirror.isRevokedAt R.call.keyFingerprint seq = true ∨
        ∀ ahead ∈ seen.getD [], ahead.chainSeq ≤ seq := by
    intro seq
    rw [hmirror, RevocationMirror.isRevokedAt_append_iff, ← revokedSeq_le_iff]
    simp [Revoker.revocation, RevocationCall.record]
  -- a lookup that succeeded saw the event, so its boundary is not below the event
  have hbound : ∀ seq, seq < event.chainSeq → seen ≠ none →
      ¬∀ ahead ∈ seen.getD [], ahead.chainSeq ≤ seq := by
    intro seq hlt hseen hall
    obtain ⟨rows, rfl⟩ := Option.ne_none_iff_exists'.mp hseen
    obtain ⟨row, hrow, hcommit⟩ := hsees rows rfl
    have hsame : row = event := commit_unique h hcommit hevent
    subst hsame
    exact absurd (hall row hrow) (by omega)
  constructor
  · intro hexact
    constructor
    · intro row hrow hsigned hfrom
      have hrevokedRow := (hexact row hrow hsigned).mpr hfrom
      exact ((hclassified row.chainSeq).mp hrevokedRow).symm
    · intro row hrow hsigned hbefore
      have hnot : ¬σ.store.mirror.isRevokedAt R.call.keyFingerprint row.chainSeq = true := by
        intro hrevokedRow
        have hfrom := (hexact row hrow hsigned).mp hrevokedRow
        omega
      rw [hclassified, not_or] at hnot
      refine ⟨?_, by simpa using hnot.1⟩
      rintro rfl
      exact hnot.2 (by simp)
  · intro hharmless row hrow hsigned
    rw [hclassified]
    by_cases hfrom : event.chainSeq ≤ row.chainSeq
    · have hlater := hharmless.later row hrow hsigned hfrom
      exact ⟨fun _ => hfrom, fun _ => hlater.symm⟩
    · have hbefore : row.chainSeq < event.chainSeq := by omega
      obtain ⟨hseen, hearlier⟩ := hharmless.sooner row hrow hsigned hbefore
      have hnot := hbound row.chainSeq hbefore hseen
      simp [hearlier, hnot, hfrom]

omit [DecidableEq ι] in
/-- A lookup that finds the event at the head is harmless for a key that was not revoked
before. -/
theorem lookupHarmless_of_head {rows seen : List AuditRow} {event : AuditRow}
    (hhead : ∀ row ∈ seen, row.chainSeq ≤ event.chainSeq)
    (hfirst : ∀ r ∈ R.earlier.mirror.records, r.keyFingerprint ≠ R.call.keyFingerprint) :
    LookupHarmless R event.chainSeq (some seen) rows := by
  constructor
  · intro row _ _ hfrom
    left
    intro ahead hahead
    exact (hhead ahead hahead).trans hfrom
  · intro row _ _ _
    refine ⟨Option.some_ne_none seen, ?_⟩
    rw [Bool.eq_false_iff]
    intro hrevoked
    obtain ⟨r, hr, hkey, -⟩ := RevocationMirror.isRevokedAt_iff.mp hrevoked
    exact hfirst r hr hkey

end Runs

/-! ### A writer between the event and the lookup -/

def windowDigest : BitVec 256 :=
  0x15241ee01c1df9b961ad0366c65dbc0c71c14b967696d762568cec7d69114f6f#256

def laterContent : EventContent := sampleContent ⟨2⟩ [] (some (digestText revocationDigest))

/-- HMAC-SHA256 on the revocation event and on the event after it, and a signer of which
only the fingerprint matters. -/
def windowKeys : ModuleKeys where
  hmac := .ofTable
    [tableEntry sampleSecret revocationContent revocationDigest,
     tableEntry sampleSecret laterContent windowDigest]
  secret := sampleSecret
  signer := some fun _ => some (List.replicate 64 7, sampleRevocation.keyFingerprint)

/-- A revocation of the key that signs. -/
def sampleRevoker : Revoker Bool where
  call := sampleRevocation
  me := false
  nfc := id
  sessionId := ⟨100⟩
  parentId := none
  createdAt := sampleTime
  metadata := revocationContent.metadata
  sql := ⟨.commits, .commits⟩
  now := sampleTime
  earlier := newRevocations

def laterWriters : Bool → ChainBuilder := fun _ => .record (PostgresStore.sampleLog [])

theorem signed_valid {f : EventContent} {d : BitVec 256}
    (h : RecordFields.Valid ⟨f, digestText d, none, none, .unsigned⟩) :
    RecordFields.Valid ⟨f, digestText d, some (List.replicate 64 7),
      some sampleRevocation.keyFingerprint, .signed⟩ where
  agentId := h.agentId
  kind := h.kind
  model := h.model
  inputHash := h.inputHash
  outputHash := h.outputHash
  prevHash := h.prevHash
  hmac := h.hmac
  signingKeyFingerprint := by
    rintro t ⟨⟩
    decide

def eventRecord : AuditEventRecord :=
  ⟨_, signed_valid (revocationContent_valid revocationDigest)⟩

def laterRecord : AuditEventRecord :=
  ⟨_, signed_valid (sample_valid ⟨2⟩ [] (some revocationDigest) windowDigest .unsigned)⟩

theorem eventRecord_built :
    (sampleRevoker.calls laterWriters false).build windowKeys ⟨1⟩ sampleTime none =
      some eventRecord := by
  have hmac : computeEventHmac windowKeys.hmac sampleSecret revocationContent =
      digestText revocationDigest := computeEventHmac_ofTable_self _ _
  exact AuditEventRecord.construct_eq_some_iff.mpr
    (congrArg (RecordFields.mk revocationContent · (some (List.replicate 64 7))
      (some sampleRevocation.keyFingerprint) .signed) hmac.symm)

theorem laterRecord_built :
    (sampleRevoker.calls laterWriters true).build windowKeys ⟨2⟩ sampleTime
      (some (digestText revocationDigest)) = some laterRecord := by
  have hmac : computeEventHmac windowKeys.hmac sampleSecret laterContent =
      digestText windowDigest := by
    rw [windowKeys, computeEventHmac_ofTable_of_ne (Or.inl (by decide))]
    exact computeEventHmac_ofTable_self _ _
  exact AuditEventRecord.construct_eq_some_iff.mpr
    (congrArg (RecordFields.mk laterContent · (some (List.replicate 64 7))
      (some sampleRevocation.keyFingerprint) .signed) hmac.symm)

/-- The event is stored as the first row, and the writer has not begun. -/
theorem event_stored :
    ∃ σ, (windowSystem windowKeys sampleRevoker laterWriters).Reachable σ ∧
      σ.revoker = .logging ∧ σ.store = newRevocations ∧
      σ.audit.commits = [(false, ⟨1, eventRecord, none⟩)] ∧
      σ.audit.nextSeq = 2 ∧ σ.audit.phase false = .returned eventRecord ∧
      σ.audit.phase true = .idle ∧ ∀ k, σ.audit.lock k = none := by
  have h₀ : (windowSystem windowKeys sampleRevoker laterWriters).Reachable
      ⟨.initial, .logging, newRevocations⟩ := .start rfl
  have h₁ := h₀.next (.audit _ _ (.readHead _ false [] rfl List.nil_prefix))
  have h₂ := h₁.next (.audit _ _ (.build _ false none ⟨1⟩ sampleTime _ rfl eventRecord_built))
  have h₃ := h₂.next (.audit _ _ (.acquire _ false none _ rfl rfl))
  have h₄ := h₃.next (.audit _ _ (.headUnchanged _ false none _ rfl rfl))
  have h₅ := h₄.next (.audit _ _ (.insert _ false _ rfl (by rintro row ⟨⟩)))
  have h₆ := h₅.next (.audit _ _ (.commit _ false _ rfl))
  refine ⟨_, h₆, rfl, rfl, rfl, rfl, rfl, rfl, ?_⟩
  intro k
  by_cases hk : k = sessionLockKey ⟨100⟩
  · subst hk
    rfl
  · have hfree : Function.update (fun _ => none) (sessionLockKey ⟨100⟩) (some false) k = none :=
      Function.update_of_ne hk ..
    change (if Function.update (fun _ => none) (sessionLockKey ⟨100⟩) (some false) k =
      some false then none else Function.update (fun _ => none) (sessionLockKey ⟨100⟩)
        (some false) k) = none
    rw [hfree]
    rfl

/-- If the lookup follows at once, the window is exact. -/
theorem prompt_lookup_exact :
    ∃ σ, (windowSystem windowKeys sampleRevoker laterWriters).Reachable σ ∧
      σ.revoker = .revoked (some [⟨1, eventRecord, none⟩]) ∧
      WindowExact sampleRevocation.keyFingerprint 1 σ.audit.rows σ.store.mirror := by
  obtain ⟨σ, h₀, hlogging, -, hcommits, -, hlogged, -⟩ := event_stored
  have hrows : σ.audit.rows = [⟨1, eventRecord, none⟩] := by
    rw [PostgresStore.State.rows, hcommits]
    rfl
  have h₁ := h₀.next (.lookup _ _ hlogging hlogged)
  rw [hrows] at h₁
  have h₂ := h₁.next (.append _ _ _ rfl hlogged)
  have hevent : (sampleRevoker.me, (⟨1, eventRecord, none⟩ : AuditRow)) ∈ σ.audit.commits := by
    rw [hcommits]
    exact List.mem_singleton_self _
  refine ⟨_, h₂, rfl, (revocation_window_exact_iff h₂ rfl hevent).mpr ?_⟩
  apply lookupHarmless_of_head
  · intro row hrow
    rw [List.mem_singleton.mp hrow]
  · rintro r ⟨⟩

/-- If another row is committed before the lookup, the boundary is its number, and the
event itself, which the revoked key signed, is not classified as revoked. -/
theorem late_lookup_inexact :
    ∃ σ, (windowSystem windowKeys sampleRevoker laterWriters).Reachable σ ∧
      σ.revoker = .revoked (some [⟨1, eventRecord, none⟩, ⟨2, laterRecord, none⟩]) ∧
      (sampleRevoker.me, (⟨1, eventRecord, none⟩ : AuditRow)) ∈ σ.audit.commits ∧
      ¬WindowExact sampleRevocation.keyFingerprint 1 σ.audit.rows σ.store.mirror := by
  obtain ⟨σ, h₀, hlogging, hstore, hcommits, hseq, hlogged, hidle, hfree⟩ := event_stored
  have hrows : σ.audit.rows = [⟨1, eventRecord, none⟩] := by
    rw [PostgresStore.State.rows, hcommits]
    rfl
  have hhead : latestHmac σ.audit.rows
      (PostgresStore.session (sampleRevoker.calls laterWriters) true) =
        some (digestText revocationDigest) := by
    rw [hrows]
    rfl
  have h₁ := h₀.next (.audit _ _ (.readHead _ true _ hidle (List.prefix_refl _)))
  rw [hhead] at h₁
  have h₂ := h₁.next (.audit _ _ (.build _ true _ ⟨2⟩ sampleTime _
    (PostgresStore.setPhase_self ..) laterRecord_built))
  have h₃ := h₂.next (.audit _ _ (.acquire _ true _ _ (PostgresStore.setPhase_self ..)
    (hfree _)))
  have h₄ := h₃.next (.audit _ _ (.headUnchanged _ true _ _ (PostgresStore.setPhase_self ..)
    hhead))
  have h₅ := h₄.next (.audit _ _ (.insert _ true _ (PostgresStore.setPhase_self ..) (by
    intro row hrow
    change row ∈ σ.audit.rows at hrow
    rw [hrows] at hrow
    rw [List.mem_singleton.mp hrow]
    decide)))
  have h₆ := h₅.next (.audit _ _ (.commit _ true _ (PostgresStore.setPhase_self ..)))
  have h₇ := h₆.next (.lookup _ eventRecord hlogging hlogged)
  have h₈ := h₇.next (.append _ _ eventRecord rfl hlogged)
  have hseen : (σ.audit.commits ++ [(true, (⟨σ.audit.nextSeq, laterRecord, none⟩ : AuditRow))]).map
      Prod.snd = [⟨1, eventRecord, none⟩, ⟨2, laterRecord, none⟩] := by
    rw [hcommits, hseq]
    rfl
  have hevent : (sampleRevoker.me, (⟨1, eventRecord, none⟩ : AuditRow)) ∈ σ.audit.commits := by
    rw [hcommits]
    exact List.mem_singleton_self _
  refine ⟨_, h₈, ?_, ?_, ?_⟩
  · exact congrArg (fun rows => RevokerPhase.revoked (some rows)) hseen
  · exact List.mem_append_left _ hevent
  · intro hexact
    have hrow : (⟨1, eventRecord, none⟩ : AuditRow) ∈ (σ.audit.commits ++
        [(true, (⟨σ.audit.nextSeq, laterRecord, none⟩ : AuditRow))]).map Prod.snd := by
      rw [hseen]
      exact List.mem_cons_self
    have hrevoked := (hexact _ hrow ⟨Option.some_ne_none _, rfl⟩).mpr le_rfl
    change (σ.store.persist _ _).mirror.isRevokedAt _ 1 = true at hrevoked
    rw [RevocationStore.persist_mirror, RevocationMirror.isRevokedAt_append_iff, hstore] at hrevoked
    rcases hrevoked with hbefore | ⟨-, hboundary⟩
    · cases hbefore
    · change getCurrentChainSeq ((σ.audit.commits ++
        [(true, (⟨σ.audit.nextSeq, laterRecord, none⟩ : AuditRow))]).map Prod.snd) ≤ 1 at hboundary
      rw [hseen] at hboundary
      exact absurd hboundary (by decide)

end AgenticGovernance.Identity

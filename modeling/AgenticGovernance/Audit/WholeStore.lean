import Mathlib
import AgenticGovernance.Audit.Backend
import AgenticGovernance.Support.Transition

/-!
# Verifying the whole in-memory store

`AuditModule.verify_chain` checks a window of the events of one session.  Without a session
it takes the events of every session of an in-memory store, one session after the other, and
checks them as if they were one chain.

Calls of `log` on different sessions interleave between the moment a record is built, under
the lock of its session, and the moment it is stored.  `verifyChain_whole_iff` says which of
the stores that such calls fill are verified as a whole.
-/

namespace AgenticGovernance.Audit

open Support

/-! ## `verify_chain` -/

/-- The errors of `verify_chain`. -/
inductive VerifyError where
  | valueError
  | integrity (e : ChainError)
  deriving DecidableEq

def checkLinksFrom (start : ℕ) : List AuditEventRecord → Except ChainError Unit
  | [] => .ok ()
  | r :: records => checkLinkage (start + 1) r records

/-- The three passes over a window that starts at `start`. -/
def verifyWindow (H : Hmac) (secret : Bytes) (start : ℕ) (window : List AuditEventRecord) :
    Except ChainError Bool := do
  if start = 0 then checkGenesis window
  checkEvents H secret .violationAtIndex start window
  checkLinksFrom start window
  return true

/-- `verify_chain` on the events that it has fetched. -/
def verifyRange (H : Hmac) (secret : Bytes) (fromSeq toSeq : Option ℕ)
    (events : List AuditEventRecord) : Except VerifyError Bool :=
  if ∃ lo ∈ fromSeq, ∃ hi ∈ toSeq, hi < lo then .error .valueError
  else
    let start := fromSeq.getD 0
    let stop := (toSeq.map (· + 1)).getD events.length
    (verifyWindow H secret start ((events.take stop).drop start)).mapError .integrity

/-- An in-memory store between the steps of the calls on it.  `sessionKeys` are the keys of
`_by_session` in insertion order, and `building` maps a session whose lock is held to the
record that is built and not stored yet. -/
structure BusyMemory where
  store : MemoryAudit
  sessionKeys : List Uuid
  building : Uuid → Option AuditEventRecord

namespace BusyMemory

/-- The events of all sessions, flattened. -/
def allEvents (s : BusyMemory) : List AuditEventRecord :=
  (s.sessionKeys.flatMap s.store.bySession).filterMap s.store.events

def verifyChain (H : Hmac) (secret : Bytes) (s : BusyMemory) (sessionId : Option Uuid)
    (fromSeq toSeq : Option ℕ) : Except VerifyError Bool :=
  verifyRange H secret fromSeq toSeq
    (match sessionId with
      | some sid => s.store.getSessionEvents sid
      | none => s.allEvents)

/-! ## Interleaved calls of `log` -/

/-- The first half of an insert: the head is read and the record built on it. -/
def beginInsert (K : ModuleKeys) (s : BusyMemory) (b : ChainBuilder) (eventId : Uuid)
    (now : Datetime) : BusyMemory :=
  match (s.store.headHmac b.logCall.sessionId).bind (b.build K eventId now) with
  | none => s
  | some r => { s with building := Function.update s.building b.logCall.sessionId (some r) }

/-- The second half: the cap is checked and the record stored, or refused. -/
def finishInsert (s : BusyMemory) (sid : Uuid) (r : AuditEventRecord) : BusyMemory :=
  match s.store.enforceCapBeforeAppend with
  | none => { s with
      store := s.store.refused
      building := Function.update s.building sid none }
  | some store =>
      { store := store.append sid r
        sessionKeys :=
          if sid ∈ s.sessionKeys then s.sessionKeys else s.sessionKeys ++ [sid]
        building := Function.update s.building sid none }

/-- No stored event has the id, and no record that is being stored. -/
def UnusedId (s : BusyMemory) (id : Uuid) : Prop :=
  s.store.events id = none ∧ ∀ sid r, s.building sid = some r → r.eventId ≠ id

end BusyMemory

/-- A step of some call of `log` that writes to this store: of its record, or of the marker
of a session that has been degraded.  The ids that are drawn are new. -/
inductive MemoryStep (K : ModuleKeys) (s : BusyMemory) : BusyMemory → Prop where
  | begins (b : ChainBuilder) (eventId : Uuid) (now : Datetime)
      (_hfree : s.building b.logCall.sessionId = none) (hunused : s.UnusedId eventId) :
      MemoryStep K s (s.beginInsert K b eventId now)
  | finishes (sid : Uuid) (r : AuditEventRecord) (hbuilt : s.building sid = some r) :
      MemoryStep K s (s.finishInsert sid r)

/-- The runs in which no fallback is drained into the store. -/
def memoryRuns (K : ModuleKeys) (maxEvents : ℕ) (onFull : OnFull) : System BusyMemory where
  init s := s = ⟨.empty maxEvents onFull, [], fun _ => none⟩
  step := MemoryStep K

/-! ## What `verify_chain` accepts -/

section

variable {H : Hmac} {secret : Bytes} {records : List AuditEventRecord}

theorem verifyWindow_zero :
    verifyWindow H secret 0 records = verifyChainRecords H secret records := by
  rw [verifyWindow, verifyChainRecords]
  cases records with
  | nil => rfl
  | cons r records => rfl

/-- Without a range the whole list is verified as one chain. -/
theorem verifyRange_none_eq_ok_iff :
    verifyRange H secret none none records = .ok true ↔
      ChainFrom none records ∧ ∀ r ∈ records, verifyEvent H r secret = .ok true := by
  rw [← verifyChainRecords_eq_ok_iff, verifyRange, if_neg (by simp)]
  change (verifyWindow H secret 0 ((records.take records.length).drop 0)).mapError _ =
    .ok true ↔ _
  rw [List.take_length, List.drop_zero, verifyWindow_zero]
  rcases verifyChainRecords H secret records with e | b
  · simp [Except.mapError]
  · simp [Except.mapError]

/-- Genesis records start every chain, so two chains do not continue each other. -/
theorem not_chainFrom_append {l m n : List AuditEventRecord} (hl : l ≠ []) (hm : m ≠ [])
    (hchain : ChainFrom none m) : ¬ChainFrom none (l ++ (m ++ n)) := by
  intro h
  obtain ⟨r, m, rfl⟩ := List.exists_cons_of_ne_nil hm
  have hlink : r.prevHash = lastHmac l := ((linkedFrom_append _ _ _).mp h).2.1
  have hgenesis : r.prevHash = none := hchain.1
  rw [hgenesis] at hlink
  exact hl (tip_eq_none_iff.mp hlink.symm)

end

/-! ## The invariant -/

theorem ChainBuilder.build_eventId {K : ModuleKeys} {b : ChainBuilder} {eventId : Uuid}
    {now : Datetime} {p : Option String} {r : AuditEventRecord}
    (h : b.build K eventId now p = some r) : r.eventId = eventId := by
  cases b with
  | record L => exact congrArg EventContent.eventId (LogCall.buildRecord_spec h).1
  | marker L => exact congrArg EventContent.eventId (LogCall.buildMarker_spec h).1

/-- Every session of a store that has evicted nothing is a chain of its own, and a record
that is being stored continues the chain of its session. -/
structure SessionChains (K : ModuleKeys) (s : BusyMemory) : Prop where
  indexed : s.store.Indexed
  nodup : s.sessionKeys.Nodup
  keys : ∀ sid, sid ∈ s.sessionKeys ↔ s.store.bySession sid ≠ []
  chain : ∀ sid, ChainFrom none (s.store.getSessionEvents sid)
  authentic : ∀ sid, ∀ r ∈ s.store.getSessionEvents sid,
    verifyEvent K.hmac r K.secret = .ok true
  built : ∀ sid r, s.building sid = some r →
    BuiltOn K sid (lastHmac (s.store.getSessionEvents sid)) r ∧
      s.store.events r.eventId = none
  distinct : ∀ sid sid' r r', s.building sid = some r → s.building sid' = some r' →
    r.eventId = r'.eventId → sid = sid'

namespace SessionChains

variable {K : ModuleKeys} {s : BusyMemory}

theorem initial (maxEvents : ℕ) (onFull : OnFull) :
    SessionChains K ⟨.empty maxEvents onFull, [], fun _ => none⟩ where
  indexed := by
    intro sid id hid
    cases hid
  nodup := List.nodup_nil
  keys := by simp [MemoryAudit.empty]
  chain := fun _ => trivial
  authentic := by
    intro sid r hr
    cases hr
  built := by simp
  distinct := by simp

theorem beginInsert (h : SessionChains K s) {b : ChainBuilder} {eventId : Uuid}
    {now : Datetime} (hunused : s.UnusedId eventId) :
    SessionChains K (s.beginInsert K b eventId now) := by
  rw [BusyMemory.beginInsert, MemoryAudit.headHmac_eq h.indexed, Option.bind_some]
  rcases hbuild : b.build K eventId now
    (lastHmac (s.store.getSessionEvents b.logCall.sessionId)) with _ | r
  · exact h
  · have hid : r.eventId = eventId := ChainBuilder.build_eventId hbuild
    have hcases : ∀ sid r', Function.update s.building b.logCall.sessionId (some r) sid =
        some r' → sid = b.logCall.sessionId ∧ r' = r ∨
          sid ≠ b.logCall.sessionId ∧ s.building sid = some r' := by
      intro sid r' hr'
      by_cases hsid : sid = b.logCall.sessionId
      · subst hsid
        rw [Function.update_self] at hr'
        exact Or.inl ⟨rfl, (Option.some.inj hr').symm⟩
      · rw [Function.update_of_ne hsid] at hr'
        exact Or.inr ⟨hsid, hr'⟩
    refine { h with built := ?_, distinct := ?_ }
    · intro sid r' hr'
      rcases hcases sid r' hr' with ⟨rfl, rfl⟩ | ⟨-, hold⟩
      · exact ⟨ChainBuilder.build_builtOn hbuild, hid ▸ hunused.1⟩
      · exact h.built sid r' hold
    · intro sid sid' r₁ r₂ hr₁ hr₂ heq
      rcases hcases sid r₁ hr₁ with ⟨rfl, rfl⟩ | ⟨-, hold₁⟩
      · rcases hcases sid' r₂ hr₂ with ⟨rfl, rfl⟩ | ⟨-, hold₂⟩
        · rfl
        · exact absurd (heq.symm.trans hid) (hunused.2 sid' r₂ hold₂)
      · rcases hcases sid' r₂ hr₂ with ⟨rfl, rfl⟩ | ⟨-, hold₂⟩
        · exact absurd (heq.trans hid) (hunused.2 sid r₁ hold₁)
        · exact h.distinct sid sid' r₁ r₂ hold₁ hold₂ heq

/-- A record leaves its session lock. -/
theorem release {sid sid' : Uuid} {r : AuditEventRecord}
    (hr : Function.update s.building sid none sid' = some r) :
    sid' ≠ sid ∧ s.building sid' = some r := by
  by_cases hsid : sid' = sid
  · subst hsid
    rw [Function.update_self] at hr
    cases hr
  · rw [Function.update_of_ne hsid] at hr
    exact ⟨hsid, hr⟩

theorem refuse (h : SessionChains K s) (sid : Uuid) :
    SessionChains K { s with building := Function.update s.building sid none } where
  indexed := h.indexed
  nodup := h.nodup
  keys := h.keys
  chain := h.chain
  authentic := h.authentic
  built := fun sid' r hr => h.built sid' r (release hr).2
  distinct := fun a b r r' hr hr' => h.distinct a b r r' (release hr).2 (release hr').2

/-- Storing a built record, when nothing is evicted for it. -/
theorem store (h : SessionChains K s) {sid : Uuid} {r : AuditEventRecord}
    (hr : s.building sid = some r) :
    SessionChains K
      { store := s.store.append sid r
        sessionKeys :=
          if sid ∈ s.sessionKeys then s.sessionKeys else s.sessionKeys ++ [sid]
        building := Function.update s.building sid none } := by
  obtain ⟨hbuilt, hnew⟩ := h.built sid r hr
  obtain rfl : r.sessionId = sid := hbuilt.sessionId
  have hext : (MemoryAudit.ops 0 .raise).Extends s.store [r] (s.store.append r.sessionId r) :=
    MemoryAudit.append_extends h.indexed hnew
  have hevents : ∀ sid', (s.store.append r.sessionId r).getSessionEvents sid' =
      s.store.getSessionEvents sid' ++ ofSession sid' [r] := hext.events
  have hself : (s.store.append r.sessionId r).getSessionEvents r.sessionId =
      s.store.getSessionEvents r.sessionId ++ [r] := by
    rw [hevents, ofSession_singleton_self]
  have hother : ∀ sid', sid' ≠ r.sessionId →
      (s.store.append r.sessionId r).getSessionEvents sid' =
        s.store.getSessionEvents sid' := by
    intro sid' hsid
    rw [hevents, ofSession_singleton_of_ne (Ne.symm hsid), List.append_nil]
  have hindex : ∀ sid', (s.store.append r.sessionId r).bySession sid' ≠ [] ↔
      sid' = r.sessionId ∨ s.store.bySession sid' ≠ [] := by
    intro sid'
    change Function.update s.store.bySession r.sessionId _ sid' ≠ [] ↔ _
    by_cases hsid : sid' = r.sessionId
    · subst hsid
      simp
    · rw [Function.update_of_ne hsid]
      simp [hsid]
  constructor
  · exact h.indexed.append _ _
  · by_cases hkey : r.sessionId ∈ s.sessionKeys
    · rw [if_pos hkey]
      exact h.nodup
    · rw [if_neg hkey]
      exact List.Nodup.append h.nodup (List.nodup_singleton _) (by simpa using hkey)
  · intro sid'
    rw [hindex, ← h.keys]
    by_cases hkey : r.sessionId ∈ s.sessionKeys
    · rw [if_pos hkey]
      constructor
      · exact Or.inr
      · rintro (rfl | hmem)
        · exact hkey
        · exact hmem
    · rw [if_neg hkey, List.mem_append, List.mem_singleton, or_comm]
  · intro sid'
    by_cases hsid : sid' = r.sessionId
    · subst hsid
      rw [hself]
      exact (linkedFrom_concat _ _ _).mpr ⟨h.chain _, hbuilt.prevHash⟩
    · rw [hother sid' hsid]
      exact h.chain sid'
  · intro sid' r' hr'
    by_cases hsid : sid' = r.sessionId
    · subst hsid
      rw [hself, List.mem_append, List.mem_singleton] at hr'
      rcases hr' with hold | rfl
      · exact h.authentic _ r' hold
      · exact hbuilt.verifyEvent
    · rw [hother sid' hsid] at hr'
      exact h.authentic sid' r' hr'
  · intro sid' r' hr'
    obtain ⟨hsid, hold⟩ := release hr'
    obtain ⟨hbuilt', hnew'⟩ := h.built sid' r' hold
    refine ⟨?_, ?_⟩
    · change BuiltOn K sid' (lastHmac ((s.store.append _ r).getSessionEvents sid')) r'
      rw [hother sid' hsid]
      exact hbuilt'
    · change Function.update s.store.events r.eventId (some r) r'.eventId = none
      have hne : r'.eventId ≠ r.eventId := fun heq => hsid (h.distinct _ _ _ _ hold hr heq)
      rw [Function.update_of_ne hne]
      exact hnew'
  · intro a b r₁ r₂ hr₁ hr₂
    exact h.distinct a b r₁ r₂ (release hr₁).2 (release hr₂).2

theorem finishInsert (h : s.store.verifyNotTruncated = true → SessionChains K s) {sid : Uuid}
    {r : AuditEventRecord} (hr : s.building sid = some r)
    (hkept : (s.finishInsert sid r).store.verifyNotTruncated = true) :
    SessionChains K (s.finishInsert sid r) := by
  rw [BusyMemory.finishInsert] at hkept ⊢
  rcases hcap : s.store.enforceCapBeforeAppend with _ | store
  · rw [hcap] at hkept
    simp only [MemoryAudit.refused_eq hkept] at hkept ⊢
    exact (h hkept).refuse sid
  · rw [hcap] at hkept
    obtain rfl := MemoryAudit.eq_of_enforceCapBeforeAppend hcap hkept
    exact (h hkept).store hr

theorem of_reachable {maxEvents : ℕ} {onFull : OnFull}
    (h : (memoryRuns K maxEvents onFull).Reachable s) :
    s.store.verifyNotTruncated = true → SessionChains K s := by
  refine System.invariant (I := fun s => s.store.verifyNotTruncated = true →
    SessionChains K s) ?_ ?_ h
  · rintro s rfl -
    exact initial maxEvents onFull
  · intro s s' _ ih hstep hkept
    cases hstep with
    | begins b eventId now _ hunused =>
        have hsame : (s.beginInsert K b eventId now).store = s.store := by
          rw [BusyMemory.beginInsert]
          split
          · rfl
          · rfl
        rw [hsame] at hkept
        exact (ih hkept).beginInsert hunused
    | finishes sid r hbuilt => exact finishInsert ih hbuilt hkept

/-! ## Verification -/

theorem allEvents_eq : s.allEvents = s.sessionKeys.flatMap s.store.getSessionEvents := by
  rw [BusyMemory.allEvents, List.filterMap_flatMap]
  rfl

theorem getSessionEvents_ne_nil (h : SessionChains K s) {sid : Uuid}
    (hkey : sid ∈ s.sessionKeys) : s.store.getSessionEvents sid ≠ [] := by
  obtain ⟨id, rest, hids⟩ := List.exists_cons_of_ne_nil ((h.keys sid).mp hkey)
  obtain ⟨r, hr⟩ := Option.isSome_iff_exists.mp (h.indexed sid id (by simp [hids]))
  rw [MemoryAudit.getSessionEvents, hids, List.filterMap_cons_some hr]
  exact List.cons_ne_nil _ _

/-- The flattened events are a chain exactly when they come from at most one session. -/
theorem chainFrom_allEvents_iff (h : SessionChains K s) :
    ChainFrom none s.allEvents ↔ s.sessionKeys.length ≤ 1 := by
  rw [allEvents_eq]
  rcases hkeys : s.sessionKeys with _ | ⟨sid, _ | ⟨sid', rest⟩⟩
  · simp
  · simpa using h.chain sid
  · have hmem : sid ∈ s.sessionKeys ∧ sid' ∈ s.sessionKeys := by simp [hkeys]
    rw [List.flatMap_cons, List.flatMap_cons]
    refine iff_of_false ?_ (by simp)
    exact not_chainFrom_append (h.getSessionEvents_ne_nil hmem.1)
      (h.getSessionEvents_ne_nil hmem.2) (h.chain sid')

theorem length_sessionKeys_le_one_iff (h : SessionChains K s) :
    s.sessionKeys.length ≤ 1 ↔ ∀ sid sid', s.store.bySession sid ≠ [] →
      s.store.bySession sid' ≠ [] → sid = sid' := by
  simp only [← h.keys]
  constructor
  · intro hlength sid sid' hsid hsid'
    obtain ⟨key, hkey⟩ := List.length_eq_one_iff.mp
      (le_antisymm hlength (List.length_pos_of_mem hsid))
    rw [hkey, List.mem_singleton] at hsid hsid'
    rw [hsid, hsid']
  · intro hsame
    rcases hkeys : s.sessionKeys with _ | ⟨sid, _ | ⟨sid', rest⟩⟩
    · simp
    · simp
    · have hnodup := h.nodup
      rw [hkeys, List.nodup_cons] at hnodup
      have heq : sid = sid' := hsame sid sid' (by simp [hkeys]) (by simp [hkeys])
      exact absurd (heq ▸ List.mem_cons_self) hnodup.1

end SessionChains

/-- The store is verified as a whole exactly when at most one session has events. -/
theorem verifyChain_whole_iff (K : ModuleKeys) (maxEvents : ℕ) (onFull : OnFull)
    (s : BusyMemory) (hreach : (memoryRuns K maxEvents onFull).Reachable s)
    (hkept : s.store.verifyNotTruncated = true) :
    s.verifyChain K.hmac K.secret none none none = .ok true ↔
      ∀ sid sid', s.store.bySession sid ≠ [] → s.store.bySession sid' ≠ [] →
        sid = sid' := by
  have h := SessionChains.of_reachable hreach hkept
  rw [← h.length_sessionKeys_le_one_iff, ← h.chainFrom_allEvents_iff]
  change verifyRange K.hmac K.secret none none s.allEvents = .ok true ↔ _
  rw [verifyRange_none_eq_ok_iff]
  refine and_iff_left ?_
  intro r hr
  rw [SessionChains.allEvents_eq, List.mem_flatMap] at hr
  obtain ⟨sid, -, hr⟩ := hr
  exact h.authentic sid r hr

/-! ### Two sessions of one event -/

/-- A session of another advisory lock than the sample session. -/
def otherSession : Uuid := ⟨0x10000000000000000⟩

def otherContent : EventContent :=
  { sampleContent ⟨2⟩ [] none with sessionId := otherSession }

def otherDigest : BitVec 256 :=
  0x8301f81de0ef8b364957776111f2b4caabc85318f9dba392a29b8159dadf3dd3#256

def otherRecord : AuditEventRecord where
  toRecordFields := ⟨otherContent, digestText otherDigest, none, none, .unsigned⟩
  valid := { sample_valid ⟨2⟩ [] none otherDigest .unsigned with }

/-- HMAC-SHA256 on the payloads of the two events. -/
def twoSessionKeys : ModuleKeys where
  hmac := .ofTable
    [tableEntry sampleSecret sampleFirst sampleDigest₁,
     tableEntry sampleSecret otherContent otherDigest]
  secret := sampleSecret
  signer := none

def firstCall : ChainBuilder := .record (PostgresStore.sampleLog sampleFirst.metadata)

def otherCall : ChainBuilder :=
  .record (.begin { PostgresStore.sampleEvent [] with sessionId := some otherSession } none none ⟨0⟩
    sampleTime)

theorem firstCall_hmac : computeEventHmac twoSessionKeys.hmac sampleSecret sampleFirst =
    digestText sampleDigest₁ :=
  computeEventHmac_ofTable_self _ _

theorem firstCall_build :
    firstCall.build twoSessionKeys ⟨1⟩ sampleTime none = some sampleRecord₁ :=
  AuditEventRecord.construct_eq_some_iff.mpr
    (congrArg (RecordFields.mk sampleFirst · none none .unsigned) firstCall_hmac.symm)

theorem otherCall_hmac : computeEventHmac twoSessionKeys.hmac sampleSecret otherContent =
    digestText otherDigest := by
  rw [twoSessionKeys, computeEventHmac_ofTable_of_ne (Or.inl (by decide))]
  exact computeEventHmac_ofTable_self _ _

theorem otherCall_build :
    otherCall.build twoSessionKeys ⟨2⟩ sampleTime none = some otherRecord :=
  AuditEventRecord.construct_eq_some_iff.mpr
    (congrArg (RecordFields.mk otherContent · none none .unsigned) otherCall_hmac.symm)

/-- A call that runs without another one in between. -/
theorem reachable_insert {K : ModuleKeys} {maxEvents : ℕ} {onFull : OnFull} {s : BusyMemory}
    {b : ChainBuilder} {eventId : Uuid} {now : Datetime} {p : Option String}
    {r : AuditEventRecord} (hreach : (memoryRuns K maxEvents onFull).Reachable s)
    (hidle : s.building = fun _ => none) (hunused : s.store.events eventId = none)
    (hhead : s.store.headHmac b.logCall.sessionId = some p)
    (hbuild : b.build K eventId now p = some r)
    (hcap : s.store.enforceCapBeforeAppend = some s.store)
    (hnew : b.logCall.sessionId ∉ s.sessionKeys) :
    (memoryRuns K maxEvents onFull).Reachable
      ⟨s.store.append b.logCall.sessionId r, s.sessionKeys ++ [b.logCall.sessionId],
        fun _ => none⟩ := by
  have hbegin : s.beginInsert K b eventId now =
      { s with building := Function.update s.building b.logCall.sessionId (some r) } := by
    rw [BusyMemory.beginInsert, hhead, Option.bind_some, hbuild]
  have hbegun := hreach.next (.begins b eventId now (by rw [hidle])
    ⟨hunused, by simp [hidle]⟩)
  rw [hbegin] at hbegun
  have hdone := hbegun.next (.finishes b.logCall.sessionId r (Function.update_self ..))
  rw [BusyMemory.finishInsert] at hdone
  simp only [hcap, Function.update_idem, if_neg hnew] at hdone
  have hreleased : Function.update s.building b.logCall.sessionId none = fun _ => none := by
    rw [hidle]
    exact Function.update_eq_self _ _
  rwa [hreleased] at hdone

def oneSession : BusyMemory :=
  ⟨(MemoryAudit.empty 10 .raise).append ⟨100⟩ sampleRecord₁, [⟨100⟩], fun _ => none⟩

def twoSessions : BusyMemory :=
  ⟨oneSession.store.append otherSession otherRecord, [⟨100⟩, otherSession], fun _ => none⟩

theorem oneSession_reachable : (memoryRuns twoSessionKeys 10 .raise).Reachable oneSession :=
  reachable_insert (b := firstCall) (.start rfl) rfl rfl rfl firstCall_build rfl (by simp)

theorem twoSessions_reachable : (memoryRuns twoSessionKeys 10 .raise).Reachable twoSessions :=
  reachable_insert (b := otherCall) oneSession_reachable rfl rfl rfl otherCall_build rfl
    (by decide)

/-- One session is verified. -/
theorem one_session_verified :
    oneSession.verifyChain twoSessionKeys.hmac twoSessionKeys.secret none none none =
      .ok true :=
  (verifyChain_whole_iff _ _ _ _ oneSession_reachable rfl).mpr (by
    have honly : ∀ sid, oneSession.store.bySession sid ≠ [] → sid = ⟨100⟩ := by
      intro sid hsid
      by_contra hne
      exact hsid (Function.update_of_ne hne ..)
    intro sid sid' hsid hsid'
    rw [honly sid hsid, honly sid' hsid'])

/-- A second one makes the store fail, although nothing was evicted or altered and each
session is verified by itself. -/
theorem two_sessions_not_verified :
    (memoryRuns twoSessionKeys 10 .raise).Reachable twoSessions ∧
      twoSessions.store.verifyNotTruncated = true ∧
      twoSessions.verifyChain twoSessionKeys.hmac twoSessionKeys.secret none none none ≠
        .ok true := by
  refine ⟨twoSessions_reachable, rfl, ?_⟩
  intro h
  have hchain : ChainFrom none [sampleRecord₁, otherRecord] :=
    (verifyRange_none_eq_ok_iff.mp h).1
  cases hchain.2.1

end AgenticGovernance.Audit

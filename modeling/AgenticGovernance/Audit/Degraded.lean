import Mathlib
import AgenticGovernance.Audit.Columns
import AgenticGovernance.Audit.JsonlStore
import AgenticGovernance.Audit.Module
import AgenticGovernance.Support.SegmentedChain
import AgenticGovernance.Support.Transition

/-!
# Outages of the primary store

While the primary is down a session goes on in the JSONL fallback, as a chain of its own
that starts with a `chain.degraded_start` marker.  The first call that reaches the primary
again writes a recovery marker there, which continues the chain of the primary, and then
drains the fallback behind it.  The drained rows keep the `prev_hash` they were written
with, so the session in the primary becomes a chain of several segments.

The invariant `Segments` describes the two stores between the operations of a call, with the
list of records in the file.  `drained_session_segments` is what it says of the records that
are read after a whole run: those of Postgres have been through the columns of the table.
-/

namespace AgenticGovernance.Audit

open Support

/-! ## Primary stores -/

inductive PrimaryStore where
  | memory (maxEvents : ℕ) (onFull : OnFull)
  | postgres (C : ColumnTypes)

namespace PrimaryStore

def backend : PrimaryStore → AuditBackend
  | .memory maxEvents onFull => MemoryAudit.backend maxEvents onFull
  | .postgres _ => PostgresAudit.backend

/-- The record that is read where `r` was stored. -/
def read : PrimaryStore → AuditEventRecord → AuditEventRecord
  | .memory _ _ => id
  | .postgres C => C.rowToRecord

def getSessionEvents (P : PrimaryStore) (store : P.backend.Store) (sid : Uuid) :
    List AuditEventRecord :=
  (P.backend.getSessionEvents store sid).map P.read

/-- The metadata comes back from the store, up to the order of entries.  A JSONB column
changes a float that is printed with a positive exponent, and a negative zero. -/
def Keeps : PrimaryStore → Metadata → Prop
  | .memory _ _, _ => True
  | .postgres _, metadata =>
      (Json.obj metadata).DistinctKeys ∧ (Json.obj metadata).FloatsAll PyFloat.Printed ∧
        (Json.obj metadata).FloatsAll PyFloat.Plain

variable {P : PrimaryStore} {r : AuditEventRecord}

theorem prevHash_read : (P.read r).prevHash = r.prevHash := by
  cases P <;> rfl

theorem hmac_read : (P.read r).hmac = r.hmac := by
  cases P <;> rfl

theorem kind_read : (P.read r).kind = r.kind := by
  cases P <;> rfl

/-- Metadata that comes back leaves the payload of the record alone. -/
theorem verifyEvent_read (hutc : r.createdAt.utcoffset = some .utc) (hkept : P.Keeps r.metadata)
    (H : Hmac) (secret : Bytes) : verifyEvent H (P.read r) secret = verifyEvent H r secret := by
  cases P with
  | memory => rfl
  | postgres C =>
      have hpython : r.FromPython := ⟨hutc, hkept.1, hkept.2.1⟩
      have hmac : computeEventHmac H secret (C.rowToRecord r).toEventContent =
          computeEventHmac H secret r.toEventContent :=
        C.computeEventHmac_rowToRecord hpython hkept.2.2 H secret
      change verifyEvent H (C.rowToRecord r) secret = _
      rw [verifyEvent, verifyEvent, hmac]
      rfl

/-- The links of the records that are read are those of the records that were stored. -/
theorem chainFrom_read {p : Option String} {records : List AuditEventRecord} :
    ChainFrom p (records.map P.read) ↔ ChainFrom p records := by
  rw [ChainFrom, linkedFrom_map]
  simp only [prevHash_read, hmac_read]

end PrimaryStore

/-! ## Calls on one session -/

/-- A call of `log`, with everything that is decided outside the module: the ids and times
that the callbacks draw, when the primary is reachable, and the answers of the file
system. -/
structure OutageCall where
  call : LogCall
  markerId : Uuid
  markerTs : Datetime
  recordId : Uuid
  fallbackMarkerId : Uuid
  fallbackMarkerTs : Datetime
  fallbackRecordId : Uuid
  markerUp : Bool
  recordUp : Bool
  drainUp : ℕ → Bool
  drainFiles : FileOps
  markerFiles : FileOps
  recordFiles : FileOps
  /-- `datetime.now(timezone.utc)` -/
  createdAtUtc : call.createdAt.utcoffset = some .utc
  markerTsUtc : markerTs.utcoffset = some .utc
  fallbackMarkerTsUtc : fallbackMarkerTs.utcoffset = some .utc

def OutageCall.ids (c : OutageCall) : List Uuid :=
  [c.markerId, c.recordId, c.fallbackMarkerId, c.fallbackRecordId]

/-- The module, with the ids drawn so far and whether a row has been in the fallback at the
end of a call. -/
structure OutageState (B : AuditBackend) where
  log : LogState B.Store JsonlStore
  drawn : List Uuid
  spilled : Bool

section Runs

variable (B : AuditBackend) (K : ModuleKeys) (R : StampReader)

/-- An insert into a primary that may be down. -/
def insertIfUp (up : Bool) (sid : Uuid) (build : Build) (p : B.Store) :
    B.Store × Option AuditEventRecord :=
  if up then B.insertWithChainLock p sid build else (p, none)

def OutageCall.ops (c : OutageCall) : LogOps B.Store JsonlStore AuditEventRecord where
  primaryMarker :=
    insertIfUp B c.markerUp c.call.sessionId (c.call.buildMarker K c.markerId c.markerTs)
  primaryRecord :=
    insertIfUp B c.recordUp c.call.sessionId (c.call.buildRecord K c.recordId)
  drain f p :=
    let (f', p', _) := JsonlStore.drainTo B.writeBatch c.drainUp R c.drainFiles f p
    (f', p')
  fallbackMarker f :=
    f.insertWithChainLock c.markerFiles c.call.sessionId
      (c.call.buildMarker K c.fallbackMarkerId c.fallbackMarkerTs)
  fallbackRecord f :=
    f.insertWithChainLock c.recordFiles c.call.sessionId
      (c.call.buildRecord K c.fallbackRecordId)

def OutageState.act (s : OutageState B) (c : OutageCall) : OutageState B :=
  let log := ((c.ops B K R).logUnsafe c.call.sessionId s.log).1
  ⟨log, c.ids ++ s.drawn, s.spilled || !log.fallback.lines.isEmpty⟩

/-- A call on the session `sid` whose ids are new and whose appends to the file succeed.  If
it recovers the primary, the drain completes. -/
structure Undisturbed (maxFileBytes : ℕ) (sid : Uuid) (calls : LogCall → Prop)
    (s : OutageState B) (c : OutageCall) : Prop where
  session : c.call.sessionId = sid
  call : calls c.call
  nodup : c.ids.Nodup
  fresh : ∀ id ∈ c.ids, id ∉ s.drawn
  markerFiles : JsonlStore.Accepts maxFileBytes c.markerFiles
  recordFiles : JsonlStore.Accepts maxFileBytes c.recordFiles
  recovers : ∀ p m, sid ∈ s.log.degradedStarts →
    (c.ops B K R).primaryMarker s.log.primary = (p, some m) →
      (JsonlStore.drainTo B.writeBatch c.drainUp R c.drainFiles s.log.fallback p).2.2 = true

def OutageState.initial (maxFileBytes : ℕ) : OutageState B where
  log := ⟨B.initial, .empty maxFileBytes true, ∅⟩
  drawn := []
  spilled := false

/-- Any number of calls on one session, each of them in `calls`. -/
def outageRuns (maxFileBytes : ℕ) (sid : Uuid) (calls : LogCall → Prop) :
    System (OutageState B) where
  init s := s = .initial B maxFileBytes
  step s s' := ∃ c, Undisturbed B K R maxFileBytes sid calls s c ∧ s' = s.act B K R c

end Runs

/-! ## What the callbacks build -/

/-- The agent id fits into a record. -/
def LogCall.AgentFits (L : LogCall) : Prop :=
  1 ≤ L.event.agentId.length ∧ L.event.agentId.length ≤ maxAgentIdLen

/-- What the callback builds continues the chain of the session, has the given id and
satisfies `W`. -/
def Builds (K : ModuleKeys) (sid : Uuid) (W : AuditEventRecord → Prop) (id : Uuid)
    (build : Build) : Prop :=
  ∀ p r, build p = some r → BuiltOn K sid p r ∧ r.eventId = id ∧ W r

section Builds

variable {K : ModuleKeys} {W : AuditEventRecord → Prop} {L : LogCall} {id : Uuid}

theorem LogCall.builds_record
    (hW : ∀ r : AuditEventRecord, r.metadata = L.event.metadata → r.createdAt = L.createdAt →
      W r) :
    Builds K L.sessionId W id (L.buildRecord K id) := by
  intro p r h
  obtain ⟨hcontent, hmac⟩ := LogCall.buildRecord_spec h
  exact ⟨⟨congrArg EventContent.sessionId hcontent, congrArg EventContent.prevHash hcontent,
    hmac⟩, congrArg EventContent.eventId hcontent,
    hW r (congrArg EventContent.metadata hcontent) (congrArg EventContent.createdAt hcontent)⟩

theorem LogCall.builds_marker {ts : Datetime}
    (hW : ∀ r : AuditEventRecord, r.metadata = LogCall.markerMetadata → r.createdAt = ts →
      W r) :
    Builds K L.sessionId W id (L.buildMarker K id ts) := by
  intro p r h
  obtain ⟨hcontent, hmac⟩ := LogCall.buildMarker_spec h
  exact ⟨⟨congrArg EventContent.sessionId hcontent, congrArg EventContent.prevHash hcontent,
    hmac⟩, congrArg EventContent.eventId hcontent,
    hW r (congrArg EventContent.metadata hcontent) (congrArg EventContent.createdAt hcontent)⟩

/-- A marker can be built for every agent id that fits. -/
theorem LogCall.buildMarker_isSome (hfits : L.AgentFits) {p : Option String}
    (hp : optionalWithin maxHashLen p) (ts : Datetime) :
    ∃ r, L.buildMarker K id ts p = some r := by
  have hkind : 1 ≤ degradedStartKind.length ∧ degradedStartKind.length ≤ maxKindLen := by
    decide
  refine ⟨⟨_, ?_⟩, AuditEventRecord.construct_eq_some_iff.mpr rfl⟩
  refine ⟨hfits, hkind, by simp [optionalWithin, markerContent],
    by simp [optionalWithin, markerContent], by simp [optionalWithin, markerContent], hp, ?_,
    by simp [optionalWithin]⟩
  rw [length_computeEventHmac]
  decide

theorem optionalWithin_lastHmac (records : List AuditEventRecord) :
    optionalWithin maxHashLen (lastHmac records) := by
  intro t ht
  rw [lastHmac, tip_eq_getLast?, Option.map_eq_some_iff] at ht
  obtain ⟨r, -, rfl⟩ := ht
  exact r.valid.hmac.2

end Builds

/-! ## The two stores between operations -/

/-- The primary holds the segments of the session so far, and the file a further one with
the records `rs`.  Every record satisfies `W`, and those that start a segment `Q`; `Plain`
says that no event of the run names a model, which the file does not keep. -/
structure Segments (B : AuditBackend) (K : ModuleKeys) (maxFileBytes : ℕ) (sid : Uuid)
    (Q W : AuditEventRecord → Prop) (Plain : Prop) (spilled : Bool) (drawn : List Uuid)
    (p : B.Store) (f : JsonlStore) (rs : List AuditEventRecord) : Prop where
  ok : B.Ok p
  holds : f.Holds maxFileBytes rs
  session : ∀ r ∈ rs, r.sessionId = sid
  linked : ChainFrom none rs
  start : ∀ r, rs.head? = some r → Q r
  written : ∀ r ∈ B.getSessionEvents p sid, W r
  heldWritten : ∀ r ∈ rs, W r
  segmented : SegmentedFrom (fun r : AuditEventRecord => r.prevHash) (fun r => r.hmac) Q none
    (B.getSessionEvents p sid)
  stored : Plain → ∀ r ∈ B.getSessionEvents p sid,
    verifyEvent K.hmac r K.secret = .ok true
  held : Plain → ∀ r ∈ rs, r.model = none ∧ verifyEvent K.hmac r K.secret = .ok true
  nodup : (rs.map fun r => r.eventId).Nodup
  unused : ∀ r ∈ rs, B.Unused p r.eventId
  undrawn : ∀ id ∉ drawn, B.Unused p id ∧ ∀ r ∈ rs, r.eventId ≠ id
  clean : spilled = false → rs = [] ∧ ChainFrom none (B.getSessionEvents p sid) ∧
    ∀ r ∈ B.getSessionEvents p sid, verifyEvent K.hmac r K.secret = .ok true
  broken : spilled = true → rs ≠ [] ∨ ¬ChainFrom none (B.getSessionEvents p sid)

theorem forall_mem_concat {α : Type*} {P : α → Prop} {l : List α} {a : α}
    (hl : ∀ x ∈ l, P x) (ha : P a) : ∀ x ∈ l ++ [a], P x := by
  rw [List.forall_mem_append, List.forall_mem_singleton]
  exact ⟨hl, ha⟩

namespace Segments

variable {B : AuditBackend} {K : ModuleKeys} {maxFileBytes : ℕ} {sid : Uuid}
  {Q W : AuditEventRecord → Prop} {Plain : Prop} {spilled : Bool} {drawn : List Uuid}
  {p p' : B.Store} {f f' : JsonlStore} {rs : List AuditEventRecord} {id : Uuid} {build : Build}
  {r : AuditEventRecord}

theorem initial : Segments B K maxFileBytes sid Q W Plain false [] B.initial
    (.empty maxFileBytes true) [] where
  ok := B.ok_initial
  holds := ⟨rfl, rfl, rfl, rfl, by simp [JsonlStore.empty]⟩
  session := by simp
  linked := trivial
  start := by simp
  written := by simp [B.events_initial]
  heldWritten := by simp
  segmented := by
    rw [B.events_initial]
    trivial
  stored := by simp [B.events_initial]
  held := by simp
  nodup := by simp
  unused := by simp
  undrawn := fun id _ => ⟨B.unused_initial id, by simp⟩
  clean := fun _ => ⟨rfl, by simp [B.events_initial], by simp [B.events_initial]⟩
  broken := by simp

theorem mono (h : Segments B K maxFileBytes sid Q W Plain spilled drawn p f rs)
    {drawn' : List Uuid} (hsub : drawn ⊆ drawn') :
    Segments B K maxFileBytes sid Q W Plain spilled drawn' p f rs :=
  { h with undrawn := fun id hid => h.undrawn id fun hmem => hid (hsub hmem) }

/-- An insert into the primary that raises. -/
theorem insert_none (h : Segments B K maxFileBytes sid Q W Plain spilled drawn p f rs)
    (hins : B.insertWithChainLock p sid build = (p', none)) (hintact : B.Intact p') :
    Segments B K maxFileBytes sid Q W Plain spilled drawn p' f rs := by
  obtain ⟨hok, hext⟩ := B.insert_none h.ok hins hintact
  have hevents : B.getSessionEvents p' sid = B.getSessionEvents p sid := by
    simpa using hext.events sid
  have hunused : ∀ id, B.Unused p id → B.Unused p' id :=
    fun id hid => (hext.unused id).mpr ⟨hid, by simp⟩
  exact { h with
    ok := hok
    written := hevents ▸ h.written
    segmented := hevents ▸ h.segmented
    stored := hevents ▸ h.stored
    unused := fun r hr => hunused _ (h.unused r hr)
    undrawn := fun id hid => (h.undrawn id hid).imp_left (hunused id)
    clean := hevents ▸ h.clean
    broken := hevents ▸ h.broken }

/-- An insert into the primary continues its chain. -/
theorem insert_some (h : Segments B K maxFileBytes sid Q W Plain spilled drawn p f rs)
    (hbuild : Builds K sid W id build) (hid : id ∉ drawn)
    (hins : B.insertWithChainLock p sid build = (p', some r)) (hintact : B.Intact p') :
    Segments B K maxFileBytes sid Q W Plain spilled (id :: drawn) p' f rs ∧
      B.getSessionEvents p' sid ≠ [] := by
  obtain ⟨hon, hrid, hwritten⟩ := hbuild _ _ (B.insert_built h.ok hins)
  obtain ⟨hfree, hother⟩ := h.undrawn id hid
  obtain ⟨hok, hext⟩ := B.insert_extends h.ok hins hon.sessionId (hrid ▸ hfree) hintact
  have hevents : B.getSessionEvents p' sid = B.getSessionEvents p sid ++ [r] := by
    rw [hext.events, ← hon.sessionId, ofSession_singleton_self]
  have hunused : ∀ x, B.Unused p x → x ≠ id → B.Unused p' x := by
    intro x hx hne
    refine (hext.unused x).mpr ⟨hx, ?_⟩
    intro r' hr'
    rw [List.mem_singleton.mp hr', hrid]
    exact Ne.symm hne
  refine ⟨?_, by rw [hevents]; simp⟩
  exact { h with
    ok := hok
    written := by
      rw [hevents]
      exact forall_mem_concat h.written hwritten
    segmented := by
      rw [hevents, segmentedFrom_append]
      exact ⟨h.segmented, Or.inl hon.prevHash, trivial⟩
    stored := by
      intro hplain
      rw [hevents]
      exact forall_mem_concat (h.stored hplain) hon.verifyEvent
    unused := fun x hx => hunused _ (h.unused x hx) (hother x hx)
    undrawn := by
      intro x hx
      rw [List.mem_cons, not_or] at hx
      exact (h.undrawn x hx.2).imp_left fun hfree => hunused x hfree hx.1
    clean := by
      intro hspilled
      obtain ⟨hrs, hchain, hverify⟩ := h.clean hspilled
      rw [hevents]
      exact ⟨hrs, (linkedFrom_concat _ _ _).mpr ⟨hchain, hon.prevHash⟩,
        forall_mem_concat hverify hon.verifyEvent⟩
    broken := by
      intro hspilled
      refine (h.broken hspilled).imp_right fun hnot hchain => hnot ?_
      rw [hevents] at hchain
      exact ((linkedFrom_concat _ _ _).mp hchain).1 }

/-- An insert into the fallback that raises. -/
theorem fallback_none (h : Segments B K maxFileBytes sid Q W Plain spilled drawn p f rs)
    {ops : FileOps} (hops : JsonlStore.Accepts maxFileBytes ops)
    (hins : f.insertWithChainLock ops sid build = (f', none)) :
    Segments B K maxFileBytes sid Q W Plain spilled drawn p f' rs ∧
      build (lastHmac rs) = none := by
  obtain ⟨hbuild, hholds⟩ := (h.holds.insertWithChainLock hops hins).1 rfl
  rw [ofSession_eq_self h.session] at hbuild
  exact ⟨{ h with holds := hholds }, hbuild⟩

/-- An insert into the fallback continues the segment in the file, or starts it. -/
theorem fallback_some (h : Segments B K maxFileBytes sid Q W Plain spilled drawn p f rs)
    {ops : FileOps} (hops : JsonlStore.Accepts maxFileBytes ops)
    (hbuild : Builds K sid W id build) (hid : id ∉ drawn)
    (hins : f.insertWithChainLock ops sid build = (f', some r))
    (hstart : rs = [] → Q r) (hmodel : Plain → r.model = none) :
    Segments B K maxFileBytes sid Q W Plain true (id :: drawn) p f' (rs ++ [r]) := by
  obtain ⟨hbuilt, hholds⟩ := (h.holds.insertWithChainLock hops hins).2 r rfl
  rw [ofSession_eq_self h.session] at hbuilt
  obtain ⟨hon, hrid, hwritten⟩ := hbuild _ _ hbuilt
  obtain ⟨hfree, hother⟩ := h.undrawn id hid
  exact {
    ok := h.ok
    holds := hholds hon.sessionId
    session := forall_mem_concat h.session hon.sessionId
    linked := (linkedFrom_concat _ _ _).mpr ⟨h.linked, hon.prevHash⟩
    start := by
      intro x hx
      rcases rs with _ | ⟨a, rs⟩
      · obtain rfl : r = x := by simpa using hx
        exact hstart rfl
      · exact h.start x (by simpa using hx)
    written := h.written
    heldWritten := forall_mem_concat h.heldWritten hwritten
    segmented := h.segmented
    stored := h.stored
    held := fun hplain =>
      forall_mem_concat (h.held hplain) ⟨hmodel hplain, hon.verifyEvent⟩
    nodup := by
      rw [List.map_append, List.map_singleton]
      refine List.Nodup.append h.nodup (List.nodup_singleton _) ?_
      rw [List.disjoint_singleton, hrid]
      intro hmem
      obtain ⟨x, hx, hxid⟩ := List.mem_map.mp hmem
      exact hother x hx hxid
    unused := forall_mem_concat h.unused (hrid ▸ hfree)
    undrawn := by
      intro x hx
      rw [List.mem_cons, not_or] at hx
      obtain ⟨hxfree, hxother⟩ := h.undrawn x hx.2
      exact ⟨hxfree, forall_mem_concat hxother fun heq => hx.1 (heq.symm.trans hrid)⟩
    clean := by simp
    broken := by simp }

/-- A drain moves the segment of the file behind a chain that is not empty. -/
theorem drain (h : Segments B K maxFileBytes sid Q W Plain spilled drawn p f rs)
    (hdecoded : ∀ r, Q r → Q (decoded r r.metadata))
    (hwritten : ∀ r, W r → W (decoded r r.metadata))
    {R : StampReader} {ops : FileOps} {up : ℕ → Bool}
    (hdrain : JsonlStore.drainTo B.writeBatch up R ops f p = (f', p', true))
    (hne : B.getSessionEvents p sid ≠ []) (hintact : B.Intact p') :
    Segments B K maxFileBytes sid Q W Plain spilled drawn p' f' [] := by
  obtain ⟨hholds, batches, m, hflatten, hwrite⟩ := h.holds.drainTo_eq hdrain
  have hids : ((JsonlStore.replayed rs).map fun r => r.eventId) = rs.map fun r => r.eventId := by
    rw [JsonlStore.replayed, List.map_map]
    rfl
  have hsession : ∀ r ∈ JsonlStore.replayed rs, r.sessionId = sid :=
    List.forall_mem_map.mpr h.session
  have hnew : ∀ r ∈ JsonlStore.replayed rs, B.Unused p r.eventId :=
    List.forall_mem_map.mpr h.unused
  obtain ⟨hok, hext⟩ := JsonlStore.writeBatches_extends B h.ok hwrite
    (by rw [hflatten, hids]; exact h.nodup) (by rw [hflatten]; exact hnew) hintact
  rw [hflatten] at hext
  have hevents : B.getSessionEvents p' sid =
      B.getSessionEvents p sid ++ JsonlStore.replayed rs := by
    rw [hext.events, ofSession_eq_self hsession]
  have hlinked : ChainFrom none (JsonlStore.replayed rs) :=
    (linkedFrom_map _ _ _).mpr h.linked
  exact {
    ok := hok
    holds := hholds
    session := by simp
    linked := trivial
    start := by simp
    written := by
      rw [hevents, List.forall_mem_append]
      refine ⟨h.written, List.forall_mem_map.mpr ?_⟩
      exact fun x hx => hwritten x (h.heldWritten x hx)
    heldWritten := by simp
    segmented := by
      rw [hevents, segmentedFrom_append]
      refine ⟨h.segmented, .of_start hlinked ?_⟩
      intro r hr
      rw [JsonlStore.replayed, List.head?_map, Option.map_eq_some_iff] at hr
      obtain ⟨x, hx, rfl⟩ := hr
      exact hdecoded x (h.start x hx)
    stored := by
      intro hplain
      rw [hevents, List.forall_mem_append]
      refine ⟨h.stored hplain, List.forall_mem_map.mpr ?_⟩
      intro x hx
      obtain ⟨hmodel, hverify⟩ := h.held hplain x hx
      rw [verifyEvent_decoded hmodel]
      exact hverify
    held := by simp
    nodup := by simp
    unused := by simp
    undrawn := by
      intro id hid
      obtain ⟨hfree, hother⟩ := h.undrawn id hid
      exact ⟨(hext.unused id).mpr ⟨hfree, List.forall_mem_map.mpr hother⟩, by simp⟩
    clean := by
      intro hspilled
      obtain ⟨rfl, hchain, hverify⟩ := h.clean hspilled
      rw [hevents]
      simpa [JsonlStore.replayed] using ⟨hchain, hverify⟩
    broken := by
      intro hspilled
      right
      rw [hevents]
      rcases h.broken hspilled with hrs | hnot
      · exact not_linkedFrom_append_start hne (by simpa [JsonlStore.replayed] using hrs) hlinked
      · exact fun hchain => hnot ((linkedFrom_append _ _ _).mp hchain).1 }

/-- A row in the file has spilled. -/
theorem spilled_eq (h : Segments B K maxFileBytes sid Q W Plain spilled drawn p f rs)
    {before : Bool} (hbefore : spilled = before ∨ rs ≠ []) :
    spilled = (before || !f.lines.isEmpty) := by
  by_cases hrs : rs = []
  · subst hrs
    have hlines : f.lines = [] := h.holds.lines
    rw [hbefore.resolve_right (by simp), hlines]
    simp
  · have hspilled : spilled = true := by
      by_contra hclean
      exact hrs (h.clean (Bool.eq_false_iff.mpr hclean)).1
    have hlines : f.lines ≠ [] := by
      rw [h.holds.lines]
      simpa using hrs
    rw [hspilled, List.isEmpty_eq_false_iff.mpr hlines]
    simp

end Segments

/-! ## One call -/

section Calls

variable {B : AuditBackend} {P : PrimaryStore} {K : ModuleKeys} {R : StampReader}
  {maxFileBytes : ℕ} {sid : Uuid} {calls : LogCall → Prop} {spilled : Bool} {drawn : List Uuid}
  {c : OutageCall}

theorem insertIfUp_intact {up : Bool} {build : Build} {p p' : B.Store}
    {res : Option AuditEventRecord} (h : insertIfUp B up sid build p = (p', res))
    (hintact : B.Intact p') : B.Intact p := by
  rw [insertIfUp] at h
  split at h
  · exact B.insert_intact h hintact
  · exact (Prod.mk.inj h).1 ▸ hintact

def AgentsFit (calls : LogCall → Prop) : Prop := ∀ L, calls L → L.AgentFits

def ModelFree (calls : LogCall → Prop) : Prop := ∀ L, calls L → L.event.model = none

/-- The metadata of every event comes back from the primary. -/
def MetadataKept (P : PrimaryStore) (calls : LogCall → Prop) : Prop :=
  ∀ L, calls L → P.Keeps L.event.metadata

/-- Read back with the payload that was authenticated, if the metadata of every event is. -/
structure WrittenBy (P : PrimaryStore) (calls : LogCall → Prop) (r : AuditEventRecord) :
    Prop where
  utc : r.createdAt.utcoffset = some .utc
  kept : MetadataKept P calls → P.Keeps r.metadata

theorem keeps_markerMetadata : P.Keeps LogCall.markerMetadata := by
  cases P with
  | memory => trivial
  | postgres => exact ⟨⟨by decide, trivial, trivial⟩, ⟨trivial, trivial⟩, ⟨trivial, trivial⟩⟩

theorem OutageCall.builds_record {id : Uuid} (hcall : calls c.call) :
    Builds K c.call.sessionId (WrittenBy P calls) id (c.call.buildRecord K id) := by
  apply LogCall.builds_record
  intro r hmetadata hcreated
  exact ⟨hcreated ▸ c.createdAtUtc, fun hkept => hmetadata ▸ hkept _ hcall⟩

theorem LogCall.builds_utcMarker {L : LogCall} {id : Uuid} {ts : Datetime}
    (hutc : ts.utcoffset = some .utc) :
    Builds K L.sessionId (WrittenBy P calls) id (L.buildMarker K id ts) := by
  apply LogCall.builds_marker
  intro r hmetadata hcreated
  exact ⟨hcreated ▸ hutc, fun _ => hmetadata ▸ keeps_markerMetadata⟩

/-- A marker, if every call of the run could build one. -/
def StartsMarked (calls : LogCall → Prop) (r : AuditEventRecord) : Prop :=
  AgentsFit calls → r.kind = LogCall.degradedStartKind

/-- The stores are as `Segments` says, and the session is flagged while the file has a
segment of it. -/
def OutageOk (P : PrimaryStore) (K : ModuleKeys) (maxFileBytes : ℕ) (sid : Uuid)
    (calls : LogCall → Prop) (spilled : Bool) (drawn : List Uuid)
    (log : LogState P.backend.Store JsonlStore) : Prop :=
  ∃ rs, Segments P.backend K maxFileBytes sid (StartsMarked calls) (WrittenBy P calls)
      (ModelFree calls) spilled drawn log.primary log.fallback rs ∧
    (rs ≠ [] → sid ∈ log.degradedStarts) ∧
    (AgentsFit calls → sid ∈ log.degradedStarts → rs ≠ [])

/-- The marker that the `except` block writes for a session that is not flagged yet. -/
theorem marked_segments {p : P.backend.Store} {f : JsonlStore} {rs : List AuditEventRecord}
    {degradedStarts : Finset Uuid}
    (h : Segments P.backend K maxFileBytes c.call.sessionId (StartsMarked calls)
      (WrittenBy P calls) (ModelFree calls)
      spilled drawn p f rs)
    (hflag : rs ≠ [] → c.call.sessionId ∈ degradedStarts)
    (hheld : AgentsFit calls → c.call.sessionId ∈ degradedStarts → rs ≠ [])
    (hcall : calls c.call) (hid : c.fallbackMarkerId ∉ drawn)
    (hops : JsonlStore.Accepts maxFileBytes c.markerFiles) :
    ∃ spilled' rs',
      Segments P.backend K maxFileBytes c.call.sessionId (StartsMarked calls)
      (WrittenBy P calls) (ModelFree calls)
        spilled' (c.fallbackMarkerId :: drawn) p
        (if c.call.sessionId ∈ degradedStarts then f
          else ((c.ops P.backend K R).fallbackMarker f).1) rs' ∧
      (AgentsFit calls → rs' ≠ []) ∧ (spilled' = spilled ∨ rs' ≠ []) := by
  by_cases hflagged : c.call.sessionId ∈ degradedStarts
  · rw [if_pos hflagged]
    exact ⟨spilled, rs, h.mono (List.subset_cons_self _ _), fun hfit => hheld hfit hflagged,
      Or.inl rfl⟩
  · rw [if_neg hflagged]
    obtain rfl : rs = [] := by
      by_contra hrs
      exact hflagged (hflag hrs)
    rcases hins : (c.ops P.backend K R).fallbackMarker f with ⟨f', _ | r⟩
    · obtain ⟨hseg, hnone⟩ := h.fallback_none hops hins
      refine ⟨spilled, [], hseg.mono (List.subset_cons_self _ _), ?_, Or.inl rfl⟩
      intro hfit
      have hbuilds : ∃ r, LogCall.buildMarker K c.call c.fallbackMarkerId
          c.fallbackMarkerTs (lastHmac []) = some r :=
        LogCall.buildMarker_isSome (hfit _ hcall) (optionalWithin_lastHmac [])
          c.fallbackMarkerTs
      obtain ⟨r, hr⟩ := hbuilds
      rw [hnone] at hr
      cases hr
    · obtain ⟨hbuilt, -⟩ := (h.holds.insertWithChainLock hops hins).2 r rfl
      obtain ⟨hcontent, -⟩ := LogCall.buildMarker_spec hbuilt
      refine ⟨true, [r], h.fallback_some hops
        (LogCall.builds_utcMarker c.fallbackMarkerTsUtc) hid hins ?_ ?_, by simp, by simp⟩
      · exact fun _ _ => congrArg EventContent.kind hcontent
      · exact fun _ => congrArg EventContent.model hcontent

/-- The `except` block leaves the primary alone and extends the segment in the file. -/
theorem fallBack_ok {log : LogState P.backend.Store JsonlStore}
    (h : OutageOk P K maxFileBytes c.call.sessionId calls spilled drawn log)
    (hcall : calls c.call) (hmarker : c.fallbackMarkerId ∉ drawn)
    (hrecord : c.fallbackRecordId ∉ c.fallbackMarkerId :: drawn)
    (hops : JsonlStore.Accepts maxFileBytes c.markerFiles)
    (hops' : JsonlStore.Accepts maxFileBytes c.recordFiles) :
    OutageOk P K maxFileBytes c.call.sessionId calls
      (spilled || !((c.ops P.backend K R).fallBack c.call.sessionId log).1.fallback.lines.isEmpty)
      (c.fallbackRecordId :: c.fallbackMarkerId :: drawn)
      ((c.ops P.backend K R).fallBack c.call.sessionId log).1 := by
  obtain ⟨rs, hseg, hflag, hheld⟩ := h
  obtain ⟨spilled₁, rs₁, hseg₁, hheld₁, hspilled₁⟩ :=
    marked_segments (R := R) hseg hflag hheld hcall hmarker hops
  set marked := if c.call.sessionId ∈ log.degradedStarts then log.fallback
    else ((c.ops P.backend K R).fallbackMarker log.fallback).1 with hmarked
  have hfallBack : ((c.ops P.backend K R).fallBack c.call.sessionId log).1 =
      ⟨log.primary, ((c.ops P.backend K R).fallbackRecord marked).1,
        insert c.call.sessionId log.degradedStarts⟩ := rfl
  rw [hfallBack]
  rcases hins : (c.ops P.backend K R).fallbackRecord marked with ⟨f', _ | r⟩
  · obtain ⟨hseg₂, -⟩ := hseg₁.fallback_none hops' hins
    refine ⟨rs₁, ?_, fun _ => Finset.mem_insert_self _ _, fun hfit _ => hheld₁ hfit⟩
    rw [← hseg₂.spilled_eq hspilled₁]
    exact hseg₂.mono (List.subset_cons_self _ _)
  · obtain ⟨hbuilt, -⟩ := (hseg₁.holds.insertWithChainLock hops' hins).2 r rfl
    obtain ⟨hcontent, -⟩ := LogCall.buildRecord_spec hbuilt
    have hseg₂ := hseg₁.fallback_some hops' (OutageCall.builds_record hcall) hrecord hins
      (fun hrs hfit => absurd hrs (hheld₁ hfit))
      (fun hfree => (congrArg EventContent.model hcontent).trans (hfree _ hcall))
    refine ⟨rs₁ ++ [r], ?_, fun _ => Finset.mem_insert_self _ _, fun _ _ => by simp⟩
    rw [← hseg₂.spilled_eq (Or.inr (by simp))]
    exact hseg₂

theorem Segments.insertIfUp {Q W : AuditEventRecord → Prop} {Plain : Prop} {p p' : B.Store}
    {f : JsonlStore} {rs : List AuditEventRecord} {id : Uuid} {build : Build} {up : Bool}
    {res : Option AuditEventRecord}
    (h : Segments B K maxFileBytes sid Q W Plain spilled drawn p f rs)
    (hbuild : Builds K sid W id build) (hid : id ∉ drawn)
    (hins : Audit.insertIfUp B up sid build p = (p', res)) (hintact : B.Intact p') :
    Segments B K maxFileBytes sid Q W Plain spilled (id :: drawn) p' f rs ∧
      (res ≠ none → B.getSessionEvents p' sid ≠ []) := by
  rw [Audit.insertIfUp] at hins
  split at hins
  · rcases res with _ | r
    · exact ⟨(h.insert_none hins hintact).mono (List.subset_cons_self _ _), by simp⟩
    · obtain ⟨hseg, hne⟩ := h.insert_some hbuild hid hins hintact
      exact ⟨hseg, fun _ => hne⟩
  · obtain ⟨rfl, rfl⟩ := Prod.mk.inj hins
    exact ⟨h.mono (List.subset_cons_self _ _), by simp⟩

theorem startsMarked_decoded (r : AuditEventRecord) (h : StartsMarked calls r) :
    StartsMarked calls (decoded r r.metadata) := h

theorem writtenBy_decoded (r : AuditEventRecord) (h : WrittenBy P calls r) :
    WrittenBy P calls (decoded r r.metadata) := ⟨h.utc, h.kept⟩

/-- A recovery: the marker, the rows of the file, and the record if its insert succeeds. -/
theorem recovery_ok {s : OutageState P.backend} {p : P.backend.Store} {m : AuditEventRecord}
    {rs : List AuditEventRecord}
    (hseg : Segments P.backend K maxFileBytes c.call.sessionId (StartsMarked calls)
      (WrittenBy P calls) (ModelFree calls)
      s.spilled s.drawn s.log.primary s.log.fallback rs)
    (hc : Undisturbed P.backend K R maxFileBytes c.call.sessionId calls s c)
    (hflagged : c.call.sessionId ∈ s.log.degradedStarts)
    (hmarker : (c.ops P.backend K R).primaryMarker s.log.primary = (p, some m))
    (hintact : P.backend.Intact
      ((c.ops P.backend K R).tryPrimary c.call.sessionId s.log).1.primary) :
    OutageOk P K maxFileBytes c.call.sessionId calls s.spilled
        (c.recordId :: c.markerId :: s.drawn)
        ((c.ops P.backend K R).tryPrimary c.call.sessionId s.log).1 ∧
      c.call.sessionId ∉
        ((c.ops P.backend K R).tryPrimary c.call.sessionId s.log).1.degradedStarts := by
  have hreturned := hc.recovers p m hflagged hmarker
  rcases hdrain : JsonlStore.drainTo P.backend.writeBatch c.drainUp R c.drainFiles
    s.log.fallback p with ⟨f, p₂, ok⟩
  rw [hdrain] at hreturned
  obtain rfl : ok = true := hreturned
  rcases hrecord : (c.ops P.backend K R).primaryRecord p₂ with ⟨p₃, res⟩
  have htry : ((c.ops P.backend K R).tryPrimary c.call.sessionId s.log).1 =
      ⟨p₃, f, s.log.degradedStarts.erase c.call.sessionId⟩ := by
    have hmoved : (c.ops P.backend K R).drain s.log.fallback p = (f, p₂) := by
      change (fun x : JsonlStore × P.backend.Store × Bool => (x.1, x.2.1))
        (JsonlStore.drainTo P.backend.writeBatch c.drainUp R c.drainFiles s.log.fallback p) = _
      rw [hdrain]
    rw [LogOps.tryPrimary, if_pos hflagged, hmarker]
    simp only [hmoved, hrecord]
  rw [htry] at hintact ⊢
  have hids := hc.nodup
  simp only [OutageCall.ids, List.nodup_cons, List.mem_cons, not_or] at hids
  have hmarkerId : c.markerId ∉ s.drawn := hc.fresh _ (by simp [OutageCall.ids])
  have hrecordId : c.recordId ∉ c.markerId :: s.drawn := by
    rw [List.mem_cons, not_or]
    exact ⟨Ne.symm hids.1.1, hc.fresh _ (by simp [OutageCall.ids])⟩
  have hintact₂ : P.backend.Intact p₂ := insertIfUp_intact hrecord hintact
  have hintact₁ : P.backend.Intact p := JsonlStore.drainTo_intact hdrain hintact₂
  obtain ⟨hseg₁, hne⟩ := hseg.insertIfUp (LogCall.builds_utcMarker c.markerTsUtc) hmarkerId
    hmarker hintact₁
  have hseg₂ := hseg₁.drain startsMarked_decoded writtenBy_decoded hdrain (hne (by simp))
    hintact₂
  obtain ⟨hseg₃, -⟩ := hseg₂.insertIfUp (OutageCall.builds_record hc.call) hrecordId hrecord
    hintact
  have herased : c.call.sessionId ∉ s.log.degradedStarts.erase c.call.sessionId :=
    Finset.notMem_erase _ _
  exact ⟨⟨[], hseg₃, by simp, fun _ hmem => absurd hmem herased⟩, herased⟩

theorem tryPrimary_ok {s : OutageState P.backend}
    (h : OutageOk P K maxFileBytes c.call.sessionId calls s.spilled s.drawn s.log)
    (hc : Undisturbed P.backend K R maxFileBytes c.call.sessionId calls s c)
    (hintact : P.backend.Intact
      ((c.ops P.backend K R).tryPrimary c.call.sessionId s.log).1.primary) :
    OutageOk P K maxFileBytes c.call.sessionId calls s.spilled
        (c.recordId :: c.markerId :: s.drawn)
        ((c.ops P.backend K R).tryPrimary c.call.sessionId s.log).1 ∧
      (((c.ops P.backend K R).tryPrimary c.call.sessionId s.log).2 ≠ none →
        c.call.sessionId ∉
          ((c.ops P.backend K R).tryPrimary c.call.sessionId s.log).1.degradedStarts) := by
  obtain ⟨rs, hseg, hflag, hheld⟩ := h
  by_cases hflagged : c.call.sessionId ∈ s.log.degradedStarts
  · rcases hmarker : (c.ops P.backend K R).primaryMarker s.log.primary with ⟨p, _ | m⟩
    · have htry : (c.ops P.backend K R).tryPrimary c.call.sessionId s.log =
          ({ s.log with primary := p }, none) := by
        rw [LogOps.tryPrimary, if_pos hflagged, hmarker]
      rw [htry] at hintact ⊢
      obtain ⟨hseg₁, -⟩ := hseg.insertIfUp (LogCall.builds_utcMarker c.markerTsUtc)
        (hc.fresh c.markerId (by simp [OutageCall.ids])) hmarker hintact
      exact ⟨⟨rs, hseg₁.mono (List.subset_cons_self _ _), hflag, hheld⟩, by simp⟩
    · obtain ⟨hok, herased⟩ := recovery_ok hseg hc hflagged hmarker hintact
      exact ⟨hok, fun _ => herased⟩
  · rcases hrecord : (c.ops P.backend K R).primaryRecord s.log.primary with ⟨p, res⟩
    have htry : (c.ops P.backend K R).tryPrimary c.call.sessionId s.log =
        ({ s.log with primary := p }, res) := by
      rw [LogOps.tryPrimary, if_neg hflagged, hrecord]
    rw [htry] at hintact ⊢
    obtain ⟨hseg₁, -⟩ := hseg.insertIfUp (OutageCall.builds_record hc.call)
      (hc.fresh c.recordId (by simp [OutageCall.ids])) hrecord hintact
    refine ⟨⟨rs, hseg₁.mono ?_, hflag, hheld⟩, fun _ => hflagged⟩
    exact List.cons_subset_cons _ (List.subset_cons_self _ _)

theorem tryPrimary_intact {log : LogState P.backend.Store JsonlStore}
    (hintact : P.backend.Intact
      ((c.ops P.backend K R).tryPrimary c.call.sessionId log).1.primary) :
    P.backend.Intact log.primary := by
  by_cases hflagged : c.call.sessionId ∈ log.degradedStarts
  · rcases hmarker : (c.ops P.backend K R).primaryMarker log.primary with ⟨p, _ | m⟩
    · rw [LogOps.tryPrimary, if_pos hflagged, hmarker] at hintact
      exact insertIfUp_intact hmarker hintact
    · rcases hdrain : JsonlStore.drainTo P.backend.writeBatch c.drainUp R c.drainFiles
        log.fallback p with ⟨f, p₂, ok⟩
      rcases hrecord : (c.ops P.backend K R).primaryRecord p₂ with ⟨p₃, res⟩
      have hmoved : (c.ops P.backend K R).drain log.fallback p = (f, p₂) := by
        change (fun x : JsonlStore × P.backend.Store × Bool => (x.1, x.2.1))
          (JsonlStore.drainTo P.backend.writeBatch c.drainUp R c.drainFiles log.fallback p) = _
        rw [hdrain]
      rw [LogOps.tryPrimary, if_pos hflagged, hmarker] at hintact
      simp only [hmoved, hrecord] at hintact
      have hintact₂ := insertIfUp_intact hrecord hintact
      exact insertIfUp_intact hmarker (JsonlStore.drainTo_intact hdrain hintact₂)
  · rcases hrecord : (c.ops P.backend K R).primaryRecord log.primary with ⟨p, res⟩
    rw [LogOps.tryPrimary, if_neg hflagged, hrecord] at hintact
    exact insertIfUp_intact hrecord hintact

/-- The primary after a call is the one after its `try` block. -/
theorem primary_act (s : OutageState P.backend) (c : OutageCall) :
    (s.act P.backend K R c).log.primary =
      ((c.ops P.backend K R).tryPrimary c.call.sessionId s.log).1.primary := by
  rw [OutageState.act, LogOps.logUnsafe]
  rcases (c.ops P.backend K R).tryPrimary c.call.sessionId s.log with ⟨log, _ | r⟩
  · rfl
  · rfl

theorem outageOk_act {s : OutageState P.backend}
    (h : OutageOk P K maxFileBytes sid calls s.spilled s.drawn s.log)
    (hc : Undisturbed P.backend K R maxFileBytes sid calls s c)
    (hintact : P.backend.Intact (s.act P.backend K R c).log.primary) :
    OutageOk P K maxFileBytes sid calls (s.act P.backend K R c).spilled
      (s.act P.backend K R c).drawn (s.act P.backend K R c).log := by
  obtain rfl := hc.session
  rw [primary_act] at hintact
  obtain ⟨hok, hcleared⟩ := tryPrimary_ok h hc hintact
  have hids := hc.nodup
  simp only [OutageCall.ids, List.nodup_cons, List.mem_cons, not_or, List.not_mem_nil,
    not_false_eq_true, List.nodup_nil, and_true] at hids
  obtain ⟨⟨-, hmark₁, hmark₂⟩, ⟨hrec₁, hrec₂⟩, hfall⟩ := hids
  rcases htry : (c.ops P.backend K R).tryPrimary c.call.sessionId s.log with ⟨log, _ | r⟩
  · rw [htry] at hok
    have hact : (s.act P.backend K R c).log =
        ((c.ops P.backend K R).fallBack c.call.sessionId log).1 := by
      rw [OutageState.act, LogOps.logUnsafe, htry]
    have hmarkerId : c.fallbackMarkerId ∉ c.recordId :: c.markerId :: s.drawn := by
      simp only [List.mem_cons, not_or]
      exact ⟨Ne.symm hrec₁, Ne.symm hmark₁, hc.fresh _ (by simp [OutageCall.ids])⟩
    have hrecordId : c.fallbackRecordId ∉
        c.fallbackMarkerId :: c.recordId :: c.markerId :: s.drawn := by
      simp only [List.mem_cons, not_or]
      exact ⟨Ne.symm hfall, Ne.symm hrec₂, Ne.symm hmark₂,
        hc.fresh _ (by simp [OutageCall.ids])⟩
    obtain ⟨rs, hseg, hflag, hheld⟩ :=
      fallBack_ok (R := R) hok hc.call hmarkerId hrecordId hc.markerFiles hc.recordFiles
    have hspilled : (s.act P.backend K R c).spilled =
        (s.spilled || !(s.act P.backend K R c).log.fallback.lines.isEmpty) := rfl
    rw [hspilled, hact]
    refine ⟨rs, hseg.mono ?_, hflag, hheld⟩
    intro id hid
    simp only [List.mem_cons] at hid
    change id ∈ c.ids ++ s.drawn
    rcases hid with rfl | rfl | rfl | rfl | hid
    all_goals simp [OutageCall.ids, *]
  · rw [htry] at hok hcleared
    have hact : s.act P.backend K R c =
        ⟨log, c.ids ++ s.drawn, s.spilled || !log.fallback.lines.isEmpty⟩ := by
      rw [OutageState.act, LogOps.logUnsafe, htry]
    rw [hact]
    obtain ⟨rs, hseg, hflag, hheld⟩ := hok
    refine ⟨rs, ?_, hflag, hheld⟩
    rw [← hseg.spilled_eq (Or.inl rfl)]
    apply hseg.mono
    intro id hid
    simp only [List.mem_cons] at hid
    rcases hid with rfl | rfl | hid
    all_goals simp [OutageCall.ids, *]

theorem outageOk_of_reachable {s : OutageState P.backend}
    (h : (outageRuns P.backend K R maxFileBytes sid calls).Reachable s)
    (hintact : P.backend.Intact s.log.primary) :
    OutageOk P K maxFileBytes sid calls s.spilled s.drawn s.log := by
  refine System.invariant (I := fun s => P.backend.Intact s.log.primary →
    OutageOk P K maxFileBytes sid calls s.spilled s.drawn s.log) ?_ ?_ h hintact
  · rintro s rfl -
    exact ⟨[], .initial, by simp, fun _ hmem => absurd hmem (Finset.notMem_empty _)⟩
  · rintro s t - hs ⟨c, hc, rfl⟩ hintact
    have hbefore : P.backend.Intact s.log.primary := by
      rw [primary_act] at hintact
      exact tryPrimary_intact hintact
    exact outageOk_act (hs hbefore) hc hintact

end Calls

/-! ## Whole runs -/

/-- Rows whose metadata comes back verify as they were stored. -/
theorem Segments.verify_read {P : PrimaryStore} {K : ModuleKeys} {maxFileBytes : ℕ}
    {sid : Uuid} {calls : LogCall → Prop} {Q : AuditEventRecord → Prop} {Plain : Prop}
    {spilled : Bool} {drawn : List Uuid} {p : P.backend.Store} {f : JsonlStore}
    {rs : List AuditEventRecord}
    (h : Segments P.backend K maxFileBytes sid Q (WrittenBy P calls) Plain spilled drawn p f rs)
    (hkept : MetadataKept P calls)
    (hverify : ∀ r ∈ P.backend.getSessionEvents p sid,
      verifyEvent K.hmac r K.secret = .ok true) :
    ∀ r ∈ P.getSessionEvents p sid, verifyEvent K.hmac r K.secret = .ok true := by
  rw [PrimaryStore.getSessionEvents, List.forall_mem_map]
  intro r hr
  obtain ⟨hutc, hread⟩ := h.written r hr
  rw [PrimaryStore.verifyEvent_read hutc (hread hkept)]
  exact hverify r hr

/-- Once the fallback is drained, every row of the session in the primary links to the row
before it or starts a segment with an empty `prev_hash`, and the rows that start a later
segment are `chain.degraded_start` markers.  If the metadata of every event comes back from
the primary, then every row of a run without models verifies, and `trace_session_chain`
accepts the session exactly when no row ever went to the fallback, unless HMACs collide. -/
theorem drained_session_segments {P : PrimaryStore} {K : ModuleKeys} {R : StampReader}
    {maxFileBytes : ℕ} {sid : Uuid} {calls : LogCall → Prop} {s : OutageState P.backend}
    (h : (outageRuns P.backend K R maxFileBytes sid calls).Reachable s)
    (hintact : P.backend.Intact s.log.primary) (hdrained : s.log.fallback.lines = []) :
    SegmentedFrom (fun r : AuditEventRecord => r.prevHash) (fun r => r.hmac)
        (fun r => AgentsFit calls → r.kind = LogCall.degradedStartKind) none
        (P.getSessionEvents s.log.primary sid) ∧
      (MetadataKept P calls →
        (ModelFree calls → ∀ r ∈ P.getSessionEvents s.log.primary sid,
          verifyEvent K.hmac r K.secret = .ok true) ∧
        (K.hmac.CollisionFreeOn K.secret (payloads (P.getSessionEvents s.log.primary sid)) →
          ((∃ events, traceSessionChain K.hmac K.secret
            (P.getSessionEvents s.log.primary sid) = .ok events) ↔ s.spilled = false))) := by
  obtain ⟨rs, hseg, -, -⟩ := outageOk_of_reachable h hintact
  obtain rfl : rs = [] := by
    have hlines := hseg.holds.lines
    rw [hdrained] at hlines
    exact List.map_eq_nil_iff.mp hlines.symm
  constructor
  · rw [PrimaryStore.getSessionEvents, segmentedFrom_map]
    simp only [PrimaryStore.prevHash_read, PrimaryStore.hmac_read, PrimaryStore.kind_read]
    exact hseg.segmented
  · intro hkept
    refine ⟨fun hmodels => hseg.verify_read hkept (hseg.stored hmodels), ?_⟩
    intro hfree
    rw [traceSessionChain_accepts_iff hfree, verifyChainRecords_eq_ok_iff,
      PrimaryStore.getSessionEvents, PrimaryStore.chainFrom_read]
    constructor
    · intro ⟨hchain, _⟩
      by_contra hspilled
      rw [Bool.not_eq_false] at hspilled
      exact (hseg.broken hspilled).elim (fun hne => hne rfl) fun hnot => hnot hchain
    · intro hspilled
      obtain ⟨-, hchain, hverify⟩ := hseg.clean hspilled
      exact ⟨hchain, hseg.verify_read hkept hverify⟩

/-! ### One outage -/

def healthyFiles : FileOps := ⟨true, some 0, true, true, true, true⟩

def outageCap : ℕ := 52428800

/-- A call of the sample event, with a primary that is up or down for all of it. -/
def outageCall (markerId recordId fallbackMarkerId fallbackRecordId : Uuid) (up : Bool) :
    OutageCall where
  call := PostgresStore.sampleLog []
  markerId := markerId
  markerTs := sampleTime
  recordId := recordId
  fallbackMarkerId := fallbackMarkerId
  fallbackMarkerTs := sampleTime
  fallbackRecordId := fallbackRecordId
  markerUp := up
  recordUp := up
  drainUp _ := up
  drainFiles := healthyFiles
  markerFiles := healthyFiles
  recordFiles := healthyFiles
  createdAtUtc := rfl
  markerTsUtc := rfl
  fallbackMarkerTsUtc := rfl

def callDown : OutageCall := outageCall ⟨1⟩ ⟨2⟩ ⟨3⟩ ⟨4⟩ false

def callUp : OutageCall := outageCall ⟨5⟩ ⟨6⟩ ⟨7⟩ ⟨8⟩ true

/-- Calls of the sample event. -/
def SampleCall (L : LogCall) : Prop := L = PostgresStore.sampleLog []

theorem healthyFiles_accepts : JsonlStore.Accepts outageCap healthyFiles :=
  ⟨rfl, by decide, rfl, rfl⟩

theorem PostgresAudit.insertWithChainLock_of_build {τ : PostgresAudit} {sid : Uuid}
    {build : Build} {r : AuditEventRecord} (hbuild : build (latestHmac τ.rows sid) = some r)
    (hnew : ∀ row ∈ τ.rows, row.record.eventId ≠ r.eventId) :
    τ.insertWithChainLock sid build =
      (⟨τ.rows ++ [⟨τ.nextSeq, r, none⟩], τ.nextSeq + 1⟩, some r) := by
  have hfree : ¬∃ row ∈ τ.rows, row.record.eventId = r.eventId :=
    fun ⟨row, hrow, hid⟩ => hnew row hrow hid
  rw [PostgresAudit.insertWithChainLock, hbuild]
  simp only [PostgresAudit.insertRow, if_neg hfree]

section OneOutage

variable {K : ModuleKeys} {R : StampReader} {m₁ r₁ m₂ r₂ : AuditEventRecord}

/-- What the callbacks of the two calls build. -/
structure OutageBuilds (K : ModuleKeys) (m₁ r₁ m₂ r₂ : AuditEventRecord) : Prop where
  heldMarker : (PostgresStore.sampleLog []).buildMarker K ⟨3⟩ sampleTime none = some m₁
  heldRecord : (PostgresStore.sampleLog []).buildRecord K ⟨4⟩ (some m₁.hmac) = some r₁
  recoveryMarker : (PostgresStore.sampleLog []).buildMarker K ⟨5⟩ sampleTime none = some m₂
  recoveredRecord : (PostgresStore.sampleLog []).buildRecord K ⟨6⟩ (some r₁.hmac) = some r₂

/-- The table after the recovery marker, and after the drain behind it. -/
def markedTable (m₂ : AuditEventRecord) : PostgresAudit := ⟨[⟨1, m₂, none⟩], 2⟩

def drainedTable (m₁ r₁ m₂ : AuditEventRecord) : PostgresAudit :=
  ⟨[⟨1, m₂, none⟩, ⟨2, decoded m₁ m₁.metadata, none⟩, ⟨3, decoded r₁ r₁.metadata, none⟩], 4⟩

def recoveredTable (m₁ r₁ m₂ r₂ : AuditEventRecord) : PostgresAudit :=
  ⟨(drainedTable m₁ r₁ m₂).rows ++ [⟨4, r₂, none⟩], 5⟩

namespace OutageBuilds

theorem down_undisturbed : Undisturbed PostgresAudit.backend K R outageCap ⟨100⟩ SampleCall
    (.initial _ outageCap) callDown where
  session := rfl
  call := rfl
  nodup := by decide
  fresh := fun _ _ => List.not_mem_nil
  markerFiles := healthyFiles_accepts
  recordFiles := healthyFiles_accepts
  recovers := fun _ _ hmem => absurd hmem (Finset.notMem_empty _)

/-- Plain metadata and a time in UTC. -/
def PlainRecord (r : AuditEventRecord) : Prop :=
  r.createdAt.utcoffset = some .utc ∧
    ∀ C, (PrimaryStore.postgres C).Keeps r.metadata

theorem marker_built {id : Uuid} : Builds K ⟨100⟩ PlainRecord id
    ((PostgresStore.sampleLog []).buildMarker K id sampleTime) := by
  apply LogCall.builds_marker
  intro r hmetadata hcreated
  exact ⟨hcreated ▸ rfl, fun C => hmetadata ▸ keeps_markerMetadata⟩

theorem record_built {id : Uuid} : Builds K ⟨100⟩ PlainRecord id
    ((PostgresStore.sampleLog []).buildRecord K id) := by
  apply LogCall.builds_record
  intro r hmetadata hcreated
  refine ⟨hcreated ▸ rfl, fun C => hmetadata ▸ ?_⟩
  exact ⟨⟨List.nodup_nil, trivial⟩, trivial, trivial⟩

variable (h : OutageBuilds K m₁ r₁ m₂ r₂)

include h

theorem builtOn : BuiltOn K ⟨100⟩ none m₁ ∧ BuiltOn K ⟨100⟩ (some m₁.hmac) r₁ ∧
    BuiltOn K ⟨100⟩ none m₂ ∧ BuiltOn K ⟨100⟩ (some r₁.hmac) r₂ :=
  ⟨(marker_built _ _ h.heldMarker).1, (record_built _ _ h.heldRecord).1,
    (marker_built _ _ h.recoveryMarker).1, (record_built _ _ h.recoveredRecord).1⟩

theorem plain : PlainRecord m₁ ∧ PlainRecord r₁ ∧ PlainRecord m₂ ∧ PlainRecord r₂ :=
  ⟨(marker_built _ _ h.heldMarker).2.2, (record_built _ _ h.heldRecord).2.2,
    (marker_built _ _ h.recoveryMarker).2.2, (record_built _ _ h.recoveredRecord).2.2⟩

theorem eventIds : m₁.eventId = ⟨3⟩ ∧ r₁.eventId = ⟨4⟩ ∧ m₂.eventId = ⟨5⟩ ∧
    r₂.eventId = ⟨6⟩ :=
  ⟨(marker_built _ _ h.heldMarker).2.1, (record_built _ _ h.heldRecord).2.1,
    (marker_built _ _ h.recoveryMarker).2.1, (record_built _ _ h.recoveredRecord).2.1⟩

/-- The call that finds the primary down leaves its marker and its record in the file. -/
theorem down_holds :
    (((OutageState.initial PostgresAudit.backend outageCap).act _ K R
      callDown).log.fallback).Holds outageCap [m₁, r₁] := by
  obtain ⟨hm, hr, -, -⟩ := h.builtOn
  have hempty : (JsonlStore.empty outageCap true).Holds outageCap [] :=
    ⟨rfl, rfl, rfl, rfl, by simp [JsonlStore.empty]⟩
  have hmarked := hempty.insert_of_build healthyFiles_accepts h.heldMarker hm.sessionId
  have hlast : lastHmac (ofSession ⟨100⟩ ([] ++ [m₁])) = some m₁.hmac := by
    rw [List.nil_append, ofSession_eq_self (by simp [hm.sessionId])]
    exact tip_concat none [] m₁
  have hrecord : (PostgresStore.sampleLog []).buildRecord K ⟨4⟩
      (lastHmac (ofSession ⟨100⟩ ([] ++ [m₁]))) = some r₁ := by
    rw [hlast]
    exact h.heldRecord
  exact hmarked.insert_of_build healthyFiles_accepts hrecord hr.sessionId

theorem marker_insert :
    PostgresAudit.empty.insertWithChainLock ⟨100⟩
        ((PostgresStore.sampleLog []).buildMarker K ⟨5⟩ sampleTime) =
      (markedTable m₂, some m₂) :=
  PostgresAudit.insertWithChainLock_of_build h.recoveryMarker (by simp [PostgresAudit.empty])

theorem drain_eq {f : JsonlStore} (hholds : f.Holds outageCap [m₁, r₁]) :
    ∃ f', f'.lines = [] ∧ JsonlStore.drainTo PostgresAudit.writeBatch (fun _ => true) R
      healthyFiles f (markedTable m₂) = (f', drainedTable m₁ r₁ m₂, true) := by
  obtain ⟨hid₁, hid₂, hid₃, -⟩ := h.eventIds
  have hfile : f.file = some ([m₁, r₁].map serialize) := by
    have hlines := hholds.lines
    rw [JsonlStore.lines] at hlines
    rcases hfile : f.file with _ | fileLines
    · rw [hfile] at hlines
      simp at hlines
    · rw [hfile] at hlines
      exact congrArg some hlines
  have hbatches : JsonlStore.fileBatches R [] ([m₁, r₁].map serialize) =
      [[decoded m₁ m₁.metadata, decoded r₁ r₁.metadata]] := by
    simp [JsonlStore.fileBatches, deserialize_serialize, JsonlStore.drainBatchSize]
  have hnew : ¬m₂.eventId = (decoded m₁ m₁.metadata).eventId := by
    change ¬m₂.eventId = m₁.eventId
    rw [hid₁, hid₃]
    decide
  have hnew' : ¬(m₂.eventId = (decoded r₁ r₁.metadata).eventId ∨
      (decoded m₁ m₁.metadata).eventId = (decoded r₁ r₁.metadata).eventId) := by
    change ¬(m₂.eventId = r₁.eventId ∨ m₁.eventId = r₁.eventId)
    rw [hid₁, hid₂, hid₃]
    decide
  have hwrite : PostgresAudit.writeBatch (markedTable m₂)
      [decoded m₁ m₁.metadata, decoded r₁ r₁.metadata] = (drainedTable m₁ r₁ m₂, true) := by
    simp [PostgresAudit.writeBatch, PostgresAudit.insertRows, PostgresAudit.insertRow,
      markedTable, drainedTable, hnew, hnew']
  have hmemory : JsonlStore.memoryBatches [] = [] := rfl
  refine ⟨{ f with
    memoryBuffer := [], file := none, initialized := ∅, lastHmac := fun _ => none }, rfl, ?_⟩
  unfold JsonlStore.drainTo
  simp only [hholds.buffer, hmemory, JsonlStore.writeBatches, JsonlStore.drainFile,
    hholds.fsAvailable, hfile, hbatches, hwrite, healthyFiles, ↓reduceIte, Bool.and_true]

theorem drained_session : sessionRows (drainedTable m₁ r₁ m₂).rows ⟨100⟩ =
    (drainedTable m₁ r₁ m₂).rows := by
  obtain ⟨hm, hr, hm', -⟩ := h.builtOn
  rw [sessionRows, List.filter_eq_self]
  intro row hrow
  simp only [drainedTable, List.mem_cons, List.not_mem_nil, or_false] at hrow
  rcases hrow with rfl | rfl | rfl
  · exact decide_eq_true hm'.sessionId
  · exact decide_eq_true hm.sessionId
  · exact decide_eq_true hr.sessionId

theorem drained_head : latestHmac (drainedTable m₁ r₁ m₂).rows ⟨100⟩ = some r₁.hmac := by
  have hsession := h.drained_session
  rw [latestHmac_eq_of_increasing (by rw [hsession]; simp [drainedTable]), hsession]
  rfl

theorem record_insert :
    (drainedTable m₁ r₁ m₂).insertWithChainLock ⟨100⟩
        ((PostgresStore.sampleLog []).buildRecord K ⟨6⟩) =
      (recoveredTable m₁ r₁ m₂ r₂, some r₂) := by
  obtain ⟨hid₁, hid₂, hid₃, hid₄⟩ := h.eventIds
  refine PostgresAudit.insertWithChainLock_of_build ?_ ?_
  · rw [h.drained_head]
    exact h.recoveredRecord
  · intro row hrow
    simp only [drainedTable, List.mem_cons, List.not_mem_nil, or_false] at hrow
    rcases hrow with rfl | rfl | rfl
    · rw [hid₃, hid₄]
      decide
    · change m₁.eventId ≠ _
      rw [hid₁, hid₄]
      decide
    · change r₁.eventId ≠ _
      rw [hid₂, hid₄]
      decide

theorem up_undisturbed : Undisturbed PostgresAudit.backend K R outageCap ⟨100⟩ SampleCall
    ((OutageState.initial _ outageCap).act _ K R callDown) callUp where
  session := rfl
  call := rfl
  nodup := by decide
  fresh := by
    change ∀ id ∈ callUp.ids, id ∉ callDown.ids
    decide
  markerFiles := healthyFiles_accepts
  recordFiles := healthyFiles_accepts
  recovers := by
    intro p m _ hmarker
    obtain rfl : markedTable m₂ = p :=
      congrArg Prod.fst (h.marker_insert.symm.trans hmarker)
    obtain ⟨f', -, hdrain⟩ := h.drain_eq (R := R) h.down_holds
    exact congrArg (fun x => x.2.2) hdrain

/-- The second call leaves the table with four rows and an empty file. -/
theorem up_act :
    ∃ s, (outageRuns PostgresAudit.backend K R outageCap ⟨100⟩ SampleCall).Reachable s ∧
      s.log.primary = recoveredTable m₁ r₁ m₂ r₂ ∧ s.log.fallback.lines = [] := by
  have h₀ : (outageRuns PostgresAudit.backend K R outageCap ⟨100⟩ SampleCall).Reachable _ :=
    .start rfl
  have h₁ := h₀.next ⟨callDown, down_undisturbed, rfl⟩
  have h₂ := h₁.next ⟨callUp, h.up_undisturbed, rfl⟩
  obtain ⟨f', hlines, hdrain⟩ := h.drain_eq (R := R) h.down_holds
  have htry : (callUp.ops PostgresAudit.backend K R).tryPrimary ⟨100⟩
      ((OutageState.initial _ outageCap).act _ K R callDown).log =
        (⟨recoveredTable m₁ r₁ m₂ r₂, f', ({⟨100⟩} : Finset Uuid).erase ⟨100⟩⟩, some r₂) := by
    have hmarker : (callUp.ops PostgresAudit.backend K R).primaryMarker
        ((OutageState.initial _ outageCap).act _ K R callDown).log.primary =
          (markedTable m₂, some m₂) := h.marker_insert
    have hmoved : (callUp.ops PostgresAudit.backend K R).drain
        ((OutageState.initial _ outageCap).act _ K R callDown).log.fallback
          (markedTable m₂) = (f', drainedTable m₁ r₁ m₂) :=
      congrArg (fun x => (x.1, x.2.1)) hdrain
    have hrecord : (callUp.ops PostgresAudit.backend K R).primaryRecord
        (drainedTable m₁ r₁ m₂) = (recoveredTable m₁ r₁ m₂ r₂, some r₂) := h.record_insert
    have hflagged : (⟨100⟩ : Uuid) ∈
        ((OutageState.initial PostgresAudit.backend outageCap).act _ K R
          callDown).log.degradedStarts := Finset.mem_insert_self _ _
    rw [LogOps.tryPrimary, if_pos hflagged, hmarker]
    simp only [hmoved, hrecord]
    rfl
  have hlog : ((OutageState.initial PostgresAudit.backend outageCap).act _ K R callDown |>.act
      _ K R callUp).log =
        ⟨recoveredTable m₁ r₁ m₂ r₂, f', ({⟨100⟩} : Finset Uuid).erase ⟨100⟩⟩ := by
    change ((callUp.ops PostgresAudit.backend K R).logUnsafe ⟨100⟩ _).1 = _
    rw [LogOps.logUnsafe, htry]
  exact ⟨_, h₂, by rw [hlog], by rw [hlog]; exact hlines⟩

theorem recovered_events : getSessionEvents (recoveredTable m₁ r₁ m₂ r₂).rows ⟨100⟩ =
    [m₂, decoded m₁ m₁.metadata, decoded r₁ r₁.metadata, r₂] := by
  have hsession : sessionRows (recoveredTable m₁ r₁ m₂ r₂).rows ⟨100⟩ =
      (recoveredTable m₁ r₁ m₂ r₂).rows := by
    have hlast : [(⟨4, r₂, none⟩ : AuditRow)].filter (fun row => row.record.sessionId = ⟨100⟩) =
        [⟨4, r₂, none⟩] := by
      simp [h.builtOn.2.2.2.sessionId]
    change List.filter _ (_ ++ _) = _
    rw [List.filter_append, hlast]
    exact congrArg (· ++ _) h.drained_session
  rw [getSessionEvents_eq_of_increasing
    (by rw [hsession]; simp [recoveredTable, drainedTable]), hsession]
  rfl

/-- The rows of the drained segment and of the recovery marker both have no predecessor. -/
theorem recovered_not_traced (C : ColumnTypes) (events : List AuditEventRecord) :
    traceSessionChain K.hmac K.secret
      ((PrimaryStore.postgres C).getSessionEvents (recoveredTable m₁ r₁ m₂ r₂) ⟨100⟩) ≠
        .ok events := by
  intro htrace
  obtain ⟨-, hchain, -, -⟩ := traceSessionChain_eq_ok_iff.mp htrace
  have hstored : ChainFrom none (getSessionEvents (recoveredTable m₁ r₁ m₂ r₂).rows ⟨100⟩) :=
    PrimaryStore.chainFrom_read.mp hchain
  rw [h.recovered_events] at hstored
  have hprev : (decoded m₁ m₁.metadata).prevHash = none := h.builtOn.1.prevHash
  have hlink : (decoded m₁ m₁.metadata).prevHash = some m₂.hmac := hstored.2.1
  rw [hprev] at hlink
  cases hlink

end OutageBuilds

end OneOutage

/-! ### With real digests -/

def heldMarkerDigest : BitVec 256 :=
  0x8dd1ecb840071f9ac55d84804e9711f8f209a0a90e34567b235dc9545810889f#256

def heldRecordDigest : BitVec 256 :=
  0x8f99d562cb8f222c483d62f2ac130982cebe2036718c3f8930197389ccbcfa00#256

def recoveryMarkerDigest : BitVec 256 :=
  0xbc5b63689dc0f7107871eebdc8c2d556264c6322345cef124a23499b03547621#256

def recoveredRecordDigest : BitVec 256 :=
  0xc25fd36f25fa4dc74c6c79c8c0695421804f51eb8a064d3234c11f0099fb427c#256

def outageMarker (id : Uuid) : EventContent :=
  (PostgresStore.sampleLog []).markerContent id sampleTime none

theorem outageMarker_valid (id : Uuid) (d : BitVec 256) :
    RecordFields.Valid ⟨outageMarker id, digestText d, none, none, .unsigned⟩ := by
  have hagent : 1 ≤ "agent-a".length ∧ "agent-a".length ≤ maxAgentIdLen := by decide
  have hkind : 1 ≤ LogCall.degradedStartKind.length ∧
      LogCall.degradedStartKind.length ≤ maxKindLen := by decide
  have hnone : ∀ n, optionalWithin n none := by simp [optionalWithin]
  refine ⟨hagent, hkind, hnone _, hnone _, hnone _, hnone _, ?_, hnone _⟩
  rw [length_digestText]
  decide

def markerRecord (id : Uuid) (d : BitVec 256) : AuditEventRecord :=
  ⟨_, outageMarker_valid id d⟩

/-- HMAC-SHA256 on the payloads of the two calls. -/
def outageKeys : ModuleKeys where
  hmac := .ofTable
    [tableEntry sampleSecret (outageMarker ⟨3⟩) heldMarkerDigest,
     tableEntry sampleSecret (sampleContent ⟨4⟩ [] (some (digestText heldMarkerDigest)))
      heldRecordDigest,
     tableEntry sampleSecret (outageMarker ⟨5⟩) recoveryMarkerDigest,
     tableEntry sampleSecret (sampleContent ⟨6⟩ [] (some (digestText heldRecordDigest)))
      recoveredRecordDigest]
  secret := sampleSecret
  signer := none

def heldMarker : AuditEventRecord := markerRecord ⟨3⟩ heldMarkerDigest

def heldRecord : AuditEventRecord :=
  sampleRecord ⟨4⟩ [] (some heldMarkerDigest) heldRecordDigest .unsigned

def recoveryMarker : AuditEventRecord := markerRecord ⟨5⟩ recoveryMarkerDigest

def recoveredRecord : AuditEventRecord :=
  sampleRecord ⟨6⟩ [] (some heldRecordDigest) recoveredRecordDigest .unsigned

theorem markerRecord_built {id : Uuid} {d : BitVec 256}
    (hmac : computeEventHmac outageKeys.hmac sampleSecret (outageMarker id) = digestText d) :
    (PostgresStore.sampleLog []).buildMarker outageKeys id sampleTime none =
      some (markerRecord id d) :=
  AuditEventRecord.construct_eq_some_iff.mpr
    (congrArg (RecordFields.mk _ · none none .unsigned) hmac.symm)

theorem outageRecord_built {id : Uuid} {prev d : BitVec 256}
    (hmac : computeEventHmac outageKeys.hmac sampleSecret
      (sampleContent id [] (some (digestText prev))) = digestText d) :
    (PostgresStore.sampleLog []).buildRecord outageKeys id (some (digestText prev)) =
      some (sampleRecord id [] (some prev) d .unsigned) :=
  AuditEventRecord.construct_eq_some_iff.mpr
    (congrArg (RecordFields.mk _ · none none .unsigned) hmac.symm)

theorem outage_builds :
    OutageBuilds outageKeys heldMarker heldRecord recoveryMarker recoveredRecord where
  heldMarker := markerRecord_built (computeEventHmac_ofTable_self _ _)
  heldRecord := outageRecord_built <| by
    rw [outageKeys, computeEventHmac_ofTable_of_ne (Or.inl (by decide))]
    exact computeEventHmac_ofTable_self _ _
  recoveryMarker := markerRecord_built <| by
    rw [outageKeys, computeEventHmac_ofTable_of_ne (Or.inl (by decide)),
      computeEventHmac_ofTable_of_ne (Or.inl (by decide))]
    exact computeEventHmac_ofTable_self _ _
  recoveredRecord := outageRecord_built <| by
    rw [outageKeys, computeEventHmac_ofTable_of_ne (Or.inl (by decide)),
      computeEventHmac_ofTable_of_ne (Or.inl (by decide)),
      computeEventHmac_ofTable_of_ne (Or.inl (by decide))]
    exact computeEventHmac_ofTable_self _ _

def samplePrimary : PrimaryStore := .postgres ColumnTypes.sampleColumns

/-- An outage of one call: the drained session is not one chain. -/
theorem outage_breaks_chain :
    ∃ s, (outageRuns samplePrimary.backend outageKeys .exact outageCap ⟨100⟩
        SampleCall).Reachable s ∧
      s.log.fallback.lines = [] ∧
      ∀ events, traceSessionChain outageKeys.hmac outageKeys.secret
        (samplePrimary.getSessionEvents s.log.primary ⟨100⟩) ≠ .ok events := by
  obtain ⟨s, hs, hprimary, hlines⟩ := outage_builds.up_act (R := .exact)
  refine ⟨s, hs, hlines, ?_⟩
  rw [hprimary]
  exact outage_builds.recovered_not_traced _

/-- Authentic records with distinct HMACs are free of collisions. -/
theorem collisionFreeOn_of_nodup {H : Hmac} {secret : Bytes} {records : List AuditEventRecord}
    (hverify : ∀ r ∈ records, verifyEvent H r secret = .ok true)
    (hnodup : (records.map fun r => r.hmac).Nodup) :
    H.CollisionFreeOn secret (payloads records) := by
  rintro _ ⟨r, hr, rfl⟩ _ ⟨s, hs, rfl⟩ heq
  have hmac : r.hmac = s.hmac := by
    rw [verifyEvent_eq_ok_true_iff.mp (hverify r hr),
      verifyEvent_eq_ok_true_iff.mp (hverify s hs)]
    exact heq
  rw [List.inj_on_of_nodup_map hnodup hr hs hmac]

theorem outage_collisionFree :
    outageKeys.hmac.CollisionFreeOn outageKeys.secret
      (payloads (samplePrimary.getSessionEvents
        (recoveredTable heldMarker heldRecord recoveryMarker recoveredRecord) ⟨100⟩)) := by
  have hevents : samplePrimary.getSessionEvents
      (recoveredTable heldMarker heldRecord recoveryMarker recoveredRecord) ⟨100⟩ =
        [recoveryMarker, decoded heldMarker heldMarker.metadata,
          decoded heldRecord heldRecord.metadata, recoveredRecord].map samplePrimary.read :=
    congrArg (List.map _) outage_builds.recovered_events
  obtain ⟨hm, hr, hm', hr'⟩ := outage_builds.builtOn
  obtain ⟨hpm, hpr, hpm', hpr'⟩ := outage_builds.plain
  rw [hevents]
  apply collisionFreeOn_of_nodup
  · rw [List.forall_mem_map]
    intro r hmem
    have hread : OutageBuilds.PlainRecord r →
        verifyEvent outageKeys.hmac r outageKeys.secret = .ok true →
          verifyEvent outageKeys.hmac (samplePrimary.read r) outageKeys.secret = .ok true :=
      fun hplain hverify =>
        (PrimaryStore.verifyEvent_read hplain.1 (hplain.2 _) _ _).trans hverify
    simp only [List.mem_cons, List.not_mem_nil, or_false] at hmem
    rcases hmem with rfl | rfl | rfl | rfl
    · exact hread hpm' hm'.verifyEvent
    · exact hread hpm hm.verifyEvent
    · exact hread hpr hr.verifyEvent
    · exact hread hpr' hr'.verifyEvent
  · change ([recoveryMarkerDigest, heldMarkerDigest, heldRecordDigest,
      recoveredRecordDigest].map digestText).Nodup
    exact List.Nodup.map digestText_injective (by decide)

theorem sampleCall_fits : AgentsFit SampleCall := by
  rintro L rfl
  exact ⟨by decide, by decide⟩

theorem sampleCall_modelFree : ModelFree SampleCall := by
  rintro L rfl
  rfl

theorem sampleCall_kept : MetadataKept samplePrimary SampleCall := by
  rintro L rfl
  exact ⟨⟨List.nodup_nil, trivial⟩, trivial, trivial⟩

/-- The same run: its segments start with markers, its rows verify. -/
theorem outage_segments :
    ∃ s, (outageRuns samplePrimary.backend outageKeys .exact outageCap ⟨100⟩
        SampleCall).Reachable s ∧
      SegmentedFrom (fun r : AuditEventRecord => r.prevHash) (fun r => r.hmac)
        (fun r => r.kind = LogCall.degradedStartKind) none
        (samplePrimary.getSessionEvents s.log.primary ⟨100⟩) ∧
      (∀ r ∈ samplePrimary.getSessionEvents s.log.primary ⟨100⟩,
        verifyEvent outageKeys.hmac r outageKeys.secret = .ok true) ∧
      s.spilled = true := by
  obtain ⟨s, hs, hprimary, hlines⟩ := outage_builds.up_act (R := .exact)
  have hfree : outageKeys.hmac.CollisionFreeOn outageKeys.secret
      (payloads (samplePrimary.getSessionEvents s.log.primary ⟨100⟩)) := by
    rw [hprimary]
    exact outage_collisionFree
  obtain ⟨hsegments, hkept⟩ :=
    drained_session_segments (P := samplePrimary) hs trivial hlines
  obtain ⟨hverify, htraced⟩ := hkept sampleCall_kept
  refine ⟨s, hs, ?_, hverify sampleCall_modelFree, ?_⟩
  · simpa only [sampleCall_fits, forall_const] using hsegments
  · rw [← Bool.not_eq_false, ← htraced hfree, hprimary]
    intro ⟨events, htrace⟩
    exact outage_builds.recovered_not_traced _ events htrace

end AgenticGovernance.Audit

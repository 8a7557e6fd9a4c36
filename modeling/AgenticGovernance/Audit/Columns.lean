import Mathlib
import AgenticGovernance.Audit.Backend
import AgenticGovernance.Support.Jsonb

/-!
# Records read back from their columns

The HMAC of a record is computed over the metadata that the caller passed, and verified over
the metadata that comes back from the `metadata_json` column.  The other columns return what
was written; the timestamp of a record is in UTC already.

`ColumnTypes` is what the server does to the values of a row.  The table is the one of
`PostgresAudit`, with the record that `_row_to_record` makes of a row in place of the record
that was inserted.
-/

namespace AgenticGovernance.Audit

open Support

/-! ## Columns -/

structure ColumnTypes where
  /-- The order in which a JSONB column lists the entries of an object. -/
  order : EntryOrder
  /-- The value of a `timestamptz` column, in UTC. -/
  timestamptz : Datetime → Datetime
  timestamptz_utc : ∀ t, t.utcoffset = some .utc → timestamptz t = t
  /-- The server takes the values of the row. -/
  accepts : AuditEventRecord → Bool

/-- A record as Python makes it: its time in UTC, the keys of each dictionary distinct, and
the floats those that `repr` prints. -/
structure AuditEventRecord.FromPython (r : AuditEventRecord) : Prop where
  utc : r.createdAt.utcoffset = some .utc
  distinct : (Json.obj r.metadata).DistinctKeys
  printed : (Json.obj r.metadata).FloatsAll PyFloat.Printed

/-- No float of the metadata is printed with a positive exponent, and none is a negative
zero. -/
def AuditEventRecord.PlainFloats (r : AuditEventRecord) : Prop :=
  (Json.obj r.metadata).FloatsAll PyFloat.Plain

namespace ColumnTypes

variable (C : ColumnTypes)

/-- `_row_to_record` of the row into which `r` was written. -/
def rowToRecord (r : AuditEventRecord) : AuditEventRecord where
  eventId := r.eventId
  sessionId := r.sessionId
  agentId := r.agentId
  parentEventId := r.parentEventId
  kind := r.kind
  model := r.model
  inputHash := r.inputHash
  outputHash := r.outputHash
  metadata := C.order.arrange (Json.jsonbFields C.order r.metadata)
  prevHash := r.prevHash
  createdAt := C.timestamptz r.createdAt
  hmac := r.hmac
  signature := r.signature
  signingKeyFingerprint := r.signingKeyFingerprint
  signatureStatus := r.signatureStatus
  valid := ⟨r.valid.agentId, r.valid.kind, r.valid.model, r.valid.inputHash,
    r.valid.outputHash, r.valid.prevHash, r.valid.hmac, r.valid.signingKeyFingerprint⟩

def insertWithChainLock (τ : PostgresAudit) (sid : Uuid) (build : Build) :
    PostgresAudit × Option AuditEventRecord :=
  match build (latestHmac τ.rows sid) with
  | none => (τ, none)
  | some r =>
      if C.accepts r then
        match τ.insertRow (C.rowToRecord r) with
        | (τ', true) => (τ', some r)
        | (τ', false) => (τ', none)
      else (τ, none)

/-- Any number of inserts by any callers. -/
def system : System PostgresAudit where
  init τ := τ = PostgresAudit.empty
  step τ τ' := ∃ sid build result, C.insertWithChainLock τ sid build = (τ', result)

/-! ## The table -/

variable {C} {τ τ' : PostgresAudit}

theorem insertWithChainLock_cases {sid : Uuid} {build : Build}
    {result : Option AuditEventRecord}
    (h : C.insertWithChainLock τ sid build = (τ', result)) :
    (τ'.rows = τ.rows ∧ result = none) ∨
      ∃ r, build (latestHmac τ.rows sid) = some r ∧ result = some r ∧
        (∀ row ∈ τ.rows, row.record.eventId ≠ r.eventId) ∧
        τ'.rows = τ.rows ++ [⟨τ.nextSeq, C.rowToRecord r, none⟩] := by
  rw [insertWithChainLock] at h
  split at h
  · obtain ⟨rfl, rfl⟩ := Prod.mk.inj h
    exact Or.inl ⟨rfl, rfl⟩
  · rename_i r hbuild
    split at h
    · rw [PostgresAudit.insertRow] at h
      by_cases hused : ∃ row ∈ τ.rows, row.record.eventId = (C.rowToRecord r).eventId
      · rw [if_pos hused] at h
        obtain ⟨rfl, rfl⟩ := Prod.mk.inj h
        exact Or.inl ⟨rfl, rfl⟩
      · rw [if_neg hused] at h
        obtain ⟨rfl, rfl⟩ := Prod.mk.inj h
        push Not at hused
        exact Or.inr ⟨r, hbuild, rfl, hused, rfl⟩
    · obtain ⟨rfl, rfl⟩ := Prod.mk.inj h
      exact Or.inl ⟨rfl, rfl⟩

/-- The primary key. -/
def KeysDistinct (τ : PostgresAudit) : Prop :=
  (τ.rows.map fun row => row.record.eventId).Nodup

theorem keysDistinct_step (h : KeysDistinct τ) (hstep : C.system.step τ τ') :
    KeysDistinct τ' := by
  obtain ⟨sid, build, result, hinsert⟩ := hstep
  rcases insertWithChainLock_cases hinsert with ⟨hrows, -⟩ | ⟨r, -, -, hnew, hrows⟩
  · rw [KeysDistinct, hrows]
    exact h
  · rw [KeysDistinct, hrows, List.map_append, List.map_singleton]
    refine List.Nodup.append h (List.nodup_singleton _) ?_
    rw [List.disjoint_singleton]
    intro hmem
    obtain ⟨row, hrow, hid⟩ := List.mem_map.mp hmem
    exact hnew row hrow hid

theorem keysDistinct_of_reachable (h : C.system.Reachable τ) : KeysDistinct τ := by
  refine System.invariant ?_ ?_ h
  · rintro τ rfl
    exact List.nodup_nil
  · intro τ τ' _ hτ hstep
    exact keysDistinct_step hτ hstep

theorem rows_prefix_of_step (hstep : C.system.step τ τ') : τ.rows <+: τ'.rows := by
  obtain ⟨sid, build, result, hinsert⟩ := hstep
  rcases insertWithChainLock_cases hinsert with ⟨hrows, -⟩ | ⟨r, -, -, -, hrows⟩
  · rw [hrows]
  · rw [hrows]
    exact List.prefix_append _ _

theorem rows_prefix_of_run (hrun : Relation.ReflTransGen C.system.step τ τ') :
    τ.rows <+: τ'.rows := by
  induction hrun with
  | refl => exact List.prefix_refl _
  | tail _ hstep ih => exact ih.trans (rows_prefix_of_step hstep)

theorem mem_getSessionEvents {rows : List AuditRow} {sid : Uuid} {r : AuditEventRecord} :
    r ∈ getSessionEvents rows sid ↔
      r.sessionId = sid ∧ ∃ row ∈ rows, row.record = r := by
  simp only [getSessionEvents, sessionRows, List.mem_map, List.mem_insertionSort,
    List.mem_filter, decide_eq_true_eq]
  constructor
  · rintro ⟨row, ⟨hrow, hsid⟩, rfl⟩
    exact ⟨hsid, row, hrow, rfl⟩
  · rintro ⟨hsid, row, hrow, rfl⟩
    exact ⟨row, ⟨hrow, hsid⟩, rfl⟩

/-! ## Verification of what is read -/

/-- The payload is canonical: only the sorted metadata is printed. -/
theorem canonical_of_sortKeys_eq {c : EventContent} {metadata : Metadata}
    (h : (Json.obj metadata).sortKeys = (Json.obj c.metadata).sortKeys) :
    (eventPayload { c with metadata := metadata }).canonical = (eventPayload c).canonical := by
  rw [Json.canonical, Json.canonical, sortKeys_eventPayload, sortKeys_eventPayload]
  simp only [h]

theorem toEventContent_rowToRecord {r : AuditEventRecord}
    (hutc : r.createdAt.utcoffset = some .utc) :
    (C.rowToRecord r).toEventContent =
      { r.toEventContent with
        metadata := C.order.arrange (Json.jsonbFields C.order r.metadata) } := by
  simp only [rowToRecord, C.timestamptz_utc _ hutc]

/-- The payload does not change exactly when the metadata comes back, up to the order of
entries. -/
theorem canonical_rowToRecord_eq_iff {r : AuditEventRecord}
    (hutc : r.createdAt.utcoffset = some .utc) :
    (eventPayload (C.rowToRecord r).toEventContent).canonical =
        (eventPayload r.toEventContent).canonical ↔
      ((Json.obj r.metadata).jsonb C.order).sortKeys = (Json.obj r.metadata).sortKeys := by
  refine ⟨fun h => (eventPayload_inj h).metadata, ?_⟩
  intro h
  rw [toEventContent_rowToRecord hutc]
  exact canonical_of_sortKeys_eq h

/-- The metadata of a record survives its column exactly when its floats are plain. -/
theorem sortKeys_rowToRecord_iff {r : AuditEventRecord} (h : r.FromPython) :
    (Json.obj (C.rowToRecord r).metadata).sortKeys = (Json.obj r.metadata).sortKeys ↔
      r.PlainFloats :=
  Json.sortKeys_jsonb_eq_iff C.order _ h.distinct h.printed

theorem computeEventHmac_rowToRecord {r : AuditEventRecord} (h : r.FromPython)
    (hplain : r.PlainFloats) (H : Hmac) (key : Bytes) :
    computeEventHmac H key (C.rowToRecord r).toEventContent =
      computeEventHmac H key r.toEventContent :=
  congrArg (H.hexdigest key) ((canonical_rowToRecord_eq_iff h.utc).mpr
    ((sortKeys_rowToRecord_iff h).mpr hplain))

/-- The two payloads that are authenticated: before the row is written and after it is
read. -/
def rowPayloads (C : ColumnTypes) (r : AuditEventRecord) : Set String :=
  {(eventPayload r.toEventContent).canonical,
    (eventPayload (C.rowToRecord r).toEventContent).canonical}

/-- Plain metadata leaves one payload. -/
theorem collisionFree_rowPayloads {r : AuditEventRecord} (h : r.FromPython)
    (hplain : r.PlainFloats) (H : Hmac) (key : Bytes) :
    H.CollisionFreeOn key (C.rowPayloads r) := by
  have hsame := (canonical_rowToRecord_eq_iff (C := C) h.utc).mpr
    ((sortKeys_rowToRecord_iff h).mpr hplain)
  rw [rowPayloads, hsame, Set.pair_eq_singleton]
  exact Set.injOn_singleton _ _

theorem verifyEvent_rowToRecord_iff {K : ModuleKeys} {r : AuditEventRecord}
    (hmac : r.hmac = computeEventHmac K.hmac K.secret r.toEventContent)
    (hutc : r.createdAt.utcoffset = some .utc)
    (hdistinct : (Json.obj r.metadata).DistinctKeys)
    (hprinted : (Json.obj r.metadata).FloatsAll PyFloat.Printed)
    (hfree : K.hmac.CollisionFreeOn K.secret (C.rowPayloads r)) :
    verifyEvent K.hmac (C.rowToRecord r) K.secret = .ok true ↔
      (Json.obj r.metadata).FloatsAll PyFloat.Plain := by
  rw [verifyEvent_eq_ok_true_iff, ← Json.sortKeys_jsonb_eq_iff C.order _ hdistinct hprinted,
    ← canonical_rowToRecord_eq_iff hutc]
  change r.hmac = _ ↔ _
  rw [hmac]
  refine ⟨fun h => ?_, fun h => ?_⟩
  · exact (hfree (Or.inl rfl) (Or.inr rfl) h).symm
  · rw [computeEventHmac, computeEventHmac, h]

/-- Once the insert of a log call has succeeded, `get_session_events` returns one record for
it, whatever is inserted later.  That record verifies exactly when the metadata of the event
has no float that is printed with a positive exponent and no negative zero. -/
theorem stored_record_verifies_iff {K : ModuleKeys} {L : LogCall} {eventId : Uuid}
    {τ'' : PostgresAudit} {r : AuditEventRecord}
    (hutc : L.createdAt.utcoffset = some .utc)
    (hdistinct : (Json.obj L.event.metadata).DistinctKeys)
    (hprinted : (Json.obj L.event.metadata).FloatsAll PyFloat.Printed)
    (hreach : C.system.Reachable τ)
    (hinsert : C.insertWithChainLock τ L.sessionId (L.buildRecord K eventId) = (τ', some r))
    (hlater : Relation.ReflTransGen C.system.step τ' τ'')
    (hfree : K.hmac.CollisionFreeOn K.secret (C.rowPayloads r)) :
    (∃ stored ∈ getSessionEvents τ''.rows L.sessionId, stored.eventId = r.eventId) ∧
      ∀ stored ∈ getSessionEvents τ''.rows L.sessionId, stored.eventId = r.eventId →
        (verifyEvent K.hmac stored K.secret = .ok true ↔
          (Json.obj L.event.metadata).FloatsAll PyFloat.Plain) := by
  rcases insertWithChainLock_cases hinsert with ⟨-, hnone⟩ | ⟨r', hbuild, hr, -, hrows⟩
  · cases hnone
  obtain rfl := Option.some.inj hr
  obtain ⟨hcontent, hmac⟩ := LogCall.buildRecord_spec hbuild
  have hsession : r.sessionId = L.sessionId := congrArg EventContent.sessionId hcontent
  have hmetadata : r.metadata = L.event.metadata := congrArg EventContent.metadata hcontent
  have hcreated : r.createdAt = L.createdAt := congrArg EventContent.createdAt hcontent
  have hrow : ⟨τ.nextSeq, C.rowToRecord r, none⟩ ∈ τ''.rows := by
    apply (rows_prefix_of_run hlater).subset
    rw [hrows]
    exact List.mem_concat_self
  have hmem : C.rowToRecord r ∈ getSessionEvents τ''.rows L.sessionId :=
    mem_getSessionEvents.mpr ⟨hsession, _, hrow, rfl⟩
  refine ⟨⟨_, hmem, rfl⟩, ?_⟩
  intro stored hstored hid
  -- The primary key leaves only the row that was inserted.
  have hkeys : KeysDistinct τ'' := by
    obtain ⟨τ₀, hinit, hrun⟩ := hreach
    have hstep : C.system.step τ τ' := ⟨_, _, _, hinsert⟩
    exact keysDistinct_of_reachable ⟨τ₀, hinit, (hrun.tail hstep).trans hlater⟩
  obtain ⟨-, row, hin, rfl⟩ := mem_getSessionEvents.mp hstored
  have heq : row = ⟨τ.nextSeq, C.rowToRecord r, none⟩ :=
    List.inj_on_of_nodup_map hkeys hin hrow hid
  rw [heq, ← hmetadata]
  rw [← hmetadata] at hdistinct hprinted
  rw [← hcreated] at hutc
  exact verifyEvent_rowToRecord_iff hmac hutc hdistinct hprinted hfree

/-! ### Two rows -/

/-- `{"score": 0.5, "at": [1e-05]}` -/
def plainMetadata : Metadata :=
  [("score", .float (.fixed false [0] [5])),
   ("at", .arr [.float (.scientific false 1 [] true [0, 5])])]

/-- `{"budget": 1e+16}` -/
def largeMetadata : Metadata :=
  [("budget", .float (.scientific false 1 [] false [1, 6]))]

/-- `{"budget": 10000000000000000}` -/
def largeReread : Metadata := [("budget", .int (10 ^ 16))]

def plainDigest : BitVec 256 :=
  0x4fb091cae0fdb478774456187fefd17d6da77a3b053d71d07e3fb569e39a68d0#256

def largeDigest : BitVec 256 :=
  0xc1624d774f13ae2b5856e49cd3ca872591632980a1ff4f0c59640973cd67770f#256

def rereadDigest : BitVec 256 :=
  0xe8053346e1c077a870940d5c45ce11e3fd70f9b234f39c85802a62826dd63ab1#256

/-- HMAC-SHA256 on the payloads of both rows. -/
def rowKeys : ModuleKeys where
  hmac := .ofTable
    [tableEntry sampleSecret (sampleContent ⟨1⟩ plainMetadata none) plainDigest,
     tableEntry sampleSecret (sampleContent ⟨2⟩ largeMetadata none) largeDigest,
     tableEntry sampleSecret (sampleContent ⟨2⟩ largeReread none) rereadDigest]
  secret := sampleSecret
  signer := none

def sampleColumns : ColumnTypes where
  order := .byLength
  timestamptz := id
  timestamptz_utc _ _ := rfl
  accepts _ := true

theorem sample_insert (eventId : Uuid) (metadata : Metadata) (d : BitVec 256)
    (hmac : computeEventHmac rowKeys.hmac sampleSecret (sampleContent eventId metadata none) =
      digestText d) :
    sampleColumns.insertWithChainLock PostgresAudit.empty ⟨100⟩
        ((PostgresStore.sampleLog metadata).buildRecord rowKeys eventId) =
      (⟨[⟨1, sampleColumns.rowToRecord (sampleRecord eventId metadata none d .unsigned),
        none⟩], 2⟩, some (sampleRecord eventId metadata none d .unsigned)) := by
  have hbuild : (PostgresStore.sampleLog metadata).buildRecord rowKeys eventId none =
      some (sampleRecord eventId metadata none d .unsigned) :=
    AuditEventRecord.construct_eq_some_iff.mpr
      (congrArg (RecordFields.mk _ · none none .unsigned) hmac.symm)
  have hhead : latestHmac PostgresAudit.empty.rows ⟨100⟩ = none := rfl
  rw [insertWithChainLock, hhead, hbuild]
  rfl

theorem plain_printed : (Json.obj plainMetadata).FloatsAll PyFloat.Printed := by
  refine ⟨⟨⟨false, 4503599627370496, -53, ?_, ?_, ?_, ?_⟩, ?_⟩,
    ⟨⟨⟨false, 5902958103587057, -69, ?_, ?_, ?_, ?_⟩, ?_⟩, trivial⟩, trivial⟩
  all_goals decide +kernel

theorem large_printed : (Json.obj largeMetadata).FloatsAll PyFloat.Printed :=
  ⟨⟨Double.tenPowSixteen false, by decide +kernel⟩, trivial⟩

theorem plain_plain : (Json.obj plainMetadata).FloatsAll PyFloat.Plain :=
  ⟨(by decide : PyFloat.Plain (.fixed false [0] [5])),
    ⟨(by decide : PyFloat.Plain (.scientific false 1 [] true [0, 5])), trivial⟩, trivial⟩

theorem plain_distinct : (Json.obj plainMetadata).DistinctKeys :=
  ⟨by decide, trivial, ⟨trivial, trivial⟩, trivial⟩

/-- The row of the plain metadata verifies when it is read. -/
theorem plain_row_verifies :
    ∃ τ r, sampleColumns.insertWithChainLock PostgresAudit.empty ⟨100⟩
        ((PostgresStore.sampleLog plainMetadata).buildRecord rowKeys ⟨1⟩) = (τ, some r) ∧
      (Json.obj plainMetadata).FloatsAll PyFloat.Printed ∧
      ∀ stored ∈ getSessionEvents τ.rows ⟨100⟩, stored.eventId = r.eventId →
        verifyEvent rowKeys.hmac stored rowKeys.secret = .ok true := by
  have hinsert := sample_insert ⟨1⟩ plainMetadata plainDigest
    (computeEventHmac_ofTable_self _ _)
  refine ⟨_, _, hinsert, plain_printed, ?_⟩
  intro stored hstored hid
  have hplain : (sampleRecord ⟨1⟩ plainMetadata none plainDigest .unsigned).PlainFloats :=
    plain_plain
  have hfree : rowKeys.hmac.CollisionFreeOn rowKeys.secret (sampleColumns.rowPayloads
      (sampleRecord ⟨1⟩ plainMetadata none plainDigest .unsigned)) :=
    collisionFree_rowPayloads ⟨rfl, plain_distinct, plain_printed⟩ hplain _ _
  exact ((stored_record_verifies_iff (L := PostgresStore.sampleLog plainMetadata) rfl
    plain_distinct plain_printed (.start rfl) hinsert .refl hfree).2 stored hstored hid).mpr
      plain_plain

/-- A float printed as `1e+16` is read as an integer, and the row does not verify. -/
theorem large_row_fails :
    ∃ τ r, sampleColumns.insertWithChainLock PostgresAudit.empty ⟨100⟩
        ((PostgresStore.sampleLog largeMetadata).buildRecord rowKeys ⟨2⟩) = (τ, some r) ∧
      (Json.obj largeMetadata).DistinctKeys ∧
      (Json.obj largeMetadata).FloatsAll PyFloat.Printed ∧
      ∃ stored ∈ getSessionEvents τ.rows ⟨100⟩, stored.eventId = r.eventId ∧
        verifyEvent rowKeys.hmac stored rowKeys.secret ≠ .ok true := by
  have hne : (eventPayload (sampleContent ⟨2⟩ largeReread none)).canonical ≠
      (eventPayload (sampleContent ⟨2⟩ largeMetadata none)).canonical := by
    intro heq
    have hmetadata := (eventPayload_inj heq).metadata
    simp [sampleContent, largeReread, largeMetadata, Json.sortKeys, Json.sortFields] at hmetadata
  have hsigned : computeEventHmac rowKeys.hmac sampleSecret
      (sampleContent ⟨2⟩ largeMetadata none) = digestText largeDigest := by
    rw [rowKeys, computeEventHmac_ofTable_of_ne (Or.inl (by decide))]
    exact computeEventHmac_ofTable_self _ _
  have hreread : computeEventHmac rowKeys.hmac sampleSecret
      (sampleContent ⟨2⟩ largeReread none) = digestText rereadDigest := by
    rw [rowKeys, computeEventHmac_ofTable_of_ne (Or.inl (by decide)),
      computeEventHmac_ofTable_of_message_ne (fun heq => hne (congrArg Prod.snd heq))]
    exact computeEventHmac_ofTable_self _ _
  refine ⟨_, _, sample_insert ⟨2⟩ largeMetadata largeDigest hsigned,
    ⟨by decide, trivial, trivial⟩, large_printed, _, List.mem_singleton_self _, rfl, ?_⟩
  rw [Ne, verifyEvent_eq_ok_true_iff]
  change digestText largeDigest ≠ computeEventHmac rowKeys.hmac sampleSecret
    (sampleContent ⟨2⟩ largeReread none)
  rw [hreread]
  exact fun h => absurd (digestText_injective h) (by decide)

end ColumnTypes

end AgenticGovernance.Audit

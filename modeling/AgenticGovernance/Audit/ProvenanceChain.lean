import AgenticGovernance.Audit.Backend
import AgenticGovernance.Audit.JsonlStore
import AgenticGovernance.Support.PointerWalk

/-!
# Provenance chains

`get_chain` follows `parent_event_id` from an event to its root.  The three stores have the
same loop over different lookups: the dictionary of the in-memory store, a dictionary of all
events in the file of the JSONL store, and one query for each step in the Postgres store.

Here are the lookups of stores that the module has written.  `StoreContents` takes any content
of the three.
-/

namespace AgenticGovernance.Audit

open Support

/-- The loop of `get_chain` over a lookup of events. -/
def provenance (getEvent : Uuid → Option AuditEventRecord) (stored : Finset Uuid)
    (hstored : ∀ id, (getEvent id).isSome → id ∈ stored)
    (hident : ∀ id r, getEvent id = some r → r.eventId = id) :
    PointerTable Uuid AuditEventRecord where
  get := getEvent
  ident r := r.eventId
  parent r := r.parentEventId
  keys := stored
  mem_keys := hstored
  ident_of_get := hident

/-- `chain` is a root-first path to `eventId` in a store that holds certain events. -/
abbrev IsChainOf (Held : AuditEventRecord → Prop) (eventId : Uuid)
    (chain : List AuditEventRecord) : Prop :=
  IsPathTo (fun r => r.eventId) (fun r => r.parentEventId) Held eventId chain

/-! ## The in-memory store -/

namespace MemoryAudit

/-- Every stored event is under its own id, and its id is in the deque. -/
structure Filed (σ : MemoryAudit) : Prop where
  mem_order : ∀ id, (σ.events id).isSome → id ∈ σ.order
  eventId_eq : ∀ id r, σ.events id = some r → r.eventId = id

namespace Filed

variable {σ σ' : MemoryAudit} {oldest : Uuid} {rest : List Uuid}

theorem empty (maxEvents : ℕ) (onFull : OnFull) : Filed (.empty maxEvents onFull) where
  mem_order := by simp [MemoryAudit.empty]
  eventId_eq := by simp [MemoryAudit.empty]

theorem evictOldest (h : σ.Filed) (horder : σ.order = oldest :: rest) :
    (σ.evictOldest oldest rest).Filed := by
  have hevents : (σ.evictOldest oldest rest).events = Function.update σ.events oldest none :=
    rfl
  refine ⟨?_, ?_⟩
  · intro id hsome
    rw [hevents] at hsome
    by_cases hid : id = oldest
    · subst hid
      simp at hsome
    · rw [Function.update_of_ne hid] at hsome
      have hmem := h.mem_order id hsome
      rw [horder] at hmem
      exact (List.mem_cons.mp hmem).resolve_left hid
  · intro id r hr
    rw [hevents] at hr
    by_cases hid : id = oldest
    · subst hid
      simp at hr
    · rw [Function.update_of_ne hid] at hr
      exact h.eventId_eq id r hr

theorem evictAll (h : σ.Filed) {order : List Uuid} (horder : σ.order = order) :
    (evictAll order σ).Filed := by
  induction order generalizing σ with
  | nil => exact h
  | cons oldest rest ih => exact ih (h.evictOldest horder) rfl

theorem evictLoop (h : σ.Filed) {order : List Uuid} (horder : σ.order = order)
    (hloop : evictLoop order σ = some σ') : σ'.Filed := by
  induction order generalizing σ with
  | nil =>
      rw [MemoryAudit.evictLoop] at hloop
      split at hloop
      · simp at hloop
      · rw [← Option.some.inj hloop]
        exact h
  | cons oldest rest ih =>
      rw [MemoryAudit.evictLoop] at hloop
      split at hloop
      · exact ih (h.evictOldest horder) rfl hloop
      · rw [← Option.some.inj hloop]
        exact h

theorem enforceCapBeforeAppend (h : σ.Filed) (hcap : σ.enforceCapBeforeAppend = some σ') :
    σ'.Filed := by
  rw [MemoryAudit.enforceCapBeforeAppend] at hcap
  split at hcap
  · rw [← Option.some.inj hcap]
    exact h
  · split at hcap
    · simp at hcap
    · exact h.evictLoop rfl hcap

theorem refused (h : σ.Filed) : σ.refused.Filed := by
  rw [MemoryAudit.refused]
  split
  · exact h
  · exact h.evictAll rfl

theorem append (h : σ.Filed) (sid : Uuid) (r : AuditEventRecord) : (σ.append sid r).Filed := by
  have hevents : (σ.append sid r).events = Function.update σ.events r.eventId (some r) := rfl
  refine ⟨?_, ?_⟩
  · intro id hsome
    apply List.mem_append.mpr
    by_cases hid : id = r.eventId
    · exact Or.inr (List.mem_singleton.mpr hid)
    · rw [hevents, Function.update_of_ne hid] at hsome
      exact Or.inl (h.mem_order id hsome)
  · intro id x hx
    rw [hevents] at hx
    by_cases hid : id = r.eventId
    · subst hid
      rw [Function.update_self] at hx
      rw [Option.some.inj hx]
    · rw [Function.update_of_ne hid] at hx
      exact h.eventId_eq id x hx

theorem insertWithChainLock (h : σ.Filed) (sid : Uuid) (build : Build) :
    (σ.insertWithChainLock sid build).1.Filed := by
  rw [MemoryAudit.insertWithChainLock]
  split
  · exact h
  · split
    · exact h.refused
    · rename_i hcap
      exact (h.enforceCapBeforeAppend hcap).append sid _

theorem writeBatch (h : σ.Filed) (records : List AuditEventRecord) :
    (σ.writeBatch records).1.Filed := by
  induction records generalizing σ with
  | nil => exact h
  | cons r records ih =>
      rw [MemoryAudit.writeBatch]
      split
      · exact ih h
      · split
        · exact h.refused
        · rename_i hcap
          exact ih ((h.enforceCapBeforeAppend hcap).append r.sessionId r)

end Filed

end MemoryAudit

/-- A content of the in-memory store. -/
abbrev MemoryEvents := { σ : MemoryAudit // σ.Filed }

namespace MemoryEvents

def Holds (m : MemoryEvents) (r : AuditEventRecord) : Prop := m.val.events r.eventId = some r

def getEvent (m : MemoryEvents) (eventId : Uuid) : Option AuditEventRecord :=
  m.val.events eventId

def table (m : MemoryEvents) : PointerTable Uuid AuditEventRecord :=
  provenance m.getEvent m.val.order.toFinset
    (fun id hsome => List.mem_toFinset.mpr (m.property.mem_order id hsome))
    m.property.eventId_eq

def getChain (m : MemoryEvents) (eventId : Uuid) : List AuditEventRecord :=
  m.table.chainTo eventId

theorem getChain_isChainOf (m : MemoryEvents) (eventId : Uuid) :
    IsChainOf m.Holds eventId (m.getChain eventId) :=
  m.table.chainTo_isPathTo eventId

end MemoryEvents

/-! ## The Postgres store -/

namespace PostgresAudit

/-- `event_id` is the primary key of `governance_audit_events`. -/
def PrimaryKey (τ : PostgresAudit) : Prop :=
  (τ.rows.map fun row => row.record.eventId).Nodup

theorem primaryKey_empty : PrimaryKey .empty := List.nodup_nil

namespace PrimaryKey

variable {τ : PostgresAudit}

theorem insertRow (h : τ.PrimaryKey) (r : AuditEventRecord) : (τ.insertRow r).1.PrimaryKey := by
  rw [PostgresAudit.insertRow]
  split
  · exact h
  · rename_i hnew
    rw [PrimaryKey, List.map_append]
    apply List.Nodup.append h (List.nodup_singleton _)
    simpa using hnew

theorem insertWithChainLock (h : τ.PrimaryKey) (sid : Uuid) (build : Build) :
    (τ.insertWithChainLock sid build).1.PrimaryKey := by
  rw [PostgresAudit.insertWithChainLock]
  split
  · exact h
  · rename_i r _
    have hrow := h.insertRow r
    split <;> rename_i hinsert <;> rwa [hinsert] at hrow

theorem insertRows (h : τ.PrimaryKey) (records : List AuditEventRecord) :
    (τ.insertRows records).1.PrimaryKey := by
  induction records generalizing τ with
  | nil => exact h
  | cons r records ih =>
      have hrow := h.insertRow r
      rw [PostgresAudit.insertRows]
      split <;> rename_i hinsert <;> rw [hinsert] at hrow
      · exact ih hrow
      · exact hrow

theorem writeBatch (h : τ.PrimaryKey) (records : List AuditEventRecord) :
    (τ.writeBatch records).1.PrimaryKey := by
  have hrows := h.insertRows records
  rw [PostgresAudit.writeBatch]
  split <;> rename_i hinsert <;> rw [hinsert] at hrows
  · exact hrows
  · exact h

end PrimaryKey

end PostgresAudit

/-- A content of the Postgres table. -/
abbrev PostgresEvents := { τ : PostgresAudit // τ.PrimaryKey }

namespace PostgresEvents

def Holds (p : PostgresEvents) (r : AuditEventRecord) : Prop :=
  ∃ row ∈ p.val.rows, row.record = r

/-- `SELECT … WHERE event_id = :event_id`, and the first row of the answer. -/
def getEvent (p : PostgresEvents) (eventId : Uuid) : Option AuditEventRecord :=
  (p.val.rows.find? fun row => row.record.eventId = eventId).map fun row => row.record

theorem getEvent_eq_some_iff (p : PostgresEvents) {eventId : Uuid} {r : AuditEventRecord} :
    p.getEvent eventId = some r ↔ p.Holds r ∧ r.eventId = eventId := by
  rw [getEvent, Option.map_eq_some_iff]
  constructor
  · intro hfound
    obtain ⟨row, hrow, hrecord⟩ := hfound
    subst hrecord
    refine ⟨⟨row, List.mem_of_find?_eq_some hrow, rfl⟩, ?_⟩
    simpa using List.find?_some hrow
  · intro hheld
    obtain ⟨⟨row, hrow, hrecord⟩, hid⟩ := hheld
    subst hrecord
    rcases hfind : p.val.rows.find? fun row => row.record.eventId = eventId with _ | row'
    · have habsent := List.find?_eq_none.mp hfind row hrow
      simp [hid] at habsent
    · have hid' : row'.record.eventId = eventId := by simpa using List.find?_some hfind
      have hsame := List.inj_on_of_nodup_map p.property hrow
        (List.mem_of_find?_eq_some hfind) (hid.trans hid'.symm)
      refine ⟨row', hfind, ?_⟩
      rw [hsame]

def table (p : PostgresEvents) : PointerTable Uuid AuditEventRecord :=
  provenance p.getEvent (p.val.rows.map fun row => row.record.eventId).toFinset
    (by
      intro id hsome
      obtain ⟨r, hr⟩ := Option.isSome_iff_exists.mp hsome
      obtain ⟨⟨row, hrow, hrecord⟩, hid⟩ := p.getEvent_eq_some_iff.mp hr
      rw [List.mem_toFinset, ← hid, ← hrecord]
      exact List.mem_map_of_mem (f := fun row => row.record.eventId) hrow)
    (fun _ _ hr => (p.getEvent_eq_some_iff.mp hr).2)

end PostgresEvents

/-! ## The JSONL store -/

/-- `{e.event_id: e for e in records}` -/
def eventsById (records : List AuditEventRecord) : Uuid → Option AuditEventRecord :=
  records.foldl (fun d e => Function.update d e.eventId (some e)) fun _ => none

theorem eventsById_concat (records : List AuditEventRecord) (r : AuditEventRecord) :
    eventsById (records ++ [r]) =
      Function.update (eventsById records) r.eventId (some r) := by
  rw [eventsById, List.foldl_append]
  rfl

theorem mem_of_eventsById {records : List AuditEventRecord} {id : Uuid} {r : AuditEventRecord}
    (h : eventsById records id = some r) : r ∈ records ∧ r.eventId = id := by
  induction records using List.reverseRecOn with
  | nil => simp [eventsById] at h
  | append_singleton records last ih =>
      rw [eventsById_concat] at h
      by_cases hid : id = last.eventId
      · subst hid
        rw [Function.update_self] at h
        rw [← Option.some.inj h]
        exact ⟨by simp, rfl⟩
      · rw [Function.update_of_ne hid] at h
        obtain ⟨hmem, hr⟩ := ih h
        exact ⟨List.mem_append_left _ hmem, hr⟩

theorem isSome_eventsById {records : List AuditEventRecord} {r : AuditEventRecord}
    (h : r ∈ records) : (eventsById records r.eventId).isSome := by
  induction records using List.reverseRecOn with
  | nil => simp at h
  | append_singleton records last ih =>
      rw [eventsById_concat]
      by_cases hid : r.eventId = last.eventId
      · rw [hid, Function.update_self]
        rfl
      · rw [Function.update_of_ne hid]
        rcases List.mem_append.mp h with hmem | hlast
        · exact ih hmem
        · rw [List.mem_singleton.mp hlast] at hid
          exact absurd rfl hid

/-- The lookup in the dictionary of the records. -/
def eventsTable (records : List AuditEventRecord) : PointerTable Uuid AuditEventRecord :=
  provenance (eventsById records) (records.map fun r => r.eventId).toFinset
    (by
      intro id hsome
      obtain ⟨r, hr⟩ := Option.isSome_iff_exists.mp hsome
      obtain ⟨hmem, hid⟩ := mem_of_eventsById hr
      rw [List.mem_toFinset, ← hid]
      exact List.mem_map_of_mem hmem)
    (fun _ _ hr => (mem_of_eventsById hr).2)

theorem eventsTable_isChainOf (records : List AuditEventRecord) (eventId : Uuid) :
    IsChainOf (fun r => r ∈ records) eventId ((eventsTable records).chainTo eventId) := by
  refine ((eventsTable records).chainTo_isPathTo eventId).mono ?_ ?_
  · intro r hr
    exact (mem_of_eventsById hr).1
  · intro r hr
    obtain ⟨e, he⟩ := Option.isSome_iff_exists.mp (isSome_eventsById hr)
    have hid := (mem_of_eventsById he).2
    refine ⟨e, ?_, hid⟩
    change eventsById records e.eventId = some e
    rw [hid]
    exact he

namespace JsonlStore

/-- `_read_all`; a line that cannot be decoded is skipped. -/
def readAll (R : StampReader) (st : JsonlStore) : List AuditEventRecord :=
  st.lines.filterMap (deserialize R)

def table (R : StampReader) (st : JsonlStore) : PointerTable Uuid AuditEventRecord :=
  eventsTable (st.readAll R)

end JsonlStore

end AgenticGovernance.Audit

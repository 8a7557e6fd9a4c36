import AgenticGovernance.Audit.ProvenanceChain
import AgenticGovernance.Cli.Verify

/-!
# Provenance chains of any store content

A store may hold what no run of the module wrote: a file with lines that do not decode or
cannot be read at all, a table with rows that are no record, parents that are missing or form
a cycle.  `get_chain` of the JSONL store reads the whole file into a dictionary first, and a
line that `_read_all` cannot get past raises there; the Postgres store builds a record of each
row that it meets, and raises where the row cannot be decoded or is no record.

A JSONL store also has a buffer of events that it could not write to its file.  The lookup
of `get_chain` does not know it.  `getChain_path_iff` says for which contents every call
returns a path.
-/

namespace AgenticGovernance.Audit

open Cli Support

/-! ## The JSONL store -/

/-- A line of the file, as `_read_all` finds it. -/
inductive FileLine where
  | data (json : Json)
  /-- A blank line, or a `JSONDecodeError`. -/
  | skipped
  /-- Bytes that are not UTF-8, an integer of too many digits, or nesting that is too deep:
  what these raise is not caught. -/
  | unreadable

/-- The record that a line stands for. -/
def FileLine.record (R : StampReader) : FileLine → Option AuditEventRecord
  | data json => deserialize R json
  | skipped => none
  | unreadable => none

/-- What a JSONL store has on disk and in memory.  A file that does not open raises. -/
structure JsonlContent where
  file : Option (List FileLine)
  opens : Bool
  memoryBuffer : List AuditEventRecord

namespace JsonlContent

/-- The loop of `_read_all`; `none` is an exception. -/
def readLines (R : StampReader) : List FileLine → Option (List AuditEventRecord)
  | [] => some []
  | .unreadable :: _ => none
  | .skipped :: lines => readLines R lines
  | .data json :: lines =>
      match deserialize R json with
      | none => readLines R lines
      | some r => (readLines R lines).map (r :: ·)

def readAll (R : StampReader) (c : JsonlContent) : Option (List AuditEventRecord) :=
  match c.file with
  | none => some []
  | some lines => if c.opens then readLines R lines else none

def getChain (R : StampReader) (c : JsonlContent) (eventId : Uuid) :
    Option (List AuditEventRecord) :=
  (c.readAll R).map fun records => (eventsTable records).chainTo eventId

/-- The file opens, and nothing in it keeps `_read_all` from getting to its end. -/
def Readable (c : JsonlContent) : Prop :=
  ∀ lines ∈ c.file, c.opens = true ∧ FileLine.unreadable ∉ lines

/-- The records that the lines of the file stand for. -/
def fileRecords (R : StampReader) (c : JsonlContent) : List AuditEventRecord :=
  (c.file.getD []).filterMap (FileLine.record R)

/-- The store has the events of its file and those of its buffer. -/
def Stores (R : StampReader) (c : JsonlContent) (r : AuditEventRecord) : Prop :=
  r ∈ c.fileRecords R ∨ r ∈ c.memoryBuffer

/-- The content of a store that the module has written. -/
def ofStore (st : JsonlStore) : JsonlContent where
  file := st.file.map fun lines => lines.map .data
  opens := true
  memoryBuffer := st.memoryBuffer

variable {R : StampReader} {c : JsonlContent}

/-- What the module has written is read as `JsonlStore.readAll` says. -/
theorem readAll_ofStore (st : JsonlStore) : (ofStore st).readAll R = some (st.readAll R) := by
  have hlines : ∀ lines : List Json,
      readLines R (lines.map .data) = some (lines.filterMap (deserialize R)) := by
    intro lines
    induction lines with
    | nil => rfl
    | cons json lines ih =>
        rw [List.map_cons, readLines, ih]
        split <;> rename_i hline <;> simp [hline]
  rw [readAll, ofStore, JsonlStore.readAll, JsonlStore.lines]
  rcases st.file with _ | lines
  · rfl
  · exact hlines lines

theorem readLines_eq_some {lines : List FileLine} (h : FileLine.unreadable ∉ lines) :
    readLines R lines = some (lines.filterMap (FileLine.record R)) := by
  induction lines with
  | nil => rfl
  | cons line lines ih =>
      rw [List.mem_cons, not_or] at h
      cases line with
      | unreadable => exact absurd rfl h.1
      | skipped => exact ih h.2
      | data json =>
          rw [readLines, ih h.2]
          split <;> rename_i hline <;> simp [FileLine.record, hline]

theorem readLines_eq_none {lines : List FileLine} (h : FileLine.unreadable ∈ lines) :
    readLines R lines = none := by
  induction lines with
  | nil => simp at h
  | cons line lines ih =>
      cases line with
      | unreadable => rfl
      | skipped => exact ih (by simpa using h)
      | data json =>
          rw [readLines, ih (by simpa using h)]
          split <;> rfl

theorem readAll_of_readable (h : c.Readable) : c.readAll R = some (c.fileRecords R) := by
  rw [readAll, fileRecords]
  split
  · rename_i hfile
    simp [hfile]
  · rename_i lines hfile
    obtain ⟨hopens, hlines⟩ := h lines hfile
    rw [if_pos hopens, readLines_eq_some hlines, hfile]
    rfl

theorem readAll_of_not_readable (h : ¬c.Readable) : c.readAll R = none := by
  rw [Readable] at h
  push Not at h
  obtain ⟨lines, hfile, hlines⟩ := h
  rw [readAll, show c.file = some lines from hfile]
  by_cases hopens : c.opens = true
  · exact (if_pos hopens).trans (readLines_eq_none (hlines hopens))
  · exact if_neg hopens

/-- Every chain is returned, and is a path among the stored events. -/
def ChainsReturn (R : StampReader) (c : JsonlContent) : Prop :=
  ∀ eventId, ∃ chain, c.getChain R eventId = some chain ∧
    IsChainOf (c.Stores R) eventId chain

/-- With the buffer the chains are paths as long as every buffered id is in the file. -/
theorem chainsReturn_iff :
    c.ChainsReturn R ↔
      c.Readable ∧ ∀ r ∈ c.memoryBuffer, ∃ e ∈ c.fileRecords R, e.eventId = r.eventId := by
  by_cases hreadable : c.Readable
  · have hread : c.readAll R = some (c.fileRecords R) := readAll_of_readable hreadable
    have hchain : ∀ eventId, c.getChain R eventId =
        some ((eventsTable (c.fileRecords R)).chainTo eventId) := by
      intro eventId
      rw [getChain, hread]
      rfl
    simp only [ChainsReturn, hchain, Option.some.injEq, exists_eq_left', hreadable, true_and]
    constructor
    · intro hpaths r hr
      by_contra habsent
      have hfile : (eventsTable (c.fileRecords R)).chainTo r.eventId = [] := by
        rw [(eventsTable_isChainOf _ r.eventId).nil_iff]
        intro e he hid
        exact habsent ⟨e, he, hid⟩
      exact (hpaths r.eventId).nil_iff.mp hfile r (Or.inr hr) rfl
    · intro hbuffered eventId
      refine (eventsTable_isChainOf _ eventId).mono ?_ ?_
      · intro r hr
        exact Or.inl hr
      · intro r hr
        rcases hr with hr | hr
        · exact ⟨r, hr, rfl⟩
        · exact hbuffered r hr
  · simp only [hreadable, false_and, iff_false]
    intro hall
    obtain ⟨chain, hchain, -⟩ := hall ⟨0⟩
    rw [getChain, readAll_of_not_readable hreadable] at hchain
    cases hchain

end JsonlContent

/-! ## The Postgres store -/

/-- A row of the table.  A JSONB value may have an integer of too many digits for Python, or
nesting that is too deep: decoding it raises. -/
structure ContentRow extends StoredRow where
  decodes : Bool

namespace ContentRow

variable {row : ContentRow} {r : AuditEventRecord}

/-- The record of a row as it is fetched; `none` is an exception. -/
def toRecord (row : ContentRow) : Option AuditEventRecord :=
  if row.decodes then row.toStoredRow.toRecord else none

/-- The columns can be decoded and fit a record. -/
structure Readable (row : ContentRow) : Prop where
  decodes : row.decodes = true
  fits : row.Fits
  signature : row.SignatureReadable

theorem toRecord_isSome_iff : row.toRecord.isSome ↔ row.Readable := by
  rw [toRecord]
  split
  · rename_i hdecodes
    rw [StoredRow.toRecord_isSome_iff]
    exact ⟨fun h => ⟨hdecodes, h.1, h.2⟩, fun h => ⟨h.fits, h.signature⟩⟩
  · rename_i hdecodes
    exact iff_of_false (by simp) fun h => hdecodes h.decodes

theorem parentEventId_of_toRecord (h : row.toRecord = some r) :
    r.parentEventId = row.parentEventId := by
  rw [toRecord] at h
  split at h
  · obtain ⟨metadata, -, status, -, hfields⟩ := StoredRow.toRecord_eq_some_iff.mp h
    exact congrArg (fun f : RecordFields => f.parentEventId) hfields
  · cases h

end ContentRow

/-- The rows of `governance_audit_events`, of which `event_id` is the primary key. -/
abbrev PostgresTable := { rows : List ContentRow // (rows.map fun row => row.eventId).Nodup }

namespace PostgresTable

variable {p : PostgresTable}

/-- `SELECT … WHERE event_id = :event_id`, and the first row of the answer. -/
def getRow (p : PostgresTable) (eventId : Uuid) : Option ContentRow :=
  p.val.find? fun row => row.eventId = eventId

theorem getRow_eq_some_iff {eventId : Uuid} {row : ContentRow} :
    p.getRow eventId = some row ↔ row ∈ p.val ∧ row.eventId = eventId := by
  rw [getRow]
  constructor
  · intro hfound
    exact ⟨List.mem_of_find?_eq_some hfound, by simpa using List.find?_some hfound⟩
  · rintro ⟨hrow, hid⟩
    rcases hfind : p.val.find? fun row => row.eventId = eventId with _ | row'
    · have habsent := List.find?_eq_none.mp hfind row hrow
      simp [hid] at habsent
    · have hid' : row'.eventId = eventId := by simpa using List.find?_some hfind
      have hsame : row' = row := List.inj_on_of_nodup_map p.property
        (List.mem_of_find?_eq_some hfind) hrow (hid'.trans hid.symm)
      rw [hfind, hsame]

def table (p : PostgresTable) : PointerTable Uuid ContentRow where
  get := p.getRow
  ident row := row.eventId
  parent row := row.parentEventId
  keys := (p.val.map fun row => row.eventId).toFinset
  mem_keys := by
    intro id hsome
    obtain ⟨row, hrow⟩ := Option.isSome_iff_exists.mp hsome
    obtain ⟨hmem, hid⟩ := getRow_eq_some_iff.mp hrow
    rw [List.mem_toFinset, ← hid]
    exact List.mem_map_of_mem hmem
  ident_of_get := fun _ _ hrow => (getRow_eq_some_iff.mp hrow).2

/-- `get_chain`; `none` is the exception of a row that is no record. -/
def getChain (p : PostgresTable) (eventId : Uuid) : Option (List AuditEventRecord) :=
  (p.table.walkDecoding ContentRow.toRecord (fun r => r.parentEventId) [] ∅
    (some eventId)).map List.reverse

/-- The records of a path of rows to `eventId`. -/
def IsChain (p : PostgresTable) (eventId : Uuid) (chain : List AuditEventRecord) : Prop :=
  ∃ path : List ContentRow, path.map ContentRow.toRecord = chain.map some ∧
    IsPathTo (fun row : ContentRow => row.eventId) (fun row => row.parentEventId)
      (fun row => row ∈ p.val) eventId path

def ChainsReturn (p : PostgresTable) : Prop :=
  ∀ eventId, ∃ chain, p.getChain eventId = some chain ∧ p.IsChain eventId chain

theorem chainTo_isPathTo (eventId : Uuid) :
    IsPathTo (fun row : ContentRow => row.eventId) (fun row => row.parentEventId)
      (fun row => row ∈ p.val) eventId (p.table.chainTo eventId) := by
  refine (p.table.chainTo_isPathTo eventId).mono ?_ ?_
  · intro row hrow
    exact (getRow_eq_some_iff.mp hrow).1
  · intro row hrow
    exact ⟨row, getRow_eq_some_iff.mpr ⟨hrow, rfl⟩, rfl⟩

/-- Every chain is returned exactly when the columns of every row can be decoded and fit a
record. -/
theorem chainsReturn_iff : p.ChainsReturn ↔ ∀ row ∈ p.val, row.Readable := by
  simp only [← ContentRow.toRecord_isSome_iff]
  constructor
  · intro hall row hrow
    obtain ⟨chain, -, path, hdecoded, hpath⟩ := hall row.eventId
    have hne : path ≠ [] := by
      intro hnil
      exact hpath.nil_iff.mp hnil row hrow rfl
    have hlast : path.getLast hne = row := by
      have hid : (path.getLast hne).eventId = row.eventId :=
        hpath.ends _ (List.getLast?_eq_getLast_of_ne_nil hne)
      exact List.inj_on_of_nodup_map p.property
        (hpath.held _ (List.getLast_mem hne)) hrow hid
    have hmem : row.toRecord ∈ chain.map some := by
      rw [← hdecoded, ← hlast]
      exact List.mem_map_of_mem (List.getLast_mem hne)
    obtain ⟨r, -, hr⟩ := List.mem_map.mp hmem
    rw [← hr]
    rfl
  · intro hall eventId
    have hpath := p.chainTo_isPathTo eventId
    have hparent : ∀ (row : ContentRow) (r : AuditEventRecord), row.toRecord = some r →
        r.parentEventId = row.parentEventId :=
      fun _ _ h => ContentRow.parentEventId_of_toRecord h
    have hstart : ([] : List ContentRow).map ContentRow.toRecord =
        ([] : List AuditEventRecord).map some := rfl
    rcases p.table.walkDecoding_spec hparent hstart with
      ⟨out, hout, hdecoded⟩ | ⟨-, row, hrow, hfails⟩
    · refine ⟨out.reverse, by rw [getChain, hout]; rfl, p.table.chainTo eventId, ?_, hpath⟩
      rw [PointerTable.chainTo, List.map_reverse, hdecoded, List.map_reverse]
    · have hstored := hall row (hpath.held row (List.mem_reverse.mpr hrow))
      rw [hfails] at hstored
      cases hstored

end PostgresTable

/-! ## The three stores -/

/-- In all three stores every `get_chain` returns a path to the event it was asked for,
exactly when the file of the JSONL store can be read to its end, every event that it has
buffered has its id in the file, and the columns of every row of the table can be decoded and
fit a record. -/
theorem getChain_path_iff (R : StampReader) (m : MemoryEvents) (c : JsonlContent)
    (p : PostgresTable) :
    ((∀ eventId, IsChainOf m.Holds eventId (m.getChain eventId)) ∧ c.ChainsReturn R ∧
      p.ChainsReturn) ↔
    (c.Readable ∧ ∀ r ∈ c.memoryBuffer, ∃ e ∈ c.fileRecords R, e.eventId = r.eventId) ∧
      ∀ row ∈ p.val, row.Readable := by
  rw [JsonlContent.chainsReturn_iff, PostgresTable.chainsReturn_iff]
  exact and_iff_right m.getChain_isChainOf

/-! ## A buffered event -/

/-- A store on a read-only file system that was given one event. -/
def readOnlyStore : JsonlStore :=
  (JsonlStore.empty 1000 false).append ⟨true, none, true, true, true, true⟩ modelRecord

/-- The event is stored, and its chain is empty. -/
theorem buffered_event_without_chain :
    readOnlyStore.memoryBuffer = [modelRecord] ∧ ∀ R : StampReader,
      (JsonlContent.ofStore readOnlyStore).getChain R modelRecord.eventId = some [] ∧
      ¬(JsonlContent.ofStore readOnlyStore).ChainsReturn R := by
  have hbuffer : readOnlyStore.memoryBuffer = [modelRecord] := rfl
  refine ⟨hbuffer, ?_⟩
  intro R
  have hfile : readOnlyStore.readAll R = [] := rfl
  have hchain : (eventsTable []).chainTo modelRecord.eventId = [] := by
    rw [(eventsTable_isChainOf [] _).nil_iff]
    simp
  refine ⟨?_, ?_⟩
  · rw [JsonlContent.getChain, JsonlContent.readAll_ofStore, hfile]
    exact congrArg some hchain
  · rw [JsonlContent.chainsReturn_iff]
    rintro ⟨-, hbuffered⟩
    obtain ⟨e, he, -⟩ := hbuffered modelRecord (List.mem_singleton_self modelRecord)
    cases he

end AgenticGovernance.Audit

import Mathlib
import AgenticGovernance.Audit.Columns
import AgenticGovernance.Audit.WholeStore
import AgenticGovernance.Compliance.Article12

/-!
# Reports over either store

A `ReportGenerator` reads the events of `InMemoryAuditStore`, or the rows of Postgres by a
query of its own.  The first filters and sorts in Python, the second in SQL, over metadata
that has been through a JSONB column.

`reports_agree` compares the two after one history of log calls.  Whatever the filters are, the
reports say the same, and only list the sessions in another order when events have one time.
-/

namespace AgenticGovernance.Compliance

open Support Audit

/-! ## The report -/

/-- The filters of a report.  An empty list of sessions and an empty agent id filter nothing. -/
structure ReportFilter where
  sessionIds : List Uuid
  agentId : Option String
  dateFrom : Option Datetime
  dateTo : Option Datetime
  /-- a naive date cannot be compared with the time of an event -/
  aware : ∀ date ∈ dateFrom.toList ++ dateTo.toList, date.utcoffset.isSome

/-- What a report says about the events, without its id, its own time, the chain verification and
the coverage. -/
structure ReportBody where
  format : String
  agentId : Option String
  sessionIds : List Uuid
  dateRange : Option (Datetime × Datetime)
  sections : List ReportSection
  eventCount : ℕ
  timeRangeStart : Option Datetime
  timeRangeEnd : Option Datetime

/-- The ids of the sessions that `UUID` accepts. -/
def listedSessions (reader : StampReader) (data : ReportData) : List Uuid :=
  data.sessions.filterMap fun s => reader.uuid s.sessionId

def ReportFilter.dateRange (f : ReportFilter) : Option (Datetime × Datetime) := do
  return (← f.dateFrom, ← f.dateTo)

/-- `generate_article12` of the extracted data -/
def generateArticle12 (reader : StampReader) (f : ReportFilter) (data : ReportData) :
    ReportBody where
  format := "article12"
  agentId := f.agentId
  sessionIds := if f.sessionIds = [] then listedSessions reader data else f.sessionIds
  dateRange := f.dateRange
  sections := buildArticle12Sections data
  eventCount := data.totalEvents
  timeRangeStart := data.dateStart.bind reader.fromisoformat
  timeRangeEnd := data.dateEnd.bind reader.fromisoformat

/-- `generate_summary` of the extracted data -/
def generateSummary (reader : StampReader) (agentId : String) (f : ReportFilter)
    (data : ReportData) : ReportBody where
  format := "summary"
  agentId := some agentId
  sessionIds := listedSessions reader data
  dateRange := f.dateRange
  sections := summarySections agentId data
  eventCount := data.totalEvents
  timeRangeStart := data.dateStart.bind reader.fromisoformat
  timeRangeEnd := data.dateEnd.bind reader.fromisoformat

/-! ## Reports that agree -/

/-- The same value, or a list of the same items in another order. -/
def SameItems (v w : PyValue) : Prop :=
  v = w ∨ ∃ items items' : List PyValue, items'.Perm items ∧ v = .list items ∧ w = .list items'

structure ReportSection.Agree (s t : ReportSection) : Prop where
  title : t.title = s.title
  description : t.description = s.description
  status : t.status = s.status
  data : List.Forall₂ (fun e e' => e.1 = e'.1 ∧ SameItems e.2 e'.2) s.data t.data

/-- The reports differ at most in the order of the sessions. -/
structure ReportBody.Agree (r r' : ReportBody) : Prop where
  rest : r' = { r with sections := r'.sections, sessionIds := r'.sessionIds }
  sessionIds : r'.sessionIds.Perm r.sessionIds
  sections : List.Forall₂ ReportSection.Agree r.sections r'.sections

theorem ReportSection.Agree.refl (s : ReportSection) : s.Agree s where
  title := rfl
  description := rfl
  status := rfl
  data := List.forall₂_same.mpr fun _ _ => ⟨rfl, Or.inl rfl⟩

theorem sectionDurationOfUse_agree {sessions sessions' : List SessionSpan}
    (h : sessions'.Perm sessions) :
    (sectionDurationOfUse sessions).Agree (sectionDurationOfUse sessions') where
  title := rfl
  description := rfl
  status := by rw [sectionDurationOfUse, sectionDurationOfUse, h.length_eq]
  data := by
    rw [sectionDurationOfUse, sectionDurationOfUse, h.length_eq]
    refine .cons ⟨rfl, Or.inl rfl⟩ (.cons ⟨rfl, Or.inr ?_⟩ .nil)
    exact ⟨_, _, h.map _, rfl, rfl⟩

section Agree

variable {reader : StampReader} {f : ReportFilter} {d d' : ReportData}

theorem listedSessions_perm (h : d.Agree d') :
    (listedSessions reader d').Perm (listedSessions reader d) :=
  h.sessions.filterMap _

theorem generateArticle12_agree (h : d.Agree d') :
    (generateArticle12 reader f d).Agree (generateArticle12 reader f d') where
  rest := by
    rw [h.unordered]
    rfl
  sessionIds := by
    simp only [generateArticle12]
    split
    · exact listedSessions_perm h
    · exact List.Perm.refl _
  sections := by
    have hduration := sectionDurationOfUse_agree h.sessions
    simp only [generateArticle12]
    rw [h.unordered]
    exact .cons (.refl _) (.cons hduration (.cons (.refl _) (.cons (.refl _) (.cons (.refl _)
      (.cons (.refl _) (.cons (.refl _) .nil))))))

theorem summarySections_eq (h : d.Agree d') (agentId : String) :
    summarySections agentId d' = summarySections agentId d := by
  have hlength := h.sessions.length_eq
  rw [h.unordered] at hlength ⊢
  rw [summarySections, summarySections]
  simp only [hlength]

theorem generateSummary_agree (h : d.Agree d') (agentId : String) :
    (generateSummary reader agentId f d).Agree (generateSummary reader agentId f d') where
  rest := by
    rw [h.unordered]
    rfl
  sessionIds := listedSessions_perm h
  sections := by
    simp only [generateSummary]
    rw [summarySections_eq h]
    exact List.forall₂_same.mpr fun s _ => .refl s

end Agree

/-! ## The two queries -/

namespace ReportFilter

variable (f : ReportFilter)

/-- The filters on the agent and the time. -/
def keeps (r : AuditEventRecord) : Bool :=
  keepsAgent f.agentId r.agentId &&
    f.dateFrom.all (fun date => date.instant ≤ r.createdAt.instant) &&
    f.dateTo.all fun date => r.createdAt.instant ≤ date.instant

/-- The conditions of the `WHERE` clause. -/
def selects (r : AuditEventRecord) : Bool :=
  (f.sessionIds = [] || r.sessionId ∈ f.sessionIds) && f.keeps r

/-- The events before the filters: those of the sessions, one after the other, or all. -/
def eventsOf (σ : MemoryAudit) : List AuditEventRecord :=
  if f.sessionIds = [] then σ.order.filterMap σ.events
  else f.sessionIds.flatMap σ.getSessionEvents

/-- `_query_events_memory` -/
def queryEventsMemory (σ : MemoryAudit) : List AuditEventRecord :=
  ((f.eventsOf σ).filter f.keeps).insertionSort fun a b => a.createdAt.instant ≤ b.createdAt.instant

/-- The rows that `_query_events_postgres` may return.  `ORDER BY created_at` leaves the order of
rows of one time open. -/
structure QueryEventsPostgres (τ : PostgresAudit) (rows : List AuditEventRecord) : Prop where
  perm : rows.Perm ((τ.rows.map fun row => row.record).filter f.selects)
  ordered : rows.Pairwise fun a b => a.createdAt.instant ≤ b.createdAt.instant

end ReportFilter

/-- The data of a report over these events. -/
def reportData (truth : PyValue → Bool) (str : PyValue → String)
    (records : List AuditEventRecord) : ReportData :=
  extractReportData truth str (records.map fun r => eventToDict (.ofRecord r))

/-! ## One history in two stores -/

/-- A record with a time of `datetime.now(timezone.utc)`, whose tool, if it has one, is a value
that JSONB gives back as it is, as every string, null, boolean and integer. -/
structure Reportable (r : AuditEventRecord) : Prop where
  utc : r.createdAt.IsUtc
  keys : (r.metadata.map Prod.fst).Nodup
  tools : ∀ key ∈ ["tool", "tool_name"], ∀ value, r.metadata.lookup key = some value →
    ∀ order : EntryOrder, value.jsonb order = value

example (n : ℤ) (order : EntryOrder) : (Json.int n).jsonb order = .int n := by
  simp [Json.jsonb, Numeric.ofInt, Numeric.loads]

/-- One call of `log` on both stores, with the id and the time that it draws.  Both stores take
its record, or neither does. -/
inductive MirrorStep (K : ModuleKeys) (C : ColumnTypes) :
    MemoryAudit × PostgresAudit → MemoryAudit × PostgresAudit → Prop
  | log (b : ChainBuilder) (eventId : Uuid) (now : Datetime) (σ σ' : MemoryAudit)
      (τ τ' : PostgresAudit) (result : Option AuditEventRecord)
      (hmemory : σ.insertWithChainLock b.logCall.sessionId (b.build K eventId now) = (σ', result))
      (hpostgres : C.insertWithChainLock τ b.logCall.sessionId (b.build K eventId now) =
        (τ', result))
      (hreportable : ∀ r ∈ result, Reportable r) :
      MirrorStep K C (σ, τ) (σ', τ')

def mirrorSystem (K : ModuleKeys) (C : ColumnTypes) (maxEvents : ℕ) (onFull : OnFull) :
    System (MemoryAudit × PostgresAudit) where
  init s := s = (.empty maxEvents onFull, .empty)
  step := MirrorStep K C

/-- Both stores hold these records, Postgres as its columns return them. -/
structure Mirrors (C : ColumnTypes) (σ : MemoryAudit) (τ : PostgresAudit)
    (records : List AuditEventRecord) : Prop where
  indexed : σ.Indexed
  stored : ∀ id ∈ σ.order, (σ.events id).isSome
  order : σ.order.filterMap σ.events = records
  sessions : ∀ sid, σ.getSessionEvents sid = ofSession sid records
  unused : ∀ id, σ.events id = none ↔ ∀ r ∈ records, r.eventId ≠ id
  rows : (τ.rows.map fun row => row.record) = records.map C.rowToRecord
  reportable : ∀ r ∈ records, Reportable r

section Mirror

variable {K : ModuleKeys} {C : ColumnTypes} {σ σ' : MemoryAudit} {τ τ' : PostgresAudit}
  {records : List AuditEventRecord}

theorem Mirrors.initial (maxEvents : ℕ) (onFull : OnFull) :
    Mirrors C (.empty maxEvents onFull) .empty [] where
  indexed := by
    intro sid id hid
    cases hid
  stored := by simp [MemoryAudit.empty]
  order := rfl
  sessions := fun _ => rfl
  unused := by simp [MemoryAudit.empty]
  rows := rfl
  reportable := by simp

/-- Both stores take a record with a new id. -/
theorem Mirrors.append (h : Mirrors C σ τ records) {r : AuditEventRecord}
    (hnew : ∀ row ∈ τ.rows, row.record.eventId ≠ r.eventId) (hr : Reportable r)
    (hrows : τ'.rows = τ.rows ++ [⟨τ.nextSeq, C.rowToRecord r, none⟩]) :
    Mirrors C (σ.append r.sessionId r) τ' (records ++ [r]) := by
  have hunused : σ.events r.eventId = none := by
    rw [h.unused]
    intro old hold
    have hmem : C.rowToRecord old ∈ τ.rows.map fun row => row.record := by
      rw [h.rows]
      exact List.mem_map_of_mem hold
    obtain ⟨row, hrow, heq⟩ := List.mem_map.mp hmem
    have hid := hnew row hrow
    rw [heq] at hid
    exact hid
  have hext : (MemoryAudit.ops 0 .raise).Extends σ [r] (σ.append r.sessionId r) :=
    MemoryAudit.append_extends h.indexed hunused
  have hself : (σ.append r.sessionId r).events r.eventId = some r := Function.update_self ..
  have hold : ∀ id ∈ σ.order, (σ.append r.sessionId r).events id = σ.events id := by
    intro id hid
    have hne : id ≠ r.eventId := by
      intro heq
      have hstored := h.stored id hid
      rw [heq, hunused] at hstored
      exact absurd hstored (by simp)
    exact Function.update_of_ne hne ..
  constructor
  · exact h.indexed.append r.sessionId r
  · intro id hid
    rcases List.mem_append.mp hid with hid | hid
    · rw [hold id hid]
      exact h.stored id hid
    · rw [List.mem_singleton.mp hid, hself, Option.isSome_some]
  · change (σ.order ++ [r.eventId]).filterMap _ = _
    rw [List.filterMap_append, List.filterMap_congr hold, h.order]
    simp [hself]
  · intro sid
    have hsession := hext.events sid
    rw [ofSession_append, ← h.sessions]
    exact hsession
  · intro id
    have hid := hext.unused id
    rw [List.forall_mem_append, ← h.unused]
    exact hid
  · rw [hrows, List.map_append, h.rows, List.map_append]
    rfl
  · intro old hmem
    rcases List.mem_append.mp hmem with hmem | hmem
    · exact h.reportable old hmem
    · rw [List.mem_singleton.mp hmem]
      exact hr

theorem Mirrors.of_rows_eq (h : Mirrors C σ τ records) (hrows : τ'.rows = τ.rows) :
    Mirrors C σ τ' records :=
  { h with rows := hrows ▸ h.rows }

/-- A step adds one record to both stores, or none. -/
theorem mirrors_step (hstep : MirrorStep K C (σ, τ) (σ', τ'))
    (h : σ.verifyNotTruncated = true → ∃ records, Mirrors C σ τ records)
    (hkept : σ'.verifyNotTruncated = true) : ∃ records, Mirrors C σ' τ' records := by
  obtain ⟨b, eventId, now, _, _, _, _, result, hmemory, hpostgres, hreportable⟩ := hstep
  have hcases := MemoryAudit.insertWithChainLock_cases hmemory
  have hrows := ColumnTypes.insertWithChainLock_cases hpostgres
  rcases hcases with ⟨hnone, hsame⟩ | ⟨r, σ₁, hsome, hbuild, hcap, hσ'⟩
  · have hsame : σ' = σ := by
      rcases hsame with hsame | ⟨-, hrefused⟩
      · exact hsame
      · rw [hrefused] at hkept ⊢
        exact MemoryAudit.refused_eq hkept
    rw [hsame] at hkept ⊢
    obtain ⟨records, hrecords⟩ := h hkept
    rcases hrows with ⟨hrows, -⟩ | ⟨r, -, hsome, -, -⟩
    · exact ⟨records, hrecords.of_rows_eq hrows⟩
    · exact absurd (hnone.symm.trans hsome) (by simp)
  · have hsame : σ₁ = σ :=
      MemoryAudit.eq_of_enforceCapBeforeAppend hcap (by rw [hσ'] at hkept; exact hkept)
    rw [hsame] at hσ'
    obtain ⟨records, hrecords⟩ := h (by rw [hσ'] at hkept; exact hkept)
    have hsession : r.sessionId = b.logCall.sessionId := by
      obtain ⟨prevHash, -, hbuilt⟩ := Option.bind_eq_some_iff.mp hbuild
      exact (ChainBuilder.build_builtOn hbuilt).sessionId
    rw [← hsession] at hσ'
    rcases hrows with ⟨-, hnone⟩ | ⟨r', -, hsome', hnew, hrows⟩
    · exact absurd (hnone.symm.trans hsome) (by simp)
    · have hr' : r' = r := Option.some.inj (hsome'.symm.trans hsome)
      rw [hr'] at hnew hrows
      rw [hσ']
      exact ⟨_, hrecords.append hnew (hreportable r hsome) hrows⟩

theorem mirrors_of_reachable {maxEvents : ℕ} {onFull : OnFull} {s : MemoryAudit × PostgresAudit}
    (hreach : (mirrorSystem K C maxEvents onFull).Reachable s) :
    s.1.verifyNotTruncated = true → ∃ records, Mirrors C s.1 s.2 records := by
  refine System.invariant (I := fun s => s.1.verifyNotTruncated = true →
    ∃ records, Mirrors C s.1 s.2 records) ?_ ?_ hreach
  · intro s hinit _
    rw [hinit]
    exact ⟨[], Mirrors.initial maxEvents onFull⟩
  · intro s t _ hs hstep
    exact mirrors_step hstep hs

end Mirror

/-! ## What the columns keep -/

section Columns

/-- The order of the entries does not matter to a lookup, when the keys are distinct. -/
theorem lookup_eq_of_perm {α : Type*} {l m : List (String × α)} (hperm : l.Perm m)
    (hkeys : (l.map Prod.fst).Nodup) (key : String) : l.lookup key = m.lookup key := by
  induction hperm with
  | nil => rfl
  | cons e _ ih =>
      rw [List.map_cons, List.nodup_cons] at hkeys
      rw [List.lookup_cons, List.lookup_cons, ih hkeys.2]
  | swap e e' l =>
      have hne : e'.1 ≠ e.1 := by
        rw [List.map_cons, List.nodup_cons, List.map_cons, List.mem_cons, not_or] at hkeys
        exact hkeys.1.1
      rw [List.lookup_cons, List.lookup_cons, List.lookup_cons, List.lookup_cons]
      by_cases he : key = e.1
      · have hne' : (key == e'.1) = false := by
          rw [he, beq_eq_false_iff_ne]
          exact hne.symm
        rw [hne']
      · have he' : (key == e.1) = false := beq_eq_false_iff_ne.mpr he
        rw [he']
  | trans hfirst _ ih₁ ih₂ =>
      rw [ih₁ hkeys, ih₂ ((hfirst.map Prod.fst).nodup_iff.mp hkeys)]

variable {C : ColumnTypes} {r : AuditEventRecord}

/-- The value that names the tool is the same after the JSONB column. -/
theorem lookup_rowToRecord (hr : Reportable r) {key : String} (hkey : key ∈ ["tool", "tool_name"]) :
    (C.rowToRecord r).metadata.lookup key = r.metadata.lookup key := by
  have hfields : (Json.jsonbFields C.order r.metadata).lookup key =
      (r.metadata.lookup key).map fun value => value.jsonb C.order := by
    rw [Json.jsonbFields_eq_map]
    exact lookup_map_snd _ key _
  have hkeys : ((C.order.arrange (Json.jsonbFields C.order r.metadata)).map Prod.fst).Nodup := by
    rw [((C.order.perm _).map Prod.fst).nodup_iff, Json.jsonbFields_eq_map, List.map_map]
    exact hr.keys
  change (C.order.arrange (Json.jsonbFields C.order r.metadata)).lookup key = _
  rw [lookup_eq_of_perm (C.order.perm _) hkeys, hfields]
  rcases hvalue : r.metadata.lookup key with _ | value
  · rfl
  · have hkept := hr.tools key hkey value hvalue C.order
    rw [Option.map_some, hkept]

theorem toolName_rowToRecord (truth : PyValue → Bool) (str : PyValue → String)
    (hr : Reportable r) :
    toolName truth str (eventToDict (.ofRecord (C.rowToRecord r))).metadata =
      toolName truth str (eventToDict (.ofRecord r)).metadata := by
  have hlookup : ∀ key ∈ ["tool", "tool_name"],
      (eventToDict (.ofRecord (C.rowToRecord r))).metadata.lookup key =
        (eventToDict (.ofRecord r)).metadata.lookup key := by
    intro key hkey
    change ((C.rowToRecord r).metadata.map _).lookup key = (r.metadata.map _).lookup key
    rw [lookup_map_snd, lookup_map_snd, lookup_rowToRecord hr hkey]
  rw [toolName, toolName, hlookup "tool" (by simp), hlookup "tool_name" (by simp)]

theorem createdAt_rowToRecord (hr : Reportable r) :
    (C.rowToRecord r).createdAt = r.createdAt :=
  C.timestamptz_utc _ hr.utc.utcoffset

/-- The report reads the same from a row as from the record that was inserted. -/
theorem see_rowToRecord (truth : PyValue → Bool) (str : PyValue → String) (x : Extraction)
    (hr : Reportable r) :
    x.see truth str (eventToDict (.ofRecord (C.rowToRecord r))) =
      x.see truth str (eventToDict (.ofRecord r)) := by
  have htool := toolName_rowToRecord (C := C) truth str hr
  have htime : (eventToDict (.ofRecord (C.rowToRecord r))).createdAt =
      (eventToDict (.ofRecord r)).createdAt := createdAt_rowToRecord hr
  simp only [Extraction.see, htool, htime]
  rfl

theorem selects_rowToRecord (f : ReportFilter) (hr : Reportable r) :
    f.selects (C.rowToRecord r) = f.selects r := by
  simp only [ReportFilter.selects, ReportFilter.keeps, createdAt_rowToRecord hr]
  rfl

end Columns

/-! ## The two queries agree -/

section Queries

variable {C : ColumnTypes} {σ : MemoryAudit} {τ : PostgresAudit} {records : List AuditEventRecord}
  {f : ReportFilter}

/-- The events of some sessions, one session after the other. -/
theorem flatMap_ofSession_perm {sids : List Uuid} (hsids : sids.Nodup)
    (records : List AuditEventRecord) :
    (sids.flatMap fun sid => ofSession sid records).Perm
      (records.filter fun r => r.sessionId ∈ sids) := by
  induction sids with
  | nil => simp
  | cons sid sids ih =>
      rw [List.nodup_cons] at hsids
      have hfirst : (records.filter fun r => r.sessionId ∈ sid :: sids).filter
          (fun r => r.sessionId = sid) = ofSession sid records := by
        rw [List.filter_filter, ofSession]
        apply List.filter_congr
        intro r _
        by_cases hr : r.sessionId = sid
        · simp [hr]
        · simp [hr]
      have hrest : (records.filter fun r => r.sessionId ∈ sid :: sids).filter
          (fun r => !decide (r.sessionId = sid)) =
            records.filter fun r => r.sessionId ∈ sids := by
        rw [List.filter_filter]
        apply List.filter_congr
        intro r _
        by_cases hr : r.sessionId = sid
        · simp [hr, hsids.1]
        · simp [hr]
      have hsplit := List.filter_append_perm (fun r => decide (r.sessionId = sid))
        (records.filter fun r => r.sessionId ∈ sid :: sids)
      rw [hfirst, hrest] at hsplit
      rw [List.flatMap_cons]
      exact ((ih hsids.2).append_left _).trans hsplit

theorem queryEventsMemory_perm (h : Mirrors C σ τ records) (hsids : f.sessionIds.Nodup) :
    (f.queryEventsMemory σ).Perm (records.filter f.selects) := by
  have hevents : (f.eventsOf σ).Perm
      (records.filter fun r => f.sessionIds = [] || r.sessionId ∈ f.sessionIds) := by
    rw [ReportFilter.eventsOf]
    by_cases hall : f.sessionIds = []
    · rw [if_pos hall, h.order]
      simp [hall]
    · rw [if_neg hall, funext h.sessions]
      simpa [hall] using flatMap_ofSession_perm hsids records
  have hkept := hevents.filter f.keeps
  rw [List.filter_filter] at hkept
  refine (List.perm_insertionSort _ _).trans (hkept.trans ?_)
  rw [List.filter_congr (q := f.selects)]
  intro r _
  exact Bool.and_comm ..

theorem queryEventsMemory_ordered (σ : MemoryAudit) (f : ReportFilter) :
    (f.queryEventsMemory σ).Pairwise fun a b => a.createdAt.instant ≤ b.createdAt.instant := by
  have htotal : Std.Total fun a b : AuditEventRecord =>
      a.createdAt.instant ≤ b.createdAt.instant := ⟨fun _ _ => le_total _ _⟩
  have htrans : IsTrans AuditEventRecord fun a b =>
      a.createdAt.instant ≤ b.createdAt.instant := ⟨fun _ _ _ => le_trans⟩
  exact List.pairwise_insertionSort _ _

/-- Postgres returns what the columns make of the events that the in-memory store returns. -/
theorem ReportFilter.QueryEventsPostgres.perm_map (h : Mirrors C σ τ records)
    (hsids : f.sessionIds.Nodup)
    {rows : List AuditEventRecord} (hrows : f.QueryEventsPostgres τ rows) :
    ((f.queryEventsMemory σ).map C.rowToRecord).Perm rows := by
  have hselected : (records.map C.rowToRecord).filter f.selects =
      (records.filter f.selects).map C.rowToRecord := by
    rw [List.filter_map]
    apply congrArg
    apply List.filter_congr
    intro r hr
    exact selects_rowToRecord f (h.reportable r hr)
  have hperm := hrows.perm
  rw [h.rows, hselected] at hperm
  exact ((queryEventsMemory_perm h hsids).map _).trans hperm.symm

/-- The data of a report over records is that over the rows of these records. -/
theorem reportData_map_rowToRecord (truth : PyValue → Bool) (str : PyValue → String)
    {events : List AuditEventRecord} (h : ∀ r ∈ events, Reportable r) :
    reportData truth str (events.map C.rowToRecord) = reportData truth str events := by
  have hfold : ((events.map C.rowToRecord).map fun r => eventToDict (.ofRecord r)).foldl
        (Extraction.see truth str) .start =
      (events.map fun r => eventToDict (.ofRecord r)).foldl (Extraction.see truth str) .start := by
    rw [List.map_map, List.foldl_map, List.foldl_map]
    apply List.foldl_ext
    intro x r hr
    exact see_rowToRecord truth str x (h r hr)
  simp only [reportData, extractReportData, hfold]

theorem byTime_map {events : List AuditEventRecord}
    (h : events.Pairwise fun a b => a.createdAt.instant ≤ b.createdAt.instant) :
    ByTime (events.map fun r => eventToDict (.ofRecord r)) :=
  List.pairwise_map.mpr h

theorem reportData_agree (h : Mirrors C σ τ records) (hsids : f.sessionIds.Nodup)
    {rows : List AuditEventRecord} (hrows : f.QueryEventsPostgres τ rows)
    (truth : PyValue → Bool) (str : PyValue → String) :
    (reportData truth str (f.queryEventsMemory σ)).Agree (reportData truth str rows) := by
  have hreportable : ∀ r ∈ f.queryEventsMemory σ, Reportable r := by
    intro r hr
    have hmem := (queryEventsMemory_perm h hsids).mem_iff.mp hr
    exact h.reportable r (List.mem_of_mem_filter hmem)
  rw [← reportData_map_rowToRecord (C := C) truth str hreportable]
  have hordered : ((f.queryEventsMemory σ).map C.rowToRecord).Pairwise
      fun a b => a.createdAt.instant ≤ b.createdAt.instant := by
    rw [List.pairwise_map]
    refine (queryEventsMemory_ordered σ f).imp_of_mem ?_
    intro a b ha hb hab
    rw [createdAt_rowToRecord (hreportable a ha), createdAt_rowToRecord (hreportable b hb)]
    exact hab
  apply extractReportData_agree ((hrows.perm_map h hsids).map _) (byTime_map hordered)
    (byTime_map hrows.ordered)
  intro event hevent
  rw [List.map_map] at hevent
  obtain ⟨r, hr, hevent⟩ := List.mem_map.mp hevent
  rw [← hevent]
  change (C.rowToRecord r).createdAt.IsUtc
  rw [createdAt_rowToRecord (hreportable r hr)]
  exact (hreportable r hr).utc

end Queries

/-- After the same log calls, as long as the in-memory store has evicted nothing, a report over
its events and one over any answer of Postgres agree: they have the same sections, with the
same status and the same numbers, and only the sessions may be listed in another order.  No
session may be asked for twice: the in-memory query would count its events twice. -/
theorem reports_agree {K : ModuleKeys} {C : ColumnTypes} {maxEvents : ℕ} {onFull : OnFull}
    {s : MemoryAudit × PostgresAudit} (hreach : (mirrorSystem K C maxEvents onFull).Reachable s)
    (hkept : s.1.verifyNotTruncated = true) (f : ReportFilter) (hsids : f.sessionIds.Nodup)
    (rows : List AuditEventRecord) (hrows : f.QueryEventsPostgres s.2 rows)
    (truth : PyValue → Bool) (str : PyValue → String) (reader : StampReader) :
    let memory := reportData truth str (f.queryEventsMemory s.1)
    let postgres := reportData truth str rows
    (generateArticle12 reader f memory).Agree (generateArticle12 reader f postgres) ∧
      ∀ agentId, (generateSummary reader agentId f memory).Agree
        (generateSummary reader agentId f postgres) := by
  obtain ⟨records, hmirrors⟩ := mirrors_of_reachable hreach hkept
  have hdata := reportData_agree hmirrors hsids hrows truth str
  exact ⟨generateArticle12_agree hdata, fun agentId => generateSummary_agree hdata agentId⟩

/-! ### Two sessions of one time -/

def noFilter : ReportFilter := ⟨[], none, none, none, by simp⟩

def firstRow : AuditRow := ⟨1, ColumnTypes.sampleColumns.rowToRecord sampleRecord₁, none⟩

def otherRow : AuditRow := ⟨2, ColumnTypes.sampleColumns.rowToRecord otherRecord, none⟩

/-- Postgres may list the later row first. -/
def answered : List AuditEventRecord := [otherRow.record, firstRow.record]

def mirrored : MemoryAudit × PostgresAudit := (twoSessions.store, ⟨[firstRow, otherRow], 3⟩)

theorem sampleTime_isUtc : sampleTime.IsUtc :=
  ⟨739253, 11045000000, by decide, by decide, by decide, by decide⟩

theorem reportable_of_sampleTime {r : AuditEventRecord} (htime : r.createdAt = sampleTime)
    (hkeys : (r.metadata.map Prod.fst).Nodup)
    (hnone : ∀ key ∈ ["tool", "tool_name"], r.metadata.lookup key = none) : Reportable r where
  utc := htime ▸ sampleTime_isUtc
  keys := hkeys
  tools := by
    intro key hkey value hvalue
    rw [hnone key hkey] at hvalue
    exact absurd hvalue (by simp)

/-- A call whose record both stores take. -/
theorem mirrorStep_of_build {K : ModuleKeys} {C : ColumnTypes} {σ : MemoryAudit}
    {τ : PostgresAudit} {b : ChainBuilder} {eventId : Uuid} {now : Datetime} {p : Option String}
    {r : AuditEventRecord} (hmemory : σ.headHmac b.logCall.sessionId = some p)
    (hpostgres : latestHmac τ.rows b.logCall.sessionId = p)
    (hbuild : b.build K eventId now p = some r) (hcap : σ.enforceCapBeforeAppend = some σ)
    (haccepts : C.accepts r = true) (hnew : ¬∃ row ∈ τ.rows, row.record.eventId = r.eventId)
    (hr : Reportable r) :
    MirrorStep K C (σ, τ) (σ.append b.logCall.sessionId r,
      ⟨τ.rows ++ [⟨τ.nextSeq, C.rowToRecord r, none⟩], τ.nextSeq + 1⟩) := by
  refine .log b eventId now _ _ _ _ (some r) ?_ ?_ ?_
  · rw [MemoryAudit.insertWithChainLock, hmemory, Option.bind_some, hbuild, hcap]
  · have hnew' : ¬∃ row ∈ τ.rows, row.record.eventId = (C.rowToRecord r).eventId := hnew
    rw [ColumnTypes.insertWithChainLock, hpostgres, hbuild]
    simp only [haccepts, if_true, PostgresAudit.insertRow, if_neg hnew']
  · intro r' hr'
    rw [← Option.some.inj hr']
    exact hr

theorem mirrored_reachable :
    (mirrorSystem twoSessionKeys ColumnTypes.sampleColumns 10 .raise).Reachable mirrored := by
  have hfirst : MirrorStep twoSessionKeys ColumnTypes.sampleColumns
      (.empty 10 .raise, .empty) (oneSession.store, ⟨[firstRow], 2⟩) :=
    mirrorStep_of_build (b := firstCall) rfl rfl firstCall_build rfl rfl
      (by simp [PostgresAudit.empty]) (reportable_of_sampleTime rfl (by decide) (by decide))
  have hother : MirrorStep twoSessionKeys ColumnTypes.sampleColumns
      (oneSession.store, ⟨[firstRow], 2⟩) mirrored :=
    mirrorStep_of_build (b := otherCall) rfl rfl otherCall_build rfl rfl
      (by decide) (reportable_of_sampleTime rfl (by decide) (by decide))
  exact ((System.Reachable.start rfl).next hfirst).next hother

theorem answered_query : noFilter.QueryEventsPostgres mirrored.2 answered where
  perm := List.Perm.swap firstRow.record otherRow.record []
  ordered := List.pairwise_pair.mpr le_rfl

/-- The reports agree, and list the two sessions in opposite orders. -/
theorem two_session_reports_agree :
    let memory := reportData (fun _ => true) (fun _ => "") (noFilter.queryEventsMemory mirrored.1)
    let postgres := reportData (fun _ => true) (fun _ => "") answered
    postgres.sessions = memory.sessions.reverse ∧
      (generateArticle12 .exact noFilter memory).Agree
        (generateArticle12 .exact noFilter postgres) := by
  intro memory postgres
  refine ⟨rfl, ?_⟩
  exact (reports_agree mirrored_reachable rfl noFilter List.nodup_nil answered answered_query
    (fun _ => true) (fun _ => "") .exact).1

end AgenticGovernance.Compliance

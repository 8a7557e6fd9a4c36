import Mathlib
import AgenticGovernance.Compliance.HumanOversight
import AgenticGovernance.Support.Calendar
import AgenticGovernance.Support.Double

/-!
# The sections of a report

A report is made from the data that `_extract_report_data` collects in one pass over the events.
The queries list the events by time, and events of one time in no fixed order.

`extractReportData_agree` says how much of the data depends on that order: only the order in
which the sessions are listed.
-/

namespace AgenticGovernance.Compliance

open Support Audit

/-! ## Ratios -/

/-- `a / b` -/
def ratio (a b : ℕ) : Double := (Double.nearest false (a / b)).getD (.zero false)

/-- `round(x, 4)` -/
def round4 (x : Double) : Double :=
  (Double.nearest x.neg (Double.roundHalfEven (x.magnitude * 10 ^ 4) / 10 ^ 4)).getD x

/-- The literal `0.8`. -/
def fourFifths : Double := ratio 4 5

def roundedRatio (a b : ℕ) : PyValue := .float (round4 (ratio a b)).repr

/-! ## The seven sections -/

/-- `_status_from_count` -/
def statusFromCount (count partialThreshold : ℕ) : SectionStatus :=
  if count = 0 then .nonCompliant
  else if count < partialThreshold then .partlyCompliant
  else .compliant

def strList (items : List String) : PyValue := .list (items.map .str)

/-- The dictionary of a session. -/
def SessionSpan.value (s : SessionSpan) : PyValue :=
  .dict [(.str "session_id", .str s.sessionId), (.str "first_event", .str s.firstEvent),
    (.str "last_event", .str s.lastEvent)]

def sectionEventRegistration (totalEvents : ℕ) (dateRangeStart dateRangeEnd : Option String)
    (eventKinds : List String) : ReportSection where
  title := "Registration of Events"
  description :=
    "EU AI Act Article 12 requires automatic logging of events " ++
    "throughout the AI system lifecycle. This section shows audit " ++
    "trail completeness for the queried scope."
  data :=
    [("total_events", .int totalEvents),
      ("date_range_start", Scope.optionalStr dateRangeStart),
      ("date_range_end", Scope.optionalStr dateRangeEnd),
      ("event_kinds_observed", strList eventKinds)]
  status := statusFromCount totalEvents 10

def sectionDurationOfUse (sessions : List SessionSpan) : ReportSection where
  title := "Duration of Use"
  description :=
    "Article 12 requires logging the period of each use of the AI system. " ++
    "Sessions with both start and end events demonstrate complete lifecycle tracking."
  data :=
    [("total_sessions", .int sessions.length),
      ("sessions", .list (sessions.map SessionSpan.value))]
  status := statusFromCount sessions.length 1

def sectionReferenceDatabase (agentIds tools models : List String) : ReportSection where
  title := "Reference Database"
  description :=
    "Article 12 requires identification of agents, tools, and models involved. " ++
    "This section lists all entities observed in the audit trail."
  data :=
    [("agent_ids", strList agentIds), ("tools_observed", strList tools),
      ("models_observed", strList models)]
  status :=
    if agentIds ≠ [] ∧ tools ≠ [] ∧ models ≠ [] then .compliant
    else if agentIds ≠ [] ∨ tools ≠ [] ∨ models ≠ [] then .partlyCompliant
    else .nonCompliant

def sectionInputData (eventsWithInputHash totalEvents : ℕ) : ReportSection where
  title := "Input Data"
  description :=
    "Article 12 requires logging of input data. This SDK uses " ++
    "cryptographic hashing (privacy-preserving) to record input " ++
    "traceability without storing raw content."
  data :=
    [("events_with_input_hash", .int eventsWithInputHash),
      ("total_events", .int totalEvents),
      ("coverage_ratio",
        if 0 < totalEvents then roundedRatio eventsWithInputHash totalEvents
        else .float (round4 (.zero false)).repr),
      ("note",
        .str
          ("Input data is privacy-preserving: hashed, not stored raw. " ++
            "The hash enables traceability without retaining sensitive content."))]
  status :=
    if totalEvents = 0 then .nonCompliant
    else if fourFifths.magnitude ≤ (ratio eventsWithInputHash totalEvents).magnitude then
      .compliant
    else if 0 < (ratio eventsWithInputHash totalEvents).magnitude then .partlyCompliant
    else .nonCompliant

def sectionFunctioning (scopePoliciesCount budgetPoliciesCount hitlGatesCount : ℕ) :
    ReportSection where
  title := "Functioning of the System"
  description :=
    "Article 12 requires verification that monitoring mechanisms function " ++
    "correctly. This section summarizes active enforcement policies " ++
    "(scope, budget, human-in-the-loop gates)."
  data :=
    [("scope_policies_active", .int scopePoliciesCount),
      ("budget_policies_active", .int budgetPoliciesCount),
      ("hitl_gates_active", .int hitlGatesCount)]
  status :=
    if 3 ≤ scopePoliciesCount + budgetPoliciesCount + hitlGatesCount then .compliant
    else if 0 < scopePoliciesCount + budgetPoliciesCount + hitlGatesCount then .partlyCompliant
    else .nonCompliant

def sectionPostMarketMonitoring (scopeViolations budgetViolations loopViolations : ℕ)
    (chainIntegrityVerified : Bool) : ReportSection where
  title := "Post-Market Monitoring"
  description :=
    "Article 12 requires logging relevant to post-market monitoring. " ++
    "This section shows policy violations and HMAC chain integrity status."
  data :=
    [("scope_violations", .int scopeViolations), ("budget_violations", .int budgetViolations),
      ("loop_violations", .int loopViolations),
      ("total_violations", .int (scopeViolations + budgetViolations + loopViolations : ℕ)),
      ("chain_integrity_verified", .bool chainIntegrityVerified)]
  status :=
    if chainIntegrityVerified ∧ scopeViolations + budgetViolations + loopViolations = 0 then
      .compliant
    else if chainIntegrityVerified then .partlyCompliant
    else .nonCompliant

/-- `_build_article12_sections` -/
def buildArticle12Sections (data : ReportData) : List ReportSection :=
  [sectionEventRegistration data.totalEvents data.dateStart data.dateEnd data.kinds,
    sectionDurationOfUse data.sessions,
    sectionReferenceDatabase data.agentIds data.tools data.models,
    sectionInputData data.eventsWithInputHash data.totalEvents,
    sectionFunctioning data.tools.length
      (data.budgetViolations + if 0 < data.totalEvents then 1 else 0) data.approvalRequested,
    data.humanOversight roundedRatio,
    -- the violations are never called verified here, whatever the chain verification says
    sectionPostMarketMonitoring data.scopeViolations data.budgetViolations data.loopViolations
      false]

/-- The sections of `generate_summary`. -/
def summarySections (agentId : String) (data : ReportData) : List ReportSection :=
  let totalViolations := data.scopeViolations + data.budgetViolations + data.loopViolations
  [{ title := "Agent Overview"
     description := "Summary for agent '" ++ agentId ++ "'."
     data :=
      [("agent_id", .str agentId), ("total_events", .int data.totalEvents),
        ("total_sessions", .int data.sessions.length), ("event_kinds", strList data.kinds),
        ("models_used", strList data.models),
        ("date_range_start", Scope.optionalStr data.dateStart),
        ("date_range_end", Scope.optionalStr data.dateEnd)]
     status := if 0 < data.totalEvents then .compliant else .nonCompliant },
    { title := "Violation Summary"
      description := "Policy violations observed in the audit trail."
      data :=
        [("scope_violations", .int data.scopeViolations),
          ("budget_violations", .int data.budgetViolations),
          ("loop_violations", .int data.loopViolations),
          ("total_violations", .int totalViolations)]
      status :=
        if totalViolations = 0 ∧ 0 < data.totalEvents then .compliant
        else if 0 < data.totalEvents then .partlyCompliant
        else .nonCompliant },
    { title := "Human Oversight"
      description := "HITL gate activity for the agent."
      data :=
        [("approval_requested", .int data.approvalRequested),
          ("approval_granted", .int data.approvalGranted),
          ("approval_denied", .int data.approvalDenied)]
      status := if 0 < data.approvalRequested then .compliant else .nonCompliant }]

/-! ## Data that agree -/

/-- The same data, with the sessions listed in any order. -/
structure ReportData.Agree (d d' : ReportData) : Prop where
  unordered : d' = { d with sessions := d'.sessions }
  sessions : d'.sessions.Perm d.sessions

/-- The events are in the order of their times. -/
def ByTime (events : List EventDict) : Prop :=
  events.Pairwise fun a b => a.createdAt.instant ≤ b.createdAt.instant

/-- The local variables of the loop, without the sessions. -/
def Extraction.unordered (x : Extraction) : Extraction := { x with sessions := [] }

section Commute

theorem counter_comm (n : ℕ) (p q : Prop) [Decidable p] [Decidable q] :
    (if q then (if p then n + 1 else n) + 1 else if p then n + 1 else n) =
      if p then (if q then n + 1 else n) + 1 else if q then n + 1 else n := by
  by_cases hp : p
  · by_cases hq : q
    · simp [hp, hq]
    · simp [hp, hq]
  · simp [hp]

theorem union_comm_if {α : Type*} [DecidableEq α] (s t u : Finset α) (p q : Prop)
    [Decidable p] [Decidable q] :
    (if q then (if p then s ∪ t else s) ∪ u else if p then s ∪ t else s) =
      if p then (if q then s ∪ u else s) ∪ t else if q then s ∪ u else s := by
  by_cases hp : p
  · by_cases hq : q
    · simp only [hp, hq, if_true, Finset.union_right_comm]
    · simp [hp, hq]
  · simp [hp]

/-- The least of the texts seen, and in the dual order the greatest. -/
theorem least_comm {α : Type*} [LinearOrder α] (d : Option α) (s t : α) :
    (if (if d.all fun u => s < u then some s else d).all fun u => t < u then some t
      else if d.all fun u => s < u then some s else d) =
    if (if d.all fun u => t < u then some t else d).all fun u => s < u then some s
      else if d.all fun u => t < u then some t else d := by
  have hkeep : ∀ (e : Option α) (v : α),
      (if e.all fun u => v < u then some v else e) = some ((e.map fun u => min v u).getD v) := by
    intro e v
    rcases e with _ | u
    · simp
    · by_cases hvu : v < u
      · simp [hvu, min_eq_left hvu.le]
      · simp [hvu, min_eq_right (not_lt.mp hvu)]
  rw [hkeep, hkeep, hkeep, hkeep]
  rcases d with _ | u
  · simp [min_comm]
  · simp [min_left_comm]

variable (truth : PyValue → Bool) (str : PyValue → String)

theorem see_comm (x : Extraction) (a b : EventDict) :
    ((x.see truth str a).see truth str b).unordered =
      ((x.see truth str b).see truth str a).unordered := by
  simp only [Extraction.unordered, Extraction.see, Extraction.mk.injEq]
  refine ⟨trivial, Finset.insert_comm .., ?_, union_comm_if .., union_comm_if .., trivial,
    counter_comm .., counter_comm .., counter_comm .., counter_comm .., counter_comm ..,
    counter_comm .., counter_comm .., least_comm .., least_comm (α := Stringᵒᵈ) ..⟩
  have hinsert : ∀ (s : Finset String) (aid : String),
      (if aid ≠ "" then insert aid s else s) = if aid ≠ "" then s ∪ {aid} else s := by
    intro s aid
    rw [Finset.union_comm, Finset.insert_eq]
  rw [hinsert, hinsert, hinsert, hinsert]
  exact union_comm_if ..

/-- What the loop does to the other variables does not depend on the sessions. -/
theorem unordered_see (x : Extraction) (event : EventDict) :
    (x.see truth str event).unordered = (x.unordered.see truth str event).unordered := rfl

theorem unordered_foldl_eq {l m : List EventDict} (hperm : l.Perm m) :
    (l.foldl (Extraction.see truth str) .start).unordered =
      (m.foldl (Extraction.see truth str) .start).unordered := by
  have hview : ∀ l : List EventDict, (l.foldl (Extraction.see truth str) .start).unordered =
      l.foldl (fun x event => (x.see truth str event).unordered) .start := by
    intro l
    exact (List.foldl_hom Extraction.unordered fun x event =>
      (unordered_see truth str x event).symm).symm
  rw [hview, hview]
  apply hperm.foldl_eq'
  intro a _ b _ x
  rw [← unordered_see, ← unordered_see]
  exact see_comm truth str x a b

end Commute

/-! ## Sessions -/

/-- The times of the events of a session. -/
def sessionTimes (events : List EventDict) (sid : String) : List Datetime :=
  (events.filter fun event => event.sessionId = sid).map fun event => event.createdAt

/-- The first and the last of some times, as a session shows them. -/
structure SessionSpan.Spans (s : SessionSpan) (times : List Datetime) : Prop where
  first : times.head?.map Datetime.isoformat = some s.firstEvent
  last : times.getLast?.map Datetime.isoformat = some s.lastEvent

section Sessions

variable {truth : PyValue → Bool} {str : PyValue → String}

theorem sessionTimes_concat_self {l : List EventDict} {event : EventDict} {sid : String}
    (h : event.sessionId = sid) :
    sessionTimes (l ++ [event]) sid = sessionTimes l sid ++ [event.createdAt] := by
  simp [sessionTimes, h]

theorem sessionTimes_concat_of_ne {l : List EventDict} {event : EventDict} {sid : String}
    (h : event.sessionId ≠ sid) : sessionTimes (l ++ [event]) sid = sessionTimes l sid := by
  simp [sessionTimes, h]

theorem sessions_concat (l : List EventDict) (event : EventDict) :
    (extractReportData truth str (l ++ [event])).sessions =
      trackSession (extractReportData truth str l).sessions event.sessionId
        event.createdAt.isoformat := by
  simp only [extractReportData, List.foldl_append, List.foldl_cons, List.foldl_nil]
  rfl

theorem map_sessionId_trackSession (sessions : List SessionSpan) (sid created : String) :
    (trackSession sessions sid created).map (fun s => s.sessionId) =
      if sid = "" ∨ sid ∈ sessions.map fun s => s.sessionId then
        sessions.map fun s => s.sessionId
      else sessions.map (fun s => s.sessionId) ++ [sid] := by
  have hany : (sessions.any fun s => s.sessionId = sid) = true ↔
      sid ∈ sessions.map fun s => s.sessionId := by
    simp [List.any_eq_true]
  rw [trackSession]
  by_cases hempty : sid = ""
  · simp [hempty]
  · rw [if_neg hempty]
    by_cases hmem : sid ∈ sessions.map fun s => s.sessionId
    · rw [if_pos (hany.mpr hmem), if_pos (Or.inr hmem), List.map_map]
      apply List.map_congr_left
      intro s _
      rw [Function.comp_apply]
      split
      · rename_i hs
        exact hs.symm ▸ rfl
      · rfl
    · rw [if_neg (fun h => hmem (hany.mp h)), if_neg (by tauto)]
      simp

theorem nodup_sessions (l : List EventDict) :
    ((extractReportData truth str l).sessions.map fun s => s.sessionId).Nodup := by
  induction l using List.reverseRecOn with
  | nil => exact List.nodup_nil
  | append_singleton l event ih =>
      rw [sessions_concat, map_sessionId_trackSession]
      split
      · exact ih
      · rename_i hnew
        push Not at hnew
        refine List.Nodup.append ih (List.nodup_singleton _) ?_
        rw [List.disjoint_singleton]
        exact hnew.2

theorem spans_concat_iff {s : SessionSpan} {times : List Datetime} {t : Datetime} :
    s.Spans (times ++ [t]) ↔
      (times.head?.getD t).isoformat = s.firstEvent ∧ t.isoformat = s.lastEvent := by
  have hhead : (times ++ [t]).head? = some (times.head?.getD t) := by
    rcases times with _ | ⟨u, times⟩
    · simp
    · simp
  constructor
  · intro h
    have hfirst := h.first
    have hlast := h.last
    rw [hhead, Option.map_some, Option.some.injEq] at hfirst
    rw [List.getLast?_concat, Option.map_some, Option.some.injEq] at hlast
    exact ⟨hfirst, hlast⟩
  · intro ⟨hfirst, hlast⟩
    refine ⟨?_, ?_⟩
    · rw [hhead, Option.map_some, hfirst]
    · rw [List.getLast?_concat, Option.map_some, hlast]

theorem SessionSpan.Spans.ne_nil {s : SessionSpan} {times : List Datetime}
    (h : s.Spans times) : times ≠ [] := by
  intro hnil
  have hfirst := h.first
  simp [hnil] at hfirst

theorem SessionSpan.Spans.firstEvent_eq {s : SessionSpan} {times : List Datetime} {t : Datetime}
    (h : s.Spans times) : (times.head?.getD t).isoformat = s.firstEvent := by
  have hfirst := h.first
  rw [List.head?_eq_some_head h.ne_nil] at hfirst ⊢
  exact Option.some.inj hfirst

/-- Times that are not empty are spanned. -/
theorem exists_spans {times : List Datetime} (h : times ≠ []) (sid : String) :
    ∃ s : SessionSpan, s.sessionId = sid ∧ s.Spans times := by
  refine ⟨⟨sid, (times.head h).isoformat, (times.getLast h).isoformat⟩, rfl, ?_, ?_⟩
  · rw [List.head?_eq_some_head h, Option.map_some]
  · rw [List.getLast?_eq_some_getLast h, Option.map_some]

theorem any_sessionId {sessions : List SessionSpan} {sid : String} :
    (sessions.any fun s => s.sessionId = sid) = true ↔ ∃ s ∈ sessions, s.sessionId = sid := by
  simp [List.any_eq_true]

/-- The other sessions stay as they are. -/
theorem mem_trackSession_of_ne {sessions : List SessionSpan} {s : SessionSpan}
    {sid created : String} (h : sid ≠ s.sessionId) :
    s ∈ trackSession sessions sid created ↔ s ∈ sessions := by
  rw [trackSession]
  split
  · exact Iff.rfl
  · split
    · rw [List.mem_map]
      constructor
      · intro ⟨old, hold, hs⟩
        split at hs
        · rename_i hid
          have hsame : old.sessionId = s.sessionId := congrArg (fun x => x.sessionId) hs
          exact absurd (hid.symm.trans hsame) h
        · exact hs ▸ hold
      · intro hmem
        exact ⟨s, hmem, if_neg (Ne.symm h)⟩
    · rw [List.mem_append, List.mem_singleton, or_iff_left]
      intro heq
      exact h (heq ▸ rfl)

/-- The session of the event ends with it, and starts with it if it is new. -/
theorem mem_trackSession_self {sessions : List SessionSpan} {s : SessionSpan} {sid created : String}
    (hsid : sid = s.sessionId) (hne : sid ≠ "") :
    s ∈ trackSession sessions sid created ↔
      s.lastEvent = created ∧
        ((∃ old ∈ sessions, old.sessionId = sid ∧ old.firstEvent = s.firstEvent) ∨
          (∀ old ∈ sessions, old.sessionId ≠ sid) ∧ s.firstEvent = created) := by
  rw [trackSession, if_neg hne]
  by_cases hpresent : ∃ old ∈ sessions, old.sessionId = sid
  · rw [if_pos (any_sessionId.mpr hpresent), List.mem_map]
    constructor
    · intro ⟨old, hold, hs⟩
      split at hs
      · rename_i hid
        rw [← hs]
        exact ⟨rfl, Or.inl ⟨old, hold, hid, rfl⟩⟩
      · rename_i hid
        exact absurd (hs ▸ hsid.symm) hid
    · intro ⟨hlast, hfirst⟩
      rcases hfirst with ⟨old, hold, hid, hfirst⟩ | ⟨hnew, -⟩
      · refine ⟨old, hold, ?_⟩
        rw [if_pos hid, ← hlast, hfirst, hid, hsid]
      · obtain ⟨old, hold, hid⟩ := hpresent
        exact absurd hid (hnew old hold)
  · rw [if_neg (fun h => hpresent (any_sessionId.mp h)), List.mem_append, List.mem_singleton]
    push Not at hpresent
    constructor
    · intro hmem
      rcases hmem with hmem | hs
      · exact absurd hsid.symm (hpresent s hmem)
      · rw [hs]
        exact ⟨rfl, Or.inr ⟨hpresent, rfl⟩⟩
    · intro ⟨hlast, hfirst⟩
      rcases hfirst with ⟨old, hold, hid, -⟩ | ⟨-, hfirst⟩
      · exact absurd hid (hpresent old hold)
      · right
        rw [hsid]
        exact SessionSpan.mk.injEq .. |>.mpr ⟨rfl, hfirst, hlast⟩

/-- A session is listed with its first and its last event. -/
theorem mem_sessions_iff {l : List EventDict} {s : SessionSpan} :
    s ∈ (extractReportData truth str l).sessions ↔
      s.sessionId ≠ "" ∧ s.Spans (sessionTimes l s.sessionId) := by
  induction l using List.reverseRecOn generalizing s with
  | nil =>
      refine ⟨fun h => absurd h List.not_mem_nil, ?_⟩
      intro ⟨_, hspans⟩
      exact absurd rfl hspans.ne_nil
  | append_singleton l event ih =>
      rw [sessions_concat]
      by_cases hempty : event.sessionId = ""
      · rw [trackSession, if_pos hempty, ih]
        refine and_congr_right fun hs => ?_
        rw [sessionTimes_concat_of_ne (fun h => hs (h.symm.trans hempty))]
      · by_cases hsid : event.sessionId = s.sessionId
        · rw [mem_trackSession_self hsid hempty, sessionTimes_concat_self hsid, spans_concat_iff]
          have hlisted : ∀ old ∈ (extractReportData truth str l).sessions,
              old.sessionId = event.sessionId →
                old.Spans (sessionTimes l s.sessionId) := by
            intro old hold hid
            rw [← hid.trans hsid]
            exact (ih.mp hold).2
          by_cases htimes : sessionTimes l s.sessionId = []
          · have hnew : ∀ old ∈ (extractReportData truth str l).sessions,
                old.sessionId ≠ event.sessionId :=
              fun old hold hid => (hlisted old hold hid).ne_nil htimes
            rw [htimes]
            constructor
            · intro ⟨hlast, hfirst⟩
              rcases hfirst with ⟨old, hold, hid, -⟩ | ⟨-, hfirst⟩
              · exact absurd hid (hnew old hold)
              · exact ⟨hsid ▸ hempty, hfirst.symm, hlast.symm⟩
            · intro ⟨_, hfirst, hlast⟩
              exact ⟨hlast.symm, Or.inr ⟨hnew, hfirst.symm⟩⟩
          · obtain ⟨old, hid, hspans⟩ := exists_spans htimes s.sessionId
            have hold : old ∈ (extractReportData truth str l).sessions :=
              ih.mpr ⟨by rw [hid, ← hsid]; exact hempty, by rw [hid]; exact hspans⟩
            constructor
            · intro ⟨hlast, hfirst⟩
              rcases hfirst with ⟨old', hold', hid', hfirst⟩ | ⟨hnew, -⟩
              · rw [(hlisted old' hold' hid').firstEvent_eq]
                exact ⟨hsid ▸ hempty, hfirst, hlast.symm⟩
              · exact absurd (hid.trans hsid.symm) (hnew old hold)
            · intro ⟨_, hfirst, hlast⟩
              rw [hspans.firstEvent_eq] at hfirst
              exact ⟨hlast.symm, Or.inl ⟨old, hold, hid.trans hsid.symm, hfirst⟩⟩
        · rw [mem_trackSession_of_ne hsid, ih, sessionTimes_concat_of_ne hsid]

theorem sessionTimes_perm {l m : List EventDict} (h : l.Perm m) (sid : String) :
    (sessionTimes l sid).Perm (sessionTimes m sid) :=
  (h.filter _).map _

theorem ByTime.sessionTimes {l : List EventDict} (h : ByTime l) (sid : String) :
    (sessionTimes l sid).Pairwise fun t u => t.instant ≤ u.instant :=
  List.pairwise_map.mpr (h.sublist List.filter_sublist)

/-- Two lists of the same events in the order of their times give the same times for each
session. -/
theorem sessionTimes_eq {l m : List EventDict} (hperm : l.Perm m) (hl : ByTime l) (hm : ByTime m)
    (hutc : ∀ event ∈ l, event.createdAt.IsUtc) (sid : String) :
    sessionTimes l sid = sessionTimes m sid := by
  have hmem : ∀ t ∈ sessionTimes l sid, t.IsUtc := by
    intro t ht
    obtain ⟨event, hevent, rfl⟩ := List.mem_map.mp ht
    exact hutc event (List.mem_of_mem_filter hevent)
  apply (sessionTimes_perm hperm sid).eq_of_pairwise ?_ (hl.sessionTimes sid) (hm.sessionTimes sid)
  intro t u ht hu htu hut
  exact (hmem t ht).eq_of_instant
    (hmem u ((sessionTimes_perm hperm sid).mem_iff.mpr hu)) (le_antisymm htu hut)

end Sessions

/-- The data depends on the order of events of one time only in the order of the sessions. -/
theorem extractReportData_agree {truth : PyValue → Bool} {str : PyValue → String}
    {l m : List EventDict} (hperm : l.Perm m) (hl : ByTime l) (hm : ByTime m)
    (hutc : ∀ event ∈ l, event.createdAt.IsUtc) :
    (extractReportData truth str l).Agree (extractReportData truth str m) := by
  constructor
  · have hrest := unordered_foldl_eq truth str hperm
    simp only [Extraction.unordered, Extraction.mk.injEq] at hrest
    simp only [extractReportData, hrest]
  · rw [List.perm_ext_iff_of_nodup (nodup_sessions m).of_map (nodup_sessions l).of_map]
    intro s
    rw [mem_sessions_iff, mem_sessions_iff, sessionTimes_eq hperm hl hm hutc]

end AgenticGovernance.Compliance

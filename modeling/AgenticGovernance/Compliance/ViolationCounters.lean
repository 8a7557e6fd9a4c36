import Mathlib
import AgenticGovernance.Scope.Check
import AgenticGovernance.Cost.FailClosed
import AgenticGovernance.Loop.Detect

/-!
# The violation counters of the report

`_extract_report_data` counts violations by the kinds of the stored events.  Scope
denials, cap breaches and loop detections are logged by three other modules, each under a
kind of its own: the scope module and the cost module under the kind that is counted, the
loop module under `loop.detected`, which nothing counts.

A run makes any calls of the three modules in any order.  The decisions are what the
calls end in, the attempts what they hand to the audit log.
-/

namespace AgenticGovernance.Compliance

open Support Audit

/-! ## The extraction -/

/-- An event as both queries return it, with `str(session_id)` taken. -/
structure EventDict where
  sessionId : String
  agentId : String
  kind : String
  model : Option String
  inputHash : Option String
  metadata : List (String × PyValue)
  createdAt : Datetime

/-- `_events_to_dicts` -/
def eventToDict (r : LoggedRecord) : EventDict where
  sessionId := r.base.sessionId.str
  agentId := r.base.agentId
  kind := r.base.kind
  model := r.base.model
  inputHash := r.base.inputHash
  metadata := r.metadata
  createdAt := r.base.createdAt

structure SessionSpan where
  sessionId : String
  firstEvent : String
  lastEvent : String

/-- The local variables of the loop over the events. -/
structure Extraction where
  total : ℕ
  kinds : Finset String
  agentIds : Finset String
  tools : Finset String
  models : Finset String
  sessions : List SessionSpan
  eventsWithInputHash : ℕ
  scopeViolations : ℕ
  budgetViolations : ℕ
  loopViolations : ℕ
  approvalRequested : ℕ
  approvalGranted : ℕ
  approvalDenied : ℕ
  dateStart : Option String
  dateEnd : Option String

def Extraction.start : Extraction :=
  ⟨0, ∅, ∅, ∅, ∅, [], 0, 0, 0, 0, 0, 0, 0, none, none⟩

/-- `if text:` for an optional string. -/
def truthyText (text : Option String) : Bool := text.any fun s => s ≠ ""

/-- The entry of the session in the dictionary of sessions. -/
def trackSession (sessions : List SessionSpan) (sid created : String) : List SessionSpan :=
  if sid = "" then sessions
  else if sessions.any fun s => s.sessionId = sid then
    sessions.map fun s => if s.sessionId = sid then { s with lastEvent := created } else s
  else sessions ++ [⟨sid, created, created⟩]

section Extract

-- `bool(value)` and `str(value)`
variable (truth : PyValue → Bool) (str : PyValue → String)

/-- `meta.get("tool") or meta.get("tool_name")`, if it is true. -/
def toolName (metadata : List (String × PyValue)) : Option String :=
  match (metadata.lookup "tool").filter truth with
  | some tool => some (str tool)
  | none => ((metadata.lookup "tool_name").filter truth).map str

/-- The body of the loop. -/
def Extraction.see (x : Extraction) (event : EventDict) : Extraction :=
  let created := event.createdAt.isoformat
  { total := x.total + 1
    kinds := insert event.kind x.kinds
    agentIds := if event.agentId ≠ "" then insert event.agentId x.agentIds else x.agentIds
    models :=
      if truthyText event.model then x.models ∪ event.model.toFinset else x.models
    eventsWithInputHash :=
      if truthyText event.inputHash then x.eventsWithInputHash + 1 else x.eventsWithInputHash
    dateStart :=
      if x.dateStart.all fun start => created < start then some created else x.dateStart
    dateEnd := if x.dateEnd.all fun stop => stop < created then some created else x.dateEnd
    sessions := trackSession x.sessions event.sessionId created
    tools :=
      if event.kind = "tool.call" then x.tools ∪ (toolName truth str event.metadata).toFinset
      else x.tools
    scopeViolations :=
      if event.kind = "scope.violation" then x.scopeViolations + 1 else x.scopeViolations
    budgetViolations :=
      if event.kind = "budget.exceeded" then x.budgetViolations + 1 else x.budgetViolations
    loopViolations :=
      if event.kind = "loop.violation" then x.loopViolations + 1 else x.loopViolations
    approvalRequested :=
      if event.kind = "approval.requested" then x.approvalRequested + 1
      else x.approvalRequested
    approvalGranted :=
      if event.kind = "approval.granted" then x.approvalGranted + 1 else x.approvalGranted
    approvalDenied :=
      if event.kind = "approval.denied" then x.approvalDenied + 1 else x.approvalDenied }

/-- What the sections of the report are made from. -/
structure ReportData where
  totalEvents : ℕ
  kinds : List String
  agentIds : List String
  tools : List String
  models : List String
  sessions : List SessionSpan
  eventsWithInputHash : ℕ
  scopeViolations : ℕ
  budgetViolations : ℕ
  loopViolations : ℕ
  approvalRequested : ℕ
  approvalGranted : ℕ
  approvalDenied : ℕ
  dateStart : Option String
  dateEnd : Option String

/-- `_extract_report_data` -/
def extractReportData (events : List EventDict) : ReportData :=
  let x := events.foldl (Extraction.see truth str) .start
  { totalEvents := x.total
    kinds := x.kinds.sort (· ≤ ·)
    agentIds := x.agentIds.sort (· ≤ ·)
    tools := x.tools.sort (· ≤ ·)
    models := x.models.sort (· ≤ ·)
    sessions := x.sessions
    eventsWithInputHash := x.eventsWithInputHash
    scopeViolations := x.scopeViolations
    budgetViolations := x.budgetViolations
    loopViolations := x.loopViolations
    approvalRequested := x.approvalRequested
    approvalGranted := x.approvalGranted
    approvalDenied := x.approvalDenied
    dateStart := x.dateStart
    dateEnd := x.dateEnd }

end Extract

/-- A counter that one step of a fold raises for some elements counts them. -/
theorem foldl_counter {α β : Type*} (step : β → α → β) (counter : β → ℕ) (p : α → Bool)
    (hstep : ∀ b a, counter (step b a) = if p a then counter b + 1 else counter b)
    (l : List α) (b : β) : counter (l.foldl step b) = counter b + l.countP p := by
  induction l generalizing b with
  | nil => rfl
  | cons a l ih =>
      rw [List.foldl_cons, ih, hstep, List.countP_cons]
      split
      · omega
      · omega

/-- The number of events of a kind. -/
def ofKind (kind : String) (events : List EventDict) : ℕ :=
  events.countP fun event => event.kind = kind

section Counters

variable (truth : PyValue → Bool) (str : PyValue → String) (events : List EventDict)

/-- A counter that starts at zero and rises at the events of one kind. -/
theorem counter_eq_ofKind (counter : Extraction → ℕ) (kind : String)
    (hstart : counter .start = 0)
    (hsee : ∀ x event, counter (Extraction.see truth str x event) =
      if event.kind = kind then counter x + 1 else counter x) :
    counter (events.foldl (Extraction.see truth str) .start) = ofKind kind events := by
  have hcount := foldl_counter (Extraction.see truth str) counter
    (fun event => event.kind = kind) (fun x event => by simpa using hsee x event) events .start
  rw [hcount, hstart, Nat.zero_add, ofKind]

theorem scopeViolations_eq :
    (extractReportData truth str events).scopeViolations = ofKind "scope.violation" events :=
  counter_eq_ofKind truth str events (fun x => x.scopeViolations) _ rfl fun _ _ => rfl

theorem budgetViolations_eq :
    (extractReportData truth str events).budgetViolations = ofKind "budget.exceeded" events :=
  counter_eq_ofKind truth str events (fun x => x.budgetViolations) _ rfl fun _ _ => rfl

theorem loopViolations_eq :
    (extractReportData truth str events).loopViolations = ofKind "loop.violation" events :=
  counter_eq_ofKind truth str events (fun x => x.loopViolations) _ rfl fun _ _ => rfl

end Counters

/-! ## What the three modules log -/

/-- `PolicyNotRegistered` or `ScopeViolation`. -/
def IsScopeDenial : Except Scope.CheckError Unit → Bool
  | .error .policyNotRegistered => true
  | .error .scopeViolation => true
  | _ => false

/-- The events that `ScopeModule.check` hands to the audit log. -/
def scopeAttempts (env : Scope.CheckEnv) (agentId : String) (tool api : Option String) :
    List EventArgs :=
  match env.haltOf agentId with
  | some _ => []
  | none =>
      if tool = none ∧ api = none then []
      else
        match env.policies.table.get? agentId with
        | none => [Scope.violationArgs agentId tool api "no policy registered"]
        | some policy =>
            if ∃ t, tool = some t ∧ t ∉ policy.allowedTools then
              [Scope.violationArgs agentId tool api "tool not whitelisted"]
            else if ∃ u, api = some u ∧ ¬Scope.apiMatches u policy.allowedApis then
              [Scope.violationArgs agentId tool api "api not whitelisted"]
            else []

/-- `BudgetExceeded` for a breached cap. -/
def IsCapBreach {U : Type} : Except (Cost.CheckError U) Unit → Bool
  | .error (.budgetExceeded _) => true
  | _ => false

def actionName : Loop.LoopAction → String
  | .log => "log"
  | .raise => "raise"

/-- The event of `_handle_detection`. -/
def detectionArgs (d : Loop.Detection) : EventArgs where
  sessionId := some d.sessionId
  agentId := d.agentId
  parentEventId := none
  kind := "loop.detected"
  model := none
  inputHash := none
  outputHash := none
  metadata :=
    [("tool_name", .str d.toolName), ("count", .int d.count),
      ("window_seconds", .int d.policy.windowSeconds), ("max_calls", .int d.policy.maxCalls),
      ("action", .str (actionName d.policy.action))]

/-! ## The calls of a loop module -/

/-- The backend of the loop module. -/
inductive LoopStore where
  | memory (calls : Loop.MemoryCalls)
  | postgres (rows : List Loop.LoopRow)

/-- What becomes of the statements of one call: they are answered, or an exception is
raised before the row of the call is committed, or after. -/
inductive TrackingFate where
  | answered
  | rolledBack
  | uncounted
  deriving DecidableEq

section LoopCalls

variable (lower : String → String) (policies : Loop.Policies) (order : Loop.GroupOrder)

/-- `record_call` and `check`, with the exceptions of the database logged and swallowed. -/
def LoopStore.step (s : LoopStore) (fate : TrackingFate) (op : Loop.LoopOp) :
    LoopStore × Option Loop.Detection :=
  match s with
  | .memory calls =>
      let (calls', detection) := Loop.stepMemory lower policies calls op
      (.memory calls', detection)
  | .postgres rows =>
      let (rows', detection) := Loop.stepPostgres lower policies order rows op
      match fate with
      | .answered => (.postgres rows', detection)
      | .rolledBack => (.postgres rows, none)
      | .uncounted => (.postgres rows', none)

/-- The calls to the tool that the store holds for the window of the operation: those of
the agent on the session in memory, those of all agents on the session in Postgres. -/
def LoopStore.held (s : LoopStore) (op : Loop.LoopOp) (policy : Loop.LoopPolicy)
    (toolName : String) : ℕ :=
  match s with
  | .memory calls =>
      ((calls (op.agentId, op.sessionId)).getD []).countP fun c =>
        c.1 = toolName && policy.cutoff op.now ≤ c.2
  | .postgres rows => Loop.sessionCalls rows op policy toolName

/-- With the call that the operation itself records, one of the tools it judges has been
called more than `max_calls` times in the window, and the database answers. -/
def LoopStore.Exceeds (s : LoopStore) (fate : TrackingFate) (op : Loop.LoopOp) : Prop :=
  (∀ rows, s = .postgres rows → fate = .answered) ∧
    ∃ policy toolName, policies op.agentId = some policy ∧ Loop.Judged lower op toolName ∧
      policy.maxCalls < s.held op policy toolName +
        (Loop.recordedCall lower policies op).toList.countP fun row => row.toolName = toolName

end LoopCalls

/-! ## Runs of the three modules -/

/-- A call of one of the three modules, on any policies and with any answers of the
stores. -/
inductive EnforcementCall (U : Type) where
  | scopeCheck (presence : Option (Keyed String Presence.HaltMeta)) (policies : Scope.Policies)
      (agentId : String) (tool api : Option String)
  | checkOrRaise (agentId : String) (sessionId : Uuid) (failOpen : Bool)
      (halted : Option Bool) (policy : Option (Cost.BudgetPolicy U))
      (store : Cost.StoreReads U) (projectedTokens : Option ℤ)
  | loopCall (policies : Loop.Policies) (order : Loop.GroupOrder) (fate : TrackingFate)
      (op : Loop.LoopOp)

/-- A call, with the audit module as it finds it. -/
structure AuditedCall (U : Type) where
  audit : AuditEnv
  call : EnforcementCall U

inductive Decision where
  | scopeDenial
  | capBreach
  | loopDetection
  deriving DecidableEq

section Runs

variable {U : Type} [LT U] [DecidableLT U] (usd : U → PyValue) (float : ℤ → PyValue)
  (lower : String → String)

/-- What a call does to the loop store, what it logs, and its decision. -/
def AuditedCall.run (s : LoopStore) (c : AuditedCall U) :
    LoopStore × List EventArgs × Option Decision :=
  match c.call with
  | .scopeCheck presence policies agentId tool api =>
      let env : Scope.CheckEnv := ⟨presence, policies, c.audit⟩
      (s, scopeAttempts env agentId tool api,
        if IsScopeDenial (env.check agentId tool api) then some .scopeDenial else none)
  | .checkOrRaise agentId sessionId failOpen halted policy store projectedTokens =>
      let run := Cost.checkOrRaise failOpen halted policy store projectedTokens
      (s, run.events.map (Cost.costArgs usd float agentId sessionId),
        if IsCapBreach run.outcome then some .capBreach else none)
  | .loopCall policies order fate op =>
      let result := s.step lower policies order fate op
      (result.1, result.2.toList.map detectionArgs, result.2.map fun _ => .loopDetection)

/-- The loop store after a run. -/
def storeAfter (s : LoopStore) (calls : List (AuditedCall U)) : LoopStore :=
  calls.foldl (fun s c => (c.run usd float lower s).1) s

/-- The events that a run hands to the audit log, each with the audit module it meets. -/
def attempts : LoopStore → List (AuditedCall U) → List (AuditEnv × EventArgs)
  | _, [] => []
  | s, c :: calls =>
      (c.run usd float lower s).2.1.map (fun a => (c.audit, a)) ++
        attempts (c.run usd float lower s).1 calls

def decisions : LoopStore → List (AuditedCall U) → List Decision
  | _, [] => []
  | s, c :: calls =>
      (c.run usd float lower s).2.2.toList ++ decisions (c.run usd float lower s).1 calls

/-- No call of the run goes over the limit of the loop policy in the state that it
finds. -/
def NoLoops (s : LoopStore) (calls : List (AuditedCall U)) : Prop :=
  ∀ before c after policies order fate op, calls = before ++ c :: after →
    c.call = .loopCall policies order fate op →
      ¬(storeAfter usd float lower s before).Exceeds lower policies fate op

end Runs

/-- The event is stored: `log` returns the record that it has built and inserted. -/
def Stores (env : AuditEnv) (a : EventArgs) (r : LoggedRecord) : Prop :=
  env.log a = .ok r ∧
    ∃ event eventId prevHash, a.construct env.nfc = some event ∧
      (LoggedCall.mk event env.sessionId env.parentId env.createdAt).buildRecord
        env.canonicalMetadata env.keys eventId prevHash = some r

/-! ## One call -/

theorem scopeAttempts_cases (env : Scope.CheckEnv) (agentId : String)
    (tool api : Option String) :
    (scopeAttempts env agentId tool api = [] ∧
        IsScopeDenial (env.check agentId tool api) = false) ∨
      ∃ reason denial, IsScopeDenial (.error denial) = true ∧
        scopeAttempts env agentId tool api = [Scope.violationArgs agentId tool api reason] ∧
        env.check agentId tool api = .error (env.deny agentId tool api reason denial) := by
  rw [scopeAttempts, Scope.CheckEnv.check]
  rcases env.haltOf agentId with _ | halt
  · by_cases hnothing : tool = none ∧ api = none
    · rw [if_pos hnothing, if_pos hnothing]
      exact Or.inl ⟨rfl, rfl⟩
    · rw [if_neg hnothing, if_neg hnothing]
      rcases env.policies.table.get? agentId with _ | policy
      · exact Or.inr ⟨_, .policyNotRegistered, rfl, rfl, rfl⟩
      · by_cases htool : ∃ t, tool = some t ∧ t ∉ policy.allowedTools
        · right
          exact ⟨_, .scopeViolation, rfl, if_pos htool, if_pos htool⟩
        · by_cases hapi : ∃ u, api = some u ∧ ¬Scope.apiMatches u policy.allowedApis
          · right
            refine ⟨"api not whitelisted", .scopeViolation, rfl, ?_, ?_⟩
            · exact (if_neg htool).trans (if_pos hapi)
            · exact (if_neg htool).trans (if_pos hapi)
          · left
            refine ⟨(if_neg htool).trans (if_neg hapi), ?_⟩
            change IsScopeDenial (if _ then _ else _) = false
            rw [if_neg htool, if_neg hapi]
            rfl
  · exact Or.inl ⟨rfl, rfl⟩

/-- A denial whose event is stored is raised as such. -/
theorem deny_of_logged {env : Scope.CheckEnv} {agentId reason : String}
    {tool api : Option String} {denial : Scope.CheckError} {record : LoggedRecord}
    (hlog : env.audit.log (Scope.violationArgs agentId tool api reason) = .ok record) :
    env.deny agentId tool api reason denial = denial := by
  rw [Scope.CheckEnv.deny, hlog]

section Cost

variable {U : Type} [LT U] [DecidableLT U]

/-- A run of the gate logs one breach when it raises for a cap, and none otherwise. -/
def LogsBreaches (run : Cost.CheckRun U) : Prop :=
  (IsCapBreach run.outcome = true ∧ ∃ breach, run.events = [.exceeded breach]) ∨
    (IsCapBreach run.outcome = false ∧
      (run.events = [] ∨ ∃ error failOpen, run.events = [.checkFailed error failOpen]))

omit [LT U] [DecidableLT U] in
theorem logsBreaches_silent {outcome : Except (Cost.CheckError U) Unit}
    {reads : List (Cost.StoreRead × Bool)} (h : IsCapBreach outcome = false) :
    LogsBreaches ⟨outcome, reads, []⟩ :=
  Or.inr ⟨h, Or.inl rfl⟩

omit [LT U] [DecidableLT U] in
theorem logsBreaches_breach {breach : Cost.Breach U} {reads : List (Cost.StoreRead × Bool)} :
    LogsBreaches ⟨.error (.budgetExceeded breach), reads, [.exceeded breach]⟩ :=
  Or.inl ⟨rfl, breach, rfl⟩

omit [LT U] [DecidableLT U] in
theorem logsBreaches_checkSeconds (policy : Cost.BudgetPolicy U) (store : Cost.StoreReads U)
    (reads : List (Cost.StoreRead × Bool)) :
    LogsBreaches (Cost.checkSeconds policy store reads) := by
  rw [Cost.checkSeconds]
  split
  · exact logsBreaches_silent rfl
  · split
    · exact logsBreaches_silent rfl
    · split
      · exact logsBreaches_breach
      · exact logsBreaches_silent rfl

theorem logsBreaches_checkOrRaise (failOpen : Bool) (halted : Option Bool)
    (policy : Option (Cost.BudgetPolicy U)) (store : Cost.StoreReads U)
    (projectedTokens : Option ℤ) :
    LogsBreaches (Cost.checkOrRaise failOpen halted policy store projectedTokens) := by
  unfold Cost.checkOrRaise
  split
  · exact logsBreaches_silent rfl
  · split
    · exact logsBreaches_silent rfl
    · split
      · -- the store is unreachable: the event is of another kind
        refine Or.inr ⟨?_, Or.inr ⟨_, _, rfl⟩⟩
        rcases failOpen with _ | _
        · rfl
        · rfl
      · split
        · exact logsBreaches_breach
        · exact logsBreaches_checkSeconds ..

end Cost

section Loop

variable {lower : String → String} {policies : Loop.Policies} {order : Loop.GroupOrder}
  {op : Loop.LoopOp} {policy : Loop.LoopPolicy} {toolName : String}

theorem recordCallMemory_isSome_iff {calls : Loop.MemoryCalls} :
    (Loop.recordCallMemory op policy calls toolName).2.isSome ↔
      policy.maxCalls < (LoopStore.memory calls).held op policy toolName + 1 := by
  have hkept : (Loop.keptCalls op policy calls toolName).countP (fun c => c.1 = toolName) =
      (LoopStore.memory calls).held op policy toolName + 1 := by
    rw [Loop.keptCalls, List.countP_append, List.countP_filter, LoopStore.held]
    simp
  rw [Loop.recordCallMemory, Loop.isSome_judge, hkept]

theorem checkMemory_isSome_iff {calls : Loop.MemoryCalls} :
    (Loop.checkMemory op policy calls).isSome ↔
      ∃ name, policy.maxCalls < (LoopStore.memory calls).held op policy name := by
  have hcount : ∀ name, ((((calls (op.agentId, op.sessionId)).getD []).filter
      fun c => policy.cutoff op.now ≤ c.2).map Prod.fst).count name =
        (LoopStore.memory calls).held op policy name := by
    intro name
    rw [List.count, List.countP_map, List.countP_filter, LoopStore.held]
    refine List.countP_congr fun c _ => ?_
    simp
  rw [Loop.checkMemory, List.findSome?_isSome_iff]
  simp only [Loop.isSome_judge]
  rw [Loop.exists_mem_tools_iff]
  exact exists_congr fun name => by rw [hcount]

theorem stepMemory_isSome_iff (order : Loop.GroupOrder) {calls : Loop.MemoryCalls} :
    (Loop.stepMemory lower policies calls op).2.isSome ↔
      ∃ policy name, policies op.agentId = some policy ∧ Loop.Judged lower op name ∧
        policy.maxCalls < (LoopStore.memory calls).held op policy name +
          (Loop.recordedCall lower policies op).toList.countP fun row => row.toolName = name := by
  cases Loop.opView lower policies order op with
  | ignored hrow hmemory _ hjudged =>
      rw [hmemory]
      refine iff_of_false Bool.false_ne_true ?_
      rintro ⟨policy, name, hpolicy, hname, -⟩
      exact hjudged policy hpolicy name hname
  | recorded policy toolName hpolicy hrow hmemory _ hjudged =>
      rw [hmemory, recordCallMemory_isSome_iff, hrow]
      simp [hpolicy, hjudged]
  | checked policy hpolicy hrow hmemory _ hjudged =>
      rw [hmemory, checkMemory_isSome_iff, hrow]
      simp [hpolicy, hjudged]

/-- The row that an operation adds is in its own window. -/
theorem sessionCalls_append_recorded (order : Loop.GroupOrder) (rows : List Loop.LoopRow)
    (name : String) :
    Loop.sessionCalls (rows ++ (Loop.recordedCall lower policies op).toList) op policy name =
      Loop.sessionCalls rows op policy name +
        (Loop.recordedCall lower policies op).toList.countP fun row => row.toolName = name := by
  have hnow : policy.cutoff op.now ≤ op.now := by
    rw [Loop.LoopPolicy.cutoff]
    linarith [policy.windowSeconds.cast_nonneg (α := ℚ)]
  rw [Loop.sessionCalls, List.countP_append, Loop.sessionCalls]
  congr 1
  cases Loop.opView lower policies order op with
  | ignored hrow => rw [hrow, Option.toList_none, List.countP_nil, List.countP_nil]
  | recorded policy' tool hpolicy hrow =>
      rw [hrow]
      simp [hnow]
  | checked policy' hpolicy hrow => rw [hrow, Option.toList_none, List.countP_nil, List.countP_nil]

theorem stepPostgres_isSome_iff {rows : List Loop.LoopRow} :
    (Loop.stepPostgres lower policies order rows op).2.isSome ↔
      ∃ policy name, policies op.agentId = some policy ∧ Loop.Judged lower op name ∧
        policy.maxCalls < (LoopStore.postgres rows).held op policy name +
          (Loop.recordedCall lower policies op).toList.countP fun row => row.toolName = name := by
  rcases hpolicy : policies op.agentId with _ | policy
  · rw [(Loop.step_of_unregistered lower order (fun _ => none) rows hpolicy).2]
    simp
  · rw [Loop.stepPostgres_isSome hpolicy fun _ _ => rfl]
    simp [sessionCalls_append_recorded order, LoopStore.held]

/-- A loop is detected exactly when a judged tool goes over the limit. -/
theorem step_isSome_iff {s : LoopStore} {fate : TrackingFate} :
    (s.step lower policies order fate op).2.isSome ↔ s.Exceeds lower policies fate op := by
  rcases s with calls | rows
  · rw [LoopStore.step, LoopStore.Exceeds]
    simp [stepMemory_isSome_iff order]
  · have hanswered : (∀ rows', LoopStore.postgres rows = .postgres rows' → fate = .answered) ↔
        fate = .answered :=
      ⟨fun h => h rows rfl, fun h _ _ => h⟩
    rw [LoopStore.Exceeds, hanswered]
    cases fate with
    | answered =>
        rw [LoopStore.step]
        simp [stepPostgres_isSome_iff]
    | rolledBack => simp [LoopStore.step]
    | uncounted => simp [LoopStore.step]

end Loop

/-! ## Events and decisions -/

/-- The number of attempts to log an event of a kind. -/
def attemptsOfKind (kind : String) (events : List EventArgs) : ℕ :=
  events.countP fun a => a.kind = kind

section Run

variable {U : Type} [LT U] [DecidableLT U] {usd : U → PyValue} {float : ℤ → PyValue}
  {lower : String → String}

/-- The kinds under which the three modules log. -/
def enforcementKinds : List String :=
  ["scope.violation", "budget.exceeded", "budget.check_failed", "loop.detected"]

/-- What is logged matches what is decided, for the two modules whose kinds the report
counts. -/
structure Matches (events : List EventArgs) (decided : List Decision) : Prop where
  kinds : ∀ a ∈ events, a.kind ∈ enforcementKinds
  scope : attemptsOfKind "scope.violation" events = decided.count .scopeDenial
  budget : attemptsOfKind "budget.exceeded" events = decided.count .capBreach

theorem Matches.append {events events' : List EventArgs} {decided decided' : List Decision}
    (h : Matches events decided) (h' : Matches events' decided') :
    Matches (events ++ events') (decided ++ decided') := by
  constructor
  · intro a ha
    rcases List.mem_append.mp ha with ha | ha
    · exact h.kinds a ha
    · exact h'.kinds a ha
  · rw [List.count_append, ← h.scope, ← h'.scope]
    exact List.countP_append
  · rw [List.count_append, ← h.budget, ← h'.budget]
    exact List.countP_append

theorem matches_scope (env : Scope.CheckEnv) {agentId : String} {tool api : Option String}
    (hlogged : ∀ a ∈ scopeAttempts env agentId tool api, ∃ r, env.audit.log a = .ok r) :
    Matches (scopeAttempts env agentId tool api)
      (if IsScopeDenial (env.check agentId tool api) then some Decision.scopeDenial
        else none).toList := by
  rcases scopeAttempts_cases env agentId tool api with
    ⟨hattempts, hdenial⟩ | ⟨reason, denial, hdenial, hattempts, hcheck⟩
  · rw [hattempts, hdenial]
    exact ⟨by simp, rfl, rfl⟩
  · rw [hattempts] at hlogged
    obtain ⟨r, hr⟩ := hlogged _ (List.mem_singleton_self _)
    rw [hattempts, hcheck, deny_of_logged hr, hdenial]
    exact ⟨by simp [Scope.violationArgs, enforcementKinds], rfl, rfl⟩

omit [LT U] [DecidableLT U] in
theorem matches_cost {run : Cost.CheckRun U} (hrun : LogsBreaches run) (agentId : String)
    (sessionId : Uuid) :
    Matches (run.events.map (Cost.costArgs usd float agentId sessionId))
      (if IsCapBreach run.outcome then some Decision.capBreach else none).toList := by
  rcases hrun with ⟨hbreach, breach, hevents⟩ | ⟨hbreach, hevents | ⟨error, failOpen, hevents⟩⟩
  · rw [hbreach, hevents]
    exact ⟨by simp [Cost.costArgs, enforcementKinds], rfl, rfl⟩
  · rw [hbreach, hevents]
    exact ⟨by simp, rfl, rfl⟩
  · rw [hbreach, hevents]
    exact ⟨by simp [Cost.costArgs, enforcementKinds], rfl, rfl⟩

theorem matches_loop (detection : Option Loop.Detection) :
    Matches (detection.toList.map detectionArgs)
      (detection.map fun _ => Decision.loopDetection).toList := by
  rcases detection with _ | detection
  · exact ⟨by simp, rfl, rfl⟩
  · exact ⟨by simp [detectionArgs, enforcementKinds], rfl, rfl⟩

theorem matches_run (s : LoopStore) (c : AuditedCall U)
    (hlogged : ∀ a ∈ (c.run usd float lower s).2.1, ∃ r, c.audit.log a = .ok r) :
    Matches (c.run usd float lower s).2.1 (c.run usd float lower s).2.2.toList := by
  rcases c with ⟨audit, call⟩
  cases call with
  | scopeCheck presence policies agentId tool api =>
      exact matches_scope ⟨presence, policies, audit⟩ hlogged
  | checkOrRaise agentId sessionId failOpen halted policy store projectedTokens =>
      exact matches_cost (logsBreaches_checkOrRaise ..) agentId sessionId
  | loopCall policies order fate op => exact matches_loop _

/-- The loop module is the only one that detects loops. -/
theorem run_loopDetection_iff (s : LoopStore) (c : AuditedCall U) :
    .loopDetection ∈ (c.run usd float lower s).2.2.toList ↔
      ∃ policies order fate op, c.call = .loopCall policies order fate op ∧
        s.Exceeds lower policies fate op := by
  rcases c with ⟨audit, call⟩
  cases call with
  | scopeCheck presence policies agentId tool api =>
      simp [AuditedCall.run]
  | checkOrRaise agentId sessionId failOpen halted policy store projectedTokens =>
      simp [AuditedCall.run]
  | loopCall policies order fate op =>
      have hdetected : Decision.loopDetection ∈
          ((s.step lower policies order fate op).2.map fun _ => Decision.loopDetection).toList ↔
            (s.step lower policies order fate op).2.isSome := by
        rcases (s.step lower policies order fate op).2 with _ | detection
        · simp
        · simp
      refine hdetected.trans (step_isSome_iff.trans ?_)
      constructor
      · intro hexceeds
        exact ⟨policies, order, fate, op, rfl, hexceeds⟩
      · rintro ⟨policies', order', fate', op', heq, hexceeds⟩
        cases heq
        exact hexceeds

/-! ## The whole run -/

/-- Every attempt of the run stores the record beside it. -/
abbrev AllStored (events : List (AuditEnv × EventArgs)) (records : List LoggedRecord) : Prop :=
  List.Forall₂ (fun e r => Stores e.1 e.2 r) events records

theorem Stores.kind {env : AuditEnv} {a : EventArgs} {r : LoggedRecord}
    (h : Stores env a r) : r.base.kind = sanitizeString env.nfc a.kind maxKindLen := by
  obtain ⟨-, event, eventId, prevHash, hevent, hbuilt⟩ := h
  obtain ⟨-, rfl⟩ := EventArgs.construct_eq_some_iff.mp hevent
  exact (LoggedCall.buildRecord_kind hbuilt).1

/-- The kinds of the three modules are stored as they are. -/
theorem Stores.kind_eq {env : AuditEnv} {a : EventArgs} {r : LoggedRecord}
    (hnfc : ∀ text, isAscii text = true → env.nfc text = text) (h : Stores env a r)
    (hkind : a.kind ∈ enforcementKinds) : r.base.kind = a.kind := by
  have hplain : ∀ kind ∈ enforcementKinds, isAscii kind = true ∧
      sanitizeString id kind maxKindLen = kind := by
    decide
  obtain ⟨hascii, hsanitized⟩ := hplain a.kind hkind
  rw [h.kind, sanitizeString_of_nfc (hnfc a.kind hascii), hsanitized]

theorem ofKind_stored {kind : String} {events : List (AuditEnv × EventArgs)}
    {records : List LoggedRecord} (hstored : AllStored events records)
    (hnfc : ∀ e ∈ events, ∀ text, isAscii text = true → e.1.nfc text = text)
    (hkinds : ∀ e ∈ events, e.2.kind ∈ enforcementKinds) :
    ofKind kind (records.map eventToDict) = attemptsOfKind kind (events.map Prod.snd) := by
  induction hstored with
  | nil => rfl
  | @cons e r events records hstores _ ih =>
      have hkind : r.base.kind = e.2.kind :=
        hstores.kind_eq (hnfc e (by simp)) (hkinds e (by simp))
      have hrest := ih (fun e' he' => hnfc e' (by simp [he']))
        (fun e' he' => hkinds e' (by simp [he']))
      rw [ofKind, attemptsOfKind] at hrest ⊢
      rw [List.map_cons, List.map_cons, List.countP_cons, List.countP_cons, hrest, ← hkind]
      rfl

theorem matches_calls {s : LoopStore} {calls : List (AuditedCall U)}
    (hlogged : ∀ e ∈ attempts usd float lower s calls, ∃ r, e.1.log e.2 = .ok r) :
    Matches ((attempts usd float lower s calls).map Prod.snd)
      (decisions usd float lower s calls) := by
  induction calls generalizing s with
  | nil => exact ⟨by simp [attempts], rfl, rfl⟩
  | cons c calls ih =>
      have hfirst : ∀ a ∈ (c.run usd float lower s).2.1, ∃ r, c.audit.log a = .ok r := by
        intro a ha
        exact hlogged (c.audit, a) (List.mem_append_left _ (List.mem_map_of_mem ha))
      have hrest := ih fun e he => hlogged e (List.mem_append_right _ he)
      have hmap : ((c.run usd float lower s).2.1.map fun a => (c.audit, a)).map Prod.snd =
          (c.run usd float lower s).2.1 := by
        rw [List.map_map]
        exact List.map_id _
      rw [attempts, List.map_append, hmap, decisions]
      exact (matches_run s c hfirst).append hrest

theorem noLoops_cons {s : LoopStore} {c : AuditedCall U} {calls : List (AuditedCall U)} :
    NoLoops usd float lower s (c :: calls) ↔
      .loopDetection ∉ (c.run usd float lower s).2.2.toList ∧
        NoLoops usd float lower (c.run usd float lower s).1 calls := by
  rw [run_loopDetection_iff]
  constructor
  · intro h
    constructor
    · rintro ⟨policies, order, fate, op, hcall, hexceeds⟩
      exact h [] c calls policies order fate op rfl hcall hexceeds
    · intro before c' after policies order fate op hcalls
      exact h (c :: before) c' after policies order fate op (congrArg (c :: ·) hcalls)
  · rintro ⟨hfirst, hrest⟩ before c' after policies order fate op hcalls hcall
    rcases before with _ | ⟨c₀, before⟩
    · obtain ⟨rfl, -⟩ := List.cons.inj hcalls
      intro hexceeds
      exact hfirst ⟨policies, order, fate, op, hcall, hexceeds⟩
    · obtain ⟨rfl, htail⟩ := List.cons.inj hcalls
      exact hrest before c' after policies order fate op htail hcall

theorem noLoops_iff {s : LoopStore} {calls : List (AuditedCall U)} :
    NoLoops usd float lower s calls ↔
      .loopDetection ∉ decisions usd float lower s calls := by
  induction calls generalizing s with
  | nil => simp [NoLoops, decisions]
  | cons c calls ih => rw [noLoops_cons, ih, decisions, List.mem_append, not_or]

/-- Each attempt meets the audit module of its call. -/
theorem audit_of_mem_attempts {s : LoopStore} {calls : List (AuditedCall U)}
    {e : AuditEnv × EventArgs} (he : e ∈ attempts usd float lower s calls) :
    ∃ c ∈ calls, c.audit = e.1 := by
  induction calls generalizing s with
  | nil => cases he
  | cons c calls ih =>
      rcases List.mem_append.mp he with he | he
      · obtain ⟨a, -, rfl⟩ := List.mem_map.mp he
        exact ⟨c, List.mem_cons_self, rfl⟩
      · obtain ⟨c', hc', haudit⟩ := ih he
        exact ⟨c', List.mem_cons_of_mem c hc', haudit⟩

theorem logged_of_allStored {events : List (AuditEnv × EventArgs)}
    {records : List LoggedRecord} (hstored : AllStored events records) :
    ∀ e ∈ events, ∃ r, e.1.log e.2 = .ok r := by
  induction hstored with
  | nil => simp
  | @cons e r events records hstores _ ih =>
      intro e' he'
      rcases List.mem_cons.mp he' with rfl | he'
      · exact ⟨r, hstores.1⟩
      · exact ih e' he'

/-- For every run of the three modules whose events are all stored, the extraction over
these events, in any order, counts the scope denials, the cap breaches and the loop
detections of the run if and only if no call of the run goes over a loop limit. -/
theorem counters_eq_decisions_iff (truth : PyValue → Bool) (str : PyValue → String)
    {s : LoopStore} {calls : List (AuditedCall U)} {records : List LoggedRecord}
    {events : List EventDict}
    (hnfc : ∀ c ∈ calls, ∀ text, isAscii text = true → c.audit.nfc text = text)
    (hstored : AllStored (attempts usd float lower s calls) records)
    (hevents : events.Perm (records.map eventToDict)) :
    ((extractReportData truth str events).scopeViolations =
        (decisions usd float lower s calls).count .scopeDenial ∧
      (extractReportData truth str events).budgetViolations =
        (decisions usd float lower s calls).count .capBreach ∧
      (extractReportData truth str events).loopViolations =
        (decisions usd float lower s calls).count .loopDetection) ↔
      NoLoops usd float lower s calls := by
  have hmatches := matches_calls (logged_of_allStored hstored)
  have hcount : ∀ kind, ofKind kind events =
      attemptsOfKind kind ((attempts usd float lower s calls).map Prod.snd) := by
    intro kind
    rw [ofKind, hevents.countP_eq]
    refine ofKind_stored hstored ?_ fun e he => hmatches.kinds e.2 (List.mem_map_of_mem he)
    intro e he
    obtain ⟨c, hc, haudit⟩ := audit_of_mem_attempts he
    rw [← haudit]
    exact hnfc c hc
  -- nothing is logged under the kind that the report takes for a loop
  have hloop : (extractReportData truth str events).loopViolations = 0 := by
    rw [loopViolations_eq, hcount, attemptsOfKind, List.countP_eq_zero]
    intro a ha hkind
    have hmem := hmatches.kinds a ha
    rw [of_decide_eq_true hkind] at hmem
    revert hmem
    decide
  rw [scopeViolations_eq, budgetViolations_eq, hcount, hcount, hmatches.scope, hmatches.budget,
    hloop, noLoops_iff, ← List.count_eq_zero]
  simp [eq_comm]

end Run

/-! ## Two runs -/

/-- An event that the constructor accepts is stored, if the first insert goes through and
the session has no record yet. -/
theorem exists_stores {env : AuditEnv} {a : EventArgs} {metadata : Metadata} {eventId : Uuid}
    {now : Datetime} (haccepted : a.Accepted) (hloggable : a.Loggable env.nfc)
    (hmodel : a.model = none)
    (hmetadata : env.canonicalMetadata (a.sanitize env.nfc).metadata = some metadata)
    (hfate : env.fates.primaryRecord = .inserts eventId now none)
    (hflag : env.sessionId ∉ env.degradedStarts) (hsigner : env.keys.signer = none) :
    ∃ r, Stores env a r := by
  let L : LoggedCall := ⟨a.sanitize env.nfc, env.sessionId, env.parentId, env.createdAt⟩
  have hevent : a.construct env.nfc = some L.event :=
    EventArgs.construct_eq_some_iff.mpr ⟨haccepted, rfl⟩
  obtain ⟨r, hr⟩ := exists_buildRecord (L := L) eventId rfl hloggable hmodel hmetadata hsigner
  refine ⟨r, ?_, L.event, eventId, none, hevent, hr⟩
  rw [AuditEnv.log, hevent]
  exact LoggedCall.log_of_inserted hr hfate hflag hloggable.unreserved

theorem exists_allStored {events : List (AuditEnv × EventArgs)}
    (h : ∀ e ∈ events, ∃ r, Stores e.1 e.2 r) : ∃ records, AllStored events records := by
  induction events with
  | nil => exact ⟨[], .nil⟩
  | cons e events ih =>
      obtain ⟨r, hr⟩ := h e List.mem_cons_self
      obtain ⟨records, hrecords⟩ := ih fun e' he' => h e' (List.mem_cons_of_mem e he')
      exact ⟨r :: records, .cons hr hrecords⟩

/-- The secret's HMAC on the three events below. -/
def countersHmac : Hmac :=
  .ofTable
    [tableEntry sampleSecret
        ⟨⟨2⟩, ⟨1⟩, "worker", none, "scope.violation", none, none, none,
          [("tool", .str "delete_invoice"), ("api", .null),
            ("reason", .str "no policy registered")], none, sampleTime⟩
        0xf9d38eddf928b1238ece16058d8707f995e2cb403e7d5579289bfc452e7b83f5,
      tableEntry sampleSecret
        ⟨⟨4⟩, ⟨3⟩, "worker", none, "budget.exceeded", none, none, none,
          [("cap", .str "per_session_tokens"), ("used", .float (.fixed false [1, 5, 0] [0])),
            ("limit", .float (.fixed false [1, 0, 0] [0]))], none, sampleTime⟩
        0xb3bbedc4ef3b7972d5e969ff83c5c1ad2f5498283e9ae74f93fc2651a5870615,
      tableEntry sampleSecret
        ⟨⟨6⟩, ⟨5⟩, "worker", none, "loop.detected", none, none, none,
          [("tool_name", .str "read"), ("count", .int 3), ("window_seconds", .int 60),
            ("max_calls", .int 2), ("action", .str "log")], none, sampleTime⟩
        0x8acd55bec137684ec9731565c859830b6e81c7d5dabf4dee607edf2a12fed35c]

/-- The audit module on a store that accepts the insert. -/
def storingAudit (sessionId eventId : Uuid) : AuditEnv where
  nfc := id
  canonicalMetadata := reloadedMetadata
  keys := ⟨countersHmac, sampleSecret, none⟩
  sessionId := sessionId
  parentId := none
  createdAt := sampleTime
  fates := ⟨.raises, .inserts eventId sampleTime none, .raises, .raises⟩
  degradedStarts := ∅
  draw := ⟨eventId, sessionId, sampleTime⟩

/-- `float(n)` of a small integer. -/
def wholeFloat (n : ℤ) : PyValue :=
  .float (.fixed (n < 0) ((Nat.digits 10 n.natAbs).reverse.map (Fin.ofNat 10)) [0])

/-- A check of a tool by an agent without a policy. -/
def deniedCall : AuditedCall ℕ where
  audit := storingAudit ⟨1⟩ ⟨2⟩
  call := .scopeCheck none .empty "worker" (some "delete_invoice") none

/-- A check of a budget of one hundred tokens, with 150 used. -/
def breachCall : AuditedCall ℕ where
  audit := storingAudit ⟨3⟩ ⟨4⟩
  call := .checkOrRaise "worker" ⟨3⟩ false none
    (some ⟨⟨none, some 100, none, none, none⟩, by simp [Cost.maxTokenCap],
      Cost.le_of_unset _, Cost.le_of_unset _, .perSessionTokens, by simp [Cost.PolicyCaps.Sets]⟩)
    ⟨some (.ok (0, 150, 0, 150)), .ok (0, 150), .ok (0, 150), none, .ok none, 0⟩ none

/-- A denial and a breach, and the counters of the report.  No event is a tool call, so no
metadata are read. -/
theorem denial_and_breach_counted :
    ∃ records, AllStored (attempts (fun _ => .none) wholeFloat id (.memory fun _ => none)
        [deniedCall, breachCall]) records ∧
      let data := extractReportData (fun _ => true) (fun _ => "") (records.map eventToDict)
      data.scopeViolations = 1 ∧ data.budgetViolations = 1 ∧ data.loopViolations = 0 := by
  have hattempts : attempts (fun _ => .none) wholeFloat id (.memory fun _ => none)
      [deniedCall, breachCall] =
        [(storingAudit ⟨1⟩ ⟨2⟩, Scope.violationArgs "worker" (some "delete_invoice") none
            "no policy registered"),
          (storingAudit ⟨3⟩ ⟨4⟩, Cost.costArgs (fun _ : ℕ => .none) wholeFloat "worker" ⟨3⟩
            (.exceeded (.tokens .perSessionTokens 150 100)))] := by
    with_unfolding_all rfl
  obtain ⟨records, hstored⟩ : ∃ records, AllStored (attempts (fun _ => .none) wholeFloat id
      (.memory fun _ => none) [deniedCall, breachCall]) records := by
    apply exists_allStored
    rw [hattempts]
    intro e he
    rcases List.mem_pair.mp he with rfl | rfl
    · exact exists_stores (by decide) ⟨by decide, by decide, by decide, by decide, by decide⟩
        rfl (by with_unfolding_all rfl) rfl (by decide) rfl
    · exact exists_stores (by decide) ⟨by decide, by decide, by decide, by decide, by decide⟩
        rfl (by with_unfolding_all rfl) rfl (by decide) rfl
  have hmatches := matches_calls (logged_of_allStored hstored)
  rw [hattempts] at hmatches
  have hquiet : NoLoops (fun _ => .none) wholeFloat id (.memory fun _ => none)
      [deniedCall, breachCall] := by
    intro before c after policies order fate op hcalls hcall
    have hmem : c ∈ [deniedCall, breachCall] := by
      rw [hcalls]
      simp
    rcases List.mem_pair.mp hmem with rfl | rfl
    · cases hcall
    · cases hcall
  have hnfc : ∀ c ∈ [deniedCall, breachCall], ∀ text, isAscii text = true →
      c.audit.nfc text = text := by
    intro c hc text _
    rcases List.mem_pair.mp hc with rfl | rfl
    · rfl
    · rfl
  obtain ⟨hscope, hbudget, hloop⟩ := (counters_eq_decisions_iff (fun _ => true) (fun _ => "")
    hnfc hstored (List.Perm.refl _)).mpr hquiet
  refine ⟨records, hstored, ?_, ?_, ?_⟩
  · rw [hscope, ← hmatches.scope]
    decide
  · rw [hbudget, ← hmatches.budget]
    decide
  · rw [hloop, List.count_eq_zero]
    exact noLoops_iff.mp hquiet

/-- A policy that logs the third call within a minute. -/
def watchedPolicy : Loop.LoopPolicy where
  agentId := "worker"
  windowSeconds := 60
  maxCalls := 2
  action := .log
  agentId_length := by decide
  windowSeconds_range := Loop.minute_in_range
  maxCalls_range := Loop.pair_in_range

def readCall (now : ℚ) : AuditedCall ℕ where
  audit := storingAudit ⟨5⟩ ⟨6⟩
  call := .loopCall (Loop.registerAll [watchedPolicy]) Loop.queryOrder .answered
    ⟨"worker", ⟨5⟩, now, .recordCall "read", false⟩

/-- Three calls of one tool: a loop is detected and its event stored, and the report counts
none. -/
theorem detected_loop_not_counted :
    ∃ records, AllStored (attempts (fun _ => .none) wholeFloat id (.memory fun _ => none)
        [readCall 0, readCall 1, readCall 2]) records ∧
      (decisions (fun _ => .none) wholeFloat id (.memory fun _ => none)
        [readCall 0, readCall 1, readCall 2]).count .loopDetection = 1 ∧
      (extractReportData (fun _ => true) (fun _ => "")
        (records.map eventToDict)).loopViolations = 0 := by
  have hattempts : attempts (fun _ => .none) wholeFloat id (.memory fun _ => none)
      [readCall 0, readCall 1, readCall 2] =
        [(storingAudit ⟨5⟩ ⟨6⟩,
          detectionArgs ⟨"worker", ⟨5⟩, "read", 3, watchedPolicy⟩)] := by
    with_unfolding_all rfl
  obtain ⟨records, hstored⟩ : ∃ records, AllStored (attempts (fun _ => .none) wholeFloat id
      (.memory fun _ => none) [readCall 0, readCall 1, readCall 2]) records := by
    apply exists_allStored
    rw [hattempts]
    intro e he
    rw [List.mem_singleton.mp he]
    exact exists_stores (by decide) ⟨by decide, by decide, by decide, by decide, by decide⟩
      rfl (by with_unfolding_all rfl) rfl (by decide) rfl
  refine ⟨records, hstored, ?_, ?_⟩
  · with_unfolding_all decide
  · rw [hattempts] at hstored
    obtain ⟨r, rest, hstores, hrest, rfl⟩ := List.forall₂_cons_left_iff.mp hstored
    rw [List.forall₂_nil_left_iff.mp hrest, loopViolations_eq, ofKind]
    have hkind : r.base.kind = "loop.detected" :=
      hstores.kind_eq (fun _ _ => rfl) (by simp [detectionArgs, enforcementKinds])
    simp [eventToDict, hkind]

end AgenticGovernance.Compliance

import Mathlib
import AgenticGovernance.Support.Stamp

/-!
# Loop detection

`LoopModule` counts the calls that an agent makes to one tool on one session in a sliding
window.  Without a database it keeps a pruned list for each pair of agent and session.  With
Postgres it inserts a row for each call and counts rows, for a session and a tool, whoever
made the call.

Both backends are run on the same operations, with one reading of the clock for each
operation.  `history` is the list of all calls that were recorded, never pruned, and either
backend is described by what it counts in that list.
-/

namespace AgenticGovernance.Loop

open Support

/-! ## Policies and operations -/

inductive LoopAction where
  | log
  | raise
  deriving DecidableEq

structure LoopPolicy where
  agentId : String
  windowSeconds : ℕ
  maxCalls : ℕ
  action : LoopAction
  agentId_length : 1 ≤ agentId.length ∧ agentId.length ≤ 256
  windowSeconds_range : 1 ≤ windowSeconds ∧ windowSeconds ≤ 3600
  maxCalls_range : 2 ≤ maxCalls ∧ maxCalls ≤ 1000

/-- `self._policies` -/
abbrev Policies := String → Option LoopPolicy

def register (policies : Policies) (policy : LoopPolicy) : Policies :=
  Function.update policies policy.agentId (some policy)

def registerAll (policies : List LoopPolicy) : Policies :=
  policies.foldl register fun _ => none

inductive LoopCall where
  | recordCall (toolName : String)
  | check

/-- A call of the module.  `cleans` is the outcome of `random.randint(1, 100) == 1`. -/
structure LoopOp where
  agentId : String
  sessionId : Uuid
  now : ℚ
  call : LoopCall
  cleans : Bool

/-- What `_handle_detection` gets. -/
structure Detection where
  agentId : String
  sessionId : Uuid
  toolName : String
  count : ℕ
  policy : LoopPolicy

/-- What an operation shows: whether `loop.detected` is emitted, and whether `LoopDetected` is
raised after it. -/
structure LoopOutcome where
  emits : Bool
  raises : Bool
  deriving DecidableEq

/-- `_handle_detection` -/
def handleDetection (d : Detection) : LoopOutcome where
  emits := true
  raises := d.policy.action = .raise

/-- The outcome of an operation that may have detected a loop. -/
def outcome : Option Detection → LoopOutcome
  | some d => handleDetection d
  | none => ⟨false, false⟩

/-- `_CLEANUP_THRESHOLD_SECONDS` -/
def cleanupThresholdSeconds : ℚ := 86400

/-- The names that `record_call` does not ignore. -/
def validToolName (toolName : String) : Bool :=
  toolName ≠ "" && toolName.length ≤ 256

/-- `now - policy.window_seconds` -/
def LoopPolicy.cutoff (policy : LoopPolicy) (now : ℚ) : ℚ := now - policy.windowSeconds

/-- `if count > policy.max_calls: await self._handle_detection(...)` -/
def LoopOp.judge (op : LoopOp) (policy : LoopPolicy) (toolName : String) (count : ℕ) :
    Option Detection :=
  if policy.maxCalls < count then
    some ⟨op.agentId, op.sessionId, toolName, count, policy⟩
  else none

/-! ## In memory -/

/-- `self._calls`; an absent key is `none`. -/
abbrev MemoryCalls := String × Uuid → Option (List (String × ℚ))

/-- The last call of an entry is older than the cutoff. -/
def stale (cutoff : ℚ) (entry : Option (List (String × ℚ))) : Bool :=
  ((entry.getD []).getLast?).any fun c => c.2 < cutoff

section Memory

variable (op : LoopOp) (policy : LoopPolicy)

/-- The list of the key after the call. -/
def keptCalls (calls : MemoryCalls) (toolName : String) : List (String × ℚ) :=
  ((calls (op.agentId, op.sessionId)).getD []).filter (fun c => policy.cutoff op.now ≤ c.2) ++
    [(toolName, op.now)]

/-- `_record_call_memory` -/
def recordCallMemory (calls : MemoryCalls) (toolName : String) :
    MemoryCalls × Option Detection :=
  let key := (op.agentId, op.sessionId)
  let kept := keptCalls op policy calls toolName
  let stored := Function.update calls key (some kept)
  (fun k =>
      if k ≠ key ∧ stale (op.now - cleanupThresholdSeconds) (stored k) then none else stored k,
    op.judge policy toolName (kept.countP fun c => c.1 = toolName))

/-- `_check_memory`, which goes through the tools in the order of their first calls. -/
def checkMemory (calls : MemoryCalls) : Option Detection :=
  let tools := (((calls (op.agentId, op.sessionId)).getD []).filter
    fun c => policy.cutoff op.now ≤ c.2).map Prod.fst
  tools.eraseDups.findSome? fun toolName => op.judge policy toolName (tools.count toolName)

end Memory

/-! ## In Postgres -/

/-- A row of `governance_loop_tracking`. -/
structure LoopRow where
  sessionId : Uuid
  agentId : String
  toolName : String
  calledAt : ℚ

/-- The order in which a query without `ORDER BY` returns its groups. -/
structure GroupOrder where
  arrange : List (String × ℕ) → List (String × ℕ)
  perm : ∀ groups, (arrange groups).Perm groups

section Postgres

variable (op : LoopOp) (policy : LoopPolicy)

/-- `_record_call_postgres`, on a database that accepts every statement. -/
def recordCallPostgres (rows : List LoopRow) (toolName : String) :
    List LoopRow × Option Detection :=
  let inserted := rows ++ [⟨op.sessionId, op.agentId, toolName, op.now⟩]
  let kept :=
    if op.cleans then
      inserted.filter fun row => op.now - cleanupThresholdSeconds ≤ row.calledAt
    else inserted
  (kept, op.judge policy toolName (kept.countP fun row =>
    row.sessionId = op.sessionId && row.toolName = toolName &&
      policy.cutoff op.now ≤ row.calledAt))

/-- `_check_postgres` -/
def checkPostgres (order : GroupOrder) (rows : List LoopRow) : Option Detection :=
  let tools := (rows.filter fun row =>
    row.sessionId = op.sessionId && policy.cutoff op.now ≤ row.calledAt).map LoopRow.toolName
  let groups := (tools.eraseDups.map fun toolName => (toolName, tools.count toolName)).filter
    fun group => policy.maxCalls < group.2
  (order.arrange groups).head?.map fun group =>
    ⟨op.agentId, op.sessionId, group.1, group.2, policy⟩

end Postgres

/-! ## Runs -/

section Runs

-- `str.lower`
variable (lower : String → String) (policies : Policies) (order : GroupOrder)

/-- `record_call` and `check` without an engine. -/
def stepMemory (calls : MemoryCalls) (op : LoopOp) : MemoryCalls × Option Detection :=
  match op.call, policies op.agentId with
  | _, none => (calls, none)
  | .recordCall toolName, some policy =>
      if validToolName toolName then recordCallMemory op policy calls (lower toolName)
      else (calls, none)
  | .check, some policy => (calls, checkMemory op policy calls)

/-- `record_call` and `check` with an engine. -/
def stepPostgres (rows : List LoopRow) (op : LoopOp) : List LoopRow × Option Detection :=
  match op.call, policies op.agentId with
  | _, none => (rows, none)
  | .recordCall toolName, some policy =>
      if validToolName toolName then recordCallPostgres op policy rows (lower toolName)
      else (rows, none)
  | .check, some policy => (rows, checkPostgres op policy order rows)

def memoryAfter (ops : List LoopOp) : MemoryCalls :=
  ops.foldl (fun calls op => (stepMemory lower policies calls op).1) fun _ => none

def postgresAfter (ops : List LoopOp) : List LoopRow :=
  ops.foldl (fun rows op => (stepPostgres lower policies order rows op).1) []

/-- At every operation of the run both backends show the same. -/
def BackendsAgree (ops : List LoopOp) : Prop :=
  ∀ before op after, ops = before ++ op :: after →
    outcome (stepMemory lower policies (memoryAfter lower policies before) op).2 =
      outcome (stepPostgres lower policies order
        (postgresAfter lower policies order before) op).2

/-- The call that an operation records. -/
def recordedCall (op : LoopOp) : Option LoopRow :=
  match op.call, policies op.agentId with
  | .recordCall toolName, some _ =>
      if validToolName toolName then
        some ⟨op.sessionId, op.agentId, lower toolName, op.now⟩
      else none
  | _, _ => none

/-- All calls that were recorded, in their order. -/
def history (ops : List LoopOp) : List LoopRow := ops.filterMap (recordedCall lower policies)

/-- The tools whose calls an operation counts. -/
def Judged (op : LoopOp) (toolName : String) : Prop :=
  match op.call with
  | .recordCall called => validToolName called ∧ toolName = lower called
  | .check => True

end Runs

/-- The recent calls to a tool on the session of an operation, by its own agent. -/
def ownCalls (rows : List LoopRow) (op : LoopOp) (policy : LoopPolicy) (toolName : String) : ℕ :=
  rows.countP fun row => row.sessionId = op.sessionId && row.agentId = op.agentId &&
    row.toolName = toolName && policy.cutoff op.now ≤ row.calledAt

/-- The same, by all other agents. -/
def foreignCalls (rows : List LoopRow) (op : LoopOp) (policy : LoopPolicy) (toolName : String) :
    ℕ :=
  rows.countP fun row => row.sessionId = op.sessionId && row.agentId ≠ op.agentId &&
    row.toolName = toolName && policy.cutoff op.now ≤ row.calledAt

/-- The agent of the operation has not called any of the tools too often, but together with
the calls of other agents on the session one of them has been. -/
def ForeignCallsTip (lower : String → String) (policies : Policies) (before : List LoopOp)
    (op : LoopOp) : Prop :=
  ∃ policy, policies op.agentId = some policy ∧
    let rows := history lower policies (before ++ [op])
    (∀ toolName, Judged lower op toolName →
      ownCalls rows op policy toolName ≤ policy.maxCalls) ∧
    ∃ toolName, Judged lower op toolName ∧
      policy.maxCalls < ownCalls rows op policy toolName + foreignCalls rows op policy toolName

/-! ## What the backends keep -/

section Kept

variable {lower : String → String} {policies : Policies} {order : GroupOrder}
  {rows : List LoopRow} {clock cutoff : ℚ}

/-- The part of a list of calls from a time on. -/
def since (cutoff : ℚ) (calls : List (String × ℚ)) : List (String × ℚ) :=
  calls.filter fun c => cutoff ≤ c.2

/-- The recorded calls of an agent on a session. -/
def callsOf (rows : List LoopRow) (key : String × Uuid) : List (String × ℚ) :=
  (rows.filter fun row => row.agentId = key.1 && row.sessionId = key.2).map
    fun row => (row.toolName, row.calledAt)

/-- An entry of the dictionary has lost nothing that is still in the window. -/
structure EntryOk (rows : List LoopRow) (clock : ℚ) (policy : LoopPolicy)
    (key : String × Uuid) (calls : List (String × ℚ)) : Prop where
  sorted : calls.Pairwise fun c d => c.2 ≤ d.2
  past : ∀ c ∈ calls, c.2 ≤ clock
  recent : ∀ cutoff, policy.cutoff clock ≤ cutoff →
    since cutoff calls = since cutoff (callsOf rows key)

def MemoryOk (policies : Policies) (rows : List LoopRow) (clock : ℚ) (calls : MemoryCalls) :
    Prop :=
  ∀ key policy, policies key.1 = some policy →
    EntryOk rows clock policy key ((calls key).getD [])

/-- The table has lost nothing that is in any window. -/
def TableOk (rows : List LoopRow) (clock : ℚ) (table : List LoopRow) : Prop :=
  ∀ cutoff, clock - 3600 ≤ cutoff →
    (table.filter fun row => cutoff ≤ row.calledAt) =
      rows.filter fun row => cutoff ≤ row.calledAt

theorem LoopPolicy.cutoff_mono (policy : LoopPolicy) {now : ℚ} (h : clock ≤ now) :
    policy.cutoff clock ≤ policy.cutoff now := by
  rw [cutoff, cutoff]
  linarith

/-- No window is longer than an hour. -/
theorem LoopPolicy.hour_le_cutoff (policy : LoopPolicy) (now : ℚ) :
    now - 3600 ≤ policy.cutoff now := by
  have hwindow : (policy.windowSeconds : ℚ) ≤ 3600 := by
    exact_mod_cast policy.windowSeconds_range.2
  rw [cutoff]
  linarith

/-- What the cleanup takes is out of every window. -/
theorem LoopPolicy.cleanup_lt_cutoff (policy : LoopPolicy) (now : ℚ) :
    now - cleanupThresholdSeconds < policy.cutoff now := by
  have hhour := policy.hour_le_cutoff now
  rw [cleanupThresholdSeconds]
  linarith

theorem since_since {early late : ℚ} (h : early ≤ late) (calls : List (String × ℚ)) :
    since late (since early calls) = since late calls := by
  rw [since, since, List.filter_filter]
  refine List.filter_congr fun c _ => ?_
  by_cases hlate : late ≤ c.2
  · simp [hlate, h.trans hlate]
  · simp [hlate]

theorem since_append (calls calls' : List (String × ℚ)) :
    since cutoff (calls ++ calls') = since cutoff calls ++ since cutoff calls' :=
  List.filter_append ..

theorem callsOf_append (key : String × Uuid) (rows' : List LoopRow) :
    callsOf (rows ++ rows') key = callsOf rows key ++ callsOf rows' key := by
  rw [callsOf, List.filter_append, List.map_append]
  rfl

/-- A sorted list whose last call is before the cutoff has nothing since. -/
theorem since_eq_nil_of_stale {calls : List (String × ℚ)} {early : ℚ}
    (hsorted : calls.Pairwise fun c d => c.2 ≤ d.2) (hstale : stale early (some calls))
    (hcutoff : early < cutoff) : since cutoff calls = [] := by
  rw [stale, Option.getD_some, Option.any_eq_true] at hstale
  obtain ⟨last, hlast, hold⟩ := hstale
  rw [decide_eq_true_eq] at hold
  obtain ⟨init, rfl⟩ := List.getLast?_eq_some_iff.mp hlast
  rw [List.pairwise_append] at hsorted
  rw [since, List.filter_eq_nil_iff]
  intro c hc
  have hle : c.2 ≤ last.2 := by
    rcases List.mem_append.mp hc with hc | hc
    · exact hsorted.2.2 c hc last (List.mem_singleton_self last)
    · rw [List.mem_singleton.mp hc]
  rw [decide_eq_true_eq]
  linarith

theorem EntryOk.mono {policy : LoopPolicy} {key : String × Uuid} {calls : List (String × ℚ)}
    {now : ℚ} (h : EntryOk rows clock policy key calls) (hclock : clock ≤ now) :
    EntryOk rows now policy key calls :=
  ⟨h.sorted, fun c hc => (h.past c hc).trans hclock,
    fun _ hcutoff => h.recent _ ((policy.cutoff_mono hclock).trans hcutoff)⟩

theorem MemoryOk.mono {calls : MemoryCalls} {now : ℚ} (h : MemoryOk policies rows clock calls)
    (hclock : clock ≤ now) : MemoryOk policies rows now calls :=
  fun key policy hpolicy => (h key policy hpolicy).mono hclock

theorem TableOk.mono {table : List LoopRow} {now : ℚ} (h : TableOk rows clock table)
    (hclock : clock ≤ now) : TableOk rows now table :=
  fun cutoff hcutoff => h cutoff (by linarith)

/-- The entry of the calling agent is pruned and extended. -/
theorem EntryOk.record {op : LoopOp} {policy : LoopPolicy} {calls : MemoryCalls}
    {toolName : String}
    (h : EntryOk rows op.now policy (op.agentId, op.sessionId)
      ((calls (op.agentId, op.sessionId)).getD [])) :
    EntryOk (rows ++ [⟨op.sessionId, op.agentId, toolName, op.now⟩]) op.now policy
      (op.agentId, op.sessionId) (keptCalls op policy calls toolName) := by
  have hpruned : ∀ c ∈ ((calls (op.agentId, op.sessionId)).getD []).filter
      (fun c => policy.cutoff op.now ≤ c.2), c.2 ≤ op.now :=
    fun c hc => h.past c (List.mem_filter.mp hc).1
  constructor
  · rw [keptCalls, List.pairwise_append]
    refine ⟨h.sorted.filter _, List.pairwise_singleton _ _, ?_⟩
    intro c hc d hd
    rw [List.mem_singleton.mp hd]
    exact hpruned c hc
  · intro c hc
    rcases List.mem_append.mp hc with hc | hc
    · exact hpruned c hc
    · rw [List.mem_singleton.mp hc]
  · intro cutoff hcutoff
    have hown : callsOf [⟨op.sessionId, op.agentId, toolName, op.now⟩]
        (op.agentId, op.sessionId) = [(toolName, op.now)] := by
      simp [callsOf]
    rw [callsOf_append, hown, since_append, ← h.recent cutoff hcutoff, keptCalls, since_append]
    congr 1
    exact since_since hcutoff _

/-- All other entries are as before, or empty. -/
theorem EntryOk.frame {op : LoopOp} {policy : LoopPolicy} {key : String × Uuid}
    {calls : Option (List (String × ℚ))} {toolName : String}
    (h : EntryOk rows op.now policy key (calls.getD [])) (hkey : key ≠ (op.agentId, op.sessionId)) :
    EntryOk (rows ++ [⟨op.sessionId, op.agentId, toolName, op.now⟩]) op.now policy key
      ((if stale (op.now - cleanupThresholdSeconds) calls then none else calls).getD []) := by
  have hother : callsOf [⟨op.sessionId, op.agentId, toolName, op.now⟩] key = [] := by
    have hne : ¬ (op.agentId = key.1 ∧ op.sessionId = key.2) := fun ⟨hagent, hsession⟩ =>
      hkey (Prod.ext hagent.symm hsession.symm)
    simp [callsOf, List.filter_cons]
    tauto
  by_cases hstale : stale (op.now - cleanupThresholdSeconds) calls
  · rw [if_pos hstale]
    refine ⟨List.Pairwise.nil, by rintro c ⟨⟩, ?_⟩
    intro cutoff hcutoff
    rw [callsOf_append, hother, List.append_nil, ← h.recent cutoff hcutoff]
    have hgone : since cutoff (calls.getD []) = [] := since_eq_nil_of_stale h.sorted hstale
      ((policy.cleanup_lt_cutoff op.now).trans_le hcutoff)
    rw [hgone]
    rfl
  · rw [if_neg hstale]
    refine ⟨h.sorted, h.past, ?_⟩
    intro cutoff hcutoff
    rw [callsOf_append, hother, List.append_nil]
    exact h.recent cutoff hcutoff

/-- The row that an operation adds to the history. -/
theorem history_append (before : List LoopOp) (op : LoopOp) :
    history lower policies (before ++ [op]) =
      history lower policies before ++ (recordedCall lower policies op).toList := by
  rw [history, List.filterMap_append]
  rcases hrow : recordedCall lower policies op with _ | row
  · rw [List.filterMap_cons_none hrow]
    rfl
  · rw [List.filterMap_cons_some hrow]
    rfl

/-- What an operation does to either backend. -/
inductive OpView (lower : String → String) (policies : Policies) (order : GroupOrder)
    (op : LoopOp) : Prop
  /-- the agent has no policy, or the name of the tool is refused -/
  | ignored (hrow : recordedCall lower policies op = none)
      (hmemory : ∀ calls, stepMemory lower policies calls op = (calls, none))
      (hpostgres : ∀ table, stepPostgres lower policies order table op = (table, none))
      (hjudged : ∀ policy, policies op.agentId = some policy →
        ∀ toolName, ¬ Judged lower op toolName)
  | recorded (policy : LoopPolicy) (toolName : String)
      (hpolicy : policies op.agentId = some policy)
      (hrow : recordedCall lower policies op =
        some ⟨op.sessionId, op.agentId, toolName, op.now⟩)
      (hmemory : ∀ calls, stepMemory lower policies calls op =
        recordCallMemory op policy calls toolName)
      (hpostgres : ∀ table, stepPostgres lower policies order table op =
        recordCallPostgres op policy table toolName)
      (hjudged : ∀ name, Judged lower op name ↔ name = toolName)
  | checked (policy : LoopPolicy) (hpolicy : policies op.agentId = some policy)
      (hrow : recordedCall lower policies op = none)
      (hmemory : ∀ calls, stepMemory lower policies calls op =
        (calls, checkMemory op policy calls))
      (hpostgres : ∀ table, stepPostgres lower policies order table op =
        (table, checkPostgres op policy order table))
      (hjudged : ∀ name, Judged lower op name)

theorem opView (lower : String → String) (policies : Policies) (order : GroupOrder)
    (op : LoopOp) : OpView lower policies order op := by
  rcases hpolicy : policies op.agentId with _ | policy
  · refine .ignored ?_ (fun calls => ?_) (fun table => ?_) ?_
    · rw [recordedCall, hpolicy]
      rcases op.call with toolName | -
      · rfl
      · rfl
    · rw [stepMemory, hpolicy]
    · rw [stepPostgres, hpolicy]
    · intro policy hsome
      rw [hpolicy] at hsome
      cases hsome
  rcases hcall : op.call with toolName | -
  · by_cases hvalid : validToolName toolName
    · refine .recorded policy (lower toolName) hpolicy ?_ (fun calls => ?_) (fun table => ?_) ?_
      · rw [recordedCall, hcall, hpolicy]
        exact if_pos hvalid
      · rw [stepMemory, hcall, hpolicy]
        exact if_pos hvalid
      · rw [stepPostgres, hcall, hpolicy]
        exact if_pos hvalid
      · intro name
        rw [Judged, hcall]
        exact and_iff_right hvalid
    · refine .ignored ?_ (fun calls => ?_) (fun table => ?_) ?_
      · rw [recordedCall, hcall, hpolicy]
        exact if_neg hvalid
      · rw [stepMemory, hcall, hpolicy]
        exact if_neg hvalid
      · rw [stepPostgres, hcall, hpolicy]
        exact if_neg hvalid
      · intro policy' _ name hjudged
        rw [Judged, hcall] at hjudged
        exact hvalid hjudged.1
  · refine .checked policy hpolicy ?_ (fun calls => ?_) (fun table => ?_) (fun name => ?_)
    · rw [recordedCall, hcall]
    · rw [stepMemory, hcall, hpolicy]
    · rw [stepPostgres, hcall, hpolicy]
    · rw [Judged, hcall]
      trivial

/-- A call in memory. -/
theorem MemoryOk.record {op : LoopOp} {calls : MemoryCalls} {policy : LoopPolicy}
    {toolName : String} (hpolicy : policies op.agentId = some policy)
    (h : MemoryOk policies rows op.now calls) :
    MemoryOk policies (rows ++ [⟨op.sessionId, op.agentId, toolName, op.now⟩]) op.now
      (recordCallMemory op policy calls toolName).1 := by
  intro key policy' hpolicy'
  by_cases hkey : key = (op.agentId, op.sessionId)
  · subst hkey
    obtain rfl : policy = policy' := Option.some.inj (hpolicy.symm.trans hpolicy')
    have hentry : ((recordCallMemory op policy calls toolName).1
        (op.agentId, op.sessionId)).getD [] = keptCalls op policy calls toolName := by
      simp [recordCallMemory]
    rw [hentry]
    exact (h _ policy hpolicy').record
  · have hentry : (recordCallMemory op policy calls toolName).1 key =
        if stale (op.now - cleanupThresholdSeconds) (calls key) then none else calls key := by
      simp [recordCallMemory, hkey]
    rw [hentry]
    exact (h key policy' hpolicy').frame hkey

/-- A call in Postgres. -/
theorem TableOk.record {op : LoopOp} {table : List LoopRow} {policy : LoopPolicy}
    {toolName : String} (h : TableOk rows op.now table) :
    TableOk (rows ++ [⟨op.sessionId, op.agentId, toolName, op.now⟩]) op.now
      (recordCallPostgres op policy table toolName).1 := by
  intro cutoff hcutoff
  rw [List.filter_append, ← h cutoff hcutoff, ← List.filter_append, recordCallPostgres]
  by_cases hcleans : op.cleans
  · rw [if_pos hcleans, List.filter_filter]
    refine List.filter_congr fun row _ => ?_
    by_cases hlate : cutoff ≤ row.calledAt
    · have hkept : op.now - cleanupThresholdSeconds ≤ row.calledAt := by
        rw [cleanupThresholdSeconds]
        linarith
      simp [hlate, hkept]
    · simp [hlate]
  · rw [if_neg hcleans]

/-- One operation in memory. -/
theorem MemoryOk.step (order : GroupOrder) {op : LoopOp} {calls : MemoryCalls}
    (h : MemoryOk policies rows op.now calls) :
    MemoryOk policies (rows ++ (recordedCall lower policies op).toList) op.now
      (stepMemory lower policies calls op).1 := by
  cases opView lower policies order op with
  | ignored hrow hmemory =>
      rw [hrow, hmemory, Option.toList_none, List.append_nil]
      exact h
  | recorded policy toolName hpolicy hrow hmemory =>
      rw [hrow, hmemory]
      exact h.record hpolicy
  | checked policy hpolicy hrow hmemory =>
      rw [hrow, hmemory, Option.toList_none, List.append_nil]
      exact h

/-- One operation in Postgres. -/
theorem TableOk.step {op : LoopOp} {table : List LoopRow} (h : TableOk rows op.now table) :
    TableOk (rows ++ (recordedCall lower policies op).toList) op.now
      (stepPostgres lower policies order table op).1 := by
  cases opView lower policies order op with
  | ignored hrow _ hpostgres =>
      rw [hrow, hpostgres, Option.toList_none, List.append_nil]
      exact h
  | recorded policy toolName hpolicy hrow _ hpostgres =>
      rw [hrow, hpostgres]
      exact h.record
  | checked policy hpolicy hrow _ hpostgres =>
      rw [hrow, hpostgres, Option.toList_none, List.append_nil]
      exact h

/-- The invariants of both backends after a run. -/
theorem backends_ok (lower : String → String) (policies : Policies) (order : GroupOrder)
    {ops : List LoopOp} (hclock : ops.Pairwise fun p q => p.now ≤ q.now)
    (hpast : ∀ op ∈ ops, op.now ≤ clock) :
    MemoryOk policies (history lower policies ops) clock (memoryAfter lower policies ops) ∧
      TableOk (history lower policies ops) clock (postgresAfter lower policies order ops) := by
  induction ops using List.reverseRecOn generalizing clock with
  | nil =>
      refine ⟨?_, fun _ _ => rfl⟩
      intro key policy _
      exact ⟨List.Pairwise.nil, by rintro c ⟨⟩, fun _ _ => rfl⟩
  | append_singleton before op ih =>
      rw [List.pairwise_append] at hclock
      have hbefore : ∀ p ∈ before, p.now ≤ op.now :=
        fun p hp => hclock.2.2 p hp op (List.mem_singleton_self op)
      obtain ⟨hmemory, htable⟩ := ih hclock.1 hbefore
      have hnow : op.now ≤ clock := hpast op (by simp)
      rw [history_append, memoryAfter, postgresAfter, List.foldl_append, List.foldl_append]
      exact ⟨(hmemory.step order).mono hnow, htable.step.mono hnow⟩

end Kept

/-! ## What the backends count -/

section Counts

variable {lower : String → String} {policies : Policies} {order : GroupOrder}
  {rows table : List LoopRow} {op : LoopOp} {policy : LoopPolicy} {toolName : String}

/-- The recent calls to a tool on the session of an operation. -/
def sessionCalls (rows : List LoopRow) (op : LoopOp) (policy : LoopPolicy) (toolName : String) :
    ℕ :=
  rows.countP fun row => row.sessionId = op.sessionId && row.toolName = toolName &&
    policy.cutoff op.now ≤ row.calledAt

theorem sessionCalls_eq_add : sessionCalls rows op policy toolName =
    ownCalls rows op policy toolName + foreignCalls rows op policy toolName := by
  rw [sessionCalls, List.countP_eq_countP_filter_add _ _ fun row => row.agentId = op.agentId,
    List.countP_filter, List.countP_filter, ownCalls, foreignCalls]
  congr 1
  · refine List.countP_congr fun row _ => ?_
    simp only [Bool.and_eq_true, decide_eq_true_eq]
    tauto
  · refine List.countP_congr fun row _ => ?_
    simp only [Bool.and_eq_true, Bool.not_eq_true', decide_eq_true_eq, decide_eq_false_iff_not]
    tauto

theorem countP_since (cutoff : ℚ) (key : String × Uuid) :
    (since cutoff (callsOf rows key)).countP (fun c => c.1 = toolName) =
      rows.countP fun row => row.sessionId = key.2 && row.agentId = key.1 &&
        row.toolName = toolName && cutoff ≤ row.calledAt := by
  rw [since, callsOf, List.countP_filter, List.countP_map, List.countP_filter]
  refine List.countP_congr fun row _ => ?_
  simp only [Function.comp_apply, Bool.and_eq_true, decide_eq_true_eq]
  tauto

theorem TableOk.sessionCalls_eq (h : TableOk rows op.now table) :
    sessionCalls table op policy toolName = sessionCalls rows op policy toolName := by
  have hsplit : ∀ l : List LoopRow, sessionCalls l op policy toolName =
      (l.filter fun row => policy.cutoff op.now ≤ row.calledAt).countP fun row =>
        row.sessionId = op.sessionId && row.toolName = toolName := by
    intro l
    rw [sessionCalls, List.countP_filter]
  rw [hsplit, hsplit, h _ (policy.hour_le_cutoff op.now)]

theorem isSome_judge {count : ℕ} :
    (op.judge policy toolName count).isSome ↔ policy.maxCalls < count := by
  rw [LoopOp.judge]
  by_cases hover : policy.maxCalls < count
  · simp [hover]
  · simp [hover]

theorem judge_policy {count : ℕ} {d : Detection} (h : op.judge policy toolName count = some d) :
    d.policy = policy := by
  rw [LoopOp.judge] at h
  split at h
  · rw [← Option.some.inj h]
  · cases h

/-- The tools that are counted too often are among those that were called. -/
theorem exists_mem_tools_iff {tools : List String} :
    (∃ name ∈ tools.eraseDups, policy.maxCalls < tools.count name) ↔
      ∃ name, policy.maxCalls < tools.count name := by
  constructor
  · rintro ⟨name, -, hover⟩
    exact ⟨name, hover⟩
  · rintro ⟨name, hover⟩
    exact ⟨name, List.mem_eraseDups.mpr (List.count_pos_iff.mp (by omega)), hover⟩

theorem recordCallMemory_isSome {calls : MemoryCalls}
    (hpolicy : policies op.agentId = some policy) (h : MemoryOk policies rows op.now calls) :
    (recordCallMemory op policy calls toolName).2.isSome ↔
      policy.maxCalls < ownCalls (rows ++ [⟨op.sessionId, op.agentId, toolName, op.now⟩]) op
        policy toolName := by
  have hentry : EntryOk (rows ++ [⟨op.sessionId, op.agentId, toolName, op.now⟩]) op.now policy
      (op.agentId, op.sessionId) (keptCalls op policy calls toolName) :=
    (h (op.agentId, op.sessionId) policy hpolicy).record
  have hkept : since (policy.cutoff op.now) (keptCalls op policy calls toolName) =
      keptCalls op policy calls toolName := by
    have hnow : policy.cutoff op.now ≤ op.now := by
      rw [LoopPolicy.cutoff]
      linarith [policy.windowSeconds.cast_nonneg (α := ℚ)]
    rw [keptCalls, since_append]
    congr 1
    · exact since_since le_rfl _
    · simp [since, hnow]
  rw [recordCallMemory, isSome_judge, ← hkept, hentry.recent _ le_rfl, countP_since, ownCalls]

theorem checkMemory_isSome {calls : MemoryCalls}
    (hpolicy : policies op.agentId = some policy) (h : MemoryOk policies rows op.now calls) :
    (checkMemory op policy calls).isSome ↔
      ∃ name, policy.maxCalls < ownCalls rows op policy name := by
  have hentry := h (op.agentId, op.sessionId) policy hpolicy
  have hcount : ∀ name, ((since (policy.cutoff op.now)
      ((calls (op.agentId, op.sessionId)).getD [])).map Prod.fst).count name =
        ownCalls rows op policy name := by
    intro name
    rw [hentry.recent _ le_rfl, List.count, List.countP_map, ownCalls, ← countP_since _
      (op.agentId, op.sessionId)]
    rfl
  rw [checkMemory, List.findSome?_isSome_iff]
  simp only [isSome_judge]
  rw [exists_mem_tools_iff]
  refine exists_congr fun name => ?_
  rw [← hcount]
  rfl

theorem recordCallPostgres_isSome (h : TableOk rows op.now table) :
    (recordCallPostgres op policy table toolName).2.isSome ↔
      policy.maxCalls < sessionCalls (rows ++ [⟨op.sessionId, op.agentId, toolName, op.now⟩]) op
        policy toolName := by
  have htable : TableOk (rows ++ [⟨op.sessionId, op.agentId, toolName, op.now⟩]) op.now
      (recordCallPostgres op policy table toolName).1 := h.record
  rw [← htable.sessionCalls_eq]
  exact isSome_judge

theorem checkPostgres_isSome (h : TableOk rows op.now table) :
    (checkPostgres op policy order table).isSome ↔
      ∃ name, policy.maxCalls < sessionCalls rows op policy name := by
  have hcount : ∀ name, ((table.filter fun row => row.sessionId = op.sessionId &&
      policy.cutoff op.now ≤ row.calledAt).map LoopRow.toolName).count name =
        sessionCalls rows op policy name := by
    intro name
    rw [← h.sessionCalls_eq, List.count, List.countP_map, List.countP_filter, sessionCalls]
    refine List.countP_congr fun row _ => ?_
    simp only [Function.comp_apply, Bool.and_eq_true, beq_iff_eq, decide_eq_true_eq]
    tauto
  have harranged : ∀ groups : List (String × ℕ),
      (order.arrange groups).head?.isSome ↔ groups ≠ [] := by
    intro groups
    rw [List.isSome_head?, ne_eq, ne_eq, ← List.length_eq_zero_iff,
      (order.perm groups).length_eq, List.length_eq_zero_iff]
  rw [checkPostgres, Option.isSome_map, harranged]
  constructor
  · intro hne
    obtain ⟨group, hgroup⟩ := List.exists_mem_of_ne_nil _ hne
    obtain ⟨hmem, hover⟩ := List.mem_filter.mp hgroup
    obtain ⟨name, -, rfl⟩ := List.mem_map.mp hmem
    refine ⟨name, ?_⟩
    rw [← hcount]
    simpa using hover
  · rintro ⟨name, hover⟩
    rw [← hcount] at hover
    obtain ⟨name', hmem, hover'⟩ := exists_mem_tools_iff.mpr ⟨name, hover⟩
    exact List.ne_nil_of_mem
      (List.mem_filter.mpr ⟨List.mem_map_of_mem hmem, by simpa using hover'⟩)

/-- In memory, the calls of the agent itself count. -/
theorem stepMemory_isSome (order : GroupOrder) {calls : MemoryCalls}
    (hpolicy : policies op.agentId = some policy) (h : MemoryOk policies rows op.now calls) :
    (stepMemory lower policies calls op).2.isSome ↔
      ∃ name, Judged lower op name ∧ policy.maxCalls <
        ownCalls (rows ++ (recordedCall lower policies op).toList) op policy name := by
  cases opView lower policies order op with
  | ignored hrow hmemory _ hjudged =>
      rw [hmemory]
      refine iff_of_false Bool.false_ne_true ?_
      rintro ⟨name, hname, -⟩
      exact hjudged policy hpolicy name hname
  | recorded policy' toolName hpolicy' hrow hmemory _ hjudged =>
      obtain rfl := Option.some.inj (hpolicy.symm.trans hpolicy')
      rw [hmemory, hrow, recordCallMemory_isSome hpolicy h]
      simp [hjudged]
  | checked policy' hpolicy' hrow hmemory _ hjudged =>
      obtain rfl := Option.some.inj (hpolicy.symm.trans hpolicy')
      rw [hmemory, hrow, Option.toList_none, List.append_nil, checkMemory_isSome hpolicy h]
      simp [hjudged]

/-- In Postgres, the calls of all agents on the session count. -/
theorem stepPostgres_isSome (hpolicy : policies op.agentId = some policy)
    (h : TableOk rows op.now table) :
    (stepPostgres lower policies order table op).2.isSome ↔
      ∃ name, Judged lower op name ∧ policy.maxCalls <
        sessionCalls (rows ++ (recordedCall lower policies op).toList) op policy name := by
  cases opView lower policies order op with
  | ignored hrow _ hpostgres hjudged =>
      rw [hpostgres]
      refine iff_of_false Bool.false_ne_true ?_
      rintro ⟨name, hname, -⟩
      exact hjudged policy hpolicy name hname
  | recorded policy' toolName hpolicy' hrow _ hpostgres hjudged =>
      obtain rfl := Option.some.inj (hpolicy.symm.trans hpolicy')
      rw [hpostgres, hrow, recordCallPostgres_isSome h]
      simp [hjudged]
  | checked policy' hpolicy' hrow _ hpostgres hjudged =>
      obtain rfl := Option.some.inj (hpolicy.symm.trans hpolicy')
      rw [hpostgres, hrow, Option.toList_none, List.append_nil, checkPostgres_isSome h]
      simp [hjudged]

/-- A detection is handled by the policy of the calling agent. -/
theorem step_policy (lower : String → String) (order : GroupOrder) (calls : MemoryCalls)
    (table : List LoopRow) (hpolicy : policies op.agentId = some policy) :
    (∀ d, (stepMemory lower policies calls op).2 = some d → d.policy = policy) ∧
      ∀ d, (stepPostgres lower policies order table op).2 = some d → d.policy = policy := by
  cases opView lower policies order op with
  | ignored hrow hmemory hpostgres =>
      rw [hmemory, hpostgres]
      exact ⟨by rintro d ⟨⟩, by rintro d ⟨⟩⟩
  | recorded policy' toolName hpolicy' hrow hmemory hpostgres =>
      obtain rfl := Option.some.inj (hpolicy.symm.trans hpolicy')
      rw [hmemory, hpostgres]
      exact ⟨fun d => judge_policy, fun d => judge_policy⟩
  | checked policy' hpolicy' hrow hmemory hpostgres =>
      obtain rfl := Option.some.inj (hpolicy.symm.trans hpolicy')
      rw [hmemory, hpostgres]
      constructor
      · intro d hd
        obtain ⟨name, -, hname⟩ := List.exists_of_findSome?_eq_some hd
        exact judge_policy hname
      · intro d hd
        obtain ⟨group, -, rfl⟩ := Option.map_eq_some_iff.mp hd
        rfl

/-- Without a policy neither backend detects anything. -/
theorem step_of_unregistered (lower : String → String) (order : GroupOrder)
    (calls : MemoryCalls) (table : List LoopRow) (hpolicy : policies op.agentId = none) :
    (stepMemory lower policies calls op).2 = none ∧
      (stepPostgres lower policies order table op).2 = none := by
  rw [stepMemory, stepPostgres, hpolicy]
  exact ⟨rfl, rfl⟩

theorem outcome_eq_iff {x y : Option Detection} (hx : ∀ d, x = some d → d.policy = policy)
    (hy : ∀ d, y = some d → d.policy = policy) :
    outcome x = outcome y ↔ (x.isSome ↔ y.isSome) := by
  rcases x with _ | d
  · rcases y with _ | e
    · simp
    · simp [outcome, handleDetection]
  · rcases y with _ | e
    · simp [outcome, handleDetection]
    · simp [outcome, handleDetection, hx d rfl, hy e rfl]

end Counts

/-! ## Agreement -/

theorem recordedCall_eq_some {lower : String → String} {policies : Policies} {op : LoopOp}
    {row : LoopRow} (h : recordedCall lower policies op = some row) :
    row.sessionId = op.sessionId ∧ row.agentId = op.agentId := by
  rw [recordedCall] at h
  split at h
  · split at h
    · rw [← Option.some.inj h]
      exact ⟨rfl, rfl⟩
    · cases h
  · cases h

/-- Agents that keep their sessions to themselves are never tipped. -/
theorem not_tip_of_private {lower : String → String} {policies : Policies}
    {before : List LoopOp} {op : LoopOp}
    (hprivate : ∀ p ∈ before, p.sessionId = op.sessionId → p.agentId = op.agentId) :
    ¬ ForeignCallsTip lower policies before op := by
  rintro ⟨policy, -, hown, name, hname, hover⟩
  have hnone : foreignCalls (history lower policies (before ++ [op])) op policy name = 0 := by
    rw [foreignCalls, List.countP_eq_zero]
    intro row hrow hforeign
    simp only [Bool.and_eq_true, decide_eq_true_eq] at hforeign
    obtain ⟨p, hp, hrecorded⟩ := List.mem_filterMap.mp hrow
    obtain ⟨hsession, hagent⟩ := recordedCall_eq_some hrecorded
    rcases List.mem_append.mp hp with hp | hp
    · have hsame := hprivate p hp (hsession.symm.trans hforeign.1.1.1)
      exact hforeign.1.1.2 (hagent.trans hsame)
    · rw [List.mem_singleton.mp hp] at hagent
      exact hforeign.1.1.2 hagent
  have hle := hown name hname
  omega

/-- For every set of policies, whichever rows the cleanup takes and in whatever order groups
come, the backends detect loops at the same operations if and only if the calls of other
agents on the session never tip the count of an agent that has not looped itself. -/
theorem backends_agree_iff (lower : String → String) (policies : List LoopPolicy)
    (order : GroupOrder) {ops : List LoopOp}
    (hclock : ops.Pairwise fun p q => p.now ≤ q.now) :
    BackendsAgree lower (registerAll policies) order ops ↔
      ∀ before op after, ops = before ++ op :: after →
        ¬ ForeignCallsTip lower (registerAll policies) before op := by
  refine forall_congr' fun before => forall_congr' fun op => forall_congr' fun after =>
    forall_congr' fun hops => ?_
  have hprefix : (before ++ [op]).Pairwise fun p q => p.now ≤ q.now := by
    rw [hops, ← List.singleton_append, ← List.append_assoc] at hclock
    exact hclock.sublist (List.sublist_append_left _ _)
  rw [List.pairwise_append] at hprefix
  obtain ⟨hmemory, htable⟩ := backends_ok lower (registerAll policies) order hprefix.1
    fun p hp => hprefix.2.2 p hp op (List.mem_singleton_self op)
  rcases hpolicy : registerAll policies op.agentId with _ | policy
  · obtain ⟨hleft, hright⟩ := step_of_unregistered lower order
      (memoryAfter lower (registerAll policies) before)
      (postgresAfter lower (registerAll policies) order before) hpolicy
    refine iff_of_true ?_ ?_
    · rw [hleft, hright]
    · rintro ⟨policy, hsome, -⟩
      rw [hpolicy] at hsome
      cases hsome
  · obtain ⟨hleft, hright⟩ := step_policy lower order
      (memoryAfter lower (registerAll policies) before)
      (postgresAfter lower (registerAll policies) order before) hpolicy
    rw [outcome_eq_iff hleft hright, stepMemory_isSome order hpolicy hmemory,
      stepPostgres_isSome hpolicy htable, ← history_append]
    simp only [sessionCalls_eq_add]
    constructor
    · rintro hsame ⟨policy', hpolicy', hown, hboth⟩
      obtain rfl := Option.some.inj (hpolicy.symm.trans hpolicy')
      obtain ⟨name, hname, hover⟩ := hsame.mpr hboth
      exact absurd hover (not_lt.mpr (hown name hname))
    · intro htip
      constructor
      · rintro ⟨name, hname, hover⟩
        exact ⟨name, hname, by omega⟩
      · intro hboth
        by_contra hnone
        refine htip ⟨policy, hpolicy, fun name hname => ?_, hboth⟩
        by_contra hover
        exact hnone ⟨name, hname, not_le.mp hover⟩

/-! ## Two agents on one session -/

theorem minute_in_range : 1 ≤ 60 ∧ 60 ≤ 3600 := by decide

theorem pair_in_range : 2 ≤ 2 ∧ 2 ≤ 1000 := by decide

/-- Two calls in a minute are allowed. -/
def pairPolicy (agentId : String)
    (h : 1 ≤ agentId.length ∧ agentId.length ≤ 256) : LoopPolicy where
  agentId := agentId
  windowSeconds := 60
  maxCalls := 2
  action := .raise
  agentId_length := h
  windowSeconds_range := minute_in_range
  maxCalls_range := pair_in_range

def readOp (agentId : String) (now : ℚ) : LoopOp := ⟨agentId, ⟨1⟩, now, .recordCall "read", false⟩

def queryOrder : GroupOrder := ⟨id, fun _ => List.Perm.refl _⟩

/-- One agent that loops on its own session. -/
theorem looping_agent_agrees :
    ([readOp "a" 0, readOp "a" 1, readOp "a" 2].Pairwise fun p q => p.now ≤ q.now) ∧
      BackendsAgree id (registerAll [pairPolicy "a" (by decide)]) queryOrder
        [readOp "a" 0, readOp "a" 1, readOp "a" 2] := by
  have hclock : [readOp "a" 0, readOp "a" 1, readOp "a" 2].Pairwise fun p q => p.now ≤ q.now := by
    simp [readOp]
  refine ⟨hclock, (backends_agree_iff id [pairPolicy "a" (by decide)] queryOrder hclock).mpr ?_⟩
  intro before op after hops
  have hagent : ∀ p ∈ before ++ op :: after, p.agentId = "a" := by
    rw [← hops]
    simp [readOp]
  refine not_tip_of_private fun p hp _ => ?_
  rw [hagent p (by simp [hp]), hagent op (by simp)]

/-- The second agent makes one call, the third on the session. -/
theorem shared_session_disagrees :
    ¬ BackendsAgree id (registerAll [pairPolicy "a" (by decide), pairPolicy "b" (by decide)])
      queryOrder [readOp "a" 0, readOp "a" 1, readOp "b" 2] := by
  intro h
  have hthird := h [readOp "a" 0, readOp "a" 1] (readOp "b" 2) [] rfl
  revert hthird
  decide +kernel

end AgenticGovernance.Loop

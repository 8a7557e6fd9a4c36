import Mathlib
import AgenticGovernance.Loop.Detect

/-!
# The sliding window in memory

Without a database the module keeps only what is in the window of the last call of a key, and
drops the keys that nobody has called for a day.  Here its detections are compared with the
calls that were ever recorded, and with a module that never drops a call.
-/

namespace AgenticGovernance.Loop

open Support

/-! ## Without pruning -/

section Unpruned

variable (op : LoopOp) (policy : LoopPolicy)

/-- `_record_call_memory` without the pruning and without the cleanup. -/
def recordCallUnpruned (calls : MemoryCalls) (toolName : String) :
    MemoryCalls × Option Detection :=
  let key := (op.agentId, op.sessionId)
  let all := (calls key).getD [] ++ [(toolName, op.now)]
  (Function.update calls key (some all),
    op.judge policy toolName
      ((since (policy.cutoff op.now) all).countP fun c => c.1 = toolName))

variable (lower : String → String) (policies : Policies)

def stepUnpruned (calls : MemoryCalls) (op : LoopOp) : MemoryCalls × Option Detection :=
  match op.call, policies op.agentId with
  | _, none => (calls, none)
  | .recordCall toolName, some policy =>
      if validToolName toolName then recordCallUnpruned op policy calls (lower toolName)
      else (calls, none)
  | .check, some policy => (calls, checkMemory op policy calls)

def unprunedAfter (ops : List LoopOp) : MemoryCalls :=
  ops.foldl (fun calls op => (stepUnpruned lower policies calls op).1) fun _ => none

end Unpruned

/-- Within the window of an operation, the calls of its agent to one tool on its session exceed
the policy, among all calls that were ever recorded.  A recorded call counts itself. -/
def LoopsAt (lower : String → String) (policies : Policies) (before : List LoopOp)
    (op : LoopOp) : Prop :=
  ∃ policy, policies op.agentId = some policy ∧
    match op.call with
    | .recordCall toolName => validToolName toolName ∧
        policy.maxCalls <
          ownCalls (history lower policies (before ++ [op])) op policy (lower toolName)
    | .check => ∃ toolName,
        policy.maxCalls < ownCalls (history lower policies before) op policy toolName

/-! ## What is never dropped -/

section Window

variable {lower : String → String} {policies : Policies} {rows : List LoopRow}
  {op : LoopOp} {policy : LoopPolicy} {toolName : String} {calls all : MemoryCalls}

/-- The steps of the two modules take the same branch. -/
inductive WindowView (lower : String → String) (policies : Policies) (op : LoopOp) : Prop
  | ignored (hrow : recordedCall lower policies op = none)
      (hmemory : ∀ calls, stepMemory lower policies calls op = (calls, none))
      (hunpruned : ∀ calls, stepUnpruned lower policies calls op = (calls, none))
      (hloops : ∀ before, ¬ LoopsAt lower policies before op)
  | recorded (policy : LoopPolicy) (toolName : String)
      (hpolicy : policies op.agentId = some policy)
      (hrow : recordedCall lower policies op =
        some ⟨op.sessionId, op.agentId, toolName, op.now⟩)
      (hmemory : ∀ calls, stepMemory lower policies calls op =
        recordCallMemory op policy calls toolName)
      (hunpruned : ∀ calls, stepUnpruned lower policies calls op =
        recordCallUnpruned op policy calls toolName)
      (hloops : ∀ before, LoopsAt lower policies before op ↔ policy.maxCalls <
        ownCalls (history lower policies (before ++ [op])) op policy toolName)
  | checked (policy : LoopPolicy) (hpolicy : policies op.agentId = some policy)
      (hrow : recordedCall lower policies op = none)
      (hmemory : ∀ calls, stepMemory lower policies calls op =
        (calls, checkMemory op policy calls))
      (hunpruned : ∀ calls, stepUnpruned lower policies calls op =
        (calls, checkMemory op policy calls))
      (hloops : ∀ before, LoopsAt lower policies before op ↔ ∃ name, policy.maxCalls <
        ownCalls (history lower policies before) op policy name)

/-- The policy of an agent is the only one that is asked. -/
theorem loopsAt_iff (lower : String → String) (hpolicy : policies op.agentId = some policy)
    (before : List LoopOp) :
    LoopsAt lower policies before op ↔
      match op.call with
      | .recordCall toolName => validToolName toolName ∧
          policy.maxCalls <
            ownCalls (history lower policies (before ++ [op])) op policy (lower toolName)
      | .check => ∃ toolName,
          policy.maxCalls < ownCalls (history lower policies before) op policy toolName := by
  constructor
  · rintro ⟨policy', hpolicy', hloops⟩
    obtain rfl := Option.some.inj (hpolicy.symm.trans hpolicy')
    exact hloops
  · intro hloops
    exact ⟨policy, hpolicy, hloops⟩

theorem windowView (lower : String → String) (policies : Policies) (op : LoopOp) :
    WindowView lower policies op := by
  rcases hpolicy : policies op.agentId with _ | policy
  · refine .ignored ?_ (fun calls => ?_) (fun calls => ?_) ?_
    · rw [recordedCall, hpolicy]
      rcases op.call with toolName | -
      · rfl
      · rfl
    · rw [stepMemory, hpolicy]
    · rw [stepUnpruned, hpolicy]
    · rintro before ⟨policy, hsome, -⟩
      rw [hpolicy] at hsome
      cases hsome
  have hloops := fun before => loopsAt_iff lower hpolicy before
  rcases hcall : op.call with toolName | -
  · rw [hcall] at hloops
    by_cases hvalid : validToolName toolName
    · refine .recorded policy (lower toolName) hpolicy ?_ (fun calls => ?_) (fun calls => ?_) ?_
      · rw [recordedCall, hcall, hpolicy]
        exact if_pos hvalid
      · rw [stepMemory, hcall, hpolicy]
        exact if_pos hvalid
      · rw [stepUnpruned, hcall, hpolicy]
        exact if_pos hvalid
      · exact fun before => (hloops before).trans (and_iff_right hvalid)
    · refine .ignored ?_ (fun calls => ?_) (fun calls => ?_) ?_
      · rw [recordedCall, hcall, hpolicy]
        exact if_neg hvalid
      · rw [stepMemory, hcall, hpolicy]
        exact if_neg hvalid
      · rw [stepUnpruned, hcall, hpolicy]
        exact if_neg hvalid
      · exact fun before h => hvalid ((hloops before).mp h).1
  · rw [hcall] at hloops
    refine .checked policy hpolicy ?_ (fun calls => ?_) (fun calls => ?_) hloops
    · rw [recordedCall, hcall]
    · rw [stepMemory, hcall, hpolicy]
    · rw [stepUnpruned, hcall, hpolicy]

/-- Without pruning, each key holds all its calls. -/
def HoldsAll (rows : List LoopRow) (all : MemoryCalls) : Prop :=
  ∀ key, (all key).getD [] = callsOf rows key

theorem HoldsAll.record (h : HoldsAll rows all) :
    HoldsAll (rows ++ [⟨op.sessionId, op.agentId, toolName, op.now⟩])
      (recordCallUnpruned op policy all toolName).1 := by
  intro key
  rw [callsOf_append, ← h key]
  by_cases hkey : key = (op.agentId, op.sessionId)
  · subst hkey
    simp [recordCallUnpruned, callsOf]
  · have hother : callsOf [⟨op.sessionId, op.agentId, toolName, op.now⟩] key = [] := by
      have hne : ¬ (op.agentId = key.1 ∧ op.sessionId = key.2) := by
        rintro ⟨hagent, hsession⟩
        exact hkey (Prod.ext hagent.symm hsession.symm)
      simp [callsOf, List.filter_cons]
      tauto
    rw [hother, List.append_nil, recordCallUnpruned]
    simp [hkey]

theorem HoldsAll.step (h : HoldsAll rows all) :
    HoldsAll (rows ++ (recordedCall lower policies op).toList)
      (stepUnpruned lower policies all op).1 := by
  cases windowView lower policies op with
  | ignored hrow _ hunpruned =>
      rw [hrow, hunpruned, Option.toList_none, List.append_nil]
      exact h
  | recorded policy toolName _ hrow _ hunpruned =>
      rw [hrow, hunpruned]
      exact h.record
  | checked policy _ hrow _ hunpruned =>
      rw [hrow, hunpruned, Option.toList_none, List.append_nil]
      exact h

theorem holdsAll_after (lower : String → String) (policies : Policies) (ops : List LoopOp) :
    HoldsAll (history lower policies ops) (unprunedAfter lower policies ops) := by
  induction ops using List.reverseRecOn with
  | nil =>
      intro key
      rfl
  | append_singleton before op ih =>
      rw [history_append, unprunedAfter, List.foldl_append]
      exact ih.step

/-! ## The same detections -/

/-- The window of the pruned list is the window of all calls. -/
theorem since_entry_eq (hpolicy : policies op.agentId = some policy)
    (h : MemoryOk policies rows op.now calls) (hall : HoldsAll rows all) :
    since (policy.cutoff op.now) ((calls (op.agentId, op.sessionId)).getD []) =
      since (policy.cutoff op.now) ((all (op.agentId, op.sessionId)).getD []) := by
  rw [hall]
  exact (h (op.agentId, op.sessionId) policy hpolicy).recent _ le_rfl

theorem recordCall_unpruned_eq (hpolicy : policies op.agentId = some policy)
    (h : MemoryOk policies rows op.now calls) (hall : HoldsAll rows all) :
    (recordCallMemory op policy calls toolName).2 =
      (recordCallUnpruned op policy all toolName).2 := by
  have hnow : policy.cutoff op.now ≤ op.now := by
    rw [LoopPolicy.cutoff]
    linarith [policy.windowSeconds.cast_nonneg (α := ℚ)]
  have hself : since (policy.cutoff op.now) [(toolName, op.now)] = [(toolName, op.now)] := by
    simp [since, hnow]
  have hkept : keptCalls op policy calls toolName = since (policy.cutoff op.now)
      ((all (op.agentId, op.sessionId)).getD [] ++ [(toolName, op.now)]) := by
    rw [since_append, hself, ← since_entry_eq hpolicy h hall]
    rfl
  rw [recordCallMemory, recordCallUnpruned, hkept]

theorem check_unpruned_eq (hpolicy : policies op.agentId = some policy)
    (h : MemoryOk policies rows op.now calls) (hall : HoldsAll rows all) :
    checkMemory op policy calls = checkMemory op policy all := by
  have hwindow := since_entry_eq hpolicy h hall
  rw [since, since] at hwindow
  rw [checkMemory, hwindow]
  rfl

theorem step_unpruned_eq (h : MemoryOk policies rows op.now calls) (hall : HoldsAll rows all) :
    (stepMemory lower policies calls op).2 = (stepUnpruned lower policies all op).2 := by
  cases windowView lower policies op with
  | ignored _ hmemory hunpruned => rw [hmemory, hunpruned]
  | recorded policy toolName hpolicy _ hmemory hunpruned =>
      rw [hmemory, hunpruned]
      exact recordCall_unpruned_eq hpolicy h hall
  | checked policy hpolicy _ hmemory hunpruned =>
      rw [hmemory, hunpruned]
      exact check_unpruned_eq hpolicy h hall

theorem step_detects_iff {before : List LoopOp}
    (h : MemoryOk policies (history lower policies before) op.now calls) :
    (stepMemory lower policies calls op).2.isSome ↔ LoopsAt lower policies before op := by
  cases windowView lower policies op with
  | ignored _ hmemory _ hloops =>
      rw [hmemory]
      exact iff_of_false Bool.false_ne_true (hloops before)
  | recorded policy toolName hpolicy hrow hmemory _ hloops =>
      rw [hmemory, hloops, recordCallMemory_isSome hpolicy h, history_append, hrow]
      rfl
  | checked policy hpolicy hrow hmemory _ hloops =>
      rw [hmemory, hloops]
      exact checkMemory_isSome hpolicy h

end Window

/-- For every set of policies and every run whose clock does not go back, an operation detects
a loop exactly if the calls that were ever recorded exceed the policy within the window, and
what it detects is what a module that never drops a call detects. -/
theorem sliding_window_exact (lower : String → String) (policies : List LoopPolicy)
    {ops : List LoopOp} (hclock : ops.Pairwise fun p q => p.now ≤ q.now) :
    ∀ before op after, ops = before ++ op :: after →
      let found := (stepMemory lower (registerAll policies)
        (memoryAfter lower (registerAll policies) before) op).2
      (found.isSome ↔ LoopsAt lower (registerAll policies) before op) ∧
        found = (stepUnpruned lower (registerAll policies)
          (unprunedAfter lower (registerAll policies) before) op).2 := by
  intro before op after hops
  rw [hops, List.pairwise_append] at hclock
  have hpast : ∀ p ∈ before, p.now ≤ op.now :=
    fun p hp => hclock.2.2 p hp op List.mem_cons_self
  obtain ⟨hmemory, -⟩ :=
    backends_ok lower (registerAll policies) queryOrder hclock.1 hpast
  exact ⟨step_detects_iff hmemory, step_unpruned_eq hmemory (holdsAll_after _ _ _)⟩

/-- The third call in the window of a policy that allows two. -/
theorem third_read_detected :
    ([readOp "a" 0, readOp "a" 1, readOp "a" 2].Pairwise fun p q => p.now ≤ q.now) ∧
      ((stepMemory id (registerAll [pairPolicy "a" (by decide)])
        (memoryAfter id (registerAll [pairPolicy "a" (by decide)])
          [readOp "a" 0, readOp "a" 1]) (readOp "a" 2)).2.isSome ↔
        LoopsAt id (registerAll [pairPolicy "a" (by decide)]) [readOp "a" 0, readOp "a" 1]
          (readOp "a" 2)) ∧
      LoopsAt id (registerAll [pairPolicy "a" (by decide)]) [readOp "a" 0, readOp "a" 1]
        (readOp "a" 2) := by
  have hclock : [readOp "a" 0, readOp "a" 1, readOp "a" 2].Pairwise fun p q => p.now ≤ q.now := by
    simp [readOp]
  refine ⟨hclock, (sliding_window_exact id [pairPolicy "a" (by decide)] hclock
    [readOp "a" 0, readOp "a" 1] (readOp "a" 2) [] rfl).1, pairPolicy "a" (by decide), ?_⟩
  refine ⟨rfl, ?_, ?_⟩
  · decide
  · decide +kernel

end AgenticGovernance.Loop

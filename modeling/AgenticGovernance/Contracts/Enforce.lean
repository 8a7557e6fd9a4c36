import AgenticGovernance.Cost.Check
import AgenticGovernance.Gates.Approvals
import AgenticGovernance.Scope.Check

/-!
# Behavioral contracts

A contract binds conditions to a tool of an agent.  `enforce` evaluates the pre-conditions
one after the other, runs the body, and evaluates the post-conditions.  The first condition
that fails is logged and ends the call.

Anything may happen between two evaluations: other enforcements run, approvals are asked
for, given and cleaned up, contracts are registered.  What the trace of a call looks like
does not depend on it.
-/

namespace AgenticGovernance.Contracts

open Support Audit

/-! ## Contracts -/

def maxAgentIdLen : ℕ := 256

def maxToolNameLen : ℕ := 256

def maxConditions : ℕ := 20

def validPreChecks : List String := ["hitl_approved", "budget_available", "scope_allowed", "custom"]

def validPostChecks : List String := ["audit_logged", "custom"]

/-- The fields of `PreCondition` and `PostCondition`. -/
structure Condition where
  check : String
  message : String
  params : List (String × Json)
  check_length : 1 ≤ check.length ∧ check.length ≤ 64
  message_length : 1 ≤ message.length ∧ message.length ≤ 1024

/-- A contract that passed its validators. -/
structure Contract where
  agentId : String
  tool : String
  pre : List Condition
  post : List Condition
  agentId_length : 1 ≤ agentId.length ∧ agentId.length ≤ maxAgentIdLen
  tool_length : 1 ≤ tool.length ∧ tool.length ≤ maxToolNameLen
  pre_checks : ∀ c ∈ pre, c.check ∈ validPreChecks
  post_checks : ∀ c ∈ post, c.check ∈ validPostChecks
  pre_length : pre.length ≤ maxConditions
  post_length : post.length ≤ maxConditions

/-- A registered check, with the exception that it raises. -/
abbrev CustomCheck := String → Uuid → String → Except String Bool

/-- The registrations of a `ContractsModule`. -/
structure Registrations where
  contracts : Keyed (String × String) Contract
  customChecks : Keyed String CustomCheck

namespace Registrations

variable (m : Registrations)

def register (contract : Contract) : Registrations :=
  { m with contracts := m.contracts.set (contract.agentId, contract.tool) contract }

/-- `none` is the `ValueError`. -/
def registerCheck (name : String) (fn : CustomCheck) : Option Registrations :=
  if name = "" ∨ 256 < name.length then none
  else some { m with customChecks := m.customChecks.set name fn }

def getContract (agentId tool : String) : Option Contract := m.contracts.get? (agentId, tool)

end Registrations

/-! ## Evaluating a condition -/

inductive Stage where
  | pre
  | post
  deriving DecidableEq

/-- What an enforcement raises besides `ContractViolation`. -/
inductive ContractError where
  | agentHalted
  | valueError
  | typeError
  | audit (e : PyError)
  | cancelled
  /-- an exception of the body -/
  | body (typeName : String)

/-- The call of `check_or_raise` for the budget of the agent and the session. -/
structure BudgetEnv (U : Type) where
  failOpen : Bool
  halted : Option Bool
  policy : Option (Cost.BudgetPolicy U)
  reads : Cost.StoreReads U

/-- What one evaluation depends on.  `approvals` is `none` without a gates module. -/
structure EvalEnv (U : Type) where
  approvals : Option (String → Except String Bool)
  budget : String → Uuid → BudgetEnv U
  scope : Scope.CheckEnv
  sessionEvents : Uuid → Except String (List AuditEventRecord)

section Eval

variable {U : Type} [LT U] [DecidableLT U] (env : EvalEnv U) (m : Registrations)

def checkHitlApproved (agentId : String) : Bool :=
  match env.approvals with
  | none => false
  | some hasGrantedApproval =>
      match hasGrantedApproval agentId with
      | .ok approved => approved
      | .error _ => false

def checkBudgetAvailable (agentId : String) (sessionId : Uuid) : Except ContractError Bool :=
  let b := env.budget agentId sessionId
  match (Cost.checkOrRaise b.failOpen b.halted b.policy b.reads none).outcome with
  | .ok () => .ok true
  | .error .agentHalted => .error .agentHalted
  | .error (.budgetExceeded _) => .ok false
  | .error (.storeUnreachable _) => .ok false

def checkScopeAllowed (agentId tool : String) : Except ContractError Bool :=
  match env.scope.check agentId (some tool) none with
  | .ok () => .ok true
  | .error .scopeViolation => .ok false
  | .error .policyNotRegistered => .ok false
  | .error (.agentHalted _) => .error .agentHalted
  | .error .valueError => .error .valueError
  | .error (.audit e) => .error (.audit e)

/-- `_check_custom`.  A list or a dictionary cannot be looked up. -/
def checkCustom (condition : Condition) (agentId : String) (sessionId : Uuid) (tool : String) :
    Except ContractError Bool :=
  match condition.params.lookup "callable" with
  | some (.str callableName) =>
      match m.customChecks.get? callableName with
      | none => .ok false
      | some fn =>
          match fn agentId sessionId tool with
          | .ok result => .ok result
          | .error _ => .ok false
  | some (.arr _) => .error .typeError
  | some (.obj _) => .error .typeError
  | _ => .ok false

/-- `meta.get("tool") == tool` for some event of the session. -/
def checkAuditLogged (sessionId : Uuid) (tool : String) : Bool :=
  match env.sessionEvents sessionId with
  | .error _ => false
  | .ok events =>
      events.any fun e =>
        match e.metadata.lookup "tool" with
        | some (.str t) => t = tool
        | _ => false

def evalPre (condition : Condition) (agentId : String) (sessionId : Uuid) (tool : String) :
    Except ContractError Bool :=
  if condition.check = "hitl_approved" then .ok (checkHitlApproved env agentId)
  else if condition.check = "budget_available" then checkBudgetAvailable env agentId sessionId
  else if condition.check = "scope_allowed" then checkScopeAllowed env agentId tool
  else if condition.check = "custom" then checkCustom m condition agentId sessionId tool
  else .ok false

def evalPost (condition : Condition) (agentId : String) (sessionId : Uuid) (tool : String) :
    Except ContractError Bool :=
  if condition.check = "audit_logged" then .ok (checkAuditLogged env sessionId tool)
  else if condition.check = "custom" then checkCustom m condition agentId sessionId tool
  else .ok false

def eval (stage : Stage) (condition : Condition) (agentId : String) (sessionId : Uuid)
    (tool : String) : Except ContractError Bool :=
  match stage with
  | .pre => evalPre env m condition agentId sessionId tool
  | .post => evalPost env m condition agentId sessionId tool

end Eval

def Contract.conditions (c : Contract) : Stage → List Condition
  | .pre => c.pre
  | .post => c.post

def Stage.violationKind : Stage → String
  | pre => "contract.pre_violation"
  | post => "contract.post_violation"

/-- The event of a failed condition. -/
def violationArgs (agentId : String) (sessionId : Uuid) (tool : String) (stage : Stage)
    (condition : Condition) : EventArgs where
  sessionId := some sessionId
  agentId := agentId
  parentEventId := none
  kind := stage.violationKind
  model := none
  inputHash := none
  outputHash := none
  metadata :=
    [("tool", .str tool), ("check", .str condition.check), ("message", .str condition.message)]

/-! ## Enforcements -/

/-- The arguments of an `enforce`. -/
structure EnforceCall where
  agentId : String
  sessionId : Uuid
  tool : String

/-- Where an enforcement is.  `failing` is between an evaluation and the log of its event;
`violated` has raised `ContractViolation`, whose text names the tool and the condition. -/
inductive EnforcePhase where
  | idle
  | checking (stage : Stage) (passed rest : List Condition)
  | failing (stage : Stage) (condition : Condition)
  | body
  | returned
  | violated (stage : Stage) (condition : Condition)
  | raised (e : ContractError)

def EnforcePhase.Ended : EnforcePhase → Prop
  | returned => True
  | violated _ _ => True
  | raised _ => True
  | _ => False

/-- What an enforcement did, in order.  `found` is the lookup of the contract. -/
inductive TraceItem where
  | found (stage : Stage) (conditions : List Condition)
  | evaluated (stage : Stage) (condition : Condition) (passed : Bool)
  | entered
  | logged (args : EventArgs)

/-- The gate stores, the registrations, and every enforcement with its trace. -/
structure ContractsState (ι : Type*) where
  stores : Gates.StoresState
  registrations : Registrations
  phase : ι → EnforcePhase
  trace : ι → List TraceItem

/-- Which of the two gate stores the SDK was given. -/
inductive GateStore where
  | dict
  | table

def GateStore.hasGrantedApproval (g : GateStore) (s : Gates.StoresState) (agentId : String) :
    Bool :=
  match g with
  | dict => s.dict.hasGrantedApproval s.clock agentId
  | table => s.table.hasGrantedApproval s.clock agentId

/-- What the environment says about approvals is what the store answers, or an exception. -/
def EvalEnv.ReadsApprovals {U : Type} (env : EvalEnv U) (g : GateStore)
    (s : Gates.StoresState) : Prop :=
  ∀ hasGrantedApproval, env.approvals = some hasGrantedApproval → ∀ agentId approved,
    hasGrantedApproval agentId = .ok approved → g.hasGrantedApproval s agentId = approved

section System

variable {ι : Type*} [DecidableEq ι] {U : Type} [LT U] [DecidableLT U]

namespace ContractsState

/-- Enforcement `i` goes on to a phase, having done something. -/
def goOn (s : ContractsState ι) (i : ι) (p : EnforcePhase) (items : List TraceItem) :
    ContractsState ι :=
  { s with
    phase := Function.update s.phase i p
    trace := Function.update s.trace i (s.trace i ++ items) }

/-- The evaluation of a condition of call `i`. -/
def evaluate (s : ContractsState ι) (env : EvalEnv U) (call : EnforceCall) (stage : Stage)
    (condition : Condition) : Except ContractError Bool :=
  eval env s.registrations stage condition call.agentId call.sessionId call.tool

/-- The conditions that `check_pre` or `check_post` finds; none without a contract. -/
def conditions (s : ContractsState ι) (call : EnforceCall) (stage : Stage) : List Condition :=
  match s.registrations.getContract call.agentId call.tool with
  | none => []
  | some contract => contract.conditions stage

end ContractsState

variable (U) in
/-- One step of the program.  Calls that are going on do not hold each other up. -/
inductive ContractsStep (C : Gates.PendingColumns) (retention : Option ℕ) (g : GateStore)
    (calls : ι → EnforceCall) : ContractsState ι → ContractsState ι → Prop
  | stores {s : ContractsState ι} {stores} (hstep : Gates.StoresStep C retention s.stores stores) :
      ContractsStep C retention g calls s { s with stores := stores }
  | register {s : ContractsState ι} (contract : Contract) :
      ContractsStep C retention g calls s
        { s with registrations := s.registrations.register contract }
  | registerCheck {s : ContractsState ι} (name : String) (fn : CustomCheck) {registrations}
      (hname : s.registrations.registerCheck name fn = some registrations) :
      ContractsStep C retention g calls s { s with registrations := registrations }
  | cancel {s : ContractsState ι} (i : ι) (hphase : ¬(s.phase i).Ended) :
      ContractsStep C retention g calls s (s.goOn i (.raised .cancelled) [])
  | checkPre {s : ContractsState ι} (i : ι) (hphase : s.phase i = .idle) :
      ContractsStep C retention g calls s
        (s.goOn i (.checking .pre [] (s.conditions (calls i) .pre))
          [.found .pre (s.conditions (calls i) .pre)])
  | passes {s : ContractsState ι} (i : ι) (env : EvalEnv U) {stage passed condition rest}
      (hphase : s.phase i = .checking stage passed (condition :: rest))
      (hreads : env.ReadsApprovals g s.stores)
      (heval : s.evaluate env (calls i) stage condition = .ok true) :
      ContractsStep C retention g calls s
        (s.goOn i (.checking stage (passed ++ [condition]) rest)
          [.evaluated stage condition true])
  | fails {s : ContractsState ι} (i : ι) (env : EvalEnv U) {stage passed condition rest}
      (hphase : s.phase i = .checking stage passed (condition :: rest))
      (hreads : env.ReadsApprovals g s.stores)
      (heval : s.evaluate env (calls i) stage condition = .ok false) :
      ContractsStep C retention g calls s
        (s.goOn i (.failing stage condition) [.evaluated stage condition false])
  | escapes {s : ContractsState ι} (i : ι) (env : EvalEnv U) {stage passed condition rest e}
      (hphase : s.phase i = .checking stage passed (condition :: rest))
      (hreads : env.ReadsApprovals g s.stores)
      (heval : s.evaluate env (calls i) stage condition = .error e) :
      ContractsStep C retention g calls s (s.goOn i (.raised e) [])
  | logs {s : ContractsState ι} (i : ι) (audit : AuditEnv) {stage condition record}
      (hphase : s.phase i = .failing stage condition)
      (hlog : audit.log (violationArgs (calls i).agentId (calls i).sessionId (calls i).tool stage
        condition) = .ok record) :
      ContractsStep C retention g calls s
        (s.goOn i (.violated stage condition)
          [.logged (violationArgs (calls i).agentId (calls i).sessionId (calls i).tool stage
            condition)])
  | logRaises {s : ContractsState ι} (i : ι) (audit : AuditEnv) {stage condition e}
      (hphase : s.phase i = .failing stage condition)
      (hlog : audit.log (violationArgs (calls i).agentId (calls i).sessionId (calls i).tool stage
        condition) = .error e) :
      ContractsStep C retention g calls s (s.goOn i (.raised (.audit e)) [])
  | preDone {s : ContractsState ι} (i : ι) {passed}
      (hphase : s.phase i = .checking .pre passed []) :
      ContractsStep C retention g calls s (s.goOn i .body [.entered])
  | bodyRaises {s : ContractsState ι} (i : ι) (typeName : String)
      (hphase : s.phase i = .body) :
      ContractsStep C retention g calls s (s.goOn i (.raised (.body typeName)) [])
  | checkPost {s : ContractsState ι} (i : ι) (hphase : s.phase i = .body) :
      ContractsStep C retention g calls s
        (s.goOn i (.checking .post [] (s.conditions (calls i) .post))
          [.found .post (s.conditions (calls i) .post)])
  | postDone {s : ContractsState ι} (i : ι) {passed}
      (hphase : s.phase i = .checking .post passed []) :
      ContractsStep C retention g calls s (s.goOn i .returned [])

variable (U) in
def contractsSystem (C : Gates.PendingColumns) (retention : Option ℕ) (g : GateStore)
    (calls : ι → EnforceCall) : System (ContractsState ι) where
  init s := ∃ clock, s = ⟨⟨clock, fun _ => none, .empty, .empty⟩, ⟨.empty, .empty⟩,
    fun _ => .idle, fun _ => []⟩
  step := ContractsStep U C retention g calls

end System

/-! ## Traces -/

/-- Conditions that held, one after the other. -/
def passes (stage : Stage) (conditions : List Condition) : List TraceItem :=
  conditions.map fun c => .evaluated stage c true

/-- What comes before the checks of a stage. -/
def Opening : Stage → List TraceItem → Prop
  | .pre, t => t = []
  | .post, t => ∃ cs, t = .found .pre cs :: passes .pre cs ++ [.entered]

/-- The trace of an enforcement in a phase. -/
inductive PhaseTrace (call : EnforceCall) : EnforcePhase → List TraceItem → Prop
  | idle : PhaseTrace call .idle []
  | checking {stage before} (hbefore : Opening stage before) (passed rest : List Condition) :
      PhaseTrace call (.checking stage passed rest)
        (before ++ .found stage (passed ++ rest) :: passes stage passed)
  | failing {stage before} (hbefore : Opening stage before) (passed : List Condition)
      (c : Condition) (rest : List Condition) :
      PhaseTrace call (.failing stage c)
        (before ++ .found stage (passed ++ c :: rest) ::
          (passes stage passed ++ [.evaluated stage c false]))
  | violated {stage before} (hbefore : Opening stage before) (passed : List Condition)
      (c : Condition) (rest : List Condition) :
      PhaseTrace call (.violated stage c)
        (before ++ .found stage (passed ++ c :: rest) ::
          (passes stage passed ++
            [.evaluated stage c false,
             .logged (violationArgs call.agentId call.sessionId call.tool stage c)]))
  | body {t} (hentered : Opening .post t) : PhaseTrace call .body t
  | returned {before} (hbefore : Opening .post before) (cs : List Condition) :
      PhaseTrace call .returned (before ++ .found .post cs :: passes .post cs)
  | raised {p t} (h : PhaseTrace call p t) (hp : ¬p.Ended) (e : ContractError) :
      PhaseTrace call (.raised e) t

section Traces

variable {ι : Type*} [DecidableEq ι] {U : Type} [LT U] [DecidableLT U] {C : Gates.PendingColumns}
  {retention : Option ℕ} {g : GateStore} {calls : ι → EnforceCall} {s t : ContractsState ι}

theorem passes_concat (stage : Stage) (passed : List Condition) (c : Condition) :
    passes stage (passed ++ [c]) = passes stage passed ++ [.evaluated stage c true] := by
  rw [passes, List.map_append]
  rfl

/-- A step of one enforcement leaves the others alone. -/
theorem phaseTrace_goOn {i : ι} {p : EnforcePhase} {items : List TraceItem}
    (h : ∀ j, PhaseTrace (calls j) (s.phase j) (s.trace j))
    (hi : PhaseTrace (calls i) p (s.trace i ++ items)) (j : ι) :
    PhaseTrace (calls j) ((s.goOn i p items).phase j) ((s.goOn i p items).trace j) := by
  by_cases hji : j = i
  · subst hji
    simpa [ContractsState.goOn] using hi
  · simpa [ContractsState.goOn, hji] using h j

namespace PhaseTrace

variable {call : EnforceCall} {stage : Stage} {passed rest : List Condition} {c : Condition}
  {t : List TraceItem}

theorem found_pre (h : PhaseTrace call .idle t) (cs : List Condition) :
    PhaseTrace call (.checking .pre [] cs) (t ++ [.found .pre cs]) := by
  obtain ⟨⟩ := h
  have hopening : Opening .pre [] := rfl
  exact .checking hopening [] cs

/-- The checks of a stage go on with the next condition. -/
theorem evaluated_true (h : PhaseTrace call (.checking stage passed (c :: rest)) t) :
    PhaseTrace call (.checking stage (passed ++ [c]) rest) (t ++ [.evaluated stage c true]) := by
  obtain ⟨⟩ | ⟨hbefore⟩ := h
  have hnext : PhaseTrace call (.checking stage (passed ++ [c]) rest) _ :=
    .checking hbefore (passed ++ [c]) rest
  rw [passes_concat, List.append_assoc passed] at hnext
  simpa using hnext

theorem evaluated_false (h : PhaseTrace call (.checking stage passed (c :: rest)) t) :
    PhaseTrace call (.failing stage c) (t ++ [.evaluated stage c false]) := by
  obtain ⟨⟩ | ⟨hbefore⟩ := h
  have hnext : PhaseTrace call (.failing stage c) _ := .failing hbefore passed c rest
  simpa using hnext

theorem logged (h : PhaseTrace call (.failing stage c) t) :
    PhaseTrace call (.violated stage c)
      (t ++ [.logged (violationArgs call.agentId call.sessionId call.tool stage c)]) := by
  cases h with
  | failing hbefore passed c rest =>
      have hnext : PhaseTrace call (.violated stage c) _ := .violated hbefore passed c rest
      simpa using hnext

theorem entered (h : PhaseTrace call (.checking .pre passed []) t) :
    PhaseTrace call .body (t ++ [.entered]) := by
  cases h with
  | checking hbefore passed rest =>
      rw [show _ = [] from hbefore]
      apply PhaseTrace.body
      exact ⟨passed, by simp⟩

theorem found_post (h : PhaseTrace call .body t) (cs : List Condition) :
    PhaseTrace call (.checking .post [] cs) (t ++ [.found .post cs]) := by
  cases h with
  | body hentered => exact .checking hentered [] cs

theorem post_done (h : PhaseTrace call (.checking .post passed []) t) :
    PhaseTrace call .returned t := by
  cases h with
  | checking hbefore passed rest =>
      rw [List.append_nil]
      exact .returned hbefore passed

end PhaseTrace

theorem phaseTrace_step (h : ∀ i, PhaseTrace (calls i) (s.phase i) (s.trace i))
    (hstep : ContractsStep U C retention g calls s t) (j : ι) :
    PhaseTrace (calls j) (t.phase j) (t.trace j) := by
  have hraised : ∀ i e, ¬(s.phase i).Ended →
      PhaseTrace (calls i) (.raised e) (s.trace i ++ []) := by
    intro i e hp
    rw [List.append_nil]
    exact .raised (h i) hp e
  cases hstep with
  | stores hstep => exact h j
  | register contract => exact h j
  | registerCheck name fn hname => exact h j
  | cancel i hphase => exact phaseTrace_goOn h (hraised i _ hphase) j
  | checkPre i hphase => exact phaseTrace_goOn h ((hphase ▸ h i).found_pre _) j
  | passes i env hphase hreads heval =>
      exact phaseTrace_goOn h (hphase ▸ h i).evaluated_true j
  | fails i env hphase hreads heval =>
      exact phaseTrace_goOn h (hphase ▸ h i).evaluated_false j
  | escapes i env hphase hreads heval =>
      exact phaseTrace_goOn h (hraised i _ (by simp [hphase, EnforcePhase.Ended])) j
  | logs i audit hphase hlog => exact phaseTrace_goOn h (hphase ▸ h i).logged j
  | logRaises i audit hphase hlog =>
      exact phaseTrace_goOn h (hraised i _ (by simp [hphase, EnforcePhase.Ended])) j
  | preDone i hphase => exact phaseTrace_goOn h (hphase ▸ h i).entered j
  | bodyRaises i typeName hphase =>
      exact phaseTrace_goOn h (hraised i _ (by simp [hphase, EnforcePhase.Ended])) j
  | checkPost i hphase => exact phaseTrace_goOn h ((hphase ▸ h i).found_post _) j
  | postDone i hphase =>
      refine phaseTrace_goOn h ?_ j
      rw [List.append_nil]
      exact (hphase ▸ h i).post_done

theorem phaseTrace (h : (contractsSystem U C retention g calls).Reachable s) (i : ι) :
    PhaseTrace (calls i) (s.phase i) (s.trace i) := by
  refine System.invariant (I := fun s => ∀ i, PhaseTrace (calls i) (s.phase i) (s.trace i))
    ?_ ?_ h i
  · intro s hinit
    obtain ⟨clock, rfl⟩ := hinit
    intro i
    exact .idle
  · intro s t _ hok hstep
    exact phaseTrace_step hok hstep

/-! ## What a trace says -/

theorem entered_notMem_passes (stage : Stage) (cs : List Condition) :
    .entered ∉ passes stage cs := by
  simp [passes]

theorem logged_notMem_passes (stage : Stage) (cs : List Condition) (args : EventArgs) :
    .logged args ∉ passes stage cs := by
  simp [passes]

theorem Opening.logged_notMem {stage : Stage} {before : List TraceItem}
    (h : Opening stage before) (args : EventArgs) : .logged args ∉ before := by
  cases stage with
  | pre =>
      rw [show before = [] from h]
      simp
  | post =>
      obtain ⟨cs, rfl⟩ := h
      simp [passes]

/-- The pre-conditions held before the body was entered. -/
theorem Opening.of_entered {stage : Stage} {before items : List TraceItem}
    (h : Opening stage before) (hitems : .entered ∉ items) (hmem : .entered ∈ before ++ items) :
    ∃ cs rest, before ++ items = .found .pre cs :: passes .pre cs ++ .entered :: rest := by
  cases stage with
  | pre =>
      rw [show before = [] from h, List.nil_append] at hmem
      exact absurd hmem hitems
  | post =>
      obtain ⟨cs, rfl⟩ := h
      exact ⟨cs, items, by simp⟩

namespace PhaseTrace

variable {call : EnforceCall} {p : EnforcePhase} {tr : List TraceItem}

theorem of_entered (h : PhaseTrace call p tr) (hmem : .entered ∈ tr) :
    ∃ cs rest, tr = .found .pre cs :: passes .pre cs ++ .entered :: rest := by
  induction h with
  | idle => simp at hmem
  | checking hbefore passed rest =>
      exact hbefore.of_entered (by simp [entered_notMem_passes]) hmem
  | failing hbefore passed c rest =>
      exact hbefore.of_entered (by simp [entered_notMem_passes]) hmem
  | violated hbefore passed c rest =>
      exact hbefore.of_entered (by simp [entered_notMem_passes]) hmem
  | body hentered =>
      obtain ⟨cs, rfl⟩ := hentered
      exact ⟨cs, [], rfl⟩
  | returned hbefore cs => exact hbefore.of_entered (by simp [entered_notMem_passes]) hmem
  | raised h hp e ih => exact ih hmem

/-- Only a violation logs. -/
theorem logged_notMem (h : PhaseTrace call p tr) (hp : ∀ stage c, p ≠ .violated stage c)
    (args : EventArgs) : .logged args ∉ tr := by
  induction h with
  | idle => simp
  | checking hbefore passed rest =>
      simp [hbefore.logged_notMem, logged_notMem_passes]
  | failing hbefore passed c rest =>
      simp [hbefore.logged_notMem, logged_notMem_passes]
  | violated hbefore passed c rest => exact absurd rfl (hp _ c)
  | body hentered => exact hentered.logged_notMem args
  | returned hbefore cs => simp [hbefore.logged_notMem, logged_notMem_passes]
  | raised h hp' e ih =>
      apply ih
      intro stage c heq
      rw [heq] at hp'
      exact hp' trivial

theorem of_violated {stage : Stage} {c : Condition} (h : PhaseTrace call (.violated stage c) tr) :
    ∃ before passed rest, Opening stage before ∧
      tr = before ++ .found stage (passed ++ c :: rest) ::
        (passes stage passed ++
          [.evaluated stage c false,
           .logged (violationArgs call.agentId call.sessionId call.tool stage c)]) := by
  cases h with
  | violated hbefore passed c rest => exact ⟨_, passed, rest, hbefore, rfl⟩

theorem of_returned (h : PhaseTrace call .returned tr) :
    ∃ cs cs', tr = .found .pre cs :: passes .pre cs ++
      .entered :: .found .post cs' :: passes .post cs' := by
  cases h with
  | returned hbefore cs' =>
      obtain ⟨cs, rfl⟩ := hbefore
      exact ⟨cs, cs', by simp⟩

end PhaseTrace

end Traces

/-- However the steps of the program are interleaved: the body of an enforcement is entered
only after all pre-conditions that it found held, in order; it returns only if all
post-conditions held after that; and it logs a violation event exactly when it ends in a
violation, once and last, about the first condition of the stage that did not hold. -/
theorem enforce_trace {ι : Type*} [DecidableEq ι] {U : Type} [LT U] [DecidableLT U]
    {C : Gates.PendingColumns} {retention : Option ℕ} {g : GateStore} {calls : ι → EnforceCall}
    {s : ContractsState ι} (h : (contractsSystem U C retention g calls).Reachable s) (i : ι) :
    (.entered ∈ s.trace i →
      ∃ cs rest, s.trace i = .found .pre cs :: passes .pre cs ++ .entered :: rest) ∧
    (s.phase i = .returned →
      ∃ cs cs', s.trace i = .found .pre cs :: passes .pre cs ++
        .entered :: .found .post cs' :: passes .post cs') ∧
    ((∃ args, .logged args ∈ s.trace i) ↔ ∃ stage c, s.phase i = .violated stage c) ∧
    (∀ stage c, s.phase i = .violated stage c →
      ∃ before passed rest, (∀ args, .logged args ∉ before) ∧
        s.trace i = before ++ .found stage (passed ++ c :: rest) ::
          (passes stage passed ++
            [.evaluated stage c false,
             .logged (violationArgs (calls i).agentId (calls i).sessionId (calls i).tool stage
               c)])) := by
  have htrace := phaseTrace h i
  refine ⟨htrace.of_entered, ?_, ⟨?_, ?_⟩, ?_⟩
  · intro hphase
    exact (hphase ▸ htrace).of_returned
  · intro hlogged
    obtain ⟨args, hmem⟩ := hlogged
    by_contra hnone
    apply htrace.logged_notMem (fun stage c hphase => hnone ⟨stage, c, hphase⟩) args hmem
  · intro hviolated
    obtain ⟨stage, c, hphase⟩ := hviolated
    obtain ⟨before, passed, rest, -, heq⟩ := (hphase ▸ htrace).of_violated
    refine ⟨violationArgs (calls i).agentId (calls i).sessionId (calls i).tool stage c, ?_⟩
    rw [heq]
    simp
  · intro stage c hphase
    obtain ⟨before, passed, rest, hopening, heq⟩ := (hphase ▸ htrace).of_violated
    exact ⟨before, passed, rest, hopening.logged_notMem, heq⟩

/-! ## Approvals behind a guarded body -/

section Approvals

variable {C : Gates.PendingColumns} {retention : Option ℕ}

/-- Whichever store answers, an approval is a grant of the ledger. -/
theorem granted_of_hasGrantedApproval {s : Gates.StoresState}
    (hok : Gates.StoresOk C retention s) {g : GateStore} {agentId : String}
    (h : g.hasGrantedApproval s agentId = true) : s.ledger.Granted s.clock agentId := by
  cases g with
  | dict => exact (hok.dict.hasGrantedApproval_iff hok.utc).mp h
  | table => exact ((hok.table.hasGrantedApproval_iff le_rfl).mp h).of_taken

variable {ι : Type*} [DecidableEq ι] {U : Type} [LT U] [DecidableLT U] {g : GateStore}
  {calls : ι → EnforceCall} {s t : ContractsState ι}

theorem reachable_stores (h : (contractsSystem U C retention g calls).Reachable s) :
    (Gates.storesSystem C retention).Reachable s.stores := by
  refine System.invariant (I := fun s => (Gates.storesSystem C retention).Reachable s.stores)
    ?_ ?_ h
  · intro s hinit
    obtain ⟨clock, rfl⟩ := hinit
    exact .start ⟨clock, rfl⟩
  · intro s t _ hstores hstep
    cases hstep with
    | stores hstep => exact hstores.next hstep
    | _ => exact hstores

variable (C retention U g calls) in
/-- A state of the run that led to `s`, out of which the evaluation of a pre-condition of call
`i` found it to hold. -/
structure LookedUp (i : ι) (c : Condition) (s₀ s : ContractsState ι) : Prop where
  reachable : (contractsSystem U C retention g calls).Reachable s₀
  evaluated : ∃ s₁, ContractsStep U C retention g calls s₀ s₁ ∧
    s₁.trace i = s₀.trace i ++ [.evaluated .pre c true] ∧
    Relation.ReflTransGen (ContractsStep U C retention g calls) s₁ s

theorem LookedUp.next {i : ι} {c : Condition} {s₀ : ContractsState ι}
    (h : LookedUp C retention U g calls i c s₀ s)
    (hstep : ContractsStep U C retention g calls s t) :
    LookedUp C retention U g calls i c s₀ t := by
  obtain ⟨s₁, heval, htrace, hrun⟩ := h.evaluated
  exact ⟨h.reachable, s₁, heval, htrace, hrun.tail hstep⟩

variable (C retention U g calls) in
/-- Where call `i` has seen an approval, there was a grant to see when it looked. -/
def Approved (s : ContractsState ι) (i : ι) : Prop :=
  ∀ c : Condition, c.check = "hitl_approved" → .evaluated .pre c true ∈ s.trace i →
    ∃ s₀, LookedUp C retention U g calls i c s₀ s ∧
      s₀.stores.ledger.Granted s₀.stores.clock (calls i).agentId

omit [DecidableEq ι] in
/-- An `hitl_approved` that holds has asked the store. -/
theorem hasGrantedApproval_of_evaluate {env : EvalEnv U} {call : EnforceCall} {c : Condition}
    (hcheck : c.check = "hitl_approved") (hreads : env.ReadsApprovals g s.stores)
    (heval : s.evaluate env call .pre c = .ok true) :
    g.hasGrantedApproval s.stores call.agentId = true := by
  have happroved : checkHitlApproved env call.agentId = true := by
    simpa [ContractsState.evaluate, eval, evalPre, hcheck] using heval
  rw [checkHitlApproved] at happroved
  split at happroved
  · simp at happroved
  · rename_i hasGrantedApproval hsome
    split at happroved
    · rename_i approved hanswer
      rw [← happroved]
      exact hreads _ hsome _ _ hanswer
    · simp at happroved

/-- A step that does not evaluate a pre-condition to true. -/
theorem Approved.goOn {i : ι} {p : EnforcePhase} {items : List TraceItem}
    (h : ∀ j, Approved C retention U g calls s j)
    (hstep : ContractsStep U C retention g calls s (s.goOn i p items))
    (hitems : ∀ c, .evaluated .pre c true ∉ items) (j : ι) :
    Approved C retention U g calls (s.goOn i p items) j := by
  intro c hcheck hmem
  have hold : .evaluated .pre c true ∈ s.trace j := by
    change _ ∈ Function.update s.trace i (s.trace i ++ items) j at hmem
    by_cases hji : j = i
    · subst hji
      rw [Function.update_self, List.mem_append] at hmem
      exact hmem.resolve_right (hitems c)
    · rwa [Function.update_of_ne hji] at hmem
  obtain ⟨s₀, hlooked, hgranted⟩ := h j c hcheck hold
  exact ⟨s₀, hlooked.next hstep, hgranted⟩

theorem approved_step (hreach : (contractsSystem U C retention g calls).Reachable s)
    (h : ∀ i, Approved C retention U g calls s i)
    (hstep : ContractsStep U C retention g calls s t) (j : ι) :
    Approved C retention U g calls t j := by
  have hsame : t.trace = s.trace → Approved C retention U g calls t j := by
    intro htrace c hcheck hmem
    rw [htrace] at hmem
    obtain ⟨s₀, hlooked, hgranted⟩ := h j c hcheck hmem
    exact ⟨s₀, hlooked.next hstep, hgranted⟩
  cases hstep with
  | stores hstores => exact hsame rfl
  | register contract => exact hsame rfl
  | registerCheck name fn hname => exact hsame rfl
  | @passes i env stage passed condition rest hphase hreads heval =>
      have hstep : ContractsStep U C retention g calls s
          (s.goOn i (.checking stage (passed ++ [condition]) rest)
            [.evaluated stage condition true]) := .passes i env hphase hreads heval
      intro c hcheck hmem
      change _ ∈ Function.update s.trace i _ j at hmem
      by_cases hold : .evaluated .pre c true ∈ s.trace j
      · obtain ⟨s₀, hlooked, hgranted⟩ := h j c hcheck hold
        exact ⟨s₀, hlooked.next hstep, hgranted⟩
      · -- This very step has looked the approval up.
        by_cases hji : j = i
        · subst hji
          rw [Function.update_self, List.mem_append, List.mem_singleton] at hmem
          have hitem := hmem.resolve_left hold
          simp only [TraceItem.evaluated.injEq] at hitem
          obtain ⟨rfl, rfl, -⟩ := hitem
          refine ⟨s, ⟨hreach, _, hstep, Function.update_self .., .refl⟩, ?_⟩
          exact granted_of_hasGrantedApproval (Gates.storesOk (reachable_stores hreach))
            (hasGrantedApproval_of_evaluate hcheck hreads heval)
        · rw [Function.update_of_ne hji] at hmem
          exact absurd hmem hold
  | cancel i hphase => exact Approved.goOn h (.cancel i hphase) (by simp) j
  | checkPre i hphase => exact Approved.goOn h (.checkPre i hphase) (by simp) j
  | fails i env hphase hreads heval =>
      exact Approved.goOn h (.fails i env hphase hreads heval) (by simp) j
  | escapes i env hphase hreads heval =>
      exact Approved.goOn h (.escapes i env hphase hreads heval) (by simp) j
  | logs i audit hphase hlog => exact Approved.goOn h (.logs i audit hphase hlog) (by simp) j
  | logRaises i audit hphase hlog =>
      exact Approved.goOn h (.logRaises i audit hphase hlog) (by simp) j
  | preDone i hphase => exact Approved.goOn h (.preDone i hphase) (by simp) j
  | bodyRaises i typeName hphase =>
      exact Approved.goOn h (.bodyRaises i typeName hphase) (by simp) j
  | checkPost i hphase => exact Approved.goOn h (.checkPost i hphase) (by simp) j
  | postDone i hphase => exact Approved.goOn h (.postDone i hphase) (by simp) j

theorem approved (h : (contractsSystem U C retention g calls).Reachable s) (i : ι) :
    Approved C retention U g calls s i := by
  refine System.invariant (I := fun s => ∀ i, Approved C retention U g calls s i) ?_ ?_ h i
  · intro s hinit
    obtain ⟨clock, rfl⟩ := hinit
    intro i c _ hmem
    simp at hmem
  · intro s t hreach hok hstep
    exact approved_step hreach hok hstep

end Approvals

/-- However the steps are interleaved, and whichever store is used: a body whose
pre-conditions ask for an approval is entered only after each of them was looked up, and at
the time of the lookup a request of the agent had been granted and had not expired. -/
theorem guarded_body_approved {ι : Type*} [DecidableEq ι] {U : Type} [LT U] [DecidableLT U]
    {C : Gates.PendingColumns} {retention : Option ℕ} {g : GateStore} {calls : ι → EnforceCall}
    {s : ContractsState ι} (h : (contractsSystem U C retention g calls).Reachable s) (i : ι)
    {cs : List Condition} (hfound : (s.trace i).head? = some (.found .pre cs))
    {c : Condition} (hc : c ∈ cs) (hguard : c.check = "hitl_approved")
    (hentered : .entered ∈ s.trace i) :
    ∃ s₀, LookedUp C retention U g calls i c s₀ s ∧ ∃ rid req,
      s₀.stores.ledger rid = some (req, some .granted) ∧ req.agentId = (calls i).agentId ∧
      s₀.stores.clock < req.expiresAt.instant := by
  obtain ⟨cs', rest, htrace⟩ := (phaseTrace h i).of_entered hentered
  have hsame : cs' = cs := by
    rw [htrace] at hfound
    simpa using hfound
  subst hsame
  have hevaluated : .evaluated .pre c true ∈ s.trace i := by
    rw [htrace]
    simp [passes, hc]
  exact approved h i c hguard hevaluated

/-! ### A guarded charge -/

def approvalNeeded : Condition where
  check := "hitl_approved"
  message := "Charges require human approval"
  params := []
  check_length := by decide
  message_length := by decide

def chargeContract : Contract where
  agentId := "agent-a"
  tool := "charge_customer"
  pre := [approvalNeeded]
  post := []
  agentId_length := by decide
  tool_length := by decide
  pre_checks := by
    intro c hc
    rw [List.mem_singleton.mp hc]
    decide
  post_checks := by simp
  pre_length := by decide
  post_length := by decide

def chargeCall (_ : Unit) : EnforceCall := ⟨"agent-a", ⟨100⟩, "charge_customer"⟩

/-- An audit module whose stores are down. -/
def unreachableAudit : AuditEnv where
  nfc := id
  canonicalMetadata _ := none
  keys := ⟨sampleHmac, sampleSecret, none⟩
  sessionId := ⟨100⟩
  parentId := none
  createdAt := sampleTime
  fates := ⟨.raises, .raises, .raises, .raises⟩
  degradedStarts := ∅
  draw := ⟨⟨1⟩, ⟨100⟩, sampleTime⟩

/-- The in-memory store after the grant, and no policies. -/
def approvedEnv : EvalEnv ℕ where
  approvals := some fun agentId =>
    .ok (GateStore.dict.hasGrantedApproval
      { Gates.grantedLongAgo with clock := Gates.requestedAt } agentId)
  budget _ _ := ⟨false, none, none, ⟨none, .ok (0, 0), .ok (0, 0), none, .ok none, 0⟩⟩
  scope := ⟨none, .empty, unreachableAudit⟩
  sessionEvents _ := .ok []

/-- The contract is registered, the approval asked for and given. -/
def chargeApproved : ContractsState Unit where
  stores := { Gates.grantedLongAgo with clock := Gates.requestedAt }
  registrations := Registrations.register ⟨.empty, .empty⟩ chargeContract
  phase _ := .idle
  trace _ := []

/-- The approval was found, and the body entered. -/
def chargeEntered : ContractsState Unit :=
  ((chargeApproved.goOn () (.checking .pre [] [approvalNeeded])
    [.found .pre [approvalNeeded]]).goOn () (.checking .pre [approvalNeeded] [])
      [.evaluated .pre approvalNeeded true]).goOn () .body [.entered]

theorem chargeEntered_reachable :
    (contractsSystem ℕ Gates.anyColumns none .dict chargeCall).Reachable chargeEntered := by
  have hstart : (contractsSystem ℕ Gates.anyColumns none .dict chargeCall).Reachable
      ⟨⟨Gates.requestedAt, fun _ => none, .empty, .empty⟩, ⟨.empty, .empty⟩,
        fun _ => .idle, fun _ => []⟩ := .start ⟨_, rfl⟩
  have hregister := hstart.next (.register chargeContract)
  have hrequest := hregister.next (.stores (.request Gates.hourRequest rfl (by simp)))
  have hgrant := hrequest.next (.stores (.resolve ⟨1⟩ .granted Gates.silentCommit))
  have happroved : (contractsSystem ℕ Gates.anyColumns none .dict chargeCall).Reachable
      chargeApproved := hgrant
  have hcheck := happroved.next (.checkPre () rfl)
  have hpass := hcheck.next (.passes () approvedEnv rfl (by
    intro hasGrantedApproval hsome agentId answer hanswer
    rw [← Option.some.inj hsome] at hanswer
    exact Except.ok.inj hanswer) rfl)
  exact hpass.next (.preDone () rfl)

/-- The body of the charge runs after its condition held, and no violation is logged. -/
theorem charge_trace :
    (∃ cs rest, chargeEntered.trace () = .found .pre cs :: passes .pre cs ++ .entered :: rest) ∧
      ¬∃ args, .logged args ∈ chargeEntered.trace () := by
  have h := enforce_trace chargeEntered_reachable ()
  refine ⟨h.1 ?_, ?_⟩
  · simp [chargeEntered, ContractsState.goOn]
  · rw [h.2.2.1]
    simp [chargeEntered, ContractsState.goOn]

theorem charge_approved :
    ∃ s₀, LookedUp Gates.anyColumns none ℕ .dict chargeCall () approvalNeeded s₀
        chargeEntered ∧ ∃ rid req,
      s₀.stores.ledger rid = some (req, some .granted) ∧ req.agentId = "agent-a" ∧
      s₀.stores.clock < req.expiresAt.instant := by
  have hfound : (chargeEntered.trace ()).head? = some (.found .pre [approvalNeeded]) := rfl
  exact guarded_body_approved chargeEntered_reachable () hfound
    (List.mem_singleton_self approvalNeeded) rfl
    (by simp [chargeEntered, ContractsState.goOn])

end AgenticGovernance.Contracts

import Mathlib
import AgenticGovernance.Audit.Module
import AgenticGovernance.Presence.Store

/-!
# Scope checks

`ScopeModule.check` stops a halted agent, then an agent without a policy, then a tool or
API outside the policy.  Each denial is logged as an audit event before its exception is
raised, so an exception of the logging takes the place of the denial.
-/

namespace AgenticGovernance.Scope

open Support Audit Presence

/-- A policy of one agent.  The sets of hidden tools and of models are read elsewhere. -/
structure ScopePolicy where
  agentId : String
  allowedTools : Finset String
  allowedApis : Finset String
  agentId_length : 1 ≤ agentId.length ∧ agentId.length ≤ 256

/-- The registered policies, each under the id of its agent. -/
structure Policies where
  table : Keyed String ScopePolicy
  registered : ∀ agentId policy, table.get? agentId = some policy → policy.agentId = agentId

/-- No policy is registered. -/
def Policies.empty : Policies where
  table := .empty
  registered := by simp

inductive CheckError where
  | agentHalted (halt : HaltMeta)
  | policyNotRegistered
  | scopeViolation
  | valueError
  /-- an exception of the audit module -/
  | audit (e : PyError)

/-- What a check depends on: the halted cache of the presence module, if one is wired,
the policies, and the audit module during the call. -/
structure CheckEnv where
  presence : Option (Keyed String HaltMeta)
  policies : Policies
  audit : AuditEnv

/-- `_api_matches` -/
def apiMatches (api : String) (patterns : Finset String) : Prop :=
  ∃ pattern ∈ patterns,
    if pattern.toList.getLast? = some '*' then pattern.toList.dropLast <+: api.toList
    else api = pattern

instance (api : String) (patterns : Finset String) : Decidable (apiMatches api patterns) :=
  inferInstanceAs (Decidable (∃ pattern ∈ patterns, _))

def optionalStr : Option String → PyValue
  | none => .none
  | some s => .str s

/-- The event of a denial. -/
def violationArgs (agentId : String) (tool api : Option String) (reason : String) :
    EventArgs where
  sessionId := none
  agentId := agentId
  parentEventId := none
  kind := "scope.violation"
  model := none
  inputHash := none
  outputHash := none
  metadata := [("tool", optionalStr tool), ("api", optionalStr api), ("reason", .str reason)]

namespace CheckEnv

variable (env : CheckEnv)

/-- `_log_violation`, followed by the exception of the denial. -/
def deny (agentId : String) (tool api : Option String) (reason : String)
    (denial : CheckError) : CheckError :=
  match env.audit.log (violationArgs agentId tool api reason) with
  | .error e => .audit e
  | .ok _ => denial

/-- `presence.assert_not_halted(agent_id)`; the metadata of its exception. -/
def haltOf (agentId : String) : Option HaltMeta :=
  env.presence.bind fun cache => cache.get? agentId

def check (agentId : String) (tool api : Option String) : Except CheckError Unit :=
  match env.haltOf agentId with
  | some halt => .error (.agentHalted halt)
  | none =>
      if tool = none ∧ api = none then .error .valueError
      else
        match env.policies.table.get? agentId with
        | none =>
            .error (env.deny agentId tool api "no policy registered" .policyNotRegistered)
        | some policy =>
            if ∃ t, tool = some t ∧ t ∉ policy.allowedTools then
              .error (env.deny agentId tool api "tool not whitelisted" .scopeViolation)
            else if ∃ u, api = some u ∧ ¬apiMatches u policy.allowedApis then
              .error (env.deny agentId tool api "api not whitelisted" .scopeViolation)
            else .ok ()

/-- A policy is registered for the agent and lists the tool. -/
def Permits (agentId tool : String) : Prop :=
  ∃ policy, env.policies.table.get? agentId = some policy ∧ tool ∈ policy.allowedTools

/-! ## Checks of a tool -/

variable {env} {agentId tool : String}

/-- The reason that a denial of the tool gives. -/
def denialReason (env : CheckEnv) (agentId : String) : String :=
  if env.policies.table.get? agentId = none then "no policy registered"
  else "tool not whitelisted"

theorem check_halted {halt : HaltMeta} {tool api : Option String}
    (h : env.haltOf agentId = some halt) :
    env.check agentId tool api = .error (.agentHalted halt) := by
  rw [check, h]

theorem check_permitted (hhalt : env.haltOf agentId = none) (h : env.Permits agentId tool) :
    env.check agentId (some tool) none = .ok () := by
  obtain ⟨policy, hpolicy, htool⟩ := h
  simp [check, hhalt, hpolicy, htool]

/-- A denied tool ends in the denial, or in an exception of its logging. -/
theorem check_denied (hhalt : env.haltOf agentId = none) (h : ¬env.Permits agentId tool) :
    ∃ denial, (denial = .policyNotRegistered ∨ denial = .scopeViolation) ∧
      env.check agentId (some tool) none =
        .error (env.deny agentId (some tool) none (env.denialReason agentId) denial) := by
  rcases hpolicy : env.policies.table.get? agentId with _ | policy
  · refine ⟨.policyNotRegistered, Or.inl rfl, ?_⟩
    simp [check, hhalt, hpolicy, denialReason]
  · have htool : tool ∉ policy.allowedTools := fun htool => h ⟨policy, hpolicy, htool⟩
    refine ⟨.scopeViolation, Or.inr rfl, ?_⟩
    simp [check, hhalt, hpolicy, htool, denialReason]

theorem deny_eq (env : CheckEnv) (agentId : String) (tool api : Option String)
    (reason : String) (denial : CheckError) :
    ((violationArgs agentId tool api reason).Accepted ∧
      (violationArgs agentId tool api reason).Loggable env.audit.nfc ∧
      env.deny agentId tool api reason denial = denial) ∨
    (¬((violationArgs agentId tool api reason).Accepted ∧
      (violationArgs agentId tool api reason).Loggable env.audit.nfc) ∧
      ∃ e, env.deny agentId tool api reason denial = .audit e) := by
  have hlog := env.audit.log_ok_iff (violationArgs agentId tool api reason)
  rw [deny]
  rcases hresult : env.audit.log (violationArgs agentId tool api reason) with e | record
  · refine Or.inr ⟨?_, e, rfl⟩
    rw [← hlog, hresult]
    simp
  · obtain ⟨haccepted, hloggable⟩ := hlog.mp ⟨record, hresult⟩
    exact Or.inl ⟨haccepted, hloggable, rfl⟩

end CheckEnv

end AgenticGovernance.Scope

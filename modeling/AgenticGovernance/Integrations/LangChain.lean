import Mathlib
import AgenticGovernance.Scope.Check

/-!
# The LangChain callback handler

`GovernanceCallbackHandler` runs a scope check when a tool starts.  Its exception ladder
passes on a halt, passes on the two denials under `enforce`, and logs and swallows
everything else, so that failures of the SDK never reach the host.

A denial is logged before it is raised.  Where the logging raises, the ladder meets the
exception of the logging and not the denial, and the tool starts.
`tool_start_fail_closed_iff` says exactly when that cannot happen.

Agent ids and tool names are texts without lone surrogates, so the lines that the handler
writes to the console can be printed.  An `AuditEvent` refuses an agent id with a surrogate,
and the warning that `_scope_check` logs before it raises a denial again could not print such
a tool name.
-/

namespace AgenticGovernance.Integrations

open Support Audit Scope

structure GovernanceCallbackHandler where
  agentId : String
  enforce : Bool

/-- The `except` clauses of `_scope_check` and of the tool callbacks. -/
def exceptLadder (enforce : Bool) : Except CheckError Unit → Except CheckError Unit
  | .ok () => .ok ()
  | .error (.agentHalted halt) => .error (.agentHalted halt)
  | .error .scopeViolation => if enforce then .error .scopeViolation else .ok ()
  | .error .policyNotRegistered => if enforce then .error .policyNotRegistered else .ok ()
  | .error .valueError => .ok ()
  | .error (.audit _) => .ok ()

/-- A helper of the handler that swallows all errors, with the outcome of its body. -/
def swallow {ε α : Type} : Except ε α → Except CheckError Unit
  | _ => .ok ()

/-- The event of a started tool. -/
def toolCallEvent (agentId tool : String) : EventArgs :=
  ⟨none, agentId, none, "tool.call", none, none, none, [("tool", .str tool)]⟩

/-- The rest of the SDK during a callback: the outcome of `loop.record_call`, and the
audit module when the tool call is logged. -/
structure CallbackEnv where
  scope : CheckEnv
  recordCall : Except PyError Unit
  audit : AuditEnv

namespace GovernanceCallbackHandler

variable (h : GovernanceCallbackHandler) (env : CallbackEnv)

def scopeCheck (tool : String) : Except CheckError Unit :=
  exceptLadder h.enforce (env.scope.check h.agentId (some tool) none)

def loopRecord : Except CheckError Unit := swallow env.recordCall

def auditLog (tool : String) : Except CheckError Unit :=
  swallow (env.audit.log (toolCallEvent h.agentId tool))

/-- `serialized.get("name", "unknown")` -/
def toolName (name : Option String) : String := name.getD "unknown"

def aonToolStart (name : Option String) : Except CheckError Unit :=
  exceptLadder h.enforce do
    h.scopeCheck env (toolName name)
    loopRecord env
    h.auditLog env (toolName name)

/-- `on_tool_start`.  Inside a running event loop its three coroutines become tasks, and
their exceptions are logged when they end. -/
def onToolStart (running : Bool) (name : Option String) : Except CheckError Unit :=
  if running then .ok () else h.aonToolStart env name

end GovernanceCallbackHandler

/-! ## When a denial is logged -/

/-- The violation event can be constructed and logged: the agent id is within its limits
before and after sanitizing, and the metadata is not too large. -/
structure DenialLogged (nfc : String → String) (agentId tool reason : String) : Prop where
  raw : 1 ≤ agentId.length ∧ agentId.length ≤ maxAgentIdLen
  sanitized : 1 ≤ (sanitizeString nfc agentId maxAgentIdLen).length ∧
    (sanitizeString nfc agentId maxAgentIdLen).length ≤ maxAgentIdLen
  size : (metadataDict
    (violationArgs agentId (some tool) none reason).metadata).dumpsDefault.length ≤
      maxMetadataTotalBytes

section

variable {nfc : String → String} {agentId tool reason : String}

/-- Normalisation leaves ASCII text alone, the kind of the event in particular. -/
theorem denialLogged_iff (hnfc : ∀ s, isAscii s = true → nfc s = s) :
    (violationArgs agentId (some tool) none reason).Accepted ∧
        (violationArgs agentId (some tool) none reason).Loggable nfc ↔
      DenialLogged nfc agentId tool reason := by
  have hkind : sanitizeString nfc "scope.violation" maxKindLen = "scope.violation" := by
    rw [sanitizeString_of_nfc (hnfc _ (by decide))]
    decide
  have hagent : (violationArgs agentId (some tool) none reason).Accepted ∧
      (violationArgs agentId (some tool) none reason).Loggable nfc ↔
        (violationArgs agentId (some tool) none reason).AgentLoggable nfc :=
    EventArgs.agentLoggable_iff
      (by decide : 1 ≤ "scope.violation".length ∧ "scope.violation".length ≤ maxKindLen) hkind
      (by decide : "scope.violation" ∉ permittedKinds) rfl rfl rfl
      (by decide : 3 ≤ maxMetadataKeys)
  rw [hagent]
  exact ⟨fun h => ⟨h.raw, h.sanitized, h.size⟩, fun h => ⟨h.raw, h.sanitized, h.size⟩⟩

end

/-! ## Tool starts -/

section ToolStart

variable {h : GovernanceCallbackHandler} {env : CallbackEnv} {name : Option String}

open GovernanceCallbackHandler

theorem exceptLadder_idem (enforce : Bool) (x : Except CheckError Unit) :
    exceptLadder enforce (exceptLadder enforce x) = exceptLadder enforce x := by
  match x with
  | .ok () => rfl
  | .error (.agentHalted halt) => rfl
  | .error .scopeViolation => cases enforce <;> rfl
  | .error .policyNotRegistered => cases enforce <;> rfl
  | .error .valueError => rfl
  | .error (.audit e) => rfl

/-- Only the scope check decides whether a tool starts. -/
theorem aonToolStart_eq : h.aonToolStart env name = h.scopeCheck env (toolName name) := by
  have hbody : (do
      h.scopeCheck env (toolName name)
      loopRecord env
      h.auditLog env (toolName name)) = h.scopeCheck env (toolName name) := by
    rcases h.scopeCheck env (toolName name) with e | ⟨⟩
    · rfl
    · rfl
  rw [aonToolStart, hbody, scopeCheck, exceptLadder_idem]

/-- Under `enforce` a tool starts if it is permitted, or if its denial is not logged. -/
theorem aonToolStart_ok_iff (henforce : h.enforce = true)
    (hnfc : ∀ s, isAscii s = true → env.scope.audit.nfc s = s) :
    h.aonToolStart env name = .ok () ↔
      env.scope.haltOf h.agentId = none ∧
        (env.scope.Permits h.agentId (toolName name) ∨
          ¬DenialLogged env.scope.audit.nfc h.agentId (toolName name)
            (env.scope.denialReason h.agentId)) := by
  rw [aonToolStart_eq, scopeCheck, henforce]
  rcases hhalt : env.scope.haltOf h.agentId with _ | halt
  · by_cases hpermits : env.scope.Permits h.agentId (toolName name)
    · rw [CheckEnv.check_permitted hhalt hpermits]
      simp [exceptLadder, hpermits]
    · obtain ⟨denial, hdenial, hcheck⟩ := CheckEnv.check_denied hhalt hpermits
      rw [hcheck, ← denialLogged_iff hnfc]
      rcases env.scope.deny_eq h.agentId (some (toolName name)) none
        (env.scope.denialReason h.agentId) denial with ⟨haccepted, hloggable, hdeny⟩ |
          ⟨hlost, e, hdeny⟩
      · rw [hdeny]
        rcases hdenial with rfl | rfl
        · simp [exceptLadder, hpermits, haccepted, hloggable]
        · simp [exceptLadder, hpermits, haccepted, hloggable]
      · rw [hdeny]
        simp only [exceptLadder, hpermits, hlost]
        simp
  · rw [CheckEnv.check_halted hhalt]
    simp [exceptLadder]

/-- A tool starts only for an agent that is not halted and whose policy lists it. -/
def FailClosed (h : GovernanceCallbackHandler) (env : CallbackEnv) (name : Option String)
    (result : Except CheckError Unit) : Prop :=
  result = .ok () →
    env.scope.haltOf h.agentId = none ∧ env.scope.Permits h.agentId (toolName name)

/-- Under `enforce`, for every audit behaviour, both callbacks are fail-closed if and only
if the agent is halted, the tool is permitted, or the denial can be logged. -/
theorem tool_start_fail_closed_iff (henforce : h.enforce = true)
    (hnfc : ∀ s, isAscii s = true → env.scope.audit.nfc s = s) :
    (FailClosed h env name (h.aonToolStart env name) ∧
      FailClosed h env name (h.onToolStart env false name)) ↔
    ((∃ halt, env.scope.haltOf h.agentId = some halt) ∨
      env.scope.Permits h.agentId (toolName name) ∨
      DenialLogged env.scope.audit.nfc h.agentId (toolName name)
        (env.scope.denialReason h.agentId)) := by
  have hsync : h.onToolStart env false name = h.aonToolStart env name := rfl
  rw [hsync, and_self, FailClosed, aonToolStart_ok_iff henforce hnfc]
  rcases hhalt : env.scope.haltOf h.agentId with _ | halt
  · by_cases hpermits : env.scope.Permits h.agentId (toolName name)
    · simp [hpermits]
    · simp [hpermits]
  · simp

end ToolStart

/-- An SDK without policies and halts, whose audit stores are all down. -/
def bareSdk : CallbackEnv :=
  let audit : AuditEnv :=
    { nfc := id
      canonicalMetadata := fun _ => some []
      keys := ⟨.ofTable [], List.replicate 32 7, none⟩
      sessionId := ⟨1⟩
      parentId := none
      createdAt := ⟨2025, 1, 2, 3, 4, 5, 0, some .utc⟩
      fates := ⟨.raises, .raises, .raises, .raises⟩
      degradedStarts := ∅
      draw := ⟨⟨2⟩, ⟨1⟩, ⟨2025, 1, 2, 3, 4, 5, 0, some .utc⟩⟩ }
  ⟨⟨none, .empty, audit⟩, .ok (), audit⟩

/-- The tool of an agent with a short id is denied even then. -/
theorem short_agent_id_fail_closed :
    let h : GovernanceCallbackHandler := ⟨"worker", true⟩
    FailClosed h bareSdk (some "rm") (h.aonToolStart bareSdk (some "rm")) ∧
      FailClosed h bareSdk (some "rm") (h.onToolStart bareSdk false (some "rm")) := by
  intro h
  have hlogged : DenialLogged bareSdk.scope.audit.nfc h.agentId "rm"
      (bareSdk.scope.denialReason h.agentId) :=
    ⟨by decide, by decide, by decide⟩
  exact (tool_start_fail_closed_iff rfl fun _ _ => rfl).mpr (Or.inr (Or.inr hlogged))

theorem tool_starts_of_long_agentId {agentId : String}
    (hlong : maxAgentIdLen < agentId.length) :
    (GovernanceCallbackHandler.mk agentId true).aonToolStart bareSdk (some "rm") = .ok () ∧
      (GovernanceCallbackHandler.mk agentId true).onToolStart bareSdk false (some "rm") =
        .ok () ∧
      ¬bareSdk.scope.Permits agentId "rm" := by
  have hstarts : (GovernanceCallbackHandler.mk agentId true).aonToolStart bareSdk
      (some "rm") = .ok () := by
    apply (aonToolStart_ok_iff rfl fun _ _ => rfl).mpr
    refine ⟨rfl, Or.inr ?_⟩
    intro hlogged
    exact absurd hlogged.raw.2 (Nat.not_le.mpr hlong)
  refine ⟨hstarts, hstarts, ?_⟩
  rintro ⟨policy, hpolicy, -⟩
  cases hpolicy

/-- `"a" * n` -/
def repeatedId (n : ℕ) : String := String.ofList (List.replicate n 'a')

theorem length_repeatedId (n : ℕ) : (repeatedId n).length = n := by
  simp [repeatedId]

/-- An agent whose id is one character too long has no policy, and its tool starts. -/
theorem long_agent_id_fails_open :
    (GovernanceCallbackHandler.mk (repeatedId 257) true).aonToolStart bareSdk (some "rm") =
        .ok () ∧
      (GovernanceCallbackHandler.mk (repeatedId 257) true).onToolStart bareSdk false
        (some "rm") = .ok () ∧
      ¬bareSdk.scope.Permits (repeatedId 257) "rm" := by
  apply tool_starts_of_long_agentId
  rw [length_repeatedId, maxAgentIdLen]
  norm_num

end AgenticGovernance.Integrations

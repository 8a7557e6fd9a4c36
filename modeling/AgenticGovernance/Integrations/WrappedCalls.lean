import Mathlib
import AgenticGovernance.Cost.Check
import AgenticGovernance.Integrations.StreamReconcile
import AgenticGovernance.Scope.Check
import AgenticGovernance.Support.Transition

/-!
# Wrapped LLM calls

`wrap_anthropic` and `wrap_openai` replace the `create` method of a client.  The new method
asks three gates in order, the halt switch, the scope and the budget, and only then sends the
request to the provider.  Afterwards it logs the result and charges the usage.

The synchronous wrapper does this step by step.  The asynchronous one logs the `llm.call` row
in a background task, charges and logs the result concurrently, and can be cancelled at every
`await`.  `async_create_refines_sync` says that none of this shows: a call that is not
interrupted requests, logs and charges what the synchronous wrapper does.

What the SDK answers may change between any two steps, in any way.
-/

namespace AgenticGovernance.Integrations

open Support Audit Presence Scope Cost

/-! ## The SDK -/

/-- What the wrapper was given. -/
structure WrappedClient where
  vendor : Vendor
  agentId : String
  sessionId : Uuid

/-- `_MESSAGES_CREATE_SENTINEL` and `_CHAT_COMPLETIONS_SENTINEL` -/
def Vendor.sentinel : Vendor → String
  | .anthropic => "messages.create"
  | .openai => "chat.completions.create"

/-- The `max_tokens` of a call, or one that `int` does not accept. -/
inductive MaxTokens where
  | absent
  | int (n : ℤ)
  | rejected

structure CreateKwargs where
  model : Option String
  stream : Bool
  /-- `stream_options["include_usage"]` -/
  includeUsage : Option Bool
  maxTokens : MaxTokens

def CreateKwargs.modelName (kw : CreateKwargs) : String := kw.model.getD "unknown"

/-- The modules of the SDK that do not change. -/
structure WrapperConfig (U : Type) where
  scopeWired : Bool
  costWired : Bool
  defaultMaxTokens : Option ℤ
  /-- checked by `GovernanceConfig.__post_init__` -/
  defaultMaxTokens_pos : ∀ n ∈ defaultMaxTokens, 1 ≤ n
  /-- `_estimate_usd` -/
  estimateUsd : String → UsageBlock → U

/-- What the modules of the SDK answer at one time. -/
structure SdkMoment (U : Type) where
  /-- `routing.suggest`, if there are routing policies -/
  suggest : Option (String → Uuid → String → ℤ → String)
  presence : Option (Keyed String HaltMeta)
  scopePolicies : Policies
  audit : AuditEnv
  failOpen : Bool
  budgets : String → Option (BudgetPolicy U)
  reads : String → Uuid → StoreReads U

namespace SdkMoment

variable {U : Type} (m : SdkMoment U)

def checkEnv : CheckEnv := ⟨m.presence, m.scopePolicies, m.audit⟩

/-- The answer of the presence module to the cost module. -/
def halted (agentId : String) : Option Bool :=
  m.presence.map fun cache => (cache.get? agentId).isSome

end SdkMoment

/-! ## The gates -/

/-- What ends a call before its request. -/
inductive GateError (U : Type) where
  | rejectedMaxTokens
  | agentHalted (halt : HaltMeta)
  | scope (e : Scope.CheckError)
  | noCostModule
  | budget (e : Cost.CheckError U)

/-- `_inject_include_usage`, which only the OpenAI wrapper calls -/
def injectIncludeUsage (vendor : Vendor) (kw : CreateKwargs) : CreateKwargs :=
  if vendor = .openai ∧ kw.stream ∧ kw.includeUsage = none then
    { kw with includeUsage := some true }
  else kw

def CreateKwargs.withSuggested (kw : CreateKwargs) (suggested : String) : CreateKwargs :=
  if suggested ≠ kw.modelName then { kw with model := some suggested } else kw

section Gates

variable {U : Type}

/-- The model selection policy, which is advisory. -/
def route (client : WrappedClient) (kw : CreateKwargs) (m : SdkMoment U) :
    Except (GateError U) CreateKwargs :=
  match m.suggest, kw.maxTokens with
  | none, _ => .ok kw
  | some _, .rejected => .error .rejectedMaxTokens
  | some suggest, .absent =>
      .ok (kw.withSuggested (suggest client.agentId client.sessionId kw.modelName 1000))
  | some suggest, .int n =>
      .ok (kw.withSuggested (suggest client.agentId client.sessionId kw.modelName n))

/-- `_halt_check_if_wired` -/
def haltCheckIfWired (client : WrappedClient) (m : SdkMoment U) : Except (GateError U) Unit :=
  match m.checkEnv.haltOf client.agentId with
  | some halt => .error (.agentHalted halt)
  | none => .ok ()

/-- The lookup of `_scope_check_if_registered`. -/
def scopeRegistered (cfg : WrapperConfig U) (client : WrappedClient) (m : SdkMoment U) : Bool :=
  cfg.scopeWired && (m.scopePolicies.table.get? client.agentId).isSome

/-- The check of `_scope_check_if_registered`. -/
def scopeCheck (client : WrappedClient) (m : SdkMoment U) : Except (GateError U) Unit :=
  match m.checkEnv.check client.agentId (some client.vendor.sentinel) none with
  | .error e => .error (.scope e)
  | .ok () => .ok ()

/-- `_resolve_projected_tokens` -/
def resolveProjectedTokens (cfg : WrapperConfig U) (kw : CreateKwargs) :
    Except (GateError U) (Option ℤ) :=
  match kw.maxTokens with
  | .rejected => .error .rejectedMaxTokens
  | .absent => .ok cfg.defaultMaxTokens
  | .int n => if n ≤ 0 then .ok cfg.defaultMaxTokens else .ok (some n)

theorem projected_nonneg {cfg : WrapperConfig U} {kw : CreateKwargs} {projected : Option ℤ}
    (h : resolveProjectedTokens cfg kw = .ok projected) : 0 ≤ projected.getD 0 := by
  have hdefault : 0 ≤ cfg.defaultMaxTokens.getD 0 := by
    rcases hd : cfg.defaultMaxTokens with - | d
    · exact le_rfl
    · exact zero_le_one.trans (cfg.defaultMaxTokens_pos d hd)
  rw [resolveProjectedTokens] at h
  split at h
  · simp at h
  · rw [← Except.ok.inj h]
    exact hdefault
  · split at h
    · rw [← Except.ok.inj h]
      exact hdefault
    · rename_i hpos
      rw [← Except.ok.inj h]
      exact (not_le.mp hpos).le

variable [LT U] [DecidableLT U]

/-- `check_or_raise` for the call. -/
def budgetRun (client : WrappedClient) (projected : Option ℤ) (m : SdkMoment U) : CheckRun U :=
  checkOrRaise m.failOpen (m.halted client.agentId) (m.budgets client.agentId)
    (m.reads client.agentId client.sessionId) projected

def budgetCheck (cfg : WrapperConfig U) (client : WrappedClient) (projected : Option ℤ)
    (m : SdkMoment U) : Except (GateError U) Unit :=
  if cfg.costWired then
    match (budgetRun client projected m).outcome with
    | .error e => .error (.budget e)
    | .ok () => .ok ()
  else .error .noCostModule

/-- The times at which one call asks the SDK. -/
structure GateTimes where
  route : ℕ
  halt : ℕ
  lookup : ℕ
  check : ℕ
  budget : ℕ

/-- The wrapper asks in this order, and has asked before time `n`. -/
structure GateTimes.Ordered (T : GateTimes) (n : ℕ) : Prop where
  halt : T.route ≤ T.halt
  lookup : T.halt ≤ T.lookup
  check : T.lookup ≤ T.check
  budget : T.check ≤ T.budget
  past : T.budget < n

variable (cfg : WrapperConfig U) (W : ℕ → SdkMoment U) (T : GateTimes) (client : WrappedClient)
  (kw : CreateKwargs)

def scopeGate : Except (GateError U) Unit :=
  if scopeRegistered cfg client (W T.lookup) then scopeCheck client (W T.check) else .ok ()

/-- All gates of a call: the arguments of its request, and the projected tokens. -/
def gates : Except (GateError U) (CreateKwargs × Option ℤ) := do
  let routed ← route client (injectIncludeUsage client.vendor kw) (W T.route)
  haltCheckIfWired client (W T.halt)
  scopeGate cfg W T client
  let projected ← resolveProjectedTokens cfg routed
  budgetCheck cfg client projected (W T.budget)
  return (routed, projected)

end Gates

/-! ## The synchronous wrapper -/

/-- An exception of the provider.  `ordinary` says that it is an `Exception`. -/
structure ProviderError where
  name : String
  ordinary : Bool

structure ProviderResponse where
  /-- `_is_streaming_response` -/
  streaming : Bool
  model : Option String
  usage : Option UsageBlock

inductive Answer where
  | raised (e : ProviderError)
  | response (r : ProviderResponse)

/-- What a wrapped call does: its request, the rows that it hands to the audit log, and its
calls of `cost.track`. -/
inductive CallItem (U : Type) where
  | request (kw : CreateKwargs)
  | row (args : EventArgs)
  | charge (tokens : ℤ) (usd : U)

inductive CallOutcome (U : Type) where
  | refused (e : GateError U)
  | raised (e : ProviderError)
  | returned (r : ProviderResponse)
  /-- the proxy of a stream, with its projected tokens -/
  | proxy (projectedTokens : ℤ)

/-- The event of `_safe_audit_log`. -/
def WrappedClient.event (client : WrappedClient) (kind model : String)
    (metadata : List (String × PyValue)) : EventArgs where
  sessionId := some client.sessionId
  agentId := client.agentId
  parentEventId := none
  kind := kind
  model := some model
  inputHash := none
  outputHash := none
  metadata := metadata

/-- `_extract_token_usage` -/
def Vendor.responseUsage (vendor : Vendor) (usage : Option UsageBlock) : UsageBlock :=
  match usage with
  | none => ⟨none, none, none⟩
  | some u =>
      match vendor with
      | .openai => u
      | .anthropic => extractTokenUsage u

/-- The dictionary of the usage. -/
def Vendor.usageDict (vendor : Vendor) (u : UsageBlock) : PyValue :=
  let entry (name : String) (tokens : Option ℤ) : List (PyKey × PyValue) :=
    tokens.toList.map fun n => (.str name, .int n)
  let names :=
    match vendor with
    | .openai => ("prompt_tokens", "completion_tokens")
    | .anthropic => ("input_tokens", "output_tokens")
  .dict (entry names.1 u.prompt ++ entry names.2 u.completion ++ entry "total_tokens" u.total)

namespace WrappedClient

variable (client : WrappedClient) (kw : CreateKwargs)

def callRow : EventArgs :=
  client.event "llm.call" kw.modelName [("model", .str kw.modelName)]

def errorRow (e : ProviderError) : EventArgs :=
  client.event "llm.error" kw.modelName
    [("model", .str kw.modelName), ("error_type", .str e.name)]

def streamRow (projectedTokens : ℤ) : EventArgs :=
  client.event "llm.result" kw.modelName
    (if 0 < projectedTokens then
      [("model", .str kw.modelName), ("streaming", .bool true), ("cost_tracked", .bool true),
        ("projected_tokens_tracked", .int projectedTokens), ("reconciliation", .str "pending")]
    else
      [("model", .str kw.modelName), ("streaming", .bool true), ("cost_tracked", .bool false),
        ("reconciliation", .str "pending")])

/-- Only the Anthropic wrapper takes the model of the response. -/
def responseModel (r : ProviderResponse) : String :=
  match client.vendor with
  | .anthropic => r.model.getD kw.modelName
  | .openai => kw.modelName

def resultRow (r : ProviderResponse) : EventArgs :=
  client.event "llm.result" (client.responseModel kw r)
    [("model", .str (client.responseModel kw r)),
      ("token_usage", client.vendor.usageDict (client.vendor.responseUsage r.usage))]

end WrappedClient

/-- `is_streaming or _is_streaming_response(response)` -/
def isStreaming (kw : CreateKwargs) (r : ProviderResponse) : Bool := kw.stream || r.streaming

section Create

variable {U : Type}

/-- The charge of a response that is no stream. -/
def resultCharge (cfg : WrapperConfig U) (client : WrappedClient) (kw : CreateKwargs)
    (r : ProviderResponse) : Option (ℤ × U) :=
  let usage := client.vendor.responseUsage r.usage
  let totalTokens := usage.total.getD 0
  if 0 < totalTokens then
    some (totalTokens, cfg.estimateUsd (client.responseModel kw r) usage)
  else none

/-- The charge at the start of a stream. -/
def streamCharged [Zero U] (projectedTokens : ℤ) : Option (ℤ × U) :=
  if 0 < projectedTokens then some (projectedTokens, 0) else none

def CallItem.ofCharge (charge : Option (ℤ × U)) : List (CallItem U) :=
  charge.toList.map fun c => .charge c.1 c.2

variable [Zero U] [LT U] [DecidableLT U]

/-- What follows the answer of the provider. -/
def afterAnswer (cfg : WrapperConfig U) (client : WrappedClient) (kw : CreateKwargs)
    (projected : Option ℤ) : Answer → List (CallItem U) × CallOutcome U
  | .raised e => (if e.ordinary then [.row (client.errorRow kw e)] else [], .raised e)
  | .response r =>
      if isStreaming kw r then
        let trackedTokens := projected.getD 0
        (CallItem.ofCharge (streamCharged trackedTokens) ++
          [.row (client.streamRow kw trackedTokens)], .proxy trackedTokens)
      else
        (.row (client.resultRow kw r) :: CallItem.ofCharge (resultCharge cfg client kw r),
          .returned r)

/-- `_wrap_sync_create`, outside a running event loop, with the answer that the provider gives
to the request. -/
def syncCreate (cfg : WrapperConfig U) (W : ℕ → SdkMoment U) (T : GateTimes)
    (client : WrappedClient) (kw : CreateKwargs) (answer : Answer) :
    List (CallItem U) × CallOutcome U :=
  match gates cfg W T client kw with
  | .error e => ([], .refused e)
  | .ok (routed, projected) =>
      let (items, outcome) := afterAnswer cfg client routed projected answer
      (.row (client.callRow routed) :: .request routed :: items, outcome)

end Create

/-! ## The asynchronous wrapper -/

/-- Where an asynchronous call is.  `logged` says that its background task has logged the
`llm.call` row. -/
inductive CallPhase (U : Type) where
  | idle
  | routed (kw : CreateKwargs)
  | unhalted (kw : CreateKwargs)
  /-- a policy was found and is being checked -/
  | scoping (kw : CreateKwargs)
  | inScope (kw : CreateKwargs)
  /-- the request is sent -/
  | waiting (kw : CreateKwargs) (projected : Option ℤ) (logged : Bool)
  /-- the provider has answered, and the background task is awaited -/
  | answered (kw : CreateKwargs) (projected : Option ℤ) (logged : Bool) (answer : Answer)
  | erring (kw : CreateKwargs) (e : ProviderError)
  | charging (kw : CreateKwargs) (trackedTokens : ℤ)
  | charged (kw : CreateKwargs) (trackedTokens : ℤ)
  /-- `asyncio.gather` of the result row and the charge, each pending or done -/
  | gathering (kw : CreateKwargs) (r : ProviderResponse) (rowPending chargePending : Bool)
  | finished (outcome : CallOutcome U)

def cancelledError : ProviderError := ⟨"CancelledError", false⟩

/-- The call awaits something that a cancellation interrupts for good.  While the request is
out, a cancellation is an exception of the provider. -/
def CallPhase.Interruptible {U : Type} : CallPhase U → Prop
  | waiting _ _ _ | finished _ => False
  | _ => True

section Steps

variable {U : Type} [Zero U] [LT U] [DecidableLT U]

/-- The steps of one call while the SDK answers `m`, with what each of them does. -/
inductive CallStep (cfg : WrapperConfig U) (client : WrappedClient) (kw₀ : CreateKwargs)
    (m : SdkMoment U) : CallPhase U → List (CallItem U) → CallPhase U → Prop
  | route {kw} (h : route client (injectIncludeUsage client.vendor kw₀) m = .ok kw) :
      CallStep cfg client kw₀ m .idle [] (.routed kw)
  | routeRaises {e} (h : route client (injectIncludeUsage client.vendor kw₀) m = .error e) :
      CallStep cfg client kw₀ m .idle [] (.finished (.refused e))
  | halt {kw} (h : haltCheckIfWired client m = .ok ()) :
      CallStep cfg client kw₀ m (.routed kw) [] (.unhalted kw)
  | haltRaises {kw e} (h : haltCheckIfWired client m = .error e) :
      CallStep cfg client kw₀ m (.routed kw) [] (.finished (.refused e))
  | lookup {kw} (h : scopeRegistered cfg client m = true) :
      CallStep cfg client kw₀ m (.unhalted kw) [] (.scoping kw)
  | openScope {kw} (h : scopeRegistered cfg client m = false) :
      CallStep cfg client kw₀ m (.unhalted kw) [] (.inScope kw)
  | scope {kw} (h : scopeCheck client m = .ok ()) :
      CallStep cfg client kw₀ m (.scoping kw) [] (.inScope kw)
  | scopeRaises {kw e} (h : scopeCheck client m = .error e) :
      CallStep cfg client kw₀ m (.scoping kw) [] (.finished (.refused e))
  | projectionRaises {kw e} (h : resolveProjectedTokens cfg kw = .error e) :
      CallStep cfg client kw₀ m (.inScope kw) [] (.finished (.refused e))
  | budgetRaises {kw projected e} (hp : resolveProjectedTokens cfg kw = .ok projected)
      (h : budgetCheck cfg client projected m = .error e) :
      CallStep cfg client kw₀ m (.inScope kw) [] (.finished (.refused e))
  -- the background task is created, and the request is sent before it can run
  | request {kw projected} (hp : resolveProjectedTokens cfg kw = .ok projected)
      (h : budgetCheck cfg client projected m = .ok ()) :
      CallStep cfg client kw₀ m (.inScope kw) [.request kw] (.waiting kw projected false)
  | logCall {kw projected} :
      CallStep cfg client kw₀ m (.waiting kw projected false) [.row (client.callRow kw)]
        (.waiting kw projected true)
  | answer {kw projected logged} (answer : Answer) :
      CallStep cfg client kw₀ m (.waiting kw projected logged) []
        (.answered kw projected logged answer)
  | logCallLate {kw projected answer} :
      CallStep cfg client kw₀ m (.answered kw projected false answer)
        [.row (client.callRow kw)] (.answered kw projected true answer)
  | err {kw projected e} :
      CallStep cfg client kw₀ m (.answered kw projected true (.raised e)) [] (.erring kw e)
  | logError {kw e} :
      CallStep cfg client kw₀ m (.erring kw e) [.row (client.errorRow kw e)]
        (.finished (.raised e))
  | stream {kw projected r} (hr : isStreaming kw r = true) (hp : 0 < projected.getD 0) :
      CallStep cfg client kw₀ m (.answered kw projected true (.response r)) []
        (.charging kw (projected.getD 0))
  | streamUnknown {kw projected r} (hr : isStreaming kw r = true) (hp : ¬0 < projected.getD 0) :
      CallStep cfg client kw₀ m (.answered kw projected true (.response r)) []
        (.charged kw 0)
  | chargeStream {kw trackedTokens} :
      CallStep cfg client kw₀ m (.charging kw trackedTokens) [.charge trackedTokens 0]
        (.charged kw trackedTokens)
  | logStream {kw trackedTokens} :
      CallStep cfg client kw₀ m (.charged kw trackedTokens)
        [.row (client.streamRow kw trackedTokens)] (.finished (.proxy trackedTokens))
  | gather {kw projected r} (hr : isStreaming kw r = false) :
      CallStep cfg client kw₀ m (.answered kw projected true (.response r)) []
        (.gathering kw r true (resultCharge cfg client kw r).isSome)
  | logResult {kw r chargePending} :
      CallStep cfg client kw₀ m (.gathering kw r true chargePending)
        [.row (client.resultRow kw r)] (.gathering kw r false chargePending)
  | chargeResult {kw r rowPending charge} (h : resultCharge cfg client kw r = some charge) :
      CallStep cfg client kw₀ m (.gathering kw r rowPending true) [.charge charge.1 charge.2]
        (.gathering kw r rowPending false)
  | gathered {kw r} :
      CallStep cfg client kw₀ m (.gathering kw r false false) [] (.finished (.returned r))
  | cancel {p} (hp : p.Interruptible) :
      CallStep cfg client kw₀ m p [] (.finished (.raised cancelledError))

/-- The calls of a program on its wrapped clients. -/
structure CallsState (ι U : Type) where
  clock : ℕ
  phase : ι → CallPhase U
  trace : ι → List (CallItem U)

structure CreateCall where
  client : WrappedClient
  kwargs : CreateKwargs

variable {ι : Type} [DecidableEq ι]

/-- At every time at most one call does a step. -/
inductive CallsStep (cfg : WrapperConfig U) (W : ℕ → SdkMoment U) (calls : ι → CreateCall) :
    CallsState ι U → CallsState ι U → Prop
  | tick (s) : CallsStep cfg W calls s { s with clock := s.clock + 1 }
  | call {s : CallsState ι U} {i items p}
      (h : CallStep cfg (calls i).client (calls i).kwargs (W s.clock) (s.phase i) items p) :
      CallsStep cfg W calls s
        ⟨s.clock + 1, Function.update s.phase i p,
          Function.update s.trace i (s.trace i ++ items)⟩

/-- The runs of any number of calls, while the SDK answers as `W` says. -/
def callsSystem (cfg : WrapperConfig U) (W : ℕ → SdkMoment U) (calls : ι → CreateCall) :
    System (CallsState ι U) where
  init s := ∃ clock, s = ⟨clock, fun _ => .idle, fun _ => []⟩
  step := CallsStep cfg W calls

end Steps

/-! ## What a call has asked -/

section Asked

variable {U : Type} {cfg : WrapperConfig U} {W : ℕ → SdkMoment U} {T : GateTimes}
  {client : WrappedClient} {kw₀ kw : CreateKwargs} {projected : Option ℤ} {n n' : ℕ}
  {e : GateError U}

theorem GateTimes.Ordered.mono (h : T.Ordered n) (hn : n ≤ n') : T.Ordered n' :=
  ⟨h.halt, h.lookup, h.check, h.budget, h.past.trans_le hn⟩

/-- Before time `n` the call has been routed. -/
structure RoutedBy (W : ℕ → SdkMoment U) (client : WrappedClient) (kw₀ : CreateKwargs)
    (n : ℕ) (T : GateTimes) (kw : CreateKwargs) : Prop where
  route : route client (injectIncludeUsage client.vendor kw₀) (W T.route) = .ok kw
  route_lt : T.route < n

/-- After that its agent was not halted. -/
structure UnhaltedBy (W : ℕ → SdkMoment U) (client : WrappedClient) (kw₀ : CreateKwargs)
    (n : ℕ) (T : GateTimes) (kw : CreateKwargs) : Prop extends RoutedBy W client kw₀ n T kw where
  halt : haltCheckIfWired client (W T.halt) = .ok ()
  route_le : T.route ≤ T.halt
  halt_lt : T.halt < n

/-- After that the scope gate has let it through. -/
structure ScopedBy (cfg : WrapperConfig U) (W : ℕ → SdkMoment U) (client : WrappedClient)
    (kw₀ : CreateKwargs) (n : ℕ) (T : GateTimes) (kw : CreateKwargs) : Prop
    extends UnhaltedBy W client kw₀ n T kw where
  scope : scopeGate cfg W T client = .ok ()
  halt_le : T.halt ≤ T.lookup
  lookup_le : T.lookup ≤ T.check
  check_lt : T.check < n

theorem RoutedBy.mono (h : RoutedBy W client kw₀ n T kw) (hn : n ≤ n') :
    RoutedBy W client kw₀ n' T kw :=
  ⟨h.route, h.route_lt.trans_le hn⟩

theorem UnhaltedBy.mono (h : UnhaltedBy W client kw₀ n T kw) (hn : n ≤ n') :
    UnhaltedBy W client kw₀ n' T kw :=
  ⟨h.toRoutedBy.mono hn, h.halt, h.route_le, h.halt_lt.trans_le hn⟩

theorem ScopedBy.mono (h : ScopedBy cfg W client kw₀ n T kw) (hn : n ≤ n') :
    ScopedBy cfg W client kw₀ n' T kw :=
  ⟨h.toUnhaltedBy.mono hn, h.scope, h.halt_le, h.lookup_le, h.check_lt.trans_le hn⟩

theorem ordered_const : GateTimes.Ordered ⟨n, n, n, n, n⟩ (n + 1) :=
  ⟨le_rfl, le_rfl, le_rfl, le_rfl, n.lt_succ_self⟩

theorem routedBy_route
    (h : route client (injectIncludeUsage client.vendor kw₀) (W n) = .ok kw) :
    RoutedBy W client kw₀ (n + 1) ⟨n, n, n, n, n⟩ kw :=
  ⟨h, n.lt_succ_self⟩

theorem RoutedBy.unhalted (h : RoutedBy W client kw₀ n T kw)
    (hhalt : haltCheckIfWired client (W n) = .ok ()) :
    UnhaltedBy W client kw₀ (n + 1) { T with halt := n } kw :=
  ⟨⟨h.route, h.route_lt.trans n.lt_succ_self⟩, hhalt, h.route_lt.le, n.lt_succ_self⟩

theorem UnhaltedBy.openScope (h : UnhaltedBy W client kw₀ n T kw)
    (hopen : scopeRegistered cfg client (W n) = false) :
    ScopedBy cfg W client kw₀ (n + 1) { T with lookup := n, check := n } kw := by
  have hn := n.lt_succ_self
  refine ⟨⟨⟨h.route, h.route_lt.trans hn⟩, h.halt, h.route_le, h.halt_lt.trans hn⟩, ?_,
    h.halt_lt.le, le_rfl, hn⟩
  simp [scopeGate, hopen]

/-- At time `T.lookup` a policy was found. -/
structure ScopingBy (cfg : WrapperConfig U) (W : ℕ → SdkMoment U) (client : WrappedClient)
    (kw₀ : CreateKwargs) (n : ℕ) (T : GateTimes) (kw : CreateKwargs) : Prop
    extends UnhaltedBy W client kw₀ n T kw where
  registered : scopeRegistered cfg client (W T.lookup) = true
  halt_le : T.halt ≤ T.lookup
  lookup_lt : T.lookup < n

theorem ScopingBy.mono (h : ScopingBy cfg W client kw₀ n T kw) (hn : n ≤ n') :
    ScopingBy cfg W client kw₀ n' T kw :=
  ⟨h.toUnhaltedBy.mono hn, h.registered, h.halt_le, h.lookup_lt.trans_le hn⟩

theorem UnhaltedBy.scoping (h : UnhaltedBy W client kw₀ n T kw)
    (hregistered : scopeRegistered cfg client (W n) = true) :
    ScopingBy cfg W client kw₀ (n + 1) { T with lookup := n } kw := by
  have hn := n.lt_succ_self
  exact ⟨⟨⟨h.route, h.route_lt.trans hn⟩, h.halt, h.route_le, h.halt_lt.trans hn⟩, hregistered,
    h.halt_lt.le, hn⟩

theorem ScopingBy.passed (h : ScopingBy cfg W client kw₀ n T kw)
    (hscope : scopeCheck client (W n) = .ok ()) :
    ScopedBy cfg W client kw₀ (n + 1) { T with check := n } kw := by
  have hn := n.lt_succ_self
  refine ⟨⟨⟨h.route, h.route_lt.trans hn⟩, h.halt, h.route_le, h.halt_lt.trans hn⟩, ?_,
    h.halt_le, h.lookup_lt.le, hn⟩
  simp [scopeGate, h.registered, hscope]

theorem ScopedBy.ordered (h : ScopedBy cfg W client kw₀ n T kw) :
    GateTimes.Ordered { T with budget := n } (n + 1) :=
  ⟨h.route_le, h.halt_le, h.lookup_le, h.check_lt.le, n.lt_succ_self⟩

variable [LT U] [DecidableLT U]

theorem bind_eq_ok_iff {ε α β : Type} {x : Except ε α} {f : α → Except ε β} {b : β} :
    x >>= f = .ok b ↔ ∃ a, x = .ok a ∧ f a = .ok b := by
  rcases x with e | a
  · simp [bind, Except.bind]
  · simp [bind, Except.bind]

theorem gates_eq_ok_iff :
    gates cfg W T client kw₀ = .ok (kw, projected) ↔
      route client (injectIncludeUsage client.vendor kw₀) (W T.route) = .ok kw ∧
      haltCheckIfWired client (W T.halt) = .ok () ∧ scopeGate cfg W T client = .ok () ∧
      resolveProjectedTokens cfg kw = .ok projected ∧
      budgetCheck cfg client projected (W T.budget) = .ok () := by
  simp only [gates, bind_eq_ok_iff, pure, Except.pure, Except.ok.injEq, Prod.mk.injEq]
  constructor
  · intro h
    obtain ⟨routed, hroute, _, hhalt, _, hscope, p, hp, _, hbudget, rfl, rfl⟩ := h
    exact ⟨hroute, hhalt, hscope, hp, hbudget⟩
  · intro h
    obtain ⟨hroute, hhalt, hscope, hp, hbudget⟩ := h
    exact ⟨kw, hroute, (), hhalt, (), hscope, projected, hp, (), hbudget, rfl, rfl⟩

/-- All gates have let the call through. -/
structure GatedBy (cfg : WrapperConfig U) (W : ℕ → SdkMoment U) (client : WrappedClient)
    (kw₀ : CreateKwargs) (n : ℕ) (T : GateTimes) (kw : CreateKwargs) (projected : Option ℤ) :
    Prop where
  ordered : T.Ordered n
  gates : gates cfg W T client kw₀ = .ok (kw, projected)

/-- A gate has raised.  The times of the gates after it do not matter. -/
structure RefusedBy (cfg : WrapperConfig U) (W : ℕ → SdkMoment U) (client : WrappedClient)
    (kw₀ : CreateKwargs) (n : ℕ) (T : GateTimes) (e : GateError U) : Prop where
  ordered : T.Ordered n
  gates : gates cfg W T client kw₀ = .error e

theorem GatedBy.mono (h : GatedBy cfg W client kw₀ n T kw projected) (hn : n ≤ n') :
    GatedBy cfg W client kw₀ n' T kw projected :=
  ⟨h.ordered.mono hn, h.gates⟩

theorem RefusedBy.mono (h : RefusedBy cfg W client kw₀ n T e) (hn : n ≤ n') :
    RefusedBy cfg W client kw₀ n' T e :=
  ⟨h.ordered.mono hn, h.gates⟩

theorem refusedBy_route
    (h : route client (injectIncludeUsage client.vendor kw₀) (W n) = .error e) :
    RefusedBy cfg W client kw₀ (n + 1) ⟨n, n, n, n, n⟩ e :=
  ⟨ordered_const, by simp [gates, h, bind, Except.bind]⟩

theorem RoutedBy.refused (h : RoutedBy W client kw₀ n T kw)
    (hhalt : haltCheckIfWired client (W n) = .error e) :
    RefusedBy cfg W client kw₀ (n + 1) { T with halt := n, lookup := n, check := n, budget := n }
      e :=
  ⟨⟨h.route_lt.le, le_rfl, le_rfl, le_rfl, n.lt_succ_self⟩,
    by simp [gates, h.route, hhalt, bind, Except.bind]⟩

theorem ScopingBy.refused (h : ScopingBy cfg W client kw₀ n T kw)
    (hscope : scopeCheck client (W n) = .error e) :
    RefusedBy cfg W client kw₀ (n + 1) { T with check := n, budget := n } e := by
  refine ⟨⟨h.route_le, h.halt_le, h.lookup_lt.le, le_rfl, n.lt_succ_self⟩, ?_⟩
  simp [gates, h.route, h.halt, scopeGate, h.registered, hscope, bind, Except.bind]

namespace ScopedBy

theorem gated (h : ScopedBy cfg W client kw₀ n T kw)
    (hp : resolveProjectedTokens cfg kw = .ok projected)
    (hbudget : budgetCheck cfg client projected (W n) = .ok ()) :
    GatedBy cfg W client kw₀ (n + 1) { T with budget := n } kw projected :=
  ⟨h.ordered, gates_eq_ok_iff.mpr ⟨h.route, h.halt, h.scope, hp, hbudget⟩⟩

theorem refused_projection (h : ScopedBy cfg W client kw₀ n T kw)
    (hp : resolveProjectedTokens cfg kw = .error e) :
    RefusedBy cfg W client kw₀ (n + 1) { T with budget := n } e := by
  have hscope : scopeGate cfg W { T with budget := n } client = .ok () := h.scope
  refine ⟨h.ordered, ?_⟩
  simp [gates, h.route, h.halt, hscope, hp, bind, Except.bind]

theorem refused (h : ScopedBy cfg W client kw₀ n T kw)
    (hp : resolveProjectedTokens cfg kw = .ok projected)
    (hbudget : budgetCheck cfg client projected (W n) = .error e) :
    RefusedBy cfg W client kw₀ (n + 1) { T with budget := n } e := by
  have hscope : scopeGate cfg W { T with budget := n } client = .ok () := h.scope
  refine ⟨h.ordered, ?_⟩
  simp [gates, h.route, h.halt, hscope, hp, hbudget, bind, Except.bind]

end ScopedBy

end Asked

/-! ## What a call has done -/

section Did

variable {U : Type}

namespace CallItem

def request? : CallItem U → Option CreateKwargs
  | request kw => some kw
  | _ => none

def row? : CallItem U → Option EventArgs
  | row args => some args
  | _ => none

def charge? : CallItem U → Option (ℤ × U)
  | charge tokens usd => some (tokens, usd)
  | _ => none

variable (kw : CreateKwargs) (args : EventArgs) (tokens : ℤ) (usd : U)

@[simp] theorem request?_request : (request kw : CallItem U).request? = some kw := rfl

@[simp] theorem request?_row : (row args : CallItem U).request? = none := rfl

@[simp] theorem request?_charge : (charge tokens usd).request? = none := rfl

@[simp] theorem row?_request : (request kw : CallItem U).row? = none := rfl

@[simp] theorem row?_row : (row args : CallItem U).row? = some args := rfl

@[simp] theorem row?_charge : (charge tokens usd).row? = none := rfl

@[simp] theorem charge?_request : (request kw : CallItem U).charge? = none := rfl

@[simp] theorem charge?_row : (row args : CallItem U).charge? = none := rfl

@[simp] theorem charge?_charge : (charge tokens usd).charge? = some (tokens, usd) := rfl

variable (charge : Option (ℤ × U))

@[simp] theorem requests_ofCharge : (ofCharge charge).filterMap request? = [] := by
  rcases charge with - | c
  · rfl
  · rfl

@[simp] theorem rows_ofCharge : (ofCharge charge).filterMap row? = [] := by
  rcases charge with - | c
  · rfl
  · rfl

@[simp] theorem charges_ofCharge : (ofCharge charge).filterMap charge? = charge.toList := by
  rcases charge with - | c
  · rfl
  · rfl

end CallItem

/-- The requests of `t` are `requests`, its rows in order are `rows`, and its charges are
`charges`.  How the three are interleaved is left open. -/
structure Did (requests : List CreateKwargs) (rows : List EventArgs) (charges : List (ℤ × U))
    (t : List (CallItem U)) : Prop where
  requests : t.filterMap CallItem.request? = requests
  rows : t.filterMap CallItem.row? = rows
  charges : t.filterMap CallItem.charge? = charges

section Lemmas

variable {requests : List CreateKwargs} {rows : List EventArgs} {charges : List (ℤ × U)}
  {t : List (CallItem U)}

namespace Did

theorem nil : Did [] [] [] ([] : List (CallItem U)) := ⟨rfl, rfl, rfl⟩

theorem request (h : Did requests rows charges t) (kw : CreateKwargs) :
    Did (requests ++ [kw]) rows charges (t ++ [.request kw]) := by
  constructor
  · simp [CallItem.request?, h.requests]
  · simp [CallItem.row?, h.rows]
  · simp [CallItem.charge?, h.charges]

theorem row (h : Did requests rows charges t) (args : EventArgs) :
    Did requests (rows ++ [args]) charges (t ++ [.row args]) := by
  constructor
  · simp [CallItem.request?, h.requests]
  · simp [CallItem.row?, h.rows]
  · simp [CallItem.charge?, h.charges]

theorem charge (h : Did requests rows charges t) (charge : ℤ × U) :
    Did requests rows (charges ++ [charge]) (t ++ [.charge charge.1 charge.2]) := by
  constructor
  · simp [CallItem.request?, h.requests]
  · simp [CallItem.row?, h.rows]
  · simp [CallItem.charge?, h.charges]

end Did

end Lemmas

section AfterAnswer

variable [Zero U] {cfg : WrapperConfig U} {client : WrappedClient} {kw : CreateKwargs}
  {projected : Option ℤ}

theorem requests_afterAnswer (answer : Answer) :
    (afterAnswer cfg client kw projected answer).1.filterMap CallItem.request? = [] := by
  rcases answer with e | r
  · rw [afterAnswer]
    split
    · rfl
    · rfl
  · rw [afterAnswer]
    split
    · simp
    · simp [List.filterMap_cons]

theorem did_error {e : ProviderError} (he : e.ordinary = true) :
    Did [] [client.errorRow kw e] [] (afterAnswer cfg client kw projected (.raised e)).1 := by
  rw [afterAnswer, if_pos he]
  exact .row .nil (client.errorRow kw e)

theorem did_stream {r : ProviderResponse} (hr : isStreaming kw r = true) :
    Did [] [client.streamRow kw (projected.getD 0)] (streamCharged (projected.getD 0)).toList
      (afterAnswer cfg client kw projected (.response r)).1 := by
  rw [afterAnswer, if_pos hr]
  constructor
  · simp
  · simp
  · simp

theorem did_result {r : ProviderResponse} (hr : isStreaming kw r = false) :
    Did [] [client.resultRow kw r] (resultCharge cfg client kw r).toList
      (afterAnswer cfg client kw projected (.response r)).1 := by
  rw [afterAnswer, if_neg (by simp [hr])]
  constructor
  · simp [List.filterMap_cons]
  · simp
  · simp [List.filterMap_cons]

end AfterAnswer

variable [Zero U] [LT U] [DecidableLT U]

/-- `t` is what the synchronous wrapper does on the answers that the call was given. -/
def DidAsSync (cfg : WrapperConfig U) (W : ℕ → SdkMoment U) (T : GateTimes)
    (client : WrappedClient) (kw₀ : CreateKwargs) (answer : Answer) (t : List (CallItem U)) :
    Prop :=
  let run := (syncCreate cfg W T client kw₀ answer).1
  Did (run.filterMap CallItem.request?) (run.filterMap CallItem.row?)
    (run.filterMap CallItem.charge?) t

/-- What a call has asked and done, by the place it is at. -/
inductive Explained (cfg : WrapperConfig U) (W : ℕ → SdkMoment U) (client : WrappedClient)
    (kw₀ : CreateKwargs) (n : ℕ) : CallPhase U → List (CallItem U) → Prop
  | idle {t} (hdid : Did [] [] [] t) : Explained cfg W client kw₀ n .idle t
  | routed {T kw t} (h : RoutedBy W client kw₀ n T kw) (hdid : Did [] [] [] t) :
      Explained cfg W client kw₀ n (.routed kw) t
  | unhalted {T kw t} (h : UnhaltedBy W client kw₀ n T kw) (hdid : Did [] [] [] t) :
      Explained cfg W client kw₀ n (.unhalted kw) t
  | scoping {T kw t} (h : ScopingBy cfg W client kw₀ n T kw) (hdid : Did [] [] [] t) :
      Explained cfg W client kw₀ n (.scoping kw) t
  | inScope {T kw t} (h : ScopedBy cfg W client kw₀ n T kw) (hdid : Did [] [] [] t) :
      Explained cfg W client kw₀ n (.inScope kw) t
  | refused {T e t} (h : RefusedBy cfg W client kw₀ n T e) (hdid : Did [] [] [] t) :
      Explained cfg W client kw₀ n (.finished (.refused e)) t
  | waiting {T kw projected logged t} (h : GatedBy cfg W client kw₀ n T kw projected)
      (hdid : Did [kw] (if logged then [client.callRow kw] else []) [] t) :
      Explained cfg W client kw₀ n (.waiting kw projected logged) t
  | answered {T kw projected logged answer t} (h : GatedBy cfg W client kw₀ n T kw projected)
      (hdid : Did [kw] (if logged then [client.callRow kw] else []) [] t) :
      Explained cfg W client kw₀ n (.answered kw projected logged answer) t
  | erring {T kw projected e t} (h : GatedBy cfg W client kw₀ n T kw projected)
      (hdid : Did [kw] [client.callRow kw] [] t) :
      Explained cfg W client kw₀ n (.erring kw e) t
  | charging {T kw projected r t} (h : GatedBy cfg W client kw₀ n T kw projected)
      (hr : isStreaming kw r = true) (hp : 0 < projected.getD 0)
      (hdid : Did [kw] [client.callRow kw] [] t) :
      Explained cfg W client kw₀ n (.charging kw (projected.getD 0)) t
  | charged {T kw projected r t} (h : GatedBy cfg W client kw₀ n T kw projected)
      (hr : isStreaming kw r = true)
      (hdid : Did [kw] [client.callRow kw] (streamCharged (projected.getD 0)).toList t) :
      Explained cfg W client kw₀ n (.charged kw (projected.getD 0)) t
  | gathering {T kw projected r rowPending chargePending t}
      (h : GatedBy cfg W client kw₀ n T kw projected) (hr : isStreaming kw r = false)
      (hdid : Did [kw] (client.callRow kw :: if rowPending then [] else [client.resultRow kw r])
        (if chargePending then [] else (resultCharge cfg client kw r).toList) t) :
      Explained cfg W client kw₀ n (.gathering kw r rowPending chargePending) t
  | finished {T kw projected answer t} (h : GatedBy cfg W client kw₀ n T kw projected)
      (hdid : DidAsSync cfg W T client kw₀ answer t) :
      Explained cfg W client kw₀ n (.finished (syncCreate cfg W T client kw₀ answer).2) t
  | interrupted {e t} (he : e.ordinary = false)
      (h : t.filterMap CallItem.request? = [] ∨ ∃ T kw projected,
        GatedBy cfg W client kw₀ n T kw projected ∧ t.filterMap CallItem.request? = [kw]) :
      Explained cfg W client kw₀ n (.finished (.raised e)) t

variable {cfg : WrapperConfig U} {W : ℕ → SdkMoment U} {T : GateTimes} {client : WrappedClient}
  {kw₀ kw : CreateKwargs} {projected : Option ℤ} {n : ℕ} {p p' : CallPhase U}
  {items : List (CallItem U)}

theorem syncCreate_of_gates (h : gates cfg W T client kw₀ = .ok (kw, projected))
    (answer : Answer) :
    syncCreate cfg W T client kw₀ answer =
      (.row (client.callRow kw) :: .request kw :: (afterAnswer cfg client kw projected answer).1,
        (afterAnswer cfg client kw projected answer).2) := by
  rw [syncCreate, h]

/-- The call has done what the synchronous wrapper does, if that goes for what follows the
answer. -/
theorem DidAsSync.of_gates (h : gates cfg W T client kw₀ = .ok (kw, projected))
    {answer : Answer} {rows : List EventArgs} {charges : List (ℤ × U)} {t : List (CallItem U)}
    (hafter : Did [] rows charges (afterAnswer cfg client kw projected answer).1)
    (hdid : Did [kw] (client.callRow kw :: rows) charges t) :
    DidAsSync cfg W T client kw₀ answer t := by
  simp only [DidAsSync, syncCreate_of_gates h]
  constructor
  · simp [hdid.requests, hafter.requests, List.filterMap_cons]
  · simp [hdid.rows, hafter.rows, List.filterMap_cons]
  · simp [hdid.charges, hafter.charges, List.filterMap_cons]

namespace Explained

variable {t : List (CallItem U)}

theorem mono (h : Explained cfg W client kw₀ n p t) : Explained cfg W client kw₀ (n + 1) p t := by
  have hn := n.le_succ
  cases h with
  | idle hdid => exact .idle hdid
  | routed h hdid => exact .routed (h.mono hn) hdid
  | unhalted h hdid => exact .unhalted (h.mono hn) hdid
  | scoping h hdid => exact .scoping (h.mono hn) hdid
  | inScope h hdid => exact .inScope (h.mono hn) hdid
  | refused h hdid => exact .refused (h.mono hn) hdid
  | waiting h hdid => exact .waiting (h.mono hn) hdid
  | answered h hdid => exact .answered (h.mono hn) hdid
  | erring h hdid => exact .erring (h.mono hn) hdid
  | charging h hr hp hdid => exact .charging (h.mono hn) hr hp hdid
  | charged h hr hdid => exact .charged (h.mono hn) hr hdid
  | gathering h hr hdid => exact .gathering (h.mono hn) hr hdid
  | finished h hdid => exact .finished (h.mono hn) hdid
  | interrupted he h =>
      refine .interrupted he (h.imp_right ?_)
      intro hgated
      obtain ⟨T, kw, projected, hgated, hrequests⟩ := hgated
      exact ⟨T, kw, projected, hgated.mono hn, hrequests⟩

/-- At most one request was sent, and only after all gates. -/
theorem gated (h : Explained cfg W client kw₀ n p t) :
    t.filterMap CallItem.request? = [] ∨ ∃ T kw projected,
      GatedBy cfg W client kw₀ n T kw projected ∧ t.filterMap CallItem.request? = [kw] := by
  cases h with
  | idle hdid => exact Or.inl hdid.requests
  | routed _ hdid => exact Or.inl hdid.requests
  | unhalted _ hdid => exact Or.inl hdid.requests
  | scoping _ hdid => exact Or.inl hdid.requests
  | inScope _ hdid => exact Or.inl hdid.requests
  | refused _ hdid => exact Or.inl hdid.requests
  | waiting h hdid => exact Or.inr ⟨_, _, _, h, hdid.requests⟩
  | answered h hdid => exact Or.inr ⟨_, _, _, h, hdid.requests⟩
  | erring h hdid => exact Or.inr ⟨_, _, _, h, hdid.requests⟩
  | charging h _ _ hdid => exact Or.inr ⟨_, _, _, h, hdid.requests⟩
  | charged h _ hdid => exact Or.inr ⟨_, _, _, h, hdid.requests⟩
  | gathering h _ hdid => exact Or.inr ⟨_, _, _, h, hdid.requests⟩
  | @finished T kw projected answer t h hdid =>
      refine Or.inr ⟨T, kw, projected, h, ?_⟩
      rw [hdid.requests, syncCreate_of_gates h.gates]
      simp [requests_afterAnswer, List.filterMap_cons]
  | interrupted _ h => exact h

/-- What a step does is explained by what the call has asked by then. -/
theorem step (h : Explained cfg W client kw₀ n p t)
    (hstep : CallStep cfg client kw₀ (W n) p items p') :
    Explained cfg W client kw₀ (n + 1) p' (t ++ items) := by
  have hn := n.le_succ
  cases hstep with
  | route hroute =>
      obtain ⟨hdid⟩ := h
      rw [List.append_nil]
      exact .routed (routedBy_route hroute) hdid
  | routeRaises hroute =>
      obtain ⟨hdid⟩ := h
      rw [List.append_nil]
      exact .refused (refusedBy_route hroute) hdid
  | halt hhalt =>
      cases h with
      | routed h hdid =>
          rw [List.append_nil]
          exact .unhalted (h.unhalted hhalt) hdid
  | haltRaises hhalt =>
      cases h with
      | routed h hdid =>
          rw [List.append_nil]
          exact .refused (h.refused hhalt) hdid
  | lookup hregistered =>
      cases h with
      | unhalted h hdid =>
          rw [List.append_nil]
          exact .scoping (h.scoping hregistered) hdid
  | openScope hopen =>
      cases h with
      | unhalted h hdid =>
          rw [List.append_nil]
          exact .inScope (h.openScope hopen) hdid
  | scope hscope =>
      cases h with
      | scoping h hdid =>
          rw [List.append_nil]
          exact .inScope (h.passed hscope) hdid
  | scopeRaises hscope =>
      cases h with
      | scoping h hdid =>
          rw [List.append_nil]
          exact .refused (h.refused hscope) hdid
  | projectionRaises hp =>
      cases h with
      | inScope h hdid =>
          rw [List.append_nil]
          exact .refused (h.refused_projection hp) hdid
  | budgetRaises hp hbudget =>
      cases h with
      | inScope h hdid =>
          rw [List.append_nil]
          exact .refused (h.refused hp hbudget) hdid
  | request hp hbudget =>
      cases h with
      | inScope h hdid => exact .waiting (h.gated hp hbudget) (hdid.request _)
  | logCall =>
      cases h with
      | waiting h hdid => exact .waiting (h.mono hn) (hdid.row _)
  | answer answer =>
      cases h with
      | waiting h hdid =>
          rw [List.append_nil]
          exact .answered (h.mono hn) hdid
  | logCallLate =>
      cases h with
      | answered h hdid => exact .answered (h.mono hn) (hdid.row _)
  | err =>
      cases h with
      | answered h hdid =>
          rw [List.append_nil]
          exact .erring (h.mono hn) hdid
  | @logError kw e =>
      cases h with
      | erring h hdid =>
          by_cases he : e.ordinary = true
          · have hrow := hdid.row (client.errorRow kw e)
            have hdone := DidAsSync.of_gates h.gates (did_error he) hrow
            have hfinished := Explained.finished (h.mono hn) hdone
            rw [syncCreate_of_gates h.gates] at hfinished
            exact hfinished
          · refine .interrupted (by simpa using he) (Or.inr ⟨_, _, _, h.mono hn, ?_⟩)
            exact (hdid.row (client.errorRow kw e)).requests
  | stream hr hp =>
      cases h with
      | answered h hdid =>
          rw [List.append_nil]
          exact .charging (h.mono hn) hr hp hdid
  | @streamUnknown kw projected r hr hp =>
      cases h with
      | answered h hdid =>
          have hzero : projected.getD 0 = 0 :=
            le_antisymm (not_lt.mp hp) (projected_nonneg (gates_eq_ok_iff.mp h.gates).2.2.2.1)
          have hcharged :
              Explained cfg W client kw₀ (n + 1) (.charged kw (projected.getD 0)) t := by
            refine .charged (h.mono hn) hr ?_
            rw [streamCharged, if_neg hp]
            exact hdid
          rw [List.append_nil, ← hzero]
          exact hcharged
  | chargeStream =>
      cases h with
      | charging h hr hp hdid =>
          refine .charged (h.mono hn) hr ?_
          rw [streamCharged, if_pos hp]
          exact hdid.charge (_, 0)
  | logStream =>
      cases h with
      | charged h hr hdid =>
          have hdone := DidAsSync.of_gates h.gates (did_stream hr) (hdid.row _)
          have hfinished := Explained.finished (h.mono hn) hdone
          rw [syncCreate_of_gates h.gates, afterAnswer, if_pos hr] at hfinished
          exact hfinished
  | @gather kw projected r hr =>
      cases h with
      | answered h hdid =>
          rw [List.append_nil]
          refine .gathering (h.mono hn) hr ?_
          rcases hcharge : resultCharge cfg client kw r with - | charge
          · exact hdid
          · exact hdid
  | logResult =>
      cases h with
      | gathering h hr hdid => exact .gathering (h.mono hn) hr (hdid.row _)
  | @chargeResult kw r rowPending charge hcharge =>
      cases h with
      | gathering h hr hdid =>
          refine .gathering (h.mono hn) hr ?_
          rw [hcharge]
          exact hdid.charge charge
  | gathered =>
      cases h with
      | gathering h hr hdid =>
          have hdone := DidAsSync.of_gates h.gates (did_result hr) hdid
          have hfinished := Explained.finished (h.mono hn) hdone
          rw [syncCreate_of_gates h.gates, afterAnswer, if_neg (by simp [hr])] at hfinished
          rw [List.append_nil]
          exact hfinished
  | cancel hp =>
      rw [List.append_nil]
      exact .interrupted rfl h.mono.gated

end Explained

variable {ι : Type} [DecidableEq ι] {calls : ι → CreateCall} {s s' : CallsState ι U}

/-- Everything the calls of a run have done is explained. -/
theorem explained (h : (callsSystem cfg W calls).Reachable s) (i : ι) :
    Explained cfg W (calls i).client (calls i).kwargs s.clock (s.phase i) (s.trace i) := by
  revert i
  refine System.invariant
    (I := fun s => ∀ i, Explained cfg W (calls i).client (calls i).kwargs s.clock (s.phase i)
      (s.trace i)) ?_ ?_ h
  · intro s hs i
    obtain ⟨clock, rfl⟩ := hs
    exact .idle .nil
  · intro s s' _ hs hstep i
    cases hstep with
    | tick => exact (hs i).mono
    | @call j items p hcall =>
        by_cases hij : i = j
        · subst hij
          simpa using (hs i).step hcall
        · simpa [Function.update_of_ne hij] using (hs i).mono

/-! ## Gates before requests -/

omit [Zero U] [LT U] [DecidableLT U] in
theorem haltCheckIfWired_eq_ok_iff {m : SdkMoment U} :
    haltCheckIfWired client m = .ok () ↔ m.checkEnv.haltOf client.agentId = none := by
  rw [haltCheckIfWired]
  split
  · rename_i halt hhalt
    simp [hhalt]
  · rename_i hhalt
    simp [hhalt]

omit [Zero U] [LT U] [DecidableLT U] in
theorem scopeGate_eq_ok_iff :
    scopeGate cfg W T client = .ok () ↔
      (scopeRegistered cfg client (W T.lookup) = true →
        (W T.check).checkEnv.check client.agentId (some client.vendor.sentinel) none =
          .ok ()) := by
  rw [scopeGate, scopeCheck]
  split
  · rename_i hregistered
    split
    · rename_i e hcheck
      simp [hregistered, hcheck]
    · rename_i hcheck
      simp [hcheck]
  · rename_i hopen
    simp [hopen]

omit [Zero U] in
theorem budget_ok_of_budgetCheck {m : SdkMoment U}
    (h : budgetCheck cfg client projected m = .ok ()) :
    (budgetRun client projected m).outcome = .ok () := by
  rw [budgetCheck] at h
  split at h
  · split at h
    · simp at h
    · rename_i hrun
      exact hrun
  · simp at h

/-- However the calls are interleaved, and whatever the SDK answers at any time: a call sends
at most one request, and only after the halt switch, the scope gate and the budget gate have
let it through, in this order. -/
theorem request_after_gates (h : (callsSystem cfg W calls).Reachable s) (i : ι)
    (hrequest : .request kw ∈ s.trace i) :
    (s.trace i).filterMap CallItem.request? = [kw] ∧
    ∃ T : GateTimes, T.Ordered s.clock ∧
      (W T.halt).checkEnv.haltOf (calls i).client.agentId = none ∧
      (scopeRegistered cfg (calls i).client (W T.lookup) = true →
        (W T.check).checkEnv.check (calls i).client.agentId
          (some (calls i).client.vendor.sentinel) none = .ok ()) ∧
      ∃ projected, resolveProjectedTokens cfg kw = .ok projected ∧
        (budgetRun (calls i).client projected (W T.budget)).outcome = .ok () := by
  have hmem : kw ∈ (s.trace i).filterMap CallItem.request? :=
    List.mem_filterMap.mpr ⟨_, hrequest, rfl⟩
  rcases (explained h i).gated with hnone | ⟨T, kw', projected, hgated, hrequests⟩
  · rw [hnone] at hmem
    simp at hmem
  · rw [hrequests] at hmem ⊢
    obtain rfl := List.mem_singleton.mp hmem
    obtain ⟨-, hhalt, hscope, hprojected, hbudget⟩ := gates_eq_ok_iff.mp hgated.gates
    exact ⟨rfl, T, hgated.ordered, haltCheckIfWired_eq_ok_iff.mp hhalt,
      scopeGate_eq_ok_iff.mp hscope, projected, hprojected, budget_ok_of_budgetCheck hbudget⟩

/-- However the calls and their background tasks are interleaved: a call that ends in no
cancellation ends as the synchronous wrapper does on the answers that it was given, after the
same request, the same rows in the same order, and the same charge. -/
theorem async_create_refines_sync (h : (callsSystem cfg W calls).Reachable s) (i : ι)
    {outcome : CallOutcome U} (hfinished : s.phase i = .finished outcome)
    (hordinary : ∀ e, outcome = .raised e → e.ordinary = true) :
    ∃ T answer, T.Ordered s.clock ∧
      (syncCreate cfg W T (calls i).client (calls i).kwargs answer).2 = outcome ∧
      DidAsSync cfg W T (calls i).client (calls i).kwargs answer (s.trace i) := by
  have hexplained := explained h i
  rw [hfinished] at hexplained
  cases hexplained with
  | @refused T e t hrefused hdid =>
      have hsync : ∀ answer,
          syncCreate cfg W T (calls i).client (calls i).kwargs answer = ([], .refused e) := by
        intro answer
        rw [syncCreate, hrefused.gates]
      refine ⟨T, .raised cancelledError, hrefused.ordered, ?_, ?_⟩
      · rw [hsync]
      · rw [DidAsSync, hsync]
        exact hdid
  | @finished T kw projected answer t hgated hdid =>
      exact ⟨T, answer, hgated.ordered, rfl, hdid⟩
  | @interrupted e t he _ =>
      have hordinary := hordinary e rfl
      rw [he] at hordinary
      simp at hordinary

end Did

/-! ### A call that charges before it logs -/

def sampleClient : WrappedClient := ⟨.anthropic, "agent-a", ⟨100⟩⟩

def sampleKwargs : CreateKwargs := ⟨some "claude", false, none, .int 50⟩

def sampleConfig : WrapperConfig ℚ where
  scopeWired := true
  costWired := true
  defaultMaxTokens := none
  defaultMaxTokens_pos := by simp
  estimateUsd _ _ := 1

/-- No routing, no halt, and no policies. -/
def openMoment : SdkMoment ℚ where
  suggest := none
  presence := some .empty
  scopePolicies := .empty
  audit :=
    { nfc := id
      canonicalMetadata := fun _ => none
      keys := ⟨sampleHmac, sampleSecret, none⟩
      sessionId := ⟨100⟩
      parentId := none
      createdAt := sampleTime
      fates := ⟨.raises, .raises, .raises, .raises⟩
      degradedStarts := ∅
      draw := ⟨⟨1⟩, ⟨100⟩, sampleTime⟩ }
  failOpen := false
  budgets _ := none
  reads _ _ := ⟨none, .ok (0, 0), .ok (0, 0), none, .ok none, 0⟩

def sampleResponse : ProviderResponse := ⟨false, none, some ⟨some 12, some 30, none⟩⟩

/-- The call row is logged after the answer, and the result row after the charge. -/
def sampleTrace : List (CallItem ℚ) :=
  [.request sampleKwargs, .row (sampleClient.callRow sampleKwargs), .charge 42 1,
    .row (sampleClient.resultRow sampleKwargs sampleResponse)]

def sampleCall (_ : Unit) : CreateCall := ⟨sampleClient, sampleKwargs⟩

/-- One step of the only call. -/
theorem sample_next {clock : ℕ} {p p' : CallPhase ℚ} {t items : List (CallItem ℚ)}
    (h : (callsSystem sampleConfig (fun _ => openMoment) sampleCall).Reachable
      ⟨clock, fun _ => p, fun _ => t⟩)
    (hstep : CallStep sampleConfig sampleClient sampleKwargs openMoment p items p') :
    (callsSystem sampleConfig (fun _ => openMoment) sampleCall).Reachable
      ⟨clock + 1, fun _ => p', fun _ => t ++ items⟩ := by
  have hnext := h.next (.call (i := ()) hstep)
  have hp : Function.update (fun _ => p) () p' = fun _ => p' := by
    funext u
    simp
  have ht : Function.update (fun _ => t) () (t ++ items) = fun _ => t ++ items := by
    funext u
    simp
  simpa only [hp, ht] using hnext

theorem sampleTrace_reachable :
    (callsSystem sampleConfig (fun _ => openMoment) sampleCall).Reachable
      ⟨10, fun _ => .finished (.returned sampleResponse), fun _ => sampleTrace⟩ := by
  have h₀ : (callsSystem sampleConfig (fun _ => openMoment) sampleCall).Reachable
      ⟨0, fun _ => .idle, fun _ => []⟩ := .start ⟨0, rfl⟩
  have hroute : route sampleClient (injectIncludeUsage .anthropic sampleKwargs) openMoment =
      .ok sampleKwargs := rfl
  have hprojected : resolveProjectedTokens sampleConfig sampleKwargs = .ok (some 50) := rfl
  have hcharge : resultCharge sampleConfig sampleClient sampleKwargs sampleResponse =
      some (42, 1) := rfl
  have h₁ := sample_next h₀ (.route hroute)
  have h₂ := sample_next h₁ (.halt rfl)
  have h₃ := sample_next h₂ (.openScope rfl)
  have h₄ := sample_next h₃ (.request hprojected rfl)
  have h₅ := sample_next h₄ (.answer (.response sampleResponse))
  have h₆ := sample_next h₅ .logCallLate
  have h₇ := sample_next h₆ (.gather rfl)
  have h₈ := sample_next h₇ (.chargeResult hcharge)
  have h₉ := sample_next h₈ .logResult
  exact sample_next h₉ .gathered

theorem sample_request_after_gates :
    ∃ T : GateTimes, T.Ordered 10 ∧ openMoment.checkEnv.haltOf "agent-a" = none := by
  have hmem : .request sampleKwargs ∈ sampleTrace := List.mem_cons_self
  obtain ⟨-, T, hT, hhalt, -⟩ := request_after_gates sampleTrace_reachable () hmem
  exact ⟨T, hT, hhalt⟩

theorem sample_refines_sync :
    ∃ T answer, T.Ordered 10 ∧
      (syncCreate sampleConfig (fun _ => openMoment) T sampleClient sampleKwargs answer).2 =
        .returned sampleResponse ∧
      DidAsSync sampleConfig (fun _ => openMoment) T sampleClient sampleKwargs answer
        sampleTrace :=
  async_create_refines_sync sampleTrace_reachable () rfl (by simp)

end AgenticGovernance.Integrations

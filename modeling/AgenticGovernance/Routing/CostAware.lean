import AgenticGovernance.Audit.Sanitization
import AgenticGovernance.Cost.Pricing
import AgenticGovernance.Policies.Persistence
import AgenticGovernance.Support.Stamp

/-!
# Cost-aware routing

A `RoutingPolicy` names up to three models, from the cheapest tier to the most expensive one.
`_apply_cost_aware` suggests another tier when the remaining budget is below a threshold, and
the scope policy of the agent has a say in which.  When no expensive tier is configured the
thresholds apply to every requested model, also to the cheap tier, whose first alternative is
the mid tier.

`routes_down_iff` says for which inputs a suggestion is never a more expensive tier.
-/

namespace AgenticGovernance.Routing

open Support Audit Cost Policies

/-! ## Policies -/

inductive Strategy where
  | costAware
  | rules
  deriving DecidableEq

structure RoutingFields where
  agentId : String
  strategy : Strategy
  cheapModel : Option String
  midModel : Option String
  expensiveModel : Option String
  minSessionUsdForExpensive : Option PyFloat
  minDailyUsdForExpensive : Option PyFloat
  modelRules : List (String × String)

/-- The configured tiers, cheapest first. -/
def RoutingFields.tiers (f : RoutingFields) : List String :=
  [f.cheapModel, f.midModel, f.expensiveModel].reduceOption

/-- `0.0 <= x` -/
def usdNonneg (x : PyFloat) : Prop := x ≠ .nan ∧ (x.isNeg = false ∨ x.IsZero)

instance (x : PyFloat) : Decidable (usdNonneg x) := inferInstanceAs (Decidable (_ ∧ _))

/-- The constraints of the fields and `model_post_init`. -/
structure RoutingFields.Valid (f : RoutingFields) : Prop where
  agentId : lengthWithin Policies.maxAgentIdLen f.agentId
  tierLengths : ∀ model ∈ f.tiers, lengthWithin 128 model
  minSessionUsd : WhenSet usdNonneg f.minSessionUsdForExpensive
  minDailyUsd : WhenSet usdNonneg f.minDailyUsdForExpensive
  costAware : f.strategy = .costAware → f.tiers ≠ [] ∧ f.tiers.Nodup
  rules : f.strategy = .rules → f.modelRules ≠ []
  ruleLengths : ∀ rule ∈ f.modelRules, lengthWithin 128 rule.1 ∧ lengthWithin 128 rule.2

structure RoutingPolicy extends RoutingFields where
  valid : toRoutingFields.Valid

/-- A policy with the `cost_aware` strategy. -/
structure CostAwarePolicy extends RoutingPolicy where
  costAware : strategy = .costAware

/-- What routing reads of a `BudgetSnapshot`. -/
structure BudgetSnapshot where
  sessionUsdRemaining : Option PyFloat
  agentDailyUsdRemaining : Option PyFloat

/-! ## The strategy -/

/-- Unicode normalisation, the comparison `<` of floats, and the float that the estimate of
a cost is computed as. -/
structure RoutingEnv where
  nfc : String → String
  lt : PyFloat → PyFloat → Bool
  usd : ℚ → PyFloat

/-- The models that the scope of the agent restricts it to; the empty set is no
restriction. -/
def allowedModels (scope : Option (Keyed String Policies.ScopePolicy)) (agentId : String) :
    Finset String :=
  match scope.bind fun registry => registry.get? agentId with
  | none => ∅
  | some policy => policy.allowedModels

def applyAllowedModelsConstraint (scope : Option (Keyed String Policies.ScopePolicy))
    (agentId proposedModel fallbackModel : String) : String :=
  let allowed := allowedModels scope agentId
  if allowed = ∅ then proposedModel
  else if proposedModel ∈ allowed then proposedModel
  -- the fallback is returned whether it is allowed or not
  else if fallbackModel ∈ allowed then fallbackModel
  else fallbackModel

/-- The arguments of one `_apply_cost_aware`. -/
structure RoutingCall where
  /-- the policies of the scope module, by agent -/
  scope : Option (Keyed String Policies.ScopePolicy)
  agentId : String
  sessionId : Uuid
  requestedModel : String
  policy : CostAwarePolicy
  snapshot : BudgetSnapshot
  maxTokens : ℤ

def optionalFloat : Option PyFloat → PyValue
  | none => .none
  | some x => .float x

namespace RoutingCall

variable (E : RoutingEnv) (c : RoutingCall)

/-- `estimate_cost(model, max_tokens // 4, max_tokens, strict=False)` -/
def estimatedCost (model : String) : PyFloat :=
  match estimateCost model (c.maxTokens / 4) c.maxTokens false none with
  | .ok usd => E.usd usd
  | .error _ => E.usd 0

/-- The `routing.suggestion` event. -/
def suggestionArgs (selectedModel reason : String) : EventArgs where
  sessionId := some c.sessionId
  agentId := c.agentId
  parentEventId := none
  kind := "routing.suggestion"
  model := some selectedModel
  inputHash := none
  outputHash := none
  metadata :=
    [("requested_model", .str c.requestedModel),
     ("selected_model", .str selectedModel),
     ("strategy", .str "cost_aware"),
     ("reason", .str reason),
     ("session_usd_remaining", optionalFloat c.snapshot.sessionUsdRemaining),
     ("daily_usd_remaining", optionalFloat c.snapshot.agentDailyUsdRemaining),
     ("estimated_cost_requested", .float (c.estimatedCost E c.requestedModel)),
     ("estimated_cost_selected", .float (c.estimatedCost E selectedModel))]

/-- `_emit_suggestion_event`, up to the event that the audit module is given; `none` is the
`ValidationError` of its constructor, which nothing catches here. -/
def emitSuggestionEvent (selectedModel reason : String) : Option LoggedEvent :=
  (c.suggestionArgs E selectedModel reason).construct E.nfc

/-- `threshold is not None and remaining is not None and remaining < threshold` -/
def below (remaining threshold : Option PyFloat) : Bool :=
  match threshold, remaining with
  | some t, some r => E.lt r t
  | _, _ => false

/-- The requested model is the expensive tier, or the mid tier where there is no expensive
one. -/
def isExpensiveTier : Bool :=
  (c.policy.expensiveModel.isSome && decide (some c.requestedModel = c.policy.expensiveModel)) ||
    (c.policy.expensiveModel.isNone && c.policy.midModel.isSome &&
      decide (some c.requestedModel = c.policy.midModel))

/-- A threshold that the remaining budget is below, as the reason of a suggestion. -/
def lowBudget : Option String :=
  if below E c.snapshot.sessionUsdRemaining c.policy.minSessionUsdForExpensive then
    some "session_budget_low"
  else if below E c.snapshot.agentDailyUsdRemaining c.policy.minDailyUsdForExpensive then
    some "daily_budget_low"
  else none

/-- Why to route down, if at all. -/
def routeDownReason : Option String :=
  if c.isExpensiveTier || c.policy.expensiveModel.isNone then c.lowBudget E else none

/-- The mid tier and the cheap tier, except the requested model. -/
def candidates : List String :=
  (c.policy.midModel.filter (· ≠ c.requestedModel)).toList ++
    (c.policy.cheapModel.filter (· ≠ c.requestedModel)).toList

/-- The first candidate that the scope allows. -/
def firstAllowed : String :=
  (c.candidates.find? fun candidate =>
    applyAllowedModelsConstraint c.scope c.agentId candidate c.requestedModel = candidate).getD
      c.requestedModel

/-- `_apply_cost_aware`, with the event it emits. -/
def applyCostAware : Option (String × Option LoggedEvent) :=
  let constrained :=
    applyAllowedModelsConstraint c.scope c.agentId c.requestedModel c.requestedModel
  match c.routeDownReason E with
  | none =>
      if constrained ≠ c.requestedModel then do
        let event ← c.emitSuggestionEvent E constrained "allowed_models_constraint"
        return (constrained, some event)
      else some (c.requestedModel, none)
  | some reason =>
      let selected := c.firstAllowed
      let (selected, reason) :=
        if selected = c.requestedModel then
          (constrained,
            if constrained ≠ c.requestedModel then "allowed_models_constraint" else reason)
        else (selected, reason)
      if selected ≠ c.requestedModel then do
        let event ← c.emitSuggestionEvent E selected reason
        return (selected, some event)
      else some (selected, none)

end RoutingCall

/-! ## What is returned -/

/-- The scope of the agent allows the model. -/
def Allowed (scope : Option (Keyed String Policies.ScopePolicy)) (agentId model : String) : Prop :=
  (allowedModels scope agentId).Nonempty → model ∈ allowedModels scope agentId

/-- The requested model, or an allowed tier that is cheaper than the requested one if that is
a tier. -/
def RoutingCall.RoutedDown (c : RoutingCall) (model : String) : Prop :=
  model = c.requestedModel ∨
    model ∈ c.policy.tiers ∧ Allowed c.scope c.agentId model ∧
      (c.requestedModel ∈ c.policy.tiers →
        c.policy.tiers.idxOf model < c.policy.tiers.idxOf c.requestedModel)

/-- The cheap tier is requested where there is no expensive tier, the budget is low, and the
mid tier is allowed. -/
structure RoutingCall.RoutesUp (E : RoutingEnv) (c : RoutingCall) (model reason : String) :
    Prop where
  expensive : c.policy.expensiveModel = none
  mid : c.policy.midModel = some model
  cheap : c.policy.cheapModel = some c.requestedModel
  low : c.lowBudget E = some reason
  allowed : Allowed c.scope c.agentId model
  event : (c.suggestionArgs E model reason).Accepted

section

variable {E : RoutingEnv} {c : RoutingCall} {model reason : String}

theorem constraint_self {scope : Option (Keyed String Policies.ScopePolicy)} {agentId : String} :
    applyAllowedModelsConstraint scope agentId model model = model := by
  rw [applyAllowedModelsConstraint]
  split_ifs <;> rfl

/-- Another model passes the constraint when it is allowed. -/
theorem constraint_eq_iff {scope : Option (Keyed String Policies.ScopePolicy)}
    {agentId fallback : String}
    (hne : fallback ≠ model) :
    applyAllowedModelsConstraint scope agentId model fallback = model ↔
      Allowed scope agentId model := by
  rw [applyAllowedModelsConstraint, Allowed, Finset.nonempty_iff_ne_empty]
  split_ifs <;> simp_all

theorem mem_candidates_iff : model ∈ c.candidates ↔
    model ≠ c.requestedModel ∧
      (c.policy.midModel = some model ∨ c.policy.cheapModel = some model) := by
  simp only [RoutingCall.candidates, List.mem_append, Option.mem_toList,
    Option.filter_eq_some_iff, decide_eq_true_eq]
  tauto

/-- Another model than the requested one is the first candidate that the scope allows. -/
theorem firstAllowed_of_ne (h : c.firstAllowed = model) (hne : model ≠ c.requestedModel) :
    model ∈ c.candidates ∧ Allowed c.scope c.agentId model := by
  rw [RoutingCall.firstAllowed] at h
  rcases hfind : c.candidates.find? fun candidate =>
      applyAllowedModelsConstraint c.scope c.agentId candidate c.requestedModel =
        candidate with _ | candidate
  · rw [hfind] at h
    exact absurd h.symm hne
  · rw [hfind] at h
    obtain rfl : candidate = model := h
    refine ⟨List.mem_of_find?_eq_some hfind, ?_⟩
    apply (constraint_eq_iff (Ne.symm hne)).mp
    simpa using List.find?_some hfind

/-- A call returns the requested model, or for a reason the first allowed candidate. -/
theorem applyCostAware_eq_some {event : Option LoggedEvent}
    (h : c.applyCostAware E = some (model, event)) :
    model = c.requestedModel ∨
      c.firstAllowed = model ∧ ∃ reason, c.routeDownReason E = some reason ∧
        (c.suggestionArgs E model reason).Accepted := by
  rw [RoutingCall.applyCostAware, constraint_self] at h
  rcases hreason : c.routeDownReason E with _ | reason
  · simp only [hreason, ne_eq, not_true_eq_false, if_false, Option.some.injEq,
      Prod.mk.injEq] at h
    exact Or.inl h.1.symm
  · by_cases hselected : c.firstAllowed = c.requestedModel
    · simp only [hreason, hselected, if_true, ne_eq, not_true_eq_false, if_false,
        Option.some.injEq, Prod.mk.injEq] at h
      exact Or.inl h.1.symm
    · simp only [hreason, hselected, if_false, ne_eq, not_false_eq_true, if_true,
        Option.pure_def, Option.bind_eq_bind, Option.bind_eq_some_iff, Option.some.injEq,
        Prod.mk.injEq] at h
      obtain ⟨emitted, hemitted, hmodel, -⟩ := h
      rw [hmodel] at hemitted
      exact Or.inr ⟨hmodel, reason, rfl, (EventArgs.construct_eq_some_iff.mp hemitted).1⟩

/-! ## The order of the tiers -/

/-- A candidate is cheaper than the requested tier, unless it is the mid tier and the cheap
one is requested. -/
theorem idxOf_lt_of_candidate (hmodel : model ∈ c.candidates)
    (hrequested : c.requestedModel ∈ c.policy.tiers) :
    c.policy.tiers.idxOf model < c.policy.tiers.idxOf c.requestedModel ∨
      c.policy.midModel = some model ∧ c.policy.cheapModel = some c.requestedModel := by
  obtain ⟨hne, htier⟩ := mem_candidates_iff.mp hmodel
  obtain ⟨-, hnodup⟩ := c.policy.valid.costAware c.policy.costAware
  rw [RoutingFields.tiers] at hnodup hrequested ⊢
  revert hnodup hrequested htier
  generalize c.policy.cheapModel = cheap
  generalize c.policy.midModel = mid
  generalize c.policy.expensiveModel = expensive
  intro hnodup hrequested htier
  -- the eight sets of tiers that may be configured
  rcases cheap with _ | cheap <;> rcases mid with _ | mid <;>
    rcases expensive with _ | expensive <;>
    simp [List.reduceOption, List.idxOf_cons] at * <;> grind

/-- Only the expensive tier is routed down when there is one. -/
theorem expensive_of_routeDown (hreason : c.routeDownReason E = some reason) :
    c.lowBudget E = some reason ∧
      (c.policy.expensiveModel = none ∨ c.policy.expensiveModel = some c.requestedModel) := by
  rw [RoutingCall.routeDownReason, RoutingCall.isExpensiveTier] at hreason
  split at hreason
  · rename_i hcondition
    refine ⟨hreason, ?_⟩
    rcases hexpensive : c.policy.expensiveModel with _ | expensive
    · exact Or.inl rfl
    · rw [hexpensive] at hcondition
      have hrequested : c.requestedModel = expensive := by simpa using hcondition
      exact Or.inr (congrArg some hrequested.symm)
  · simp at hreason

/-- The one candidate of a call that routes up is the mid tier. -/
theorem RoutingCall.RoutesUp.applyCostAware (h : c.RoutesUp E model reason) :
    ∃ event, c.applyCostAware E = some (model, some event) := by
  have hne : c.requestedModel ≠ model := by
    obtain ⟨-, hnodup⟩ := c.policy.valid.costAware c.policy.costAware
    rw [RoutingFields.tiers, h.cheap, h.mid, h.expensive] at hnodup
    simpa [List.reduceOption] using hnodup
  have hreason : c.routeDownReason E = some reason := by
    rw [routeDownReason, h.expensive, ← h.low]
    simp
  have hfirst : c.firstAllowed = model := by
    have hcandidates : c.candidates = [model] := by
      rw [candidates, h.mid, h.cheap]
      simp [Option.filter, Ne.symm hne]
    have hallowed := (constraint_eq_iff hne).mpr h.allowed
    rw [firstAllowed, hcandidates, List.find?_cons, hallowed]
    simp
  refine ⟨(c.suggestionArgs E model reason).sanitize E.nfc, ?_⟩
  have hevent : c.emitSuggestionEvent E model reason =
      some ((c.suggestionArgs E model reason).sanitize E.nfc) :=
    EventArgs.construct_eq_some_iff.mpr ⟨h.event, rfl⟩
  rw [RoutingCall.applyCostAware, hreason]
  simp only [hfirst, Ne.symm hne, if_false, ne_eq, not_false_eq_true, if_true, hevent]
  rfl

theorem RoutingCall.RoutesUp.not_routedDown (h : c.RoutesUp E model reason) :
    ¬c.RoutedDown model := by
  obtain ⟨-, hnodup⟩ := c.policy.valid.costAware c.policy.costAware
  have htiers : c.policy.tiers = [c.requestedModel, model] := by
    rw [RoutingFields.tiers, h.cheap, h.mid, h.expensive]
    rfl
  rw [RoutedDown, htiers]
  rw [htiers] at hnodup
  intro hdown
  rcases hdown with hsame | ⟨-, -, hcheaper⟩
  · rw [hsame] at hnodup
    simp at hnodup
  · have hlt := hcheaper List.mem_cons_self
    rw [List.idxOf_cons_self] at hlt
    exact absurd hlt (Nat.not_lt_zero _)

end

/-! ## A cheap request -/

/-- Two tiers, and a budget of which less than a dollar is left. -/
def cheapRequest : RoutingCall where
  scope := none
  agentId := "billing-agent"
  sessionId := ⟨1⟩
  requestedModel := "haiku"
  policy :=
    { agentId := "billing-agent"
      strategy := .costAware
      cheapModel := some "haiku"
      midModel := some "sonnet"
      expensiveModel := none
      minSessionUsdForExpensive := some (.fixed false [1] [0])
      minDailyUsdForExpensive := none
      modelRules := []
      valid :=
        { agentId := by decide
          tierLengths := by decide
          minSessionUsd := by decide
          minDailyUsd := by decide
          costAware := fun _ => by decide
          rules := fun h => by simp at h
          ruleLengths := by simp }
      costAware := rfl }
  snapshot := ⟨some (.fixed false [0] [0, 5]), none⟩
  maxTokens := 1000

/-- `0.05 < 1.0`, and the costs print as `0.0`. -/
def sampleEnv : RoutingEnv where
  nfc := id
  lt r t := decide (r = .fixed false [0] [0, 5] ∧ t = .fixed false [1] [0])
  usd _ := .fixed false [0] [0]

theorem estimatedCost_sampleEnv (model : String) :
    cheapRequest.estimatedCost sampleEnv model = .fixed false [0] [0] := by
  rw [RoutingCall.estimatedCost]
  rcases estimateCost model (cheapRequest.maxTokens / 4) cheapRequest.maxTokens false none with
    e | usd
  · rfl
  · rfl

end AgenticGovernance.Routing

import Mathlib
import AgenticGovernance.Routing.CostAware
import AgenticGovernance.Cost.TrackRuns
import AgenticGovernance.Cost.StoreAgreement

/-!
# Suggestions while the budget is spent

`suggest` looks up the routing policy of an agent and applies its strategy.  The cost-aware
strategy reads what is left of the budgets from the cost store.

Spending only grows, within a session and within a UTC day.  So a call that has been routed to
another model is routed to the same one from then on: `suggestion_sticks`.  Only the end of
the day, a failing read or an event that the audit module refuses takes it back.
-/

namespace AgenticGovernance.Routing

open Support Audit Cost Policies

/-! ## The budget snapshot -/

section Snapshot

variable {E : RoutingEnv} {U : Type} [LinearOrder U] [AddZeroClass U] [Sub U]

variable (E U) in
/-- The arithmetic of amounts in dollars, with a rounding that keeps the order. -/
structure UsdFloats where
  toPy : U → PyFloat
  lt_of_le : ∀ {a b : U} {t : PyFloat}, a ≤ b → E.lt (toPy b) t → E.lt (toPy a) t
  le_add : ∀ {a b : U}, 0 ≤ b → a ≤ a + b
  sub_le_sub : ∀ {a b : U} (c : U), a ≤ b → c - b ≤ c - a

/-- `_remaining_f` -/
def remainingUsd (cap : Option U) (used : U) : Option U := cap.map fun cap => max 0 (cap - used)

/-- `CostModule.snapshot`, as far as routing reads it.  `none` stands for a read that raises. -/
def snapshot (F : UsdFloats E U) (budget : Option (BudgetPolicy U))
    (reads : Option ((U × ℤ) × U × ℤ)) : BudgetSnapshot :=
  let ((sUsd, _), (dUsd, _)) := reads.getD ((0, 0), (0, 0))
  { sessionUsdRemaining :=
      (remainingUsd (budget.bind fun p => p.perSessionUsd) sUsd).map F.toPy
    agentDailyUsdRemaining :=
      (remainingUsd (budget.bind fun p => p.perAgentUsdDaily) dUsd).map F.toPy }

end Snapshot

/-! ## The module -/

/-- The arguments of `suggest`. -/
structure SuggestCall where
  agentId : String
  sessionId : Uuid
  requestedModel : String
  maxTokens : ℤ

/-- The policies of the routing, the scope and the cost module. -/
structure RoutingModule (U : Type) where
  policies : String → Option RoutingPolicy
  scope : Option (Keyed String Policies.ScopePolicy)
  budgets : String → Option (BudgetPolicy U)

/-- `0.0` -/
def zeroUsd : PyFloat := .fixed false [0] [0]

/-- The `routing.suggestion` event of the `rules` strategy. -/
def rulesSuggestionArgs (c : SuggestCall) (selectedModel reason : String) : EventArgs where
  sessionId := some c.sessionId
  agentId := c.agentId
  parentEventId := none
  kind := "routing.suggestion"
  model := some selectedModel
  inputHash := none
  outputHash := none
  metadata :=
    [("requested_model", .str c.requestedModel),
     ("selected_model", .str selectedModel),
     ("strategy", .str "rules"),
     ("reason", .str reason),
     ("session_usd_remaining", .none),
     ("daily_usd_remaining", .none),
     ("estimated_cost_requested", .float zeroUsd),
     ("estimated_cost_selected", .float zeroUsd)]

/-- The event of a suggestion that raised. -/
def suggestFailedArgs (c : SuggestCall) : EventArgs where
  sessionId := some c.sessionId
  agentId := c.agentId
  parentEventId := none
  kind := "routing.suggest_failed"
  model := none
  inputHash := none
  outputHash := none
  metadata :=
    [("requested_model", .str c.requestedModel), ("error_type", .str "ValidationError")]

section Module

variable (E : RoutingEnv) {U : Type}

/-- `_apply_rules`, with the event it emits. -/
def applyRules (scope : Option (Keyed String Policies.ScopePolicy)) (c : SuggestCall)
    (policy : RoutingPolicy) : Option (String × Option LoggedEvent) :=
  match policy.modelRules.lookup c.requestedModel with
  | none => some (c.requestedModel, none)
  | some target =>
      let selected := applyAllowedModelsConstraint scope c.agentId target c.requestedModel
      if selected ≠ c.requestedModel then do
        let event ← (rulesSuggestionArgs c selected "rules_match").construct E.nfc
        return (selected, some event)
      -- the rule matched, but its target is not allowed
      else if selected ≠ target then do
        let event ← (rulesSuggestionArgs c selected "allowed_models_constraint").construct E.nfc
        return (selected, some event)
      else some (selected, none)

variable {E} [LinearOrder U] [AddZeroClass U] [Sub U]
variable (F : UsdFloats E U) (M : RoutingModule U) (c : SuggestCall)

/-- The call of the cost-aware strategy. -/
def costAwareCall (policy : CostAwarePolicy) (reads : Option ((U × ℤ) × U × ℤ)) : RoutingCall where
  scope := M.scope
  agentId := c.agentId
  sessionId := c.sessionId
  requestedModel := c.requestedModel
  policy := policy
  snapshot := snapshot F (M.budgets c.agentId) reads
  maxTokens := c.maxTokens

/-- `_suggest_impl`; `none` stands for the `ValidationError` of an event. -/
def suggestImpl (reads : Option ((U × ℤ) × U × ℤ)) : Option (String × Option LoggedEvent) :=
  match M.policies c.agentId with
  | none => some (c.requestedModel, none)
  | some policy =>
      if h : policy.strategy = .costAware then
        (costAwareCall F M c ⟨policy, h⟩ reads).applyCostAware E
      else applyRules E M.scope c policy

/-- `suggest`, with the event that it hands to the audit module. -/
def suggest (reads : Option ((U × ℤ) × U × ℤ)) : String × Option LoggedEvent :=
  match suggestImpl F M c reads with
  | some suggestion => suggestion
  | none => (c.requestedModel, (suggestFailedArgs c).construct E.nfc)

end Module

/-! ## The reads of a run -/

inductive CostStoreKind where
  | memory
  | postgres

/-- What the store answers about a session after the calls of a log. -/
def CostStoreKind.usage {U : Type} [AddZeroClass U] (log : TrackLog U) (c : SuggestCall)
    (now : ℕ) : CostStoreKind → Option ((U × ℤ) × U × ℤ)
  | .memory =>
      some ((memoryAfter log).getSessionUsage c.agentId c.sessionId,
        (memoryAfter log).getAgentDailyUsage c.agentId (utcDay now))
  | .postgres => (tablesAfter log).map fun τ =>
      (τ.getSessionUsage c.agentId c.sessionId, τ.getAgentDailyUsage c.agentId (utcDay now))

section Usage

variable {U : Type} [AddZeroClass U] {log : TrackLog U} {c : SuggestCall} {now : ℕ}
  {reads : (U × ℤ) × U × ℤ}

/-- Both stores answer with the sums of what was tracked. -/
theorem usage_eq_total (hclock : log.Pairwise fun e f => e.1 ≤ f.1)
    (hpast : ∀ e ∈ log, e.1 ≤ now) {kind : CostStoreKind}
    (h : kind.usage log c now = some reads) :
    reads = (total (sessionLog log c.agentId c.sessionId),
      total (dayLog log c.agentId (utcDay now))) := by
  have hσ := tallies_memoryAfter hclock
  have hmemory : ((memoryAfter log).getSessionUsage c.agentId c.sessionId,
      (memoryAfter log).getAgentDailyUsage c.agentId (utcDay now)) =
      (total (sessionLog log c.agentId c.sessionId),
        total (dayLog log c.agentId (utcDay now))) := by
    rw [hσ.session, hσ.daily_read hpast]
  cases kind with
  | memory => exact (Option.some.inj h).symm.trans hmemory
  | postgres =>
      obtain ⟨τ, hτ, hreads⟩ := Option.map_eq_some_iff.mp h
      have htables := tablesTally_tablesAfter hτ
      rw [← hreads, sessionUsage_agree hσ htables, dailyUsage_agree hσ htables hpast, hmemory]

end Usage

/-! ## Spending only grows -/

section Spending

variable {E : RoutingEnv} {U : Type} [LinearOrder U] [AddZeroClass U] [Sub U]
  (F : UsdFloats E U)
include F

theorem foldl_addCall_le {log : TrackLog U} (hvalid : ∀ e ∈ log, ¬Rejected e.2) (t : U × ℤ) :
    t.1 ≤ (log.foldl (fun t e => addCall t e.2) t).1 := by
  induction log generalizing t with
  | nil => exact le_rfl
  | cons e log ih =>
      have husd : 0 ≤ e.2.usd := not_lt.mp fun hlt =>
        hvalid e List.mem_cons_self (Or.inr hlt)
      calc t.1 ≤ (addCall t e.2).1 := F.le_add husd
        _ ≤ _ := ih (fun f hf => hvalid f (List.mem_cons_of_mem e hf)) _

theorem total_append_le {log log' : TrackLog U} (hvalid : ∀ e ∈ log', ¬Rejected e.2) :
    (total log).1 ≤ (total (log ++ log')).1 := by
  rw [total, total, List.foldl_append]
  exact foldl_addCall_le F hvalid _

theorem total_filter_append_le {p : ℕ × TrackCall U → Bool} {log log' : TrackLog U}
    (hvalid : ∀ e ∈ log', ¬Rejected e.2) :
    (total (log.filter p)).1 ≤ (total ((log ++ log').filter p)).1 := by
  rw [List.filter_append]
  exact total_append_le F fun e he => hvalid e (List.mem_filter.mp he).1

/-- What is left stays below a threshold. -/
theorem below_remaining_mono {cap : Option U} {used used' : U} (hle : used ≤ used')
    {threshold : Option PyFloat}
    (h : RoutingCall.below E ((remainingUsd cap used).map F.toPy) threshold) :
    RoutingCall.below E ((remainingUsd cap used').map F.toPy) threshold := by
  rcases threshold with - | t
  · simp [RoutingCall.below] at h
  rcases cap with - | cap
  · simp [RoutingCall.below, remainingUsd] at h
  · exact F.lt_of_le (max_le_max_left 0 (F.sub_le_sub cap hle)) h

end Spending

/-! ## A call that is routed down -/

section RoutedDown

variable {E : RoutingEnv} {c : RoutingCall} {s : BudgetSnapshot}

/-- One of the two budgets is low. -/
theorem lowBudget_isSome_iff : (c.lowBudget E).isSome ↔
    RoutingCall.below E c.snapshot.sessionUsdRemaining c.policy.minSessionUsdForExpensive ∨
      RoutingCall.below E c.snapshot.agentDailyUsdRemaining c.policy.minDailyUsdForExpensive := by
  rw [RoutingCall.lowBudget]
  split_ifs with hsession hdaily
  · simp [hsession]
  · simp [hdaily]
  · simp [hsession, hdaily]

theorem routeDownReason_isSome_iff : (c.routeDownReason E).isSome ↔
    (c.isExpensiveTier ∨ c.policy.expensiveModel = none) ∧ (c.lowBudget E).isSome := by
  rw [RoutingCall.routeDownReason]
  split_ifs with htier
  · simp_all
  · simp_all

/-- A call with a reason suggests the first candidate that is allowed, if its event is
accepted. -/
theorem applyCostAware_of_reason (hreason : (c.routeDownReason E).isSome) :
    c.applyCostAware E = none ∨ ∃ event, c.applyCostAware E = some (c.firstAllowed, event) := by
  obtain ⟨reason, hreason⟩ := Option.isSome_iff_exists.mp hreason
  rw [RoutingCall.applyCostAware, constraint_self, hreason]
  by_cases hselected : c.firstAllowed = c.requestedModel
  · simp [hselected]
  · rcases hevent : c.emitSuggestionEvent E c.firstAllowed reason with - | event
    · simp [hselected, hevent]
    · simp [hselected, hevent]

/-- A call without one suggests what was requested. -/
theorem applyCostAware_of_no_reason (hreason : c.routeDownReason E = none) :
    c.applyCostAware E = some (c.requestedModel, none) := by
  rw [RoutingCall.applyCostAware, constraint_self, hreason]
  simp

end RoutedDown

/-! ## Suggestions stick -/

section Sticks

variable {E : RoutingEnv} {U : Type} [LinearOrder U] [AddZeroClass U] [Sub U]
  {F : UsdFloats E U} {M : RoutingModule U} {c : SuggestCall}
  {reads reads' : (U × ℤ) × U × ℤ}

theorem suggest_of_eq_some {r : Option ((U × ℤ) × U × ℤ)} {suggestion : String × Option LoggedEvent}
    (h : suggestImpl F M c r = some suggestion) : suggest F M c r = suggestion := by
  rw [suggest, h]

/-- The session budget of the agent is below the threshold of its policy. -/
def SessionLow (F : UsdFloats E U) (M : RoutingModule U) (c : SuggestCall)
    (reads : Option ((U × ℤ) × U × ℤ)) : Prop :=
  ∃ policy, M.policies c.agentId = some policy ∧
    RoutingCall.below E (snapshot F (M.budgets c.agentId) reads).sessionUsdRemaining
      policy.minSessionUsdForExpensive

/-- More has been spent in the session, and the session budget was low or more has been spent
on the day. -/
structure SpentMore (F : UsdFloats E U) (M : RoutingModule U) (c : SuggestCall)
    (reads reads' : (U × ℤ) × U × ℤ) : Prop where
  session : reads.1.1 ≤ reads'.1.1
  daily : SessionLow F M c (some reads) ∨ reads.2.1 ≤ reads'.2.1

/-- A low budget is still low when more has been spent. -/
theorem SpentMore.lowBudget (h : SpentMore F M c reads reads') {policy : CostAwarePolicy}
    (hpolicy : M.policies c.agentId = some policy.toRoutingPolicy)
    (hlow : ((costAwareCall F M c policy (some reads)).lowBudget E).isSome) :
    ((costAwareCall F M c policy (some reads')).lowBudget E).isSome := by
  rw [lowBudget_isSome_iff] at hlow ⊢
  rcases hlow with hsession | hdaily
  · exact Or.inl (below_remaining_mono F h.session hsession)
  · rcases h.daily with hlow | hle
    · obtain ⟨policy', hpolicy', hsession⟩ := hlow
      rw [hpolicy] at hpolicy'
      rw [← Option.some.inj hpolicy'] at hsession
      exact Or.inl (below_remaining_mono F h.session hsession)
    · exact Or.inr (below_remaining_mono F hle hdaily)

/-- What has been suggested in place of the requested model is suggested again. -/
theorem SpentMore.suggest (h : SpentMore F M c reads reads')
    (hother : (suggest F M c (some reads)).1 ≠ c.requestedModel) :
    (Routing.suggest F M c (some reads')).1 = (Routing.suggest F M c (some reads)).1 ∨
      suggestImpl F M c (some reads') = none := by
  rcases hpolicy : M.policies c.agentId with - | policy
  · -- without a policy nothing else is suggested
    have hsame : suggestImpl F M c (some reads) = some (c.requestedModel, none) := by
      rw [suggestImpl, hpolicy]
    rw [suggest_of_eq_some hsame] at hother
    exact absurd rfl hother
  · by_cases hstrategy : policy.strategy = .costAware
    · have himpl : ∀ r, suggestImpl F M c r =
          (costAwareCall F M c ⟨policy, hstrategy⟩ r).applyCostAware E := by
        intro r
        rw [suggestImpl, hpolicy]
        simp [hstrategy]
      have hreason : ((costAwareCall F M c ⟨policy, hstrategy⟩ (some reads)).routeDownReason
          E).isSome := by
        by_contra hnone
        rw [Option.not_isSome_iff_eq_none] at hnone
        have hsame := (himpl (some reads)).trans (applyCostAware_of_no_reason hnone)
        rw [suggest_of_eq_some hsame] at hother
        exact hother rfl
      have hreason' : ((costAwareCall F M c ⟨policy, hstrategy⟩ (some reads')).routeDownReason
          E).isSome := by
        rw [routeDownReason_isSome_iff] at hreason ⊢
        exact ⟨hreason.1, h.lowBudget hpolicy hreason.2⟩
      rcases applyCostAware_of_reason hreason' with hrefused | ⟨event', happly'⟩
      · exact Or.inr ((himpl _).trans hrefused)
      · left
        rcases applyCostAware_of_reason hreason with hrefused | ⟨event, happly⟩
        · rw [Routing.suggest, himpl, hrefused] at hother
          exact absurd rfl hother
        · -- the candidates do not depend on the budgets
          rw [suggest_of_eq_some ((himpl _).trans happly),
            suggest_of_eq_some ((himpl _).trans happly')]
          rfl
    · -- the rules do not read the budgets
      have himpl : suggestImpl F M c (some reads') = suggestImpl F M c (some reads) := by
        simp only [suggestImpl, hpolicy, hstrategy, dif_neg, not_false_eq_true]
      left
      rw [Routing.suggest, Routing.suggest, himpl]

variable {kind : CostStoreKind} {log log' : TrackLog U} {now now' : ℕ}

/-- What is tracked later adds to the session, and on the same day to the day. -/
theorem spentMore_of_usage (hclock : (log ++ log').Pairwise fun e f => e.1 ≤ f.1)
    (hpast : ∀ e ∈ log, e.1 ≤ now) (hpast' : ∀ e ∈ log ++ log', e.1 ≤ now')
    (hvalid : ∀ e ∈ log', ¬Rejected e.2)
    (hread : kind.usage log c now = some reads)
    (hread' : kind.usage (log ++ log') c now' = some reads')
    (hday : SessionLow F M c (some reads) ∨ utcDay now' = utcDay now) :
    SpentMore F M c reads reads' := by
  have htotal := usage_eq_total (List.pairwise_append.mp hclock).1 hpast hread
  have htotal' := usage_eq_total hclock hpast' hread'
  rw [htotal']
  refine ⟨?_, ?_⟩
  · rw [htotal]
    exact total_filter_append_le F hvalid
  · apply hday.imp_right
    intro hsame
    rw [htotal, hsame]
    exact total_filter_append_le F hvalid

end Sticks

/-- A call is suggested another model than it requests.  Whatever is tracked after that, on
the same day it is suggested this model again, unless its own event is refused; and beyond the
day if it was the session budget that was low. -/
theorem suggestion_sticks {E : RoutingEnv} {U : Type} [LinearOrder U] [AddZeroClass U] [Sub U]
    (F : UsdFloats E U) (M : RoutingModule U) (c : SuggestCall) (kind : CostStoreKind)
    {log log' : TrackLog U} {now now' : ℕ}
    (hclock : (log ++ log').Pairwise fun e f => e.1 ≤ f.1)
    (hpast : ∀ e ∈ log, e.1 ≤ now) (hpast' : ∀ e ∈ log ++ log', e.1 ≤ now')
    (hvalid : ∀ e ∈ log', ¬Rejected e.2)
    (hread : (kind.usage log c now).isSome) (hread' : (kind.usage (log ++ log') c now').isSome)
    (hday : SessionLow F M c (kind.usage log c now) ∨ utcDay now' = utcDay now)
    (hother : (suggest F M c (kind.usage log c now)).1 ≠ c.requestedModel) :
    (suggest F M c (kind.usage (log ++ log') c now')).1 =
        (suggest F M c (kind.usage log c now)).1 ∨
      suggestImpl F M c (kind.usage (log ++ log') c now') = none := by
  obtain ⟨reads, hreads⟩ := Option.isSome_iff_exists.mp hread
  obtain ⟨reads', hreads'⟩ := Option.isSome_iff_exists.mp hread'
  rw [hreads] at hday hother ⊢
  rw [hreads']
  exact (spentMore_of_usage hclock hpast hpast' hvalid hreads hreads' hday).suggest hother

/-! ### A session that has spent its budget -/

/-- Nothing is left of the budget, and the costs print as `0.0`. -/
def spentEnv : RoutingEnv where
  nfc := id
  lt r t := decide (r = zeroUsd ∧ t = .fixed false [1] [0])
  usd _ := zeroUsd

def spentFloats : UsdFloats spentEnv ℚ where
  toPy x := if x ≤ 0 then zeroUsd else .fixed false [1, 0] [0]
  lt_of_le := by
    intro a b t hle hlt
    by_cases hb : b ≤ 0
    · simpa [hb, hle.trans hb] using hlt
    · simp [spentEnv, zeroUsd, hb] at hlt
  le_add := by
    intro a b hb
    linarith
  sub_le_sub := by
    intro a b c hle
    linarith

def twoTiers : RoutingPolicy where
  agentId := "agent-a"
  strategy := .costAware
  cheapModel := some "haiku"
  midModel := none
  expensiveModel := some "opus"
  minSessionUsdForExpensive := some (.fixed false [1] [0])
  minDailyUsdForExpensive := none
  modelRules := []
  valid :=
    { agentId := by decide
      tierLengths := by decide
      minSessionUsd := by decide
      minDailyUsd := by decide
      costAware := fun _ => by decide
      rules := fun h => by simp at h
      ruleLengths := by simp }

/-- Ten dollars for each session. -/
def tenDollarSessions : BudgetPolicy ℚ where
  perSessionUsd := some 10
  perSessionTokens := none
  perAgentUsdDaily := none
  perAgentTokensDaily := none
  perSessionSeconds := none
  sessionTokens_le := le_of_unset _
  dailyTokens_le := le_of_unset _
  seconds_le := le_of_unset _
  anySet := ⟨.perSessionUsd, by simp [PolicyCaps.Sets]⟩

def spentModule : RoutingModule ℚ where
  policies _ := some twoTiers
  scope := none
  budgets _ := some tenDollarSessions

def opusCall : SuggestCall := ⟨"agent-a", ⟨1⟩, "opus", 1000⟩

/-- The session spends its budget in one call and makes another one on the next day. -/
def spentLog : TrackLog ℚ := [(0, ⟨"agent-a", ⟨1⟩, 100, 10, none⟩)]

def nextDayLog : TrackLog ℚ := [(microsecondsPerDay, ⟨"agent-a", ⟨1⟩, 100, 5, none⟩)]

theorem usage_spentLog :
    CostStoreKind.memory.usage spentLog opusCall 0 = some ((10, 100), (10, 100)) := by
  decide +kernel

/-- The call of the cost-aware strategy after the first day. -/
def spentCall : RoutingCall :=
  costAwareCall spentFloats spentModule opusCall ⟨twoTiers, rfl⟩ (some ((10, 100), (10, 100)))

theorem estimatedCost_spentCall (model : String) :
    spentCall.estimatedCost spentEnv model = zeroUsd := by
  rw [RoutingCall.estimatedCost]
  rcases estimateCost model (spentCall.maxTokens / 4) spentCall.maxTokens false none with e | usd
  · rfl
  · rfl

theorem applyCostAware_spentCall :
    ∃ event, spentCall.applyCostAware spentEnv = some ("haiku", some event) := by
  have hreason : spentCall.routeDownReason spentEnv = some "session_budget_low" := by
    decide +kernel
  have hfirst : spentCall.firstAllowed = "haiku" := by decide +kernel
  have haccepted : (spentCall.suggestionArgs spentEnv "haiku" "session_budget_low").Accepted := by
    rw [RoutingCall.suggestionArgs, estimatedCost_spentCall, estimatedCost_spentCall]
    decide +kernel
  have hevent : spentCall.emitSuggestionEvent spentEnv "haiku" "session_budget_low" =
      some ((spentCall.suggestionArgs spentEnv "haiku" "session_budget_low").sanitize id) :=
    EventArgs.construct_eq_some_iff.mpr ⟨haccepted, rfl⟩
  have hne : "haiku" ≠ spentCall.requestedModel := by decide
  refine ⟨(spentCall.suggestionArgs spentEnv "haiku" "session_budget_low").sanitize id, ?_⟩
  rw [RoutingCall.applyCostAware, hreason]
  simp only [hfirst, hne, if_false, ne_eq, not_false_eq_true, if_true, hevent]
  rfl

/-- The cheap tier is suggested again on the next day. -/
theorem haiku_sticks :
    (suggest spentFloats spentModule opusCall
        (CostStoreKind.memory.usage (spentLog ++ nextDayLog) opusCall microsecondsPerDay)).1 =
        (suggest spentFloats spentModule opusCall
          (CostStoreKind.memory.usage spentLog opusCall 0)).1 ∨
      suggestImpl spentFloats spentModule opusCall
        (CostStoreKind.memory.usage (spentLog ++ nextDayLog) opusCall microsecondsPerDay) =
        none := by
  have hlow : SessionLow spentFloats spentModule opusCall
      (CostStoreKind.memory.usage spentLog opusCall 0) := by
    rw [usage_spentLog]
    exact ⟨twoTiers, rfl, by decide +kernel⟩
  have hother : (suggest spentFloats spentModule opusCall
      (CostStoreKind.memory.usage spentLog opusCall 0)).1 ≠ opusCall.requestedModel := by
    obtain ⟨event, happly⟩ := applyCostAware_spentCall
    have himpl : suggestImpl spentFloats spentModule opusCall (some ((10, 100), (10, 100))) =
        some ("haiku", some event) := happly
    have hne : "haiku" ≠ opusCall.requestedModel := by decide
    rwa [usage_spentLog, suggest_of_eq_some himpl]
  exact suggestion_sticks spentFloats spentModule opusCall .memory (by decide) (by decide)
    (by decide) (by decide +kernel) rfl rfl (Or.inl hlow) hother

end AgenticGovernance.Routing

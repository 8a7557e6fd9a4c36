import Mathlib
import AgenticGovernance.Support.Double
import AgenticGovernance.Support.Keyed
import AgenticGovernance.Support.PyValue

/-!
# Stored policies

A registered policy is dumped as JSON into `governance_policies`, and a hot reload validates
the decoded column again.  The dump is in JSON mode, where a set is a list and a secret is
masked; the validation is in strict mode on Python data, where a set must be a set.

So no scope policy is ever read back, and a budget policy is read back with its secret
masked.
-/

namespace AgenticGovernance.Policies

open Support

/-! ## Strict validation -/

/-- What a field is validated from: a decoded value, a set of values, or a `SecretStr`. -/
inductive FieldInput where
  | value (v : PyValue)
  | set (items : List PyValue)
  | secretStr (s : String)

abbrev ModelInput := List (String × FieldInput)

def strictStr : FieldInput → Option String
  | .value (.str s) => some s
  | _ => none

def strictInt : FieldInput → Option ℤ
  | .value (.int n) => some n
  | _ => none

/-- Strict mode takes an integer for a float, as `float(n)`. -/
def strictFloat (floatOfInt : ℤ → PyFloat) : FieldInput → Option PyFloat
  | .value (.float x) => some x
  | .value (.int n) => some (floatOfInt n)
  | _ => none

def strictStrSet : FieldInput → Option (Finset String)
  | .set items => (items.mapM fun v => strictStr (.value v)).map List.toFinset
  | _ => none

def strictSecret : FieldInput → Option String
  | .secretStr s => some s
  | .value (.str s) => some s
  | _ => none

/-- A field of type `T | None`. -/
def orNone {α : Type} (validate : FieldInput → Option α) : FieldInput → Option (Option α)
  | .value .none => some none
  | x => (validate x).map some

/-- A field with its default, if it has one. -/
def field {α : Type} (input : ModelInput) (name : String) (default : Option α)
    (validate : FieldInput → Option α) : Option α :=
  match input.lookup name with
  | none => default
  | some x => validate x

/-- `extra="forbid"` -/
def checkExtra (names : List String) (input : ModelInput) : Option Unit :=
  if input.all fun e => e.1 ∈ names then some () else none

/-- The decoded JSON that `model_validate` gets; `none` if it is no object. -/
def decodedInput : PyValue → Option ModelInput
  | .dict entries => entries.mapM fun e =>
      match e.1 with
      | .str key => some (key, .value e.2)
      | _ => none
  | _ => none

/-! ## Scope policies -/

structure ScopeFields where
  agentId : String
  allowedTools : Finset String
  allowedApis : Finset String
  hiddenTools : Finset String
  allowedModels : Finset String

def maxAgentIdLen : ℕ := 256

def maxSetSize : ℕ := 1024

def lengthWithin (limit : ℕ) (s : String) : Prop := 1 ≤ s.length ∧ s.length ≤ limit

instance (limit : ℕ) (s : String) : Decidable (lengthWithin limit s) :=
  inferInstanceAs (Decidable (_ ∧ _))

/-- The constraints of the fields and `model_post_init`. -/
structure ScopeFields.Valid (f : ScopeFields) : Prop where
  agentId : lengthWithin maxAgentIdLen f.agentId
  allowedTools_card : f.allowedTools.card ≤ maxSetSize
  allowedApis_card : f.allowedApis.card ≤ maxSetSize
  hiddenTools_card : f.hiddenTools.card ≤ maxSetSize
  allowedTools : ∀ tool ∈ f.allowedTools, lengthWithin 256 tool
  allowedApis : ∀ api ∈ f.allowedApis, lengthWithin 512 api
  hiddenTools : ∀ tool ∈ f.hiddenTools, lengthWithin 256 tool
  allowedModels : ∀ model ∈ f.allowedModels, lengthWithin 128 model

instance (f : ScopeFields) : Decidable f.Valid :=
  decidable_of_iff
    (lengthWithin maxAgentIdLen f.agentId ∧ f.allowedTools.card ≤ maxSetSize ∧
      f.allowedApis.card ≤ maxSetSize ∧ f.hiddenTools.card ≤ maxSetSize ∧
      (∀ tool ∈ f.allowedTools, lengthWithin 256 tool) ∧
      (∀ api ∈ f.allowedApis, lengthWithin 512 api) ∧
      (∀ tool ∈ f.hiddenTools, lengthWithin 256 tool) ∧
      ∀ model ∈ f.allowedModels, lengthWithin 128 model)
    ⟨fun ⟨h₁, h₂, h₃, h₄, h₅, h₆, h₇, h₈⟩ => ⟨h₁, h₂, h₃, h₄, h₅, h₆, h₇, h₈⟩,
      fun ⟨h₁, h₂, h₃, h₄, h₅, h₆, h₇, h₈⟩ => ⟨h₁, h₂, h₃, h₄, h₅, h₆, h₇, h₈⟩⟩

structure ScopePolicy extends ScopeFields where
  valid : toScopeFields.Valid

/-- `none` is the `ValidationError`. -/
def ScopePolicy.construct (f : ScopeFields) : Option ScopePolicy :=
  if h : f.Valid then some ⟨f, h⟩ else none

def scopeFieldNames : List String :=
  ["agent_id", "allowed_tools", "allowed_apis", "hidden_tools", "allowed_models"]

/-- The fields of a scope policy, each validated. -/
def ScopePolicy.fromInput (input : ModelInput) : Option ScopePolicy := do
  checkExtra scopeFieldNames input
  let agentId ← field input "agent_id" none strictStr
  let allowedTools ← field input "allowed_tools" (some ∅) strictStrSet
  let allowedApis ← field input "allowed_apis" (some ∅) strictStrSet
  let hiddenTools ← field input "hidden_tools" (some ∅) strictStrSet
  let allowedModels ← field input "allowed_models" (some ∅) strictStrSet
  ScopePolicy.construct ⟨agentId, allowedTools, allowedApis, hiddenTools, allowedModels⟩

/-- `ScopePolicy.model_validate(data)` -/
def ScopePolicy.modelValidate (data : PyValue) : Option ScopePolicy := do
  ScopePolicy.fromInput (← decodedInput data)

/-- `policy.model_dump(mode="json")`; `iterate` is the order in which Python goes through a
set. -/
def ScopePolicy.modelDump (iterate : Finset String → List String) (p : ScopePolicy) : Json :=
  .obj
    [("agent_id", .str p.agentId),
     ("allowed_tools", .arr ((iterate p.allowedTools).map .str)),
     ("allowed_apis", .arr ((iterate p.allowedApis).map .str)),
     ("hidden_tools", .arr ((iterate p.hiddenTools).map .str)),
     ("allowed_models", .arr ((iterate p.allowedModels).map .str))]

/-! ## Budget policies -/

structure BudgetFields where
  agentId : String
  perSessionUsd : Option PyFloat
  perSessionTokens : Option ℤ
  perAgentUsdDaily : Option PyFloat
  perAgentTokensDaily : Option ℤ
  perSessionSeconds : Option ℤ
  alertWebhookUrl : Option String
  alertWebhookSecret : Option String
  alertThresholdPct : ℤ

/-- `0.0 <= x <= MAX_USD_CAP` -/
def usdInRange (x : PyFloat) : Prop :=
  x ≠ .nan ∧ (∀ neg, x ≠ .infinity neg) ∧ (x.isNeg = false ∨ x.IsZero) ∧
    (x.coefficient : ℚ) * 10 ^ x.power ≤ 1000000

def intWithin (least most n : ℤ) : Prop := least ≤ n ∧ n ≤ most

instance (x : PyFloat) : Decidable (usdInRange x) := inferInstanceAs (Decidable (_ ∧ _))

instance (least most n : ℤ) : Decidable (intWithin least most n) :=
  inferInstanceAs (Decidable (_ ∧ _))

/-- The property holds of a value that is set. -/
def WhenSet {α : Type} (P : α → Prop) (x : Option α) : Prop := ∀ a, x = some a → P a

instance {α : Type} (P : α → Prop) [DecidablePred P] (x : Option α) : Decidable (WhenSet P x) :=
  match x with
  | none => isTrue (by rintro a ⟨⟩)
  | some a => decidable_of_iff (P a) ⟨by rintro h _ ⟨⟩; exact h, fun h => h a rfl⟩

/-- The constraints of the fields and `model_post_init`. -/
structure BudgetFields.Valid (f : BudgetFields) : Prop where
  agentId : lengthWithin maxAgentIdLen f.agentId
  perSessionUsd : WhenSet usdInRange f.perSessionUsd
  perSessionTokens : WhenSet (intWithin 0 1000000000) f.perSessionTokens
  perAgentUsdDaily : WhenSet usdInRange f.perAgentUsdDaily
  perAgentTokensDaily : WhenSet (intWithin 0 1000000000) f.perAgentTokensDaily
  perSessionSeconds : WhenSet (intWithin 0 86400) f.perSessionSeconds
  alertWebhookUrl : WhenSet (fun url => url.length ≤ 2048) f.alertWebhookUrl
  alertThresholdPct : intWithin 1 100 f.alertThresholdPct
  anySet : f.perSessionUsd.isSome ∨ f.perSessionTokens.isSome ∨ f.perAgentUsdDaily.isSome ∨
    f.perAgentTokensDaily.isSome ∨ f.perSessionSeconds.isSome
  webhook : f.alertWebhookUrl.isSome → f.perAgentUsdDaily.isSome

instance (f : BudgetFields) : Decidable f.Valid :=
  decidable_of_iff
    (lengthWithin maxAgentIdLen f.agentId ∧ WhenSet usdInRange f.perSessionUsd ∧
      WhenSet (intWithin 0 1000000000) f.perSessionTokens ∧
      WhenSet usdInRange f.perAgentUsdDaily ∧
      WhenSet (intWithin 0 1000000000) f.perAgentTokensDaily ∧
      WhenSet (intWithin 0 86400) f.perSessionSeconds ∧
      WhenSet (fun url => url.length ≤ 2048) f.alertWebhookUrl ∧
      intWithin 1 100 f.alertThresholdPct ∧
      (f.perSessionUsd.isSome ∨ f.perSessionTokens.isSome ∨ f.perAgentUsdDaily.isSome ∨
        f.perAgentTokensDaily.isSome ∨ f.perSessionSeconds.isSome) ∧
      (f.alertWebhookUrl.isSome → f.perAgentUsdDaily.isSome))
    ⟨fun ⟨h₁, h₂, h₃, h₄, h₅, h₆, h₇, h₈, h₉, h₁₀⟩ =>
        ⟨h₁, h₂, h₃, h₄, h₅, h₆, h₇, h₈, h₉, h₁₀⟩,
      fun ⟨h₁, h₂, h₃, h₄, h₅, h₆, h₇, h₈, h₉, h₁₀⟩ =>
        ⟨h₁, h₂, h₃, h₄, h₅, h₆, h₇, h₈, h₉, h₁₀⟩⟩

structure BudgetPolicy extends BudgetFields where
  valid : toBudgetFields.Valid

def BudgetPolicy.construct (f : BudgetFields) : Option BudgetPolicy :=
  if h : f.Valid then some ⟨f, h⟩ else none

def budgetFieldNames : List String :=
  ["agent_id", "per_session_usd", "per_session_tokens", "per_agent_usd_daily",
    "per_agent_tokens_daily", "per_session_seconds", "alert_webhook_url",
    "alert_webhook_secret", "alert_threshold_pct"]

section Budget

variable (floatOfInt : ℤ → PyFloat)

/-- The fields of a budget policy, each validated. -/
def BudgetPolicy.fromInput (input : ModelInput) : Option BudgetPolicy := do
  checkExtra budgetFieldNames input
  let agentId ← field input "agent_id" none strictStr
  let perSessionUsd ← field input "per_session_usd" (some none) (orNone (strictFloat floatOfInt))
  let perSessionTokens ← field input "per_session_tokens" (some none) (orNone strictInt)
  let perAgentUsdDaily ←
    field input "per_agent_usd_daily" (some none) (orNone (strictFloat floatOfInt))
  let perAgentTokensDaily ← field input "per_agent_tokens_daily" (some none) (orNone strictInt)
  let perSessionSeconds ← field input "per_session_seconds" (some none) (orNone strictInt)
  let alertWebhookUrl ← field input "alert_webhook_url" (some none) (orNone strictStr)
  let alertWebhookSecret ← field input "alert_webhook_secret" (some none) (orNone strictSecret)
  let alertThresholdPct ← field input "alert_threshold_pct" (some 80) strictInt
  BudgetPolicy.construct
    ⟨agentId, perSessionUsd, perSessionTokens, perAgentUsdDaily, perAgentTokensDaily,
      perSessionSeconds, alertWebhookUrl, alertWebhookSecret, alertThresholdPct⟩

/-- `BudgetPolicy.model_validate(data)` -/
def BudgetPolicy.modelValidate (data : PyValue) : Option BudgetPolicy := do
  BudgetPolicy.fromInput floatOfInt (← decodedInput data)

end Budget

/-- What a `SecretStr` is dumped as. -/
def maskSecret (secret : String) : String := if secret = "" then "" else "**********"

/-- `null` for a field that is not set. -/
def optionally {α : Type} (f : α → Json) : Option α → Json
  | none => .null
  | some a => f a

/-- `policy.model_dump(mode="json")` -/
def BudgetPolicy.modelDump (p : BudgetPolicy) : Json :=
  .obj
    [("agent_id", .str p.agentId),
     ("per_session_usd", optionally .float p.perSessionUsd),
     ("per_session_tokens", optionally .int p.perSessionTokens),
     ("per_agent_usd_daily", optionally .float p.perAgentUsdDaily),
     ("per_agent_tokens_daily", optionally .int p.perAgentTokensDaily),
     ("per_session_seconds", optionally .int p.perSessionSeconds),
     ("alert_webhook_url", optionally .str p.alertWebhookUrl),
     ("alert_webhook_secret", optionally .str (p.alertWebhookSecret.map maskSecret)),
     ("alert_threshold_pct", .int p.alertThresholdPct)]

/-! ## The table -/

/-- `governance_policies`, by agent and policy type; JSONB keeps the value. -/
abbrev PolicyTable := Keyed (String × String) Json

inductive StoredPolicy where
  | scope (p : ScopePolicy)
  | budget (p : BudgetPolicy)

section Table

variable (iterate : Finset String → List String) (floatOfInt : ℤ → PyFloat)
  -- the collation of `ORDER BY agent_id`
  (le : String → String → Bool)

/-- `_upsert_policy` -/
def upsertPolicy (table : PolicyTable) : StoredPolicy → PolicyTable
  | .scope p => table.set (p.agentId, "scope") (p.modelDump iterate)
  | .budget p => table.set (p.agentId, "budget") p.modelDump

def tableOf (upserts : List StoredPolicy) : PolicyTable :=
  upserts.foldl (upsertPolicy iterate) .empty

/-- The column `policy_json` of the rows of one type. -/
def selectPolicies (policyType : String) (table : PolicyTable) : List Json :=
  ((table.entries.filter fun e => e.1.2 = policyType).mergeSort
    fun e e' => le e.1.1 e'.1.1).map Prod.snd

/-- `ScopeModule.get_stored_policies`; `none` is the `ValidationError` of any row. -/
def getStoredScopePolicies (table : PolicyTable) : Option (List ScopePolicy) :=
  (selectPolicies le "scope" table).mapM fun j => ScopePolicy.modelValidate (.ofJson j)

/-- `CostModule.get_stored_policies` -/
def getStoredBudgetPolicies (table : PolicyTable) : Option (List BudgetPolicy) :=
  (selectPolicies le "budget" table).mapM fun j =>
    BudgetPolicy.modelValidate floatOfInt (.ofJson j)

/-- The stored list can be read, and the policy is in it. -/
def StoredPolicy.IsReadFrom (table : PolicyTable) : StoredPolicy → Prop
  | .scope p => ∃ policies, getStoredScopePolicies le table = some policies ∧ p ∈ policies
  | .budget p =>
      ∃ policies, getStoredBudgetPolicies floatOfInt le table = some policies ∧ p ∈ policies

end Table

/-- The secret is its own mask. -/
def BudgetPolicy.SecretShows (p : BudgetPolicy) : Prop :=
  ∀ secret, p.alertWebhookSecret = some secret → secret = "" ∨ secret = "**********"

/-- A policy whose dump loses nothing that strict validation needs. -/
def StoredPolicy.Reloads : StoredPolicy → Prop
  | .scope _ => False
  | .budget p => p.SecretShows

/-! ## Single policies -/

section Single

variable {iterate : Finset String → List String} {floatOfInt : ℤ → PyFloat}

/-- A list is no set, not even an empty one. -/
theorem ScopePolicy.modelValidate_modelDump (p : ScopePolicy) :
    ScopePolicy.modelValidate (.ofJson (p.modelDump iterate)) = none := by
  rfl

theorem orNone_optionally {α : Type} {validate : FieldInput → Option α} {f : α → Json}
    (hf : ∀ a, orNone validate (.value (.ofJson (f a))) = some (some a)) (x : Option α) :
    orNone validate (.value (.ofJson (optionally f x))) = some x := by
  cases x with
  | none => rfl
  | some a => exact hf a

/-- The fields that are read back. -/
def BudgetPolicy.masked (p : BudgetPolicy) : BudgetFields :=
  { p.toBudgetFields with alertWebhookSecret := p.alertWebhookSecret.map maskSecret }

theorem BudgetPolicy.masked_valid (p : BudgetPolicy) : p.masked.Valid :=
  { p.valid with }

/-- What validation gets of a dumped budget policy. -/
def BudgetPolicy.dumpedInput (p : BudgetPolicy) : ModelInput :=
  [("agent_id", .value (.str p.agentId)),
   ("per_session_usd", .value (.ofJson (optionally .float p.perSessionUsd))),
   ("per_session_tokens", .value (.ofJson (optionally .int p.perSessionTokens))),
   ("per_agent_usd_daily", .value (.ofJson (optionally .float p.perAgentUsdDaily))),
   ("per_agent_tokens_daily", .value (.ofJson (optionally .int p.perAgentTokensDaily))),
   ("per_session_seconds", .value (.ofJson (optionally .int p.perSessionSeconds))),
   ("alert_webhook_url", .value (.ofJson (optionally .str p.alertWebhookUrl))),
   ("alert_webhook_secret",
      .value (.ofJson (optionally .str (p.alertWebhookSecret.map maskSecret)))),
   ("alert_threshold_pct", .value (.int p.alertThresholdPct))]

/-- A budget policy is read back with its secret masked. -/
theorem BudgetPolicy.modelValidate_modelDump (p : BudgetPolicy) :
    BudgetPolicy.modelValidate floatOfInt (.ofJson p.modelDump) =
      some ⟨p.masked, p.masked_valid⟩ := by
  have hinput : BudgetPolicy.modelValidate floatOfInt (.ofJson p.modelDump) =
      BudgetPolicy.fromInput floatOfInt p.dumpedInput := rfl
  have hextra : checkExtra budgetFieldNames p.dumpedInput = some () := rfl
  have hagent : field p.dumpedInput "agent_id" none strictStr = some p.agentId := rfl
  have hsession : field p.dumpedInput "per_session_usd" (some none)
      (orNone (strictFloat floatOfInt)) = some p.perSessionUsd :=
    orNone_optionally (f := .float) (fun _ => rfl) p.perSessionUsd
  have htokens : field p.dumpedInput "per_session_tokens" (some none) (orNone strictInt) =
      some p.perSessionTokens :=
    orNone_optionally (f := .int) (fun _ => rfl) p.perSessionTokens
  have hdaily : field p.dumpedInput "per_agent_usd_daily" (some none)
      (orNone (strictFloat floatOfInt)) = some p.perAgentUsdDaily :=
    orNone_optionally (f := .float) (fun _ => rfl) p.perAgentUsdDaily
  have hdailyTokens : field p.dumpedInput "per_agent_tokens_daily" (some none)
      (orNone strictInt) = some p.perAgentTokensDaily :=
    orNone_optionally (f := .int) (fun _ => rfl) p.perAgentTokensDaily
  have hseconds : field p.dumpedInput "per_session_seconds" (some none) (orNone strictInt) =
      some p.perSessionSeconds :=
    orNone_optionally (f := .int) (fun _ => rfl) p.perSessionSeconds
  have hurl : field p.dumpedInput "alert_webhook_url" (some none) (orNone strictStr) =
      some p.alertWebhookUrl :=
    orNone_optionally (f := .str) (fun _ => rfl) p.alertWebhookUrl
  have hsecret : field p.dumpedInput "alert_webhook_secret" (some none) (orNone strictSecret) =
      some (p.alertWebhookSecret.map maskSecret) :=
    orNone_optionally (f := .str) (fun _ => rfl) (p.alertWebhookSecret.map maskSecret)
  have hthreshold : field p.dumpedInput "alert_threshold_pct" (some 80) strictInt =
      some p.alertThresholdPct := rfl
  have hconstruct : BudgetPolicy.construct p.masked = some ⟨p.masked, p.masked_valid⟩ :=
    dif_pos p.masked_valid
  rw [hinput, BudgetPolicy.fromInput, hextra, hagent, hsession, htokens, hdaily, hdailyTokens,
    hseconds, hurl, hsecret, hthreshold]
  exact hconstruct

/-- The mask changes no secret that is its own mask, and every other one. -/
theorem maskSecret_eq_self_iff {secret : String} :
    maskSecret secret = secret ↔ secret = "" ∨ secret = "**********" := by
  rw [maskSecret]
  by_cases hempty : secret = ""
  · simp [hempty]
  · rw [if_neg hempty]
    constructor
    · intro h
      exact Or.inr h.symm
    · rintro (h | h)
      · exact absurd h hempty
      · exact h.symm

theorem BudgetPolicy.masked_eq_iff (p : BudgetPolicy) :
    (⟨p.masked, p.masked_valid⟩ : BudgetPolicy) = p ↔ p.SecretShows := by
  have hfields : (⟨p.masked, p.masked_valid⟩ : BudgetPolicy) = p ↔
      p.alertWebhookSecret.map maskSecret = p.alertWebhookSecret := by
    obtain ⟨fields, hvalid⟩ := p
    rw [BudgetPolicy.mk.injEq, BudgetPolicy.masked]
    constructor
    · intro h
      exact congrArg BudgetFields.alertWebhookSecret h
    · intro h
      change { fields with alertWebhookSecret := fields.alertWebhookSecret.map maskSecret } = fields
      rw [h]
  rw [hfields, SecretShows]
  rcases p.alertWebhookSecret with _ | secret
  · simp
  · simp [maskSecret_eq_self_iff]

end Single

/-! ## The stored list -/

/-- Reading a list item by item. -/
theorem exists_mapM_mem_iff {α β : Type} {f : α → Option β} {l : List α} {b : β} :
    (∃ bs, l.mapM f = some bs ∧ b ∈ bs) ↔ (∀ a ∈ l, (f a).isSome) ∧ ∃ a ∈ l, f a = some b := by
  have hreads : ∀ l : List α, (∀ a ∈ l, (f a).isSome) →
      ∃ bs, l.mapM f = some bs ∧ ∀ b, b ∈ bs ↔ ∃ a ∈ l, f a = some b := by
    intro l
    induction l with
    | nil => exact fun _ => ⟨[], rfl, by simp⟩
    | cons a l ih =>
        intro hall
        rw [List.forall_mem_cons] at hall
        obtain ⟨c, hc⟩ := Option.isSome_iff_exists.mp hall.1
        obtain ⟨bs, hbs, hmem⟩ := ih hall.2
        refine ⟨c :: bs, ?_, ?_⟩
        · rw [List.mapM_cons, hc, hbs]
          rfl
        · intro b
          rw [List.mem_cons, hmem]
          simp [hc, eq_comm]
  have hsome : ∀ (l : List α) bs, l.mapM f = some bs → ∀ a ∈ l, (f a).isSome := by
    intro l
    induction l with
    | nil => simp
    | cons a l ih =>
        intro bs hbs
        rw [List.mapM_cons] at hbs
        obtain ⟨c, hc, hbs⟩ := Option.bind_eq_some_iff.mp hbs
        obtain ⟨rest, hrest, -⟩ := Option.bind_eq_some_iff.mp hbs
        rw [List.forall_mem_cons]
        exact ⟨by rw [hc]; rfl, ih rest hrest⟩
  constructor
  · rintro ⟨bs, hbs, hb⟩
    have hall := hsome l bs hbs
    obtain ⟨bs', hbs', hmem⟩ := hreads l hall
    obtain rfl := Option.some.inj (hbs.symm.trans hbs')
    exact ⟨hall, (hmem b).mp hb⟩
  · rintro ⟨hall, hb⟩
    obtain ⟨bs, hbs, hmem⟩ := hreads l hall
    exact ⟨bs, hbs, (hmem b).mpr hb⟩

section Stored

variable {iterate : Finset String → List String} {floatOfInt : ℤ → PyFloat}
  {le : String → String → Bool} {table : PolicyTable} {upserts : List StoredPolicy}

theorem mem_selectPolicies {policyType : String} {j : Json} :
    j ∈ selectPolicies le policyType table ↔
      ∃ agentId, table.get? (agentId, policyType) = some j := by
  rw [selectPolicies, List.mem_map]
  constructor
  · rintro ⟨⟨⟨agentId, kind⟩, j⟩, he, rfl⟩
    rw [List.mem_mergeSort, List.mem_filter, decide_eq_true_eq] at he
    obtain ⟨hentry, rfl⟩ := he
    exact ⟨agentId, Keyed.mem_entries_iff.mp hentry⟩
  · rintro ⟨agentId, hget⟩
    refine ⟨((agentId, policyType), j), ?_, rfl⟩
    rw [List.mem_mergeSort, List.mem_filter]
    exact ⟨Keyed.mem_entries_iff.mpr hget, decide_eq_true rfl⟩

theorem tableOf_append (p : StoredPolicy) :
    tableOf iterate (upserts ++ [p]) = upsertPolicy iterate (tableOf iterate upserts) p := by
  rw [tableOf, tableOf, List.foldl_append]
  rfl

/-- Budget rows are dumps of policies of their agents. -/
theorem budget_row_of_tableOf {agentId : String} {j : Json}
    (h : (tableOf iterate upserts).get? (agentId, "budget") = some j) :
    ∃ q : BudgetPolicy, q.agentId = agentId ∧ q.modelDump = j := by
  induction upserts using List.reverseRecOn with
  | nil => cases h
  | append_singleton upserts p ih =>
      rw [tableOf_append] at h
      cases p with
      | scope q =>
          rw [upsertPolicy, Keyed.get?_set_of_ne (by simp)] at h
          exact ih h
      | budget q =>
          rw [upsertPolicy] at h
          by_cases hagent : agentId = q.agentId
          · subst hagent
            rw [Keyed.get?_set_self] at h
            exact ⟨q, rfl, Option.some.inj h⟩
          · rw [Keyed.get?_set_of_ne (by simp [hagent])] at h
            exact ih h

/-- The row of a scope policy cannot be read, and then no row is. -/
theorem scope_not_read (upserts : List StoredPolicy) (p q : ScopePolicy) :
    ¬ (StoredPolicy.scope q).IsReadFrom floatOfInt le
      (tableOf iterate (upserts ++ [.scope p])) := by
  intro hread
  obtain ⟨hall, -⟩ := exists_mapM_mem_iff.mp hread
  have hrow : p.modelDump iterate ∈
      selectPolicies le "scope" (tableOf iterate (upserts ++ [.scope p])) := by
    refine mem_selectPolicies.mpr ⟨p.agentId, ?_⟩
    rw [tableOf_append, upsertPolicy, Keyed.get?_set_self]
  have hsome := hall _ hrow
  rw [p.modelValidate_modelDump] at hsome
  cases hsome

/-- A budget policy is in the list if its secret is its own mask. -/
theorem budget_read_iff (upserts : List StoredPolicy) (p : BudgetPolicy) :
    (StoredPolicy.budget p).IsReadFrom floatOfInt le
      (tableOf iterate (upserts ++ [.budget p])) ↔ p.SecretShows := by
  have hstored : (tableOf iterate (upserts ++ [.budget p])).get? (p.agentId, "budget") =
      some p.modelDump := by
    rw [tableOf_append, upsertPolicy, Keyed.get?_set_self]
  rw [← p.masked_eq_iff]
  refine exists_mapM_mem_iff.trans ?_
  constructor
  · rintro ⟨-, j, hj, hread⟩
    obtain ⟨agentId, hrow⟩ := mem_selectPolicies.mp hj
    obtain ⟨q, hagent, rfl⟩ := budget_row_of_tableOf hrow
    have hmasked : (⟨q.masked, q.masked_valid⟩ : BudgetPolicy) = p :=
      Option.some.inj (q.modelValidate_modelDump.symm.trans hread)
    have hsame : q.agentId = p.agentId := by
      rw [← hmasked]
      rfl
    rw [← hagent, hsame, hstored] at hrow
    rw [← Option.some.inj hrow] at hread
    exact Option.some.inj (p.modelValidate_modelDump.symm.trans hread)
  · intro hmasked
    refine ⟨?_, p.modelDump, mem_selectPolicies.mpr ⟨p.agentId, hstored⟩, ?_⟩
    · intro j hj
      obtain ⟨agentId, hrow⟩ := mem_selectPolicies.mp hj
      obtain ⟨q, -, rfl⟩ := budget_row_of_tableOf hrow
      rw [q.modelValidate_modelDump]
      rfl
    · rw [p.modelValidate_modelDump, hmasked]

/-- Whatever was upserted before, the list of stored policies holds the policy that was
upserted last if and only if this is a budget policy whose secret is its own mask. -/
theorem upserted_policy_read_iff (iterate : Finset String → List String)
    (floatOfInt : ℤ → PyFloat) (le : String → String → Bool) (upserts : List StoredPolicy)
    (p : StoredPolicy) :
    p.IsReadFrom floatOfInt le (tableOf iterate (upserts ++ [p])) ↔ p.Reloads := by
  cases p with
  | scope p => exact iff_of_false (scope_not_read upserts p p) id
  | budget p => exact budget_read_iff upserts p

end Stored

/-! ## Two policies that are not read back -/

def whitelistPolicy : ScopePolicy where
  agentId := "billing-agent"
  allowedTools := {"read_invoice"}
  allowedApis := ∅
  hiddenTools := ∅
  allowedModels := ∅
  valid := by decide

/-- A daily cap of ten dollars, with signed alerts. -/
def alertingPolicy : BudgetPolicy where
  agentId := "billing-agent"
  perSessionUsd := none
  perSessionTokens := none
  perAgentUsdDaily := some (.fixed false [1, 0] [0])
  perAgentTokensDaily := none
  perSessionSeconds := none
  alertWebhookUrl := some "https://alerts.example"
  alertWebhookSecret := some "s3cret"
  alertThresholdPct := 80
  valid := by decide +kernel

/-- `float(n)`, for an integer of few digits. -/
def smallFloatOfInt (n : ℤ) : PyFloat :=
  .fixed (n < 0) (if n = 0 then [0] else (n.natAbs.digits 10).reverse.map (Fin.ofNat 10)) [0]

/-- Neither policy is in its list right after its upsert into an empty table. -/
theorem stored_policies_lost :
    ¬ (StoredPolicy.scope whitelistPolicy).IsReadFrom smallFloatOfInt (fun a b => a ≤ b)
        (tableOf (fun s => s.sort) [.scope whitelistPolicy]) ∧
      ¬ (StoredPolicy.budget alertingPolicy).IsReadFrom smallFloatOfInt (fun a b => a ≤ b)
        (tableOf (fun s => s.sort) [.budget alertingPolicy]) := by
  refine ⟨scope_not_read [] whitelistPolicy whitelistPolicy, ?_⟩
  have hread : (StoredPolicy.budget alertingPolicy).IsReadFrom smallFloatOfInt
      (fun a b => a ≤ b) (tableOf (fun s => s.sort) [.budget alertingPolicy]) ↔
        alertingPolicy.SecretShows :=
    budget_read_iff [] alertingPolicy
  rw [hread]
  intro hshows
  rcases hshows "s3cret" rfl with hempty | hmask
  · exact absurd hempty (by decide)
  · exact absurd hmask (by decide)

end AgenticGovernance.Policies

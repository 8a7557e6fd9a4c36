import Mathlib
import AgenticGovernance.Cost.PricingTable

/-!
# Prices of models

`estimate_cost` looks a model up in a table of prices, by its name or by the longest known
name that it begins with.  A model that is not in the table is an error, or priced at a
fallback rate for both kinds of tokens.

The table has the prices as the decimals of the source.  What is computed with them is of a
type about whose arithmetic nothing is assumed, as floating point rounds every step.
-/

namespace AgenticGovernance.Cost

open Support

/-- How an amount reads the numbers that a price is computed from. -/
class PriceNumbers (U : Type) where
  /-- a literal of the source, by its decimal value -/
  literal : ℚ → U
  /-- `float(n)`; `none` stands for its `OverflowError` -/
  ofInt : ℤ → Option U

/-- Exact amounts. -/
instance : PriceNumbers ℚ where
  literal := id
  ofInt n := some n

/-- USD for a million tokens. -/
structure ModelPrice where
  input : ℚ
  output : ℚ
  deriving DecidableEq

/-- `MODEL_PRICING` -/
def modelPricing : List (String × ModelPrice) :=
  [("gpt-4o", ⟨5 / 2, 10⟩),
   ("gpt-4o-mini", ⟨3 / 20, 3 / 5⟩),
   ("gpt-4-turbo", ⟨10, 30⟩),
   ("gpt-4", ⟨30, 60⟩),
   ("gpt-3.5-turbo", ⟨1 / 2, 3 / 2⟩),
   ("o1", ⟨15, 60⟩),
   ("o1-mini", ⟨3, 12⟩),
   ("o3-mini", ⟨11 / 10, 22 / 5⟩),
   ("claude-opus-4-7", ⟨15, 75⟩),
   ("claude-opus-4-6", ⟨15, 75⟩),
   ("claude-sonnet-4-6", ⟨3, 15⟩),
   ("claude-haiku-4-5", ⟨4 / 5, 4⟩),
   ("claude-3-opus", ⟨15, 75⟩),
   ("claude-3-sonnet", ⟨3, 15⟩),
   ("claude-3-haiku", ⟨1 / 4, 5 / 4⟩),
   ("claude-3.5-sonnet", ⟨3, 15⟩),
   ("claude-3.5-haiku", ⟨4 / 5, 4⟩),
   ("gemini-1.5-pro", ⟨7 / 2, 21 / 2⟩),
   ("gemini-1.5-flash", ⟨3 / 40, 3 / 10⟩),
   ("gemini-2.0-flash", ⟨1 / 10, 2 / 5⟩),
   ("llama-3.1-405b", ⟨3, 3⟩),
   ("llama-3.1-70b", ⟨4 / 5, 4 / 5⟩),
   ("llama-3.1-8b", ⟨1 / 10, 1 / 10⟩),
   ("mistral-large", ⟨2, 6⟩),
   ("mistral-medium", ⟨27 / 10, 81 / 10⟩),
   ("mistral-small", ⟨1 / 5, 3 / 5⟩)]

/-- `_SORTED_PREFIXES`, the longest first. -/
def sortedPrefixes : List String :=
  (modelPricing.map Prod.fst).mergeSort fun a b => decide (b.length ≤ a.length)

/-- `model.startswith(known)` -/
def startsWith (model known : String) : Bool := known.toList.isPrefixOf model.toList

/-- `_resolve_pricing` -/
def resolvePricing (model : String) : Option ModelPrice :=
  match modelPricing.lookup model with
  | some price => some price
  | none => (sortedPrefixes.find? (startsWith model)).bind fun known => modelPricing.lookup known

inductive EstimateError where
  /-- `UnknownModelError`, for the model that its text names -/
  | unknownModel (model : String)
  /-- `OverflowError` -/
  | overflow
  deriving DecidableEq

section Estimates

variable {U : Type} [Zero U] [Add U] [Mul U] [Div U] [PriceNumbers U]

/-- `tokens * rate` -/
def atRate (tokens : ℤ) (rate : U) : Except EstimateError U :=
  match PriceNumbers.ofInt tokens with
  | some n => .ok (n * rate)
  | none => .error .overflow

def perMillion (usd : U) : U := usd / PriceNumbers.literal 1000000

def estimateCost (model : String) (inputTokens outputTokens : ℤ) (strict : Bool)
    (fallbackUsdPerMillion : Option U) : Except EstimateError U :=
  match resolvePricing model with
  | some price => do
      let input ← atRate inputTokens (PriceNumbers.literal price.input)
      let output ← atRate outputTokens (PriceNumbers.literal price.output)
      return perMillion (input + output)
  | none =>
      if strict then .error (.unknownModel model)
      else do
        let usd ← atRate (inputTokens + outputTokens) (fallbackUsdPerMillion.getD 0)
        return perMillion usd

end Estimates

/-! ## Known models -/

theorem startsWith_iff {model known : String} :
    startsWith model known = true ↔ known.toList <+: model.toList :=
  List.isPrefixOf_iff_prefix

theorem mem_sortedPrefixes {known : String} :
    known ∈ sortedPrefixes ↔ known ∈ modelPricing.map Prod.fst :=
  (List.mergeSort_perm _ _).mem_iff

theorem lookup_isSome_iff {known : String} :
    (modelPricing.lookup known).isSome ↔ known ∈ modelPricing.map Prod.fst := by
  rw [List.lookup_isSome_iff, List.mem_map]
  constructor
  · rintro ⟨entry, hentry, heq⟩
    exact ⟨entry, hentry, (beq_iff_eq.mp heq).symm⟩
  · rintro ⟨entry, hentry, rfl⟩
    exact ⟨entry, hentry, beq_self_eq_true _⟩

/-- `MODEL_PRICING` as a dictionary. -/
def pricingTable : PricingTable ModelPrice :=
  (⟨modelPricing, by decide⟩ : Keyed String ModelPrice).mapKeys
    ⟨PyText.ofString, PyText.ofString_injective⟩

theorem get?_pricingTable (known : String) :
    pricingTable.get? (PyText.ofString known) = modelPricing.lookup known :=
  Keyed.get?_mapKeys

theorem keys_pricingTable :
    pricingTable.keys = (modelPricing.map Prod.fst).map PyText.ofString :=
  Keyed.map_fst_mapKeys PyText.ofString modelPricing

theorem order_sortedPrefixes :
    pricingTable.sortedPrefixes.order = sortedPrefixes.map PyText.ofString := by
  rw [PricingTable.order_sortedPrefixes, keys_pricingTable, sortedPrefixes]
  apply Eq.symm
  apply List.map_mergeSort
  intro a _ b _
  rw [PyText.length_ofString, PyText.length_ofString]

theorem startsWith_ofString (model known : String) :
    decide (PyText.ofString known <+: PyText.ofString model) = startsWith model known := by
  rw [Bool.eq_iff_iff, decide_eq_true_iff, startsWith_iff]
  exact PyText.ofString_prefix_iff

/-- A model is resolved as in the dictionary. -/
theorem resolvePricing_pricingTable (model : String) :
    pricingTable.resolvePricing pricingTable.sortedPrefixes (PyText.ofString model) =
      .ok (resolvePricing model) := by
  rw [PricingTable.resolvePricing, resolvePricing, get?_pricingTable]
  rcases modelPricing.lookup model with _ | price
  · dsimp only
    have hstarts : ((fun known => decide (known <+: PyText.ofString model)) ∘ PyText.ofString) =
        startsWith model := by
      funext known
      exact startsWith_ofString model known
    rw [PricingTable.firstMatch_eq, order_sortedPrefixes, List.find?_map, hstarts]
    rcases hfind : sortedPrefixes.find? (startsWith model) with _ | known
    · rfl
    · have hknown : known ∈ sortedPrefixes := List.mem_of_find?_eq_some hfind
      obtain ⟨price, hprice⟩ :=
        Option.isSome_iff_exists.mp (lookup_isSome_iff.mpr (mem_sortedPrefixes.mp hknown))
      have hitem : pricingTable.item (PyText.ofString known) = .ok price :=
        PricingTable.item_of_get? ((get?_pricingTable known).trans hprice)
      rw [Option.map_some, Option.bind_some, hprice]
      dsimp only
      rw [hitem]
      rfl
  · rfl

/-- The price of a model is that of the longest known name that it begins with. -/
theorem resolvePricing_longest {model : String} {price : ModelPrice}
    (h : resolvePricing model = some price) :
    ∃ known, modelPricing.lookup known = some price ∧ startsWith model known ∧
      ∀ other ∈ modelPricing.map Prod.fst, startsWith model other →
        other.length ≤ known.length := by
  have hresolve := resolvePricing_pricingTable model
  rw [h] at hresolve
  obtain ⟨key, hkey, hget⟩ := PricingTable.resolvePricing_eq_some_iff.mp hresolve
  have hmem : key ∈ (modelPricing.map Prod.fst).map PyText.ofString := by
    rw [← keys_pricingTable]
    exact hkey.mem
  obtain ⟨known, -, rfl⟩ := List.mem_map.mp hmem
  rw [get?_pricingTable] at hget
  refine ⟨known, hget, startsWith_iff.mpr (PyText.ofString_prefix_iff.mp hkey.isPrefix), ?_⟩
  intro other hother hstarts
  have hlisted : PyText.ofString other ∈ pricingTable.keys := by
    rw [keys_pricingTable]
    exact List.mem_map_of_mem hother
  have hle := hkey.longest _ hlisted (PyText.ofString_prefix_iff.mpr (startsWith_iff.mp hstarts))
  rwa [PyText.length_ofString, PyText.length_ofString] at hle

/-- A model is priced exactly if it begins with a known name. -/
theorem resolvePricing_isSome_iff {model : String} :
    (resolvePricing model).isSome ↔
      (modelPricing.map Prod.fst).any (startsWith model) = true := by
  have hnone : resolvePricing model = none ↔
      ∀ key ∈ pricingTable.keys, ¬key <+: PyText.ofString model := by
    rw [← PricingTable.resolvePricing_eq_none_iff, resolvePricing_pricingTable, Except.ok.injEq]
  rw [← Option.ne_none_iff_isSome, Ne, hnone, keys_pricingTable, List.forall_mem_map,
    List.any_eq_true]
  simp only [PyText.ofString_prefix_iff, ← startsWith_iff, not_forall, not_not, exists_prop]

end AgenticGovernance.Cost

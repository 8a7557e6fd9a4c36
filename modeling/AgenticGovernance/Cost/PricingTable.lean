import Mathlib
import AgenticGovernance.Support.Keyed
import AgenticGovernance.Support.LongestPrefix
import AgenticGovernance.Support.PyText

/-!
# Resolving a model in a table of prices

`_resolve_pricing` looks a model up in `MODEL_PRICING`.  If the model is not a key, it goes
through `_SORTED_PREFIXES` and takes the entry of the first key that the model begins with.

The table is arbitrary here, and so is what it holds for a key.  Sorting by length leaves open
how keys of one length are ordered, which a `SortedPrefixes` leaves open as well.
-/

namespace AgenticGovernance.Cost

open Support

/-- `MODEL_PRICING` -/
abbrev PricingTable (V : Type*) := Keyed PyText V

/-- The exception of `table[key]`. -/
structure KeyError where
  key : PyText
  deriving DecidableEq

namespace PricingTable

variable {V : Type*}

def keys (table : PricingTable V) : List PyText := table.entries.map Prod.fst

/-- `MODEL_PRICING[key]` -/
def item (table : PricingTable V) (key : PyText) : Except KeyError V :=
  match table.get? key with
  | some pricing => .ok pricing
  | none => .error ⟨key⟩

/-- `_SORTED_PREFIXES`, the longest first. -/
structure SortedPrefixes (table : PricingTable V) where
  order : List PyText
  perm : order.Perm table.keys
  longestFirst : LongestFirst order

/-- `sorted(MODEL_PRICING.keys(), key=len, reverse=True)`, in which keys of one length keep
their order. -/
def sortedPrefixes (table : PricingTable V) : SortedPrefixes table where
  order := table.keys.mergeSort fun a b => decide (b.length ≤ a.length)
  perm := List.mergeSort_perm _ _
  longestFirst := by
    refine (List.pairwise_mergeSort ?_ ?_ _).imp fun h => of_decide_eq_true h
    · intro a b c hab hbc
      rw [decide_eq_true_eq] at hab hbc ⊢
      exact hbc.trans hab
    · intro a b
      rw [Bool.or_eq_true, decide_eq_true_eq, decide_eq_true_eq]
      exact Nat.le_total _ _

/-- `model.startswith(key)` -/
def startsWith (model key : PyText) : Bool := key <+: model

/-- The loop over `_SORTED_PREFIXES`. -/
def firstMatch (table : PricingTable V) (model : PyText) :
    List PyText → Except KeyError (Option V)
  | [] => .ok none
  | key :: order =>
      if startsWith model key then (table.item key).map some
      else table.firstMatch model order

/-- `_resolve_pricing` -/
def resolvePricing (table : PricingTable V) (sorted : SortedPrefixes table) (model : PyText) :
    Except KeyError (Option V) :=
  match table.get? model with
  | some pricing => .ok (some pricing)
  | none => table.firstMatch model sorted.order

/-- The longest key that the model begins with. -/
def LongestKey (table : PricingTable V) (model key : PyText) : Prop :=
  IsLongestPrefix {known | known ∈ table.keys} model key

/-! ## The keys -/

section Keys

variable {table : PricingTable V} {sorted : SortedPrefixes table} {model key : PyText}
  {pricing : V}

theorem startsWith_iff : startsWith model key = true ↔ key <+: model := decide_eq_true_iff

theorem mem_keys_iff : key ∈ table.keys ↔ ∃ pricing, table.get? key = some pricing := by
  rw [keys, List.mem_map]
  constructor
  · rintro ⟨⟨known, pricing⟩, hentry, rfl⟩
    exact ⟨pricing, Keyed.mem_entries_iff.mp hentry⟩
  · rintro ⟨pricing, hget⟩
    exact ⟨(key, pricing), Keyed.mem_entries_iff.mpr hget, rfl⟩

theorem item_of_get? (h : table.get? key = some pricing) : table.item key = .ok pricing := by
  rw [item, h]

theorem longestKey_self (h : table.get? model = some pricing) : table.LongestKey model model :=
  IsLongestPrefix.self (mem_keys_iff.mpr ⟨pricing, h⟩)

theorem exists_get?_of_longestKey (h : table.LongestKey model key) :
    ∃ pricing, table.get? key = some pricing :=
  mem_keys_iff.mp h.mem

theorem order_sortedPrefixes (table : PricingTable V) :
    table.sortedPrefixes.order =
      table.keys.mergeSort fun a b => decide (b.length ≤ a.length) := rfl

theorem SortedPrefixes.mem_order_iff : key ∈ sorted.order ↔ key ∈ table.keys :=
  sorted.perm.mem_iff

theorem SortedPrefixes.find?_eq_some_iff :
    sorted.order.find? (fun known => known <+: model) = some key ↔
      table.LongestKey model key := by
  have hkeys : {known | known ∈ sorted.order} = {known | known ∈ table.keys} := by
    ext known
    exact sorted.mem_order_iff
  rw [LongestKey, ← hkeys]
  exact sorted.longestFirst.find?_eq_some_iff

end Keys

/-! ## What a model is resolved to -/

section Resolve

variable {table : PricingTable V} {sorted : SortedPrefixes table} {model key : PyText}
  {pricing : V}

theorem firstMatch_eq (order : List PyText) :
    table.firstMatch model order =
      match order.find? (fun known => known <+: model) with
      | some known => (table.item known).map some
      | none => .ok none := by
  induction order with
  | nil => rfl
  | cons known order ih =>
      rw [firstMatch, List.find?_cons]
      by_cases hstarts : known <+: model
      · rw [if_pos (startsWith_iff.mpr hstarts), decide_eq_true hstarts]
      · rw [if_neg (mt startsWith_iff.mp hstarts), decide_eq_false hstarts]
        exact ih

theorem resolvePricing_of_get? (h : table.get? model = some pricing) :
    table.resolvePricing sorted model = .ok (some pricing) := by
  rw [resolvePricing, h]

/-- The exact key is the longest, so both ways of finding an entry find that of the longest
key. -/
theorem resolvePricing_of_longestKey (hkey : table.LongestKey model key)
    (hget : table.get? key = some pricing) :
    table.resolvePricing sorted model = .ok (some pricing) := by
  rcases hmodel : table.get? model with _ | exact
  · rw [resolvePricing, hmodel, firstMatch_eq, sorted.find?_eq_some_iff.mpr hkey]
    dsimp only
    rw [item_of_get? hget]
    rfl
  · have hsame : key = model := hkey.unique (longestKey_self hmodel)
    rw [hsame] at hget
    exact resolvePricing_of_get? hget

theorem resolvePricing_of_no_key (h : ∀ known ∈ table.keys, ¬known <+: model) :
    table.resolvePricing sorted model = .ok none := by
  have hmodel : table.get? model = none := by
    by_contra hne
    obtain ⟨pricing, hget⟩ := Option.ne_none_iff_exists'.mp hne
    exact h model (mem_keys_iff.mpr ⟨pricing, hget⟩) (List.prefix_refl model)
  have hfind : sorted.order.find? (fun known => known <+: model) = none := by
    rw [find?_isPrefix_eq_none_iff]
    intro known hknown
    exact h known (sorted.mem_order_iff.mp hknown)
  rw [resolvePricing, hmodel, firstMatch_eq, hfind]

/-- A model begins with no key, or there is a longest one. -/
theorem longestKey_cases (table : PricingTable V) (model : PyText) :
    (∀ known ∈ table.keys, ¬known <+: model) ∨
      ∃ key pricing, table.LongestKey model key ∧ table.get? key = some pricing := by
  by_cases h : ∃ known ∈ table.keys, known <+: model
  · obtain ⟨key, hkey⟩ := exists_isLongestPrefix h
    obtain ⟨pricing, hget⟩ := exists_get?_of_longestKey hkey
    exact Or.inr ⟨key, pricing, hkey, hget⟩
  · exact Or.inl fun known hknown hstarts => h ⟨known, hknown, hstarts⟩

theorem resolvePricing_eq_some_iff :
    table.resolvePricing sorted model = .ok (some pricing) ↔
      ∃ key, table.LongestKey model key ∧ table.get? key = some pricing := by
  constructor
  · intro h
    obtain hnone | ⟨key, found, hkey, hget⟩ := table.longestKey_cases model
    · rw [resolvePricing_of_no_key hnone] at h
      exact absurd (Except.ok.inj h) (Option.some_ne_none pricing).symm
    · rw [resolvePricing_of_longestKey hkey hget] at h
      exact ⟨key, hkey, hget.trans (Except.ok.inj h)⟩
  · intro ⟨key, hkey, hget⟩
    exact resolvePricing_of_longestKey hkey hget

theorem resolvePricing_eq_none_iff :
    table.resolvePricing sorted model = .ok none ↔
      ∀ known ∈ table.keys, ¬known <+: model := by
  constructor
  · intro h
    obtain hnone | ⟨key, found, hkey, hget⟩ := table.longestKey_cases model
    · exact hnone
    · rw [resolvePricing_of_longestKey hkey hget] at h
      exact absurd (Except.ok.inj h) (Option.some_ne_none found)
  · exact resolvePricing_of_no_key

/-- A model is resolved to the entry of the longest key that it begins with, which is unique
and is the model itself where that is a key, and to nothing exactly if it begins with no key.
The order of keys of one length does not matter. -/
theorem resolvePricing_longest_prefix (table : PricingTable V) (sorted : SortedPrefixes table)
    (model : PyText) :
    (∀ key, table.LongestKey model key → ∃ pricing, table.get? key = some pricing ∧
      table.resolvePricing sorted model = .ok (some pricing)) ∧
    ((∃ key ∈ table.keys, startsWith model key = true) → ∃! key, table.LongestKey model key) ∧
    (∀ pricing, table.get? model = some pricing →
      table.LongestKey model model ∧
        table.resolvePricing sorted model = .ok (some pricing)) ∧
    (table.resolvePricing sorted model = .ok none ↔
      ∀ key ∈ table.keys, startsWith model key = false) := by
  simp only [← Bool.not_eq_true, startsWith_iff]
  refine ⟨?_, existsUnique_isLongestPrefix, ?_, resolvePricing_eq_none_iff⟩
  · intro key hkey
    obtain ⟨pricing, hget⟩ := exists_get?_of_longestKey hkey
    exact ⟨pricing, hget, resolvePricing_of_longestKey hkey hget⟩
  · intro pricing hget
    exact ⟨longestKey_self hget, resolvePricing_of_get? hget⟩

end Resolve

end PricingTable

end AgenticGovernance.Cost

import Mathlib

/-!
# The longest word that a text begins with

Of two words that a text begins with, one begins with the other, so there is at most one of
each length and the longest of them is unique.  A search through the words in the order of
their lengths, the longest first, finds it, wherever the equally long ones stand.
-/

namespace AgenticGovernance.Support

variable {α : Type*} {words : Set (List α)} {text v w : List α}

/-- `w` is the longest of the words that `text` begins with. -/
structure IsLongestPrefix (words : Set (List α)) (text w : List α) : Prop where
  mem : w ∈ words
  isPrefix : w <+: text
  longest : ∀ v ∈ words, v <+: text → v.length ≤ w.length

namespace IsLongestPrefix

theorem unique (hv : IsLongestPrefix words text v) (hw : IsLongestPrefix words text w) :
    v = w := by
  have hle : v.length ≤ w.length := hw.longest v hv.mem hv.isPrefix
  have hge : w.length ≤ v.length := hv.longest w hw.mem hw.isPrefix
  have hprefix : v <+: w := List.prefix_of_prefix_length_le hv.isPrefix hw.isPrefix hle
  exact hprefix.eq_of_length (le_antisymm hle hge)

/-- A text that is one of the words is the longest of them. -/
theorem self (h : text ∈ words) : IsLongestPrefix words text text :=
  ⟨h, List.prefix_refl text, fun _ _ hv => hv.length_le⟩

/-- A word that the text does not begin with makes no difference. -/
theorem insert (h : IsLongestPrefix words text w) (hv : ¬v <+: text) :
    IsLongestPrefix (insert v words) text w := by
  refine ⟨Set.mem_insert_of_mem v h.mem, h.isPrefix, ?_⟩
  intro u hu hprefix
  have hne : u ≠ v := fun heq => hv (heq ▸ hprefix)
  exact h.longest u (Set.mem_of_mem_insert_of_ne hu hne) hprefix

end IsLongestPrefix

/-- A text has only finitely many prefixes, so one of the words is the longest. -/
theorem exists_isLongestPrefix (h : ∃ w ∈ words, w <+: text) :
    ∃ w, IsLongestPrefix words text w := by
  have hfinite : {w | w ∈ words ∧ w <+: text}.Finite := by
    apply text.inits.finite_toSet.subset
    intro w hw
    exact (List.mem_inits w text).mpr hw.2
  obtain ⟨w, hw, hmax⟩ := Set.exists_max_image _ List.length hfinite h
  exact ⟨w, hw.1, hw.2, fun v hv hprefix => hmax v ⟨hv, hprefix⟩⟩

theorem existsUnique_isLongestPrefix (h : ∃ w ∈ words, w <+: text) :
    ∃! w, IsLongestPrefix words text w := by
  obtain ⟨w, hw⟩ := exists_isLongestPrefix h
  exact ⟨w, hw, fun v hv => hv.unique hw⟩

/-! ## Searching, the longest first -/

/-- No word stands before a longer one. -/
def LongestFirst (order : List (List α)) : Prop :=
  order.Pairwise fun v w => w.length ≤ v.length

section Search

variable [DecidableEq α] {order : List (List α)}

/-- The first word that the text begins with is the longest. -/
theorem LongestFirst.isLongestPrefix_of_find? (horder : LongestFirst order)
    (hfind : order.find? (fun v => v <+: text) = some w) :
    IsLongestPrefix {v | v ∈ order} text w := by
  induction order with
  | nil => exact absurd hfind (by simp)
  | cons v order ih =>
      obtain ⟨hfirst, hrest⟩ := List.pairwise_cons.mp horder
      by_cases hv : v <+: text
      · rw [List.find?_cons, decide_eq_true hv] at hfind
        obtain rfl := Option.some.inj hfind
        refine ⟨List.mem_cons_self, hv, ?_⟩
        intro u hu _
        rcases List.mem_cons.mp hu with heq | hlater
        · rw [heq]
        · exact hfirst u hlater
      · rw [List.find?_cons, decide_eq_false hv] at hfind
        have hset : {u | u ∈ v :: order} = insert v {u | u ∈ order} := by
          ext u
          exact List.mem_cons
        rw [hset]
        exact (ih hrest hfind).insert hv

theorem find?_isPrefix_eq_none_iff :
    order.find? (fun v => v <+: text) = none ↔ ∀ w ∈ order, ¬w <+: text := by
  rw [List.find?_eq_none]
  simp only [decide_eq_true_eq]

theorem LongestFirst.find?_eq_some_iff (horder : LongestFirst order) :
    order.find? (fun v => v <+: text) = some w ↔ IsLongestPrefix {v | v ∈ order} text w := by
  constructor
  · exact horder.isLongestPrefix_of_find?
  · intro hw
    rcases hfind : order.find? (fun v => v <+: text) with _ | v
    · exact absurd hw.isPrefix (find?_isPrefix_eq_none_iff.mp hfind w hw.mem)
    · exact congrArg some ((horder.isLongestPrefix_of_find? hfind).unique hw)

end Search

end AgenticGovernance.Support

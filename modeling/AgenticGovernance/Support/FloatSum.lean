import Mathlib.Algebra.Order.Monoid.Defs
import Mathlib.Algebra.Order.Monoid.Unbundled.Basic

/-!
# Sums of floats

What the order and the sum of floating-point numbers keep of the laws of an ordered group.  A
sum is rounded, so it is neither associative nor strictly monotone, and a NaN compares with
nothing, itself included.  A value is a number exactly when it is at most itself.
-/

namespace AgenticGovernance.Support

/-- The laws of `<=`, `<` and `+` of floats, rounded in a monotone way. -/
class FloatSum (U : Type*) [Zero U] [Add U] [LE U] [LT U] : Prop where
  le_trans : ∀ {a b c : U}, a ≤ b → b ≤ c → a ≤ c
  lt_iff : ∀ {a b : U}, a < b ↔ a ≤ b ∧ ¬ b ≤ a
  /-- a comparison that holds is one of numbers -/
  numbers : ∀ {a b : U}, a ≤ b → a ≤ a ∧ b ≤ b
  total : ∀ {a b : U}, a ≤ a → b ≤ b → a ≤ b ∨ b ≤ a
  zero : (0 : U) ≤ 0
  le_add : ∀ {a b : U}, 0 ≤ a → 0 ≤ b → a ≤ a + b
  add_le : ∀ {a b : U}, 0 ≤ a → 0 ≤ b → b ≤ 0 → a + b ≤ a

/-- Exact amounts. -/
instance (U : Type*) [AddCommMonoid U] [LinearOrder U] [IsOrderedAddMonoid U] :
    FloatSum U where
  le_trans := fun h h' => h.trans h'
  lt_iff := lt_iff_le_not_ge
  numbers := fun _ => ⟨le_rfl, le_rfl⟩
  total := fun _ _ => le_total _ _
  zero := le_rfl
  le_add := fun _ hb => le_add_of_nonneg_right hb
  add_le := fun _ _ hb => add_le_of_nonpos_right hb

namespace FloatSum

variable {U : Type*} [Zero U] [Add U] [LE U] [LT U] [FloatSum U] {a b c : U}

/-- Of two numbers, the one that does not reach the other is below it. -/
theorem lt_of_not_le (ha : a ≤ a) (hb : b ≤ b) (h : ¬ b ≤ a) : a < b :=
  lt_iff.mpr ⟨(total ha hb).resolve_right h, h⟩

theorem not_le_of_lt (h : a < b) : ¬ b ≤ a :=
  (lt_iff.mp h).2

theorem lt_of_le_of_lt (h : a ≤ b) (h' : b < c) : a < c :=
  lt_iff.mpr ⟨le_trans h (lt_iff.mp h').1, fun hca => not_le_of_lt h' (le_trans hca h)⟩

/-- A number that is not negative. -/
theorem nonneg_of_not_neg (ha : a ≤ a) (h : ¬ a < 0) : 0 ≤ a := by
  by_contra hneg
  exact h (lt_of_not_le ha zero hneg)

/-- A number that is not positive. -/
theorem nonpos_of_not_pos (ha : a ≤ a) (h : ¬ 0 < a) : a ≤ 0 := by
  by_contra hpos
  exact h (lt_of_not_le zero ha hpos)

theorem add_nonneg (ha : 0 ≤ a) (hb : 0 ≤ b) : 0 ≤ a + b :=
  le_trans ha (le_add ha hb)

end FloatSum

end AgenticGovernance.Support

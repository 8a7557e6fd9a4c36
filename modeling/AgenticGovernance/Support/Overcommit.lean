import Mathlib

/-!
# Counters that are checked before they are raised

Parties read a counter, decide on what they read, and later raise it by at most
`p`.  `RoomFor` says that the counter has room for every party that may still
raise it: adding `p` for each of any finite set of them stays within a bound.

The rules below are the ways in which such a system moves.  The bound is a cap
plus `p` for every party but one.
-/

namespace AgenticGovernance.Support

variable {ι : Type*}

/-- No more than `n` parties satisfy `P`. -/
def AtMost (n : ℕ) (P : ι → Prop) : Prop :=
  ∀ F : Finset ι, (∀ i ∈ F, P i) → F.card ≤ n

/-- A cap that `n` overlapping parties may overshoot by all but one of their
amounts. -/
def ceiling (cap : ℤ) (n : ℕ) (p : ℤ) : ℤ := cap + ((n - 1 : ℕ) : ℤ) * p

def RoomFor (recorded bound p : ℤ) (pending : ι → Prop) : Prop :=
  ∀ F : Finset ι, (∀ i ∈ F, pending i) → recorded + F.card * p ≤ bound

variable {recorded recorded' bound cap p : ℤ} {n : ℕ} {pending pending' : ι → Prop}

theorem AtMost.mono {P Q : ι → Prop} (h : AtMost n P) (hQ : ∀ i, Q i → P i) :
    AtMost n Q :=
  fun F hF => h F fun i hi => hQ i (hF i hi)

theorem RoomFor.recorded_le (h : RoomFor recorded bound p pending) :
    recorded ≤ bound := by
  simpa using h ∅ (by simp)

theorem RoomFor.mono (h : RoomFor recorded bound p pending)
    (hrec : recorded' ≤ recorded) (hpending : ∀ i, pending' i → pending i) :
    RoomFor recorded' bound p pending' := by
  intro F hF
  have hroom := h F fun i hi => hpending i (hF i hi)
  omega

/-- A pending party raises the counter and is done. -/
theorem RoomFor.raise [DecidableEq ι] (h : RoomFor recorded bound p pending) {i : ι}
    (hi : pending i) (hrec : recorded' ≤ recorded + p)
    (hpending : ∀ j, pending' j → j ≠ i ∧ pending j) :
    RoomFor recorded' bound p pending' := by
  intro F hF
  have hnotmem : i ∉ F := fun hmem => (hpending i (hF i hmem)).1 rfl
  have hroom := h (insert i F) (by
    intro j hj
    rcases Finset.mem_insert.mp hj with rfl | hj
    · exact hi
    · exact (hpending j (hF j hj)).2)
  rw [Finset.card_insert_of_notMem hnotmem] at hroom
  push_cast at hroom
  linarith

/-- A party becomes pending on seeing the counter below the cap with its own
amount added. -/
theorem RoomFor.join (h : RoomFor recorded (ceiling cap n p) p pending) {i : ι}
    (hp : 0 ≤ p) (hrec : recorded + p ≤ cap) (hmost : AtMost n pending')
    (hpending : ∀ j, j ≠ i → pending' j → pending j) :
    RoomFor recorded (ceiling cap n p) p pending' := by
  intro F hF
  by_cases hi : i ∈ F
  · have hcard : F.card ≤ n := hmost F hF
    have hpos : 0 < F.card := Finset.card_pos.mpr ⟨i, hi⟩
    have hothers : (F.card : ℤ) ≤ ((n - 1 : ℕ) : ℤ) + 1 := by omega
    have hmul : (F.card : ℤ) * p ≤ (((n - 1 : ℕ) : ℤ) + 1) * p :=
      mul_le_mul_of_nonneg_right hothers hp
    rw [ceiling]
    linarith
  · exact h F fun j hj => hpending j (fun heq => hi (heq ▸ hj)) (hF j hj)

/-- The counter starts again at zero while parties are pending. -/
theorem RoomFor.restart (hp : 0 ≤ p) (hcap : 0 ≤ cap) (hmost : AtMost n pending)
    (hfits : ∀ i, pending i → p ≤ cap) :
    RoomFor 0 (ceiling cap n p) p pending := by
  intro F hF
  rcases F.eq_empty_or_nonempty with rfl | ⟨i, hi⟩
  · have hmul : 0 ≤ ((n - 1 : ℕ) : ℤ) * p := mul_nonneg (by positivity) hp
    simp only [Finset.card_empty, Nat.cast_zero, zero_mul, add_zero, ceiling]
    linarith
  · have hle : p ≤ cap := hfits i (hF i hi)
    have hcard : F.card ≤ n := hmost F hF
    have hpos : 0 < F.card := Finset.card_pos.mpr ⟨i, hi⟩
    have hothers : (F.card : ℤ) ≤ ((n - 1 : ℕ) : ℤ) + 1 := by omega
    have hmul : (F.card : ℤ) * p ≤ (((n - 1 : ℕ) : ℤ) + 1) * p :=
      mul_le_mul_of_nonneg_right hothers hp
    rw [ceiling]
    linarith

theorem RoomFor.start (hp : 0 ≤ p) (hcap : 0 ≤ cap) (hnone : ∀ i, ¬pending i) :
    RoomFor 0 (ceiling cap n p) p pending := by
  refine RoomFor.restart hp hcap ?_ fun i hi => absurd hi (hnone i)
  intro F hF
  have hempty : F = ∅ := Finset.eq_empty_of_forall_notMem fun i hi => hnone i (hF i hi)
  simp [hempty]

end AgenticGovernance.Support

import Mathlib
import AgenticGovernance.Support.PyText

/-!
# Texts that are escaped and read back

`json.dumps` prints a code point outside the BMP as the escapes of two surrogates, and a lone
surrogate as its own escape.  `json.loads` joins the escapes of a high and a low surrogate,
whatever they were printed for.

`reload_eq_self_iff` says which texts survive: those in which no high surrogate stands before a
low one.
-/

namespace AgenticGovernance.Support

namespace CodePoint

def IsHigh (p : CodePoint) : Prop := 0xD800 ≤ p.val ∧ p.val ≤ 0xDBFF

def IsLow (p : CodePoint) : Prop := 0xDC00 ≤ p.val ∧ p.val ≤ 0xDFFF

instance (p : CodePoint) : Decidable p.IsHigh := inferInstanceAs (Decidable (_ ∧ _))

instance (p : CodePoint) : Decidable p.IsLow := inferInstanceAs (Decidable (_ ∧ _))

def high (p : CodePoint) : CodePoint where
  val := 0xD800 + (p.val - 0x10000) / 1024
  isLt := by
    have hp := p.isLt
    omega

def low (p : CodePoint) : CodePoint where
  val := 0xDC00 + (p.val - 0x10000) % 1024
  isLt := by omega

/-- The code points whose escapes are printed for `p`. -/
def units (p : CodePoint) : List CodePoint :=
  if p.val < 0x10000 then [p] else [p.high, p.low]

/-- The code point of two surrogates. -/
def join? (p q : CodePoint) : Option CodePoint :=
  if h : p.IsHigh ∧ q.IsLow then
    some
      { val := 0x10000 + (p.val - 0xD800) * 1024 + (q.val - 0xDC00)
        isLt := by
          have hp := h.1.2
          have hq := h.2.2
          omega }
  else none

variable {p q r : CodePoint}

theorem join?_eq_none_iff : p.join? q = none ↔ ¬(p.IsHigh ∧ q.IsLow) := by
  rw [join?]
  split
  · simp [*]
  · simp [*]

/-- A code point that was read from two escapes is no surrogate. -/
theorem le_of_join? (h : p.join? q = some r) : 0x10000 ≤ r.val := by
  rw [join?] at h
  split at h
  · rw [← Option.some.inj h]
    exact Nat.le_add_right_of_le (Nat.le_add_right _ _)
  · exact absurd h (by simp)

theorem isHigh_high (hp : 0x10000 ≤ p.val) : p.high.IsHigh := by
  have hlt := p.isLt
  simp only [IsHigh, high]
  omega

theorem isLow_low : p.low.IsLow := by
  simp only [IsLow, low]
  omega

theorem join?_high_low (hp : 0x10000 ≤ p.val) : p.high.join? p.low = some p := by
  rw [join?, dif_pos ⟨isHigh_high hp, isLow_low⟩, Option.some.injEq]
  obtain ⟨n, hn⟩ := p
  simp only [high, low, mk.injEq]
  dsimp only at hp
  omega

end CodePoint

namespace PyText

/-- The code points of the escapes of a text. -/
def units (text : PyText) : PyText := text.flatMap CodePoint.units

/-- What the scanner of `json.loads` makes of a sequence of escapes. -/
def joinPairs : PyText → PyText
  | [] => []
  | [p] => [p]
  | p :: q :: text =>
      match p.join? q with
      | some r => r :: joinPairs text
      | none => p :: joinPairs (q :: text)

/-- `json.loads(json.dumps(text))` -/
def reload (text : PyText) : PyText := joinPairs text.units

/-- No high surrogate stands before a low one. -/
def Unpaired (text : PyText) : Prop := text.IsChain fun p q => ¬(p.IsHigh ∧ q.IsLow)

instance (text : PyText) : Decidable text.Unpaired :=
  inferInstanceAs (Decidable (List.IsChain _ text))

variable {p q : CodePoint} {text : PyText}

theorem joinPairs_cons (h : ∀ q ∈ text.head?, ¬(p.IsHigh ∧ q.IsLow)) :
    joinPairs (p :: text) = p :: joinPairs text := by
  cases text with
  | nil => rfl
  | cons q text =>
      have hnone := CodePoint.join?_eq_none_iff.mpr (h q rfl)
      rw [joinPairs, hnone]

/-- The first code point that is read is the first escape, or was joined from two. -/
theorem mem_head?_joinPairs (h : q ∈ (joinPairs text).head?) :
    q ∈ text.head? ∨ 0x10000 ≤ q.val := by
  fun_cases joinPairs text with
  | case1 => exact Or.inl h
  | case2 p => exact Or.inl h
  | case3 first second text r hjoin =>
      rw [joinPairs, hjoin] at h
      cases h
      exact Or.inr (CodePoint.le_of_join? hjoin)
  | case4 first second text hjoin =>
      rw [joinPairs, hjoin] at h
      exact Or.inl h

theorem unpaired_joinPairs (text : PyText) : (joinPairs text).Unpaired := by
  fun_induction joinPairs text with
  | case1 => exact List.isChain_nil
  | case2 p => exact List.isChain_singleton p
  | case3 p q text r hjoin ih =>
      have hr := CodePoint.le_of_join? hjoin
      refine List.isChain_cons.mpr ⟨fun next _ hpair => ?_, ih⟩
      have hhigh := hpair.1.2
      omega
  | case4 p q text hjoin ih =>
      refine List.isChain_cons.mpr ⟨fun next hnext hpair => ?_, ih⟩
      rcases mem_head?_joinPairs hnext with hfirst | hjoined
      · cases hfirst
        exact CodePoint.join?_eq_none_iff.mp hjoin hpair
      · have hlow := hpair.2.2
        omega

/-- The first escape of a text is low only if the text begins with a low surrogate. -/
theorem mem_head?_units (h : q ∈ text.units.head?) (hlow : q.IsLow) : q ∈ text.head? := by
  cases text with
  | nil => exact h
  | cons p text =>
      rw [units, List.flatMap_cons, CodePoint.units] at h
      split at h
      · exact h
      · cases h
        have hhigh : p.high.IsHigh := CodePoint.isHigh_high (by omega)
        have hbelow := hhigh.2
        have habove := hlow.1
        omega

theorem joinPairs_units (h : text.Unpaired) : joinPairs text.units = text := by
  induction text with
  | nil => rfl
  | cons p text ih =>
      obtain ⟨hnext, htail⟩ := List.isChain_cons.mp h
      rw [units, List.flatMap_cons, ← units, CodePoint.units]
      split
      · rw [List.singleton_append, joinPairs_cons, ih htail]
        intro q hq hpair
        exact hnext q (mem_head?_units hq hpair.2) hpair
      · have hp : 0x10000 ≤ p.val := by omega
        rw [List.cons_append, List.singleton_append, joinPairs, CodePoint.join?_high_low hp]
        exact congrArg (p :: ·) (ih htail)

theorem unpaired_reload (text : PyText) : text.reload.Unpaired := unpaired_joinPairs _

/-- A text comes back unchanged exactly if it has no pair of surrogates. -/
theorem reload_eq_self_iff : text.reload = text ↔ text.Unpaired := by
  constructor
  · intro h
    rw [← h]
    exact unpaired_reload text
  · exact joinPairs_units

/-- A text without surrogates has no pair of them. -/
theorem Encodable.unpaired (h : text.Encodable) : text.Unpaired := by
  induction text with
  | nil => exact List.isChain_nil
  | cons p text ih =>
      rw [Encodable, List.forall_mem_cons] at h
      refine List.isChain_cons.mpr ⟨fun next _ hpair => ?_, ih h.2⟩
      have hbelow := hpair.1.2
      exact h.1 ⟨hpair.1.1, by omega⟩

@[simp] theorem reload_ofString (s : String) : (ofString s).reload = ofString s :=
  reload_eq_self_iff.mpr (encodable_ofString s).unpaired

/-- U+1F600 as two surrogates: `json.loads` joins them. -/
example : reload [⟨0xD83D, by decide⟩, ⟨0xDE00, by decide⟩] = [⟨0x1F600, by decide⟩] := rfl

end PyText

end AgenticGovernance.Support

import Mathlib

/-!
# Fixed-width digits and self-delimiting text

Formats such as UUIDs, ISO timestamps and JSON are read back unambiguously
because every field either has a fixed width or ends at a character that the
field itself cannot contain.  This module isolates these two arguments.
-/

namespace AgenticGovernance.Support

/-! ## Fields that end at a boundary character -/

/-- `r` is empty or starts with a character outside `p`. -/
def EndsRun (p : Char → Prop) (r : List Char) : Prop :=
  ∀ c, r.head? = some c → ¬p c

theorem endsRun_nil (p : Char → Prop) : EndsRun p [] := by
  intro c h
  cases h

theorem endsRun_cons {p : Char → Prop} {c : Char} {r : List Char}
    (h : ¬p c) : EndsRun p (c :: r) := by
  intro d hd
  cases hd
  exact h

/-- Two runs of `p`-characters, each followed by text that leaves the run,
split off in only one way. -/
theorem run_append_inj {p : Char → Prop} {t t' r r' : List Char}
    (ht : ∀ c ∈ t, p c) (ht' : ∀ c ∈ t', p c)
    (hr : EndsRun p r) (hr' : EndsRun p r')
    (h : t ++ r = t' ++ r') :
    t = t' ∧ r = r' := by
  induction t generalizing t' with
  | nil =>
      cases t' with
      | nil => exact ⟨rfl, h⟩
      | cons c t' =>
          rw [List.nil_append, List.cons_append] at h
          exact absurd (ht' c List.mem_cons_self) (hr c (by rw [h]; rfl))
  | cons c t ih =>
      cases t' with
      | nil =>
          rw [List.nil_append, List.cons_append] at h
          exact absurd (ht c List.mem_cons_self) (hr' c (by rw [← h]; rfl))
      | cons d t' =>
          rw [List.cons_append, List.cons_append, List.cons.injEq] at h
          obtain ⟨rfl, htail⟩ := h
          obtain ⟨rfl, rfl⟩ := ih
            (fun x hx => ht x (List.mem_cons_of_mem _ hx))
            (fun x hx => ht' x (List.mem_cons_of_mem _ hx)) htail
          exact ⟨rfl, rfl⟩

/-! ## Fixed-width positional digits -/

/-- The `w` least significant base-`b` digits of `n`, most significant first,
padded with zeros. -/
def fixedDigits (b : ℕ) : ℕ → ℕ → List Char
  | 0, _ => []
  | w + 1, n => fixedDigits b w (n / b) ++ [Nat.digitChar (n % b)]

@[simp] theorem length_fixedDigits (b w n : ℕ) :
    (fixedDigits b w n).length = w := by
  induction w generalizing n with
  | zero => rfl
  | succ w ih => simp [fixedDigits, ih]

theorem digitChar_inj_of_lt {d e : ℕ} (hd : d < 16) (he : e < 16)
    (h : Nat.digitChar d = Nat.digitChar e) : d = e := by
  have hall : ∀ i j : Fin 16,
      Nat.digitChar i.val = Nat.digitChar j.val → i = j := by decide
  exact congrArg Fin.val (hall ⟨d, hd⟩ ⟨e, he⟩ h)

theorem fixedDigits_inj {b w n m : ℕ} (hb : b ≤ 16) (hb' : 0 < b)
    (hn : n < b ^ w) (hm : m < b ^ w)
    (h : fixedDigits b w n = fixedDigits b w m) : n = m := by
  induction w generalizing n m with
  | zero =>
      rw [pow_zero] at hn hm
      omega
  | succ w ih =>
      rw [fixedDigits, fixedDigits] at h
      obtain ⟨hhigh, hlow⟩ := List.append_inj' h rfl
      have hquot : n / b = m / b := by
        apply ih _ _ hhigh
        · exact Nat.div_lt_of_lt_mul (by rwa [pow_succ, mul_comm] at hn)
        · exact Nat.div_lt_of_lt_mul (by rwa [pow_succ, mul_comm] at hm)
      have hmod : n % b = m % b :=
        digitChar_inj_of_lt
          (lt_of_lt_of_le (Nat.mod_lt n hb') hb)
          (lt_of_lt_of_le (Nat.mod_lt m hb') hb)
          (List.cons.inj hlow).1
      rw [← Nat.div_add_mod n b, ← Nat.div_add_mod m b, hquot, hmod]

/-- Characters written by `Nat.digitChar` below sixteen. -/
def IsHexChar (c : Char) : Prop := ∃ d < 16, c = Nat.digitChar d

theorem isHexChar_of_mem_fixedDigits {b w n : ℕ} (hb : b ≤ 16) (hb' : 0 < b)
    {c : Char} (hc : c ∈ fixedDigits b w n) : IsHexChar c := by
  induction w generalizing n with
  | zero => simp [fixedDigits] at hc
  | succ w ih =>
      rw [fixedDigits, List.mem_append, List.mem_singleton] at hc
      rcases hc with hc | rfl
      · exact ih hc
      · exact ⟨n % b, lt_of_lt_of_le (Nat.mod_lt n hb') hb, rfl⟩

theorem not_isHexChar_dash : ¬IsHexChar '-' := by
  rintro ⟨d, hd, h⟩
  have hall : ∀ i : Fin 16, '-' ≠ Nat.digitChar i.val := by decide
  exact hall ⟨d, hd⟩ h

end AgenticGovernance.Support

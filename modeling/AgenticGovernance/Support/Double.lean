import Mathlib
import AgenticGovernance.Support.Json

/-!
# Finite floats, read and printed

A Python float is a binary64 number.  `Double.nearest` is how a decimal literal is read: as
the double nearest to it, and the one with the even mantissa when two are equally near.
`Double.repr` is how a double is printed: with the least number of digits that is read back
as the same double, and of the decimals with that many digits the closest one.

What is used of this elsewhere is `Double.reads_repr`, that the printed decimal is read as the
double it was printed from, and `Double.power_repr_nonneg`, that a double printed with a
positive exponent is printed without a fraction.
-/

namespace AgenticGovernance.Support

/-! ## Doubles -/

structure Double where
  neg : Bool
  mantissa : ℕ
  exponent : ℤ
  mantissa_lt : mantissa < 2 ^ 53
  le_exponent : -1074 ≤ exponent
  exponent_le : exponent ≤ 971
  normal : 2 ^ 52 ≤ mantissa ∨ exponent = -1074
  deriving DecidableEq

namespace Double

def magnitude (d : Double) : ℚ := d.mantissa * 2 ^ d.exponent

/-- `none` when the parts are not those of a finite double. -/
def ofParts (neg : Bool) (m : ℕ) (e : ℤ) : Option Double :=
  if h : m < 2 ^ 53 ∧ -1074 ≤ e ∧ e ≤ 971 ∧ (2 ^ 52 ≤ m ∨ e = -1074) then
    some ⟨neg, m, e, h.1, h.2.1, h.2.2.1, h.2.2.2⟩
  else none

/-! ## Reading -/

/-- The nearest natural number, and the even one of two. -/
def roundHalfEven (q : ℚ) : ℕ :=
  match cmp (Int.fract q) (1 / 2) with
  | .lt => ⌊q⌋₊
  | .gt => ⌊q⌋₊ + 1
  | .eq => ⌊q⌋₊ + ⌊q⌋₊ % 2

/-- The exponent of the last mantissa bit of the doubles around `q`. -/
def lastBit (q : ℚ) : ℤ :=
  if q = 0 then -1074 else max (-1074) (Int.log 2 q - 52)

/-- The double that a decimal literal of value `q` is read as, up to its sign; `none` stands
for infinity. -/
def nearest (neg : Bool) (q : ℚ) : Option Double :=
  let m := roundHalfEven (q / 2 ^ lastBit q)
  -- Rounding up may carry into the next power of two.
  if m = 2 ^ 53 then ofParts neg (2 ^ 52) (lastBit q + 1) else ofParts neg m (lastBit q)

variable (d : Double)

theorem ofParts_self : ofParts d.neg d.mantissa d.exponent = some d := by
  rw [ofParts, dif_pos ⟨d.mantissa_lt, d.le_exponent, d.exponent_le, d.normal⟩]

theorem roundHalfEven_natCast (n : ℕ) : roundHalfEven n = n := by
  have hcmp : cmp (0 : ℚ) (1 / 2) = .lt := (cmp_eq_lt_iff _ _).mpr (by norm_num)
  simp only [roundHalfEven, Int.fract_natCast, hcmp, Nat.floor_natCast]

theorem roundHalfEven_eq_or (q : ℚ) :
    roundHalfEven q = ⌊q⌋₊ ∨ roundHalfEven q = ⌊q⌋₊ + 1 := by
  rw [roundHalfEven]
  split
  · exact Or.inl rfl
  · exact Or.inr rfl
  · omega

theorem magnitude_pos (h : d.mantissa ≠ 0) : 0 < d.magnitude := by
  have hm : (0 : ℚ) < d.mantissa := by exact_mod_cast Nat.pos_of_ne_zero h
  exact mul_pos hm (zpow_pos (by norm_num) _)

theorem magnitude_lt : d.magnitude < 2 ^ (53 + d.exponent) := by
  have hm : (d.mantissa : ℚ) < 2 ^ 53 := by exact_mod_cast d.mantissa_lt
  rw [zpow_add₀ (by norm_num)]
  exact mul_lt_mul_of_pos_right (by exact_mod_cast hm) (zpow_pos (by norm_num) _)

theorem lastBit_magnitude : lastBit d.magnitude = d.exponent := by
  by_cases hzero : d.mantissa = 0
  · have hexponent : d.exponent = -1074 := by
      rcases d.normal with h | h
      · rw [hzero] at h
        norm_num at h
      · exact h
    rw [lastBit, magnitude, hzero, hexponent]
    simp
  · have hpos := d.magnitude_pos hzero
    have hlt : Int.log 2 d.magnitude < 53 + d.exponent :=
      (Int.lt_zpow_iff_log_lt (by norm_num) hpos).mp (by exact_mod_cast d.magnitude_lt)
    rw [lastBit, if_neg hpos.ne']
    rcases d.normal with h | h
    · -- A normal double determines the power of two below it.
      have hle : 52 + d.exponent ≤ Int.log 2 d.magnitude := by
        apply (Int.zpow_le_iff_le_log (by norm_num) hpos).mp
        have hm : (2 : ℚ) ^ 52 ≤ d.mantissa := by exact_mod_cast h
        rw [Nat.cast_ofNat, zpow_add₀ (by norm_num), magnitude]
        exact mul_le_mul_of_nonneg_right (by exact_mod_cast hm)
          (zpow_nonneg (by norm_num) _)
      have := d.le_exponent
      omega
    · omega

/-- Every double is read from its own value. -/
theorem nearest_magnitude : nearest d.neg d.magnitude = some d := by
  have hpow : (2 : ℚ) ^ d.exponent ≠ 0 := zpow_ne_zero _ (by norm_num)
  have hround : roundHalfEven (d.magnitude / 2 ^ lastBit d.magnitude) = d.mantissa := by
    rw [lastBit_magnitude, magnitude, mul_div_cancel_right₀ _ hpow, roundHalfEven_natCast]
  rw [nearest, hround, lastBit_magnitude, if_neg d.mantissa_lt.ne, ofParts_self]

def zero (neg : Bool) : Double :=
  ⟨neg, 0, -1074, by norm_num, by norm_num, by norm_num, Or.inr rfl⟩

theorem nearest_zero (neg : Bool) : nearest neg 0 = some (zero neg) := by
  have hzero : (zero neg).magnitude = 0 := by simp [magnitude, zero]
  rw [← hzero]
  exact nearest_magnitude (zero neg)

/-! ## Integers -/

/-- `float(n)`; `none` stands for the `OverflowError`. -/
def ofInt (n : ℤ) : Option Double := nearest (n < 0) n.natAbs

/-- The integers up to the size of a mantissa are doubles. -/
theorem exists_magnitude_eq {n : ℕ} (h : n ≤ 2 ^ 53) :
    ∃ d : Double, d.neg = false ∧ d.magnitude = n := by
  rcases Nat.eq_zero_or_pos n with rfl | hpos
  · exact ⟨zero false, rfl, by simp [magnitude, zero]⟩
  rcases h.lt_or_eq with hlt | rfl
  · -- The mantissa is shifted until its first bit is set.
    have hlow : 2 ^ Nat.log 2 n ≤ n := Nat.pow_log_le_self 2 hpos.ne'
    have hhigh : n < 2 ^ (Nat.log 2 n + 1) := Nat.lt_pow_succ_log_self (by norm_num) n
    have hlog : Nat.log 2 n ≤ 52 :=
      Nat.lt_succ_iff.mp ((Nat.pow_lt_pow_iff_right (by norm_num)).mp (hlow.trans_lt hlt))
    obtain ⟨k, hk⟩ : ∃ k, 52 = Nat.log 2 n + k := ⟨52 - Nat.log 2 n, by omega⟩
    have hmantissa : n * 2 ^ k < 2 ^ 53 := by
      calc n * 2 ^ k < 2 ^ (Nat.log 2 n + 1) * 2 ^ k :=
            Nat.mul_lt_mul_of_pos_right hhigh (by positivity)
        _ = 2 ^ 53 := by rw [← pow_add]; congr 1; omega
    have hnormal : 2 ^ 52 ≤ n * 2 ^ k := by
      calc 2 ^ 52 = 2 ^ Nat.log 2 n * 2 ^ k := by rw [← pow_add, ← hk]
        _ ≤ n * 2 ^ k := Nat.mul_le_mul_right _ hlow
    refine ⟨⟨false, n * 2 ^ k, -(k : ℤ), hmantissa, by omega, by omega, Or.inl hnormal⟩, rfl, ?_⟩
    rw [magnitude, Nat.cast_mul, mul_assoc, Nat.cast_pow, Nat.cast_ofNat, zpow_neg,
      zpow_natCast, mul_inv_cancel₀ (by positivity), mul_one]
  · refine ⟨⟨false, 2 ^ 52, 1, by norm_num, by norm_num, by norm_num, Or.inl le_rfl⟩, rfl, ?_⟩
    norm_num [magnitude]

theorem magnitude_ofInt {n : ℤ} (hn : 0 ≤ n) (h : n ≤ 2 ^ 53) :
    ∃ d, ofInt n = some d ∧ d.magnitude = n := by
  lift n to ℕ using hn
  obtain ⟨d, hneg, hd⟩ := exists_magnitude_eq (n := n) (by exact_mod_cast h)
  refine ⟨d, ?_, by exact_mod_cast hd⟩
  have hsign : decide ((n : ℤ) < 0) = d.neg := by simp [hneg]
  rw [ofInt, Int.natAbs_natCast, hsign, ← hd]
  exact d.nearest_magnitude

/-! ## Quotients up to one -/

def one : Double :=
  ⟨false, 2 ^ 52, -52, by norm_num, by norm_num, by norm_num, Or.inl le_rfl⟩

theorem magnitude_one : one.magnitude = 1 := by
  rw [magnitude, one]
  norm_num

theorem neg_of_ofParts {neg : Bool} {m : ℕ} {e : ℤ} {d : Double}
    (h : ofParts neg m e = some d) : d.neg = neg := by
  rw [ofParts] at h
  split at h
  · rw [← Option.some.inj h]
  · simp at h

theorem neg_of_nearest {neg : Bool} {q : ℚ} {d : Double} (h : nearest neg q = some d) :
    d.neg = neg := by
  rw [nearest] at h
  split at h
  · exact neg_of_ofParts h
  · exact neg_of_ofParts h

/-- A number below one is read as a double of at most one. -/
theorem exists_nearest_of_lt_one {q : ℚ} (hpos : 0 < q) (hlt : q < 1) :
    ∃ d, nearest false q = some d ∧ d.magnitude ≤ 1 := by
  have hlog : Int.log 2 q ≤ -1 := by
    have := (Int.lt_zpow_iff_log_lt (b := 2) (x := 0) (by norm_num) hpos).mp (by simpa using hlt)
    omega
  have hbit : lastBit q = max (-1074) (Int.log 2 q - 52) := if_neg hpos.ne'
  set e := lastBit q with he
  have hunit : (0 : ℚ) < 2 ^ e := zpow_pos (by norm_num) e
  have hbelow : q / 2 ^ e < 2 ^ 53 := by
    have hq : q < 2 ^ (Int.log 2 q + 1) := by
      exact_mod_cast Int.lt_zpow_succ_log_self (b := 2) (by norm_num) q
    have hstep : (2 : ℚ) ^ (Int.log 2 q + 1) ≤ 2 ^ (53 + e) :=
      zpow_le_zpow_right₀ (by norm_num) (by omega)
    rw [div_lt_iff₀ hunit]
    calc q < 2 ^ (Int.log 2 q + 1) := hq
      _ ≤ 2 ^ (53 + e) := hstep
      _ = 2 ^ 53 * 2 ^ e := by
        rw [zpow_add₀ (by norm_num)]
        norm_num
  have hfloor : ⌊q / 2 ^ e⌋₊ < 2 ^ 53 := by
    rw [Nat.floor_lt (by positivity)]
    exact_mod_cast hbelow
  have hle : (2 : ℚ) ^ (53 + e) ≤ 1 := zpow_le_one_of_nonpos₀ (by norm_num) (by omega)
  have hround := roundHalfEven_eq_or (q / 2 ^ e)
  rw [nearest, ← he]
  split
  · refine ⟨⟨false, 2 ^ 52, e + 1, by norm_num, by omega, by omega, Or.inl le_rfl⟩, ?_, ?_⟩
    · rw [ofParts, dif_pos ⟨by norm_num, by omega, by omega, Or.inl le_rfl⟩]
    · rw [magnitude]
      calc ((2 ^ 52 : ℕ) : ℚ) * 2 ^ (e + 1) = 2 ^ (53 + e) := by
            rw [zpow_add₀ (by norm_num), zpow_add₀ (by norm_num)]
            push_cast
            ring
        _ ≤ 1 := hle
  · rename_i hne
    have hm : roundHalfEven (q / 2 ^ e) < 2 ^ 53 := by omega
    have hnormal : 2 ^ 52 ≤ roundHalfEven (q / 2 ^ e) ∨ e = -1074 := by
      rw [or_iff_not_imp_right]
      intro hexponent
      have hlow : (2 : ℚ) ^ Int.log 2 q ≤ q := by
        exact_mod_cast Int.zpow_log_le_self (b := 2) (by norm_num) hpos
      have hunits : ((2 ^ 52 : ℕ) : ℚ) ≤ q / 2 ^ e := by
        rw [le_div_iff₀ hunit]
        calc ((2 ^ 52 : ℕ) : ℚ) * 2 ^ e = 2 ^ (52 + e) := by
              rw [zpow_add₀ (by norm_num)]
              norm_num
          _ = 2 ^ Int.log 2 q := by congr 1; omega
          _ ≤ q := hlow
      have := Nat.le_floor hunits
      omega
    refine ⟨⟨false, _, e, hm, by omega, by omega, hnormal⟩, ?_, ?_⟩
    · rw [ofParts, dif_pos ⟨hm, by omega, by omega, hnormal⟩]
    · rw [magnitude]
      calc (roundHalfEven (q / 2 ^ e) : ℚ) * 2 ^ e ≤ 2 ^ 53 * 2 ^ e := by
            apply mul_le_mul_of_nonneg_right _ hunit.le
            exact_mod_cast hm.le
        _ = 2 ^ (53 + e) := by
            rw [zpow_add₀ (by norm_num)]
            norm_num
        _ ≤ 1 := hle

theorem nearest_one : nearest false 1 = some one := by
  rw [← magnitude_one]
  exact nearest_magnitude one

theorem exists_nearest_of_le_one {q : ℚ} (hpos : 0 ≤ q) (hle : q ≤ 1) :
    ∃ d, nearest false q = some d ∧ d.magnitude ≤ 1 := by
  rcases hpos.eq_or_lt with hzero | hpos
  · rw [← hzero, nearest_zero]
    refine ⟨zero false, rfl, ?_⟩
    simp [magnitude, zero]
  · rcases hle.eq_or_lt with hone | hlt
    · rw [hone, nearest_one]
      exact ⟨one, rfl, magnitude_one.le⟩
    · exact exists_nearest_of_lt_one hpos hlt

/-- A positive double of value one is `1.0`. -/
theorem eq_one_of_magnitude {d : Double} (hneg : d.neg = false) (h : d.magnitude = 1) :
    d = one := by
  have hself := d.nearest_magnitude
  rw [hneg, h, nearest_one] at hself
  exact (Option.some.inj hself).symm

/-! ## Printing -/

/-- The decimal `c * 10 ^ s` is read as `d`. -/
def Reads (c : ℕ) (s : ℤ) : Prop := nearest d.neg (c * 10 ^ s) = some d

instance (c : ℕ) (s : ℤ) : Decidable (d.Reads c s) :=
  inferInstanceAs (Decidable (nearest d.neg (c * 10 ^ s) = some d))

/-- The position of the decimal point relative to the first digit. -/
def decpt : ℤ := Int.log 10 d.magnitude + 1

/-- The value in units of its `n`-th digit. -/
def scaled (n : ℕ) : ℚ := d.magnitude / 10 ^ (d.decpt - n)

/-- One of the two decimals with `n` digits around the value is read as `d`. -/
def HasDigits (n : ℕ) : Prop :=
  0 < n ∧
    (d.Reads ⌊d.scaled n⌋₊ (d.decpt - n) ∨ d.Reads (⌊d.scaled n⌋₊ + 1) (d.decpt - n))

instance (n : ℕ) : Decidable (d.HasDigits n) :=
  inferInstanceAs (Decidable (_ ∧ (_ ∨ _)))

theorem dyadic_scaled_eq_natCast (m t k u : ℕ) :
    (m * 2 ^ (-(k : ℤ) + t) : ℚ) / 10 ^ (-((k + u : ℕ) : ℤ)) =
      ((m * 2 ^ t * 5 ^ k * 10 ^ u : ℕ) : ℚ) := by
  have hten : (10 : ℚ) ^ k = 2 ^ k * 5 ^ k := by rw [← mul_pow]; norm_num
  rw [zpow_neg, div_inv_eq_mul, zpow_natCast, pow_add, hten, zpow_add₀ (by norm_num),
    zpow_neg, zpow_natCast, zpow_natCast]
  push_cast
  field_simp

/-- With enough digits the decimal is the value itself. -/
theorem exists_hasDigits : ∃ n, d.HasDigits n := by
  obtain ⟨t, ht⟩ : ∃ t : ℕ, d.exponent = -((1074 : ℕ) : ℤ) + t :=
    ⟨(d.exponent + 1074).toNat, by have := d.le_exponent; omega⟩
  obtain ⟨u, hu⟩ : ∃ u : ℕ, d.decpt - ((d.decpt.toNat + 1074 : ℕ) : ℤ) =
      -((1074 + u : ℕ) : ℤ) := ⟨(d.decpt.toNat - d.decpt).toNat, by omega⟩
  refine ⟨d.decpt.toNat + 1074, by omega, Or.inl ?_⟩
  have hscaled := dyadic_scaled_eq_natCast d.mantissa t 1074 u
  rw [← ht, ← hu, ← magnitude, ← scaled] at hscaled
  rw [Reads, hscaled, Nat.floor_natCast, ← hscaled, scaled,
    div_mul_cancel₀ _ (zpow_ne_zero _ (by norm_num)), nearest_magnitude]

/-- The least number of digits from which `d` is read back. -/
def digitCount : ℕ := Nat.find d.exists_hasDigits

/-- The digits printed for `d`, as a number: those of the closer decimal, unless only the
other one is read as `d`. -/
def significand : ℕ :=
  let n := d.digitCount
  let c := roundHalfEven (d.scaled n)
  if d.Reads c (d.decpt - n) then c
  else if c = ⌊d.scaled n⌋₊ then ⌊d.scaled n⌋₊ + 1 else ⌊d.scaled n⌋₊

theorem reads_significand : d.Reads d.significand (d.decpt - d.digitCount) := by
  obtain ⟨-, hreads⟩ := Nat.find_spec d.exists_hasDigits
  rw [significand]
  split
  · assumption
  · rename_i hcloser
    rcases roundHalfEven_eq_or (d.scaled d.digitCount) with h | h
    · rw [h] at hcloser
      rw [if_pos h]
      exact hreads.resolve_left hcloser
    · rw [h] at hcloser
      rw [if_neg (by omega)]
      exact hreads.resolve_right hcloser

end Double

/-! ## Digits -/

def decimalDigits (n : ℕ) : List (Fin 10) :=
  (Nat.digits 10 n).reverse.map (Fin.ofNat 10)

def digitsValue (ds : List (Fin 10)) : ℕ :=
  Nat.ofDigits 10 (ds.reverse.map Fin.val)

@[simp] theorem digitsValue_nil : digitsValue [] = 0 := rfl

theorem digitsValue_append (ds es : List (Fin 10)) :
    digitsValue (ds ++ es) = digitsValue ds * 10 ^ es.length + digitsValue es := by
  simp [digitsValue, Nat.ofDigits_append]
  ring

theorem digitsValue_replicate_zero (n : ℕ) : digitsValue (List.replicate n 0) = 0 := by
  simp [digitsValue, List.reverse_replicate, List.map_replicate, Nat.ofDigits_replicate_zero]

theorem digitsValue_decimalDigits (n : ℕ) : digitsValue (decimalDigits n) = n := by
  have hdigits : ((decimalDigits n).reverse.map Fin.val) = Nat.digits 10 n := by
    rw [decimalDigits, ← List.map_reverse, List.reverse_reverse, List.map_map]
    conv_rhs => rw [← List.map_id (Nat.digits 10 n)]
    apply List.map_congr_left
    intro d hd
    exact Nat.mod_eq_of_lt (Nat.digits_lt_base (by norm_num) hd)
  rw [digitsValue, hdigits, Nat.ofDigits_digits]

theorem digitsValue_eq_strip_mul (ds : List (Fin 10)) :
    digitsValue ds = digitsValue (ds.rdropWhile (· = 0)) *
      10 ^ (ds.length - (ds.rdropWhile (· = 0)).length) := by
  induction ds using List.reverseRecOn with
  | nil => rfl
  | append_singleton ds d ih =>
      rw [List.rdropWhile_concat]
      split
      · rename_i hd
        obtain rfl : d = 0 := by simpa using hd
        have hle : (ds.rdropWhile (· = 0)).length ≤ ds.length :=
          (List.rdropWhile_prefix _ _).length_le
        have hzero : digitsValue [0] = 0 := rfl
        rw [digitsValue_append, ih, hzero, add_zero, List.length_append,
          List.length_singleton, pow_one, Nat.sub_add_comm hle, pow_succ, mul_assoc]
      · simp

/-! ## The printed shape -/

/-- At least two digits. -/
def exponentDigits (n : ℕ) : List (Fin 10) :=
  if n < 10 then [0, Fin.ofNat 10 n] else decimalDigits n

/-- The float with the digits `ds` and the decimal point after `decpt` of them, as `repr`
lays it out: without an exponent when the point is near the digits. -/
def PyFloat.ofDigits (neg : Bool) (ds : List (Fin 10)) (decpt : ℤ) : PyFloat :=
  if -4 < decpt ∧ decpt ≤ 16 then
    if decpt ≤ 0 then .fixed neg [0] (List.replicate (-decpt).toNat 0 ++ ds)
    else if decpt < ds.length then
      .fixed neg (ds.take decpt.toNat) (ds.drop decpt.toNat)
    else .fixed neg (ds ++ List.replicate (decpt.toNat - ds.length) 0) [0]
  else
    .scientific neg (ds.headD 0) ds.tail (decide (decpt < 1))
      (exponentDigits (decpt - 1).natAbs)

/-- The digits that are printed. -/
def Double.digits (d : Double) : List (Fin 10) :=
  (decimalDigits d.significand).rdropWhile (· = 0)

/-- `repr(d)` -/
def Double.repr (d : Double) : PyFloat :=
  if d.mantissa = 0 then .fixed d.neg [0] [0]
  else
    PyFloat.ofDigits d.neg d.digits
      ((decimalDigits d.significand).length + (d.decpt - d.digitCount))

/-- The digits of a float as a number. -/
def PyFloat.coefficient : PyFloat → ℕ
  | .nan => 0
  | .infinity _ => 0
  | .fixed _ whole frac => digitsValue (whole ++ frac)
  | .scientific _ lead frac _ _ => digitsValue (lead :: frac)

/-- The power of ten that `coefficient` is multiplied with. -/
def PyFloat.power : PyFloat → ℤ
  | .nan => 0
  | .infinity _ => 0
  | .fixed _ _ frac => -frac.length
  | .scientific _ _ frac expNeg exp =>
      (if expNeg then -(digitsValue exp : ℤ) else digitsValue exp) - frac.length

def PyFloat.isNeg : PyFloat → Bool
  | .nan => false
  | .infinity neg => neg
  | .fixed neg _ _ => neg
  | .scientific neg _ _ _ _ => neg

/-- Printed with a positive exponent. -/
def PyFloat.IsLarge : PyFloat → Prop
  | .scientific _ _ _ expNeg _ => expNeg = false
  | _ => False

instance : DecidablePred PyFloat.IsLarge
  | .nan => inferInstanceAs (Decidable False)
  | .infinity _ => inferInstanceAs (Decidable False)
  | .fixed _ _ _ => inferInstanceAs (Decidable False)
  | .scientific _ _ _ expNeg _ => inferInstanceAs (Decidable (expNeg = false))

theorem PyFloat.coefficient_of_isZero {x : PyFloat} (h : x.IsZero) : x.coefficient = 0 := by
  cases x with
  | nan => rfl
  | infinity neg => rfl
  | fixed neg whole frac =>
      obtain ⟨hwhole, hfrac⟩ := h
      rw [PyFloat.coefficient, List.eq_replicate_of_mem hwhole,
        List.eq_replicate_of_mem hfrac, ← List.replicate_add, digitsValue_replicate_zero]
  | scientific neg lead frac expNeg exp =>
      obtain ⟨rfl, hfrac⟩ := h
      rw [PyFloat.coefficient, List.eq_replicate_of_mem hfrac, ← List.replicate_succ,
        digitsValue_replicate_zero]

theorem digitsValue_exponentDigits (n : ℕ) : digitsValue (exponentDigits n) = n := by
  rw [exponentDigits]
  split
  · rename_i hn
    simp [digitsValue, Nat.ofDigits_cons, Nat.mod_eq_of_lt hn]
  · exact digitsValue_decimalDigits n

section OfDigits

variable {neg : Bool} {ds : List (Fin 10)} {decpt : ℤ}

theorem PyFloat.isNeg_ofDigits : (PyFloat.ofDigits neg ds decpt).isNeg = neg := by
  rw [PyFloat.ofDigits]
  split_ifs <;> rfl

theorem PyFloat.isLarge_ofDigits_iff :
    (PyFloat.ofDigits neg ds decpt).IsLarge ↔ 17 ≤ decpt := by
  rw [PyFloat.ofDigits]
  split_ifs with hfixed
  all_goals simp only [PyFloat.IsLarge, false_iff, decide_eq_false_iff_not]
  all_goals omega

/-- Without a positive exponent there is a fraction to print. -/
theorem PyFloat.power_ofDigits_neg (hds : ds ≠ [])
    (h : ¬(PyFloat.ofDigits neg ds decpt).IsLarge) :
    (PyFloat.ofDigits neg ds decpt).power < 0 := by
  have hlength := List.length_pos_iff.mpr hds
  rw [PyFloat.isLarge_ofDigits_iff] at h
  rw [PyFloat.ofDigits]
  split_ifs with hfixed hwhole hinside
  · simp only [PyFloat.power, List.length_append, List.length_replicate]
    omega
  · simp only [PyFloat.power, List.length_drop]
    omega
  · simp [PyFloat.power]
  · have hsmall : decpt < 1 := by omega
    simp only [PyFloat.power, hsmall, decide_true, if_true, digitsValue_exponentDigits,
      List.length_tail]
    omega

theorem PyFloat.power_ofDigits_of_isLarge (hds : ds ≠ [])
    (h : (PyFloat.ofDigits neg ds decpt).IsLarge) :
    (PyFloat.ofDigits neg ds decpt).power = decpt - ds.length := by
  have hlength := List.length_pos_iff.mpr hds
  rw [PyFloat.isLarge_ofDigits_iff] at h
  rw [PyFloat.ofDigits, if_neg (by omega)]
  have hbig : ¬decpt < 1 := by omega
  simp only [PyFloat.power, hbig, decide_false, Bool.false_eq_true, if_false,
    digitsValue_exponentDigits, List.length_tail]
  omega

/-- The layout keeps the value. -/
theorem PyFloat.value_ofDigits (hds : ds ≠ []) :
    ((PyFloat.ofDigits neg ds decpt).coefficient : ℚ) *
        10 ^ (PyFloat.ofDigits neg ds decpt).power =
      digitsValue ds * 10 ^ (decpt - ds.length) := by
  have hlength := List.length_pos_iff.mpr hds
  rw [PyFloat.ofDigits]
  split_ifs with hfixed hwhole hinside
  · have hpower : (-((List.replicate (-decpt).toNat (0 : Fin 10) ++ ds).length : ℤ)) =
        decpt - ds.length := by
      simp only [List.length_append, List.length_replicate]
      omega
    have hzero : digitsValue [0] = 0 := rfl
    simp only [PyFloat.coefficient, PyFloat.power, hpower, digitsValue_append,
      digitsValue_replicate_zero, hzero, zero_mul, zero_add]
  · have hpower : (-((ds.drop decpt.toNat).length : ℤ)) = decpt - ds.length := by
      rw [List.length_drop]
      omega
    simp only [PyFloat.coefficient, PyFloat.power, List.take_append_drop, hpower]
  · obtain ⟨k, hk⟩ : ∃ k : ℕ, decpt = ds.length + k :=
      ⟨(decpt - ds.length).toNat, by omega⟩
    have hcount : decpt.toNat - ds.length = k := by omega
    have hpower : decpt - ds.length = (k : ℤ) := by omega
    have hzero : digitsValue [0] = 0 := rfl
    simp only [PyFloat.coefficient, PyFloat.power, hcount, hpower, digitsValue_append,
      digitsValue_replicate_zero, hzero, List.length_replicate, List.length_singleton,
      add_zero, zpow_natCast]
    push_cast
    field_simp
  · obtain ⟨d, ds, rfl⟩ := List.exists_cons_of_ne_nil hds
    have hpower : (if decide (decpt < 1) = true then -((decpt - 1).natAbs : ℤ)
        else (decpt - 1).natAbs) - (ds.length : ℤ) = decpt - (d :: ds).length := by
      rw [List.length_cons]
      by_cases hneg : decpt < 1
      · simp only [hneg, decide_true, if_true]
        omega
      · simp only [hneg, decide_false, Bool.false_eq_true, if_false]
        omega
    simp only [PyFloat.coefficient, PyFloat.power, List.headD_cons, List.tail_cons,
      digitsValue_exponentDigits, hpower]

end OfDigits

/-! ## The printed double -/

namespace Double

variable (d : Double)

theorem significand_ne_zero (h : d.mantissa ≠ 0) : d.significand ≠ 0 := by
  intro hzero
  have hreads := d.reads_significand
  rw [Reads, hzero, Nat.cast_zero, zero_mul, nearest_zero, Option.some.injEq] at hreads
  exact h (congrArg mantissa hreads).symm

theorem digits_ne_nil (h : d.mantissa ≠ 0) : d.digits ≠ [] := by
  intro hnil
  have hvalue := digitsValue_eq_strip_mul (decimalDigits d.significand)
  rw [← digits, hnil, digitsValue_decimalDigits, digitsValue_nil, zero_mul] at hvalue
  exact d.significand_ne_zero h hvalue

theorem length_digits_le : d.digits.length ≤ (decimalDigits d.significand).length :=
  (List.rdropWhile_prefix _ _).length_le

theorem isNeg_repr : d.repr.isNeg = d.neg := by
  by_cases h : d.mantissa = 0
  · rw [repr, if_pos h]
    rfl
  · rw [repr, if_neg h, PyFloat.isNeg_ofDigits]

/-- The printed decimal is read as the double it was printed from. -/
theorem reads_repr : nearest d.neg (d.repr.coefficient * 10 ^ d.repr.power) = some d := by
  by_cases h : d.mantissa = 0
  · have hvalue : (d.repr.coefficient : ℚ) * 10 ^ d.repr.power = d.magnitude := by
      have hzero : (PyFloat.fixed d.neg [0] [0]).coefficient = 0 := rfl
      rw [repr, if_pos h, magnitude, h, hzero, Nat.cast_zero, zero_mul, zero_mul]
    rw [hvalue, nearest_magnitude]
  · have hlength := d.length_digits_le
    have hvalue := digitsValue_eq_strip_mul (decimalDigits d.significand)
    rw [← digits, digitsValue_decimalDigits] at hvalue
    have hprinted : (d.repr.coefficient : ℚ) * 10 ^ d.repr.power =
        d.significand * 10 ^ (d.decpt - d.digitCount) := by
      rw [repr, if_neg h, PyFloat.value_ofDigits (d.digits_ne_nil h)]
      conv_rhs => rw [hvalue, Nat.cast_mul, Nat.cast_pow, Nat.cast_ofNat, mul_assoc,
        ← zpow_natCast, ← zpow_add₀ (by norm_num), Nat.cast_sub hlength]
      rw [add_sub_right_comm]
    rw [hprinted]
    exact d.reads_significand

theorem power_repr_neg (h : ¬d.repr.IsLarge) : d.repr.power < 0 := by
  by_cases hzero : d.mantissa = 0
  · rw [repr, if_pos hzero]
    simp [PyFloat.power]
  · rw [repr, if_neg hzero] at h ⊢
    exact PyFloat.power_ofDigits_neg (d.digits_ne_nil hzero) h

theorem magnitude_lt_ten_zpow : d.magnitude < 10 ^ d.decpt := by
  exact_mod_cast Int.lt_zpow_succ_log_self (b := 10) (by norm_num) d.magnitude

theorem significand_le : d.significand ≤ 10 ^ d.digitCount := by
  have hscaled : d.scaled d.digitCount < (10 ^ d.digitCount : ℕ) := by
    rw [scaled, div_lt_iff₀ (zpow_pos (by norm_num) _), Nat.cast_pow, Nat.cast_ofNat,
      ← zpow_natCast, ← zpow_add₀ (by norm_num)]
    simpa using d.magnitude_lt_ten_zpow
  have hfloor : ⌊d.scaled d.digitCount⌋₊ < 10 ^ d.digitCount :=
    Nat.floor_lt' (by positivity) |>.mpr hscaled
  have hround := roundHalfEven_eq_or (d.scaled d.digitCount)
  rw [significand]
  split_ifs <;> omega

/-- Doubles from `10 ^ 16` on are integers, so that no digit behind the point is needed. -/
theorem digitCount_le_decpt (h : 17 ≤ d.decpt) : (d.digitCount : ℤ) ≤ d.decpt := by
  have hpos : 0 < d.magnitude := by
    by_contra hnot
    have hlog : d.decpt = 1 := by
      rw [decpt, Int.log_of_right_le_zero _ (not_lt.mp hnot), zero_add]
    omega
  have hlarge : (10 : ℚ) ^ (16 : ℤ) ≤ d.magnitude := by
    have hlog : 16 ≤ Int.log 10 d.magnitude := by rw [decpt] at h; omega
    exact_mod_cast (Int.zpow_le_iff_le_log (by norm_num) hpos).mpr hlog
  obtain ⟨e, he⟩ : ∃ e : ℕ, d.exponent = e := by
    refine ⟨d.exponent.toNat, (Int.toNat_of_nonneg ?_).symm⟩
    by_contra hneg
    have hsmall : (2 : ℚ) ^ (53 + d.exponent) ≤ 2 ^ (53 : ℤ) :=
      zpow_le_zpow_right₀ (by norm_num) (by omega)
    have hbound := d.magnitude_lt
    norm_num at hlarge hsmall
    linarith
  obtain ⟨n, hn⟩ : ∃ n : ℕ, d.decpt = n := ⟨d.decpt.toNat, by omega⟩
  have hscaled : d.scaled n = ((d.mantissa * 2 ^ e : ℕ) : ℚ) := by
    rw [scaled, hn, sub_self, zpow_zero, div_one, magnitude, he, zpow_natCast]
    push_cast
    ring
  have hdigits : d.HasDigits n := by
    refine ⟨by omega, Or.inl ?_⟩
    rw [Reads, hscaled, Nat.floor_natCast, ← hscaled, scaled,
      div_mul_cancel₀ _ (zpow_ne_zero _ (by norm_num)), nearest_magnitude]
  have hle : d.digitCount ≤ n := Nat.find_min' d.exists_hasDigits hdigits
  omega

/-- `1e16`, up to its sign. -/
def tenPowSixteen (neg : Bool) : Double :=
  ⟨neg, 5 * 10 ^ 15, 1, by norm_num, by norm_num, by norm_num, by norm_num⟩

theorem magnitude_tenPowSixteen (neg : Bool) :
    (tenPowSixteen neg).magnitude = 10 ^ (16 : ℤ) := by
  norm_num [magnitude, tenPowSixteen]

/-- A double printed with a positive exponent is printed without a fraction. -/
theorem power_repr_nonneg (h : d.repr.IsLarge) : 0 ≤ d.repr.power := by
  have hzero : d.mantissa ≠ 0 := by
    intro hzero
    rw [repr, if_pos hzero] at h
    exact h
  have hlength := d.length_digits_le
  rw [repr, if_neg hzero] at h ⊢
  rw [PyFloat.power_ofDigits_of_isLarge (d.digits_ne_nil hzero) h]
  rw [PyFloat.isLarge_ofDigits_iff] at h
  by_cases hcount : (d.digitCount : ℤ) ≤ d.decpt
  · omega
  · -- Otherwise the value is below `10 ^ 16` and rounding up has reached it.
    have hdecpt : d.decpt ≤ 16 := by
      by_contra hlarge
      exact hcount (d.digitCount_le_decpt (by omega))
    have hlen : ¬(decimalDigits d.significand).length ≤ d.digitCount := by omega
    have hdigits : (decimalDigits d.significand).length =
        (Nat.digits 10 d.significand).length := by simp [decimalDigits]
    rw [hdigits, Nat.digits_length_le_iff (by norm_num), not_lt] at hlen
    have hpow : d.significand = 10 ^ d.digitCount := le_antisymm d.significand_le hlen
    have hbound : (Nat.digits 10 d.significand).length ≤ d.digitCount + 1 := by
      rw [Nat.digits_length_le_iff (by norm_num), hpow]
      exact Nat.pow_lt_pow_right (by norm_num) (by omega)
    have hsixteen : d.decpt = 16 := by omega
    have hreads := d.reads_significand
    rw [Reads, hpow, Nat.cast_pow, Nat.cast_ofNat, ← zpow_natCast,
      ← zpow_add₀ (by norm_num), add_sub_cancel, hsixteen,
      ← magnitude_tenPowSixteen d.neg] at hreads
    have hself := (tenPowSixteen d.neg).nearest_magnitude
    have heq : tenPowSixteen d.neg = d :=
      Option.some.inj (hself.symm.trans hreads)
    have hlt := d.magnitude_lt_ten_zpow
    rw [hsixteen, ← heq, magnitude_tenPowSixteen] at hlt
    exact absurd hlt (lt_irrefl _)

theorem coefficient_repr_eq_zero_iff : d.repr.coefficient = 0 ↔ d.repr.IsZero := by
  refine ⟨?_, PyFloat.coefficient_of_isZero⟩
  intro h
  have hreads := d.reads_repr
  rw [h, Nat.cast_zero, zero_mul, nearest_zero, Option.some.injEq] at hreads
  have hzero : d.mantissa = 0 := (congrArg mantissa hreads).symm
  rw [repr, if_pos hzero]
  simp [PyFloat.IsZero]

end Double

end AgenticGovernance.Support

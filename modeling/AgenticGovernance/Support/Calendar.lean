import Mathlib
import AgenticGovernance.Support.Stamp

/-!
# Conversion to UTC

`astimezone(timezone.utc)` subtracts the offset of an aware time.  The calendar has the years 1
to 9999 only, so within a day of its ends the result can be outside, which is an
`OverflowError`.  `astimezoneUtc_eq_none_iff` says when.
-/

namespace AgenticGovernance.Support

/-! ## Days by number -/

/-- The day 9999-12-31. -/
def maxOrdinal : ℕ := 3652059

def daysInMonth (leap : Bool) (m : ℕ) : ℕ :=
  [31, 28, 31, 30, 31, 30, 31, 31, 30, 31, 30, 31].getD (m - 1) 0 +
    if leap && m == 2 then 1 else 0

/-- The month and the day in it, for a day of a year counted from 0.  The first guess of the
month is right or one too large. -/
def monthDay (leap : Bool) (n : ℕ) : ℕ × ℕ :=
  let month := (n + 50) / 32
  let preceding := daysBeforeMonth leap month
  if n < preceding then (month - 1, n - (preceding - daysInMonth leap (month - 1)) + 1)
  else (month, n - preceding + 1)

/-- `_ord2ymd` -/
def ordToYmd (ordinal : ℕ) : ℕ × ℕ × ℕ :=
  let n := ordinal - 1
  let n400 := n / 146097
  let n := n % 146097
  let n100 := n / 36524
  let n := n % 36524
  let n4 := n / 1461
  let n := n % 1461
  let n1 := n / 365
  let n := n % 365
  let year := n400 * 400 + 1 + (n100 * 100 + n4 * 4 + n1)
  if n1 = 4 ∨ n100 = 4 then (year - 1, 12, 31)
  else
    let leap := n1 == 3 && (n4 != 24 || n100 == 3)
    (year, monthDay leap n)

/-- The number of a day, as `Datetime.toordinal` counts. -/
def ymdToOrd (year month day : ℕ) : ℤ :=
  let y : ℤ := year - 1
  y * 365 + y / 4 - y / 100 + y / 400 + daysBeforeMonth (isLeap year) month + day

theorem Datetime.toordinal_eq (t : Datetime) :
    t.toordinal = ymdToOrd t.year.val t.month.val t.day.val := rfl

/-- Month and day of every day of a year. -/
theorem monthDay_spec : ∀ leap : Bool, ∀ n < 365,
    (monthDay leap n).1 < 13 ∧ (monthDay leap n).2 < 32 ∧
      daysBeforeMonth leap (monthDay leap n).1 + (monthDay leap n).2 = n + 1 := by
  decide +kernel

/-- Years in a cycle of 400: `b` hundreds, `c` fours and `d` single years after `a` cycles. -/
theorem isLeap_of_cycle {a b c d : ℕ} (hb : b < 4) (hc : c < 25) (hd : d < 4) :
    isLeap (a * 400 + 1 + (b * 100 + c * 4 + d)) = (d == 3 && (c != 24 || b == 3)) := by
  rw [isLeap, Bool.eq_iff_iff]
  simp only [Bool.and_eq_true, Bool.or_eq_true, beq_iff_eq, bne_iff_ne]
  omega

/-- The days before the year after that. -/
theorem ymdToOrd_of_cycle {a b c d : ℕ} (hb : b < 4) (hc : c < 25) (hd : d < 4) (month day : ℕ) :
    ymdToOrd (a * 400 + 1 + (b * 100 + c * 4 + d)) month day =
      a * 146097 + b * 36524 + c * 1461 + d * 365 +
        (daysBeforeMonth (d == 3 && (c != 24 || b == 3)) month + day : ℕ) := by
  rw [ymdToOrd, isLeap_of_cycle hb hc hd]
  push_cast
  omega

/-- The last day of a leap year ends a cycle of 4 or of 400 years. -/
theorem ymdToOrd_leap_end {year : ℕ} (hyear : isLeap year) :
    ymdToOrd year 12 31 = ((year : ℤ) - 1) * 365 + ((year : ℤ) - 1) / 4 -
      ((year : ℤ) - 1) / 100 + ((year : ℤ) - 1) / 400 + 366 := by
  have hbefore : daysBeforeMonth true 12 = 335 := by decide
  rw [ymdToOrd, hyear, hbefore]
  push_cast
  ring

/-- The date of a day has its number. -/
theorem ymdToOrd_ordToYmd {ordinal : ℕ} (h : 1 ≤ ordinal) (hmax : ordinal ≤ maxOrdinal) :
    (ordToYmd ordinal).1 < 10000 ∧ (ordToYmd ordinal).2.1 < 13 ∧ (ordToYmd ordinal).2.2 < 32 ∧
      ymdToOrd (ordToYmd ordinal).1 (ordToYmd ordinal).2.1 (ordToYmd ordinal).2.2 = ordinal := by
  rw [maxOrdinal] at hmax
  rw [ordToYmd]
  set a := (ordinal - 1) / 146097 with ha
  set b := (ordinal - 1) % 146097 / 36524 with hb
  set c := (ordinal - 1) % 146097 % 36524 / 1461 with hc
  set d := (ordinal - 1) % 146097 % 36524 % 1461 / 365 with hd
  set n := (ordinal - 1) % 146097 % 36524 % 1461 % 365 with hn
  have hsplit : ordinal = a * 146097 + b * 36524 + c * 1461 + d * 365 + n + 1 := by omega
  have hbound : a < 25 ∧ b < 5 ∧ c < 25 ∧ d < 5 ∧ n < 365 := by omega
  have hbLast : b = 4 → c = 0 ∧ d = 0 ∧ n = 0 := by omega
  have hdLast : d = 4 → c < 24 ∧ n = 0 := by omega
  clear ha hb hc hd hn
  clear_value a b c d n
  obtain ⟨han, hbn, hcn, hdn, hnn⟩ := hbound
  by_cases hend : d = 4 ∨ b = 4
  · rw [if_pos hend]
    have hyear : a * 400 + 1 + (b * 100 + c * 4 + d) - 1 = a * 400 + (b * 100 + c * 4 + d) := by
      omega
    have hleap : isLeap (a * 400 + (b * 100 + c * 4 + d)) := by
      simp only [isLeap, Bool.and_eq_true, Bool.or_eq_true, beq_iff_eq, bne_iff_ne]
      omega
    rw [hyear]
    refine ⟨by dsimp only; omega, (by decide : 12 < 13), (by decide : 31 < 32), ?_⟩
    dsimp only
    rw [ymdToOrd_leap_end hleap]
    push_cast
    rcases hend with hd | hb
    · obtain ⟨hc, hn⟩ := hdLast hd
      have hfours : ((a : ℤ) * 400 + (b * 100 + c * 4 + d) - 1) / 4 = a * 100 + b * 25 + c := by
        omega
      have hhundreds : ((a : ℤ) * 400 + (b * 100 + c * 4 + d) - 1) / 100 = a * 4 + b := by omega
      omega
    · obtain ⟨hc, hd, hn⟩ := hbLast hb
      omega
  · rw [if_neg hend]
    have hd4 : d < 4 := by omega
    have hb4 : b < 4 := by omega
    obtain ⟨hmonth, hday, hsum⟩ := monthDay_spec (d == 3 && (c != 24 || b == 3)) n hnn
    refine ⟨by dsimp only; omega, hmonth, hday, ?_⟩
    rw [ymdToOrd_of_cycle hb4 hcn hd4, hsum]
    push_cast
    omega

/-! ## `astimezone(timezone.utc)` -/

def dayMicros : ℤ := 86400000000

/-- 0001-01-01T00:00:00Z -/
def firstInstant : ℤ := dayMicros

/-- 9999-12-31T23:59:59.999999Z -/
def lastInstant : ℤ := (maxOrdinal + 1) * dayMicros - 1

/-- The date of a day and a time of day in microseconds, in UTC. -/
def combineUtc (ordinal micros : ℕ) : Datetime :=
  let (year, month, day) := ordToYmd ordinal
  { year := .ofNat _ year
    month := .ofNat _ month
    day := .ofNat _ day
    hour := .ofNat _ (micros / 3600000000)
    minute := .ofNat _ (micros / 60000000 % 60)
    second := .ofNat _ (micros / 1000000 % 60)
    microsecond := .ofNat _ (micros % 1000000)
    utcoffset := some .utc }

/-- `t.astimezone(timezone.utc)` of an aware time; `none` is the `OverflowError`.  A time in UTC
is returned as it is. -/
def Datetime.astimezoneUtc (t : Datetime) : Option Datetime :=
  if t.utcoffset = some .utc then some t
  else if 1 ≤ t.instant / dayMicros ∧ t.instant / dayMicros ≤ maxOrdinal then
    some (combineUtc (t.instant / dayMicros).toNat (t.instant % dayMicros).toNat)
  else none

/-- The time is not in UTC, and in UTC it is before year 1 or after year 9999. -/
def Datetime.LeavesCalendar (t : Datetime) : Prop :=
  t.utcoffset ≠ some .utc ∧ ¬(firstInstant ≤ t.instant ∧ t.instant ≤ lastInstant)

instance (t : Datetime) : Decidable t.LeavesCalendar :=
  inferInstanceAs (Decidable (_ ∧ ¬_))

theorem ordinal_in_range_iff {i : ℤ} :
    1 ≤ i / dayMicros ∧ i / dayMicros ≤ maxOrdinal ↔ firstInstant ≤ i ∧ i ≤ lastInstant := by
  rw [firstInstant, lastInstant, dayMicros]
  omega

theorem astimezoneUtc_eq_none_iff {t : Datetime} :
    t.astimezoneUtc = none ↔ t.LeavesCalendar := by
  rw [Datetime.astimezoneUtc, Datetime.LeavesCalendar, ← ordinal_in_range_iff]
  by_cases hutc : t.utcoffset = some .utc
  · simp [hutc]
  · by_cases hrange : 1 ≤ t.instant / dayMicros ∧ t.instant / dayMicros ≤ maxOrdinal
    · simp [hutc, hrange]
    · simp [hutc, hrange]

/-- The result is in UTC. -/
theorem utcoffset_of_astimezoneUtc {t u : Datetime} (h : t.astimezoneUtc = some u) :
    u.utcoffset = some .utc := by
  rw [Datetime.astimezoneUtc] at h
  split at h
  · rename_i hutc
    rwa [← Option.some.inj h]
  · split at h
    · rw [← Option.some.inj h]
      rfl
    · cases h

theorem astimezoneUtc_of_utc {t : Datetime} (h : t.utcoffset = some .utc) :
    t.astimezoneUtc = some t := by
  rw [Datetime.astimezoneUtc, if_pos h]

theorem instant_combineUtc {ordinal micros : ℕ} (h : 1 ≤ ordinal) (hmax : ordinal ≤ maxOrdinal)
    (hmicros : (micros : ℤ) < dayMicros) :
    (combineUtc ordinal micros).instant = ordinal * dayMicros + micros := by
  obtain ⟨hyear, hmonth, hday, hord⟩ := ymdToOrd_ordToYmd h hmax
  have htoordinal : (combineUtc ordinal micros).toordinal = ordinal := by
    rw [Datetime.toordinal_eq, ← hord]
    simp only [combineUtc, Fin.val_ofNat, Nat.mod_eq_of_lt hyear, Nat.mod_eq_of_lt hmonth,
      Nat.mod_eq_of_lt hday]
  rw [dayMicros] at hmicros ⊢
  rw [Datetime.instant, htoordinal]
  simp only [combineUtc, Fin.val_ofNat, Option.map_some, Option.getD_some]
  have hoffset : UtcOffset.micros .utc = 0 := by decide
  rw [hoffset]
  omega

/-- A day of the calendar and a time of day, in UTC, like the times of
`datetime.now(timezone.utc)`. -/
def Datetime.IsUtc (t : Datetime) : Prop :=
  ∃ ordinal micros : ℕ, 1 ≤ ordinal ∧ ordinal ≤ maxOrdinal ∧ (micros : ℤ) < dayMicros ∧
    t = combineUtc ordinal micros

theorem Datetime.IsUtc.utcoffset {t : Datetime} (h : t.IsUtc) : t.utcoffset = some .utc := by
  obtain ⟨ordinal, micros, -, -, -, ht⟩ := h
  rw [ht, combineUtc]

/-- Two times in UTC that are one instant are one time. -/
theorem Datetime.IsUtc.eq_of_instant {t u : Datetime} (ht : t.IsUtc) (hu : u.IsUtc)
    (h : t.instant = u.instant) : t = u := by
  obtain ⟨day, micros, hday, hdayMax, hmicros, ht⟩ := ht
  obtain ⟨day', micros', hday', hdayMax', hmicros', hu⟩ := hu
  rw [ht, hu, instant_combineUtc hday hdayMax hmicros,
    instant_combineUtc hday' hdayMax' hmicros'] at h
  have hsame : day = day' ∧ micros = micros' := by
    rw [dayMicros] at h hmicros hmicros'
    omega
  rw [ht, hu, hsame.1, hsame.2]

end AgenticGovernance.Support

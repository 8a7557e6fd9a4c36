import Mathlib
import AgenticGovernance.Support.Text

/-!
# UUIDs and timestamps as text

`Uuid.str` is `str(uuid.UUID(...))` and `Datetime.isoformat` is
`datetime.isoformat()`.  Both are injective, so a digest over the text pins
the identifier and the timestamp.
-/

namespace AgenticGovernance.Support

theorem fixedDigits_append_inj {b w n m : ℕ} {r r' : List Char}
    (hb : b ≤ 16) (hb' : 0 < b) (hn : n < b ^ w) (hm : m < b ^ w)
    (h : fixedDigits b w n ++ r = fixedDigits b w m ++ r') :
    n = m ∧ r = r' := by
  obtain ⟨hdigits, hrest⟩ := List.append_inj h (by simp)
  exact ⟨fixedDigits_inj hb hb' hn hm hdigits, hrest⟩

/-! ## UUIDs -/

structure Uuid where
  bits : BitVec 128
  deriving DecidableEq, Repr

def Uuid.hex (u : Uuid) : List Char := fixedDigits 16 32 u.bits.toNat

/-- The 8-4-4-4-12 form of a UUID. -/
def Uuid.dashed (u : Uuid) : List Char :=
  u.hex.take 8 ++ '-' :: ((u.hex.drop 8).take 4 ++ '-' ::
    ((u.hex.drop 12).take 4 ++ '-' ::
      ((u.hex.drop 16).take 4 ++ '-' :: u.hex.drop 20)))

def Uuid.str (u : Uuid) : String := String.ofList u.dashed

theorem Uuid.hex_inj {u v : Uuid} (h : u.hex = v.hex) : u = v := by
  have hvalue : u.bits.toNat = v.bits.toNat :=
    fixedDigits_inj (by decide) (by decide) (by simpa using u.bits.isLt)
      (by simpa using v.bits.isLt) h
  rcases u with ⟨u⟩
  rcases v with ⟨v⟩
  exact congrArg Uuid.mk (BitVec.eq_of_toNat_eq hvalue)

theorem filter_dash_of_mem_hex {u : Uuid} {l : List Char}
    (hl : ∀ c ∈ l, c ∈ u.hex) : l.filter (· ≠ '-') = l := by
  rw [List.filter_eq_self]
  intro c hc
  have hhex := isHexChar_of_mem_fixedDigits (by decide) (by decide) (hl c hc)
  simpa using fun h : c = '-' => not_isHexChar_dash (h ▸ hhex)

theorem Uuid.filter_dashed (u : Uuid) : u.dashed.filter (· ≠ '-') = u.hex := by
  have htake : ∀ i, (u.hex.take i).filter (· ≠ '-') = u.hex.take i :=
    fun i => filter_dash_of_mem_hex fun _ hc => List.mem_of_mem_take hc
  have hdrop : ∀ i, (u.hex.drop i).filter (· ≠ '-') = u.hex.drop i :=
    fun i => filter_dash_of_mem_hex fun _ hc => List.mem_of_mem_drop hc
  have hmid : ∀ i, ((u.hex.drop i).take 4).filter (· ≠ '-') =
      (u.hex.drop i).take 4 := fun i =>
    filter_dash_of_mem_hex fun _ hc => List.mem_of_mem_drop (List.mem_of_mem_take hc)
  have hsplit : ∀ i, (u.hex.drop i).take 4 ++ u.hex.drop (i + 4) = u.hex.drop i := by
    intro i
    rw [← List.drop_drop, List.take_append_drop]
  simp only [Uuid.dashed, List.filter_append, List.filter_cons, htake, hdrop,
    hmid, ne_eq, not_true_eq_false, decide_false, Bool.false_eq_true, ↓reduceIte]
  rw [hsplit 16, hsplit 12, hsplit 8, List.take_append_drop]

theorem Uuid.str_injective : Function.Injective Uuid.str := by
  intro u v h
  have hdashed : u.dashed = v.dashed := by
    simpa [Uuid.str] using congrArg String.toList h
  apply Uuid.hex_inj
  rw [← u.filter_dashed, ← v.filter_dashed, hdashed]

/-! ## Timestamps -/

section Numerals

-- a numeral for a part of a timestamp has the same instance in every module

instance neZeroYears : NeZero 10000 := ⟨by decide⟩

instance neZeroMonths : NeZero 13 := ⟨by decide⟩

instance neZeroDays : NeZero 32 := ⟨by decide⟩

instance neZeroHours : NeZero 24 := ⟨by decide⟩

instance neZeroMinutes : NeZero 60 := ⟨by decide⟩

instance neZeroMicroseconds : NeZero 1000000 := ⟨by decide⟩

end Numerals

/-- A fixed offset from UTC. -/
structure UtcOffset where
  neg : Bool
  hours : Fin 24
  minutes : Fin 60
  seconds : Fin 60
  microseconds : Fin 1000000
  deriving DecidableEq, Repr

/-- A `datetime`, naive when `utcoffset` is `none`. -/
structure Datetime where
  year : Fin 10000
  month : Fin 13
  day : Fin 32
  hour : Fin 24
  minute : Fin 60
  second : Fin 60
  microsecond : Fin 1000000
  utcoffset : Option UtcOffset
  deriving DecidableEq, Repr

/-- `timezone.utc` -/
def UtcOffset.utc : UtcOffset := ⟨false, 0, 0, 0, 0⟩

/-- `.ffffff`, left out when zero. -/
def microsText (n : Fin 1000000) : List Char :=
  if n = 0 then [] else '.' :: fixedDigits 10 6 n.val

/-- `:SS[.ffffff]`, left out when zero. -/
def offsetSecondsText (o : UtcOffset) : List Char :=
  if o.seconds = 0 ∧ o.microseconds = 0 then []
  else ':' :: (fixedDigits 10 2 o.seconds.val ++ microsText o.microseconds)

def offsetText : Option UtcOffset → List Char
  | none => []
  | some o =>
      (if o.neg then '-' else '+') :: (fixedDigits 10 2 o.hours.val ++ ':' ::
        (fixedDigits 10 2 o.minutes.val ++ offsetSecondsText o))

def Datetime.isoText (t : Datetime) : List Char :=
  fixedDigits 10 4 t.year.val ++ '-' ::
    (fixedDigits 10 2 t.month.val ++ '-' ::
      (fixedDigits 10 2 t.day.val ++ 'T' ::
        (fixedDigits 10 2 t.hour.val ++ ':' ::
          (fixedDigits 10 2 t.minute.val ++ ':' ::
            (fixedDigits 10 2 t.second.val ++
              (microsText t.microsecond ++ offsetText t.utcoffset))))))

def Datetime.isoformat (t : Datetime) : String := String.ofList t.isoText

theorem decimal_append_inj {w k : ℕ} (hk : k ≤ 10 ^ w) {n m : Fin k}
    {r r' : List Char}
    (h : fixedDigits 10 w n.val ++ r = fixedDigits 10 w m.val ++ r') :
    n = m ∧ r = r' := by
  obtain ⟨hval, hrest⟩ := fixedDigits_append_inj (by decide) (by decide)
    (lt_of_lt_of_le n.isLt hk) (lt_of_lt_of_le m.isLt hk) h
  exact ⟨Fin.ext hval, hrest⟩

/-- A fraction followed by text that does not start with a dot. -/
theorem microsText_append_inj {n m : Fin 1000000} {r r' : List Char}
    (hr : ∀ t, r ≠ '.' :: t) (hr' : ∀ t, r' ≠ '.' :: t)
    (h : microsText n ++ r = microsText m ++ r') : n = m ∧ r = r' := by
  unfold microsText at h
  split at h
  · next hn =>
      split at h
      · next hm => exact ⟨hn.trans hm.symm, h⟩
      · exact absurd h (hr _)
  · split at h
    · exact absurd h.symm (hr' _)
    · exact decimal_append_inj (by decide) (List.cons.inj h).2

theorem offsetSecondsText_inj {o p : UtcOffset}
    (h : offsetSecondsText o = offsetSecondsText p) :
    o.seconds = p.seconds ∧ o.microseconds = p.microseconds := by
  unfold offsetSecondsText at h
  split at h
  · next ho =>
      split at h
      · next hp => exact ⟨ho.1.trans hp.1.symm, ho.2.trans hp.2.symm⟩
      · cases h
  · split at h
    · cases h
    · obtain ⟨hs, hmicros⟩ := decimal_append_inj (by decide) (List.cons.inj h).2
      have hmicros' : microsText o.microseconds ++ [] =
          microsText p.microseconds ++ [] := by simpa using hmicros
      exact ⟨hs, (microsText_append_inj (by simp) (by simp) hmicros').1⟩

theorem offsetText_inj {o p : Option UtcOffset}
    (h : offsetText o = offsetText p) : o = p := by
  rcases o with _ | o <;> rcases p with _ | p
  · rfl
  · cases h
  · cases h
  · obtain ⟨hsign, hrest⟩ := List.cons.inj h
    obtain ⟨hhours, hrest⟩ := decimal_append_inj (by decide) hrest
    obtain ⟨hminutes, hrest⟩ :=
      decimal_append_inj (by decide) (List.cons.inj hrest).2
    obtain ⟨hseconds, hmicros⟩ := offsetSecondsText_inj hrest
    have hneg : o.neg = p.neg := by
      cases ho : o.neg <;> cases hp : p.neg <;> simp_all
    rcases o with ⟨_, _, _, _, _⟩
    rcases p with ⟨_, _, _, _, _⟩
    simp_all

theorem offsetText_ne_dot (o : Option UtcOffset) (t : List Char) :
    offsetText o ≠ '.' :: t := by
  rcases o with _ | o
  · simp [offsetText]
  · cases h : o.neg <;> simp [offsetText, h]

theorem Datetime.isoText_inj {s t : Datetime} (h : s.isoText = t.isoText) :
    s = t := by
  obtain ⟨hyear, h⟩ := decimal_append_inj (by decide) h
  obtain ⟨hmonth, h⟩ := decimal_append_inj (by decide) (List.cons.inj h).2
  obtain ⟨hday, h⟩ := decimal_append_inj (by decide) (List.cons.inj h).2
  obtain ⟨hhour, h⟩ := decimal_append_inj (by decide) (List.cons.inj h).2
  obtain ⟨hminute, h⟩ := decimal_append_inj (by decide) (List.cons.inj h).2
  obtain ⟨hsecond, h⟩ := decimal_append_inj (by decide) (List.cons.inj h).2
  obtain ⟨hmicros, h⟩ :=
    microsText_append_inj (offsetText_ne_dot _) (offsetText_ne_dot _) h
  have hoffset := offsetText_inj h
  rcases s with ⟨_, _, _, _, _, _, _, _⟩
  rcases t with ⟨_, _, _, _, _, _, _, _⟩
  simp_all

theorem Datetime.isoformat_injective : Function.Injective Datetime.isoformat := by
  intro s t h
  apply Datetime.isoText_inj
  simpa [Datetime.isoformat] using congrArg String.toList h

/-! ## Comparing -/

/-- The days of a year before its month `m`. -/
def daysBeforeMonth (leap : Bool) (m : ℕ) : ℕ :=
  [0, 31, 59, 90, 120, 151, 181, 212, 243, 273, 304, 334].getD (m - 1) 0 +
    if leap && 2 < m then 1 else 0

def isLeap (year : ℕ) : Bool := year % 4 == 0 && (year % 100 != 0 || year % 400 == 0)

/-- `date.toordinal()` -/
def Datetime.toordinal (t : Datetime) : ℤ :=
  let y : ℤ := t.year.val - 1
  y * 365 + y / 4 - y / 100 + y / 400 + daysBeforeMonth (isLeap t.year.val) t.month.val +
    t.day.val

def UtcOffset.micros (o : UtcOffset) : ℤ :=
  let size : ℤ := ((o.hours.val * 60 + o.minutes.val) * 60 + o.seconds.val) * 1000000 +
    o.microseconds.val
  if o.neg then -size else size

/-- Microseconds since the start of year 1, in UTC if the time is aware. -/
def Datetime.instant (t : Datetime) : ℤ :=
  (((t.toordinal * 24 + t.hour.val) * 60 + t.minute.val) * 60 + t.second.val) * 1000000 +
    t.microsecond.val - (t.utcoffset.map UtcOffset.micros).getD 0

/-- `s > t`; a naive and an aware time cannot be compared. -/
def Datetime.gt? (s t : Datetime) : Option Bool :=
  if s.utcoffset.isSome = t.utcoffset.isSome then some (t.instant < s.instant) else none

/-! ## Reading the texts back -/

/-- `uuid.UUID(text)` and `datetime.fromisoformat`, with `none` for the
`ValueError`.  They read back what is printed here; which other texts they accept
is left open. -/
structure StampReader where
  uuid : String → Option Uuid
  fromisoformat : String → Option Datetime
  uuid_str : ∀ u : Uuid, uuid u.str = some u
  fromisoformat_isoformat : ∀ t : Datetime, fromisoformat t.isoformat = some t

attribute [simp] StampReader.uuid_str StampReader.fromisoformat_isoformat

/-- The reader that accepts exactly the printed texts. -/
noncomputable def StampReader.exact : StampReader where
  uuid := Function.partialInv Uuid.str
  fromisoformat := Function.partialInv Datetime.isoformat
  uuid_str := Function.partialInv_left Uuid.str_injective
  fromisoformat_isoformat := Function.partialInv_left Datetime.isoformat_injective

end AgenticGovernance.Support

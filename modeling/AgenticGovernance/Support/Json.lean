import Mathlib
import AgenticGovernance.Support.Text

/-!
# JSON values and the compact ASCII encoding

`Json` is the value space of the standard `json` module: objects keep their
entries in insertion order, and a number is either an integer or a float.
`Json.dumps` is `json.dumps(value, separators=(",", ":"))` with the default
`ensure_ascii`, and `Json.sortKeys` is what `sort_keys=True` does before
printing.

The main result is that `Json.dumps` loses nothing: the printed text determines
the value.  It is proved in the self-delimiting form `Json.dumps_append_inj`,
where the text may be followed by anything that ends a value.
-/

namespace AgenticGovernance.Support

/-! ## Values -/

/-- A numeral for a decimal digit has the same instance in every module. -/
instance neZeroDigits : NeZero 10 := ⟨by decide⟩

/-- A float, in one of the shapes in which `float.__repr__` prints it. -/
inductive PyFloat where
  | nan
  | infinity (neg : Bool)
  /-- `-?whole.frac` -/
  | fixed (neg : Bool) (whole frac : List (Fin 10))
  /-- `-?lead(.frac)?e[+-]exp` -/
  | scientific (neg : Bool) (lead : Fin 10) (frac : List (Fin 10))
      (expNeg : Bool) (exp : List (Fin 10))
  deriving DecidableEq, Repr

/-- All digits are zero. -/
def PyFloat.IsZero : PyFloat → Prop
  | .nan => False
  | .infinity _ => False
  | .fixed _ whole frac => (∀ d ∈ whole, d = 0) ∧ ∀ d ∈ frac, d = 0
  | .scientific _ lead frac _ _ => lead = 0 ∧ ∀ d ∈ frac, d = 0

instance : DecidablePred PyFloat.IsZero
  | .nan => inferInstanceAs (Decidable False)
  | .infinity _ => inferInstanceAs (Decidable False)
  | .fixed _ whole frac =>
      inferInstanceAs (Decidable ((∀ d ∈ whole, d = 0) ∧ ∀ d ∈ frac, d = 0))
  | .scientific _ lead frac _ _ =>
      inferInstanceAs (Decidable (lead = 0 ∧ ∀ d ∈ frac, d = 0))

inductive Json where
  | null
  | bool (b : Bool)
  | int (n : ℤ)
  | float (x : PyFloat)
  | str (s : String)
  | arr (items : List Json)
  | obj (fields : List (String × Json))
  deriving Repr

/-- `value.get(key)` on an object. -/
def Json.get? (v : Json) (key : String) : Option Json :=
  match v with
  | .obj fields => fields.lookup key
  | _ => none

mutual

/-- The value with the entries of every object sorted by key. -/
def Json.sortKeys : Json → Json
  | .null => .null
  | .bool b => .bool b
  | .int n => .int n
  | .float x => .float x
  | .str s => .str s
  | .arr items => .arr (Json.sortItems items)
  | .obj fields =>
      .obj ((Json.sortFields fields).insertionSort fun f g => f.1 ≤ g.1)

def Json.sortItems : List Json → List Json
  | [] => []
  | v :: items => v.sortKeys :: Json.sortItems items

def Json.sortFields : List (String × Json) → List (String × Json)
  | [] => []
  | (k, v) :: fields => (k, v.sortKeys) :: Json.sortFields fields

end

/-! ## Printing -/

def signText (neg : Bool) : List Char :=
  if neg then ['-'] else []

def decimalText (ds : List (Fin 10)) : List Char :=
  ds.map fun d => Nat.digitChar d.val

/-- The optional fraction of a float in scientific notation. -/
def fractionText (frac : List (Fin 10)) : List Char :=
  if frac.isEmpty then [] else '.' :: decimalText frac

def PyFloat.repr : PyFloat → List Char
  | .nan => ['N', 'a', 'N']
  | .infinity neg => signText neg ++ ['I', 'n', 'f', 'i', 'n', 'i', 't', 'y']
  | .fixed neg whole frac =>
      signText neg ++ (decimalText whole ++ '.' :: decimalText frac)
  | .scientific neg lead frac expNeg exp =>
      signText neg ++ (decimalText [lead] ++ (fractionText frac ++
        'e' :: (if expNeg then '-' else '+') :: decimalText exp))

/-- `\uXXXX` for one UTF-16 code unit. -/
def escapeUnit (n : ℕ) : List Char :=
  '\\' :: 'u' :: fixedDigits 16 4 n

/-- High and low surrogate of a character outside the BMP. -/
def highSurrogate (c : Char) : ℕ := 55296 + (c.toNat - 65536) / 1024

def lowSurrogate (c : Char) : ℕ := 56320 + (c.toNat - 65536) % 1024

/-- One character of a string under `ensure_ascii`. -/
def escapeChar (c : Char) : List Char :=
  if c = '"' then ['\\', '"']
  else if c = '\\' then ['\\', '\\']
  else if c = '\n' then ['\\', 'n']
  else if c = '\r' then ['\\', 'r']
  else if c = '\t' then ['\\', 't']
  else if c.toNat = 12 then ['\\', 'f']
  else if c.toNat = 8 then ['\\', 'b']
  else if 32 ≤ c.toNat ∧ c.toNat ≤ 126 then [c]
  else if c.toNat < 65536 then escapeUnit c.toNat
  -- Outside the BMP the encoder emits a surrogate pair.
  else escapeUnit (highSurrogate c) ++ escapeUnit (lowSurrogate c)

def stringText (s : List Char) : List Char :=
  '"' :: (s.flatMap escapeChar ++ ['"'])

mutual

def Json.dumps : Json → List Char
  | .null => ['n', 'u', 'l', 'l']
  | .bool true => ['t', 'r', 'u', 'e']
  | .bool false => ['f', 'a', 'l', 's', 'e']
  | .int n => n.repr.toList
  | .float x => x.repr
  | .str s => stringText s.toList
  | .arr [] => ['[', ']']
  | .arr (v :: items) => '[' :: (v.dumps ++ Json.dumpsItems items)
  | .obj [] => ['{', '}']
  | .obj ((k, v) :: fields) =>
      '{' :: (stringText k.toList ++ ':' :: (v.dumps ++ Json.dumpsFields fields))

/-- The remaining items of an array, with separators and the closing bracket. -/
def Json.dumpsItems : List Json → List Char
  | [] => [']']
  | v :: items => ',' :: (v.dumps ++ Json.dumpsItems items)

/-- The remaining entries of an object, with separators and the closing brace. -/
def Json.dumpsFields : List (String × Json) → List Char
  | [] => ['}']
  | (k, v) :: fields =>
      ',' :: (stringText k.toList ++ ':' :: (v.dumps ++ Json.dumpsFields fields))

end

/-! ## Numbers read back -/

/-- A decimal digit as printed by `decimalText`. -/
def IsDecimal (c : Char) : Prop := ∃ d : Fin 10, c = Nat.digitChar d.val

theorem isDecimal_of_mem_decimalText {ds : List (Fin 10)} {c : Char}
    (hc : c ∈ decimalText ds) : IsDecimal c := by
  obtain ⟨d, -, rfl⟩ := List.mem_map.mp hc
  exact ⟨d, rfl⟩

theorem decimalText_inj {ds es : List (Fin 10)}
    (h : decimalText ds = decimalText es) : ds = es := by
  have hinj : Function.Injective fun d : Fin 10 => Nat.digitChar d.val := by
    decide
  exact hinj.list_map h

theorem IsDecimal.ne {c d : Char} (hc : IsDecimal c)
    (hd : ∀ i : Fin 10, Nat.digitChar i.val ≠ d) : c ≠ d := by
  obtain ⟨i, rfl⟩ := hc
  exact hd i

theorem not_isDecimal_of {d : Char}
    (hd : ∀ i : Fin 10, Nat.digitChar i.val ≠ d) : ¬IsDecimal d :=
  fun h => h.ne hd rfl

theorem signText_append_inj {neg neg' : Bool} {r r' : List Char}
    (hr : EndsRun (· = '-') r) (hr' : EndsRun (· = '-') r')
    (h : signText neg ++ r = signText neg' ++ r') :
    neg = neg' ∧ r = r' := by
  have hsign : ∀ n, ∀ c ∈ signText n, c = '-' := by
    intro n c hc
    cases n <;> simp_all [signText]
  obtain ⟨hneg, hrest⟩ := run_append_inj (hsign neg) (hsign neg') hr hr' h
  refine ⟨?_, hrest⟩
  cases neg <;> cases neg' <;> simp_all [signText]

theorem endsRun_dash_decimalText (ds : List (Fin 10)) {r : List Char}
    (hr : EndsRun (· = '-') r) : EndsRun (· = '-') (decimalText ds ++ r) := by
  cases ds with
  | nil => exact hr
  | cons d ds =>
      exact endsRun_cons (IsDecimal.ne ⟨d, rfl⟩ (by decide))

/-- Digits up to a non-digit are determined by the text. -/
theorem decimalText_append_inj {ds es : List (Fin 10)} {r r' : List Char}
    (hr : EndsRun IsDecimal r) (hr' : EndsRun IsDecimal r')
    (h : decimalText ds ++ r = decimalText es ++ r') :
    ds = es ∧ r = r' := by
  obtain ⟨hds, hrest⟩ := run_append_inj
    (fun _ => isDecimal_of_mem_decimalText)
    (fun _ => isDecimal_of_mem_decimalText) hr hr' h
  exact ⟨decimalText_inj hds, hrest⟩

theorem fractionText_append_inj {ds es : List (Fin 10)} {r r' : List Char}
    (h : fractionText ds ++ 'e' :: r = fractionText es ++ 'e' :: r') :
    ds = es ∧ r = r' := by
  have hend : ∀ t, EndsRun IsDecimal ('e' :: t) :=
    fun t => endsRun_cons (not_isDecimal_of (by decide))
  cases ds with
  | nil =>
      cases es with
      | nil => simpa [fractionText] using h
      | cons e es => simp [fractionText] at h
  | cons d ds =>
      cases es with
      | nil => simp [fractionText] at h
      | cons e es =>
          simp only [fractionText, List.isEmpty_cons, Bool.false_eq_true,
            ↓reduceIte, List.cons_append, List.cons.injEq, true_and] at h
          obtain ⟨hds, hrest⟩ := decimalText_append_inj (hend r) (hend r') h
          exact ⟨hds, (List.cons.inj hrest).2⟩

/-- Characters that occur in a printed float. -/
def IsFloatChar (c : Char) : Prop :=
  IsDecimal c ∨ c ∈ ['-', '+', '.', 'e', 'N', 'a', 'I', 'n', 'f', 'i', 't', 'y']

theorem isFloatChar_of_mem_repr {x : PyFloat} {c : Char} (hc : c ∈ x.repr) :
    IsFloatChar c := by
  have hsign : ∀ {n : Bool}, c ∈ signText n → c = '-' := by
    intro n hn
    cases n <;> simp_all [signText]
  cases x with
  | nan =>
      refine Or.inr ?_
      simp only [PyFloat.repr, List.mem_cons, List.not_mem_nil, or_false] at hc
      rcases hc with rfl | rfl | rfl <;> simp
  | infinity neg =>
      rcases List.mem_append.mp hc with h | h
      · simp [IsFloatChar, hsign h]
      · refine Or.inr ?_
        simp only [List.mem_cons, List.not_mem_nil, or_false] at h
        rcases h with rfl | rfl | rfl | rfl | rfl | rfl | rfl | rfl <;> simp
  | fixed neg whole frac =>
      simp only [PyFloat.repr, List.mem_append, List.mem_cons] at hc
      rcases hc with h | h | rfl | h
      · simp [IsFloatChar, hsign h]
      · exact Or.inl (isDecimal_of_mem_decimalText h)
      · simp [IsFloatChar]
      · exact Or.inl (isDecimal_of_mem_decimalText h)
  | scientific neg lead frac expNeg exp =>
      simp only [PyFloat.repr, List.mem_append, List.mem_cons] at hc
      rcases hc with h | h | h | rfl | h | h
      · simp [IsFloatChar, hsign h]
      · exact Or.inl (isDecimal_of_mem_decimalText h)
      · unfold fractionText at h
        split at h
        · cases h
        · rcases List.mem_cons.mp h with rfl | h
          · simp [IsFloatChar]
          · exact Or.inl (isDecimal_of_mem_decimalText h)
      · simp [IsFloatChar]
      · subst h
        cases expNeg <;> simp [IsFloatChar]
      · exact Or.inl (isDecimal_of_mem_decimalText h)

/-- The mark that tells the four shapes of a printed float apart. -/
def PyFloat.mark : PyFloat → Char
  | .nan => 'N'
  | .infinity _ => 'y'
  | .fixed .. => '.'
  | .scientific .. => 'e'

theorem PyFloat.mark_mem_repr (x : PyFloat) : x.mark ∈ x.repr := by
  cases x with
  | nan => simp [PyFloat.mark, PyFloat.repr]
  | infinity neg => simp [PyFloat.mark, PyFloat.repr]
  | fixed neg whole frac => simp [PyFloat.mark, PyFloat.repr]
  | scientific neg lead frac expNeg exp => simp [PyFloat.mark, PyFloat.repr]

/-- The mark read off a printed float. -/
def markOf (t : List Char) : Char :=
  if 'N' ∈ t then 'N' else if 'y' ∈ t then 'y' else if 'e' ∈ t then 'e' else '.'

theorem not_mem_decimalText {ds : List (Fin 10)} {c : Char}
    (hc : ∀ i : Fin 10, Nat.digitChar i.val ≠ c) : c ∉ decimalText ds :=
  fun h => not_isDecimal_of hc (isDecimal_of_mem_decimalText h)

theorem not_mem_signText {neg : Bool} {c : Char} (hc : c ≠ '-') :
    c ∉ signText neg := by
  cases neg <;> simp [signText, hc]

theorem not_mem_fractionText {ds : List (Fin 10)} {c : Char} (hdot : c ≠ '.')
    (hc : ∀ i : Fin 10, Nat.digitChar i.val ≠ c) : c ∉ fractionText ds := by
  unfold fractionText
  split
  · simp
  · simp [hdot, not_mem_decimalText hc]

theorem markOf_repr (x : PyFloat) : markOf x.repr = x.mark := by
  have hN : ∀ ds, 'N' ∉ decimalText ds := fun _ => not_mem_decimalText (by decide)
  have hy : ∀ ds, 'y' ∉ decimalText ds := fun _ => not_mem_decimalText (by decide)
  have he : ∀ ds, 'e' ∉ decimalText ds := fun _ => not_mem_decimalText (by decide)
  cases x with
  | nan => simp [markOf, PyFloat.repr, PyFloat.mark]
  | infinity neg =>
      have hneg : 'N' ∉ signText neg := not_mem_signText (by decide)
      simp [markOf, PyFloat.repr, PyFloat.mark, hneg]
  | fixed neg whole frac =>
      have hsign : ∀ c, c ≠ '-' → c ∉ signText neg := fun _ => not_mem_signText
      simp [markOf, PyFloat.repr, PyFloat.mark, hsign, hN, hy, he]
  | scientific neg lead frac expNeg exp =>
      have hsign : ∀ c, c ≠ '-' → c ∉ signText neg := fun _ => not_mem_signText
      have hNf : 'N' ∉ fractionText frac :=
        not_mem_fractionText (by decide) (by decide)
      have hyf : 'y' ∉ fractionText frac :=
        not_mem_fractionText (by decide) (by decide)
      cases expNeg <;>
        simp [markOf, PyFloat.repr, PyFloat.mark, hsign, hN, hy, hNf, hyf]

theorem PyFloat.repr_inj {x y : PyFloat} (h : x.repr = y.repr) : x = y := by
  have hmark : x.mark = y.mark := by
    rw [← markOf_repr, ← markOf_repr, h]
  cases x with
  | nan => cases y <;> first | rfl | simp [PyFloat.mark] at hmark
  | infinity neg =>
      cases y with
      | infinity neg' =>
          have hend : EndsRun (· = '-') ['I', 'n', 'f', 'i', 'n', 'i', 't', 'y'] :=
            endsRun_cons (by decide)
          rw [(signText_append_inj hend hend h).1]
      | _ => simp [PyFloat.mark] at hmark
  | fixed neg whole frac =>
      cases y with
      | fixed neg' whole' frac' =>
          have hdash : ∀ t, EndsRun (· = '-') ('.' :: t) :=
            fun t => endsRun_cons (by decide)
          have hdot : ∀ t, EndsRun IsDecimal ('.' :: t) :=
            fun t => endsRun_cons (not_isDecimal_of (by decide))
          obtain ⟨rfl, hrest⟩ := signText_append_inj
            (endsRun_dash_decimalText whole (hdash _))
            (endsRun_dash_decimalText whole' (hdash _)) h
          obtain ⟨rfl, hfrac⟩ := decimalText_append_inj (hdot _) (hdot _) hrest
          rw [decimalText_inj (List.cons.inj hfrac).2]
      | _ => simp [PyFloat.mark] at hmark
  | scientific neg lead frac expNeg exp =>
      cases y with
      | scientific neg' lead' frac' expNeg' exp' =>
          have hlead : ∀ (d : Fin 10) t,
              EndsRun (· = '-') (decimalText [d] ++ t) := fun d t =>
            endsRun_cons (IsDecimal.ne ⟨d, rfl⟩ (by decide))
          have hfrac : ∀ ds t,
              EndsRun IsDecimal (fractionText ds ++ 'e' :: t) := by
            intro ds t
            cases ds with
            | nil => exact endsRun_cons (not_isDecimal_of (by decide))
            | cons d ds => exact endsRun_cons (not_isDecimal_of (by decide))
          obtain ⟨rfl, hunsigned⟩ :=
            signText_append_inj (hlead lead _) (hlead lead' _) h
          obtain ⟨hl, htail⟩ :=
            decimalText_append_inj (hfrac _ _) (hfrac _ _) hunsigned
          obtain ⟨rfl, hexponent⟩ := fractionText_append_inj htail
          obtain ⟨hsign, hexp⟩ := List.cons.inj hexponent
          have hexpNeg : expNeg = expNeg' := by
            cases expNeg <;> cases expNeg' <;> simp_all
          rw [(List.cons.inj hl).1, hexpNeg, decimalText_inj hexp]
      | _ => simp [PyFloat.mark] at hmark

theorem isInt_char_of_mem_repr {n : ℤ} {c : Char} (hc : c ∈ n.repr.toList) :
    c = '-' ∨ c.isDigit = true := by
  have hnat : ∀ m : ℕ, c ∈ m.repr.toList → c.isDigit = true := by
    intro m hm
    rw [Nat.repr_eq_ofList_toDigits, String.toList_ofList] at hm
    exact Nat.isDigit_of_mem_toDigits (by decide) (by decide) hm
  cases n with
  | ofNat m => exact Or.inr (hnat m hc)
  | negSucc m =>
      rw [show (Int.negSucc m).repr = "-" ++ m.succ.repr from rfl,
        String.toList_append, List.mem_append] at hc
      rcases hc with h | h
      · exact Or.inl (by simpa using h)
      · exact Or.inr (hnat _ h)

/-! ## Strings read back -/

theorem escapeUnit_append_inj {n m : ℕ} {r r' : List Char}
    (hn : n < 65536) (hm : m < 65536)
    (h : escapeUnit n ++ r = escapeUnit m ++ r') : n = m ∧ r = r' := by
  simp only [escapeUnit, List.cons_append, List.cons.injEq, true_and] at h
  obtain ⟨hdigits, hrest⟩ := List.append_inj h (by simp)
  exact ⟨fixedDigits_inj (b := 16) (w := 4) (by decide) (by decide)
    (by simpa using hn) (by simpa using hm) hdigits, hrest⟩

/-- The character a two-character escape stands for. -/
def shortEscape (x : Char) : Char :=
  if x = 'n' then '\n'
  else if x = 'r' then '\r'
  else if x = 't' then '\t'
  else if x = 'f' then Char.ofNat 12
  else if x = 'b' then Char.ofNat 8
  else x

/-- The four forms an escaped character takes. -/
theorem escapeChar_cases (c : Char) :
    (escapeChar c = [c] ∧ c ≠ '\\' ∧ c ≠ '"') ∨
    (∃ x, escapeChar c = ['\\', x] ∧ x ≠ 'u' ∧ shortEscape x = c) ∨
    (escapeChar c = escapeUnit c.toNat ∧ c.toNat < 65536) ∨
    (escapeChar c = escapeUnit (highSurrogate c) ++ escapeUnit (lowSurrogate c) ∧
      65536 ≤ c.toNat) := by
  unfold escapeChar
  split
  · next h => exact Or.inr (Or.inl ⟨_, rfl, by decide, by rw [h]; decide⟩)
  split
  · next h => exact Or.inr (Or.inl ⟨_, rfl, by decide, by rw [h]; decide⟩)
  split
  · next h => exact Or.inr (Or.inl ⟨_, rfl, by decide, by rw [h]; decide⟩)
  split
  · next h => exact Or.inr (Or.inl ⟨_, rfl, by decide, by rw [h]; decide⟩)
  split
  · next h => exact Or.inr (Or.inl ⟨_, rfl, by decide, by rw [h]; decide⟩)
  split
  · next h =>
      refine Or.inr (Or.inl ⟨_, rfl, by decide, ?_⟩)
      rw [← Char.ofNat_toNat c, h]
      decide
  split
  · next h =>
      refine Or.inr (Or.inl ⟨_, rfl, by decide, ?_⟩)
      rw [← Char.ofNat_toNat c, h]
      decide
  split
  · next hquote hslash _ _ _ _ _ _ => exact Or.inl ⟨rfl, hslash, hquote⟩
  split
  · next h => exact Or.inr (Or.inr (Or.inl ⟨rfl, h⟩))
  · next h => exact Or.inr (Or.inr (Or.inr ⟨rfl, not_lt.mp h⟩))

theorem toNat_not_surrogate (c : Char) :
    c.toNat < 55296 ∨ (57343 < c.toNat ∧ c.toNat < 1114112) := c.valid

theorem highSurrogate_range {c : Char} (hc : 65536 ≤ c.toNat) :
    55296 ≤ highSurrogate c ∧ highSurrogate c < 56320 := by
  have hvalid := toNat_not_surrogate c
  unfold highSurrogate
  omega

theorem lowSurrogate_lt (c : Char) : lowSurrogate c < 65536 := by
  unfold lowSurrogate
  omega

theorem toNat_eq_of_surrogates {c d : Char}
    (hc : 65536 ≤ c.toNat) (hd : 65536 ≤ d.toNat)
    (hhigh : highSurrogate c = highSurrogate d)
    (hlow : lowSurrogate c = lowSurrogate d) : c = d := by
  unfold highSurrogate lowSurrogate at *
  exact Char.toNat_inj.mp (by omega)

/-- Escapes form a prefix code. -/
theorem escapeChar_append_inj {c d : Char} {r r' : List Char}
    (h : escapeChar c ++ r = escapeChar d ++ r') : c = d ∧ r = r' := by
  rcases escapeChar_cases c with
      ⟨hc, hslash, -⟩ | ⟨x, hc, hx, hxc⟩ | ⟨hc, hbmp⟩ | ⟨hc, hastral⟩ <;>
    rcases escapeChar_cases d with
      ⟨hd, hslash', -⟩ | ⟨y, hd, hy, hyd⟩ | ⟨hd, hbmp'⟩ | ⟨hd, hastral'⟩ <;>
    rw [hc, hd] at h
  · simpa using h
  · exact absurd (List.cons.inj h).1 hslash
  · exact absurd (List.cons.inj h).1 hslash
  · exact absurd (List.cons.inj h).1 hslash
  · exact absurd (List.cons.inj h).1.symm hslash'
  · simp only [List.cons_append, List.nil_append, List.cons.injEq, true_and] at h
    obtain ⟨rfl, hrest⟩ := h
    exact ⟨hxc.symm.trans hyd, hrest⟩
  · exact absurd (List.cons.inj (List.cons.inj h).2).1 hx
  · exact absurd (List.cons.inj (List.cons.inj h).2).1 hx
  · exact absurd (List.cons.inj h).1.symm hslash'
  · exact absurd (List.cons.inj (List.cons.inj h).2).1.symm hy
  · obtain ⟨hcd, hrest⟩ := escapeUnit_append_inj hbmp hbmp' h
    exact ⟨Char.toNat_inj.mp hcd, hrest⟩
  -- A BMP character is never a surrogate, so it is not the start of a pair.
  · have hrange := highSurrogate_range hastral'
    have hvalid := toNat_not_surrogate c
    rw [List.append_assoc] at h
    have := (escapeUnit_append_inj hbmp (by omega) h).1
    omega
  · exact absurd (List.cons.inj h).1.symm hslash'
  · exact absurd (List.cons.inj (List.cons.inj h).2).1.symm hy
  · have hrange := highSurrogate_range hastral
    have hvalid := toNat_not_surrogate d
    rw [List.append_assoc] at h
    have := (escapeUnit_append_inj (by omega) hbmp' h).1
    omega
  · have hrange := highSurrogate_range hastral
    have hrange' := highSurrogate_range hastral'
    rw [List.append_assoc, List.append_assoc] at h
    obtain ⟨hhigh, htail⟩ := escapeUnit_append_inj (by omega) (by omega) h
    obtain ⟨hlow, hrest⟩ :=
      escapeUnit_append_inj (lowSurrogate_lt c) (lowSurrogate_lt d) htail
    exact ⟨toNat_eq_of_surrogates hastral hastral' hhigh hlow, hrest⟩

theorem escapeChar_head_ne_quote (c : Char) (r t : List Char) :
    escapeChar c ++ r ≠ '"' :: t := by
  intro h
  rcases escapeChar_cases c with
      ⟨hc, -, hquote⟩ | ⟨x, hc, -, -⟩ | ⟨hc, -⟩ | ⟨hc, -⟩ <;>
    rw [hc] at h <;> simp_all [escapeUnit]

theorem stringText_append_inj {s t : List Char} {r r' : List Char}
    (h : stringText s ++ r = stringText t ++ r') : s = t ∧ r = r' := by
  simp only [stringText, List.cons_append, List.append_assoc, List.cons.injEq,
    true_and, List.nil_append] at h
  induction s generalizing t with
  | nil =>
      cases t with
      | nil => simpa using h
      | cons d t =>
          rw [List.flatMap_cons, List.append_assoc] at h
          exact absurd h.symm (escapeChar_head_ne_quote d _ _)
  | cons c s ih =>
      cases t with
      | nil =>
          rw [List.flatMap_cons, List.append_assoc] at h
          exact absurd h (escapeChar_head_ne_quote c _ _)
      | cons d t =>
          rw [List.flatMap_cons, List.flatMap_cons, List.append_assoc,
            List.append_assoc] at h
          obtain ⟨rfl, htail⟩ := escapeChar_append_inj h
          obtain ⟨rfl, hrest⟩ := ih htail
          exact ⟨rfl, hrest⟩

/-! ## Values read back -/

/-- Text that may follow a value: nothing, a separator or a closing bracket. -/
def ValueEnd (r : List Char) : Prop :=
  EndsRun (fun c => c ∉ [',', ']', '}']) r

theorem valueEnd_cons {c : Char} (r : List Char) (hc : c ∈ [',', ']', '}']) :
    ValueEnd (c :: r) :=
  endsRun_cons (not_not_intro hc)

def Json.isScalar : Json → Bool
  | .null | .bool _ | .int _ | .float _ => true
  | .str _ | .arr _ | .obj _ => false

/-- Characters of a number or a keyword. -/
def IsScalarChar (c : Char) : Prop :=
  c ∉ [',', ']', '}'] ∧ c ∉ ['"', '[', '{']

theorem isScalarChar_of_isFloatChar {c : Char} (hc : IsFloatChar c) :
    IsScalarChar c := by
  rcases hc with ⟨d, rfl⟩ | hc
  · have hall : ∀ i : Fin 10, Nat.digitChar i.val ∉ [',', ']', '}'] ∧
        Nat.digitChar i.val ∉ ['"', '[', '{'] := by decide
    exact hall d
  · simp only [List.mem_cons, List.not_mem_nil, or_false] at hc
    rcases hc with rfl | rfl | rfl | rfl | rfl | rfl | rfl | rfl | rfl | rfl | rfl | rfl <;>
      simp [IsScalarChar]

theorem isScalarChar_of_isDigit {c : Char} (hc : c.isDigit = true) :
    IsScalarChar c := by
  constructor
  · intro hmem
    simp only [List.mem_cons, List.not_mem_nil, or_false] at hmem
    rcases hmem with rfl | rfl | rfl <;> exact absurd hc (by decide)
  · intro hmem
    simp only [List.mem_cons, List.not_mem_nil, or_false] at hmem
    rcases hmem with rfl | rfl | rfl <;> exact absurd hc (by decide)

theorem Json.scalar_chars {v : Json} (hv : v.isScalar = true) {c : Char}
    (hc : c ∈ v.dumps) : IsScalarChar c := by
  cases v with
  | null =>
      simp only [Json.dumps, List.mem_cons, List.not_mem_nil, or_false] at hc
      rcases hc with rfl | rfl | rfl | rfl <;> simp [IsScalarChar]
  | bool b =>
      cases b <;>
        simp only [Json.dumps, List.mem_cons, List.not_mem_nil, or_false] at hc
      · rcases hc with rfl | rfl | rfl | rfl | rfl <;> simp [IsScalarChar]
      · rcases hc with rfl | rfl | rfl | rfl <;> simp [IsScalarChar]
  | int n =>
      rcases isInt_char_of_mem_repr hc with rfl | hdigit
      · simp [IsScalarChar]
      · exact isScalarChar_of_isDigit hdigit
  | float x => exact isScalarChar_of_isFloatChar (isFloatChar_of_mem_repr hc)
  | str s => cases hv
  | arr items => cases hv
  | obj fields => cases hv

/-- What kind of scalar a text spells: `null`, `true`, `false`, an integer or a
float, in this order. -/
def scalarKind (t : List Char) : ℕ :=
  if 'u' ∈ t then (if 'n' ∈ t then 0 else 1)
  else if 's' ∈ t then 2
  else if ∀ c ∈ t, c = '-' ∨ c.isDigit = true then 3
  else 4

def Json.kind : Json → ℕ
  | .null => 0
  | .bool true => 1
  | .bool false => 2
  | .int _ => 3
  | _ => 4

theorem not_isFloatChar_of {d : Char}
    (hd : ∀ i : Fin 10, Nat.digitChar i.val ≠ d)
    (hlist : d ∉ ['-', '+', '.', 'e', 'N', 'a', 'I', 'n', 'f', 'i', 't', 'y']) :
    ¬IsFloatChar d :=
  fun h => h.elim (not_isDecimal_of hd) hlist

theorem scalarKind_dumps {v : Json} (hv : v.isScalar = true) :
    scalarKind v.dumps = v.kind := by
  cases v with
  | null => simp [scalarKind, Json.dumps, Json.kind]
  | bool b => cases b <;> simp [scalarKind, Json.dumps, Json.kind]
  | int n =>
      have hletter : ∀ c, c ≠ '-' → c.isDigit = false → c ∉ n.repr.toList := by
        intro c hdash hdigit hc
        rcases isInt_char_of_mem_repr hc with h | h
        · exact hdash h
        · simp [hdigit] at h
      have hu := hletter 'u' (by decide) (by decide)
      have hs := hletter 's' (by decide) (by decide)
      have hall : ∀ c ∈ n.repr.toList, c = '-' ∨ c.isDigit = true :=
        fun _ => isInt_char_of_mem_repr
      simp only [scalarKind, Json.dumps, Json.kind, hu, hs, ↓reduceIte]
      exact if_pos hall
  | float x =>
      have hu : 'u' ∉ x.repr := fun h =>
        not_isFloatChar_of (by decide) (by decide) (isFloatChar_of_mem_repr h)
      have hs : 's' ∉ x.repr := fun h =>
        not_isFloatChar_of (by decide) (by decide) (isFloatChar_of_mem_repr h)
      have hmark : ¬∀ c ∈ x.repr, c = '-' ∨ c.isDigit = true := by
        intro hall
        rcases hall x.mark x.mark_mem_repr with h | h <;>
          cases x <;> simp_all [PyFloat.mark]
      simp only [scalarKind, Json.dumps, Json.kind, hu, hs, ↓reduceIte]
      exact if_neg hmark
  | str s => cases hv
  | arr items => cases hv
  | obj fields => cases hv

/-- The text of a number or keyword determines the value. -/
theorem Json.scalar_inj {v w : Json} (hv : v.isScalar = true)
    (hw : w.isScalar = true) (h : v.dumps = w.dumps) : v = w := by
  have hkind : v.kind = w.kind := by
    rw [← scalarKind_dumps hv, ← scalarKind_dumps hw, h]
  cases v with
  | null => cases w with
    | null => rfl
    | bool b => cases b <;> simp [Json.kind] at hkind
    | _ => simp [Json.kind] at hkind
  | bool b => cases w with
    | bool b' => cases b <;> cases b' <;> simp_all [Json.kind]
    | _ => cases b <;> simp [Json.kind] at hkind
  | int n => cases w with
    | int m => exact congrArg Json.int (Int.repr_injective (String.toList_inj.mp h))
    | bool b => cases b <;> simp [Json.kind] at hkind
    | _ => simp [Json.kind] at hkind
  | float x => cases w with
    | float y => exact congrArg Json.float (PyFloat.repr_inj h)
    | bool b => cases b <;> simp [Json.kind] at hkind
    | str s => cases hw
    | arr items => cases hw
    | obj fields => cases hw
    | _ => simp [Json.kind] at hkind
  | str s => cases hv
  | arr items => cases hv
  | obj fields => cases hv

theorem Json.scalar_head_ne {v : Json} (hv : v.isScalar = true)
    {r t : List Char} (hr : ValueEnd r) {c : Char} (hc : c ∈ ['"', '[', '{']) :
    v.dumps ++ r ≠ c :: t := by
  intro h
  cases hd : v.dumps with
  | nil =>
      rw [hd, List.nil_append] at h
      have := hr c (by rw [h]; rfl)
      fin_cases hc <;> simp at this
  | cons d s =>
      rw [hd, List.cons_append] at h
      have hscalar := Json.scalar_chars hv (c := d) (by rw [hd]; simp)
      exact hscalar.2 ((List.cons.inj h).1 ▸ hc)

theorem Json.isScalar_of_append {v w : Json} {r r' : List Char}
    (hv : v.isScalar = true) (hr : ValueEnd r)
    (h : v.dumps ++ r = w.dumps ++ r') : w.isScalar = true := by
  cases w with
  | null => rfl
  | bool b => rfl
  | int n => rfl
  | float x => rfl
  | str s => exact absurd h (Json.scalar_head_ne hv hr (by simp))
  | arr items =>
      cases items <;> exact absurd h (Json.scalar_head_ne hv hr (by simp))
  | obj fields =>
      cases fields <;> exact absurd h (Json.scalar_head_ne hv hr (by simp))

theorem Json.scalar_append_inj {v w : Json} {r r' : List Char}
    (hv : v.isScalar = true) (hr : ValueEnd r) (hr' : ValueEnd r')
    (h : v.dumps ++ r = w.dumps ++ r') : v = w ∧ r = r' := by
  have hw := Json.isScalar_of_append hv hr h
  obtain ⟨htext, hrest⟩ := run_append_inj
    (fun _ hc => (Json.scalar_chars hv hc).1)
    (fun _ hc => (Json.scalar_chars hw hc).1) hr hr' h
  exact ⟨Json.scalar_inj hv hw htext, hrest⟩

/-- A printed value is non-empty and does not start like the end of a value. -/
theorem Json.dumps_head (v : Json) :
    ∃ c t, v.dumps = c :: t ∧ c ∉ [',', ']', '}'] := by
  have hscalar : v.isScalar = true → v.dumps ≠ [] →
      ∃ c t, v.dumps = c :: t ∧ c ∉ [',', ']', '}'] := by
    intro hv hne
    obtain ⟨c, t, hct⟩ := List.exists_cons_of_ne_nil hne
    exact ⟨c, t, hct, (Json.scalar_chars hv (by rw [hct]; simp)).1⟩
  cases v with
  | null => exact hscalar rfl (by simp [Json.dumps])
  | bool b => cases b <;> exact hscalar rfl (by simp [Json.dumps])
  | int n =>
      refine hscalar rfl ?_
      rw [Json.dumps, ne_eq, String.toList_eq_nil_iff]
      cases n <;> simp [Int.repr]
  | float x => exact hscalar rfl (List.ne_nil_of_mem x.mark_mem_repr)
  | str s => exact ⟨_, _, by rw [Json.dumps, stringText], by simp⟩
  | arr items => cases items <;> exact ⟨_, _, by rw [Json.dumps], by simp⟩
  | obj fields => cases fields <;> exact ⟨_, _, by rw [Json.dumps], by simp⟩

theorem Json.dumps_append_ne_close (v : Json) {r t : List Char} {c : Char}
    (hc : c ∈ [',', ']', '}']) : v.dumps ++ r ≠ c :: t := by
  intro h
  obtain ⟨d, s, hds, hd⟩ := v.dumps_head
  rw [hds, List.cons_append] at h
  exact hd ((List.cons.inj h).1 ▸ hc)

theorem Json.valueEnd_dumpsItems (items : List Json) (r : List Char) :
    ValueEnd (Json.dumpsItems items ++ r) := by
  cases items <;> exact valueEnd_cons _ (by simp)

theorem Json.valueEnd_dumpsFields (fields : List (String × Json))
    (r : List Char) : ValueEnd (Json.dumpsFields fields ++ r) := by
  rcases fields with _ | ⟨⟨k, v⟩, fields⟩ <;> exact valueEnd_cons _ (by simp)

mutual

/-- Printing is self-delimiting: a value followed by text that ends a value is
read back in only one way. -/
theorem Json.dumps_append_inj : ∀ (v w : Json) {r r' : List Char},
    ValueEnd r → ValueEnd r' → v.dumps ++ r = w.dumps ++ r' → v = w ∧ r = r'
  | .null, _, _, _, hr, hr', h => Json.scalar_append_inj rfl hr hr' h
  | .bool _, _, _, _, hr, hr', h => Json.scalar_append_inj rfl hr hr' h
  | .int _, _, _, _, hr, hr', h => Json.scalar_append_inj rfl hr hr' h
  | .float _, _, _, _, hr, hr', h => Json.scalar_append_inj rfl hr hr' h
  | .str s, w, r, r', hr, hr', h => by
      cases w with
      | str t =>
          obtain ⟨hst, hrest⟩ := stringText_append_inj h
          exact ⟨congrArg Json.str (String.toList_inj.mp hst), hrest⟩
      | arr items => cases items <;> simp [Json.dumps, stringText] at h
      | obj fields => rcases fields with _ | ⟨⟨k, v⟩, fields⟩ <;>
          simp [Json.dumps, stringText] at h
      | _ =>
          exact absurd h.symm (Json.scalar_head_ne rfl hr' (by simp))
  | .arr [], w, r, r', hr, hr', h => by
      cases w with
      | arr items =>
          cases items with
          | nil => simpa [Json.dumps] using h
          | cons w items =>
              simp only [Json.dumps, List.cons_append, List.append_assoc,
                List.cons.injEq, true_and] at h
              exact absurd h.symm (Json.dumps_append_ne_close w (by simp))
      | str t => simp [Json.dumps, stringText] at h
      | obj fields => rcases fields with _ | ⟨⟨k, v⟩, fields⟩ <;>
          simp [Json.dumps] at h
      | _ => exact absurd h.symm (Json.scalar_head_ne rfl hr' (by simp))
  | .arr (v :: items), w, r, r', hr, hr', h => by
      cases w with
      | arr items' =>
          cases items' with
          | nil =>
              simp only [Json.dumps, List.cons_append, List.append_assoc,
                List.cons.injEq, true_and] at h
              exact absurd h (Json.dumps_append_ne_close v (by simp))
          | cons w items' =>
              simp only [Json.dumps, List.cons_append, List.append_assoc,
                List.cons.injEq, true_and] at h
              obtain ⟨rfl, htail⟩ := Json.dumps_append_inj v w
                (Json.valueEnd_dumpsItems items r)
                (Json.valueEnd_dumpsItems items' r') h
              obtain ⟨rfl, hrest⟩ := Json.dumpsItems_append_inj items items' htail
              exact ⟨rfl, hrest⟩
      | str t => simp [Json.dumps, stringText] at h
      | obj fields => rcases fields with _ | ⟨⟨k, v⟩, fields⟩ <;>
          simp [Json.dumps] at h
      | _ => exact absurd h.symm (Json.scalar_head_ne rfl hr' (by simp))
  | .obj [], w, r, r', hr, hr', h => by
      cases w with
      | obj fields =>
          rcases fields with _ | ⟨⟨k, v⟩, fields⟩
          · simpa [Json.dumps] using h
          · simp [Json.dumps, stringText] at h
      | str t => simp [Json.dumps, stringText] at h
      | arr items => cases items <;> simp [Json.dumps] at h
      | _ => exact absurd h.symm (Json.scalar_head_ne rfl hr' (by simp))
  | .obj ((k, v) :: fields), w, r, r', hr, hr', h => by
      cases w with
      | obj fields' =>
          rcases fields' with _ | ⟨⟨l, w⟩, fields'⟩
          · simp [Json.dumps, stringText] at h
          · simp only [Json.dumps, List.cons_append, List.append_assoc,
              List.cons.injEq, true_and] at h
            obtain ⟨hkey, hvalue⟩ := stringText_append_inj h
            obtain ⟨rfl, htail⟩ := Json.dumps_append_inj v w
              (Json.valueEnd_dumpsFields fields r)
              (Json.valueEnd_dumpsFields fields' r') (List.cons.inj hvalue).2
            obtain ⟨rfl, hrest⟩ := Json.dumpsFields_append_inj fields fields' htail
            rw [String.toList_inj.mp hkey]
            exact ⟨rfl, hrest⟩
      | str t => simp [Json.dumps, stringText] at h
      | arr items => cases items <;> simp [Json.dumps] at h
      | _ => exact absurd h.symm (Json.scalar_head_ne rfl hr' (by simp))

theorem Json.dumpsItems_append_inj : ∀ (items items' : List Json) {r r' : List Char},
    Json.dumpsItems items ++ r = Json.dumpsItems items' ++ r' →
      items = items' ∧ r = r'
  | [], [], _, _, h => ⟨rfl, (List.cons.inj h).2⟩
  | [], _ :: _, _, _, h => by simp [Json.dumpsItems] at h
  | _ :: _, [], _, _, h => by simp [Json.dumpsItems] at h
  | v :: items, w :: items', r, r', h => by
      simp only [Json.dumpsItems, List.cons_append, List.append_assoc,
        List.cons.injEq, true_and] at h
      obtain ⟨rfl, htail⟩ := Json.dumps_append_inj v w
        (Json.valueEnd_dumpsItems items r) (Json.valueEnd_dumpsItems items' r') h
      obtain ⟨rfl, hrest⟩ := Json.dumpsItems_append_inj items items' htail
      exact ⟨rfl, hrest⟩

theorem Json.dumpsFields_append_inj :
    ∀ (fields fields' : List (String × Json)) {r r' : List Char},
    Json.dumpsFields fields ++ r = Json.dumpsFields fields' ++ r' →
      fields = fields' ∧ r = r'
  | [], [], _, _, h => ⟨rfl, (List.cons.inj h).2⟩
  | [], _ :: _, _, _, h => by simp [Json.dumpsFields] at h
  | _ :: _, [], _, _, h => by simp [Json.dumpsFields] at h
  | (k, v) :: fields, (l, w) :: fields', r, r', h => by
      simp only [Json.dumpsFields, List.cons_append, List.append_assoc,
        List.cons.injEq, true_and] at h
      obtain ⟨hkey, hvalue⟩ := stringText_append_inj h
      obtain ⟨rfl, htail⟩ := Json.dumps_append_inj v w
        (Json.valueEnd_dumpsFields fields r)
        (Json.valueEnd_dumpsFields fields' r') (List.cons.inj hvalue).2
      obtain ⟨rfl, hrest⟩ := Json.dumpsFields_append_inj fields fields' htail
      rw [String.toList_inj.mp hkey]
      exact ⟨rfl, hrest⟩

end

/-- `json.dumps` with compact separators is injective. -/
theorem Json.dumps_injective : Function.Injective Json.dumps := by
  intro v w h
  refine (Json.dumps_append_inj v w (endsRun_nil _) (endsRun_nil _) ?_).1
  rw [h]

/-! ## Canonical text -/

/-- `json.dumps(value, sort_keys=True, separators=(",", ":"))`. -/
@[irreducible] def Json.canonical (v : Json) : String := String.ofList v.sortKeys.dumps

/-- The canonical text determines the value up to the order of object
entries. -/
theorem Json.canonical_inj {v w : Json} (h : v.canonical = w.canonical) :
    v.sortKeys = w.sortKeys := by
  apply Json.dumps_injective
  have := congrArg String.toList h
  simpa [Json.canonical] using this

end AgenticGovernance.Support

import Mathlib

/-!
# Searching for a regular expression

The part of Python's `re` in which there are no captures: a match is a pair of positions in
the text, and a search asks whether there is one.  A `Cursor` is a position, given by the
text on both sides of it.

Which characters are digits and word characters is Unicode data, passed as `CharClasses`.
-/

namespace AgenticGovernance.Support

/-- `\d` and `\w` -/
structure CharClasses where
  isDigit : Char → Bool
  isWord : Char → Bool

/-- On ASCII, `\w` is a letter, a digit or the underscore. -/
def CharClasses.Ascii (classes : CharClasses) : Prop :=
  ∀ c : Char, c.toNat < 128 → classes.isWord c = (c.isAlphanum || c = '_')

inductive Regex where
  | empty
  /-- one character of a class -/
  | set (p : CharClasses → Char → Bool)
  | seq (r s : Regex)
  | alt (r s : Regex)
  /-- at least `least` and at most `most` repetitions -/
  | repeats (r : Regex) (least : ℕ) (most : Option ℕ)
  /-- `^` -/
  | start
  /-- `\b` -/
  | boundary
  /-- `(?!...)` -/
  | notAhead (r : Regex)
  /-- `(?<!...)`, for an expression that matches `width` characters -/
  | notBehind (width : ℕ) (r : Regex)

/-- A position in a text; the characters before it are listed backwards. -/
structure Cursor where
  before : List Char
  after : List Char

/-- `d` is `c`, or a later position in the same text. -/
def Cursor.Upto (c d : Cursor) : Prop :=
  ∃ passed, c.after = passed ++ d.after ∧ d.before = passed.reverse ++ c.before

/-- The results of exactly `n` repetitions of `f`. -/
def repeatExactly (f : Cursor → List Cursor) : ℕ → Cursor → List Cursor
  | 0, c => [c]
  | n + 1, c => (f c).flatMap (repeatExactly f n)

/-- The results of at most `n` repetitions of `f`. -/
def repeatUpTo (f : Cursor → List Cursor) : ℕ → Cursor → List Cursor
  | 0, c => [c]
  | n + 1, c => c :: (f c).flatMap (repeatUpTo f n)

namespace Regex

/-- The positions at which a match that starts at the cursor can end.  An unbounded
repetition is made at most once for each character left. -/
def run (classes : CharClasses) : Regex → Cursor → List Cursor
  | empty, c => [c]
  | set _, ⟨_, []⟩ => []
  | set p, ⟨before, x :: after⟩ => if p classes x then [⟨x :: before, after⟩] else []
  | seq r s, c => (run classes r c).flatMap (run classes s)
  | alt r s, c => run classes r c ++ run classes s c
  | repeats r least most, c =>
      (repeatExactly (run classes r) least c).flatMap fun d =>
        repeatUpTo (run classes r) ((most.map (· - least)).getD d.after.length) d
  | start, c => if c.before.isEmpty then [c] else []
  | boundary, c =>
      if c.before.head?.any classes.isWord = c.after.head?.any classes.isWord then [] else [c]
  | notAhead r, c => if (run classes r c).isEmpty then [c] else []
  | notBehind width r, c =>
      if c.before.length < width then [c]
      else
        let back : Cursor := ⟨c.before.drop width, (c.before.take width).reverse ++ c.after⟩
        if (run classes r back).any fun d => d.after.length = c.after.length then [] else [c]

/-- `pattern.search(text)` finds a match in `before.reverse ++ after` from the cursor on. -/
def searchFrom (classes : CharClasses) (r : Regex) : List Char → List Char → Bool
  | before, [] => !(run classes r ⟨before, []⟩).isEmpty
  | before, x :: after =>
      !(run classes r ⟨before, x :: after⟩).isEmpty ||
        searchFrom classes r (x :: before) after

def search (classes : CharClasses) (r : Regex) (text : String) : Bool :=
  r.searchFrom classes [] text.toList

/-! ## Building expressions -/

def char (c : Char) : Regex := .set fun _ x => x = c

def chars (p : Char → Bool) : Regex := .set fun _ x => p x

def digit : Regex := .set fun classes x => classes.isDigit x

/-- With `re.IGNORECASE`, the small letter `c` stands for its capital and for the characters
that fold to it. -/
def foldsTo (c x : Char) : Bool :=
  x.toLower = c || (c = 'i' && (x = '\u0130' || x = '\u0131')) ||
    (c = 's' && x = '\u017f') || (c = 'k' && x = '\u212a')

/-- A character of a pattern with `re.IGNORECASE`. -/
def ignoringCase (c : Char) : Regex :=
  if c.isAlpha then .set fun _ x => foldsTo c.toLower x else char c

/-- The characters of `s`, one after the other. -/
def lit (s : String) : Regex :=
  s.toList.foldr (fun c r => .seq (char c) r) .empty

/-- The same with `re.IGNORECASE`. -/
def litIgnoringCase (s : String) : Regex :=
  s.toList.foldr (fun c r => .seq (ignoringCase c) r) .empty

def sequence (rs : List Regex) : Regex := rs.foldr .seq .empty

/-- One of the words, ignoring case. -/
def oneOf : List String → Regex
  | [] => .set fun _ _ => false
  | [s] => litIgnoringCase s
  | s :: words => .alt (litIgnoringCase s) (oneOf words)

def optional (r : Regex) : Regex := .repeats r 0 (some 1)

/-! ## Unfolding a match -/

section Unfolding

variable {classes : CharClasses} {r s : Regex} {c : Cursor} {before after : List Char}

theorem run_empty : run classes .empty c = [c] := rfl

theorem run_set_nil {p : CharClasses → Char → Bool} :
    run classes (.set p) ⟨before, []⟩ = [] := rfl

theorem run_set_cons {p : CharClasses → Char → Bool} {x : Char} :
    run classes (.set p) ⟨before, x :: after⟩ =
      if p classes x then [⟨x :: before, after⟩] else [] := rfl

theorem run_seq : run classes (.seq r s) c = (run classes r c).flatMap (run classes s) := rfl

theorem run_alt : run classes (.alt r s) c = run classes r c ++ run classes s c := rfl

theorem run_repeats {least : ℕ} {most : Option ℕ} :
    run classes (.repeats r least most) c =
      (repeatExactly (run classes r) least c).flatMap fun d =>
        repeatUpTo (run classes r) ((most.map (· - least)).getD d.after.length) d := rfl

theorem run_boundary :
    run classes .boundary c =
      if c.before.head?.any classes.isWord = c.after.head?.any classes.isWord then []
      else [c] := rfl

theorem run_optional : run classes (optional r) c = c :: run classes r c := by
  rw [optional, run_repeats]
  simp [repeatExactly, repeatUpTo]

end Unfolding

/-! ## The positions of a match -/

section Upto

variable {c d e : Cursor}

theorem upto_refl (c : Cursor) : c.Upto c := ⟨[], rfl, rfl⟩

theorem upto_trans (h : c.Upto d) (h' : d.Upto e) : c.Upto e := by
  obtain ⟨passed, hafter, hbefore⟩ := h
  obtain ⟨passed', hafter', hbefore'⟩ := h'
  refine ⟨passed ++ passed', ?_, ?_⟩
  · rw [hafter, hafter', List.append_assoc]
  · rw [hbefore', hbefore, List.reverse_append, List.append_assoc]

theorem length_le_of_upto (h : c.Upto d) : d.after.length ≤ c.after.length := by
  obtain ⟨passed, hafter, -⟩ := h
  rw [hafter, List.length_append]
  exact Nat.le_add_left _ _

/-- A later position has less text after it. -/
theorem eq_of_upto (h : c.Upto d) (hlength : c.after.length ≤ d.after.length) : d = c := by
  obtain ⟨passed, hafter, hbefore⟩ := h
  rw [hafter, List.length_append] at hlength
  have hnone : passed = [] := List.length_eq_zero_iff.mp (by omega)
  obtain ⟨before, after⟩ := d
  rw [hnone] at hafter hbefore
  obtain ⟨before', after'⟩ := c
  rw [Cursor.mk.injEq]
  exact ⟨hbefore, hafter.symm⟩

end Upto

section Positions

variable {classes : CharClasses} {r s : Regex} {c d : Cursor} {f : Cursor → List Cursor}

theorem mem_run_seq : d ∈ run classes (.seq r s) c ↔
    ∃ m ∈ run classes r c, d ∈ run classes s m := by
  rw [run_seq, List.mem_flatMap]

theorem mem_run_alt : d ∈ run classes (.alt r s) c ↔
    d ∈ run classes r c ∨ d ∈ run classes s c := by
  rw [run_alt, List.mem_append]

theorem mem_run_set {p : CharClasses → Char → Bool} : d ∈ run classes (.set p) c ↔
    ∃ x rest, c.after = x :: rest ∧ p classes x = true ∧ d = ⟨x :: c.before, rest⟩ := by
  obtain ⟨before, after⟩ := c
  cases after with
  | nil => simp [run_set_nil]
  | cons x after =>
      rw [run_set_cons]
      by_cases hx : p classes x
      · simp [hx]
      · simp [hx]

theorem mem_run_start : d ∈ run classes .start c ↔ c.before = [] ∧ d = c := by
  rw [run]
  by_cases hbefore : c.before = []
  · simp [hbefore]
  · simp [hbefore]

theorem mem_run_boundary : d ∈ run classes .boundary c ↔
    c.before.head?.any classes.isWord ≠ c.after.head?.any classes.isWord ∧ d = c := by
  rw [run_boundary]
  by_cases hboundary : c.before.head?.any classes.isWord = c.after.head?.any classes.isWord
  · simp [hboundary]
  · simp [hboundary]

theorem mem_run_char {x : Char} : d ∈ run classes (char x) c ↔
    ∃ rest, c.after = x :: rest ∧ d = ⟨x :: c.before, rest⟩ := by
  rw [char, mem_run_set]
  constructor
  · rintro ⟨y, rest, hafter, hy, rfl⟩
    obtain rfl : y = x := by simpa using hy
    exact ⟨rest, hafter, rfl⟩
  · rintro ⟨rest, hafter, rfl⟩
    exact ⟨x, rest, hafter, by simp, rfl⟩

theorem mem_repeatExactly_succ {n : ℕ} : d ∈ repeatExactly f (n + 1) c ↔
    ∃ m ∈ f c, d ∈ repeatExactly f n m := by
  rw [repeatExactly, List.mem_flatMap]

/-- At most `n` repetitions are exactly `k` for some `k ≤ n`. -/
theorem mem_repeatUpTo {n : ℕ} :
    d ∈ repeatUpTo f n c ↔ ∃ k ≤ n, d ∈ repeatExactly f k c := by
  induction n generalizing c with
  | zero => simp [repeatUpTo, repeatExactly]
  | succ n ih =>
      rw [repeatUpTo, List.mem_cons, List.mem_flatMap]
      constructor
      · rintro (rfl | ⟨m, hm, hd⟩)
        · exact ⟨0, Nat.zero_le _, List.mem_singleton_self d⟩
        · obtain ⟨k, hk, hd⟩ := ih.mp hd
          exact ⟨k + 1, Nat.succ_le_succ hk, mem_repeatExactly_succ.mpr ⟨m, hm, hd⟩⟩
      · rintro ⟨k, hk, hd⟩
        cases k with
        | zero => exact Or.inl (List.mem_singleton.mp hd)
        | succ k =>
            obtain ⟨m, hm, hd⟩ := mem_repeatExactly_succ.mp hd
            exact Or.inr ⟨m, hm, ih.mpr ⟨k, Nat.le_of_succ_le_succ hk, hd⟩⟩


theorem upto_of_mem_repeatExactly (hf : ∀ c, ∀ d ∈ f c, c.Upto d) {n : ℕ}
    (h : d ∈ repeatExactly f n c) : c.Upto d := by
  induction n generalizing c with
  | zero =>
      rw [List.mem_singleton.mp h]
      exact upto_refl c
  | succ n ih =>
      obtain ⟨m, hm, hd⟩ := mem_repeatExactly_succ.mp h
      exact upto_trans (hf c m hm) (ih hd)

/-- A match ends where it starts, or later. -/
theorem upto_of_mem_run (h : d ∈ run classes r c) : c.Upto d := by
  induction r generalizing c d with
  | empty =>
      rw [List.mem_singleton.mp h]
      exact upto_refl c
  | set p =>
      obtain ⟨before, after⟩ := c
      cases after with
      | nil => exact absurd h List.not_mem_nil
      | cons x after =>
          rw [run_set_cons] at h
          split at h
          · rw [List.mem_singleton.mp h]
            exact ⟨[x], rfl, rfl⟩
          · exact absurd h List.not_mem_nil
  | seq r s ihr ihs =>
      obtain ⟨m, hm, hd⟩ := mem_run_seq.mp h
      exact upto_trans (ihr hm) (ihs hd)
  | alt r s ihr ihs => exact (mem_run_alt.mp h).elim ihr ihs
  | repeats r least most ih =>
      rw [run_repeats] at h
      obtain ⟨m, hm, hd⟩ := List.mem_flatMap.mp h
      obtain ⟨k, -, hd⟩ := mem_repeatUpTo.mp hd
      exact upto_trans (upto_of_mem_repeatExactly (fun c d => ih) hm)
        (upto_of_mem_repeatExactly (fun c d => ih) hd)
  | _ =>
      rw [run] at h
      split at h <;> simp_all [upto_refl]

/-- The expression may match the empty text. -/
def nullable : Regex → Bool
  | set _ => false
  | seq r s => r.nullable && s.nullable
  | alt r s => r.nullable || s.nullable
  | repeats r least _ => least = 0 || r.nullable
  | _ => true

/-- Only such an expression ends where it starts. -/
theorem nullable_of_mem_run (h : c ∈ run classes r c) : r.nullable = true := by
  have hsame : ∀ {m : Cursor}, c.Upto m → m.Upto c → m = c := by
    intro m hm hc
    exact eq_of_upto hm (length_le_of_upto hc)
  induction r generalizing c with
  | set p =>
      obtain ⟨before, after⟩ := c
      cases after with
      | nil => exact absurd h List.not_mem_nil
      | cons x after =>
          rw [run_set_cons] at h
          split at h
          · simp at h
          · exact absurd h List.not_mem_nil
  | seq r s ihr ihs =>
      obtain ⟨m, hm, hd⟩ := mem_run_seq.mp h
      obtain rfl := hsame (upto_of_mem_run hm) (upto_of_mem_run hd)
      rw [nullable, ihr hm hsame, ihs hd hsame]
      rfl
  | alt r s ihr ihs =>
      rw [nullable, Bool.or_eq_true]
      exact (mem_run_alt.mp h).imp (ihr · hsame) (ihs · hsame)
  | repeats r least most ih =>
      rw [nullable, Bool.or_eq_true, decide_eq_true_eq]
      rw [run_repeats] at h
      obtain ⟨m, hm, hrest⟩ := List.mem_flatMap.mp h
      obtain ⟨k, -, hd⟩ := mem_repeatUpTo.mp hrest
      have hupto : ∀ {n c d}, d ∈ repeatExactly (run classes r) n c → c.Upto d :=
        upto_of_mem_repeatExactly fun _ _ => upto_of_mem_run
      rcases least with _ | least
      · exact Or.inl rfl
      · obtain ⟨first, hfirst, hm⟩ := mem_repeatExactly_succ.mp hm
        obtain rfl := hsame (upto_of_mem_run hfirst) (upto_trans (hupto hm) (hupto hd))
        exact Or.inr (ih hfirst hsame)
  | _ => rfl

/-- The bound of an unbounded repetition is no bound, if every round consumes. -/
theorem le_of_mem_repeatExactly (hr : r.nullable = false) {n : ℕ}
    (h : d ∈ repeatExactly (run classes r) n c) : n ≤ c.after.length := by
  induction n generalizing c with
  | zero => exact Nat.zero_le _
  | succ n ih =>
      obtain ⟨m, hm, hd⟩ := mem_repeatExactly_succ.mp h
      have hlength := ih hd
      by_contra hlarge
      obtain rfl := eq_of_upto (upto_of_mem_run hm) (by omega)
      rw [nullable_of_mem_run hm] at hr
      exact Bool.noConfusion hr

theorem mem_run_repeats {least : ℕ} {most : Option ℕ} (hr : most = none → r.nullable = false) :
    d ∈ run classes (.repeats r least most) c ↔
      ∃ m ∈ repeatExactly (run classes r) least c, ∃ k,
        (∀ n ∈ most, k ≤ n - least) ∧ d ∈ repeatExactly (run classes r) k m := by
  simp only [run_repeats, List.mem_flatMap, mem_repeatUpTo]
  cases most with
  | none =>
      constructor
      · rintro ⟨m, hm, k, -, hd⟩
        exact ⟨m, hm, k, by simp, hd⟩
      · rintro ⟨m, hm, k, -, hd⟩
        exact ⟨m, hm, k, le_of_mem_repeatExactly (hr rfl) hd, hd⟩
  | some n => simp

theorem searchFrom_iff {before after : List Char} :
    searchFrom classes r before after = true ↔
      ∃ passed rest, after = passed ++ rest ∧
        run classes r ⟨passed.reverse ++ before, rest⟩ ≠ [] := by
  induction after generalizing before with
  | nil => simp [searchFrom]
  | cons x after ih =>
      rw [searchFrom, Bool.or_eq_true, ih]
      constructor
      · rintro (hhere | ⟨passed, rest, rfl, hlater⟩)
        · exact ⟨[], x :: after, rfl, by simpa using hhere⟩
        · exact ⟨x :: passed, rest, rfl, by simpa using hlater⟩
      · rintro ⟨passed, rest, hafter, hrun⟩
        cases passed with
        | nil =>
            rw [List.nil_append] at hafter
            rw [← hafter] at hrun
            exact Or.inl (by simpa using hrun)
        | cons y passed =>
            obtain ⟨rfl, rfl⟩ := List.cons.inj hafter
            exact Or.inr ⟨passed, rest, rfl, by simpa using hrun⟩

end Positions

end Regex

end AgenticGovernance.Support

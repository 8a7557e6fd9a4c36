import Mathlib
import AgenticGovernance.Support.Regex

/-!
# Words of an expression, and replacing them

`substitute` scans a text from left to right and writes a replacement for every match; which
match a position has, and how long it is, is a function of the text on both sides.  What
comes out consists of pieces of the text and of replacements, so a word that has no letter
of the replacement's ends in it was there before, at a position without a match.

`Regex.Recognizes` says that an expression matches the words of a language wherever they
stand, and `Regex.sub` is `pattern.sub` for expressions that prefer their longest match.
-/

namespace AgenticGovernance.Support

/-! ## Scanning a text -/

section Substitute

variable {α : Type*} (next : List α → List α → ℕ) (replacement : List α)

/-- The text with a replacement for every match.  `next` is the length of the match at a
position, and `0` if there is none; the first argument counts the letters that are left of
the last match. -/
def substitute : ℕ → List α → List α → List α
  | _, _, [] => []
  | n + 1, before, x :: after => substitute n (x :: before) after
  | 0, before, x :: after =>
      match next before (x :: after) with
      | 0 => x :: substitute 0 (x :: before) after
      | n + 1 => replacement ++ substitute n (x :: before) after

variable {next replacement} {before after text p w u rest : List α} {x b e : α}

theorem substitute_nil (n : ℕ) : substitute next replacement n before [] = [] := by
  cases n with
  | zero => rfl
  | succ n => rfl

theorem substitute_succ (n : ℕ) :
    substitute next replacement (n + 1) before (x :: after) =
      substitute next replacement n (x :: before) after := rfl

theorem substitute_zero :
    substitute next replacement 0 before (x :: after) =
      match next before (x :: after) with
      | 0 => x :: substitute next replacement 0 (x :: before) after
      | n + 1 => replacement ++ substitute next replacement n (x :: before) after := rfl

theorem substitute_copy (h : next before (x :: after) = 0) :
    substitute next replacement 0 before (x :: after) =
      x :: substitute next replacement 0 (x :: before) after := by
  rw [substitute_zero, h]

theorem substitute_skip (u rest before : List α) :
    substitute next replacement u.length before (u ++ rest) =
      substitute next replacement 0 (u.reverse ++ before) rest := by
  induction u generalizing before with
  | nil => rfl
  | cons x u ih =>
      rw [List.length_cons, List.cons_append, substitute_succ, ih, List.reverse_cons,
        List.append_assoc, List.singleton_append]

theorem substitute_found (hu : u ≠ []) (h : next before (u ++ rest) = u.length) :
    substitute next replacement 0 before (u ++ rest) =
      replacement ++ substitute next replacement 0 (u.reverse ++ before) rest := by
  obtain ⟨x, u, rfl⟩ := List.exists_cons_of_ne_nil hu
  rw [List.cons_append] at h
  rw [List.cons_append, substitute_zero, h]
  dsimp only [List.length_cons]
  rw [substitute_skip, List.reverse_cons, List.append_assoc, List.singleton_append]

/-- Induction along the scan: the end, a letter that is copied, and a match. -/
theorem scan_induction {P : List α → List α → Prop}
    (hbound : ∀ before after, next before after ≤ after.length)
    (nil : ∀ before, P before [])
    (copy : ∀ before x after, next before (x :: after) = 0 → P (x :: before) after →
      P before (x :: after))
    (found : ∀ before u rest, u ≠ [] → next before (u ++ rest) = u.length →
      P (u.reverse ++ before) rest → P before (u ++ rest))
    (before text : List α) : P before text := by
  induction hlength : text.length using Nat.strong_induction_on generalizing before text with
  | _ n ih =>
      cases text with
      | nil => exact nil before
      | cons x after =>
          rcases hmatch : next before (x :: after) with _ | m
          · refine copy before x after hmatch ?_
            exact ih after.length (by rw [← hlength]; exact Nat.lt_succ_self _) _ _ rfl
          · have hle := hbound before (x :: after)
            have hsplit : (x :: after).take (m + 1) ++ (x :: after).drop (m + 1) = x :: after :=
              List.take_append_drop _ _
            have htake : ((x :: after).take (m + 1)).length = m + 1 := by
              rw [List.length_take]
              omega
            rw [← hsplit]
            refine found before _ _ ?_ ?_ ?_
            · rw [← List.length_pos_iff, htake]
              exact Nat.succ_pos m
            · rw [hsplit, htake, hmatch]
            · refine ih _ ?_ _ _ rfl
              rw [← hlength, List.length_drop, List.length_cons]
              omega

/-! ### What comes out -/

/-- A stretch of the text in which no match begins is copied. -/
theorem substitute_append
    (h : ∀ q s, p = q ++ s → s ≠ [] → next (q.reverse ++ before) (s ++ rest) = 0) :
    substitute next replacement 0 before (p ++ rest) =
      p ++ substitute next replacement 0 (p.reverse ++ before) rest := by
  induction p generalizing before with
  | nil => rfl
  | cons x p ih =>
      have hfirst : next before (x :: (p ++ rest)) = 0 :=
        h [] (x :: p) rfl (List.cons_ne_nil x p)
      rw [List.cons_append, substitute_copy hfirst, ih, List.reverse_cons, List.append_assoc,
        List.cons_append]
      · rfl
      · rintro q s rfl hs
        have hlater := h (x :: q) s rfl hs
        rw [List.reverse_cons, List.append_assoc] at hlater
        exact hlater

/-- A text in which no match begins comes out as it is. -/
theorem substitute_eq_self
    (h : ∀ q s, text = q ++ s → s ≠ [] → next (q.reverse ++ before) s = 0) :
    substitute next replacement 0 before text = text := by
  have hcopied : substitute next replacement 0 before (text ++ []) =
      text ++ substitute next replacement 0 (text.reverse ++ before) [] := by
    apply substitute_append
    intro q s hqs hs
    rw [List.append_nil]
    exact h q s hqs hs
  rw [List.append_nil, substitute_nil, List.append_nil] at hcopied
  exact hcopied

/-- Conversely, if no match begins with the first letter of the replacement. -/
theorem eq_zero_of_substitute_eq_self (hfirst : ∀ before after, next before (b :: after) = 0)
    {body : List α} (h : substitute next (b :: body) 0 before text = text) {q s : List α}
    (htext : text = q ++ s) (hs : s ≠ []) : next (q.reverse ++ before) s = 0 := by
  induction text generalizing before q with
  | nil => exact absurd (List.append_eq_nil_iff.mp htext.symm).2 hs
  | cons x after ih =>
      rcases hmatch : next before (x :: after) with _ | n
      · rw [substitute_copy hmatch] at h
        rcases q with _ | ⟨y, q⟩
        · rw [List.nil_append] at htext
          rw [← htext]
          exact hmatch
        · obtain ⟨rfl, hafter⟩ := List.cons.inj htext
          rw [List.reverse_cons, List.append_assoc]
          exact ih (List.cons.inj h).2 hafter
      · rw [substitute_zero, hmatch] at h
        obtain ⟨rfl, -⟩ := List.cons.inj h
        rw [hfirst] at hmatch
        cases hmatch

/-- What stands at the front of the output without the first letter of the replacement stood
at the front of the text. -/
theorem prefix_substitute {body : List α} (hb : b ∉ p)
    (h : p <+: substitute next (b :: body) 0 before text) :
    ∃ rest, text = p ++ rest ∧
      substitute next (b :: body) 0 before text =
        p ++ substitute next (b :: body) 0 (p.reverse ++ before) rest ∧
      (p ≠ [] → next before text = 0) := by
  induction p generalizing before text with
  | nil => exact ⟨text, rfl, rfl, fun hne => absurd rfl hne⟩
  | cons y p ih =>
      cases text with
      | nil =>
          rw [substitute_nil, List.prefix_nil] at h
          cases h
      | cons x after =>
          rcases hmatch : next before (x :: after) with _ | n
          · rw [substitute_copy hmatch, List.cons_prefix_cons] at h
            obtain ⟨rfl, hprefix⟩ := h
            obtain ⟨rest, rfl, hout, -⟩ := ih (List.not_mem_of_not_mem_cons hb) hprefix
            refine ⟨rest, rfl, ?_, fun _ => rfl⟩
            rw [substitute_copy hmatch, hout, List.reverse_cons, List.append_assoc]
            rfl
          · rw [substitute_zero, hmatch] at h
            obtain ⟨rfl, -⟩ := List.cons_prefix_cons.mp h
            exact absurd List.mem_cons_self hb

/-- A letter that no match contains is copied, and the scan goes on behind it. -/
theorem substitute_append_cons (hbound : ∀ before after, next before after ≤ after.length)
    (hx : ∀ before u rest, u ≠ [] → next before (u ++ rest) = u.length → x ∉ u)
    (before q s : List α) :
    ∃ out, substitute next replacement 0 before (q ++ x :: s) =
      out ++ x :: substitute next replacement 0 (x :: (q.reverse ++ before)) s := by
  obtain ⟨text, htext⟩ : ∃ text, text = q ++ x :: s := ⟨_, rfl⟩
  rw [← htext]
  induction before, text using scan_induction hbound generalizing q with
  | nil before => exact absurd htext.symm (List.append_ne_nil_of_right_ne_nil q (by simp))
  | copy before y after hmatch ih =>
      rw [substitute_copy hmatch]
      rcases q with _ | ⟨z, q⟩
      · obtain ⟨rfl, rfl⟩ := List.cons.inj htext
        exact ⟨[], rfl⟩
      · obtain ⟨rfl, rfl⟩ := List.cons.inj htext
        obtain ⟨out, hout⟩ := ih q rfl
        refine ⟨y :: out, ?_⟩
        rw [List.reverse_cons, List.append_assoc, ← List.append_eq, hout]
        rfl
  | found before u rest hu hmatch ih =>
      have hxu := hx before u rest hu hmatch
      obtain ⟨a, rfl, hrest⟩ : ∃ a, q = u ++ a ∧ rest = a ++ x :: s := by
        rcases List.append_eq_append_iff.mp htext with ⟨a, rfl, hrest⟩ | ⟨a, rfl, hrest⟩
        · exact ⟨a, rfl, hrest⟩
        · rcases a with _ | ⟨y, a⟩
          · exact ⟨[], by simp, hrest.symm⟩
          · obtain ⟨rfl, -⟩ := List.cons.inj hrest
            exact absurd (List.mem_append_right q List.mem_cons_self) hxu
      obtain ⟨out, hout⟩ := ih a hrest
      refine ⟨replacement ++ out, ?_⟩
      rw [substitute_found hu hmatch, hout, List.reverse_append, List.append_assoc,
        List.append_assoc]

theorem infix_append_cons (hx : x ∉ w) {l m : List α} (h : w <:+: l ++ x :: m) :
    w <:+: l ∨ w <:+: m := by
  obtain ⟨q, s, hqs⟩ := h
  rw [List.append_assoc] at hqs
  rcases List.append_eq_append_iff.mp hqs with ⟨a, rfl, hws⟩ | ⟨a, rfl, hxm⟩
  · rcases List.append_eq_append_iff.mp hws with ⟨c, rfl, -⟩ | ⟨c, rfl, hxm⟩
    · left
      exact ⟨q, c, by rw [List.append_assoc]⟩
    · rcases c with _ | ⟨y, c⟩
      · left
        exact ⟨q, [], by rw [List.append_nil, List.append_nil]⟩
      · obtain ⟨rfl, -⟩ := List.cons.inj hxm
        exact absurd (List.mem_append_right a List.mem_cons_self) hx
  · rcases a with _ | ⟨y, a⟩
    · rcases w with _ | ⟨y, w⟩
      · exact Or.inl (List.nil_infix)
      · obtain ⟨rfl, -⟩ := List.cons.inj hxm
        exact absurd List.mem_cons_self hx
    · right
      obtain ⟨-, rfl⟩ := List.cons.inj hxm
      refine ⟨a, s, ?_⟩
      rw [List.append_assoc]
      rfl

/-- A word in the output without the end letters of the replacement lies inside a
replacement, or stood in the text where no match begins. -/
theorem infix_substitute (hbound : ∀ before after, next before after ≤ after.length)
    {body : List α} (hw : w ≠ []) (hb : b ∉ w) (he : e ∉ w)
    (h : w <:+: substitute next (b :: (body ++ [e])) 0 before text) :
    w <:+: body ∨ ∃ q rest, text = q ++ (w ++ rest) ∧
      next (q.reverse ++ before) (w ++ rest) = 0 := by
  induction before, text using scan_induction hbound with
  | nil before =>
      rw [substitute_nil, List.infix_nil] at h
      exact absurd h hw
  | copy before x after hmatch ih =>
      rw [substitute_copy hmatch, List.infix_cons_iff] at h
      rcases h with hprefix | hinfix
      · rw [← substitute_copy hmatch] at hprefix
        obtain ⟨rest, htext, -, hnone⟩ := prefix_substitute hb hprefix
        refine Or.inr ⟨[], rest, htext, ?_⟩
        rw [← htext]
        exact hnone hw
      · refine (ih hinfix).imp_right ?_
        rintro ⟨q, rest, rfl, hnone⟩
        refine ⟨x :: q, rest, rfl, ?_⟩
        rw [List.reverse_cons, List.append_assoc]
        exact hnone
  | found before u rest hu hmatch ih =>
      rw [substitute_found hu hmatch, List.cons_append, List.append_assoc] at h
      rcases infix_append_cons (l := []) hb h with hnil | hinfix
      · exact absurd (List.infix_nil.mp hnil) hw
      rcases infix_append_cons he hinfix with hbody | hlater
      · exact Or.inl hbody
      · refine (ih hlater).imp_right ?_
        rintro ⟨q, rest', rfl, hnone⟩
        refine ⟨u ++ q, rest', by rw [List.append_assoc], ?_⟩
        rw [List.reverse_append, List.append_assoc]
        exact hnone

end Substitute

namespace Regex

open Language

variable {classes : CharClasses} {r s : Regex} {L M : Language Char} {before after : List Char}
  {p : Char → Bool}

/-! ## The words of an expression -/

/-- `r` matches the words of `L`, wherever they stand. -/
def Recognizes (classes : CharClasses) (r : Regex) (L : Language Char) : Prop :=
  ∀ before after d, d ∈ r.run classes ⟨before, after⟩ ↔
    ∃ w ∈ L, ∃ rest, after = w ++ rest ∧ d = ⟨w.reverse ++ before, rest⟩

/-- Words of letters of a class, with a least and perhaps a greatest length. -/
def stretch (p : Char → Bool) (least : ℕ) (most : Option ℕ) : Language Char :=
  {w | (∀ x ∈ w, p x = true) ∧ least ≤ w.length ∧ ∀ m ∈ most, w.length ≤ m}

/-- `x` stands for `c` with `re.IGNORECASE`. -/
def standsFor (c x : Char) : Bool := if c.isAlpha then foldsTo c.toLower x else x = c

/-- The spellings of `s` with `re.IGNORECASE`. -/
def spellings (s : String) : Language Char :=
  {w | List.Forall₂ (fun c x => standsFor c x = true) s.toList w}

theorem mem_stretch {w : List Char} {least : ℕ} {most : Option ℕ} :
    w ∈ stretch p least most ↔
      (∀ x ∈ w, p x = true) ∧ least ≤ w.length ∧ ∀ m ∈ most, w.length ≤ m := Iff.rfl

theorem recognizes_empty : Recognizes classes .empty 1 := by
  intro before after d
  rw [run_empty, List.mem_singleton]
  constructor
  · rintro rfl
    exact ⟨[], rfl, after, rfl, rfl⟩
  · rintro ⟨w, hw, rest, rfl, rfl⟩
    rw [(mem_one w).mp hw]
    rfl

theorem mem_run_chars {d : Cursor} :
    d ∈ (chars p).run classes ⟨before, after⟩ ↔
      ∃ x rest, p x = true ∧ after = x :: rest ∧ d = ⟨x :: before, rest⟩ := by
  rw [chars, mem_run_set]
  simp only [and_left_comm]

theorem recognizes_chars : Recognizes classes (chars p) (stretch p 1 (some 1)) := by
  intro before after d
  rw [mem_run_chars]
  constructor
  · rintro ⟨x, rest, hx, rfl, rfl⟩
    exact ⟨[x], mem_stretch.mpr ⟨by simpa using hx, le_rfl, by simp⟩, rest, rfl, rfl⟩
  · rintro ⟨w, hw, rest, rfl, rfl⟩
    obtain ⟨hletters, hleast, hmost⟩ := mem_stretch.mp hw
    obtain ⟨x, rfl⟩ := List.length_eq_one_iff.mp (le_antisymm (hmost 1 rfl) hleast)
    exact ⟨x, rest, hletters x (List.mem_singleton_self x), rfl, rfl⟩

theorem Recognizes.seq (hr : Recognizes classes r L) (hs : Recognizes classes s M) :
    Recognizes classes (.seq r s) (L * M) := by
  intro before after d
  rw [run_seq, List.mem_flatMap]
  constructor
  · rintro ⟨c, hc, hd⟩
    obtain ⟨v, hv, rest, rfl, rfl⟩ := (hr _ _ _).mp hc
    obtain ⟨w, hw, rest', rfl, rfl⟩ := (hs _ _ _).mp hd
    refine ⟨v ++ w, append_mem_mul hv hw, rest', ?_, ?_⟩
    · rw [List.append_assoc]
    · rw [List.reverse_append, List.append_assoc]
  · rintro ⟨x, hx, rest, rfl, rfl⟩
    obtain ⟨v, hv, w, hw, rfl⟩ := mem_mul.mp hx
    refine ⟨⟨v.reverse ++ before, w ++ rest⟩, (hr _ _ _).mpr ⟨v, hv, w ++ rest, ?_, rfl⟩,
      (hs _ _ _).mpr ⟨w, hw, rest, rfl, ?_⟩⟩
    · rw [List.append_assoc]
    · rw [List.reverse_append, List.append_assoc]

theorem Recognizes.alt (hr : Recognizes classes r L) (hs : Recognizes classes s M) :
    Recognizes classes (.alt r s) (L + M) := by
  intro before after d
  rw [run_alt, List.mem_append, hr, hs]
  simp only [mem_add, or_and_right, exists_or]

theorem Recognizes.optional (hr : Recognizes classes r L) :
    Recognizes classes (optional r) (1 + L) := by
  intro before after d
  rw [run_optional, List.mem_cons, hr]
  simp only [mem_add, or_and_right, exists_or]
  refine or_congr_left ?_
  constructor
  · rintro rfl
    exact ⟨[], rfl, after, rfl, rfl⟩
  · rintro ⟨w, hw, rest, rfl, rfl⟩
    rw [(mem_one w).mp hw]
    rfl

theorem mem_repeatExactly_chars {n : ℕ} {d : Cursor} :
    d ∈ repeatExactly ((chars p).run classes) n ⟨before, after⟩ ↔
      ∃ w, (∀ x ∈ w, p x = true) ∧ w.length = n ∧ after = w ++ d.after ∧
        d.before = w.reverse ++ before := by
  induction n generalizing before after with
  | zero =>
      rw [repeatExactly, List.mem_singleton]
      constructor
      · rintro rfl
        exact ⟨[], by simp, rfl, rfl, rfl⟩
      · rintro ⟨w, -, hlength, hafter, hbefore⟩
        obtain rfl := List.eq_nil_of_length_eq_zero hlength
        obtain ⟨before', after'⟩ := d
        obtain rfl : before' = before := hbefore
        obtain rfl : after = after' := hafter
        rfl
  | succ n ih =>
      rw [repeatExactly, List.mem_flatMap]
      constructor
      · rintro ⟨c, hc, hd⟩
        obtain ⟨x, rest, hx, rfl, rfl⟩ := mem_run_chars.mp hc
        obtain ⟨w, hw, hlength, hafter, hbefore⟩ := ih.mp hd
        refine ⟨x :: w, List.forall_mem_cons.mpr ⟨hx, hw⟩, by rw [List.length_cons, hlength],
          by rw [List.cons_append, hafter], ?_⟩
        rw [hbefore, List.reverse_cons, List.append_assoc]
        rfl
      · rintro ⟨w, hw, hlength, hafter, hbefore⟩
        obtain ⟨x, w, rfl⟩ := List.exists_cons_of_length_eq_add_one hlength
        rw [List.forall_mem_cons] at hw
        rw [List.reverse_cons, List.append_assoc] at hbefore
        exact ⟨⟨x :: before, w ++ d.after⟩, mem_run_chars.mpr ⟨x, _, hw.1, hafter, rfl⟩,
          ih.mpr ⟨w, hw.2, Nat.succ.inj hlength, rfl, hbefore⟩⟩

theorem recognizes_repeats {least : ℕ} {most : Option ℕ} (hmost : ∀ m ∈ most, least ≤ m) :
    Recognizes classes (.repeats (chars p) least most) (stretch p least most) := by
  intro before after d
  rw [run_repeats, List.mem_flatMap]
  constructor
  · rintro ⟨c, hc, hd⟩
    obtain ⟨v, hv, hvlength, hafter, hbefore⟩ := mem_repeatExactly_chars.mp hc
    obtain ⟨k, hk, hrun⟩ := mem_repeatUpTo.mp hd
    obtain ⟨w, hw, rfl, hafter', hbefore'⟩ := mem_repeatExactly_chars.mp hrun
    refine ⟨v ++ w, mem_stretch.mpr ⟨?_, ?_, ?_⟩, d.after, ?_, ?_⟩
    · intro x hx
      exact (List.mem_append.mp hx).elim (hv x) (hw x)
    · rw [List.length_append, hvlength]
      exact Nat.le_add_right _ _
    · rintro m hm
      obtain rfl : most = some m := hm
      rw [Option.map_some, Option.getD_some] at hk
      have hle := hmost m rfl
      rw [List.length_append, hvlength]
      omega
    · rw [hafter, hafter', List.append_assoc]
    · rw [List.reverse_append, List.append_assoc, ← hbefore, ← hbefore']
  · rintro ⟨w, hw, rest, rfl, rfl⟩
    obtain ⟨hletters, hleast, hmost'⟩ := mem_stretch.mp hw
    have htake : (w.take least).length = least := List.length_take_of_le hleast
    have hsplit : w.take least ++ w.drop least = w := List.take_append_drop _ _
    refine ⟨⟨(w.take least).reverse ++ before, w.drop least ++ rest⟩, ?_, ?_⟩
    · refine mem_repeatExactly_chars.mpr ⟨w.take least, ?_, htake, ?_, rfl⟩
      · exact fun x hx => hletters x (List.mem_of_mem_take hx)
      · rw [← List.append_assoc, hsplit]
    · refine mem_repeatUpTo.mpr ⟨(w.drop least).length, ?_, ?_⟩
      · rcases most with _ | m
        · rw [Option.map_none, Option.getD_none, List.length_append]
          exact Nat.le_add_right _ _
        · rw [Option.map_some, Option.getD_some, List.length_drop]
          exact Nat.sub_le_sub_right (hmost' m rfl) least
      · refine mem_repeatExactly_chars.mpr ⟨w.drop least, ?_, rfl, rfl, ?_⟩
        · exact fun x hx => hletters x (List.mem_of_mem_drop hx)
        · rw [← List.append_assoc, ← List.reverse_append, hsplit]

/-- One letter after the other, each of a class of its own. -/
theorem recognizes_letters (q : Char → Char → Bool) (l : List Char) :
    Recognizes classes (l.foldr (fun c r => .seq (chars (q c)) r) .empty)
      {w | List.Forall₂ (fun c x => q c x = true) l w} := by
  induction l with
  | nil =>
      intro before after d
      rw [List.foldr_nil, recognizes_empty]
      simp only [mem_one, List.forall₂_nil_left_iff]
      rfl
  | cons c l ih =>
      intro before after d
      rw [List.foldr_cons, run_seq, List.mem_flatMap]
      constructor
      · rintro ⟨e, he, hd⟩
        obtain ⟨x, rest, hx, rfl, rfl⟩ := mem_run_chars.mp he
        obtain ⟨w, hw, rest', rfl, rfl⟩ := (ih _ _ _).mp hd
        refine ⟨x :: w, List.Forall₂.cons hx hw, rest', rfl, ?_⟩
        rw [List.reverse_cons, List.append_assoc]
        rfl
      · rintro ⟨w, hw, rest, rfl, rfl⟩
        obtain ⟨x, w, hx, hw', rfl⟩ := List.forall₂_cons_left_iff.mp hw
        refine ⟨⟨x :: before, w ++ rest⟩, mem_run_chars.mpr ⟨x, _, hx, rfl, rfl⟩,
          (ih _ _ _).mpr ⟨w, hw', rest, rfl, ?_⟩⟩
        rw [List.reverse_cons, List.append_assoc]
        rfl

theorem recognizes_lit (s : String) : Recognizes classes (lit s) {s.toList} := by
  have h : Recognizes classes (lit s)
      {w | List.Forall₂ (fun c x => decide (x = c) = true) s.toList w} :=
    recognizes_letters (fun c x => x = c) s.toList
  have hwords : {w | List.Forall₂ (fun c x => decide (x = c) = true) s.toList w} =
      ({s.toList} : Language Char) := by
    ext w
    change List.Forall₂ (fun c x => decide (x = c) = true) s.toList w ↔ w = s.toList
    simp only [decide_eq_true_eq]
    constructor
    · intro hw
      have hflip : List.Forall₂ (· = ·) w s.toList := hw.flip
      rwa [List.forall₂_eq_eq_eq] at hflip
    · rintro rfl
      exact List.forall₂_same.mpr fun x _ => rfl
  rw [hwords] at h
  exact h

theorem recognizes_litIgnoringCase (s : String) :
    Recognizes classes (litIgnoringCase s) (spellings s) := by
  have hletter : ∀ c, ignoringCase c = chars (standsFor c) := by
    intro c
    rw [ignoringCase]
    by_cases hc : c.isAlpha
    · rw [if_pos hc]
      simp only [chars, standsFor, hc, if_true]
    · rw [if_neg hc]
      simp only [chars, char, standsFor, hc, Bool.false_eq_true, if_false]
  have h : Recognizes classes
      (s.toList.foldr (fun c r => .seq (chars (standsFor c)) r) .empty) (spellings s) :=
    recognizes_letters standsFor s.toList
  simp only [← hletter] at h
  exact h

/-! ## Searching and replacing -/

/-- The length of the longest match at a position, `0` if there is none. -/
def longest (classes : CharClasses) (r : Regex) (before after : List Char) : ℕ :=
  ((r.run classes ⟨before, after⟩).map fun d => after.length - d.after.length).max?.getD 0

/-- `pattern.sub(replacement, text)`, for an expression whose preferred match is its longest
one and is never empty. -/
def sub (classes : CharClasses) (r : Regex) (replacement text : List Char) : List Char :=
  substitute (r.longest classes) replacement 0 [] text

theorem longest_le (r : Regex) (before after : List Char) :
    r.longest classes before after ≤ after.length := by
  rw [longest]
  rcases hmax : ((r.run classes ⟨before, after⟩).map
    fun d => after.length - d.after.length).max? with _ | n
  · rw [hmax, Option.getD_none]
    exact Nat.zero_le _
  · obtain ⟨d, -, rfl⟩ := List.mem_map.mp (List.max?_mem hmax)
    rw [hmax, Option.getD_some]
    exact Nat.sub_le _ _

theorem Recognizes.longest_ge (h : Recognizes classes r L) (before rest : List Char)
    {w : List Char} (hw : w ∈ L) :
    w.length ≤ r.longest classes before (w ++ rest) := by
  have hmem : w.length ∈ (r.run classes ⟨before, w ++ rest⟩).map
      fun d => (w ++ rest).length - d.after.length := by
    refine List.mem_map.mpr ⟨⟨w.reverse ++ before, rest⟩, (h _ _ _).mpr ⟨w, hw, rest, rfl, rfl⟩, ?_⟩
    rw [List.length_append, Nat.add_sub_cancel]
  rw [longest]
  rcases hmax : ((r.run classes ⟨before, w ++ rest⟩).map
    fun d => (w ++ rest).length - d.after.length).max? with _ | n
  · rw [List.max?_eq_none_iff.mp hmax] at hmem
    exact absurd hmem List.not_mem_nil
  · rw [hmax, Option.getD_some]
    exact (List.max?_eq_some_iff.mp hmax).2 _ hmem

theorem Recognizes.mem_of_longest (h : Recognizes classes r L) {u rest : List Char} (hu : u ≠ [])
    (hlongest : r.longest classes before (u ++ rest) = u.length) : u ∈ L := by
  rw [longest] at hlongest
  rcases hmax : ((r.run classes ⟨before, u ++ rest⟩).map
    fun d => (u ++ rest).length - d.after.length).max? with _ | n
  · rw [hmax, Option.getD_none] at hlongest
    exact absurd (List.eq_nil_of_length_eq_zero hlongest.symm) hu
  · rw [hmax, Option.getD_some] at hlongest
    obtain ⟨d, hd, hn⟩ := List.mem_map.mp (List.max?_mem hmax)
    obtain ⟨w, hw, rest', hsplit, rfl⟩ := (h _ _ _).mp hd
    rw [hsplit, List.length_append, Nat.add_sub_cancel, hlongest] at hn
    obtain ⟨rfl, -⟩ := List.append_inj hsplit hn.symm
    exact hw

/-- Nothing longer than the longest match is a match. -/
theorem Recognizes.not_mem_of_longest (h : Recognizes classes r L) {u v rest : List Char}
    (hv : v ≠ []) (hlongest : r.longest classes before (u ++ (v ++ rest)) = u.length) :
    u ++ v ∉ L := by
  intro hmem
  have hge := h.longest_ge before rest hmem
  rw [List.append_assoc, hlongest, List.length_append] at hge
  have hpos := List.length_pos_iff.mpr hv
  omega

/-- Where `r` stands for words without the empty one, a search finds one of them. -/
theorem Recognizes.searchFrom_iff (h : Recognizes classes r L) :
    searchFrom classes r before after = true ↔ ∃ w ∈ L, w <:+: after := by
  rw [Regex.searchFrom_iff]
  constructor
  · rintro ⟨u, v, rfl, hne⟩
    obtain ⟨d, hd⟩ := List.exists_mem_of_ne_nil _ hne
    obtain ⟨w, hw, rest, rfl, -⟩ := (h _ _ _).mp hd
    exact ⟨w, hw, u, rest, by rw [List.append_assoc]⟩
  · rintro ⟨w, hw, u, rest, rfl⟩
    refine ⟨u, w ++ rest, by rw [List.append_assoc], ?_⟩
    exact List.ne_nil_of_mem ((h _ _ _).mpr ⟨w, hw, rest, rfl, rfl⟩)

theorem run_boundary_seq (r : Regex) (before after : List Char) :
    (Regex.seq .boundary r).run classes ⟨before, after⟩ =
      if before.head?.any classes.isWord = after.head?.any classes.isWord then []
      else r.run classes ⟨before, after⟩ := by
  rw [run_seq, run_boundary]
  by_cases h : before.head?.any classes.isWord = after.head?.any classes.isWord
  · rw [if_pos h, if_pos h, List.flatMap_nil]
  · rw [if_neg h, if_neg h, List.flatMap_cons, List.flatMap_nil, List.append_nil]

theorem longest_boundary_seq (r : Regex) (before after : List Char) :
    (Regex.seq .boundary r).longest classes before after =
      if before.head?.any classes.isWord = after.head?.any classes.isWord then 0
      else r.longest classes before after := by
  rw [longest, run_boundary_seq]
  by_cases h : before.head?.any classes.isWord = after.head?.any classes.isWord
  · rw [if_pos h, if_pos h]
    rfl
  · rw [if_neg h, if_neg h]
    rfl

theorem longest_eq_zero_of_run (h : r.run classes ⟨before, after⟩ = []) :
    r.longest classes before after = 0 := by
  rw [longest, h]
  rfl

theorem Recognizes.longest_eq_zero_iff (h : Recognizes classes r L) (hempty : [] ∉ L) :
    r.longest classes before after = 0 ↔ ∀ w ∈ L, ¬w <+: after := by
  constructor
  · rintro hzero w hw ⟨rest, rfl⟩
    have hge := h.longest_ge before rest hw
    rw [hzero, Nat.le_zero, List.length_eq_zero_iff] at hge
    exact hempty (hge ▸ hw)
  · intro hnone
    apply longest_eq_zero_of_run
    by_contra hne
    obtain ⟨d, hd⟩ := List.exists_mem_of_ne_nil _ hne
    obtain ⟨w, hw, rest, rfl, -⟩ := (h _ _ _).mp hd
    exact hnone w hw (List.prefix_append w rest)

/-- A text in which nothing is found stays as it is. -/
theorem sub_eq_self {replacement text : List Char} (h : searchFrom classes r [] text = false) :
    r.sub classes replacement text = text := by
  apply substitute_eq_self
  rintro q v rfl -
  apply longest_eq_zero_of_run
  by_contra hne
  rw [Bool.eq_false_iff] at h
  exact h (Regex.searchFrom_iff.mpr ⟨q, v, rfl, hne⟩)

section

variable {b e : Char} {body text : List Char}

/-- A word without the end letters of the replacement is not new. -/
theorem infix_of_infix_sub {w : List Char} (hw : w ≠ []) (hb : b ∉ w) (he : e ∉ w)
    (hbody : ¬w <:+: body) (h : w <:+: r.sub classes (b :: (body ++ [e])) text) : w <:+: text := by
  rcases infix_substitute r.longest_le hw hb he h with hinside | ⟨q, rest, rfl, -⟩
  · exact absurd hinside hbody
  · exact ⟨q, rest, by rw [List.append_assoc]⟩

/-- No word of the expression itself is left. -/
theorem Recognizes.not_infix_sub (h : Recognizes classes r L) (hempty : [] ∉ L) {w : List Char}
    (hw : w ∈ L) (hb : b ∉ w) (he : e ∉ w) (hbody : ¬w <:+: body) :
    ¬w <:+: r.sub classes (b :: (body ++ [e])) text := by
  intro hinfix
  have hne : w ≠ [] := fun hnil => hempty (hnil ▸ hw)
  rcases infix_substitute r.longest_le hne hb he hinfix with hinside | ⟨q, rest, -, hzero⟩
  · exact hbody hinside
  · exact (h.longest_eq_zero_iff hempty).mp hzero w hw (List.prefix_append w rest)

end

end Regex

end AgenticGovernance.Support

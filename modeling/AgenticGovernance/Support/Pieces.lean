import Mathlib
import AgenticGovernance.Support.Substitution

/-!
# Searching a text in pieces

A text is cut at marks, and an expression is searched in the pieces between them.
`Splits classes z r` says that no match of `r` reaches over the mark `z`: a search of
`s ++ z :: t` finds what the searches of `s` and `t` find.  `splits_of_stays` is a test for it
that can be evaluated.
-/

namespace AgenticGovernance.Support

/-- The same position in a text with more on both sides; `left` is listed backwards. -/
def Cursor.within (left right : List Char) (c : Cursor) : Cursor :=
  ⟨c.before ++ left, c.after ++ right⟩

/-- Nothing, or the mark first. -/
def OpensWith (z : Char) (s : List Char) : Prop := ∀ x ∈ s.head?, x = z

/-- The classes with `z` in neither. -/
def CharClasses.without (classes : CharClasses) (z : Char) : CharClasses where
  isDigit c := c ≠ z && classes.isDigit c
  isWord c := c ≠ z && classes.isWord c

theorem CharClasses.without_eq {classes : CharClasses} {z : Char}
    (hdigit : classes.isDigit z = false) (hword : classes.isWord z = false) :
    classes.without z = classes := by
  have hclass : ∀ p : Char → Bool, p z = false → (fun c => c ≠ z && p c : Char → Bool) = p := by
    intro p hz
    funext c
    by_cases hc : c = z
    · simp [hc, hz]
    · simp [hc]
  rw [without, hclass _ hdigit, hclass _ hword]

namespace Regex

/-- A search finds a match in the text. -/
def Found (classes : CharClasses) (r : Regex) (text : List Char) : Prop :=
  r.searchFrom classes [] text = true

/-- A match starts at the cursor. -/
def Matches (classes : CharClasses) (r : Regex) (c : Cursor) : Prop :=
  ∃ d, d ∈ run classes r c

section Matching

variable {classes : CharClasses} {r s : Regex} {c d : Cursor} {text : List Char}

theorem found_iff : Found classes r text ↔
    ∃ c : Cursor, text = c.before.reverse ++ c.after ∧ Matches classes r c := by
  rw [Found, searchFrom_iff]
  constructor
  · rintro ⟨passed, rest, rfl, hrun⟩
    obtain ⟨d, hd⟩ := List.exists_mem_of_ne_nil _ hrun
    rw [List.append_nil] at hd
    exact ⟨⟨passed.reverse, rest⟩, by simp, d, hd⟩
  · rintro ⟨c, rfl, d, hd⟩
    refine ⟨c.before.reverse, c.after, rfl, ?_⟩
    rw [List.reverse_reverse, List.append_nil]
    exact List.ne_nil_of_mem hd

theorem matches_seq : Matches classes (.seq r s) c ↔
    ∃ m ∈ run classes r c, Matches classes s m := by
  simp only [Matches, mem_run_seq]
  constructor
  · rintro ⟨d, m, hm, hd⟩
    exact ⟨m, hm, d, hd⟩
  · rintro ⟨m, hm, d, hd⟩
    exact ⟨d, m, hm, hd⟩

theorem mem_run_lit {word : String} : d ∈ run classes (lit word) c ↔
    ∃ rest, c.after = word.toList ++ rest ∧ d = ⟨word.toList.reverse ++ c.before, rest⟩ := by
  rw [recognizes_lit word c.before c.after d]
  constructor
  · rintro ⟨w, rfl, hrest⟩
    exact hrest
  · exact fun hrest => ⟨word.toList, rfl, hrest⟩

/-- `[p]+` -/
theorem mem_run_plus {p : Char → Bool} : d ∈ run classes (.repeats (chars p) 1 none) c ↔
    ∃ word rest, word ≠ [] ∧ (∀ x ∈ word, p x = true) ∧ c.after = word ++ rest ∧
      d = ⟨word.reverse ++ c.before, rest⟩ := by
  rw [recognizes_repeats (by simp) c.before c.after d]
  constructor
  · rintro ⟨word, hword, rest, hafter, hd⟩
    obtain ⟨hclass, hleast, -⟩ := mem_stretch.mp hword
    exact ⟨word, rest, List.ne_nil_of_length_pos hleast, hclass, hafter, hd⟩
  · rintro ⟨word, rest, hne, hclass, hafter, hd⟩
    have hword : word ∈ stretch p 1 none :=
      mem_stretch.mpr ⟨hclass, List.length_pos_of_ne_nil hne, by simp⟩
    exact ⟨word, hword, rest, hafter, hd⟩

end Matching

/-! ## Matches in a piece -/

section Pieces

variable {classes : CharClasses} {r s : Regex} {left right : List Char} {z : Char}

/-- The expression matches in a text what it matches with more text on both sides. -/
def Follows (classes : CharClasses) (left right : List Char) (r : Regex) : Prop :=
  ∀ c d, d ∈ run classes r (c.within left right) ↔
    ∃ d' ∈ run classes r c, d'.within left right = d

theorem Follows.matches_iff (hr : Follows classes left right r) (c : Cursor) :
    Matches classes r (c.within left right) ↔ Matches classes r c := by
  constructor
  · rintro ⟨d, hd⟩
    obtain ⟨d', hd', -⟩ := (hr c d).mp hd
    exact ⟨d', hd'⟩
  · rintro ⟨d', hd'⟩
    exact ⟨d'.within left right, (hr c _).mpr ⟨d', hd', rfl⟩⟩

theorem follows_empty : Follows classes left right .empty := by
  intro c d
  simp [run_empty, eq_comm]

theorem follows_set {p : CharClasses → Char → Bool} (hright : OpensWith z right)
    (hz : p classes z = false) : Follows classes left right (.set p) := by
  intro c d
  obtain ⟨before, after⟩ := c
  simp only [mem_run_set, Cursor.within]
  constructor
  · rintro ⟨x, rest, hafter, hx, rfl⟩
    cases after with
    | nil =>
        -- the match would begin with the mark
        rw [List.nil_append] at hafter
        rw [hright x (by simp [hafter]), hz] at hx
        exact Bool.noConfusion hx
    | cons y after =>
        obtain ⟨rfl, rfl⟩ := List.cons.inj hafter
        exact ⟨⟨y :: before, after⟩, ⟨y, after, rfl, hx, rfl⟩, rfl⟩
  · rintro ⟨d', ⟨x, rest, rfl, hx, rfl⟩, rfl⟩
    exact ⟨x, rest ++ right, rfl, hx, rfl⟩

theorem Follows.seq (hr : Follows classes left right r) (hs : Follows classes left right s) :
    Follows classes left right (.seq r s) := by
  intro c d
  simp only [mem_run_seq]
  constructor
  · rintro ⟨m, hm, hd⟩
    obtain ⟨c', hc', rfl⟩ := (hr c m).mp hm
    obtain ⟨c'', hc'', heq⟩ := (hs c' d).mp hd
    exact ⟨c'', ⟨c', hc', hc''⟩, heq⟩
  · rintro ⟨c'', ⟨c', hc', hc''⟩, heq⟩
    exact ⟨c'.within left right, (hr c _).mpr ⟨c', hc', rfl⟩, (hs c' d).mpr ⟨c'', hc'', heq⟩⟩

theorem Follows.alt (hr : Follows classes left right r) (hs : Follows classes left right s) :
    Follows classes left right (.alt r s) := by
  intro c d
  simp only [mem_run_alt, hr c d, hs c d]
  constructor
  · rintro (⟨c', hc', heq⟩ | ⟨c', hc', heq⟩)
    · exact ⟨c', Or.inl hc', heq⟩
    · exact ⟨c', Or.inr hc', heq⟩
  · rintro ⟨c', hc' | hc', heq⟩
    · exact Or.inl ⟨c', hc', heq⟩
    · exact Or.inr ⟨c', hc', heq⟩

theorem Follows.repeatExactly (hr : Follows classes left right r) (n : ℕ) (c d : Cursor) :
    d ∈ repeatExactly (run classes r) n (c.within left right) ↔
      ∃ d' ∈ Support.repeatExactly (run classes r) n c, d'.within left right = d := by
  induction n generalizing c with
  | zero => simp [Support.repeatExactly, eq_comm]
  | succ n ih =>
      simp only [mem_repeatExactly_succ]
      constructor
      · rintro ⟨m, hm, hd⟩
        obtain ⟨c', hc', rfl⟩ := (hr c m).mp hm
        obtain ⟨c'', hc'', heq⟩ := (ih c').mp hd
        exact ⟨c'', ⟨c', hc', hc''⟩, heq⟩
      · rintro ⟨c'', ⟨c', hc', hc''⟩, heq⟩
        exact ⟨c'.within left right, (hr c _).mpr ⟨c', hc', rfl⟩, (ih c').mpr ⟨c'', hc'', heq⟩⟩

theorem Follows.repeats {least : ℕ} {most : Option ℕ} (hr : Follows classes left right r)
    (hnullable : most = none → r.nullable = false) :
    Follows classes left right (.repeats r least most) := by
  intro c d
  simp only [mem_run_repeats hnullable]
  constructor
  · rintro ⟨m, hm, k, hk, hd⟩
    obtain ⟨c', hc', rfl⟩ := (hr.repeatExactly least c m).mp hm
    obtain ⟨c'', hc'', heq⟩ := (hr.repeatExactly k c' d).mp hd
    exact ⟨c'', ⟨c', hc', k, hk, hc''⟩, heq⟩
  · rintro ⟨c'', ⟨c', hc', k, hk, hc''⟩, heq⟩
    exact ⟨c'.within left right, (hr.repeatExactly least c _).mpr ⟨c', hc', rfl⟩, k, hk,
      (hr.repeatExactly k c' d).mpr ⟨c'', hc'', heq⟩⟩

/-- An assertion of the same truth on both sides. -/
theorem follows_assertion {A : Cursor → Prop}
    (hrun : ∀ c d, d ∈ run classes r c ↔ A c ∧ d = c)
    (hA : ∀ c : Cursor, A (c.within left right) ↔ A c) : Follows classes left right r := by
  intro c d
  rw [hrun, hA]
  constructor
  · rintro ⟨hc, rfl⟩
    exact ⟨c, (hrun c c).mpr ⟨hc, rfl⟩, rfl⟩
  · rintro ⟨d', hd', rfl⟩
    obtain ⟨hc, rfl⟩ := (hrun c d').mp hd'
    exact ⟨hc, rfl⟩

theorem any_head?_append {p : Char → Bool} {text more : List Char} (hmore : OpensWith z more)
    (hz : p z = false) : (text ++ more).head?.any p = text.head?.any p := by
  cases text with
  | nil =>
      cases more with
      | nil => rfl
      | cons x more =>
          rw [hmore x (by simp)]
          simpa using hz
  | cons x text => rfl

theorem follows_boundary (hleft : OpensWith z left) (hright : OpensWith z right)
    (hz : classes.isWord z = false) : Follows classes left right .boundary := by
  apply follows_assertion (fun c d => mem_run_boundary)
  intro c
  rw [Cursor.within, any_head?_append hleft hz, any_head?_append hright hz]

theorem mem_run_notAhead {c d : Cursor} :
    d ∈ run classes (.notAhead r) c ↔ ¬ Matches classes r c ∧ d = c := by
  rw [run]
  have hempty : (run classes r c).isEmpty = true ↔ ¬ Matches classes r c := by
    rw [List.isEmpty_iff, List.eq_nil_iff_forall_not_mem, Matches, not_exists]
  by_cases hmatch : Matches classes r c
  · rw [if_neg fun h => hempty.mp h hmatch]
    simp [hmatch]
  · rw [if_pos (hempty.mpr hmatch)]
    simp [hmatch]

theorem Follows.notAhead (hr : Follows classes left right r) :
    Follows classes left right (.notAhead r) := by
  apply follows_assertion (fun c d => mem_run_notAhead)
  intro c
  rw [hr.matches_iff c]

/-- `(?<![p])` -/
theorem mem_run_notBehind_set {p : CharClasses → Char → Bool} {c d : Cursor} :
    d ∈ run classes (.notBehind 1 (.set p)) c ↔
      c.before.head?.any (p classes) = false ∧ d = c := by
  obtain ⟨before, after⟩ := c
  cases before with
  | nil => simp [run]
  | cons x before =>
      by_cases hx : p classes x
      · simp [run, hx]
      · simp [run, hx]

theorem follows_notBehind_set {p : CharClasses → Char → Bool} (hleft : OpensWith z left)
    (hz : p classes z = false) : Follows classes left right (.notBehind 1 (.set p)) := by
  apply follows_assertion (fun c d => mem_run_notBehind_set)
  intro c
  rw [Cursor.within, any_head?_append hleft hz]

/-- The word stands in front of the cursor, at the start of the text or after a character that
is no word character. -/
def BehindWord (classes : CharClasses) (word : List Char) (c : Cursor) : Prop :=
  ∃ rest, c.before = word.reverse ++ rest ∧ rest.head?.any classes.isWord = false

/-- A match of the word with its left end that ends at the cursor. -/
theorem behindWord_iff {word : String} {before after : List Char}
    (hword : word.toList.head?.any classes.isWord = true) :
    BehindWord classes word.toList ⟨before, after⟩ ↔
      ∃ e ∈ run classes (.seq (.alt .start .boundary) (lit word))
          ⟨before.drop word.length, (before.take word.length).reverse ++ after⟩,
        e.after.length = after.length := by
  have hlength : word.length = word.toList.reverse.length := by
    rw [List.length_reverse, String.length_toList]
  have hhead : ∀ more, (word.toList ++ more).head?.any classes.isWord = true := by
    intro more
    obtain ⟨x, hx, hclass⟩ := (Option.any_eq_true _ _).mp hword
    obtain ⟨rest, hrest⟩ := List.head?_eq_some_iff.mp hx
    rw [hrest]
    exact hclass
  constructor
  · rintro ⟨rest, hbefore, hrest⟩
    change before = word.toList.reverse ++ rest at hbefore
    rw [hbefore, hlength, List.drop_left, List.take_left, List.reverse_reverse]
    refine ⟨⟨word.toList.reverse ++ rest, after⟩, ?_, rfl⟩
    refine mem_run_seq.mpr ⟨⟨rest, word.toList ++ after⟩, ?_, mem_run_lit.mpr ⟨after, rfl, rfl⟩⟩
    refine mem_run_alt.mpr (Or.inr (mem_run_boundary.mpr ⟨?_, rfl⟩))
    rw [hrest, hhead]
    exact Bool.noConfusion
  · rintro ⟨e, he, hend⟩
    obtain ⟨m, hm, he⟩ := mem_run_seq.mp he
    obtain ⟨rest, hrest, rfl⟩ := mem_run_lit.mp he
    have hstart : m = ⟨before.drop word.length, (before.take word.length).reverse ++ after⟩ :=
      (mem_run_alt.mp hm).elim (fun h => (mem_run_start.mp h).2)
        fun h => (mem_run_boundary.mp h).2
    rw [hstart] at hrest hm
    obtain ⟨hfront, rfl⟩ := List.append_inj' hrest hend.symm
    refine ⟨before.drop word.length, ?_, ?_⟩
    · rw [← hfront, List.reverse_reverse, List.take_append_drop]
    · rcases mem_run_alt.mp hm with h | h
      · have hnone : before.drop word.length = [] := (mem_run_start.mp h).1
        rw [hnone]
        rfl
      · have hboundary := (mem_run_boundary.mp h).1
        rw [hfront, hhead] at hboundary
        simpa using hboundary

/-- `(?<!(?:^|\b)word)` -/
theorem mem_run_notBehind_word {word : String} {c d : Cursor}
    (hword : word.toList.head?.any classes.isWord = true) :
    d ∈ run classes (.notBehind word.length (.seq (.alt .start .boundary) (lit word))) c ↔
      ¬ BehindWord classes word.toList c ∧ d = c := by
  obtain ⟨before, after⟩ := c
  rw [run]
  by_cases hshort : before.length < word.length
  · have hnot : ¬ BehindWord classes word.toList ⟨before, after⟩ := by
      rintro ⟨rest, hbefore, -⟩
      have hlength := congrArg List.length hbefore
      rw [List.length_append, List.length_reverse, String.length_toList] at hlength
      change before.length = _ at hlength
      omega
    rw [if_pos hshort]
    simp [hnot]
  · have hany : ∀ {e : Cursor} {l : List Cursor}, (∃ d ∈ l, d.after.length = e.after.length) ↔
        (l.any fun d => d.after.length = e.after.length) = true := by
      simp
    rw [if_neg hshort, behindWord_iff hword, hany (e := ⟨before, after⟩)]
    dsimp only
    split
    · rename_i hmatch
      simp [hmatch]
    · rename_i hmatch
      simp [hmatch]

theorem follows_notBehind_word {word : String} (hleft : OpensWith z left)
    (hword : word.toList.head?.any classes.isWord = true) (hz : classes.isWord z = false)
    (hmem : z ∉ word.toList) :
    Follows classes left right
      (.notBehind word.length (.seq (.alt .start .boundary) (lit word))) := by
  apply follows_assertion (fun c d => mem_run_notBehind_word hword)
  intro c
  apply not_congr
  constructor
  · rintro ⟨rest, hbefore, hrest⟩
    rcases List.append_eq_append_iff.mp hbefore with ⟨more, hword', hmore⟩ | ⟨more, hc, hrest'⟩
    · -- the word would reach over the mark
      cases more with
      | nil =>
          rw [List.append_nil] at hword'
          rw [List.nil_append] at hmore
          refine ⟨[], by rw [hword', List.append_nil], rfl⟩
      | cons x more =>
          have hx : x = z := hleft x (by rw [hmore]; rfl)
          refine absurd (List.mem_reverse.mp ?_) hmem
          rw [hword', ← hx]
          simp
    · refine ⟨more, hc, ?_⟩
      rw [hrest', any_head?_append hleft hz] at hrest
      exact hrest
  · rintro ⟨rest, hbefore, hrest⟩
    refine ⟨rest ++ left, ?_, ?_⟩
    · rw [Cursor.within, hbefore, List.append_assoc]
    · rw [any_head?_append hleft hz, hrest]

/-- No class has the mark, and no assertion sees it. -/
def stays (classes : CharClasses) (z : Char) : Regex → Bool
  | empty => true
  | set p => !p classes z
  | seq r s => stays classes z r && stays classes z s
  | alt r s => stays classes z r && stays classes z s
  | repeats r _ most => stays classes z r && (most.isSome || !r.nullable)
  | boundary => !classes.isWord z
  | notAhead r => stays classes z r
  | start => false
  | notBehind _ _ => false

theorem follows_of_stays (hr : stays classes z r = true) (hleft : OpensWith z left)
    (hright : OpensWith z right) : Follows classes left right r := by
  induction r with
  | empty => exact follows_empty
  | set p => exact follows_set hright (by simpa [stays] using hr)
  | seq r s ihr ihs =>
      rw [stays, Bool.and_eq_true] at hr
      exact (ihr hr.1).seq (ihs hr.2)
  | alt r s ihr ihs =>
      rw [stays, Bool.and_eq_true] at hr
      exact (ihr hr.1).alt (ihs hr.2)
  | repeats r least most ih =>
      rw [stays, Bool.and_eq_true] at hr
      exact (ih hr.1).repeats fun hnone => by simpa [hnone] using hr.2
  | boundary => exact follows_boundary hleft hright (by simpa [stays] using hr)
  | notAhead r ih => exact (ih hr).notAhead
  | start => exact Bool.noConfusion hr
  | notBehind width r => exact Bool.noConfusion hr

/-! ## Two pieces -/

/-- What is found in one of two pieces is found in the text. -/
def Spreads (classes : CharClasses) (z : Char) (r : Regex) : Prop :=
  ∀ s t, Found classes r s ∨ Found classes r t → Found classes r (s ++ z :: t)

/-- What is found in the text is found in one of the two pieces. -/
def Splits (classes : CharClasses) (z : Char) (r : Regex) : Prop :=
  ∀ s t, Found classes r (s ++ z :: t) ↔ Found classes r s ∨ Found classes r t

theorem Splits.spreads (hr : Splits classes z r) : Spreads classes z r := fun s t => (hr s t).mpr

/-- A position is in the first piece or in the second. -/
theorem position_iff {s t : List Char} {c : Cursor} :
    s ++ z :: t = c.before.reverse ++ c.after ↔
      (∃ d : Cursor, s = d.before.reverse ++ d.after ∧ c = d.within [] (z :: t)) ∨
        ∃ d : Cursor, t = d.before.reverse ++ d.after ∧ c = d.within (z :: s.reverse) [] := by
  obtain ⟨before, after⟩ := c
  constructor
  · intro h
    rcases List.append_eq_append_iff.mp h with ⟨more, hbefore, hmore⟩ | ⟨more, hs, hafter⟩
    · cases more with
      | nil =>
          refine Or.inl ⟨⟨before, []⟩, ?_, ?_⟩
          · simpa using hbefore.symm
          · simpa [Cursor.within] using hmore.symm
      | cons x more =>
          obtain ⟨rfl, rfl⟩ := List.cons.inj hmore
          refine Or.inr ⟨⟨more.reverse, after⟩, by simp, ?_⟩
          have hreversed := congrArg List.reverse hbefore
          simpa [Cursor.within] using hreversed
    · change after = more ++ z :: t at hafter
      exact Or.inl ⟨⟨before, more⟩, hs, by simp [Cursor.within, hafter]⟩
  · rintro (⟨d, rfl, h⟩ | ⟨d, rfl, h⟩)
    · obtain ⟨rfl, rfl⟩ := Cursor.mk.inj h
      simp
    · obtain ⟨rfl, rfl⟩ := Cursor.mk.inj h
      simp

theorem opensWith_nil : OpensWith z [] := by simp [OpensWith]

theorem opensWith_cons {s : List Char} : OpensWith z (z :: s) := by simp [OpensWith]

/-- Where a match is found at the positions `P`, and `P` does not see what is beyond a mark. -/
theorem splits_of_positions {P : Cursor → Prop}
    (hfound : ∀ text, Found classes r text ↔
      ∃ c : Cursor, text = c.before.reverse ++ c.after ∧ P c)
    (hP : ∀ left right, OpensWith z left → OpensWith z right →
      ∀ c : Cursor, P (c.within left right) ↔ P c) : Splits classes z r := by
  intro s t
  simp only [hfound, position_iff]
  have hfirst := hP [] (z :: t) opensWith_nil opensWith_cons
  have hsecond := hP (z :: s.reverse) [] opensWith_cons opensWith_nil
  constructor
  · rintro ⟨c, ⟨d, hd, rfl⟩ | ⟨d, hd, rfl⟩, hc⟩
    · exact Or.inl ⟨d, hd, (hfirst d).mp hc⟩
    · exact Or.inr ⟨d, hd, (hsecond d).mp hc⟩
  · rintro (⟨d, hd, hc⟩ | ⟨d, hd, hc⟩)
    · exact ⟨_, Or.inl ⟨d, hd, rfl⟩, (hfirst d).mpr hc⟩
    · exact ⟨_, Or.inr ⟨d, hd, rfl⟩, (hsecond d).mpr hc⟩

theorem spreads_of_matches
    (hr : ∀ left right, OpensWith z left → OpensWith z right → ∀ c : Cursor,
      Matches classes r c → Matches classes r (c.within left right)) : Spreads classes z r := by
  intro s t
  simp only [found_iff, position_iff]
  rintro (⟨d, hd, hmatch⟩ | ⟨d, hd, hmatch⟩)
  · exact ⟨_, Or.inl ⟨d, hd, rfl⟩, hr [] (z :: t) opensWith_nil opensWith_cons d hmatch⟩
  · exact ⟨_, Or.inr ⟨d, hd, rfl⟩, hr (z :: s.reverse) [] opensWith_cons opensWith_nil d hmatch⟩

theorem splits_of_follows
    (hr : ∀ left right, OpensWith z left → OpensWith z right → Follows classes left right r) :
    Splits classes z r :=
  splits_of_positions (fun _ => found_iff) fun left right hleft hright =>
    (hr left right hleft hright).matches_iff

theorem splits_of_stays (hr : stays classes z r = true) : Splits classes z r :=
  splits_of_follows fun _ _ => follows_of_stays hr

/-- `(?:^|[p])r` is found where `r` matches, unless another character is in front. -/
theorem found_after_iff {p : CharClasses → Char → Bool} {text : List Char} :
    Found classes (.seq (.alt .start (.set p)) r) text ↔
      ∃ c : Cursor, text = c.before.reverse ++ c.after ∧
        c.before.head?.any (fun x => !p classes x) = false ∧ Matches classes r c := by
  rw [found_iff]
  simp only [matches_seq]
  constructor
  · rintro ⟨c, rfl, m, hm, hr⟩
    rcases mem_run_alt.mp hm with h | h
    · obtain ⟨hbefore, rfl⟩ := mem_run_start.mp h
      exact ⟨m, rfl, by rw [hbefore]; rfl, hr⟩
    · obtain ⟨x, rest, hafter, hx, rfl⟩ := mem_run_set.mp h
      exact ⟨⟨x :: c.before, rest⟩, by simp [hafter], by simp [hx], hr⟩
  · rintro ⟨⟨before, after⟩, rfl, hbefore, hr⟩
    cases before with
    | nil =>
        refine ⟨⟨[], after⟩, rfl, ⟨[], after⟩, mem_run_alt.mpr (Or.inl ?_), hr⟩
        exact mem_run_start.mpr ⟨rfl, rfl⟩
    | cons x before =>
        have hx : p classes x = true := by simpa using hbefore
        refine ⟨⟨before, x :: after⟩, by simp, _, mem_run_alt.mpr (Or.inr ?_), hr⟩
        exact mem_run_set.mpr ⟨x, after, rfl, hx, rfl⟩

theorem splits_after {p : CharClasses → Char → Bool} (hz : p classes z = true)
    (hr : stays classes z r = true) : Splits classes z (.seq (.alt .start (.set p)) r) := by
  apply splits_of_positions (fun _ => found_after_iff)
  intro left right hleft hright c
  rw [(follows_of_stays hr hleft hright).matches_iff, Cursor.within,
    any_head?_append hleft (by simp [hz])]

end Pieces

end Regex

/-! ## Many pieces -/

/-- A text that is cut: what comes before the first mark, and each mark with what follows it. -/
structure Pieces where
  first : List Char
  rest : List (Char × List Char)

namespace Pieces

open Regex

def join (P : Pieces) : List Char := P.first ++ P.rest.flatMap fun x => x.1 :: x.2

def texts (P : Pieces) : List (List Char) := P.first :: P.rest.map Prod.snd

def map (f : List Char → List Char) (P : Pieces) : Pieces :=
  ⟨f P.first, P.rest.map fun x => (x.1, f x.2)⟩

/-- The text is cut at the characters of a class. -/
def cut (p : Char → Bool) : List Char → Pieces
  | [] => ⟨[], []⟩
  | c :: s =>
      if p c then ⟨[], (c, (cut p s).first) :: (cut p s).rest⟩
      else ⟨c :: (cut p s).first, (cut p s).rest⟩

variable {p : Char → Bool} {f : List Char → List Char} {P : Pieces} {s : List Char}
  {classes : CharClasses} {r : Regex}

theorem join_cons {x : Char × List Char} {rest : List (Char × List Char)} :
    join ⟨s, x :: rest⟩ = s ++ x.1 :: join ⟨x.2, rest⟩ := by
  simp [join]

theorem texts_map : (P.map f).texts = P.texts.map f := by
  simp [texts, map]

theorem join_cut (s : List Char) : (cut p s).join = s := by
  induction s with
  | nil => rfl
  | cons c s ih =>
      rw [cut]
      split
      · rw [join_cons, List.nil_append]
        exact congrArg (c :: ·) ih
      · exact congrArg (c :: ·) ih

theorem mark_of_mem_cut (s : List Char) : ∀ x ∈ (cut p s).rest, p x.1 = true := by
  induction s with
  | nil => simp [cut]
  | cons c s ih =>
      rw [cut]
      split
      · rename_i hc
        exact List.forall_mem_cons.mpr ⟨hc, ih⟩
      · exact ih

/-- A function that keeps the marks maps the pieces. -/
theorem join_map (hf : ∀ x ∈ P.rest, ∀ s t, f (s ++ x.1 :: t) = f s ++ x.1 :: f t) :
    (P.map f).join = f P.join := by
  obtain ⟨first, rest⟩ := P
  induction rest generalizing first with
  | nil => simp [map, join]
  | cons x rest ih =>
      obtain ⟨hx, hrest⟩ := List.forall_mem_cons.mp hf
      rw [join_cons, hx]
      rw [map, List.map_cons, join_cons]
      exact congrArg (fun t => f first ++ x.1 :: t) (ih x.2 hrest)

theorem found_join_of_mem (hr : ∀ x ∈ P.rest, Spreads classes x.1 r) (hs : s ∈ P.texts)
    (hfound : Found classes r s) : Found classes r P.join := by
  obtain ⟨first, rest⟩ := P
  induction rest generalizing first with
  | nil =>
      rw [join, List.flatMap_nil, List.append_nil]
      rwa [← List.mem_singleton.mp hs]
  | cons x rest ih =>
      obtain ⟨hx, hrest⟩ := List.forall_mem_cons.mp hr
      rw [join_cons]
      rcases List.mem_cons.mp hs with rfl | hs
      · exact hx _ _ (Or.inl hfound)
      · exact hx _ _ (Or.inr (ih x.2 hrest hs))

theorem found_join_iff (hr : ∀ x ∈ P.rest, Splits classes x.1 r) :
    Found classes r P.join ↔ ∃ s ∈ P.texts, Found classes r s := by
  constructor
  · obtain ⟨first, rest⟩ := P
    induction rest generalizing first with
    | nil =>
        intro h
        rw [join, List.flatMap_nil, List.append_nil] at h
        exact ⟨first, List.mem_singleton_self _, h⟩
    | cons x rest ih =>
        obtain ⟨hx, hrest⟩ := List.forall_mem_cons.mp hr
        rw [join_cons, hx]
        rintro (h | h)
        · exact ⟨first, List.mem_cons_self, h⟩
        · obtain ⟨s, hs, hfound⟩ := ih x.2 hrest h
          exact ⟨s, List.mem_cons_of_mem _ hs, hfound⟩
  · rintro ⟨s, hs, hfound⟩
    exact found_join_of_mem (fun x hx => (hr x hx).spreads) hs hfound

end Pieces

end AgenticGovernance.Support

import Mathlib
import AgenticGovernance.Audit.Corrections
import AgenticGovernance.Support.Pieces
import AgenticGovernance.Support.Segments

/-!
# The notes that are stored

The constructor of an event spells backslashes, tabs and line ends and drops the other control
characters, after the note has been checked.  This module says which notes become forbidden by
it.

A note is cut at the characters that are spelled.  In the NFKC form of the stored note the
pieces stand between backslashes, and all but three of the forbidden patterns are found inside
a piece.
-/

namespace AgenticGovernance.Audit

open Support Regex NotePattern

/-! ## Patterns and backslashes -/

/-- `(?:^|[^A-Za-z0-9])/?home/` -/
def homePattern : Regex :=
  .seq (.alt .start nonAlphanumeric)
    (sequence [optional (char '/'), litIgnoringCase "home/"])

/-- A raw commit hash. -/
def hashPattern : Regex :=
  sequence [.notBehind 1 hexDigit, notBehindToken "sha256-", notBehindToken "SHA256-",
    .repeats hexDigit 7 (some 40), .notAhead hexDigit]

/-- `\b[A-Za-z]:\\` -/
def drivePattern : Regex := sequence [.boundary, chars Char.isAlpha, lit ":\\"]

def isNameChar (c : Char) : Bool := c.isAlphanum || c ∈ "._-".toList

/-- `\\\\[A-Za-z0-9._-]+\\` -/
def hostPattern : Regex :=
  sequence [lit "\\\\", .repeats (chars isNameChar) 1 none, lit "\\"]

/-- `<[^>]+>` -/
def tagPattern : Regex :=
  sequence [char '<', .repeats (chars fun c => c ≠ '>') 1 none, char '>']

/-- The patterns that no backslash and no tab is part of, and the other five. -/
theorem forbidden_cases (classes : CharClasses) {p : NotePattern}
    (hp : p ∈ forbiddenNotePatterns) :
    (stays (classes.without '\\') '\\' p.regex = true ∧
      stays (classes.without '\t') '\t' p.regex = true) ∨
    p.regex = homePattern ∨ p.regex = hashPattern ∨ p.regex = drivePattern ∨
      p.regex = hostPattern ∨ p.regex = tagPattern := by
  revert p
  simp only [forbiddenNotePatterns, List.forall_mem_cons]
  exact ⟨Or.inl ⟨rfl, rfl⟩, Or.inl ⟨rfl, rfl⟩, Or.inr (Or.inl rfl), Or.inl ⟨rfl, rfl⟩,
    Or.inl ⟨rfl, rfl⟩, Or.inl ⟨rfl, rfl⟩, Or.inl ⟨rfl, rfl⟩, Or.inl ⟨rfl, rfl⟩,
    Or.inr (Or.inr (Or.inr (Or.inl rfl))),
    Or.inr (Or.inr (Or.inr (Or.inr (Or.inl rfl)))), Or.inl ⟨rfl, rfl⟩,
    Or.inl ⟨rfl, rfl⟩, Or.inl ⟨rfl, rfl⟩, Or.inl ⟨rfl, rfl⟩, Or.inl ⟨rfl, rfl⟩,
    Or.inl ⟨rfl, rfl⟩, Or.inl ⟨rfl, rfl⟩, Or.inr (Or.inr (Or.inl rfl)),
    Or.inl ⟨rfl, rfl⟩, Or.inl ⟨rfl, rfl⟩, Or.inl ⟨rfl, rfl⟩, Or.inl ⟨rfl, rfl⟩,
    Or.inl ⟨rfl, rfl⟩, Or.inr (Or.inr (Or.inr (Or.inr (Or.inr rfl)))),
    List.forall_mem_nil _⟩

section Patterns

variable {rt : CorrectionRuntime} {z : Char} {s t text : List Char}

/-- Backslashes and tabs are in no class. -/
theorem without_cut (hz : z = '\\' ∨ z = '\t') : rt.classes.without z = rt.classes := by
  have hascii : z.toNat < 128 := by rcases hz with rfl | rfl <;> decide
  apply CharClasses.without_eq
  · rw [rt.digits_ascii z hascii]
    rcases hz with rfl | rfl <;> rfl
  · rw [rt.classes_ascii z hascii]
    rcases hz with rfl | rfl <;> rfl

theorem isWord_cut (hz : z = '\\' ∨ z = '\t') : rt.classes.isWord z = false := by
  rw [← without_cut hz]
  simp [CharClasses.without]

theorem splits_hash (hz : z = '\\' ∨ z = '\t') : Splits rt.classes z hashPattern := by
  have hdigit : ∀ classes, (fun c => c.isDigit || c ∈ "abcdefABCDEF".toList : Char → Bool) z =
      false ∧ stays classes z hexDigit = true ∧
        stays classes z (.repeats hexDigit 7 (some 40)) = true := by
    rcases hz with rfl | rfl
    · exact fun _ => ⟨rfl, rfl, rfl⟩
    · exact fun _ => ⟨rfl, rfl, rfl⟩
  have hword : ∀ x : Char, x = 's' ∨ x = 'S' → rt.classes.isWord x = true := by
    rintro x (rfl | rfl)
    · exact rt.classes_ascii 's' (by decide)
    · exact rt.classes_ascii 'S' (by decide)
  apply splits_of_follows
  intro left right hleft hright
  have hbehind : ∀ word : String, word.toList.head?.any (fun x => x = 's' || x = 'S') = true →
      z ∉ word.toList → Follows rt.classes left right (notBehindToken word) := by
    intro word hhead hmem
    refine follows_notBehind_word hleft ?_ (isWord_cut hz) hmem
    obtain ⟨x, hx, hs⟩ := (Option.any_eq_true _ _).mp hhead
    exact (Option.any_eq_true _ _).mpr ⟨x, hx, hword x (by simpa using hs)⟩
  have hsmall : z ∉ "sha256-".toList ∧ z ∉ "SHA256-".toList := by
    rcases hz with rfl | rfl <;> decide
  obtain ⟨hclass, hhex, hrepeats⟩ := hdigit rt.classes
  exact (follows_notBehind_set hleft hclass).seq
    ((hbehind "sha256-" rfl hsmall.1).seq ((hbehind "SHA256-" rfl hsmall.2).seq
      ((follows_of_stays hrepeats hleft hright).seq
        ((follows_of_stays hhex hleft hright).notAhead.seq follows_empty))))

theorem splits_home (hz : z = '\\' ∨ z = '\t') : Splits rt.classes z homePattern := by
  rcases hz with rfl | rfl
  · exact splits_after rfl rfl
  · exact splits_after rfl rfl

variable (rt) in
/-- All patterns but three are found inside a piece. -/
theorem forbidden_splits (hz : z = '\\' ∨ z = '\t') {p : NotePattern}
    (hp : p ∈ forbiddenNotePatterns) :
    Splits rt.classes z p.regex ∨
      p.regex = drivePattern ∨ p.regex = hostPattern ∨ p.regex = tagPattern := by
  rcases forbidden_cases rt.classes hp with ⟨hslash, htab⟩ | hhome | hhash | hthree
  · refine Or.inl (splits_of_stays ?_)
    rcases hz with rfl | rfl
    · rwa [without_cut (Or.inl rfl)] at hslash
    · rwa [without_cut (Or.inr rfl)] at htab
  · rw [hhome]
    exact Or.inl (splits_home hz)
  · rw [hhash]
    exact Or.inl (splits_hash hz)
  · exact Or.inr hthree

/-! ### The three others -/

theorem isWord_of_isAlpha {x : Char} (hx : x.isAlpha = true) : rt.classes.isWord x = true := by
  have hascii : x.toNat < 128 := by
    simp only [Char.isAlpha, Char.isUpper, Char.isLower, Bool.or_eq_true, Bool.and_eq_true,
      decide_eq_true_eq, UInt32.le_iff_toNat_le] at hx
    change (65 ≤ x.val.toNat ∧ x.val.toNat ≤ 90) ∨ (97 ≤ x.val.toNat ∧ x.val.toNat ≤ 122) at hx
    change x.val.toNat < 128
    omega
  rw [rt.classes_ascii x hascii, Char.isAlphanum, hx]
  rfl

theorem matches_drive_iff {c : Cursor} : Matches rt.classes drivePattern c ↔
    ∃ x rest, c.after = x :: ':' :: '\\' :: rest ∧ x.isAlpha = true ∧
      c.before.head?.any rt.classes.isWord = false := by
  constructor
  · intro h
    obtain ⟨m, hm, hletter⟩ := matches_seq.mp h
    obtain ⟨hboundary, rfl⟩ := mem_run_boundary.mp hm
    obtain ⟨m', hm', hcolon⟩ := matches_seq.mp hletter
    obtain ⟨x, rest, hafter, hx, rfl⟩ := mem_run_set.mp hm'
    obtain ⟨m'', hm'', -⟩ := matches_seq.mp hcolon
    obtain ⟨rest', hrest, -⟩ := mem_run_lit.mp hm''
    change rest = ':' :: '\\' :: rest' at hrest
    refine ⟨x, rest', by rw [hafter, hrest], hx, ?_⟩
    rw [hafter, List.head?_cons, Option.any_some, isWord_of_isAlpha hx] at hboundary
    simpa using hboundary
  · rintro ⟨x, rest, hafter, hx, hbefore⟩
    refine matches_seq.mpr ⟨c, mem_run_boundary.mpr ⟨?_, rfl⟩, ?_⟩
    · rw [hbefore, hafter, List.head?_cons, Option.any_some, isWord_of_isAlpha hx]
      exact Bool.noConfusion
    · refine matches_seq.mpr ⟨_, mem_run_set.mpr ⟨x, _, hafter, hx, rfl⟩, ?_⟩
      exact matches_seq.mpr ⟨_, mem_run_lit.mpr ⟨rest, rfl, rfl⟩, _, List.mem_singleton_self _⟩

theorem matches_host_iff {c : Cursor} : Matches rt.classes hostPattern c ↔
    ∃ name rest, c.after = '\\' :: '\\' :: (name ++ '\\' :: rest) ∧ name ≠ [] ∧
      ∀ x ∈ name, isNameChar x = true := by
  constructor
  · intro h
    obtain ⟨m, hm, h⟩ := matches_seq.mp h
    obtain ⟨rest, hafter, rfl⟩ := mem_run_lit.mp hm
    obtain ⟨m', hm', h⟩ := matches_seq.mp h
    obtain ⟨name, rest', hne, hname, rfl, rfl⟩ := mem_run_plus.mp hm'
    obtain ⟨m'', hm'', -⟩ := matches_seq.mp h
    obtain ⟨rest'', rfl, -⟩ := mem_run_lit.mp hm''
    exact ⟨name, rest'', hafter, hne, hname⟩
  · rintro ⟨name, rest, hafter, hne, hname⟩
    refine matches_seq.mpr ⟨_, mem_run_lit.mpr ⟨_, hafter, rfl⟩, ?_⟩
    refine matches_seq.mpr ⟨_, mem_run_plus.mpr ⟨name, _, hne, hname, rfl, rfl⟩, ?_⟩
    exact matches_seq.mpr ⟨_, mem_run_lit.mpr ⟨rest, rfl, rfl⟩, _, List.mem_singleton_self _⟩

theorem matches_tag_iff {c : Cursor} : Matches rt.classes tagPattern c ↔
    ∃ inner rest, c.after = '<' :: (inner ++ '>' :: rest) ∧ inner ≠ [] ∧ '>' ∉ inner := by
  have hclass : ∀ inner : List Char,
      (∀ x ∈ inner, decide (x ≠ '>') = true) ↔ '>' ∉ inner := by
    intro inner
    simp only [decide_eq_true_eq]
    exact ⟨fun h hmem => h '>' hmem rfl, fun h x hx heq => h (heq ▸ hx)⟩
  constructor
  · intro h
    obtain ⟨m, hm, h⟩ := matches_seq.mp h
    obtain ⟨rest, hafter, rfl⟩ := mem_run_char.mp hm
    obtain ⟨m', hm', h⟩ := matches_seq.mp h
    obtain ⟨inner, rest', hne, hinner, rfl, rfl⟩ := mem_run_plus.mp hm'
    obtain ⟨m'', hm'', -⟩ := matches_seq.mp h
    obtain ⟨rest'', rfl, -⟩ := mem_run_char.mp hm''
    exact ⟨inner, rest'', hafter, hne, (hclass inner).mp hinner⟩
  · rintro ⟨inner, rest, hafter, hne, hinner⟩
    refine matches_seq.mpr ⟨_, mem_run_char.mpr ⟨_, hafter, rfl⟩, ?_⟩
    refine matches_seq.mpr
      ⟨_, mem_run_plus.mpr ⟨inner, _, hne, (hclass inner).mpr hinner, rfl, rfl⟩, ?_⟩
    exact matches_seq.mpr ⟨_, mem_run_char.mpr ⟨rest, rfl, rfl⟩, _, List.mem_singleton_self _⟩

variable (rt) in
/-- Every pattern that is found in a piece is found in the text. -/
theorem forbidden_spreads (hz : z = '\\' ∨ z = '\t') {p : NotePattern}
    (hp : p ∈ forbiddenNotePatterns) : Spreads rt.classes z p.regex := by
  rcases forbidden_splits rt hz hp with hsplits | hdrive | hhost | htag
  · exact hsplits.spreads
  · rw [hdrive]
    apply spreads_of_matches
    intro left right hleft hright c hc
    obtain ⟨x, rest, hafter, hx, hbefore⟩ := matches_drive_iff.mp hc
    refine matches_drive_iff.mpr ⟨x, rest ++ right, by simp [Cursor.within, hafter], hx, ?_⟩
    rw [Cursor.within, any_head?_append hleft (isWord_cut hz), hbefore]
  · rw [hhost]
    apply spreads_of_matches
    intro left right hleft hright c hc
    obtain ⟨name, rest, hafter, hname⟩ := matches_host_iff.mp hc
    exact matches_host_iff.mpr ⟨name, rest ++ right, by simp [Cursor.within, hafter], hname⟩
  · rw [htag]
    apply spreads_of_matches
    intro left right hleft hright c hc
    obtain ⟨inner, rest, hafter, hinner⟩ := matches_tag_iff.mp hc
    exact matches_tag_iff.mpr ⟨inner, rest ++ right, by simp [Cursor.within, hafter], hinner⟩

/-- The text ends with a drive letter and its colon. -/
def EndsInDrive (classes : CharClasses) (s : List Char) : Prop :=
  ∃ front x, s = front ++ [x, ':'] ∧ x.isAlpha = true ∧
    front.getLast?.any classes.isWord = false

/-- A `<` with no `>` after it. -/
def LeavesTagOpen (s : List Char) : Prop :=
  ∃ front inner, s = front ++ '<' :: inner ∧ '>' ∉ inner

theorem exists_forbidden_drive : ∃ p ∈ forbiddenNotePatterns, p.regex = drivePattern :=
  ⟨_, List.getElem_mem (l := forbiddenNotePatterns) (n := 8) (by decide), rfl⟩

theorem exists_forbidden_host : ∃ p ∈ forbiddenNotePatterns, p.regex = hostPattern :=
  ⟨_, List.getElem_mem (l := forbiddenNotePatterns) (n := 9) (by decide), rfl⟩

theorem exists_forbidden_tag : ∃ p ∈ forbiddenNotePatterns, p.regex = tagPattern :=
  ⟨_, List.getElem_mem (l := forbiddenNotePatterns) (n := 23) (by decide), rfl⟩

theorem found_drive_append_iff : Found rt.classes drivePattern (s ++ '\\' :: t) ↔
    Found rt.classes drivePattern s ∨ Found rt.classes drivePattern t ∨
      EndsInDrive rt.classes s := by
  constructor
  · intro h
    obtain ⟨c, hc, hmatch⟩ := found_iff.mp h
    obtain ⟨x, rest, hafter, hx, hbefore⟩ := matches_drive_iff.mp hmatch
    rcases position_iff.mp hc with ⟨d, hd, rfl⟩ | ⟨d, hd, rfl⟩
    · rw [Cursor.within, List.append_nil] at hbefore
      change d.after ++ '\\' :: t = x :: ':' :: '\\' :: rest at hafter
      rcases hlist : d.after with _ | ⟨y, _ | ⟨y', _ | ⟨y'', more⟩⟩⟩
      · rw [hlist] at hafter
        rw [← (List.cons.inj hafter).1] at hx
        exact absurd hx (by decide)
      · rw [hlist] at hafter
        simp at hafter
      · rw [hlist] at hafter
        obtain ⟨rfl, hcolon⟩ := List.cons.inj hafter
        obtain ⟨rfl, -⟩ := List.cons.inj hcolon
        refine Or.inr (Or.inr ⟨d.before.reverse, y, by rw [hd, hlist], hx, ?_⟩)
        rw [List.getLast?_reverse]
        exact hbefore
      · rw [hlist] at hafter
        obtain ⟨rfl, hcolon⟩ := List.cons.inj hafter
        obtain ⟨rfl, hslash⟩ := List.cons.inj hcolon
        obtain ⟨rfl, -⟩ := List.cons.inj hslash
        exact Or.inl (found_iff.mpr ⟨d, hd, matches_drive_iff.mpr ⟨y, more, hlist, hx, hbefore⟩⟩)
    · rw [Cursor.within, any_head?_append opensWith_cons (isWord_cut (Or.inl rfl))] at hbefore
      rw [Cursor.within, List.append_nil] at hafter
      exact Or.inr (Or.inl (found_iff.mpr
        ⟨d, hd, matches_drive_iff.mpr ⟨x, rest, hafter, hx, hbefore⟩⟩))
  · obtain ⟨p, hp, hdrive⟩ := exists_forbidden_drive
    have hspreads := forbidden_spreads rt (Or.inl rfl : '\\' = '\\' ∨ _) hp s t
    rw [hdrive] at hspreads
    rintro (h | h | ⟨front, x, rfl, hx, hfront⟩)
    · exact hspreads (Or.inl h)
    · exact hspreads (Or.inr h)
    · refine found_iff.mpr ⟨⟨front.reverse, x :: ':' :: '\\' :: t⟩, by simp, ?_⟩
      refine matches_drive_iff.mpr ⟨x, t, rfl, hx, ?_⟩
      rw [List.head?_reverse]
      exact hfront

theorem found_tag_iff : Found rt.classes tagPattern text ↔
    ∃ front inner rest, text = front ++ '<' :: (inner ++ '>' :: rest) ∧ inner ≠ [] ∧
      '>' ∉ inner := by
  rw [found_iff]
  simp only [matches_tag_iff]
  constructor
  · rintro ⟨c, rfl, inner, rest, hafter, hinner⟩
    exact ⟨c.before.reverse, inner, rest, by rw [hafter], hinner⟩
  · rintro ⟨front, inner, rest, rfl, hinner⟩
    exact ⟨⟨front.reverse, _⟩, by simp, inner, rest, rfl, hinner⟩

theorem found_tag_append_iff (hleft : z ≠ '<') (hright : z ≠ '>') :
    Found rt.classes tagPattern (s ++ z :: t) ↔
      Found rt.classes tagPattern s ∨ Found rt.classes tagPattern t ∨
        (LeavesTagOpen s ∧ '>' ∈ t) := by
  simp only [found_tag_iff]
  constructor
  · rintro ⟨front, inner, rest, htext, hne, hinner⟩
    rcases List.append_eq_append_iff.mp htext with ⟨more, rfl, hmore⟩ | ⟨more, rfl, hmore⟩
    · -- the tag opens in the second piece
      cases more with
      | nil => exact absurd (List.cons.inj hmore).1 hleft
      | cons y more =>
          obtain ⟨-, rfl⟩ := List.cons.inj hmore
          exact Or.inr (Or.inl ⟨more, inner, rest, rfl, hne, hinner⟩)
    · cases more with
      | nil => exact absurd (List.cons.inj hmore).1.symm hleft
      | cons y more =>
          obtain ⟨rfl, hclose⟩ := List.cons.inj hmore
          rcases List.append_eq_append_iff.mp hclose with ⟨gap, rfl, hgap⟩ | ⟨gap, rfl, hgap⟩
          · -- it closes in the first
            cases gap with
            | nil => exact absurd (List.cons.inj hgap).1.symm hright
            | cons y gap =>
                obtain ⟨rfl, -⟩ := List.cons.inj hgap
                exact Or.inl ⟨front, inner, gap, rfl, hne, hinner⟩
          · refine Or.inr (Or.inr ⟨⟨front, more, rfl, fun h => hinner ?_⟩, ?_⟩)
            · exact List.mem_append_left _ h
            · cases gap with
              | nil => exact absurd (List.cons.inj hgap).1 hright
              | cons y gap =>
                  obtain ⟨-, rfl⟩ := List.cons.inj hgap
                  simp
  · rintro (⟨front, inner, rest, rfl, hinner⟩ | ⟨front, inner, rest, rfl, hinner⟩ |
      ⟨⟨front, inner, rfl, hinner⟩, hmem⟩)
    · exact ⟨front, inner, rest ++ z :: t, by simp, hinner⟩
    · exact ⟨s ++ z :: front, inner, rest, by simp, hinner⟩
    · obtain ⟨inner', rest, rfl, hinner'⟩ := List.eq_append_cons_of_mem hmem
      refine ⟨front, inner ++ z :: inner', rest, by simp, by simp, ?_⟩
      simp [hinner, hinner', hright.symm]

/-- A name between two backslashes and a third, among the stretches that backslashes separate. -/
def NamesHost (stretches : List (List Char)) : Prop :=
  ∃ front name rest, stretches = front ++ [] :: name :: rest ∧ front ≠ [] ∧ rest ≠ [] ∧
    name ≠ [] ∧ ∀ x ∈ name, isNameChar x = true

theorem found_host_iff :
    Found rt.classes hostPattern text ↔ NamesHost (text.splitOn '\\') := by
  have hslash : isNameChar '\\' = false := rfl
  have hfree : ∀ name : List Char, (∀ x ∈ name, isNameChar x = true) → '\\' ∉ name := by
    intro name hname hmem
    rw [hname '\\' hmem] at hslash
    exact Bool.noConfusion hslash
  have hsplit : ∀ front name rest : List Char, '\\' ∉ name →
      (front ++ '\\' :: '\\' :: (name ++ '\\' :: rest)).splitOn '\\' =
        front.splitOn '\\' ++ [] :: name :: rest.splitOn '\\' := by
    intro front name rest hname
    rw [List.splitOn_append_cons_self, ← List.nil_append ('\\' :: (name ++ '\\' :: rest)),
      List.splitOn_append_cons_self_of_not_mem List.not_mem_nil,
      List.splitOn_append_cons_self_of_not_mem hname]
  rw [found_iff]
  simp only [matches_host_iff]
  constructor
  · rintro ⟨c, rfl, name, rest, hafter, hne, hname⟩
    rw [hafter, hsplit _ _ _ (hfree name hname)]
    exact ⟨_, name, _, rfl, List.splitOn_ne_nil _ _, List.splitOn_ne_nil _ _, hne, hname⟩
  · rintro ⟨front, name, rest, hstretches, hfront, hrest, hne, hname⟩
    have hstretch : ∀ l ∈ front ++ [] :: name :: rest, '\\' ∉ l := by
      intro l hl
      rw [← hstretches] at hl
      exact not_mem_of_mem_splitOn hl
    have hcut : ∀ l : List (List Char), l ≠ [] → (∀ m ∈ l, '\\' ∉ m) →
        (['\\'].intercalate l).splitOn '\\' = l := by
      intro l hl hmem
      exact List.splitOn_intercalate _ hmem hl
    have hname' : '\\' ∉ name := hfree name hname
    have htext' : ['\\'].intercalate (text.splitOn '\\') = text := List.intercalate_splitOn _
    -- both texts have these stretches
    have htext : text = ['\\'].intercalate front ++
        '\\' :: '\\' :: (name ++ '\\' :: ['\\'].intercalate rest) := by
      rw [← htext', hstretches,
        ← hcut front hfront fun m hm => hstretch m (List.mem_append_left _ hm),
        ← hcut rest hrest fun m hm => hstretch m (by simp [hm]),
        ← hsplit _ _ _ hname', List.intercalate_splitOn]
      simp only [List.intercalate_splitOn]
    exact ⟨⟨(['\\'].intercalate front).reverse, _⟩, by rw [htext, List.reverse_reverse], name, _,
      rfl, hne, hname⟩

/-! ### Many pieces -/

variable {P : Pieces}

variable (rt) in
theorem found_drive_join_iff (hmarks : ∀ x ∈ P.rest, x.1 = '\\') :
    Found rt.classes drivePattern P.join ↔
      (∃ s ∈ P.texts, Found rt.classes drivePattern s) ∨
        ∃ s ∈ P.texts.dropLast, EndsInDrive rt.classes s := by
  obtain ⟨first, rest⟩ := P
  induction rest generalizing first with
  | nil => simp [Pieces.join, Pieces.texts]
  | cons x rest ih =>
      obtain ⟨hx, hrest⟩ := List.forall_mem_cons.mp hmarks
      have htexts : Pieces.texts ⟨first, x :: rest⟩ = first :: Pieces.texts ⟨x.2, rest⟩ := rfl
      have hlast : (first :: Pieces.texts ⟨x.2, rest⟩).dropLast =
          first :: (Pieces.texts ⟨x.2, rest⟩).dropLast := rfl
      rw [Pieces.join_cons, hx, found_drive_append_iff, ih x.2 hrest, htexts, hlast]
      rw [List.exists_mem_cons_iff, List.exists_mem_cons_iff, or_assoc, or_assoc,
        or_comm (b := EndsInDrive _ first)]

theorem mem_join_iff {c : Char} (hmarks : ∀ x ∈ P.rest, x.1 ≠ c) :
    c ∈ P.join ↔ ∃ s ∈ P.texts, c ∈ s := by
  obtain ⟨first, rest⟩ := P
  induction rest generalizing first with
  | nil => simp [Pieces.join, Pieces.texts]
  | cons x rest ih =>
      obtain ⟨hx, hrest⟩ := List.forall_mem_cons.mp hmarks
      have htexts : Pieces.texts ⟨first, x :: rest⟩ = first :: Pieces.texts ⟨x.2, rest⟩ := rfl
      rw [Pieces.join_cons, List.mem_append, List.mem_cons, ih x.2 hrest, htexts,
        List.exists_mem_cons_iff, or_iff_right hx.symm]

variable (rt) in
theorem found_tag_join_iff (hmarks : ∀ x ∈ P.rest, x.1 = '\\') :
    Found rt.classes tagPattern P.join ↔
      (∃ s ∈ P.texts, Found rt.classes tagPattern s) ∨
        ¬ P.texts.Pairwise fun s t => ¬ (LeavesTagOpen s ∧ '>' ∈ t) := by
  obtain ⟨first, rest⟩ := P
  induction rest generalizing first with
  | nil => simp [Pieces.join, Pieces.texts]
  | cons x rest ih =>
      obtain ⟨hx, hrest⟩ := List.forall_mem_cons.mp hmarks
      have htexts : Pieces.texts ⟨first, x :: rest⟩ = first :: Pieces.texts ⟨x.2, rest⟩ := rfl
      have hclose : '>' ∈ Pieces.join ⟨x.2, rest⟩ ↔ ∃ s ∈ Pieces.texts ⟨x.2, rest⟩, '>' ∈ s := by
        apply mem_join_iff
        intro y hy
        rw [hrest y hy]
        decide
      rw [Pieces.join_cons, hx, found_tag_append_iff (by decide) (by decide), ih x.2 hrest,
        hclose, htexts, List.exists_mem_cons_iff, List.pairwise_cons]
      rw [not_and_or, or_assoc, or_assoc, or_comm (b := LeavesTagOpen first ∧ _)]
      have hopens : (LeavesTagOpen first ∧ ∃ s ∈ Pieces.texts ⟨x.2, rest⟩, '>' ∈ s) ↔
          ¬ ∀ s ∈ Pieces.texts ⟨x.2, rest⟩, ¬ (LeavesTagOpen first ∧ '>' ∈ s) := by
        push Not
        constructor
        · rintro ⟨hopen, s, hs, hmem⟩
          exact ⟨s, hs, hopen, hmem⟩
        · rintro ⟨s, hs, hopen, hmem⟩
          exact ⟨hopen, s, hs, hmem⟩
      rw [hopens]

theorem splitOn_join (hmarks : ∀ x ∈ P.rest, x.1 = z) :
    P.join.splitOn z = P.texts.flatMap (List.splitOn z) := by
  obtain ⟨first, rest⟩ := P
  induction rest generalizing first with
  | nil => simp [Pieces.join, Pieces.texts]
  | cons x rest ih =>
      obtain ⟨hx, hrest⟩ := List.forall_mem_cons.mp hmarks
      rw [Pieces.join_cons, hx, List.splitOn_append_cons_self, ih x.2 hrest]
      rfl

end Patterns

/-! ## The pieces of a note -/

/-- The characters that are stored as a backslash and a second character. -/
def isSpelled (c : Char) : Bool := c ∈ ['\\', '\t', '\n', '\r']

/-- The second character, if it is not a backslash. -/
def spellingLetter (c : Char) : Char :=
  if c = '\t' then 't' else if c = '\n' then 'n' else 'r'

/-- A piece without its control characters. -/
def keptText (s : List Char) : List Char := s.filter fun c => !isC0Control c

/-- What is stored for a spelled character and the piece after it. -/
def storedAfter (x : Char × List Char) : List (Char × List Char) :=
  if x.1 = '\\' then [('\\', []), ('\\', keptText x.2)]
  else [('\\', spellingLetter x.1 :: keptText x.2)]

def notePieces (note : List Char) : Pieces := .cut isSpelled note

/-- The stored note, cut at its backslashes. -/
def storedPieces (note : List Char) : Pieces :=
  ⟨keptText (notePieces note).first, (notePieces note).rest.flatMap storedAfter⟩

theorem storedPieces_mark (note : List Char) : ∀ x ∈ (storedPieces note).rest, x.1 = '\\' := by
  intro x hx
  obtain ⟨y, -, hy⟩ := List.mem_flatMap.mp hx
  rw [storedAfter] at hy
  split at hy
  · rcases List.mem_pair.mp hy with rfl | rfl <;> rfl
  · rw [List.mem_singleton.mp hy]

theorem join_storedPieces (note : List Char) :
    (storedPieces note).join = note.flatMap visibleChar := by
  induction note with
  | nil => rfl
  | cons c note ih =>
      rw [List.flatMap_cons, ← ih, storedPieces, notePieces, Pieces.cut]
      by_cases hc : isSpelled c
      · have hcases : c = '\\' ∨ c = '\t' ∨ c = '\n' ∨ c = '\r' := by simpa [isSpelled] using hc
        rw [if_pos hc]
        rcases hcases with rfl | rfl | rfl | rfl <;> rfl
      · have hother : c ≠ '\\' ∧ c ≠ '\t' ∧ c ≠ '\n' ∧ c ≠ '\r' := by
          simpa [isSpelled] using hc
        rw [if_neg hc, visibleChar, if_neg hother.1, if_neg hother.2.2.1, if_neg hother.2.2.2,
          if_neg hother.2.1]
        by_cases hcontrol : isC0Control c
        · simp [Pieces.join, storedPieces, notePieces, keptText, hcontrol]
        · simp [Pieces.join, storedPieces, notePieces, keptText, hcontrol]

section Notes

variable (rt : CorrectionRuntime)

/-- The NFKC form of a piece. -/
def nfkcText (s : List Char) : List Char := (rt.nfkc (String.ofList s)).toList

/-- The stored note in NFKC form, cut at the backslashes that the constructor wrote. -/
def scannedTexts (note : List Char) : List (List Char) :=
  (storedPieces note).texts.map (nfkcText rt)

/-- What is stored of a note is clean, if the note was. -/
structure StaysClean (note : List Char) : Prop where
  /-- A piece that loses a control character or gets the letter of a tab in front joins no
  pattern. -/
  rewritten : ∀ s ∈ (storedPieces note).texts, s ∉ (notePieces note).texts →
    forbiddenIn rt (String.ofList s) = none
  /-- No drive letter with its colon stands before a backslash. -/
  drives : ∀ s ∈ (scannedTexts rt note).dropLast, ¬ EndsInDrive rt.classes s
  /-- No name stands between two backslashes, as one that is doubled, and another. -/
  hosts : ¬ NamesHost ((scannedTexts rt note).flatMap (List.splitOn '\\'))
  /-- No `<` is closed in a later piece. -/
  tags : (scannedTexts rt note).Pairwise fun s t => ¬ (LeavesTagOpen s ∧ '>' ∈ t)

variable {rt} {z : Char} {note : List Char}

theorem nfkcText_split (hz : isSpelled z = true) (s t : List Char) :
    nfkcText rt (s ++ z :: t) = nfkcText rt s ++ z :: nfkcText rt t := by
  have hmem : z ∈ ['\\', '\t', '\n', '\r'] := by simpa [isSpelled] using hz
  have hsplit := rt.nfkc_split (String.ofList s) (String.ofList t) z hmem
  have hlist : String.ofList (s ++ z :: t) =
      String.ofList s ++ String.singleton z ++ String.ofList t := by
    rw [← String.toList_inj]
    simp
  rw [nfkcText, hlist, hsplit]
  simp [nfkcText]

theorem nfkcText_note : nfkcText rt note = ((notePieces note).map (nfkcText rt)).join := by
  rw [Pieces.join_map, notePieces, Pieces.join_cut]
  intro x hx
  exact nfkcText_split (Pieces.mark_of_mem_cut note x hx)

theorem nfkcText_stored :
    nfkcText rt (note.flatMap visibleChar) = ((storedPieces note).map (nfkcText rt)).join := by
  rw [Pieces.join_map, join_storedPieces]
  intro x hx
  apply nfkcText_split
  rw [storedPieces_mark note x hx]
  rfl

theorem forbiddenIn_eq_none_iff {text : List Char} : forbiddenIn rt (String.ofList text) = none ↔
    ∀ p ∈ forbiddenNotePatterns, ¬ Found rt.classes p.regex (nfkcText rt text) := by
  rw [forbiddenIn, List.find?_eq_none]
  rfl

variable (rt) in
theorem found_lineEnd {text : List Char} {c : Char} (hc : c = '\n' ∨ c = '\r')
    (hmem : c ∈ text) :
    ∃ p ∈ forbiddenNotePatterns, Found rt.classes p.regex text := by
  refine ⟨_, List.getElem_mem (l := forbiddenNotePatterns) (n := 21) (by decide), ?_⟩
  obtain ⟨front, rest, rfl⟩ := List.append_of_mem hmem
  refine found_iff.mpr ⟨⟨front.reverse, c :: rest⟩, by simp, _,
    mem_run_set.mpr ⟨c, rest, rfl, ?_, rfl⟩⟩
  rcases hc with rfl | rfl <;> rfl

/-- An accepted note has no line ends. -/
theorem mark_of_accepted (haccepted : forbiddenIn rt (String.ofList note) = none) :
    ∀ x ∈ (notePieces note).rest, x.1 = '\\' ∨ x.1 = '\t' := by
  intro x hx
  have hspelled : x.1 = '\\' ∨ x.1 = '\t' ∨ x.1 = '\n' ∨ x.1 = '\r' := by
    simpa [isSpelled] using Pieces.mark_of_mem_cut note x hx
  rcases hspelled with h | h | h
  · exact Or.inl h
  · exact Or.inr h
  · have hmem : x.1 ∈ nfkcText rt note := by
      rw [nfkcText_note]
      refine List.mem_append_right _ (List.mem_flatMap.mpr ⟨(x.1, nfkcText rt x.2), ?_, ?_⟩)
      · exact List.mem_map.mpr ⟨x, hx, rfl⟩
      · exact List.mem_cons_self
    obtain ⟨p, hp, hfound⟩ := found_lineEnd rt h hmem
    exact absurd hfound (forbiddenIn_eq_none_iff.mp haccepted p hp)

/-- The pieces of an accepted note are clean. -/
theorem piece_of_accepted (haccepted : forbiddenIn rt (String.ofList note) = none)
    {s : List Char} (hs : s ∈ (notePieces note).texts) :
    forbiddenIn rt (String.ofList s) = none := by
  rw [forbiddenIn_eq_none_iff] at haccepted ⊢
  intro p hp hfound
  apply haccepted p hp
  rw [nfkcText_note]
  refine Pieces.found_join_of_mem ?_ ?_ hfound
  · intro x hx
    obtain ⟨y, hy, rfl⟩ := List.mem_map.mp hx
    exact forbidden_spreads rt (mark_of_accepted (forbiddenIn_eq_none_iff.mpr haccepted) y hy) hp
  · rw [Pieces.texts_map]
    exact List.mem_map_of_mem hs

/-- What is stored is clean if and only if its pieces are, and no drive, host or tag reaches
over a backslash. -/
theorem stored_clean_iff :
    forbiddenIn rt (String.ofList (note.flatMap visibleChar)) = none ↔
      (∀ s ∈ (storedPieces note).texts, forbiddenIn rt (String.ofList s) = none) ∧
        (∀ s ∈ (scannedTexts rt note).dropLast, ¬ EndsInDrive rt.classes s) ∧
        ¬ NamesHost ((scannedTexts rt note).flatMap (List.splitOn '\\')) ∧
        (scannedTexts rt note).Pairwise fun s t => ¬ (LeavesTagOpen s ∧ '>' ∈ t) := by
  have hmarks : ∀ x ∈ ((storedPieces note).map (nfkcText rt)).rest, x.1 = '\\' := by
    intro x hx
    obtain ⟨y, hy, rfl⟩ := List.mem_map.mp hx
    exact storedPieces_mark note y hy
  have htexts : ((storedPieces note).map (nfkcText rt)).texts = scannedTexts rt note :=
    Pieces.texts_map
  have hdrive := found_drive_join_iff rt hmarks
  have htag := found_tag_join_iff rt hmarks
  have hhost : Found rt.classes hostPattern ((storedPieces note).map (nfkcText rt)).join ↔ _ :=
    found_host_iff
  rw [splitOn_join hmarks] at hhost
  simp only [forbiddenIn_eq_none_iff, nfkcText_stored]
  rw [htexts] at hdrive htag hhost
  constructor
  · intro hclean
    have hpiece : ∀ s ∈ (storedPieces note).texts, ∀ p ∈ forbiddenNotePatterns,
        ¬ Found rt.classes p.regex (nfkcText rt s) := by
      intro s hs p hp hfound
      refine hclean p hp (Pieces.found_join_of_mem ?_ ?_ hfound)
      · exact fun x hx => forbidden_spreads rt (Or.inl (hmarks x hx)) hp
      · rw [htexts]
        exact List.mem_map_of_mem hs
    refine ⟨hpiece, ?_, ?_, ?_⟩
    · obtain ⟨p, hp, hregex⟩ := exists_forbidden_drive
      intro s hs hends
      apply hclean p hp
      rw [hregex, hdrive]
      exact Or.inr ⟨s, hs, hends⟩
    · obtain ⟨p, hp, hregex⟩ := exists_forbidden_host
      have hnone := hclean p hp
      rwa [hregex, hhost] at hnone
    · obtain ⟨p, hp, hregex⟩ := exists_forbidden_tag
      have hnone := hclean p hp
      rw [hregex, htag] at hnone
      exact not_not.mp fun h => hnone (Or.inr h)
  · rintro ⟨hpieces, hdrives, hhosts, htags⟩ p hp hfound
    have hpiece : ¬ ∃ s ∈ scannedTexts rt note, Found rt.classes p.regex s := by
      rintro ⟨t, ht, hfound⟩
      obtain ⟨s, hs, rfl⟩ := List.mem_map.mp ht
      exact hpieces s hs p hp hfound
    rcases forbidden_splits rt (Or.inl rfl : '\\' = '\\' ∨ _) hp with hsplits | h | h | h
    · have hjoin : Found rt.classes p.regex ((storedPieces note).map (nfkcText rt)).join ↔ _ :=
        Pieces.found_join_iff fun x hx => by rwa [hmarks x hx]
      rw [htexts] at hjoin
      exact hpiece (hjoin.mp hfound)
    · rw [h] at hfound hpiece
      obtain ⟨s, hs, hends⟩ := (hdrive.mp hfound).resolve_left hpiece
      exact hdrives s hs hends
    · rw [h] at hfound
      exact hhosts (hhost.mp hfound)
    · rw [h] at hfound hpiece
      exact (htag.mp hfound).resolve_left hpiece htags

/-- What is stored of an accepted note is clean exactly if the note stays clean. -/
theorem accepted_clean_iff (haccepted : forbiddenIn rt (String.ofList note) = none) :
    forbiddenIn rt (String.ofList (note.flatMap visibleChar)) = none ↔ StaysClean rt note := by
  rw [stored_clean_iff]
  constructor
  · rintro ⟨hpieces, hdrives, hhosts, htags⟩
    exact ⟨fun s hs _ => hpieces s hs, hdrives, hhosts, htags⟩
  · intro h
    refine ⟨fun s hs => ?_, h.drives, h.hosts, h.tags⟩
    by_cases hmem : s ∈ (notePieces note).texts
    · exact piece_of_accepted haccepted hmem
    · exact h.rewritten s hs hmem

end Notes

/-! ## The stored records -/

section Stored

variable {rt : CorrectionRuntime} {payload : CorrectionPayload} {hmacKey : Bytes}
  {canonicalMetadata : List (String × PyValue) → Option Metadata}

end Stored

/-- A fraction that is written with a backslash stays clean. -/
theorem fraction_staysClean : StaysClean asciiRuntime "see rows 3\\5".toList := by
  have htexts : (storedPieces "see rows 3\\5".toList).texts =
      ["see rows 3".toList, [], "5".toList] := by decide +kernel
  have hscanned : scannedTexts asciiRuntime "see rows 3\\5".toList =
      ["see rows 3".toList, [], "5".toList] := by
    rw [scannedTexts, htexts]
    simp [nfkcText, asciiRuntime]
  constructor
  · rw [htexts]
    decide +kernel
  · rw [hscanned]
    rintro s hs ⟨front, x, rfl, -⟩
    have hlast : ∀ s ∈ ["see rows 3".toList, []], s.getLast? ≠ some ':' := by decide
    exact hlast _ hs (by simp)
  · rw [hscanned]
    rintro ⟨front, name, rest, hstretches, hfront, hrest, -⟩
    have hthree : ["see rows 3".toList, [], "5".toList].flatMap (List.splitOn '\\') =
        ["see rows 3".toList, [], "5".toList] := by decide +kernel
    have hlength := congrArg List.length (hthree.symm.trans hstretches)
    have hpos := List.length_pos_of_ne_nil hfront
    have hpos' := List.length_pos_of_ne_nil hrest
    simp at hlength
    omega
  · rw [hscanned]
    have hclose : ∀ t ∈ ["see rows 3".toList, [], "5".toList], '>' ∉ t := by decide
    exact List.pairwise_of_forall_mem_list fun s _ t ht h => hclose t ht h.2

end AgenticGovernance.Audit

import Mathlib
import AgenticGovernance.Support.SqlScript
import AgenticGovernance.Support.Segments
import AgenticGovernance.Security.Redaction

/-!
# Splitting a migration script

`_split_sql_statements` cuts a script at line ends: where the stripped line ends with a
semicolon and the number of `$$` since the start of the statement is even.  The driver takes
one statement at a time, so the cuts have to be those between statements.

`split_iff_lineSplit` compares it with a lexer: each statement comes out on its own exactly if
no such line end lies within a statement and there is one in every gap between two statements.
-/

namespace AgenticGovernance.Cli

open Support Support.SqlScript Security

/-! ## The splitter -/

/-- `text.strip()` -/
def strip (text : List Char) : List Char := (text.dropWhile isSpace).rdropWhile isSpace

/-- `text.split("\n")` -/
def lines (text : List Char) : List (List Char) := text.splitOn '\n'

/-- `"\n".join(group)` -/
def joinLines (group : List (List Char)) : List Char := ['\n'].intercalate group

/-- `line.count("$$")` -/
def dollarCount : List Char → ℕ
  | '$' :: '$' :: cs => dollarCount cs + 1
  | _ :: cs => dollarCount cs
  | [] => 0

/-- The line is blank or a comment. -/
def Skipped (line : List Char) : Prop := strip line = [] ∨ ['-', '-'] <+: strip line

instance (line : List Char) : Decidable (Skipped line) := inferInstanceAs (Decidable (_ ∨ _))

structure SplitState where
  statements : List (List Char)
  current : List (List Char)
  inDollarQuote : Bool
  deriving DecidableEq, Repr

/-- The statement of the collected lines, unless all of them are blank or comments. -/
def collected (current : List (List Char)) : List (List Char) :=
  let stmt := strip (joinLines current)
  if stmt ≠ [] ∧ ¬∀ ln ∈ lines stmt, Skipped ln then [stmt] else []

/-- The body of the loop. -/
def splitLine (s : SplitState) (line : List Char) : SplitState :=
  let stripped := strip line
  if s.current = [] ∧ (stripped = [] ∨ ['-', '-'] <+: stripped) then s
  else
    let inDollarQuote :=
      if dollarCount line % 2 = 1 then !s.inDollarQuote else s.inDollarQuote
    let current := s.current ++ [line]
    if [';'] <:+ stripped ∧ ¬inDollarQuote then
      ⟨s.statements ++ collected current, [], inDollarQuote⟩
    else ⟨s.statements, current, inDollarQuote⟩

/-- After the loop: a trailing statement needs no semicolon. -/
def SplitState.finish (s : SplitState) : List (List Char) :=
  if s.current = [] then s.statements else s.statements ++ collected s.current

/-- `_split_sql_statements` -/
def splitSqlStatements (sql : List Char) : List (List Char) :=
  ((lines sql).foldl splitLine ⟨[], [], false⟩).finish

/-! ## Where it cuts -/

/-- A group of lines after which the splitter cuts. -/
def Closes (group : List (List Char)) : Prop :=
  [';'] <:+ strip (group.getLastD []) ∧ Even (group.map dollarCount).sum

instance (group : List (List Char)) : Decidable (Closes group) :=
  inferInstanceAs (Decidable (_ ∧ _))

/-- The splitter cuts at a line end after this text, which starts with a statement: its last
line ends with a semicolon, and the number of `$$` is even. -/
def CutsAfter (text : List Char) : Prop := Closes (lines text)

instance (text : List Char) : Decidable (CutsAfter text) := inferInstanceAs (Decidable (Closes _))

/-- No cut lies within the statement. -/
def Intact (statement : List Char) : Prop :=
  ∀ u v, statement = u ++ '\n' :: v → ¬CutsAfter u

/-- A cut lies within the gap after the statement. -/
def CutInGap (statement gap : List Char) : Prop :=
  ∃ u v, gap = u ++ '\n' :: v ∧ CutsAfter (statement ++ u)

/-- Cuts lie between the statements only, and there is one between any two. -/
def LineSplit : List Piece → Prop
  | [] => True
  | [piece] => Intact piece.statement
  | piece :: next :: rest =>
      Intact piece.statement ∧ CutInGap piece.statement piece.gap ∧ LineSplit (next :: rest)

/-- The text is that statement, perhaps with whitespace and comments around it. -/
def SameStatement (text statement : List Char) : Prop :=
  ∃ before after, Trivia isSpace before ∧ Trivia isSpace (after ++ ['\n']) ∧
    text = before ++ statement ++ after

/-- What the splitter makes of the remaining lines, after the lines of `current`. -/
def groups (current : List (List Char)) : List (List Char) → List (List Char)
  | [] => if current = [] then [] else collected current
  | line :: rest =>
      if current = [] ∧ Skipped line then groups [] rest
      else if Closes (current ++ [line]) then collected (current ++ [line]) ++ groups [] rest
      else groups (current ++ [line]) rest

variable {c : Char} {s t u v x y line stmt : List Char} {cur ls rest : List (List Char)}

/-! ## Stripping -/

theorem isSpace_dash : isSpace '-' = false := by decide

theorem isSpace_semicolon : isSpace ';' = false := by decide

theorem rdropWhile_append {p : Char → Bool} {d : Char} (hd : p d = false) (hs : [d] <:+ s)
    (u : List Char) : (s ++ u).rdropWhile p = s ++ u.rdropWhile p := by
  obtain ⟨s, rfl⟩ := hs
  induction u using List.reverseRecOn with
  | nil => simp [List.rdropWhile_concat_neg, hd]
  | append_singleton u e ih =>
      rw [← List.append_assoc, List.rdropWhile_concat, List.rdropWhile_concat, ih]
      split_ifs
      · rfl
      · exact List.append_assoc _ _ _

theorem strip_cons_space (hc : isSpace c = true) : strip (c :: t) = strip t := by
  rw [strip, List.dropWhile_cons_of_pos hc]
  rfl

theorem strip_cons (hc : isSpace c = false) :
    strip (c :: t) = c :: t.rdropWhile isSpace := by
  rw [strip, List.dropWhile_cons_of_neg (by simp [hc])]
  exact rdropWhile_append hc List.suffix_rfl t

theorem skipped_cons_space (hc : isSpace c = true) : Skipped (c :: t) ↔ Skipped t := by
  rw [Skipped, strip_cons_space hc, ← Skipped]

theorem skipped_cons (hc : isSpace c = false) : Skipped (c :: t) ↔ ['-', '-'] <+: c :: t := by
  rw [Skipped, strip_cons hc]
  constructor
  · rintro (h | h)
    · contradiction
    · exact h.trans (List.cons_prefix_cons.mpr ⟨rfl, List.rdropWhile_prefix _ _⟩)
  · intro h
    obtain ⟨rfl, t, rfl⟩ := List.cons_prefix_cons.mp h
    apply Or.inr
    rw [rdropWhile_append isSpace_dash List.suffix_rfl]
    exact ⟨_, rfl⟩

theorem not_skipped_of_isPrefix (h : StartsStatement isSpace t) (hx : x <+: t)
    (hne : x ≠ []) : ¬Skipped x := by
  obtain ⟨c, x, rfl⟩ := List.exists_cons_of_ne_nil hne
  obtain ⟨t, rfl⟩ := hx
  rw [skipped_cons h.1]
  intro hcomment
  exact h.2 (hcomment.trans (List.prefix_append _ _))

/-! ## Groups of lines -/

/-- The flag is the parity of `$$` in the collected lines. -/
def dollarFlag (group : List (List Char)) : Bool := decide ((group.map dollarCount).sum % 2 = 1)

theorem dollarFlag_concat (cur : List (List Char)) (line : List Char) :
    (if dollarCount line % 2 = 1 then !dollarFlag cur else dollarFlag cur) =
      dollarFlag (cur ++ [line]) := by
  rw [dollarFlag, dollarFlag, List.map_append, List.sum_append]
  by_cases hline : dollarCount line % 2 = 1
  · by_cases hcur : (cur.map dollarCount).sum % 2 = 1 <;> simp [hline, hcur] <;> omega
  · by_cases hcur : (cur.map dollarCount).sum % 2 = 1 <;> simp [hline, hcur] <;> omega

theorem closes_concat_iff :
    Closes (cur ++ [line]) ↔ [';'] <:+ strip line ∧ ¬dollarFlag (cur ++ [line]) = true := by
  rw [Closes, List.getLastD_concat, dollarFlag, decide_eq_true_iff, Nat.even_iff]
  apply and_congr_right
  intro _
  omega

/-- The loop collects the groups one after the other. -/
theorem finish_foldl_splitLine (statements : List (List Char)) (cur ls : List (List Char)) :
    (ls.foldl splitLine ⟨statements, cur, dollarFlag cur⟩).finish =
      statements ++ groups cur ls := by
  induction ls generalizing statements cur with
  | nil =>
      rw [List.foldl_nil, SplitState.finish, groups]
      split_ifs
      · exact (List.append_nil _).symm
      · rfl
  | cons line ls ih =>
      have hline : splitLine ⟨statements, cur, dollarFlag cur⟩ line =
          if cur = [] ∧ Skipped line then ⟨statements, cur, dollarFlag cur⟩
          else if [';'] <:+ strip line ∧ ¬dollarFlag (cur ++ [line]) = true then
            ⟨statements ++ collected (cur ++ [line]), [], dollarFlag (cur ++ [line])⟩
          else ⟨statements, cur ++ [line], dollarFlag (cur ++ [line])⟩ := by
        rw [← dollarFlag_concat]
        rfl
      rw [List.foldl_cons, groups, hline]
      by_cases hskip : cur = [] ∧ Skipped line
      · rw [if_pos hskip, if_pos hskip, hskip.1]
        exact ih statements []
      rw [if_neg hskip, if_neg hskip]
      by_cases hcloses : Closes (cur ++ [line])
      · have hflag := closes_concat_iff.mp hcloses
        have hfalse : dollarFlag (cur ++ [line]) = dollarFlag [] :=
          Bool.eq_false_iff.mpr hflag.2
        rw [if_pos hcloses, if_pos hflag, hfalse, ih, List.append_assoc]
      · rw [if_neg hcloses, if_neg (fun h => hcloses (closes_concat_iff.mpr h)), ih]

theorem splitSqlStatements_eq (sql : List Char) :
    splitSqlStatements sql = groups [] (lines sql) :=
  finish_foldl_splitLine [] [] (lines sql)

/-! ## Leading whitespace and comments -/

theorem dollarCount_cons_space (hc : isSpace c = true) : dollarCount (c :: t) = dollarCount t := by
  have hne : c ≠ '$' := by
    rintro rfl
    contradiction
  cases t <;> simp [dollarCount, hne]

theorem closes_cons_space (hc : isSpace c = true) :
    Closes ((c :: x) :: cur) ↔ Closes (x :: cur) := by
  have hlast : strip (((c :: x) :: cur).getLastD []) = strip ((x :: cur).getLastD []) := by
    cases cur with
    | nil => exact strip_cons_space hc
    | cons y cur => rfl
  rw [Closes, Closes, hlast, List.map_cons, List.map_cons, dollarCount_cons_space hc]

theorem collected_cons_space (hc : isSpace c = true) :
    collected ((c :: x) :: cur) = collected (x :: cur) := by
  have hjoin : joinLines ((c :: x) :: cur) = c :: joinLines (x :: cur) := by
    cases cur <;> simp [joinLines]
  rw [collected, hjoin, strip_cons_space hc]
  rfl

theorem groups_cons_space (hc : isSpace c = true) (ls : List (List Char)) :
    groups ((c :: x) :: cur) ls = groups (x :: cur) ls := by
  induction ls generalizing cur with
  | nil => simp [groups, collected_cons_space hc]
  | cons line ls ih => simp [groups, collected_cons_space hc, closes_cons_space hc, ih]

theorem groups_lines_space (hc : isSpace c = true) (t : List Char) :
    groups [] (lines (c :: t)) = groups [] (lines t) := by
  have hblank : Skipped [] := Or.inl rfl
  rw [lines, List.splitOn_cons_eq_if_modifyHead, ← lines]
  split_ifs with hline
  · rw [groups, if_pos ⟨rfl, hblank⟩]
  · obtain ⟨x, rest, hlines⟩ := List.exists_cons_of_ne_nil (List.splitOn_ne_nil '\n' t)
    rw [lines, hlines, List.modifyHead_cons, groups, groups]
    simp only [List.nil_append, skipped_cons_space hc, closes_cons_space hc,
      collected_cons_space hc, groups_cons_space hc]

theorem skipped_comment (body : List Char) : Skipped ('-' :: '-' :: body) :=
  (skipped_cons isSpace_dash).mpr ⟨body, rfl⟩

theorem groups_lines_comment {body : List Char} (hbody : '\n' ∉ body) (t : List Char) :
    groups [] (lines ('-' :: '-' :: (body ++ '\n' :: t))) = groups [] (lines t) := by
  have hlines : lines ('-' :: '-' :: (body ++ '\n' :: t)) = ('-' :: '-' :: body) :: lines t := by
    rw [lines, ← List.cons_append, ← List.cons_append,
      List.splitOn_append_cons_self_of_not_mem (by simpa using hbody)]
    rfl
  rw [hlines, groups, if_pos ⟨rfl, skipped_comment body⟩]

theorem groups_lines_open_comment {body : List Char} (hbody : '\n' ∉ body) :
    groups [] (lines ('-' :: '-' :: body)) = [] := by
  rw [lines, List.splitOn_eq_singleton (by simpa using hbody), groups,
    if_pos ⟨rfl, skipped_comment body⟩]
  rfl

/-- What a scan of a gap has read since it last was in whitespace. -/
def Pending : GapMode → List Char → Prop
  | .blank, lead => lead = []
  | .dash, lead => lead = ['-']
  | .comment, lead => ∃ body, '\n' ∉ body ∧ lead = '-' :: '-' :: body
  | .code, _ => False

/-- A gap does not reach the list of statements.  At the end of the text its last line need
not end. -/
theorem groups_lines_gap {mode : GapMode} {lead gap : List Char} (hlead : Pending mode lead)
    (h : gapScan isSpace mode gap = .blank ∨
      t = [] ∧ gapScan isSpace mode (gap ++ ['\n']) = .blank) :
    groups [] (lines (lead ++ (gap ++ t))) = groups [] (lines t) := by
  induction gap generalizing mode lead with
  | nil =>
      cases mode with
      | blank => rw [hlead]; rfl
      | dash => simp [gapStep] at h
      | comment =>
          obtain ⟨body, hbody, rfl⟩ := hlead
          obtain h | ⟨rfl, -⟩ := h
          · contradiction
          · rw [List.append_nil, List.append_nil]
            exact groups_lines_open_comment hbody
      | code => exact hlead.elim
  | cons c gap ih =>
      rw [gapScan_cons, List.cons_append, gapScan_cons] at h
      rw [List.cons_append]
      cases mode with
      | blank =>
          rw [hlead, List.nil_append]
          by_cases hc : isSpace c = true
          · have hstep : gapStep isSpace .blank c = .blank := if_pos hc
            rw [hstep] at h
            rw [groups_lines_space hc]
            exact @ih .blank [] rfl h
          by_cases hdash : c = '-'
          · have hstep : gapStep isSpace .blank c = .dash := by
              rw [gapStep, if_neg hc, if_pos hdash]
            rw [hstep] at h
            exact @ih .dash [c] (congrArg (fun d => [d]) hdash) h
          · simp [gapStep, hc, hdash] at h
      | dash =>
          by_cases hdash : c = '-'
          · rw [hlead, hdash]
            have hstep : gapStep isSpace .dash c = .comment := if_pos hdash
            rw [hstep] at h
            exact @ih .comment ['-', '-'] ⟨[], by simp, rfl⟩ h
          · simp [gapStep, hdash] at h
      | comment =>
          obtain ⟨body, hbody, rfl⟩ := hlead
          by_cases hline : c = '\n'
          · have hstep : gapStep isSpace .comment c = .blank := if_pos hline
            rw [hstep] at h
            rw [hline, List.cons_append, List.cons_append, groups_lines_comment hbody]
            exact @ih .blank [] rfl h
          · have hstep : gapStep isSpace .comment c = .comment := if_neg hline
            have hbody' : '\n' ∉ body ++ [c] := by
              simpa [hbody] using Ne.symm hline
            rw [hstep] at h
            have hrest := @ih .comment ('-' :: '-' :: (body ++ [c])) ⟨_, hbody', rfl⟩ h
            simpa using hrest
      | code => exact hlead.elim

theorem groups_lines_trivia {gap : List Char}
    (h : Trivia isSpace gap ∨ t = [] ∧ Trivia isSpace (gap ++ ['\n'])) :
    groups [] (lines (gap ++ t)) = groups [] (lines t) :=
  @groups_lines_gap t .blank [] gap rfl h

/-! ## The first cut -/

theorem groups_uncut (hcur : cur ≠ []) (h : ∀ p q, ls = p ++ q → p ≠ [] → ¬Closes (cur ++ p)) :
    groups cur (ls ++ rest) = groups (cur ++ ls) rest := by
  induction ls generalizing cur with
  | nil => rw [List.append_nil, List.nil_append]
  | cons line ls ih =>
      have hline : ¬Closes (cur ++ [line]) := h [line] ls rfl (List.cons_ne_nil _ _)
      have htail : ∀ p q, ls = p ++ q → p ≠ [] → ¬Closes (cur ++ [line] ++ p) := by
        intro p q hp _
        rw [List.append_assoc]
        exact h (line :: p) q (congrArg (line :: ·) hp) (List.cons_ne_nil _ _)
      rw [List.cons_append, groups, if_neg (fun hskip => hcur hskip.1), if_neg hline,
        ih (by simp) htail, List.append_assoc]
      rfl

/-- A group whose first line counts, and after no part of which the splitter cuts. -/
theorem groups_group {p : List (List Char)} (hfirst : ∀ x ∈ (p ++ [line]).head?, ¬Skipped x)
    (h : ∀ q r, p = q ++ r → q ≠ [] → ¬Closes q) :
    groups [] (p ++ line :: rest) =
      if Closes (p ++ [line]) then collected (p ++ [line]) ++ groups [] rest
      else groups (p ++ [line]) rest := by
  cases p with
  | nil =>
      have hline : ¬Skipped line := hfirst line rfl
      rw [List.nil_append, groups, if_neg (fun hskip => hline hskip.2)]
  | cons x p =>
      have hx : ¬Skipped x := hfirst x rfl
      have hclose : ¬Closes [x] := h [x] p rfl (List.cons_ne_nil _ _)
      have htail : ∀ q r, p = q ++ r → q ≠ [] → ¬Closes ([x] ++ q) := by
        intro q r hq _
        exact h (x :: q) r (congrArg (x :: ·) hq) (List.cons_ne_nil _ _)
      rw [List.cons_append, groups, if_neg (fun hskip => hx hskip.2), List.nil_append,
        if_neg hclose, groups_uncut (List.cons_ne_nil _ _) htail, groups,
        if_neg (fun hskip => List.cons_ne_nil _ _ hskip.1)]
      rfl

theorem lines_joinLines {p q : List (List Char)} (hlines : lines t = p ++ q) (hp : p ≠ []) :
    lines (joinLines p) = p := by
  apply List.splitOn_intercalate '\n' _ hp
  intro x hx
  exact not_mem_of_mem_splitOn (hlines ▸ List.mem_append_left q hx)

theorem not_closes_of_intact {p q : List (List Char)} (h : Intact t) (hlines : lines t = p ++ q)
    (hp : p ≠ []) (hq : q ≠ []) : ¬Closes p := by
  have htext : t = joinLines p ++ '\n' :: joinLines q := by
    have hall : lines (joinLines p ++ '\n' :: joinLines q) = p ++ q := by
      have hq' : lines (joinLines q) = q := by
        apply List.splitOn_intercalate '\n' _ hq
        intro x hx
        exact not_mem_of_mem_splitOn (hlines ▸ List.mem_append_right p hx)
      rw [lines, List.splitOn_append_cons_self, ← lines, ← lines, lines_joinLines hlines hp, hq']
    have hjoin := congrArg joinLines (hlines.trans hall.symm)
    rwa [joinLines, lines, List.intercalate_splitOn, joinLines, lines,
      List.intercalate_splitOn] at hjoin
  have hcut := h _ _ htext
  rwa [CutsAfter, lines_joinLines hlines hp] at hcut

/-- The first line of a text that starts a statement counts. -/
theorem lines_start (h : StartsStatement isSpace t) :
    ∃ x rest, lines t = x :: rest ∧ ¬Skipped x := by
  obtain ⟨c, t, rfl⟩ := List.exists_cons_of_ne_nil h.ne_nil
  have hne : c ≠ '\n' := by
    rintro rfl
    exact absurd h.1 (by decide)
  obtain ⟨x, rest, hlines⟩ := List.exists_cons_of_ne_nil (List.splitOn_ne_nil '\n' t)
  have hall : lines (c :: t) = (c :: x) :: rest := by
    rw [lines, List.splitOn_cons_eq_if_modifyHead, if_neg (by simpa using hne), hlines]
    rfl
  have hprefix : c :: x <+: c :: t := by
    have htext : joinLines ((c :: x) :: rest) = c :: t := by
      rw [← hall, joinLines, lines, List.intercalate_splitOn]
    rw [← htext]
    cases rest <;> simp [joinLines]
  exact ⟨c :: x, rest, hall, not_skipped_of_isPrefix h hprefix (List.cons_ne_nil _ _)⟩

theorem strip_eq (h : StartsStatement isSpace t) : strip t = t.rdropWhile isSpace := by
  obtain ⟨c, t, rfl⟩ := List.exists_cons_of_ne_nil h.ne_nil
  rw [strip, List.dropWhile_cons_of_neg (by simp [h.1])]

theorem strip_isPrefix (h : StartsStatement isSpace t) : strip t <+: t := by
  rw [strip_eq h]
  exact List.rdropWhile_prefix _ _

theorem startsStatement_strip (h : StartsStatement isSpace t) :
    StartsStatement isSpace (strip t) := by
  apply h.of_isPrefix (strip_isPrefix h)
  obtain ⟨c, t, rfl⟩ := List.exists_cons_of_ne_nil h.ne_nil
  rw [strip_cons h.1]
  exact List.cons_ne_nil _ _

theorem collected_lines (h : StartsStatement isSpace t) : collected (lines t) = [strip t] := by
  have hstrip := startsStatement_strip h
  obtain ⟨x, rest, hlines, hx⟩ := lines_start hstrip
  have hjoin : joinLines (lines t) = t := List.intercalate_splitOn _
  rw [collected, hjoin, hlines]
  exact if_pos ⟨hstrip.ne_nil, fun hall => hx (hall x List.mem_cons_self)⟩

theorem exists_group (h : Intact t) (hstart : StartsStatement isSpace t) :
    ∃ p line, lines t = p ++ [line] ∧ (∀ x ∈ (p ++ [line]).head?, ¬Skipped x) ∧
      ∀ q r, p = q ++ r → q ≠ [] → ¬Closes q := by
  have hlines := List.dropLast_concat_getLast (List.splitOn_ne_nil '\n' t)
  refine ⟨_, _, hlines.symm, ?_, ?_⟩
  · obtain ⟨x, rest, hfirst, hx⟩ := lines_start hstart
    rw [hlines, ← lines, hfirst]
    intro y hy
    cases hy
    exact hx
  · intro q r hp hq
    rw [hp, List.append_assoc] at hlines
    exact not_closes_of_intact h hlines.symm hq (by simp)

/-- Without a cut the whole text is a statement. -/
theorem groups_intact (hstart : StartsStatement isSpace t) (h : Intact t) :
    groups [] (lines t) = [strip t] := by
  obtain ⟨p, line, hlines, hfirst, hopen⟩ := exists_group h hstart
  rw [← collected_lines hstart, hlines, groups_group hfirst hopen]
  split_ifs
  · exact List.append_nil _
  · rw [groups, if_neg (by simp)]

/-- Everything up to the first cut is a statement. -/
theorem groups_first_cut (hstart : StartsStatement isSpace u) (h : Intact u)
    (hcut : CutsAfter u) (v : List Char) :
    groups [] (lines (u ++ '\n' :: v)) = strip u :: groups [] (lines v) := by
  obtain ⟨p, line, hlines, hfirst, hopen⟩ := exists_group h hstart
  have hclose : Closes (p ++ [line]) := hlines ▸ hcut
  have hall : lines (u ++ '\n' :: v) = p ++ line :: lines v := by
    rw [lines, List.splitOn_append_cons_self, ← lines, hlines, List.append_assoc]
    rfl
  rw [hall, groups_group hfirst hopen, if_pos hclose, ← hlines, collected_lines hstart]
  rfl

theorem exists_first_cut (h : ¬Intact t) :
    ∃ u v, t = u ++ '\n' :: v ∧ Intact u ∧ CutsAfter u := by
  induction hn : t.length using Nat.strong_induction_on generalizing t with
  | _ n ih =>
      simp only [Intact, not_forall, not_not] at h
      obtain ⟨u, v, rfl, hcut⟩ := h
      by_cases hu : Intact u
      · exact ⟨u, v, rfl, hu, hcut⟩
      · obtain ⟨u', v', rfl, hu', hcut'⟩ := ih u.length (by simp [← hn]) hu rfl
        exact ⟨u', v' ++ '\n' :: v, by simp, hu', hcut'⟩

/-- The splitter takes the text as a whole, or goes on after the first cut. -/
theorem groups_cases (hstart : StartsStatement isSpace t) :
    (Intact t ∧ groups [] (lines t) = [strip t]) ∨
      ∃ u v, t = u ++ '\n' :: v ∧ StartsStatement isSpace u ∧ Intact u ∧ CutsAfter u ∧
        groups [] (lines t) = strip u :: groups [] (lines v) := by
  by_cases h : Intact t
  · exact Or.inl ⟨h, groups_intact hstart h⟩
  · obtain ⟨u, v, rfl, hu, hcut⟩ := exists_first_cut h
    have hne : u ≠ [] := by
      rintro rfl
      exact absurd hstart.1 (by decide)
    have hstart' := hstart.of_isPrefix (List.prefix_append u _) hne
    exact Or.inr ⟨u, v, rfl, hstart', hu, hcut, groups_first_cut hstart' hu hcut v⟩

/-! ## Statements and cuts -/

variable {gap tail : List Char}

theorem trivia_rdropWhile (h : Trivia isSpace (gap ++ ['\n'])) :
    Trivia isSpace (gap.rdropWhile isSpace ++ ['\n']) := by
  induction gap using List.reverseRecOn with
  | nil => exact h
  | append_singleton gap c ih =>
      rw [List.rdropWhile_concat]
      split_ifs with hc
      · exact ih (h.of_concat isSpace_dash hc)
      · exact h

theorem sameStatement_strip (hstart : StartsStatement isSpace (stmt ++ gap))
    (hsemi : [';'] <:+ stmt) (hgap : Trivia isSpace (gap ++ ['\n'])) :
    SameStatement (strip (stmt ++ gap)) stmt := by
  rw [strip_eq hstart, rdropWhile_append isSpace_semicolon hsemi]
  exact ⟨[], _, rfl, trivia_rdropWhile hgap, rfl⟩

/-- A statement that was cut is too short. -/
theorem not_sameStatement_of_cut (hstart : StartsStatement isSpace u) (v : List Char) :
    ¬SameStatement (strip u) (u ++ '\n' :: v) := by
  rintro ⟨before, after, -, -, heq⟩
  have hlength := (strip_isPrefix hstart).length_le
  rw [heq] at hlength
  simp at hlength
  omega

/-- Two statements that were not cut apart are not one of them. -/
theorem not_sameStatement_of_merged (hstart : StartsStatement isSpace (stmt ++ (gap ++ tail)))
    (hgap : Trivia isSpace gap) (htail : StartsStatement isSpace tail) :
    ¬SameStatement (strip (stmt ++ (gap ++ tail))) stmt := by
  rintro ⟨before, after, hbefore, hafter, heq⟩
  have hstrip := startsStatement_strip hstart
  have hnil : before = [] := by
    by_contra hbefore'
    have hprefix : before <+: strip (stmt ++ (gap ++ tail)) := by
      rw [heq, List.append_assoc]
      exact List.prefix_append _ _
    exact hstrip.not_trivia hprefix hbefore' (hbefore.append (by decide))
  obtain ⟨c, tail, rfl⟩ := List.exists_cons_of_ne_nil htail.ne_nil
  have hkeep : strip (stmt ++ (gap ++ c :: tail)) =
      stmt ++ (gap ++ c :: tail.rdropWhile isSpace) := by
    have hall : stmt ++ (gap ++ c :: tail) = stmt ++ (gap ++ [c]) ++ tail := by simp
    rw [strip_eq hstart, hall,
      rdropWhile_append htail.1 ⟨stmt ++ gap, by rw [List.append_assoc]⟩]
    simp
  rw [hkeep, hnil, List.nil_append, List.append_cancel_left_eq] at heq
  rw [← heq, List.append_assoc] at hafter
  exact htail.not_trivia (List.cons_prefix_cons.mpr ⟨rfl, List.rdropWhile_prefix _ _⟩)
    (List.cons_ne_nil _ _) (hgap.of_append hafter)

/-- A line end in a text of two parts lies in one of them. -/
theorem line_end_cases (h : s ++ t = u ++ '\n' :: v) :
    (∃ w, s = u ++ '\n' :: w ∧ v = w ++ t) ∨ ∃ w, u = s ++ w ∧ t = w ++ '\n' :: v := by
  rcases List.append_eq_append_iff.mp h with ⟨w, hu, ht⟩ | ⟨w, hs, hv⟩
  · exact Or.inr ⟨w, hu, ht⟩
  · cases w with
    | nil => exact Or.inr ⟨[], by simp [hs], by simpa using hv.symm⟩
    | cons c w =>
        obtain ⟨rfl, rfl⟩ := List.cons.inj hv
        exact Or.inl ⟨w, hs, rfl⟩

theorem Intact.of_isPrefix (h : Intact t) (hp : s <+: t) : Intact s := by
  intro u v heq
  obtain ⟨w, rfl⟩ := hp
  exact h u (v ++ w) (by simp [heq])

theorem not_cutInGap_of_intact (h : Intact (stmt ++ (gap ++ tail))) : ¬CutInGap stmt gap := by
  rintro ⟨u, v, rfl, hcut⟩
  exact h (stmt ++ u) (v ++ tail) (by simp) hcut

/-- The last statement is taken as a whole if no cut lies within it. -/
theorem groups_last (hstart : StartsStatement isSpace (stmt ++ gap)) (hsemi : [';'] <:+ stmt)
    (hgap : Trivia isSpace (gap ++ ['\n'])) :
    List.Forall₂ SameStatement (groups [] (lines (stmt ++ gap))) [stmt] ↔ Intact stmt := by
  rcases groups_cases hstart with ⟨hintact, hgroups⟩ | ⟨u, v, heq, hu, hintact, hcut, hgroups⟩
  · rw [hgroups]
    have hsame := sameStatement_strip hstart hsemi hgap
    exact iff_of_true (.cons hsame .nil) (hintact.of_isPrefix (List.prefix_append _ _))
  rw [hgroups]
  rcases line_end_cases heq with ⟨w, rfl, rfl⟩ | ⟨w, rfl, rfl⟩
  · apply iff_of_false
    · intro h
      exact not_sameStatement_of_cut hu w (List.forall₂_cons.mp h).1
    · intro h
      exact h u w rfl hcut
  · rw [List.append_assoc, List.cons_append] at hgap
    obtain ⟨hw, hv⟩ := hgap.cut
    have hrest : groups [] (lines v) = [] := by
      have hend : groups [] (lines (v ++ [])) = groups [] (lines []) :=
        groups_lines_trivia (Or.inr ⟨rfl, hv⟩)
      rwa [List.append_nil] at hend
    rw [hrest]
    have hsame := sameStatement_strip hu hsemi hw
    exact iff_of_true (.cons hsame .nil) (hintact.of_isPrefix (List.prefix_append _ _))

/-- A statement comes out on its own, before the rest, if no cut lies within it and one lies in
the gap after it. -/
theorem groups_next {tail : List Char} {others : List (List Char)}
    (hstart : StartsStatement isSpace (stmt ++ (gap ++ tail))) (hsemi : [';'] <:+ stmt)
    (hgap : Trivia isSpace gap) (htail : StartsStatement isSpace tail) (hothers : others ≠ []) :
    List.Forall₂ SameStatement (groups [] (lines (stmt ++ (gap ++ tail)))) (stmt :: others) ↔
      Intact stmt ∧ CutInGap stmt gap ∧
        List.Forall₂ SameStatement (groups [] (lines tail)) others := by
  rcases groups_cases hstart with ⟨hintact, hgroups⟩ | ⟨u, v, heq, hu, hintact, hcut, hgroups⟩
  · rw [hgroups]
    apply iff_of_false
    · intro h
      exact hothers (List.forall₂_nil_left_iff.mp (List.forall₂_cons.mp h).2)
    · intro h
      exact not_cutInGap_of_intact hintact h.2.1
  rw [hgroups]
  rcases line_end_cases heq with ⟨w, rfl, rfl⟩ | ⟨w, rfl, hrest⟩
  · apply iff_of_false
    · intro h
      exact not_sameStatement_of_cut hu w (List.forall₂_cons.mp h).1
    · intro h
      exact h.1 u w rfl hcut
  rcases line_end_cases hrest with ⟨w', rfl, rfl⟩ | ⟨x, rfl, rfl⟩
  · have hline : Trivia isSpace (w ++ ['\n']) ∧ Trivia isSpace w' := hgap.cut
    have hskip : groups [] (lines (w' ++ tail)) = groups [] (lines tail) :=
      groups_lines_trivia (Or.inl hline.2)
    have hsame := sameStatement_strip hu hsemi hline.1
    have hintact' : Intact stmt := hintact.of_isPrefix (List.prefix_append _ _)
    rw [hskip, List.forall₂_cons]
    exact ⟨fun h => ⟨hintact', ⟨w, w', rfl, hcut⟩, h.2⟩, fun h => ⟨hsame, h.2.2⟩⟩
  · have hx : x ≠ [] := by
      rintro rfl
      exact absurd htail.1 (by decide)
    have hx' := htail.of_isPrefix (List.prefix_append x _) hx
    apply iff_of_false
    · intro h
      exact not_sameStatement_of_merged hu hgap hx' (List.forall₂_cons.mp h).1
    · intro h
      exact not_cutInGap_of_intact hintact h.2.1

theorem groups_lexed {pieces : List Piece} (h : Lexed isSpace t pieces) :
    List.Forall₂ SameStatement (groups [] (lines t)) (pieces.map Piece.statement) ↔
      LineSplit pieces := by
  induction h with
  | nil =>
      have hnone : groups [] (lines []) = [] := rfl
      rw [hnone]
      exact iff_of_true .nil trivial
  | last hstart hsemi hgap => exact groups_last hstart hsemi hgap
  | cons hstart hsemi hgap htail _ ih =>
      rw [LineSplit, ← ih]
      exact groups_next hstart hsemi hgap htail (List.cons_ne_nil _ _)

/-! ## The splitter and the lexer -/

/-- The splitter returns the statements of the script, each perhaps with the whitespace and
comments around it, exactly if cuts lie between the statements only and there is one between
any two. -/
theorem split_iff_lineSplit (sql : List Char) (script : Script)
    (h : lexScript isSpace sql = some script) :
    List.Forall₂ SameStatement (splitSqlStatements sql) (script.pieces.map Piece.statement) ↔
      LineSplit script.pieces := by
  obtain ⟨rest, hsql, hlexed, hlead⟩ := lexScript_spec (by decide) h
  have hskip : groups [] (lines (script.lead ++ rest)) = groups [] (lines rest) :=
    groups_lines_trivia hlead
  rw [splitSqlStatements_eq, hsql, hskip]
  exact groups_lexed hlexed

/-- Statements on lines of their own are split. -/
theorem own_lines_split :
    List.Forall₂ SameStatement (splitSqlStatements "SELECT 1;\nSELECT 2;".toList)
      ["SELECT 1;".toList, "SELECT 2;".toList] := by
  apply (split_iff_lineSplit "SELECT 1;\nSELECT 2;".toList
    ⟨[], [⟨"SELECT 1;".toList, ['\n']⟩, ⟨"SELECT 2;".toList, []⟩]⟩ (by decide)).mpr
  have hintact : ∀ statement : List Char, '\n' ∉ statement → Intact statement := by
    intro statement hline u v heq
    exact absurd (heq ▸ List.mem_append_right u List.mem_cons_self) hline
  exact ⟨hintact _ (by decide), ⟨[], [], rfl, by decide⟩, hintact _ (by decide)⟩

/-- Two statements on one line are handed to the driver as one. -/
theorem shared_line_not_split :
    lexScript isSpace "SELECT 1; SELECT 2;".toList =
        some ⟨[], [⟨"SELECT 1;".toList, [' ']⟩, ⟨"SELECT 2;".toList, []⟩]⟩ ∧
      splitSqlStatements "SELECT 1; SELECT 2;".toList = ["SELECT 1; SELECT 2;".toList] ∧
      ¬List.Forall₂ SameStatement (splitSqlStatements "SELECT 1; SELECT 2;".toList)
        ["SELECT 1;".toList, "SELECT 2;".toList] := by
  have hsplit : splitSqlStatements "SELECT 1; SELECT 2;".toList =
      ["SELECT 1; SELECT 2;".toList] := by decide
  refine ⟨by decide, hsplit, ?_⟩
  rw [hsplit]
  intro h
  exact absurd h.length_eq (by decide)

end AgenticGovernance.Cli

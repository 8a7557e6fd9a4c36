import Mathlib

/-!
# Scripts of statements

A script is cut into statements, each with its terminating semicolon, and the gaps between
them.  A gap is whitespace and line comments.  Within a statement a semicolon does not count
in a line comment, in a single-quoted literal and between two `$$`.

Which characters are whitespace is a parameter.
-/

namespace AgenticGovernance.Support.SqlScript

/-! ## Gaps -/

inductive GapMode
  | blank
  /-- After one `-`. -/
  | dash
  | comment
  /-- After something that is neither whitespace nor a comment. -/
  | code
  deriving DecidableEq, Repr

variable (space : Char → Bool)

def gapStep : GapMode → Char → GapMode
  | .blank, c => if space c then .blank else if c = '-' then .dash else .code
  | .dash, c => if c = '-' then .comment else .code
  | .comment, c => if c = '\n' then .blank else .comment
  | .code, _ => .code

def gapScan (mode : GapMode) (text : List Char) : GapMode := text.foldl (gapStep space) mode

/-- Whitespace and line comments, where every comment has its line end. -/
def Trivia (text : List Char) : Prop := gapScan space .blank text = .blank

/-- The text starts with neither whitespace nor a comment. -/
def StartsStatement : List Char → Prop
  | [] => False
  | c :: cs => space c = false ∧ ¬['-', '-'] <+: c :: cs

instance (text : List Char) : Decidable (Trivia space text) :=
  inferInstanceAs (Decidable (_ = _))

instance : ∀ text : List Char, Decidable (StartsStatement space text)
  | [] => inferInstanceAs (Decidable False)
  | _ :: _ => inferInstanceAs (Decidable (_ ∧ _))

/-- The gap at the start of a text, and what follows it. -/
def lexGap (mode : GapMode) : List Char → List Char × List Char
  | [] => ([], [])
  | c :: cs =>
      if mode = .blank ∧ StartsStatement space (c :: cs) then ([], c :: cs)
      else
        let (gap, rest) := lexGap (gapStep space mode c) cs
        (c :: gap, rest)

/-! ## Statements -/

inductive Mode
  | code
  /-- After one `-`. -/
  | dash
  /-- After one `$`. -/
  | dollar
  | comment
  | quoted
  | body
  /-- After one `$` of a `$$` body. -/
  | bodyDollar
  deriving DecidableEq, Repr

def Mode.inCode : Mode → Bool
  | .code | .dash | .dollar => true
  | _ => false

def codeStep (c : Char) : Mode :=
  if c = '\'' then .quoted else if c = '-' then .dash else if c = '$' then .dollar else .code

def statementStep : Mode → Char → Mode
  | .code, c => codeStep c
  | .dash, c => if c = '-' then .comment else codeStep c
  | .dollar, c => if c = '$' then .body else codeStep c
  | .comment, c => if c = '\n' then .code else .comment
  | .quoted, c => if c = '\'' then .code else .quoted
  | .body, c => if c = '$' then .bodyDollar else .body
  | .bodyDollar, c => if c = '$' then .code else .body

/-- The text up to the first semicolon that counts, and what follows it. -/
def lexStatement (mode : Mode) : List Char → Option (List Char × List Char)
  | [] => none
  | c :: cs =>
      if mode.inCode ∧ c = ';' then some ([';'], cs)
      else
        (lexStatement (statementStep mode c) cs).map fun (statement, rest) =>
          (c :: statement, rest)

/-! ## Scripts -/

/-- A statement and the gap after it. -/
structure Piece where
  statement : List Char
  gap : List Char
  deriving DecidableEq, Repr

/-- A gap, and the statements with the gaps after them. -/
structure Script where
  lead : List Char
  pieces : List Piece
  deriving DecidableEq, Repr

/-- The pieces of a text that starts a statement.  `none`: the last statement has no
semicolon. -/
def lexPieces : ℕ → List Char → Option (List Piece)
  | _, [] => some []
  | 0, _ => none
  | fuel + 1, text => do
      let (statement, rest) ← lexStatement .code text
      let (gap, rest) := lexGap space .blank rest
      let pieces ← lexPieces fuel rest
      some (⟨statement, gap⟩ :: pieces)

def lexScript (text : List Char) : Option Script := do
  let (lead, rest) := lexGap space .blank text
  let pieces ← lexPieces space rest.length rest
  some ⟨lead, pieces⟩

/-! ## Scanning a gap -/

variable {space} {c : Char} {s t u v p r text : List Char} {mode : GapMode}

@[simp] theorem gapScan_nil : gapScan space mode [] = mode := rfl

@[simp] theorem gapScan_cons :
    gapScan space mode (c :: t) = gapScan space (gapStep space mode c) t := rfl

@[simp] theorem gapScan_append :
    gapScan space mode (s ++ t) = gapScan space (gapScan space mode s) t := by
  rw [gapScan, List.foldl_append]
  rfl

@[simp] theorem gapScan_code : gapScan space .code t = .code := by
  induction t with
  | nil => rfl
  | cons c t ih => exact ih

variable (space mode) in
/-- A line end leaves whitespace and comments behind, or statement text. -/
theorem gapStep_newline : gapStep space mode '\n' = .blank ∨ gapStep space mode '\n' = .code := by
  cases mode <;> simp [gapStep]

theorem Trivia.append (hs : Trivia space s) (ht : Trivia space t) : Trivia space (s ++ t) := by
  rw [Trivia, gapScan_append, hs]
  exact ht

theorem Trivia.of_append (hs : Trivia space s) (h : Trivia space (s ++ t)) :
    Trivia space t := by
  rw [Trivia, gapScan_append, hs] at h
  exact h

/-- Trivia is cut at a line end into trivia. -/
theorem Trivia.cut (h : Trivia space (u ++ '\n' :: v)) :
    Trivia space (u ++ ['\n']) ∧ Trivia space v := by
  rw [Trivia, gapScan_append, gapScan_cons] at h
  rw [Trivia, gapScan_append, gapScan_cons, gapScan_nil]
  rcases gapStep_newline space (gapScan space .blank u) with hline | hline
  · rw [hline] at h
    exact ⟨hline, h⟩
  · rw [hline, gapScan_code] at h
    contradiction

/-- Whitespace before the end of a line can be left out. -/
theorem Trivia.of_concat (hdash : space '-' = false) (hc : space c = true)
    (h : Trivia space (u ++ [c] ++ ['\n'])) : Trivia space (u ++ ['\n']) := by
  have hne : c ≠ '-' := by
    rintro rfl
    rw [hdash] at hc
    contradiction
  rw [Trivia, gapScan_append, gapScan_append] at h
  rw [Trivia, gapScan_append]
  cases hmode : gapScan space .blank u with
  | blank => simpa [hmode, gapStep, hc] using h
  | dash => simp [hmode, gapStep, hne] at h
  | comment => simp [gapStep]
  | code => simp [hmode, gapStep] at h

/-- What starts a statement is not trivia, nor is the beginning of it. -/
theorem StartsStatement.not_trivia (h : StartsStatement space r) (hp : p <+: r) (hne : p ≠ []) :
    ¬Trivia space (p ++ ['\n']) := by
  obtain ⟨c, p, rfl⟩ := List.exists_cons_of_ne_nil hne
  obtain ⟨r, rfl⟩ := hp
  obtain ⟨hc, hcomment⟩ := h
  intro htrivia
  by_cases hdash : c = '-'
  · subst hdash
    cases p with
    | nil => simp [Trivia, gapStep, hc] at htrivia
    | cons d p =>
        have hd : d ≠ '-' := by
          rintro rfl
          exact hcomment ⟨p ++ r, rfl⟩
        simp [Trivia, gapStep, hc, hd] at htrivia
  · simp [Trivia, gapStep, hc, hdash] at htrivia

theorem StartsStatement.of_isPrefix (h : StartsStatement space t) (hp : p <+: t) (hne : p ≠ []) :
    StartsStatement space p := by
  obtain ⟨c, p, rfl⟩ := List.exists_cons_of_ne_nil hne
  obtain ⟨t, rfl⟩ := hp
  exact ⟨h.1, fun hcomment => h.2 (hcomment.trans (List.prefix_append _ _))⟩

theorem StartsStatement.ne_nil (h : StartsStatement space t) : t ≠ [] := by
  rintro rfl
  exact h

/-! ## What the lexer cuts -/

theorem lexGap_append (space : Char → Bool) (mode : GapMode) (text : List Char) :
    (lexGap space mode text).1 ++ (lexGap space mode text).2 = text := by
  induction text generalizing mode with
  | nil => rfl
  | cons c cs ih =>
      rw [lexGap]
      split_ifs with h
      · rfl
      · exact congrArg (c :: ·) (ih _)

/-- The scan is within a gap: after one `-` another one follows. -/
def WithinGap : GapMode → List Char → Prop
  | .blank, _ => True
  | .dash, text => ['-'] <+: text
  | .comment, _ => True
  | .code, _ => False

theorem WithinGap.step (h : WithinGap mode (c :: t))
    (hstart : ¬(mode = .blank ∧ StartsStatement space (c :: t))) :
    WithinGap (gapStep space mode c) t := by
  cases mode with
  | blank =>
      by_cases hc : space c = true
      · simp [gapStep, hc, WithinGap]
      · have hcomment : ['-', '-'] <+: c :: t := by
          by_contra hcomment
          exact hstart ⟨rfl, by simpa using hc, hcomment⟩
        obtain ⟨rfl, hnext⟩ := List.cons_prefix_cons.mp hcomment
        simpa [gapStep, hc, WithinGap] using hnext
  | dash =>
      obtain ⟨rfl, -⟩ := List.cons_prefix_cons.mp h
      simp [gapStep, WithinGap]
  | comment =>
      rw [gapStep]
      split_ifs <;> trivial
  | code => exact h.elim

/-- A gap ends where a statement starts, or at the end of the text, perhaps within a comment. -/
theorem lexGap_spec (hline : space '\n' = true) (h : WithinGap mode text) :
    (StartsStatement space (lexGap space mode text).2 ∧
        gapScan space mode (lexGap space mode text).1 = .blank) ∨
      ((lexGap space mode text).2 = [] ∧
        gapScan space mode ((lexGap space mode text).1 ++ ['\n']) = .blank) := by
  induction text generalizing mode with
  | nil =>
      apply Or.inr
      cases mode with
      | blank => simp [lexGap, gapStep, hline]
      | dash => simp [WithinGap] at h
      | comment => simp [lexGap, gapStep]
      | code => exact h.elim
  | cons c cs ih =>
      rw [lexGap]
      split_ifs with hstart
      · exact Or.inl ⟨hstart.2, hstart.1⟩
      · exact ih (h.step hstart)

theorem lexGap_blank (text : List Char) (hline : space '\n' = true) :
    (StartsStatement space (lexGap space .blank text).2 ∧
        Trivia space (lexGap space .blank text).1) ∨
      ((lexGap space .blank text).2 = [] ∧
        Trivia space ((lexGap space .blank text).1 ++ ['\n'])) :=
  lexGap_spec hline trivial

/-- A statement is cut off with its semicolon. -/
theorem lexStatement_spec {mode : Mode} {statement rest : List Char}
    (h : lexStatement mode text = some (statement, rest)) :
    text = statement ++ rest ∧ [';'] <:+ statement := by
  induction text generalizing mode statement with
  | nil => simp [lexStatement] at h
  | cons c cs ih =>
      rw [lexStatement] at h
      split_ifs at h with hend
      · cases h
        exact ⟨by rw [hend.2]; rfl, List.suffix_rfl⟩
      · obtain ⟨⟨tail, rest'⟩, htail, heq⟩ := Option.map_eq_some_iff.mp h
        cases heq
        obtain ⟨htext, hsemi⟩ := ih htail
        exact ⟨congrArg (c :: ·) htext, hsemi.trans (List.suffix_cons c tail)⟩

variable (space) in
/-- The pieces are those of a text: every statement starts where a gap ends and has its
semicolon, and every gap but the last is trivia. -/
inductive Lexed : List Char → List Piece → Prop
  | nil : Lexed [] []
  | last {statement gap : List Char} : StartsStatement space (statement ++ gap) →
      [';'] <:+ statement → Trivia space (gap ++ ['\n']) →
      Lexed (statement ++ gap) [⟨statement, gap⟩]
  | cons {statement gap rest : List Char} {next : Piece} {pieces : List Piece} :
      StartsStatement space (statement ++ (gap ++ rest)) → [';'] <:+ statement →
      Trivia space gap → StartsStatement space rest → Lexed rest (next :: pieces) →
      Lexed (statement ++ (gap ++ rest)) (⟨statement, gap⟩ :: next :: pieces)

@[simp] theorem lexPieces_nil (fuel : ℕ) : lexPieces space fuel [] = some [] := by
  cases fuel <;> rfl

theorem lexPieces_succ (hne : text ≠ []) (fuel : ℕ) :
    lexPieces space (fuel + 1) text = (lexStatement .code text).bind fun cut =>
      (lexPieces space fuel (lexGap space .blank cut.2).2).map
        (⟨cut.1, (lexGap space .blank cut.2).1⟩ :: ·) := by
  obtain ⟨c, cs, rfl⟩ := List.exists_cons_of_ne_nil hne
  simp [lexPieces, Option.map_eq_bind]

theorem lexPieces_lexed (hline : space '\n' = true) {fuel : ℕ} {pieces : List Piece}
    (hstart : text = [] ∨ StartsStatement space text)
    (h : lexPieces space fuel text = some pieces) : Lexed space text pieces := by
  induction fuel generalizing text pieces with
  | zero =>
      rcases hstart with rfl | hstart
      · cases h
        exact .nil
      · obtain ⟨c, cs, rfl⟩ := List.exists_cons_of_ne_nil hstart.ne_nil
        contradiction
  | succ fuel ih =>
      rcases hstart with rfl | hstart
      · cases h
        exact .nil
      rw [lexPieces_succ hstart.ne_nil] at h
      obtain ⟨⟨statement, rest⟩, hcut, h⟩ := Option.bind_eq_some_iff.mp h
      obtain ⟨pieces', hpieces, rfl⟩ := Option.map_eq_some_iff.mp h
      obtain ⟨rfl, hsemi⟩ := lexStatement_spec hcut
      have hgap := lexGap_append space .blank rest
      rcases lexGap_blank rest hline with
        ⟨hnext, htrivia⟩ | ⟨hend, htrivia⟩
      · have hlexed := ih (Or.inr hnext) hpieces
        cases hpieces' : pieces' with
        | nil =>
            rw [hpieces'] at hlexed
            generalize (lexGap space .blank rest).2 = rest' at hlexed hnext
            cases hlexed
            exact hnext.elim
        | cons next pieces'' =>
            rw [hpieces'] at hlexed
            rw [← hgap] at hstart
            have hall := Lexed.cons hstart hsemi htrivia hnext hlexed
            rwa [hgap] at hall
      · rw [hend, lexPieces_nil, Option.some.injEq] at hpieces
        rw [hend, List.append_nil] at hgap
        subst hpieces
        rw [hgap] at htrivia ⊢
        exact .last hstart hsemi htrivia

/-- A script is its lead, which is trivia, and the text of its pieces. -/
theorem lexScript_spec (hline : space '\n' = true) {script : Script}
    (h : lexScript space text = some script) :
    ∃ rest, text = script.lead ++ rest ∧ Lexed space rest script.pieces ∧
      (Trivia space script.lead ∨ rest = [] ∧ Trivia space (script.lead ++ ['\n'])) := by
  obtain ⟨pieces, hpieces, heq⟩ := Option.bind_eq_some_iff.mp h
  cases heq
  have hlead := lexGap_blank text hline
  refine ⟨(lexGap space .blank text).2, (lexGap_append space .blank text).symm, ?_, ?_⟩
  · apply lexPieces_lexed hline ?_ hpieces
    exact hlead.symm.imp And.left And.left
  · exact hlead.imp And.right id

end AgenticGovernance.Support.SqlScript

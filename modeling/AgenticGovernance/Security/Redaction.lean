import Mathlib
import AgenticGovernance.Audit.ControlCharacters
import AgenticGovernance.Support.Substitution

/-!
# Redaction of secrets

`redact_secrets` replaces seven patterns, one after the other, in every string value of a JSON
value.  Only the first of them looks at what stands before a match: a database URL begins at
a word boundary.  Two of the others match words of a fixed length, so that a replacement can
end in the middle of a run of letters, where it leaves a boundary.

The Unicode data behind `\w` is passed as `CharClasses`; of it only the ASCII part is used.
-/

namespace AgenticGovernance.Security

open Support Audit

/-! ## The patterns -/

/-- The characters of `\s`. -/
def spaces : List Char :=
  ['\t', '\n', '\x0b', '\x0c', '\r', '\x1c', '\x1d', '\x1e', '\x1f', ' ', '\u0085', '\u00a0',
    '\u1680', '\u2000', '\u2001', '\u2002', '\u2003', '\u2004', '\u2005', '\u2006', '\u2007',
    '\u2008', '\u2009', '\u200a', '\u2028', '\u2029', '\u202f', '\u205f', '\u3000']

def isSpace (c : Char) : Bool := c ∈ spaces

section

open Regex

/-- `(?:postgres(?:ql)?|mysql|mongodb(?:\+srv)?|redis|rediss)` with `re.IGNORECASE` -/
def databaseScheme : Regex :=
  .alt (.seq (litIgnoringCase "postgres") (optional (litIgnoringCase "ql")))
    (.alt (litIgnoringCase "mysql")
      (.alt (.seq (litIgnoringCase "mongodb") (optional (litIgnoringCase "+srv")))
        (.alt (litIgnoringCase "redis") (litIgnoringCase "rediss"))))

/-- A database URL, wherever it stands. -/
def databaseUrl : Regex :=
  .seq databaseScheme (.seq (lit "://") (.repeats (chars fun c => !isSpace c) 1 none))

/-- `[A-Za-z0-9_\-]` -/
def isKeyChar (c : Char) : Bool := c.isAlphanum || c = '_' || c = '-'

/-- `[A-Za-z0-9\-]` -/
def isTokenChar (c : Char) : Bool := c.isAlphanum || c = '-'

/-- `[A-Z0-9]` -/
def isKeyIdChar (c : Char) : Bool := c.isUpper || c.isDigit

/-- `["\s:=]` -/
def isSeparator (c : Char) : Bool := isSpace c || c = '"' || c = ':' || c = '='

/-- `[A-Za-z0-9/+=]` with `re.IGNORECASE` -/
def isSecretChar (c : Char) : Bool :=
  c.isAlphanum || c = '/' || c = '+' || c = '=' || c = '\u0130' || c = '\u0131' ||
    c = '\u017f' || c = '\u212a'

def databaseUrlPattern : Regex := .seq .boundary databaseUrl

def anthropicKeyPattern : Regex := .seq (lit "sk-ant-") (.repeats (chars isKeyChar) 20 none)

def openaiKeyPattern : Regex := .seq (lit "sk-") (.repeats (chars isKeyChar) 20 none)

def slackTokenPattern : Regex := .seq (lit "xoxb-") (.repeats (chars isTokenChar) 20 none)

def githubTokenPattern : Regex :=
  .seq (lit "gh") (.seq (chars fun c => c = 'p' || c = 's')
    (.seq (lit "_") (.repeats (chars Char.isAlphanum) 30 none)))

def awsKeyIdPattern : Regex := .seq (lit "AKIA") (.repeats (chars isKeyIdChar) 16 (some 16))

def awsSecretPattern : Regex :=
  .seq (litIgnoringCase "aws_secret_access_key")
    (.seq (.repeats (chars isSeparator) 1 none) (.repeats (chars isSecretChar) 40 (some 40)))

end

/-- `_SECRET_PATTERNS` -/
def secretPatterns : List Regex :=
  [databaseUrlPattern, anthropicKeyPattern, openaiKeyPattern, slackTokenPattern,
    githubTokenPattern, awsKeyIdPattern, awsSecretPattern]

/-- `_REDACTED` -/
def redacted : List Char := ['[', 'R', 'E', 'D', 'A', 'C', 'T', 'E', 'D', ']']

/-- What `redact_secrets` makes of a string. -/
def redactText (classes : CharClasses) (text : List Char) : List Char :=
  secretPatterns.foldl (fun out pattern => pattern.sub classes redacted out) text

mutual

def redactSecrets (classes : CharClasses) : PyValue → PyValue
  | .str s => .str (String.ofList (redactText classes s.toList))
  | .dict entries => .dict (redactEntries classes entries)
  | .list items => .list (redactItems classes items)
  | .tuple items => .tuple (redactItems classes items)
  | .none => .none
  | .bool b => .bool b
  | .int n => .int n
  | .float x => .float x
  | .other text => .other text

def redactItems (classes : CharClasses) : List PyValue → List PyValue
  | [] => []
  | v :: items => redactSecrets classes v :: redactItems classes items

def redactEntries (classes : CharClasses) : List (PyKey × PyValue) → List (PyKey × PyValue)
  | [] => []
  | (k, v) :: entries => (k, redactSecrets classes v) :: redactEntries classes entries

end

/-! ## Letters up to case -/

/-- The small letter that `x` stands for with `re.IGNORECASE`. -/
def foldCase (x : Char) : Char :=
  if x = '\u0130' ∨ x = '\u0131' then 'i'
  else if x = '\u017f' then 's'
  else if x = '\u212a' then 'k'
  else x.toLower

/-- Four characters outside ASCII fold to a letter that is not their small letter. -/
theorem foldCase_cases (x : Char) :
    ((x = '\u0130' ∨ x = '\u0131') ∧ foldCase x = 'i') ∨ (x = '\u017f' ∧ foldCase x = 's') ∨
      (x = '\u212a' ∧ foldCase x = 'k') ∨
        (x ≠ '\u0130' ∧ x ≠ '\u0131' ∧ x ≠ '\u017f' ∧ x ≠ '\u212a') ∧ foldCase x = x.toLower := by
  rw [foldCase]
  by_cases hi : x = '\u0130' ∨ x = '\u0131'
  · exact Or.inl ⟨hi, if_pos hi⟩
  rw [if_neg hi]
  by_cases hs : x = '\u017f'
  · exact Or.inr (Or.inl ⟨hs, if_pos hs⟩)
  rw [if_neg hs]
  by_cases hk : x = '\u212a'
  · exact Or.inr (Or.inr (Or.inl ⟨hk, if_pos hk⟩))
  rw [if_neg hk]
  rw [not_or] at hi
  exact Or.inr (Or.inr (Or.inr ⟨⟨hi.1, hi.2, hs, hk⟩, rfl⟩))

/-- What does not fold to a letter folds to itself. -/
theorem foldCase_of_not_letter {x : Char} (h : (foldCase x).isAlpha = false) : foldCase x = x := by
  obtain ⟨-, hfold⟩ | ⟨-, hfold⟩ | ⟨-, hfold⟩ | ⟨-, hfold⟩ := foldCase_cases x
  · rw [hfold] at h
    exact absurd h (by decide)
  · rw [hfold] at h
    exact absurd h (by decide)
  · rw [hfold] at h
    exact absurd h (by decide)
  · rw [hfold, Char.isAlpha_toLower_eq_isAlpha] at h
    have hupper : ¬x.isUpper = true := by
      intro hupper
      rw [Char.isAlpha, hupper, Bool.true_or] at h
      exact absurd h (by decide)
    rw [hfold, Char.toLower_eq_of_not_isUpper hupper]

theorem foldsTo_iff {c x : Char} (hascii : c.toNat < 128) :
    Regex.foldsTo c x = true ↔ foldCase x = c := by
  have hne : ∀ y : Char, 128 ≤ y.toNat → y ≠ c := by
    intro y hy heq
    rw [heq] at hy
    omega
  rw [Regex.foldsTo]
  simp only [Bool.or_eq_true, Bool.and_eq_true, decide_eq_true_eq]
  obtain ⟨rfl | rfl, hfold⟩ | ⟨rfl, hfold⟩ | ⟨rfl, hfold⟩ | ⟨⟨h₁, h₂, h₃, h₄⟩, hfold⟩ :=
    foldCase_cases x
  · have hself : c ≠ '\u0130' := (hne _ (by decide)).symm
    simp [hfold, hself, eq_comm]
  · have hself : c ≠ '\u0131' := (hne _ (by decide)).symm
    simp [hfold, hself, eq_comm]
  · have hself : c ≠ '\u017f' := (hne _ (by decide)).symm
    simp [hfold, hself, eq_comm]
  · have hself : c ≠ '\u212a' := (hne _ (by decide)).symm
    simp [hfold, hself, eq_comm]
  · simp [hfold, h₁, h₂, h₃, h₄]

theorem foldCase_of_ascii {c : Char} (hascii : c.toNat < 128) : foldCase c = c.toLower := by
  obtain ⟨rfl | rfl, -⟩ | ⟨rfl, -⟩ | ⟨rfl, -⟩ | ⟨-, hfold⟩ := foldCase_cases c
  · exact absurd hascii (by decide)
  · exact absurd hascii (by decide)
  · exact absurd hascii (by decide)
  · exact absurd hascii (by decide)
  · exact hfold

theorem standsFor_iff {c x : Char} (hlower : c.toLower = c) (hascii : c.toNat < 128) :
    Regex.standsFor c x = true ↔ foldCase x = c := by
  rw [Regex.standsFor, hlower]
  by_cases hc : c.isAlpha = true
  · rw [if_pos hc]
    exact foldsTo_iff hascii
  · rw [if_neg hc, decide_eq_true_eq]
    constructor
    · intro heq
      rw [heq, foldCase_of_ascii hascii, hlower]
    · intro hfold
      have hletter : (foldCase x).isAlpha = false := by
        rw [hfold]
        exact Bool.not_eq_true _ ▸ hc
      rw [← hfold, foldCase_of_not_letter hletter]

/-- The words that fold to `l`. -/
def folding (l : List Char) : Language Char := {w | w.map foldCase = l}

theorem mem_folding {w l : List Char} : w ∈ folding l ↔ w.map foldCase = l := Iff.rfl

theorem folding_append (l m : List Char) : folding (l ++ m) = folding l * folding m := by
  ext w
  rw [mem_folding, List.map_eq_append_iff, Language.mem_mul]
  constructor
  · rintro ⟨u, v, rfl, hu, hv⟩
    exact ⟨u, hu, v, hv, rfl⟩
  · rintro ⟨u, hu, v, hv, rfl⟩
    exact ⟨u, v, rfl, hu, hv⟩

theorem spellings_eq_folding {s : String}
    (hs : ∀ c ∈ s.toList, c.toLower = c ∧ c.toNat < 128) :
    Regex.spellings s = folding s.toList := by
  ext w
  change List.Forall₂ (fun c x => Regex.standsFor c x = true) s.toList w ↔ w.map foldCase = _
  generalize s.toList = l at hs
  induction l generalizing w with
  | nil => rw [List.forall₂_nil_left_iff, List.map_eq_nil_iff]
  | cons c l ih =>
      rw [List.forall_mem_cons] at hs
      rw [List.forall₂_cons_left_iff, List.map_eq_cons_iff]
      constructor
      · rintro ⟨x, v, hx, hv, rfl⟩
        exact ⟨x, v, rfl, (standsFor_iff hs.1.1 hs.1.2).mp hx, (ih v hs.2).mp hv⟩
      · rintro ⟨x, v, rfl, hx, hv⟩
        exact ⟨x, v, (standsFor_iff hs.1.1 hs.1.2).mpr hx, (ih v hs.2).mpr hv, rfl⟩

/-- A text without letters is its only spelling. -/
theorem singleton_eq_folding {l : List Char} (hl : ∀ c ∈ l, c.toLower = c ∧ c.toNat < 128)
    (hletters : ∀ c ∈ l, c.isAlpha = false) : ({l} : Language Char) = folding l := by
  ext w
  rw [mem_folding]
  change w = l ↔ _
  induction l generalizing w with
  | nil => simp
  | cons c l ih =>
      rw [List.forall_mem_cons] at hl hletters
      have hc : ∀ x, foldCase x = c ↔ x = c := by
        intro x
        rw [← standsFor_iff hl.1.1 hl.1.2, Regex.standsFor, hletters.1]
        simp
      rw [List.map_eq_cons_iff]
      constructor
      · rintro rfl
        exact ⟨c, l, rfl, (hc c).mpr rfl, (ih hl.2 hletters.2 l).mp rfl⟩
      · rintro ⟨x, v, rfl, hx, hv⟩
        rw [(hc x).mp hx, (ih hl.2 hletters.2 v).mpr hv]

/-! ## Database URLs -/

/-- What a database URL begins with, in small letters. -/
def urlHeads : List (List Char) :=
  ["postgres://".toList, "postgresql://".toList, "mysql://".toList, "mongodb://".toList,
    "mongodb+srv://".toList, "redis://".toList, "rediss://".toList]

/-- The spellings of these. -/
def headWords : Language Char := {p | p.map foldCase ∈ urlHeads}

/-- The words of `databaseUrl`. -/
def urlWords : Language Char := headWords * Regex.stretch (fun c => !isSpace c) 1 none

/-- A database URL begins. -/
def StartsUrl (text : List Char) : Prop :=
  ∃ p c rest, p.map foldCase ∈ urlHeads ∧ isSpace c = false ∧ text = p ++ c :: rest

theorem schemes_mul_slashes :
    (folding "postgres".toList * (1 + folding "ql".toList) +
      (folding "mysql".toList + (folding "mongodb".toList * (1 + folding "+srv".toList) +
        (folding "redis".toList + folding "rediss".toList)))) * folding "://".toList =
      headWords := by
  simp only [mul_add, add_mul, mul_one, ← folding_append]
  ext p
  change _ ↔ p.map foldCase ∈ urlHeads
  simp only [Language.mem_add, mem_folding, urlHeads, List.mem_cons, List.not_mem_nil, or_false,
    or_assoc]
  rfl

section

open Regex

variable {classes : CharClasses} {before text : List Char}

theorem databaseUrl_recognizes : Recognizes classes databaseUrl urlWords := by
  have hword : ∀ s : String, (∀ c ∈ s.toList, c.toLower = c ∧ c.toNat < 128) →
      Recognizes classes (litIgnoringCase s) (folding s.toList) := by
    intro s hs
    rw [← spellings_eq_folding hs]
    exact recognizes_litIgnoringCase s
  have hslashes : Recognizes classes (lit "://") (folding "://".toList) := by
    rw [← singleton_eq_folding (by simp) (by simp)]
    exact recognizes_lit "://"
  have hscheme := ((hword "postgres" (by simp)).seq (hword "ql" (by simp)).optional).alt
    ((hword "mysql" (by simp)).alt
      (((hword "mongodb" (by simp)).seq (hword "+srv" (by simp)).optional).alt
        ((hword "redis" (by simp)).alt (hword "rediss" (by simp)))))
  have hrest : Recognizes classes (.repeats (chars fun c => !isSpace c) 1 none)
      (stretch (fun c => !isSpace c) 1 none) := recognizes_repeats (by simp)
  have hurl := hscheme.seq (hslashes.seq hrest)
  rw [← mul_assoc, schemes_mul_slashes] at hurl
  exact hurl

theorem startsUrl_iff : StartsUrl text ↔ ∃ w ∈ urlWords, w <+: text := by
  constructor
  · rintro ⟨p, c, rest, hp, hc, rfl⟩
    refine ⟨p ++ [c], Language.append_mem_mul hp ?_, rest, ?_⟩
    · refine mem_stretch.mpr ⟨?_, le_rfl, by simp⟩
      simpa using hc
    · rw [List.append_assoc]
      rfl
  · rintro ⟨w, hw, rest, rfl⟩
    obtain ⟨p, hp, q, hq, rfl⟩ := Language.mem_mul.mp hw
    obtain ⟨hspace, hlength, -⟩ := mem_stretch.mp hq
    obtain ⟨c, q, rfl⟩ := List.exists_cons_of_length_pos hlength
    rw [List.forall_mem_cons] at hspace
    refine ⟨p, c, q ++ rest, hp, by simpa using hspace.1, ?_⟩
    rw [List.append_assoc]
    rfl

theorem nil_notMem_urlWords : [] ∉ urlWords := by
  intro h
  obtain ⟨p, -, q, hq, hnil⟩ := Language.mem_mul.mp h
  have hlength := (mem_stretch.mp hq).2.1
  rw [(List.append_eq_nil_iff.mp hnil).2] at hlength
  cases hlength

/-- Where a URL begins, its expression matches, and nowhere else. -/
theorem run_databaseUrl_iff :
    databaseUrl.run classes ⟨before, text⟩ ≠ [] ↔ StartsUrl text := by
  rw [startsUrl_iff]
  constructor
  · intro hne
    obtain ⟨d, hd⟩ := List.exists_mem_of_ne_nil _ hne
    obtain ⟨w, hw, rest, rfl, -⟩ := (databaseUrl_recognizes _ _ _).mp hd
    exact ⟨w, hw, List.prefix_append w rest⟩
  · rintro ⟨w, hw, rest, rfl⟩
    exact List.ne_nil_of_mem ((databaseUrl_recognizes _ _ _).mpr ⟨w, hw, rest, rfl, rfl⟩)

end

/-! ## Words that cannot overlap -/

/-- What the words of the other patterns begin with, in small letters. -/
def leads : List (List Char) := [['s', 'k'], ['x', 'o'], ['g', 'h'], ['a', 'k'], ['a', 'w']]

/-- The two ends of a common text: one of two beginnings continues the other. -/
theorem heads_comparable {l s w rest : List Char} (hlead : l <+: w.map foldCase)
    (hw : w <+: s ++ rest) : l <+: s.map foldCase ∨ s.map foldCase <+: l := by
  have hl : l <+: s.map foldCase ++ rest.map foldCase := by
    rw [← List.map_append]
    exact hlead.trans (hw.map foldCase)
  exact List.prefix_or_prefix_of_prefix hl (List.prefix_append _ _)

theorem urlHeads_eq : urlHeads =
    [['p', 'o', 's', 't', 'g', 'r', 'e', 's', ':', '/', '/'],
     ['p', 'o', 's', 't', 'g', 'r', 'e', 's', 'q', 'l', ':', '/', '/'],
     ['m', 'y', 's', 'q', 'l', ':', '/', '/'],
     ['m', 'o', 'n', 'g', 'o', 'd', 'b', ':', '/', '/'],
     ['m', 'o', 'n', 'g', 'o', 'd', 'b', '+', 's', 'r', 'v', ':', '/', '/'],
     ['r', 'e', 'd', 'i', 's', ':', '/', '/'],
     ['r', 'e', 'd', 'i', 's', 's', ':', '/', '/']] := by
  simp [urlHeads]

/-- No other pattern begins inside the head of a URL. -/
theorem leads_not_in_heads : ∀ t ∈ urlHeads, ∀ s ∈ t.tails, s ≠ [] → ∀ l ∈ leads,
    ¬l <+: s ∧ ¬s <+: l := by
  rw [urlHeads_eq]
  decide

/-- No URL begins inside the head of another. -/
theorem heads_not_in_heads : ∀ t ∈ urlHeads, ∀ s ∈ t.tail.tails, s ≠ [] → ∀ l ∈ urlHeads,
    ¬l <+: s ∧ ¬s <+: l := by
  rw [urlHeads_eq]
  decide

theorem redacted_eq : redacted = '[' :: (['R', 'E', 'D', 'A', 'C', 'T', 'E', 'D'] ++ [']']) := rfl

/-- No URL begins inside a replacement. -/
theorem heads_not_in_redacted : ∀ s ∈ (redacted.map foldCase).tails, s ≠ [] → ∀ l ∈ urlHeads,
    ¬l <+: s ∧ ¬s <+: l := by
  rw [urlHeads_eq, redacted_eq]
  decide

theorem foldCase_of_mem_spaces : ∀ c ∈ spaces, foldCase c = c := by
  simp [spaces, foldCase]

theorem spaces_not_head : ∀ c ∈ spaces, ∀ l ∈ leads ++ urlHeads, l.head? ≠ some c := by
  rw [urlHeads_eq]
  simp [spaces, leads]

theorem bracket_not_head : ∀ l ∈ leads ++ urlHeads, l.head? ≠ some '[' := by
  rw [urlHeads_eq]
  decide

theorem bracket_notMem_heads : ∀ l ∈ urlHeads, '[' ∉ l := by
  rw [urlHeads_eq]
  decide

/-- What begins with one of these is neither a space nor a replacement. -/
theorem isSpace_eq_false {x : Char} {w l : List Char} (hl : l ∈ leads ++ urlHeads)
    (hlead : l <+: (x :: w).map foldCase) : isSpace x = false ∧ x ≠ '[' := by
  have hne : l ≠ [] := by
    rintro rfl
    revert hl
    rw [urlHeads_eq]
    decide
  obtain ⟨c, l, rfl⟩ := List.exists_cons_of_ne_nil hne
  rw [List.map_cons, List.cons_prefix_cons] at hlead
  constructor
  · rw [isSpace, decide_eq_false_iff_not]
    intro hspace
    refine spaces_not_head x hspace _ hl (congrArg some ?_)
    rw [hlead.1, foldCase_of_mem_spaces x hspace]
  · rintro rfl
    exact bracket_not_head _ hl (congrArg some hlead.1)

/-! ## One pattern -/

/-- The matches of the pattern leave the heads of URLs alone. -/
structure SparesHeads (classes : CharClasses) (r : Regex) : Prop where
  begins : ∀ before x after, r.longest classes before (x :: after) ≠ 0 →
    isSpace x = false ∧ x ≠ '['
  inside : ∀ before q s rest, (q ++ s).map foldCase ∈ urlHeads → q ≠ [] → s ≠ [] →
    r.longest classes (q.reverse ++ before) (s ++ rest) = 0

section

variable {classes : CharClasses} {r : Regex} {before text : List Char}

/-- Where no match begins, a URL begins after the substitution exactly if one did before. -/
theorem SparesHeads.startsUrl_iff (h : SparesHeads classes r)
    (hnone : r.longest classes before text = 0) :
    StartsUrl (substitute (r.longest classes) redacted 0 before text) ↔ StartsUrl text := by
  constructor
  · rintro ⟨p, c, rest', hp, hc, hout⟩
    have hbracket : '[' ∉ p := by
      intro hmem
      exact bracket_notMem_heads _ hp (List.mem_map.mpr ⟨'[', hmem, rfl⟩)
    rw [redacted_eq] at hout
    obtain ⟨rest, rfl, hrest, -⟩ := prefix_substitute hbracket ⟨c :: rest', hout.symm⟩
    rw [hrest] at hout
    replace hout := List.append_cancel_left hout
    rcases rest with _ | ⟨y, rest⟩
    · rw [substitute_nil] at hout
      cases hout
    · refine ⟨p, y, rest, hp, ?_, rfl⟩
      rcases hmatch : r.longest classes (p.reverse ++ before) (y :: rest) with _ | n
      · rw [substitute_copy hmatch] at hout
        rw [(List.cons.inj hout).1]
        exact hc
      · exact (h.begins _ _ _ (by rw [hmatch]; exact Nat.succ_ne_zero n)).1
  · rintro ⟨p, c, rest, hp, hc, rfl⟩
    have hcopied : substitute (r.longest classes) redacted 0 before (p ++ c :: rest) =
        p ++ substitute (r.longest classes) redacted 0 (p.reverse ++ before) (c :: rest) := by
      apply substitute_append
      rintro q s rfl hs
      rcases q with _ | ⟨x, q⟩
      · rw [List.nil_append] at hnone
        exact hnone
      · exact h.inside before (x :: q) s (c :: rest) hp (List.cons_ne_nil x q) hs
    rw [hcopied]
    rcases hmatch : r.longest classes (p.reverse ++ before) (c :: rest) with _ | n
    · rw [substitute_copy hmatch]
      exact ⟨p, c, _, hp, hc, rfl⟩
    · rw [substitute, hmatch, redacted_eq]
      exact ⟨p, '[', _, hp, by decide, rfl⟩

/-- A replacement is never the begin of a URL. -/
theorem startsUrl_redacted {u v rest : List Char} (hsplit : redacted = u ++ v) (hv : v ≠ []) :
    ¬StartsUrl (v ++ rest) := by
  rintro ⟨p, c, rest', hp, -, heq⟩
  have htail : v.map foldCase ∈ (redacted.map foldCase).tails := by
    rw [List.mem_tails, hsplit, List.map_append]
    exact List.suffix_append _ _
  have hhead : p <+: v ++ rest := ⟨c :: rest', heq.symm⟩
  obtain ⟨hleft, hright⟩ := heads_not_in_redacted _ htail (by simpa using hv) _ hp
  exact (heads_comparable (List.prefix_refl _) hhead).elim hleft hright

end

/-- Every word begins with one of the leads, and has no bracket. -/
structure SecretWords (L : Language Char) : Prop where
  lead : ∀ w ∈ L, ∃ l ∈ leads, l <+: w.map foldCase
  noBracket : ∀ w ∈ L, '[' ∉ w ∧ ']' ∉ w

namespace SecretWords

variable {classes : CharClasses} {r : Regex} {L : Language Char} {before text : List Char}

theorem nil_notMem (hL : SecretWords L) : [] ∉ L := by
  intro h
  obtain ⟨l, hl, hhead⟩ := hL.lead [] h
  rw [List.map_nil, List.prefix_nil] at hhead
  subst hhead
  revert hl
  decide

/-- A word of a secret does not begin inside the head of a URL, nor where it begins. -/
theorem longest_eq_zero (h : Regex.Recognizes classes r L) (hL : SecretWords L)
    {q s rest : List Char} (hqs : (q ++ s).map foldCase ∈ urlHeads) (hs : s ≠ []) :
    r.longest classes before (s ++ rest) = 0 := by
  rw [h.longest_eq_zero_iff hL.nil_notMem]
  intro w hw hhead
  obtain ⟨l, hl, hlead⟩ := hL.lead w hw
  have htail : s.map foldCase ∈ ((q ++ s).map foldCase).tails := by
    rw [List.mem_tails, List.map_append]
    exact List.suffix_append _ _
  obtain ⟨hleft, hright⟩ := leads_not_in_heads _ hqs _ htail (by simpa using hs) l hl
  exact (heads_comparable hlead hhead).elim hleft hright

theorem longest_eq_zero_of_startsUrl (h : Regex.Recognizes classes r L) (hL : SecretWords L)
    (hurl : StartsUrl text) : r.longest classes before text = 0 := by
  obtain ⟨p, c, rest, hp, -, rfl⟩ := hurl
  refine longest_eq_zero (q := []) h hL hp ?_
  rintro rfl
  revert hp
  rw [urlHeads_eq]
  decide

theorem sparesHeads (h : Regex.Recognizes classes r L) (hL : SecretWords L) :
    SparesHeads classes r where
  begins := by
    intro before x after hne
    rw [Ne, h.longest_eq_zero_iff hL.nil_notMem] at hne
    push Not at hne
    obtain ⟨w, hw, hhead⟩ := hne
    obtain ⟨l, hl, hlead⟩ := hL.lead w hw
    exact isSpace_eq_false (List.mem_append_left _ hl) (hlead.trans (hhead.map foldCase))
  inside := fun before q s rest hqs _ hs => longest_eq_zero h hL hqs hs

end SecretWords

/-! ## Word boundaries -/

section

variable {classes : CharClasses} {r : Regex} {before text : List Char} {prev : Bool}

/-- A URL begins at a word boundary.  The flag tells whether a word character precedes. -/
def UrlIn (classes : CharClasses) : Bool → List Char → Prop
  | _, [] => False
  | prev, x :: text =>
      (prev = false ∧ StartsUrl (x :: text)) ∨ UrlIn classes (classes.isWord x) text

theorem not_startsUrl_nil : ¬StartsUrl [] := by
  rintro ⟨p, c, rest, -, -, h⟩
  exact List.append_ne_nil_of_right_ne_nil p (List.cons_ne_nil c rest) h.symm

theorem foldCase_isAlpha {x : Char} (h : foldCase x = 'p' ∨ foldCase x = 'm' ∨ foldCase x = 'r') :
    x.isAlpha = true := by
  obtain ⟨-, hfold⟩ | ⟨-, hfold⟩ | ⟨-, hfold⟩ | ⟨-, hfold⟩ := foldCase_cases x
  · simp [hfold] at h
  · simp [hfold] at h
  · simp [hfold] at h
  · rw [← Char.isAlpha_toLower_eq_isAlpha, ← hfold]
    obtain h | h | h := h
    · rw [h]
      rfl
    · rw [h]
      rfl
    · rw [h]
      rfl

theorem isAlpha_lt {x : Char} (h : x.isAlpha = true) : x.toNat < 128 := by
  simp only [Char.isAlpha, Char.isUpper, Char.isLower, Bool.or_eq_true, Bool.and_eq_true,
    decide_eq_true_eq, ge_iff_le, UInt32.le_iff_toNat_le] at h
  have hx : x.toNat = x.val.toNat := rfl
  have hupper : 'Z'.val.toNat = 90 := rfl
  have hlower : 'z'.val.toNat = 122 := rfl
  omega

/-- A URL begins with a letter. -/
theorem StartsUrl.exists_cons (h : StartsUrl text) :
    ∃ x rest, text = x :: rest ∧ x.isAlpha = true := by
  obtain ⟨p, c, rest, hp, -, rfl⟩ := h
  have hheads : ∀ t ∈ urlHeads, ∃ y, t.head? = some y ∧ (y = 'p' ∨ y = 'm' ∨ y = 'r') := by
    rw [urlHeads_eq]
    simp
  obtain ⟨y, hy, hletter⟩ := hheads _ hp
  rcases p with _ | ⟨x, p⟩
  · cases hy
  · obtain rfl : foldCase x = y := Option.some.inj hy
    exact ⟨x, p ++ c :: rest, rfl, foldCase_isAlpha hletter⟩

theorem StartsUrl.isWord (hclasses : classes.Ascii) (h : StartsUrl text) :
    text.head?.any classes.isWord = true := by
  obtain ⟨x, rest, rfl, hx⟩ := h.exists_cons
  rw [List.head?_cons, Option.any_some, hclasses x (isAlpha_lt hx), Char.isAlphanum, hx]
  rfl

theorem run_databaseUrlPattern_iff (hclasses : classes.Ascii) :
    databaseUrlPattern.run classes ⟨before, text⟩ ≠ [] ↔
      before.head?.any classes.isWord = false ∧ StartsUrl text := by
  rw [databaseUrlPattern, Regex.run_boundary_seq]
  by_cases hword : before.head?.any classes.isWord = text.head?.any classes.isWord
  · rw [if_pos hword]
    refine iff_of_false (fun h => h rfl) ?_
    rintro ⟨hbefore, hurl⟩
    rw [hbefore, hurl.isWord hclasses] at hword
    cases hword
  · rw [if_neg hword, run_databaseUrl_iff]
    refine ⟨fun hurl => ⟨?_, hurl⟩, And.right⟩
    rw [hurl.isWord hclasses] at hword
    simpa using hword

theorem searchFrom_databaseUrlPattern (hclasses : classes.Ascii) :
    databaseUrlPattern.searchFrom classes before text = true ↔
      UrlIn classes (before.head?.any classes.isWord) text := by
  have hrun : ∀ before text, (!(databaseUrlPattern.run classes ⟨before, text⟩).isEmpty) = true ↔
      before.head?.any classes.isWord = false ∧ StartsUrl text := by
    intro before text
    rw [← run_databaseUrlPattern_iff hclasses, Bool.not_eq_true', List.isEmpty_eq_false_iff]
  induction text generalizing before with
  | nil =>
      rw [Regex.searchFrom, hrun, UrlIn]
      exact iff_of_false (fun h => not_startsUrl_nil h.2) id
  | cons x text ih =>
      rw [Regex.searchFrom, Bool.or_eq_true, hrun, UrlIn]
      exact or_congr_right ih

theorem urlIn_false_iff : UrlIn classes false text ↔ StartsUrl text ∨ UrlIn classes prev text := by
  cases text with
  | nil => simp [UrlIn, not_startsUrl_nil]
  | cons x text =>
      simp only [UrlIn, true_and]
      tauto

theorem urlIn_of_bracket (hclasses : classes.Ascii) (out : List Char) (h : StartsUrl text) :
    UrlIn classes prev (out ++ ']' :: text) := by
  induction out generalizing prev with
  | nil =>
      obtain ⟨x, rest, rfl, -⟩ := h.exists_cons
      refine Or.inr (Or.inl ⟨?_, h⟩)
      rw [hclasses ']' (by decide)]
      rfl
  | cons x out ih => exact Or.inr ih

/-- No URL begins in a replacement, and one that follows it begins at a word boundary. -/
theorem urlIn_redacted_iff (hclasses : classes.Ascii) :
    UrlIn classes prev (redacted ++ text) ↔ UrlIn classes false text := by
  have hsuffix : ∀ v u prev, redacted = u ++ v → v ≠ [] →
      (UrlIn classes prev (v ++ text) ↔ UrlIn classes false text) := by
    intro v
    induction v with
    | nil => exact fun u prev _ hv => absurd rfl hv
    | cons x v ih =>
        intro u prev hsplit hv
        rw [List.cons_append, UrlIn, or_iff_right fun h => startsUrl_redacted hsplit hv h.2]
        rcases v with _ | ⟨y, v⟩
        · have hlast : redacted.getLast? = some x := by
            rw [hsplit, List.getLast?_append, List.getLast?_singleton]
            rfl
          obtain rfl : ']' = x := Option.some.inj hlast
          rw [hclasses ']' (by decide)]
          rfl
        · exact ih (u ++ [x]) _ (by rw [hsplit, List.append_assoc]; rfl) (List.cons_ne_nil y v)
  exact hsuffix redacted [] prev rfl (by decide)

end

/-! ## What a substitution exposes -/

/-- A database URL begins, as the code's own expression decides it. -/
def startsUrl (classes : CharClasses) (text : List Char) : Bool :=
  !(databaseUrl.run classes ⟨[], text⟩).isEmpty

/-- A match of the pattern ends where a database URL begins. -/
def exposesFrom (classes : CharClasses) (r : Regex) : ℕ → List Char → List Char → Bool
  | _, _, [] => false
  | n + 1, before, x :: after => exposesFrom classes r n (x :: before) after
  | 0, before, x :: after =>
      match r.longest classes before (x :: after) with
      | 0 => exposesFrom classes r 0 (x :: before) after
      | n + 1 =>
          startsUrl classes (after.drop n) || exposesFrom classes r n (x :: before) after

section

variable {classes : CharClasses} {r : Regex} {before text u rest : List Char} {x : Char}

theorem startsUrl_eq_true_iff : startsUrl classes text = true ↔ StartsUrl text := by
  rw [startsUrl, Bool.not_eq_true', List.isEmpty_eq_false_iff]
  exact run_databaseUrl_iff

theorem exposesFrom_nil (n : ℕ) : exposesFrom classes r n before [] = false := by
  cases n with
  | zero => rfl
  | succ n => rfl

theorem exposesFrom_copy (h : r.longest classes before (x :: text) = 0) :
    exposesFrom classes r 0 before (x :: text) = exposesFrom classes r 0 (x :: before) text := by
  rw [exposesFrom, h]

theorem exposesFrom_skip (u rest before : List Char) :
    exposesFrom classes r u.length before (u ++ rest) =
      exposesFrom classes r 0 (u.reverse ++ before) rest := by
  induction u generalizing before with
  | nil => rfl
  | cons x u ih =>
      rw [List.length_cons, List.cons_append, exposesFrom, ih, List.reverse_cons,
        List.append_assoc, List.singleton_append]

theorem exposesFrom_found (hu : u ≠ []) (h : r.longest classes before (u ++ rest) = u.length) :
    exposesFrom classes r 0 before (u ++ rest) =
      (startsUrl classes rest || exposesFrom classes r 0 (u.reverse ++ before) rest) := by
  obtain ⟨x, u, rfl⟩ := List.exists_cons_of_ne_nil hu
  rw [List.cons_append] at h
  rw [List.cons_append, exposesFrom, h]
  dsimp only [List.length_cons]
  rw [exposesFrom_skip, List.drop_left, List.reverse_cons, List.append_assoc,
    List.singleton_append]

/-- In a text where every URL at a word boundary is matched by the pattern, the substitution
leaves a URL at a word boundary exactly where it exposes one. -/
theorem SparesHeads.urlIn_substitute_iff (hclasses : classes.Ascii) (h : SparesHeads classes r)
    (before text : List Char)
    (hend : ∀ before u rest, u ≠ [] → r.longest classes before (u ++ rest) = u.length →
      r.longest classes (u.reverse ++ before) rest ≠ 0 → ¬StartsUrl rest)
    (hcopy : ∀ q s, text = q ++ s → s ≠ [] → r.longest classes (q.reverse ++ before) s = 0 →
      StartsUrl s → (q.reverse ++ before).head?.any classes.isWord = true) :
    UrlIn classes (before.head?.any classes.isWord)
        (substitute (r.longest classes) redacted 0 before text) ↔
      exposesFrom classes r 0 before text = true := by
  have hbound : ∀ before after, r.longest classes before after ≤ after.length := r.longest_le
  induction before, text using scan_induction hbound with
  | nil before =>
      rw [substitute_nil, exposesFrom_nil]
      simp [UrlIn]
  | copy before x after hmatch ih =>
      rw [exposesFrom_copy hmatch]
      refine Iff.trans ?_ (ih ?_)
      · have hstart := h.startsUrl_iff hmatch
        rw [substitute_copy hmatch] at hstart
        rw [substitute_copy hmatch, UrlIn, hstart, or_iff_right]
        · rfl
        · rintro ⟨hbefore, hurl⟩
          have hword := hcopy [] (x :: after) rfl (List.cons_ne_nil x after) hmatch hurl
          rw [List.reverse_nil, List.nil_append, hbefore] at hword
          cases hword
      · rintro q s rfl hs hnone hurl
        have hword := hcopy (x :: q) s rfl hs
        rw [List.reverse_cons, List.append_assoc] at hword
        exact hword hnone hurl
  | found before u rest hu hmatch ih =>
      rw [exposesFrom_found hu hmatch, substitute_found hu hmatch, urlIn_redacted_iff hclasses,
        urlIn_false_iff, Bool.or_eq_true, startsUrl_eq_true_iff]
      refine or_congr ?_ (ih ?_)
      · by_cases hnone : r.longest classes (u.reverse ++ before) rest = 0
        · exact h.startsUrl_iff hnone
        · refine iff_of_false ?_ (hend before u rest hu hmatch hnone)
          rcases rest with _ | ⟨y, rest⟩
          · rw [substitute_nil]
            exact not_startsUrl_nil
          · obtain ⟨n, hn⟩ := Nat.exists_eq_succ_of_ne_zero hnone
            rw [substitute, hn]
            exact startsUrl_redacted (u := []) rfl (by decide)
      · rintro q s rfl hs hnone hurl
        have hword := hcopy (u ++ q) s (by rw [List.append_assoc]) hs
        rw [List.reverse_append, List.append_assoc] at hword
        exact hword hnone hurl

end

/-! ## The seven patterns -/

section

open Regex

variable {classes : CharClasses} {r : Regex} {L M : Language Char}
  {before text u rest : List Char} {p : Char → Bool}

/-- A pattern that takes all the letters that it can get does not end before a URL. -/
theorem not_startsUrl_of_stretch {least : ℕ}
    (h : Recognizes classes r (M * stretch p least none))
    (hletters : ∀ x, x.isAlpha = true → p x = true)
    (hu : u ≠ []) (hlongest : r.longest classes before (u ++ rest) = u.length) :
    ¬StartsUrl rest := by
  intro hurl
  obtain ⟨x, rest, rfl, hx⟩ := hurl.exists_cons
  obtain ⟨v, hv, w, hw, rfl⟩ := Language.mem_mul.mp (h.mem_of_longest hu hlongest)
  obtain ⟨hw', hleast, -⟩ := mem_stretch.mp hw
  refine h.not_mem_of_longest (v := [x]) (List.cons_ne_nil x []) hlongest ?_
  rw [List.append_assoc]
  refine Language.append_mem_mul hv (mem_stretch.mpr ⟨?_, ?_, by simp⟩)
  · intro y hy
    rcases List.mem_append.mp hy with hy | hy
    · exact hw' y hy
    · rw [List.mem_singleton.mp hy]
      exact hletters x hx
  · rw [List.length_append]
    exact Nat.le_add_right_of_le hleast

theorem exposesFrom_eq_false
    (hend : ∀ before u rest, u ≠ [] → r.longest classes before (u ++ rest) = u.length →
      ¬StartsUrl rest) : exposesFrom classes r 0 before text = false := by
  have hbound : ∀ before after, r.longest classes before after ≤ after.length := r.longest_le
  induction before, text using scan_induction hbound with
  | nil before => exact exposesFrom_nil 0
  | copy before x after hmatch ih => rw [exposesFrom_copy hmatch, ih]
  | found before u rest hu hmatch ih =>
      rw [exposesFrom_found hu hmatch, ih, Bool.or_false, Bool.eq_false_iff, Ne,
        startsUrl_eq_true_iff]
      exact hend before u rest hu hmatch

/-! ### Database URLs -/

theorem longest_databaseUrlPattern (hclasses : classes.Ascii) :
    databaseUrlPattern.longest classes before text =
      if before.head?.any classes.isWord = false then databaseUrl.longest classes before text
      else 0 := by
  rw [databaseUrlPattern, longest_boundary_seq]
  by_cases hurl : StartsUrl text
  · rw [hurl.isWord hclasses]
    by_cases hbefore : before.head?.any classes.isWord = false
    · rw [hbefore]
      rfl
    · rw [if_neg hbefore, if_pos (by simpa using hbefore)]
  · have hzero : databaseUrl.longest classes before text = 0 := by
      apply longest_eq_zero_of_run
      by_contra hne
      exact hurl (run_databaseUrl_iff.mp hne)
    rw [hzero, ite_self, ite_self]

/-- A match of the pattern ends at a space or at the end of the text. -/
theorem databaseUrlPattern_end (hclasses : classes.Ascii) (before u rest : List Char) (hu : u ≠ [])
    (hlongest : databaseUrlPattern.longest classes before (u ++ rest) = u.length) :
    ¬StartsUrl rest := by
  rw [longest_databaseUrlPattern hclasses] at hlongest
  split at hlongest
  · have hspaces : ∀ c ∈ spaces, c.isAlpha = false := by simp [spaces]
    refine not_startsUrl_of_stretch databaseUrl_recognizes ?_ hu hlongest
    intro x hx
    rw [Bool.not_eq_true', isSpace, decide_eq_false_iff_not]
    intro hmem
    rw [hspaces x hmem] at hx
    cases hx
  · exact absurd (List.eq_nil_of_length_eq_zero hlongest.symm) hu

theorem databaseUrlPattern_sparesHeads (hclasses : classes.Ascii) :
    SparesHeads classes databaseUrlPattern where
  begins := by
    intro before x after hne
    rw [longest_databaseUrlPattern hclasses] at hne
    split at hne
    · have hrun : databaseUrl.run classes ⟨before, x :: after⟩ ≠ [] :=
        fun hrun => hne (longest_eq_zero_of_run hrun)
      obtain ⟨p, c, rest, hp, -, heq⟩ := run_databaseUrl_iff.mp hrun
      refine isSpace_eq_false (w := after) (List.mem_append_right _ hp) ?_
      rw [heq, List.map_append]
      exact List.prefix_append _ _
    · exact absurd rfl hne
  inside := by
    intro before q s rest hqs hq hs
    rw [longest_databaseUrlPattern hclasses]
    split
    · apply longest_eq_zero_of_run
      by_contra hrun
      obtain ⟨p, c, rest', hp, -, heq⟩ := run_databaseUrl_iff.mp hrun
      obtain ⟨x, q, rfl⟩ := List.exists_cons_of_ne_nil hq
      have htail : s.map foldCase ∈ (((x :: q) ++ s).map foldCase).tail.tails := by
        rw [List.mem_tails, List.cons_append, List.map_cons, List.tail_cons, List.map_append]
        exact List.suffix_append _ _
      obtain ⟨hleft, hright⟩ := heads_not_in_heads _ hqs _ htail (by simpa using hs) _ hp
      have hhead : p <+: s ++ rest := ⟨c :: rest', heq.symm⟩
      exact (heads_comparable (List.prefix_refl _) hhead).elim hleft hright
    · rfl

/-- The first pattern leaves no URL at a word boundary. -/
theorem not_urlIn_sub_databaseUrlPattern (hclasses : classes.Ascii) (text : List Char) :
    ¬UrlIn classes false (databaseUrlPattern.sub classes redacted text) := by
  have hiff := (databaseUrlPattern_sparesHeads hclasses).urlIn_substitute_iff hclasses [] text
    (fun before u rest hu hlongest _ => databaseUrlPattern_end hclasses before u rest hu hlongest)
  rw [exposesFrom_eq_false (databaseUrlPattern_end hclasses)] at hiff
  intro hurl
  refine absurd ((hiff ?_).mp hurl) (by simp)
  intro q s htext hs hzero hstart
  by_contra hword
  rw [longest_databaseUrlPattern hclasses, if_pos (by simpa using hword)] at hzero
  obtain ⟨w, hw, hhead⟩ := startsUrl_iff.mp hstart
  exact (databaseUrl_recognizes.longest_eq_zero_iff nil_notMem_urlWords).mp hzero w hw hhead

/-! ### Keys and tokens -/

def BracketFree (L : Language Char) : Prop := ∀ w ∈ L, '[' ∉ w ∧ ']' ∉ w

theorem BracketFree.mul (hL : BracketFree L) (hM : BracketFree M) : BracketFree (L * M) := by
  intro w hw
  obtain ⟨u, hu, v, hv, rfl⟩ := Language.mem_mul.mp hw
  obtain ⟨hu₁, hu₂⟩ := hL u hu
  obtain ⟨hv₁, hv₂⟩ := hM v hv
  rw [List.mem_append, List.mem_append]
  exact ⟨not_or.mpr ⟨hu₁, hv₁⟩, not_or.mpr ⟨hu₂, hv₂⟩⟩

theorem bracketFree_stretch (hopen : p '[' = false) (hclose : p ']' = false) (least : ℕ)
    (most : Option ℕ) : BracketFree (stretch p least most) := by
  intro w hw
  have hletters := (mem_stretch.mp hw).1
  constructor
  · intro hmem
    rw [hletters _ hmem] at hopen
    cases hopen
  · intro hmem
    rw [hletters _ hmem] at hclose
    cases hclose

theorem secretWords_literal {l : List Char} (hlead : ∃ l' ∈ leads, l' <+: l.map foldCase)
    (hbracket : '[' ∉ l ∧ ']' ∉ l) : SecretWords {l} where
  lead := by
    rintro w rfl
    exact hlead
  noBracket := by
    rintro w rfl
    exact hbracket

theorem SecretWords.mul (hL : SecretWords L) (hM : BracketFree M) : SecretWords (L * M) where
  lead := by
    intro w hw
    obtain ⟨u, hu, v, -, rfl⟩ := Language.mem_mul.mp hw
    obtain ⟨l, hl, hhead⟩ := hL.lead u hu
    refine ⟨l, hl, hhead.trans ?_⟩
    rw [List.map_append]
    exact List.prefix_append _ _
  noBracket := BracketFree.mul hL.noBracket hM

/-- A literal with a lead of two letters, and the letters of a token after it. -/
theorem secretWords_token {l lead : List Char} (hlead : lead ∈ leads)
    (hstarts : lead <+: l.map foldCase) (hbracket : '[' ∉ l ∧ ']' ∉ l) (hopen : p '[' = false)
    (hclose : p ']' = false) (least : ℕ) (most : Option ℕ) :
    SecretWords ({l} * stretch p least most) :=
  (secretWords_literal ⟨lead, hlead, hstarts⟩ hbracket).mul
    (bracketFree_stretch hopen hclose least most)

theorem anthropicKey_recognizes : Recognizes classes anthropicKeyPattern
    ({"sk-ant-".toList} * stretch isKeyChar 20 none) :=
  (recognizes_lit _).seq (recognizes_repeats (by simp))

theorem openaiKey_recognizes : Recognizes classes openaiKeyPattern
    ({"sk-".toList} * stretch isKeyChar 20 none) :=
  (recognizes_lit _).seq (recognizes_repeats (by simp))

theorem slackToken_recognizes : Recognizes classes slackTokenPattern
    ({"xoxb-".toList} * stretch isTokenChar 20 none) :=
  (recognizes_lit _).seq (recognizes_repeats (by simp))

theorem githubToken_recognizes : Recognizes classes githubTokenPattern
    ({"gh".toList} * (stretch (fun c => c = 'p' || c = 's') 1 (some 1) * {"_".toList}) *
      stretch Char.isAlphanum 30 none) := by
  rw [mul_assoc, mul_assoc]
  exact (recognizes_lit "gh").seq (recognizes_chars.seq ((recognizes_lit "_").seq
    (recognizes_repeats (by simp))))

theorem awsKeyId_recognizes : Recognizes classes awsKeyIdPattern
    ({"AKIA".toList} * stretch isKeyIdChar 16 (some 16)) :=
  (recognizes_lit _).seq (recognizes_repeats (by simp))

theorem awsSecret_recognizes : Recognizes classes awsSecretPattern
    (folding "aws_secret_access_key".toList *
      (stretch isSeparator 1 none * stretch isSecretChar 40 (some 40))) := by
  have hname : Recognizes classes (litIgnoringCase "aws_secret_access_key")
      (folding "aws_secret_access_key".toList) := by
    rw [← spellings_eq_folding (by simp)]
    exact recognizes_litIgnoringCase _
  exact hname.seq ((recognizes_repeats (by simp)).seq (recognizes_repeats (by simp)))

theorem awsSecret_words : SecretWords (folding "aws_secret_access_key".toList *
    (stretch isSeparator 1 none * stretch isSecretChar 40 (some 40))) := by
  have hname : SecretWords (folding "aws_secret_access_key".toList) := by
    constructor
    · intro w hw
      rw [mem_folding.mp hw]
      exact ⟨['a', 'w'], by simp [leads], by simp⟩
    · intro w hw
      have hfold : ∀ c ∈ w, foldCase c ∈ "aws_secret_access_key".toList := by
        intro c hc
        rw [← mem_folding.mp hw]
        exact List.mem_map_of_mem hc
      constructor
      · intro hmem
        have := hfold _ hmem
        revert this
        simp [foldCase]
      · intro hmem
        have := hfold _ hmem
        revert this
        simp [foldCase]
  refine hname.mul (BracketFree.mul ?_ ?_)
  · exact bracketFree_stretch (by decide) (by decide) _ _
  · exact bracketFree_stretch (by decide) (by decide) _ _

/-- The patterns after the first match words of this kind, wherever they stand. -/
theorem secretPatterns_words : ∀ r ∈ secretPatterns.tail,
    ∃ L, Recognizes classes r L ∧ SecretWords L := by
  simp only [secretPatterns, List.tail_cons, List.forall_mem_cons]
  refine ⟨⟨_, anthropicKey_recognizes, ?_⟩, ⟨_, openaiKey_recognizes, ?_⟩,
    ⟨_, slackToken_recognizes, ?_⟩, ⟨_, githubToken_recognizes, ?_⟩, ⟨_, awsKeyId_recognizes, ?_⟩,
    ⟨_, awsSecret_recognizes, awsSecret_words⟩, fun r hr => absurd hr List.not_mem_nil⟩
  · have hlead : ['s', 'k'] ∈ leads := by simp [leads]
    exact secretWords_token hlead (by simp [foldCase]) (by simp) (by decide) (by decide) _ _
  · have hlead : ['s', 'k'] ∈ leads := by simp [leads]
    exact secretWords_token hlead (by simp [foldCase]) (by simp) (by decide) (by decide) _ _
  · have hlead : ['x', 'o'] ∈ leads := by simp [leads]
    exact secretWords_token hlead (by simp [foldCase]) (by simp) (by decide) (by decide) _ _
  · refine ((secretWords_literal ⟨['g', 'h'], by simp [leads], by simp [foldCase]⟩ (by simp)).mul
      ?_).mul (bracketFree_stretch (by decide) (by decide) _ _)
    refine BracketFree.mul (bracketFree_stretch (by decide) (by decide) _ _) ?_
    rintro w rfl
    simp
  · have hlead : ['a', 'k'] ∈ leads := by simp [leads]
    exact secretWords_token hlead (by simp [foldCase]) (by simp) (by decide) (by decide) _ _

/-- The keys and tokens without a greatest length do not end before a URL. -/
theorem keyPatterns_end : ∀ r ∈ [anthropicKeyPattern, openaiKeyPattern, slackTokenPattern,
    githubTokenPattern], ∀ before u rest, u ≠ [] →
      r.longest classes before (u ++ rest) = u.length → ¬StartsUrl rest := by
  have halnum : ∀ x : Char, x.isAlpha = true → x.isAlphanum = true := by
    intro x hx
    rw [Char.isAlphanum, hx, Bool.true_or]
  simp only [List.forall_mem_cons]
  refine ⟨?_, ?_, ?_, ?_, fun r hr => absurd hr List.not_mem_nil⟩
  · intro before u rest hu
    refine not_startsUrl_of_stretch anthropicKey_recognizes (fun x hx => ?_) hu
    rw [isKeyChar, halnum x hx, Bool.true_or, Bool.true_or]
  · intro before u rest hu
    refine not_startsUrl_of_stretch openaiKey_recognizes (fun x hx => ?_) hu
    rw [isKeyChar, halnum x hx, Bool.true_or, Bool.true_or]
  · intro before u rest hu
    refine not_startsUrl_of_stretch slackToken_recognizes (fun x hx => ?_) hu
    rw [isTokenChar, halnum x hx, Bool.true_or]
  · intro before u rest hu
    exact not_startsUrl_of_stretch githubToken_recognizes halnum hu

/-! ## One string -/

/-- What the first five patterns leave of a text. -/
def redactUnbounded (classes : CharClasses) (text : List Char) : List Char :=
  [databaseUrlPattern, anthropicKeyPattern, openaiKeyPattern, slackTokenPattern,
    githubTokenPattern].foldl (fun out pattern => pattern.sub classes redacted out) text

/-- An AWS key id that is replaced ends where a database URL begins, or an AWS secret does. -/
def exposesUrl (classes : CharClasses) (text : List Char) : Bool :=
  let left := redactUnbounded classes text
  exposesFrom classes awsKeyIdPattern 0 [] left ||
    exposesFrom classes awsSecretPattern 0 [] (awsKeyIdPattern.sub classes redacted left)

/-- A URL that a replacement exposes stands right after it. -/
theorem exists_of_exposesFrom (h : SparesHeads classes r)
    (hnone : ∀ before text, StartsUrl text → r.longest classes before text = 0)
    (hexposes : exposesFrom classes r 0 before text = true) :
    ∃ q s, substitute (r.longest classes) redacted 0 before text = q ++ ']' :: s ∧
      StartsUrl s := by
  have hbound : ∀ before after, r.longest classes before after ≤ after.length := r.longest_le
  induction before, text using scan_induction hbound with
  | nil before =>
      rw [exposesFrom_nil] at hexposes
      cases hexposes
  | copy before x after hmatch ih =>
      rw [exposesFrom_copy hmatch] at hexposes
      obtain ⟨q, s, hout, hs⟩ := ih hexposes
      refine ⟨x :: q, s, ?_, hs⟩
      rw [substitute_copy hmatch, hout]
      rfl
  | found before u rest hu hmatch ih =>
      rw [exposesFrom_found hu hmatch, Bool.or_eq_true, startsUrl_eq_true_iff] at hexposes
      rw [substitute_found hu hmatch]
      rcases hexposes with hurl | hlater
      · refine ⟨redacted.dropLast, _, ?_,
          (h.startsUrl_iff (hnone (u.reverse ++ before) _ hurl)).mpr hurl⟩
        rw [redacted_eq]
        rfl
      · obtain ⟨q, s, hout, hs⟩ := ih hlater
        refine ⟨redacted ++ q, s, ?_, hs⟩
        rw [hout, List.append_assoc]

theorem not_prefix_body {w : List Char} (hL : SecretWords L) (hw : w ∈ L) :
    ¬w <:+: ['R', 'E', 'D', 'A', 'C', 'T', 'E', 'D'] := by
  intro hinside
  obtain ⟨l, hl, hlead⟩ := hL.lead w hw
  have hbody : ∀ l ∈ leads, ¬l <:+: ['r', 'e', 'd', 'a', 'c', 't', 'e', 'd'] := by decide
  exact hbody l hl (hlead.isInfix.trans (hinside.map foldCase))

/-- A pattern after the first that is not found stays so, whatever is substituted. -/
theorem not_searchFrom_sub (hL : ∃ L, Recognizes classes r L ∧ SecretWords L) (q : Regex)
    (h : r.searchFrom classes [] text = false) :
    r.searchFrom classes [] (q.sub classes redacted text) = false := by
  obtain ⟨L, hr, hL⟩ := hL
  rw [Bool.eq_false_iff, Ne, hr.searchFrom_iff] at h ⊢
  rintro ⟨w, hw, hinside⟩
  obtain ⟨hopen, hclose⟩ := hL.noBracket w hw
  refine h ⟨w, hw, infix_of_infix_sub ?_ hopen hclose (not_prefix_body hL hw) hinside⟩
  rintro rfl
  exact hL.nil_notMem hw

/-- It is not found after its own substitution. -/
theorem not_searchFrom_sub_self (hL : ∃ L, Recognizes classes r L ∧ SecretWords L) :
    r.searchFrom classes [] (r.sub classes redacted text) = false := by
  obtain ⟨L, hr, hL⟩ := hL
  rw [Bool.eq_false_iff, Ne, hr.searchFrom_iff]
  rintro ⟨w, hw, hinside⟩
  obtain ⟨hopen, hclose⟩ := hL.noBracket w hw
  exact hr.not_infix_sub hL.nil_notMem hw hopen hclose (not_prefix_body hL hw) hinside

theorem not_searchFrom_foldl (patterns : List Regex)
    (hL : ∃ L, Recognizes classes r L ∧ SecretWords L)
    (h : r ∈ patterns ∨ r.searchFrom classes [] text = false) :
    r.searchFrom classes []
      (patterns.foldl (fun out pattern => pattern.sub classes redacted out) text) = false := by
  induction patterns generalizing text with
  | nil => exact h.resolve_left List.not_mem_nil
  | cons q patterns ih =>
      refine ih ?_
      rcases h with hmem | hnone
      · rcases List.mem_cons.mp hmem with rfl | hmem
        · exact Or.inr (not_searchFrom_sub_self hL)
        · exact Or.inl hmem
      · exact Or.inr (not_searchFrom_sub hL q hnone)

/-- No secret but a database URL is left. -/
theorem not_searchFrom_redactText (hr : r ∈ secretPatterns.tail) (text : List Char) :
    r.searchFrom classes [] (redactText classes text) = false :=
  not_searchFrom_foldl secretPatterns (secretPatterns_words r hr)
    (Or.inl (List.mem_of_mem_tail hr))

/-- After a substitution by a later pattern, a URL stands at a word boundary exactly where the
pattern exposed one, if there was none. -/
theorem urlIn_sub_iff (hclasses : classes.Ascii) (hL : ∃ L, Recognizes classes r L ∧ SecretWords L)
    (h : ¬UrlIn classes false text) :
    UrlIn classes false (r.sub classes redacted text) ↔ exposesFrom classes r 0 [] text = true := by
  obtain ⟨L, hr, hL⟩ := hL
  have hword : ∀ q s prev, ¬UrlIn classes prev (q ++ s) → StartsUrl s →
      (q.getLast?.map classes.isWord).getD prev = true := by
    intro q
    induction q with
    | nil =>
        intro s prev hnone hurl
        obtain ⟨x, rest, rfl, -⟩ := hurl.exists_cons
        by_contra hprev
        exact hnone (Or.inl ⟨by simpa using hprev, hurl⟩)
    | cons x q ih =>
        intro s prev hnone hurl
        have hlater := ih s (classes.isWord x) (fun hin => hnone (Or.inr hin)) hurl
        rcases q.eq_nil_or_concat' with rfl | ⟨init, y, rfl⟩
        · exact hlater
        · rw [List.getLast?_append, List.getLast?_singleton] at hlater
          rw [← List.cons_append, List.getLast?_append, List.getLast?_singleton]
          exact hlater
  refine (hL.sparesHeads hr).urlIn_substitute_iff hclasses [] text ?_ ?_
  · intro before u rest _ _ hnext hurl
    exact hnext (SecretWords.longest_eq_zero_of_startsUrl hr hL hurl)
  · rintro q s rfl - - hurl
    have hlast := hword q s false h hurl
    rw [List.append_nil, List.head?_reverse]
    rcases hq : q.getLast? with _ | x
    · rw [hq] at hlast
      cases hlast
    · rw [hq] at hlast
      exact hlast

/-- The first five patterns leave no URL at a word boundary. -/
theorem not_urlIn_redactUnbounded (hclasses : classes.Ascii) (text : List Char) :
    ¬UrlIn classes false (redactUnbounded classes text) := by
  have hstep : ∀ r ∈ [anthropicKeyPattern, openaiKeyPattern, slackTokenPattern,
      githubTokenPattern], ∀ text, ¬UrlIn classes false text →
        ¬UrlIn classes false (r.sub classes redacted text) := by
    intro r hr text hnone
    have hmem : r ∈ secretPatterns.tail := List.mem_append_left [_, _] hr
    rw [urlIn_sub_iff hclasses (secretPatterns_words r hmem) hnone,
      exposesFrom_eq_false (keyPatterns_end r hr)]
    exact Bool.false_ne_true
  rw [redactUnbounded, List.foldl_cons]
  simp only [List.forall_mem_cons] at hstep
  obtain ⟨h₁, h₂, h₃, h₄, -⟩ := hstep
  exact h₄ _ (h₃ _ (h₂ _ (h₁ _ (not_urlIn_sub_databaseUrlPattern hclasses text))))

/-- A database URL is left in a redacted text exactly if a replacement exposed it. -/
theorem searchFrom_redactText_iff (hclasses : classes.Ascii) (text : List Char) :
    databaseUrlPattern.searchFrom classes [] (redactText classes text) = true ↔
      exposesUrl classes text = true := by
  have hleft := not_urlIn_redactUnbounded hclasses text
  have hkeyId : ∃ L, Recognizes classes awsKeyIdPattern L ∧ SecretWords L :=
    secretPatterns_words _ (by simp [secretPatterns])
  rw [searchFrom_databaseUrlPattern hclasses, exposesUrl, Bool.or_eq_true]
  change UrlIn classes false (awsSecretPattern.sub classes redacted
    (awsKeyIdPattern.sub classes redacted (redactUnbounded classes text))) ↔ _
  by_cases hexposes : exposesFrom classes awsKeyIdPattern 0 [] (redactUnbounded classes text) = true
  · -- the seventh pattern does not touch what the sixth has exposed
    refine iff_of_true ?_ (Or.inl hexposes)
    obtain ⟨L, hr, hL⟩ := hkeyId
    obtain ⟨q, s, hout, hurl⟩ := exists_of_exposesFrom (hL.sparesHeads hr)
      (fun _ _ hurl => SecretWords.longest_eq_zero_of_startsUrl hr hL hurl) hexposes
    have hrecognizes : Recognizes classes awsSecretPattern _ := awsSecret_recognizes
    have hbound : ∀ before after,
        awsSecretPattern.longest classes before after ≤ after.length := awsSecretPattern.longest_le
    obtain ⟨out, hcopied⟩ : ∃ out,
        substitute (awsSecretPattern.longest classes) redacted 0 [] (q ++ ']' :: s) =
          out ++ ']' :: substitute (awsSecretPattern.longest classes) redacted 0
            (']' :: (q.reverse ++ [])) s := by
      apply substitute_append_cons hbound
      intro before u rest hu hlongest
      exact (awsSecret_words.noBracket u (hrecognizes.mem_of_longest hu hlongest)).2
    rw [Regex.sub, Regex.sub, hout, hcopied]
    refine urlIn_of_bracket hclasses out ?_
    refine ((awsSecret_words.sparesHeads hrecognizes).startsUrl_iff ?_).mpr hurl
    exact SecretWords.longest_eq_zero_of_startsUrl hrecognizes awsSecret_words hurl
  · rw [or_iff_right hexposes]
    refine urlIn_sub_iff hclasses ⟨_, awsSecret_recognizes, awsSecret_words⟩ ?_
    rw [urlIn_sub_iff hclasses hkeyId hleft]
    exact hexposes

theorem foldl_sub_eq_self (patterns : List Regex)
    (h : ∀ r ∈ patterns, r.searchFrom classes [] text = false) :
    patterns.foldl (fun out pattern => pattern.sub classes redacted out) text = text := by
  induction patterns with
  | nil => rfl
  | cons r patterns ih =>
      rw [List.forall_mem_cons] at h
      rw [List.foldl_cons, sub_eq_self h.1]
      exact ih h.2

/-- A text in which a URL stands at a word boundary is not left as it is. -/
theorem searchFrom_of_sub_eq_self (hclasses : classes.Ascii)
    (h : databaseUrlPattern.sub classes redacted text = text) :
    databaseUrlPattern.searchFrom classes [] text = false := by
  rw [Bool.eq_false_iff, Ne, searchFrom_iff]
  rintro ⟨u, v, huv, hne⟩
  obtain ⟨hbefore, hurl⟩ := (run_databaseUrlPattern_iff hclasses).mp hne
  have hfirst : ∀ before after, databaseUrlPattern.longest classes before ('[' :: after) = 0 := by
    intro before after
    by_contra hmatch
    exact ((databaseUrlPattern_sparesHeads hclasses).begins before '[' after hmatch).2 rfl
  rw [Regex.sub, redacted_eq] at h
  have hv : v ≠ [] := by
    rintro rfl
    exact not_startsUrl_nil hurl
  have hzero := eq_zero_of_substitute_eq_self hfirst h huv hv
  rw [longest_databaseUrlPattern hclasses, if_pos hbefore] at hzero
  obtain ⟨w, hw, hhead⟩ := startsUrl_iff.mp hurl
  exact (databaseUrl_recognizes.longest_eq_zero_iff nil_notMem_urlWords).mp hzero w hw hhead

/-- The URLs are replaced first. -/
theorem redactText_eq (text : List Char) :
    redactText classes text = secretPatterns.tail.foldl
      (fun out pattern => pattern.sub classes redacted out)
      (databaseUrlPattern.sub classes redacted text) :=
  List.foldl_cons ..

/-- A second pass changes a redacted text exactly if the first one exposed a URL. -/
theorem redactText_redactText_iff (hclasses : classes.Ascii) (text : List Char) :
    redactText classes (redactText classes text) = redactText classes text ↔
      exposesUrl classes text = false := by
  have hfound := searchFrom_redactText_iff hclasses text
  constructor
  · intro hsame
    have hothers : ∀ r ∈ secretPatterns.tail, r.searchFrom classes []
        (databaseUrlPattern.sub classes redacted (redactText classes text)) = false :=
      fun r hr => not_searchFrom_sub (secretPatterns_words r hr) _
        (not_searchFrom_redactText hr text)
    have hsub : databaseUrlPattern.sub classes redacted (redactText classes text) =
        redactText classes text := by
      rw [← foldl_sub_eq_self secretPatterns.tail hothers, ← redactText_eq]
      exact hsame
    rw [Bool.eq_false_iff, Ne, ← hfound, searchFrom_of_sub_eq_self hclasses hsub]
    exact Bool.false_ne_true
  · intro hnone
    refine foldl_sub_eq_self secretPatterns ?_
    intro r hr
    rcases List.mem_cons.mp hr with rfl | hr
    · rw [Bool.eq_false_iff, Ne, hfound, hnone]
      exact Bool.false_ne_true
    · exact not_searchFrom_redactText hr text

end

/-! ## Nested values -/

mutual

/-- The string values, at any depth. -/
def valueLeaves : PyValue → List String
  | .str s => [s]
  | .list items => itemLeaves items
  | .tuple items => itemLeaves items
  | .dict entries => entryLeaves entries
  | _ => []

def itemLeaves : List PyValue → List String
  | [] => []
  | v :: items => valueLeaves v ++ itemLeaves items

def entryLeaves : List (PyKey × PyValue) → List String
  | [] => []
  | (_, v) :: entries => valueLeaves v ++ entryLeaves entries

end

section

variable {classes : CharClasses} (P : String → Prop)

mutual

/-- The strings of a redacted value are the keys as they were, and the redacted leaves. -/
theorem forall_strings_redactSecrets : ∀ v : PyValue,
    (∀ s ∈ valueStrings (redactSecrets classes v), P s) ↔
      (∀ k ∈ valueKeys v, P k) ∧
        ∀ s ∈ valueLeaves v, P (String.ofList (redactText classes s.toList))
  | .str s => by
      simp only [redactSecrets, valueStrings, valueKeys, valueLeaves, List.forall_mem_singleton]
      exact (and_iff_right fun k hk => absurd hk List.not_mem_nil).symm
  | .list items => by
      rw [redactSecrets, valueStrings, valueKeys, valueLeaves]
      exact forall_strings_redactItems items
  | .tuple items => by
      rw [redactSecrets, valueStrings, valueKeys, valueLeaves]
      exact forall_strings_redactItems items
  | .dict entries => by
      rw [redactSecrets, valueStrings, valueKeys, valueLeaves]
      exact forall_strings_redactEntries entries
  | .none => by simp [redactSecrets, valueStrings, valueKeys, valueLeaves]
  | .bool _ => by simp [redactSecrets, valueStrings, valueKeys, valueLeaves]
  | .int _ => by simp [redactSecrets, valueStrings, valueKeys, valueLeaves]
  | .float _ => by simp [redactSecrets, valueStrings, valueKeys, valueLeaves]
  | .other _ => by simp [redactSecrets, valueStrings, valueKeys, valueLeaves]

theorem forall_strings_redactItems : ∀ items : List PyValue,
    (∀ s ∈ itemStrings (redactItems classes items), P s) ↔
      (∀ k ∈ itemKeys items, P k) ∧
        ∀ s ∈ itemLeaves items, P (String.ofList (redactText classes s.toList))
  | [] => by simp [redactItems, itemStrings, itemKeys, itemLeaves]
  | v :: items => by
      rw [redactItems, itemStrings, itemKeys, itemLeaves, List.forall_mem_append,
        List.forall_mem_append, List.forall_mem_append, forall_strings_redactSecrets v,
        forall_strings_redactItems items]
      exact and_and_and_comm

theorem forall_strings_redactEntries : ∀ entries : List (PyKey × PyValue),
    (∀ s ∈ entryStrings (redactEntries classes entries), P s) ↔
      (∀ k ∈ entryKeys entries, P k) ∧
        ∀ s ∈ entryLeaves entries, P (String.ofList (redactText classes s.toList))
  | [] => by simp [redactEntries, entryStrings, entryKeys, entryLeaves]
  | (k, v) :: entries => by
      simp only [redactEntries, entryStrings, entryKeys, entryLeaves, List.forall_mem_append]
      rw [forall_strings_redactSecrets v, forall_strings_redactEntries entries]
      tauto

end

end

mutual

/-- A second pass leaves a redacted value alone exactly if it leaves its strings alone. -/
theorem redactSecrets_redactSecrets_iff {classes : CharClasses} (hclasses : classes.Ascii) :
    ∀ v : PyValue, redactSecrets classes (redactSecrets classes v) = redactSecrets classes v ↔
      ∀ s ∈ valueLeaves v, exposesUrl classes s.toList = false
  | .str s => by
      rw [redactSecrets, redactSecrets, valueLeaves, List.forall_mem_singleton,
        String.toList_ofList, PyValue.str.injEq, String.ofList_inj]
      exact redactText_redactText_iff hclasses s.toList
  | .list items => by
      rw [redactSecrets, redactSecrets, valueLeaves, PyValue.list.injEq]
      exact redactItems_redactItems_iff hclasses items
  | .tuple items => by
      rw [redactSecrets, redactSecrets, valueLeaves, PyValue.tuple.injEq]
      exact redactItems_redactItems_iff hclasses items
  | .dict entries => by
      rw [redactSecrets, redactSecrets, valueLeaves, PyValue.dict.injEq]
      exact redactEntries_redactEntries_iff hclasses entries
  | .none => by simp [redactSecrets, valueLeaves]
  | .bool _ => by simp [redactSecrets, valueLeaves]
  | .int _ => by simp [redactSecrets, valueLeaves]
  | .float _ => by simp [redactSecrets, valueLeaves]
  | .other _ => by simp [redactSecrets, valueLeaves]

theorem redactItems_redactItems_iff {classes : CharClasses} (hclasses : classes.Ascii) :
    ∀ items : List PyValue,
      redactItems classes (redactItems classes items) = redactItems classes items ↔
        ∀ s ∈ itemLeaves items, exposesUrl classes s.toList = false
  | [] => by simp [redactItems, itemLeaves]
  | v :: items => by
      rw [redactItems, redactItems, itemLeaves, List.forall_mem_append, List.cons.injEq,
        redactSecrets_redactSecrets_iff hclasses v, redactItems_redactItems_iff hclasses items]

theorem redactEntries_redactEntries_iff {classes : CharClasses} (hclasses : classes.Ascii) :
    ∀ entries : List (PyKey × PyValue),
      redactEntries classes (redactEntries classes entries) = redactEntries classes entries ↔
        ∀ s ∈ entryLeaves entries, exposesUrl classes s.toList = false
  | [] => by simp [redactEntries, entryLeaves]
  | (k, v) :: entries => by
      rw [redactEntries, redactEntries, entryLeaves, List.forall_mem_append, List.cons.injEq,
        Prod.mk.injEq, redactSecrets_redactSecrets_iff hclasses v,
        redactEntries_redactEntries_iff hclasses entries]
      simp

end

/-! ## Completeness -/

/-- Redaction leaves no secret, and a second pass changes nothing, exactly if no key holds a
secret and in no string value does a replacement expose a database URL. -/
theorem redaction_complete_iff {classes : CharClasses} (hclasses : classes.Ascii) (v : PyValue) :
    ((∀ s ∈ valueStrings (redactSecrets classes v), ∀ pattern ∈ secretPatterns,
          pattern.search classes s = false) ∧
        redactSecrets classes (redactSecrets classes v) = redactSecrets classes v) ↔
      (∀ k ∈ valueKeys v, ∀ pattern ∈ secretPatterns, pattern.search classes k = false) ∧
        ∀ s ∈ valueLeaves v, exposesUrl classes s.toList = false := by
  have hleaf : ∀ s : String, (∀ pattern ∈ secretPatterns,
      pattern.search classes (String.ofList (redactText classes s.toList)) = false) ↔
        exposesUrl classes s.toList = false := by
    intro s
    have hfound := searchFrom_redactText_iff hclasses s.toList
    constructor
    · intro h
      have hnone := h databaseUrlPattern List.mem_cons_self
      rw [Regex.search, String.toList_ofList] at hnone
      rw [Bool.eq_false_iff, Ne, ← hfound, hnone]
      exact Bool.false_ne_true
    · intro hnone r hr
      rw [Regex.search, String.toList_ofList]
      rcases List.mem_cons.mp hr with rfl | hr
      · rw [Bool.eq_false_iff, Ne, hfound, hnone]
        exact Bool.false_ne_true
      · exact not_searchFrom_redactText hr s.toList
  rw [redactSecrets_redactSecrets_iff hclasses,
    forall_strings_redactSecrets fun s =>
      ∀ pattern ∈ secretPatterns, pattern.search classes s = false]
  simp only [hleaf]
  exact and_iff_left_of_imp And.right

/-! ### Three values -/

def asciiClasses : CharClasses := ⟨Char.isDigit, fun c => c.isAlphanum || c = '_'⟩

/-- A note with a URL is redacted completely. -/
theorem url_in_note_redacted :
    redactSecrets asciiClasses (.dict [(.str "note", .str "see redis://h now")]) =
        .dict [(.str "note", .str "see [REDACTED] now")] ∧
      (∀ s ∈ valueStrings (redactSecrets asciiClasses
          (.dict [(.str "note", .str "see redis://h now")])),
        ∀ pattern ∈ secretPatterns, pattern.search asciiClasses s = false) := by
  have htext :
      redactText asciiClasses "see redis://h now".toList = "see [REDACTED] now".toList := by
    decide +kernel
  refine ⟨?_, ((redaction_complete_iff (fun _ _ => rfl) _).mpr ⟨?_, ?_⟩).1⟩
  · rw [redactSecrets, redactEntries, redactSecrets, htext, String.ofList_toList]
    rfl
  · intro k hk
    obtain rfl : k = "note" := List.mem_singleton.mp hk
    decide +kernel
  · intro s hs
    obtain rfl : s = "see redis://h now" := List.mem_singleton.mp hs
    decide +kernel

/-- A key id that runs into a URL exposes the URL, a second pass changes the text again, and a
key of a dictionary is not redacted at all. -/
theorem redaction_incomplete :
    (redactSecrets asciiClasses (.str "AKIAABCDEFGHIJKLMNOPpostgres://u:p@h") =
        .str "[REDACTED]postgres://u:p@h" ∧
      databaseUrlPattern.search asciiClasses "[REDACTED]postgres://u:p@h" = true ∧
      redactSecrets asciiClasses (.str "[REDACTED]postgres://u:p@h") =
        .str "[REDACTED][REDACTED]") ∧
    redactSecrets asciiClasses (.dict [(.str "sk-aaaaaaaaaaaaaaaaaaaa", .none)]) =
        .dict [(.str "sk-aaaaaaaaaaaaaaaaaaaa", .none)] ∧
      openaiKeyPattern.search asciiClasses "sk-aaaaaaaaaaaaaaaaaaaa" = true := by
  have hfirst : redactText asciiClasses "AKIAABCDEFGHIJKLMNOPpostgres://u:p@h".toList =
      "[REDACTED]postgres://u:p@h".toList := by
    decide +kernel
  have hsecond : redactText asciiClasses "[REDACTED]postgres://u:p@h".toList =
      "[REDACTED][REDACTED]".toList := by
    decide +kernel
  refine ⟨⟨?_, by decide +kernel, ?_⟩, rfl, by decide +kernel⟩
  · rw [redactSecrets, hfirst, String.ofList_toList]
  · rw [redactSecrets, hsecond, String.ofList_toList]

end AgenticGovernance.Security

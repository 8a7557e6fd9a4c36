import Mathlib

/-!
# Comma-separated values

A writer that quotes a field only where it must, and a reader of the same format.  Rows end
with a carriage return and a line feed; a quote inside a quoted field is doubled.

`read_write` is the round trip.  Whatever characters the fields contain, what is read has the
rows and the fields that were written, so no field can end its row or its cell early.
-/

namespace AgenticGovernance.Support

/-- The characters with a meaning, apart from the line ends. -/
structure CsvDialect where
  delimiter : Char
  quotechar : Char
  delimiter_ne_quotechar : delimiter ≠ quotechar
  delimiter_ne_cr : delimiter ≠ '\r'
  delimiter_ne_lf : delimiter ≠ '\n'
  quotechar_ne_cr : quotechar ≠ '\r'
  quotechar_ne_lf : quotechar ≠ '\n'

/-- `csv.excel` -/
def CsvDialect.excel : CsvDialect :=
  ⟨',', '"', by decide, by decide, by decide, by decide, by decide⟩

namespace CsvDialect

variable (D : CsvDialect)

/-! ## The writer -/

/-- The characters that make a field quoted. -/
def IsSpecial (c : Char) : Prop := c = D.delimiter ∨ c = D.quotechar ∨ c = '\r' ∨ c = '\n'

instance (c : Char) : Decidable (D.IsSpecial c) :=
  inferInstanceAs (Decidable (_ ∨ _ ∨ _ ∨ _))

/-- A character inside quotes. -/
def quotedChar (c : Char) : List Char := if c = D.quotechar then [c, c] else [c]

def quoted (field : List Char) : List Char :=
  D.quotechar :: (field.flatMap D.quotedChar ++ [D.quotechar])

/-- `QUOTE_MINIMAL` -/
def fieldText (field : List Char) : List Char :=
  if ∃ c ∈ field, D.IsSpecial c then D.quoted field else field

/-- The fields of a row, each after the first with a delimiter before it. -/
def fieldsText : List (List Char) → List Char
  | [] => []
  | [field] => D.fieldText field
  | field :: fields => D.fieldText field ++ D.delimiter :: fieldsText fields

/-- A row of a single empty field is quoted, to tell it from an empty row. -/
def rowText (row : List (List Char)) : List Char :=
  (if row = [[]] then D.quoted [] else D.fieldsText row) ++ ['\r', '\n']

def write (rows : List (List (List Char))) : List Char := rows.flatMap D.rowText

/-! ## The reader -/

/-- What the reader has seen of the current row.  `closing` is after a quote that may end the
field, and `ending` after a carriage return. -/
inductive ReadMode where
  | startRow
  | startField
  | inField
  | inQuotes
  | closing
  | ending
  deriving DecidableEq

structure ReadState where
  mode : ReadMode
  field : List Char
  row : List (List Char)
  rows : List (List (List Char))

namespace ReadState

def start : ReadState := ⟨.startRow, [], [], []⟩

def add (s : ReadState) (c : Char) (mode : ReadMode) : ReadState :=
  { s with field := s.field ++ [c], mode := mode }

/-- The end of a field. -/
def save (s : ReadState) (mode : ReadMode) : ReadState :=
  { s with field := [], row := s.row ++ [s.field], mode := mode }

end ReadState

/-- A character after which a field goes on, or ends. -/
def readPlain (s : ReadState) (c : Char) : Option ReadState :=
  if c = D.delimiter then some (s.save .startField)
  else if c = '\r' then some (s.save .ending)
  else if D.IsSpecial c then none
  else some (s.add c .inField)

def readChar (s : ReadState) (c : Char) : Option ReadState :=
  match s.mode with
  | .startRow =>
      if c = D.quotechar then some { s with mode := .inQuotes }
      else if c = '\r' then some { s with mode := .ending }
      else D.readPlain s c
  | .startField =>
      if c = D.quotechar then some { s with mode := .inQuotes } else D.readPlain s c
  | .inField => D.readPlain s c
  | .inQuotes =>
      if c = D.quotechar then some { s with mode := .closing } else some (s.add c .inQuotes)
  | .closing =>
      if c = D.quotechar then some (s.add c .inQuotes)
      else if c = D.delimiter then some (s.save .startField)
      else if c = '\r' then some (s.save .ending)
      else none
  | .ending =>
      if c = '\n' then
        some { s with mode := .startRow, row := [], rows := s.rows ++ [s.row] }
      else none

def readChars (s : ReadState) : List Char → Option ReadState
  | [] => some s
  | c :: text => (D.readChar s c).bind fun t => readChars t text

/-- The rows of a text all of whose rows are complete. -/
def read (text : List Char) : Option (List (List (List Char))) :=
  match D.readChars .start text with
  | some s => if s.mode = .startRow then some s.rows else none
  | none => none

/-! ## What the reader does with a field -/

section Fields

variable {D} {s t : ReadState} {c : Char} {field : List Char}

theorem readChars_append (text text' : List Char) :
    D.readChars s (text ++ text') = (D.readChars s text).bind fun t => D.readChars t text' := by
  induction text generalizing s with
  | nil => rfl
  | cons c text ih =>
      rw [List.cons_append, readChars, readChars]
      rcases D.readChar s c with - | t
      · rfl
      · exact ih

theorem readChars_append_of_eq_some {text text' : List Char} (h : D.readChars s text = some t) :
    D.readChars s (text ++ text') = D.readChars t text' := by
  rw [readChars_append, h, Option.bind_some]

theorem readChars_singleton (c : Char) : D.readChars s [c] = D.readChar s c := by
  rw [readChars]
  rcases D.readChar s c with - | t
  · rfl
  · rfl

/-- Inside quotes every character is read as itself, a doubled quote as one quote. -/
theorem readChars_quotedChars (hmode : s.mode = .inQuotes) :
    D.readChars s (field.flatMap D.quotedChar) =
      some { s with field := s.field ++ field } := by
  induction field generalizing s with
  | nil => simp [readChars]
  | cons c field ih =>
      have hchar : D.readChars s (D.quotedChar c) = some (s.add c .inQuotes) := by
        by_cases hquote : c = D.quotechar
        · simp [quotedChar, hquote, readChars, readChar, hmode, ReadState.add]
        · simp [quotedChar, hquote, readChars, readChar, hmode]
      rw [List.flatMap_cons, readChars_append_of_eq_some hchar, ih rfl]
      simp [ReadState.add, hmode]

/-- At the start of a field. -/
structure ReadState.AtField (s : ReadState) : Prop where
  mode : s.mode = .startRow ∨ s.mode = .startField
  field : s.field = []

theorem readChars_quoted (hs : s.AtField) :
    D.readChars s (D.quoted field) = some { s with mode := .closing, field := field } := by
  have hopen : D.readChars s [D.quotechar] = some { s with mode := .inQuotes } := by
    rw [readChars_singleton]
    rcases hs.mode with hmode | hmode
    · simp [readChar, hmode]
    · simp [readChar, hmode]
  have hcontent : D.readChars { s with mode := .inQuotes } (field.flatMap D.quotedChar) =
      some { s with mode := .inQuotes, field := s.field ++ field } :=
    readChars_quotedChars rfl
  rw [quoted, ← List.singleton_append, readChars_append_of_eq_some hopen,
    readChars_append_of_eq_some hcontent, readChars_singleton]
  simp [readChar, hs.field]

theorem readChars_plain (hmode : s.mode = .inField) (hplain : ∀ c ∈ field, ¬D.IsSpecial c) :
    D.readChars s field = some { s with field := s.field ++ field } := by
  induction field generalizing s with
  | nil => simp [readChars]
  | cons c field ih =>
      have hc := hplain c List.mem_cons_self
      have hchar : D.readChar s c = some (s.add c .inField) := by
        have hdelimiter : c ≠ D.delimiter := fun heq => hc (Or.inl heq)
        have hcr : c ≠ '\r' := fun heq => hc (Or.inr (Or.inr (Or.inl heq)))
        simp [readChar, hmode, readPlain, hdelimiter, hcr, hc]
      rw [readChars, hchar, Option.bind_some,
        ih rfl fun c' hc' => hplain c' (List.mem_cons_of_mem c hc')]
      simp [ReadState.add, hmode]

/-- All of a field has been read, and nothing after it. -/
structure ReadState.AfterField (s t : ReadState) (text : List Char) : Prop where
  field : t.field = text
  row : t.row = s.row
  rows : t.rows = s.rows
  mode : t.mode = .closing ∨ t.mode = .inField ∨ t.mode = s.mode ∧ text = []

theorem exists_afterField (hs : s.AtField) (field : List Char) :
    ∃ t, D.readChars s (D.fieldText field) = some t ∧ s.AfterField t field := by
  by_cases hspecial : ∃ c ∈ field, D.IsSpecial c
  · rw [fieldText, if_pos hspecial, readChars_quoted hs]
    exact ⟨_, rfl, rfl, rfl, rfl, Or.inl rfl⟩
  · rw [fieldText, if_neg hspecial]
    cases field with
    | nil => exact ⟨s, rfl, hs.field, rfl, rfl, Or.inr (Or.inr ⟨rfl, rfl⟩)⟩
    | cons c field =>
        have hplain : ∀ c' ∈ c :: field, ¬D.IsSpecial c' := by
          intro c' hc' hbad
          exact hspecial ⟨c', hc', hbad⟩
        have hc := hplain c List.mem_cons_self
        have hchar : D.readChar s c = some (s.add c .inField) := by
          have hdelimiter : c ≠ D.delimiter := fun heq => hc (Or.inl heq)
          have hquote : c ≠ D.quotechar := fun heq => hc (Or.inr (Or.inl heq))
          have hcr : c ≠ '\r' := fun heq => hc (Or.inr (Or.inr (Or.inl heq)))
          rcases hs.mode with hmode | hmode
          · simp [readChar, hmode, readPlain, hdelimiter, hquote, hcr, hc]
          · simp [readChar, hmode, readPlain, hdelimiter, hquote, hcr, hc]
        rw [readChars, hchar, Option.bind_some,
          readChars_plain rfl fun c' hc' => hplain c' (List.mem_cons_of_mem c hc')]
        exact ⟨_, rfl, by simp [ReadState.add, hs.field], rfl, rfl, Or.inr (Or.inl rfl)⟩

theorem readChar_delimiter (hs : s.AtField) (ht : s.AfterField t field) :
    D.readChar t D.delimiter = some ⟨.startField, [], s.row ++ [field], s.rows⟩ := by
  have hne := D.delimiter_ne_quotechar
  have hcr := D.delimiter_ne_cr
  have hsaved : t.save .startField = ⟨.startField, [], s.row ++ [field], s.rows⟩ := by
    rw [ReadState.save, ht.field, ht.row, ht.rows]
  rw [← hsaved]
  rcases ht.mode with hmode | hmode | ⟨hmode, -⟩
  · simp [readChar, hmode, hne]
  · simp [readChar, hmode, readPlain]
  · rcases hs.mode with hstart | hstart
    · simp [readChar, hmode, hstart, readPlain, hne, hcr]
    · simp [readChar, hmode, hstart, readPlain, hne]

/-- The end of the row, unless the field is empty and the first of its row. -/
theorem readChar_cr (hs : s.AtField) (ht : s.AfterField t field)
    (hfirst : s.mode = .startField ∨ field ≠ [] ∨ t.mode = .closing) :
    D.readChar t '\r' = some ⟨.ending, [], s.row ++ [field], s.rows⟩ := by
  have hne := D.quotechar_ne_cr.symm
  have hdelimiter := D.delimiter_ne_cr.symm
  have hsaved : t.save .ending = ⟨.ending, [], s.row ++ [field], s.rows⟩ := by
    rw [ReadState.save, ht.field, ht.row, ht.rows]
  rw [← hsaved]
  rcases ht.mode with hmode | hmode | ⟨hmode, hempty⟩
  · simp [readChar, hmode, hne, hdelimiter]
  · simp [readChar, hmode, readPlain, hdelimiter]
  · have hstart : s.mode = .startField := by
      rcases hfirst with hstart | hfield | hclosing
      · exact hstart
      · exact absurd hempty hfield
      · rw [hmode] at hclosing
        rcases hs.mode with hstart | hstart
        · simp [hclosing] at hstart
        · exact hstart
    simp [readChar, hmode, hstart, readPlain, hne, hdelimiter]

end Fields

/-! ## The round trip -/

section Rows

variable {D} {s : ReadState} {rows : List (List (List Char))}

theorem readChars_fieldsText (row : List (List Char)) (hs : s.AtField) (hrow : row ≠ [])
    (hfirst : s.mode = .startField ∨ row ≠ [[]]) :
    D.readChars s (D.fieldsText row ++ ['\r']) =
      some ⟨.ending, [], s.row ++ row, s.rows⟩ := by
  induction row generalizing s with
  | nil => exact absurd rfl hrow
  | cons field fields ih =>
      obtain ⟨t, hread, ht⟩ : ∃ t, D.readChars s (D.fieldText field) = some t ∧
          s.AfterField t field := exists_afterField hs field
      cases fields with
      | nil =>
          have hend : s.mode = .startField ∨ field ≠ [] ∨ t.mode = .closing := by
            rcases hfirst with hstart | hne
            · exact Or.inl hstart
            · exact Or.inr (Or.inl fun heq => hne (by rw [heq]))
          have htext : D.fieldsText [field] = D.fieldText field := rfl
          rw [htext, readChars_append_of_eq_some hread, readChars_singleton]
          exact readChar_cr hs ht hend
      | cons field' fields =>
          have hnext : D.readChars ⟨.startField, [], s.row ++ [field], s.rows⟩
              (D.fieldsText (field' :: fields) ++ ['\r']) =
              some ⟨.ending, [], (s.row ++ [field]) ++ (field' :: fields), s.rows⟩ :=
            ih ⟨Or.inr rfl, rfl⟩ (List.cons_ne_nil _ _) (Or.inl rfl)
          have htext : D.fieldsText (field :: field' :: fields) =
              D.fieldText field ++ D.delimiter :: D.fieldsText (field' :: fields) := rfl
          rw [htext, List.append_assoc, readChars_append_of_eq_some hread, List.cons_append,
            readChars, readChar_delimiter hs ht, Option.bind_some, hnext]
          simp

theorem readChars_rowText (row : List (List Char)) :
    D.readChars ⟨.startRow, [], [], rows⟩ (D.rowText row) =
      some ⟨.startRow, [], [], rows ++ [row]⟩ := by
  have hs : (⟨.startRow, [], [], rows⟩ : ReadState).AtField := ⟨Or.inl rfl, rfl⟩
  have hcr : D.readChars ⟨.startRow, [], [], rows⟩
      ((if row = [[]] then D.quoted [] else D.fieldsText row) ++ ['\r']) =
      some ⟨.ending, [], row, rows⟩ := by
    by_cases hsingle : row = [[]]
    · rw [if_pos hsingle, hsingle, readChars_append_of_eq_some (readChars_quoted hs),
        readChars_singleton]
      exact readChar_cr hs ⟨rfl, rfl, rfl, Or.inl rfl⟩ (Or.inr (Or.inr rfl))
    · rw [if_neg hsingle]
      by_cases hempty : row = []
      · have htext : D.fieldsText [] = [] := rfl
        rw [hempty, htext, List.nil_append, readChars_singleton]
        simp [readChar, D.quotechar_ne_cr.symm]
      · exact readChars_fieldsText row hs hempty (Or.inr hsingle)
  have hsplit : D.rowText row =
      ((if row = [[]] then D.quoted [] else D.fieldsText row) ++ ['\r']) ++ ['\n'] := by
    simp [rowText]
  have hlf : D.readChar ⟨.ending, [], row, rows⟩ '\n' =
      some ⟨.startRow, [], [], rows ++ [row]⟩ := by
    simp [readChar]
  rw [hsplit, readChars_append_of_eq_some hcr, readChars_singleton]
  exact hlf

theorem readChars_write (rows' : List (List (List Char))) :
    D.readChars ⟨.startRow, [], [], rows⟩ (D.write rows') =
      some ⟨.startRow, [], [], rows ++ rows'⟩ := by
  induction rows' generalizing rows with
  | nil => simp [write, readChars]
  | cons row rows' ih =>
      have hrest : D.write (row :: rows') = D.rowText row ++ D.write rows' := rfl
      rw [hrest, readChars_append_of_eq_some (readChars_rowText row), ih, List.append_assoc,
        List.singleton_append]

end Rows

/-- What is written is read back as it was. -/
theorem read_write (rows : List (List (List Char))) : D.read (D.write rows) = some rows := by
  have hread : D.readChars .start (D.write rows) = some ⟨.startRow, [], [], [] ++ rows⟩ :=
    readChars_write rows
  rw [read, hread]
  rfl

end CsvDialect

end AgenticGovernance.Support

import Mathlib
import AgenticGovernance.Support.Csv
import AgenticGovernance.Support.PyValue

/-!
# The CSV export

A spreadsheet evaluates a cell that begins with one of a few characters.  `_csv_safe` puts a
single quote before such a cell, and `write_rows` writes every cell of the export through it.

`exported_cells_inert` says what a reader of the file gets: the same rows and cells, none of
which begins with one of these characters.  The quote costs very little: two different cells
look alike only if one is the other with a quote before it.
-/

namespace AgenticGovernance.Cost

open Support

/-- `_DANGEROUS_PREFIXES` -/
def dangerousPrefixes : List Char := ['=', '+', '-', '@', '\t', '\r']

/-- `s and s[0] in _DANGEROUS_PREFIXES` -/
def Dangerous (s : String) : Prop := ∃ c ∈ s.toList.head?, c ∈ dangerousPrefixes

instance (s : String) : Decidable (Dangerous s) :=
  inferInstanceAs (Decidable (∃ c ∈ s.toList.head?, c ∈ dangerousPrefixes))

section Export

-- `str(value)` of a value that is no string
variable (str : PyValue → String)

/-- The text of a cell before it is made safe. -/
def cellText : PyValue → String
  | .none => ""
  | .str s => s
  | value => str value

/-- `_csv_safe` -/
def csvSafe (value : PyValue) : String :=
  if Dangerous (cellText str value) then "'" ++ cellText str value else cellText str value

/-- The cells that `write_rows` hands to the writer, the header first. -/
def safeCells (header : List PyValue) (rows : List (List PyValue)) : List (List String) :=
  (header :: rows).map fun row => row.map (csvSafe str)

/-- `write_rows` -/
def writeRows (header : List PyValue) (rows : List (List PyValue)) : String :=
  String.ofList (CsvDialect.excel.write
    ((safeCells str header rows).map fun row => row.map String.toList))

/-- The rows of a file. -/
def readRows (text : String) : Option (List (List String)) :=
  (CsvDialect.excel.read text.toList).map fun rows => rows.map fun row => row.map String.ofList

variable {str}

theorem readRows_writeRows (header : List PyValue) (rows : List (List PyValue)) :
    readRows (writeRows str header rows) = some (safeCells str header rows) := by
  rw [readRows, writeRows, String.toList_ofList, CsvDialect.read_write, Option.map_some,
    List.map_map]
  have hrow : ∀ row : List String, (row.map String.toList).map String.ofList = row := by
    intro row
    simp
  congr 1
  calc (safeCells str header rows).map _ = (safeCells str header rows).map id := by
        apply List.map_congr_left
        intro row _
        exact hrow row
    _ = safeCells str header rows := List.map_id _

theorem not_dangerous_quote (s : String) : ¬Dangerous ("'" ++ s) := by
  have hhead : ("'" ++ s).toList.head? = some '\'' := by simp
  rw [Dangerous, hhead]
  simp [dangerousPrefixes]

theorem csvSafe_of_dangerous {value : PyValue} (h : Dangerous (cellText str value)) :
    csvSafe str value = "'" ++ cellText str value := by
  rw [csvSafe, if_pos h]

theorem csvSafe_of_not_dangerous {value : PyValue} (h : ¬Dangerous (cellText str value)) :
    csvSafe str value = cellText str value := by
  rw [csvSafe, if_neg h]

theorem not_dangerous_csvSafe (value : PyValue) : ¬Dangerous (csvSafe str value) := by
  by_cases h : Dangerous (cellText str value)
  · rw [csvSafe_of_dangerous h]
    exact not_dangerous_quote _
  · rwa [csvSafe_of_not_dangerous h]

theorem csvSafe_idem (value : PyValue) :
    csvSafe str (.str (csvSafe str value)) = csvSafe str value := by
  have htext : cellText str (.str (csvSafe str value)) = csvSafe str value := by
    rw [cellText]
  have hsafe : ¬Dangerous (cellText str (.str (csvSafe str value))) := by
    rw [htext]
    exact not_dangerous_csvSafe value
  rw [csvSafe_of_not_dangerous hsafe, htext]

/-- Which cells cannot be told apart in the file. -/
theorem csvSafe_eq_iff {v w : PyValue} :
    csvSafe str v = csvSafe str w ↔
      cellText str v = cellText str w ∨
      (Dangerous (cellText str v) ∧ cellText str w = "'" ++ cellText str v) ∨
      (Dangerous (cellText str w) ∧ cellText str v = "'" ++ cellText str w) := by
  have hquoted : ∀ {s t : String}, s = "'" ++ t → ¬Dangerous s := by
    intro s t heq
    rw [heq]
    exact not_dangerous_quote t
  have hcons : ∀ {s t : String}, "'" ++ s = "'" ++ t ↔ s = t := by
    intro s t
    simp
  by_cases hv : Dangerous (cellText str v)
  · by_cases hw : Dangerous (cellText str w)
    · rw [csvSafe_of_dangerous hv, csvSafe_of_dangerous hw, hcons]
      constructor
      · exact Or.inl
      · intro h
        rcases h with heq | ⟨-, heq⟩ | ⟨-, heq⟩
        · exact heq
        · exact absurd hw (hquoted heq)
        · exact absurd hv (hquoted heq)
    · rw [csvSafe_of_dangerous hv, csvSafe_of_not_dangerous hw]
      constructor
      · intro h
        exact Or.inr (Or.inl ⟨hv, h.symm⟩)
      · intro h
        rcases h with heq | ⟨-, heq⟩ | ⟨hbad, -⟩
        · rw [heq] at hv
          exact absurd hv hw
        · exact heq.symm
        · exact absurd hbad hw
  · by_cases hw : Dangerous (cellText str w)
    · rw [csvSafe_of_not_dangerous hv, csvSafe_of_dangerous hw]
      constructor
      · intro h
        exact Or.inr (Or.inr ⟨hw, h⟩)
      · intro h
        rcases h with heq | ⟨hbad, -⟩ | ⟨-, heq⟩
        · rw [← heq] at hw
          exact absurd hw hv
        · exact absurd hbad hv
        · exact heq
    · rw [csvSafe_of_not_dangerous hv, csvSafe_of_not_dangerous hw]
      constructor
      · exact Or.inl
      · intro h
        rcases h with heq | ⟨hbad, -⟩ | ⟨hbad, -⟩
        · exact heq
        · exact absurd hbad hv
        · exact absurd hbad hw

theorem forall₂_of_map_eq {α β : Type} {f : α → β} {l l' : List α} (h : l.map f = l'.map f) :
    List.Forall₂ (fun a b => f a = f b) l l' := by
  rw [← List.forall₂_eq_eq_eq, List.forall₂_map_left_iff, List.forall₂_map_right_iff] at h
  exact h

/-- A reader of the file gets its rows and cells one for one.  No cell begins with a character
that a spreadsheet evaluates, a second pass changes nothing, and two exports are the same file
only if their cells differ at most by a quote in front. -/
theorem exported_cells_inert (header : List PyValue) (rows : List (List PyValue)) :
    readRows (writeRows str header rows) = some (safeCells str header rows) ∧
      (∀ row ∈ safeCells str header rows, ∀ cell ∈ row,
        ¬Dangerous cell ∧ csvSafe str (.str cell) = cell) ∧
      ∀ header' rows', writeRows str header' rows' = writeRows str header rows →
        List.Forall₂ (List.Forall₂ fun v w =>
          cellText str v = cellText str w ∨
          (Dangerous (cellText str v) ∧ cellText str w = "'" ++ cellText str v) ∨
          (Dangerous (cellText str w) ∧ cellText str v = "'" ++ cellText str w))
          (header' :: rows') (header :: rows) := by
  refine ⟨readRows_writeRows header rows, ?_, ?_⟩
  · intro row hrow cell hcell
    obtain ⟨cells, -, hcells⟩ := List.mem_map.mp hrow
    rw [← hcells] at hcell
    obtain ⟨value, -, hvalue⟩ := List.mem_map.mp hcell
    rw [← hvalue]
    exact ⟨not_dangerous_csvSafe value, csvSafe_idem value⟩
  · intro header' rows' heq
    have hread : readRows (writeRows str header' rows') = some (safeCells str header' rows') :=
      readRows_writeRows header' rows'
    rw [heq, readRows_writeRows] at hread
    have hcells : (header' :: rows').map (fun row => row.map (csvSafe str)) =
        (header :: rows).map fun row => row.map (csvSafe str) :=
      (Option.some.inj hread).symm
    have hrows := forall₂_of_map_eq hcells
    apply hrows.imp
    intro row row' hrow
    apply (forall₂_of_map_eq hrow).imp
    intro v w hvw
    exact csvSafe_eq_iff.mp hvw

end Export

end AgenticGovernance.Cost

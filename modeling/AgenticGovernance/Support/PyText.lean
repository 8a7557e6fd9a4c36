import Mathlib
import AgenticGovernance.Support.Segments

/-!
# Texts with surrogates

A Python string is a sequence of code points, and surrogates are among them.  Such a text has a
UTF-8 form only if it has none, and then it is a `String`.  The operating system takes those
surrogates that stand for an undecodable byte.
-/

namespace AgenticGovernance.Support

structure CodePoint where
  val : ℕ
  isLt : val < 0x110000
  deriving DecidableEq

abbrev PyText := List CodePoint

def CodePoint.ofChar (c : Char) : CodePoint :=
  ⟨c.toNat, by
    rcases c.valid with h | ⟨-, h⟩
    · exact h.trans (by decide)
    · exact h⟩

/-- A code point of the range D800 to DFFF. -/
def CodePoint.IsSurrogate (p : CodePoint) : Prop := 0xD800 ≤ p.val ∧ p.val ≤ 0xDFFF

instance (p : CodePoint) : Decidable p.IsSurrogate := inferInstanceAs (Decidable (_ ∧ _))

/-- The character of a code point that is no surrogate. -/
def CodePoint.toChar? (p : CodePoint) : Option Char :=
  if p.IsSurrogate then none else some (Char.ofNat p.val)

namespace PyText

def ofString (s : String) : PyText := s.toList.map .ofChar

/-- `text.encode("utf-8")`; `none` is the `UnicodeEncodeError`.  The bytes are those of the
result. -/
def encodeUtf8 (text : PyText) : Option String := (text.mapM CodePoint.toChar?).map String.ofList

/-- A text without surrogates. -/
def Encodable (text : PyText) : Prop := ∀ p ∈ text, ¬p.IsSurrogate

/-- A text that `os.fsencode` takes: a surrogate may stand for a byte above 7F. -/
def FsEncodable (text : PyText) : Prop :=
  ∀ p ∈ text, p.IsSurrogate → 0xDC80 ≤ p.val ∧ p.val ≤ 0xDCFF

def IsAscii (text : PyText) : Prop := ∀ p ∈ text, p.val < 128

instance (text : PyText) : Decidable text.Encodable :=
  inferInstanceAs (Decidable (∀ p ∈ text, ¬p.IsSurrogate))

instance (text : PyText) : Decidable text.FsEncodable :=
  inferInstanceAs (Decidable (∀ p ∈ text, p.IsSurrogate → 0xDC80 ≤ p.val ∧ p.val ≤ 0xDCFF))

instance (text : PyText) : Decidable text.IsAscii :=
  inferInstanceAs (Decidable (∀ p ∈ text, p.val < 128))

end PyText

/-! ## Characters as code points -/

@[simp] theorem CodePoint.val_ofChar (c : Char) : (CodePoint.ofChar c).val = c.toNat := rfl

theorem CodePoint.ofChar_injective : Function.Injective CodePoint.ofChar := by
  intro c d h
  have hval := congrArg CodePoint.val h
  rw [val_ofChar, val_ofChar] at hval
  exact Char.toNat_inj.mp hval

theorem CodePoint.not_isSurrogate_ofChar (c : Char) : ¬(CodePoint.ofChar c).IsSurrogate := by
  rw [IsSurrogate, val_ofChar]
  have hvalid : c.toNat < 0xD800 ∨ 0xDFFF < c.toNat := c.valid.imp_right And.left
  omega

@[simp] theorem CodePoint.toChar?_ofChar (c : Char) : (CodePoint.ofChar c).toChar? = some c := by
  rw [toChar?, if_neg (not_isSurrogate_ofChar c)]
  exact congrArg some (Char.ofNat_toNat c)

namespace PyText

variable {c : Char} {s : String} {text : PyText}

theorem ofString_injective : Function.Injective ofString := by
  intro s t h
  exact String.toList_inj.mp (List.map_injective_iff.mpr CodePoint.ofChar_injective h)

@[simp] theorem encodeUtf8_ofString (s : String) : encodeUtf8 (ofString s) = some s := by
  have hmap : (s.toList.map CodePoint.ofChar).mapM CodePoint.toChar? = some s.toList := by
    rw [List.mapM_map]
    induction s.toList with
    | nil => rfl
    | cons c l ih => simp [ih]
  rw [encodeUtf8, ofString, hmap, Option.map_some, String.ofList_toList]

theorem encodable_ofString (s : String) : (ofString s).Encodable := by
  intro p hp
  obtain ⟨c, -, rfl⟩ := List.mem_map.mp hp
  exact CodePoint.not_isSurrogate_ofChar c

theorem fsEncodable_ofString (s : String) : (ofString s).FsEncodable := by
  intro p hp hsurrogate
  exact absurd hsurrogate (encodable_ofString s p hp)

/-- A text is encoded exactly if it has no surrogate. -/
theorem encodeUtf8_isSome_iff : (∃ s, encodeUtf8 text = some s) ↔ text.Encodable := by
  have hmap : (∃ l, text.mapM CodePoint.toChar? = some l) ↔ text.Encodable := by
    induction text with
    | nil => simp [Encodable]
    | cons p text ih =>
        rw [Encodable, List.forall_mem_cons, ← Encodable, ← ih]
        by_cases hp : p.IsSurrogate
        · simp [CodePoint.toChar?, hp]
        · have hchar : p.toChar? = some (Char.ofNat p.val) := if_neg hp
          rw [List.mapM_cons, hchar]
          cases text.mapM CodePoint.toChar? with
          | none => simp
          | some l => simp [hp]
  rw [← hmap, encodeUtf8]
  simp

theorem ofString_append (s t : String) : ofString (s ++ t) = ofString s ++ ofString t := by
  rw [ofString, String.toList_append, List.map_append]
  rfl

theorem length_ofString (s : String) : (ofString s).length = s.length := by
  rw [ofString, List.length_map, String.length_toList]

theorem ofString_prefix_iff {s t : String} :
    ofString s <+: ofString t ↔ s.toList <+: t.toList :=
  List.prefix_map_iff_of_injective CodePoint.ofChar_injective

theorem isAscii_ofString_iff : (ofString s).IsAscii ↔ ∀ c ∈ s.toList, c.toNat < 128 := by
  rw [IsAscii, ofString, List.forall_mem_map]
  rfl

/-! ## Splitting -/

/-- `text.split(c)` -/
def split (c : Char) (text : PyText) : List PyText := text.splitOn (.ofChar c)

/-- `c.join(parts)` -/
def join (c : Char) (parts : List PyText) : PyText := [CodePoint.ofChar c].intercalate parts

theorem split_ne_nil (text : PyText) : split c text ≠ [] := List.splitOn_ne_nil _ _

theorem split_ofString (s : String) : split c (ofString s) = (segments c s).map ofString := by
  have hlist : ∀ l : List Char, (l.map CodePoint.ofChar).splitOn (.ofChar c) =
      (l.splitOn c).map fun part => part.map CodePoint.ofChar := by
    intro l
    induction l with
    | nil => simp
    | cons a l ih =>
        rw [List.map_cons, List.splitOn_cons_eq_if_modifyHead, List.splitOn_cons_eq_if_modifyHead,
          ih]
        by_cases ha : a = c
        · simp [ha]
        · have hpoint : CodePoint.ofChar a ≠ CodePoint.ofChar c :=
            CodePoint.ofChar_injective.ne ha
          obtain ⟨first, rest, hsplit⟩ := List.exists_cons_of_ne_nil (List.splitOn_ne_nil c l)
          simp [ha, hpoint, hsplit]
  rw [split, ofString, hlist, segments, List.map_map]
  apply List.map_congr_left
  intro part _
  simp [ofString]

theorem join_map_ofString (parts : List String) :
    join c (parts.map ofString) = ofString (joinWith c parts) := by
  have hlist : ∀ l : List (List Char),
      [CodePoint.ofChar c].intercalate (l.map fun part => part.map CodePoint.ofChar) =
        ([c].intercalate l).map CodePoint.ofChar := by
    intro l
    induction l with
    | nil => rfl
    | cons part l ih =>
        cases l with
        | nil => simp
        | cons part' l =>
            rw [List.map_cons, List.map_cons, List.intercalate_cons_cons,
              List.intercalate_cons_cons, ← List.map_cons, ih]
            simp
  rw [join, joinWith, ofString, String.toList_ofList, ← hlist, List.map_map]
  rfl

end PyText

end AgenticGovernance.Support

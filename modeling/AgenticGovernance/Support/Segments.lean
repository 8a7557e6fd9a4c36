import Mathlib

/-!
# Separated texts

`segments c s` is `s.split(c)` and `joinWith c parts` is `c.join(parts)`, for a
separator of one character.
-/

namespace AgenticGovernance.Support

def segments (c : Char) (s : String) : List String :=
  (s.toList.splitOn c).map String.ofList

def joinWith (c : Char) (parts : List String) : String :=
  String.ofList ([c].intercalate (parts.map String.toList))

variable {c : Char}

theorem segments_ne_nil (s : String) : segments c s ≠ [] := by
  simp [segments]

theorem segments_eq_singleton {s : String} (h : c ∉ s.toList) : segments c s = [s] := by
  simp [segments, List.splitOn_eq_singleton h]

theorem segments_append (s t : String) :
    segments c (s ++ String.singleton c ++ t) = segments c s ++ segments c t := by
  have hlist : (s ++ String.singleton c ++ t).toList = s.toList ++ c :: t.toList := by simp
  rw [segments, hlist, List.splitOn_append_cons_self, List.map_append]
  rfl

theorem not_mem_of_mem_splitOn {l m : List Char} (h : m ∈ l.splitOn c) : c ∉ m := by
  induction l generalizing m with
  | nil => simp_all
  | cons a l ih =>
      rw [List.splitOn_cons_eq_if_modifyHead] at h
      obtain ⟨first, rest, hsplit⟩ := List.exists_cons_of_ne_nil (List.splitOn_ne_nil c l)
      by_cases ha : a = c
      · rw [if_pos (by simpa using ha)] at h
        rcases List.mem_cons.mp h with rfl | h
        · simp
        · exact ih h
      · rw [if_neg (by simpa using ha), hsplit, List.modifyHead_cons] at h
        rcases List.mem_cons.mp h with rfl | h
        · rw [List.mem_cons, not_or]
          exact ⟨Ne.symm ha, ih (hsplit ▸ List.mem_cons_self)⟩
        · exact ih (hsplit ▸ List.mem_cons_of_mem _ h)

theorem not_mem_of_mem_segments {s part : String} (h : part ∈ segments c s) :
    c ∉ part.toList := by
  obtain ⟨l, hl, rfl⟩ := List.mem_map.mp h
  simpa using not_mem_of_mem_splitOn hl

@[simp] theorem joinWith_segments (s : String) : joinWith c (segments c s) = s := by
  simp [joinWith, segments, Function.comp_def]

theorem segments_joinWith {parts : List String} (hparts : parts ≠ [])
    (h : ∀ part ∈ parts, c ∉ part.toList) : segments c (joinWith c parts) = parts := by
  rw [segments, joinWith, String.toList_ofList, List.splitOn_intercalate]
  · simp
  · simpa using h
  · simpa using hparts

/-- Texts with the same segments are equal. -/
theorem segments_injective : Function.Injective (segments c) := by
  intro s t h
  rw [← joinWith_segments (c := c) s, h, joinWith_segments]

theorem joinWith_append {l m : List String} (hl : l ≠ []) (hm : m ≠ [])
    (hparts : ∀ part ∈ l ++ m, c ∉ part.toList) :
    joinWith c (l ++ m) = joinWith c l ++ String.singleton c ++ joinWith c m := by
  rw [List.forall_mem_append] at hparts
  apply segments_injective (c := c)
  rw [segments_append, segments_joinWith hl hparts.1, segments_joinWith hm hparts.2,
    segments_joinWith (by simp [hl]) (List.forall_mem_append.mpr hparts)]

end AgenticGovernance.Support

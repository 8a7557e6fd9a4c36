import Mathlib
import AgenticGovernance.Support.LinkedChain

/-!
# Chains of several segments

A chain whose writer may start over is a sequence of linear chains.  Within a segment every
entry names the digest of the entry before it, and the entry that starts a segment names
nothing.  `SegmentedFrom Q p l` also asks `Q` of the entries that start a segment where the
chain could have been continued.
-/

namespace AgenticGovernance.Support

variable {α β H : Type*}

/-- Every entry of `l` names the digest of the entry before it, the first one `p`, or it
names nothing and satisfies `Q`. -/
def SegmentedFrom (prev : α → Option H) (digest : α → H) (Q : α → Prop) :
    Option H → List α → Prop
  | _, [] => True
  | p, a :: l =>
      (prev a = p ∨ prev a = none ∧ Q a) ∧ SegmentedFrom prev digest Q (some (digest a)) l

variable {prev : α → Option H} {digest : α → H} {Q : α → Prop} {p q : Option H} {l m : List α}

theorem segmentedFrom_append :
    SegmentedFrom prev digest Q p (l ++ m) ↔
      SegmentedFrom prev digest Q p l ∧ SegmentedFrom prev digest Q (tip digest p l) m := by
  induction l generalizing p with
  | nil => simp [SegmentedFrom]
  | cons a l ih => simp [SegmentedFrom, ih, and_assoc]

theorem segmentedFrom_map {f : β → α} {l : List β} :
    SegmentedFrom prev digest Q p (l.map f) ↔
      SegmentedFrom (fun b => prev (f b)) (fun b => digest (f b)) (fun b => Q (f b)) p l := by
  induction l generalizing p with
  | nil => exact Iff.rfl
  | cons b l ih => rw [List.map_cons, SegmentedFrom, SegmentedFrom, ih]

theorem SegmentedFrom.of_linked (h : LinkedFrom prev digest p l) :
    SegmentedFrom prev digest Q p l := by
  induction l generalizing p with
  | nil => trivial
  | cons a l ih => exact ⟨Or.inl h.1, ih h.2⟩

/-- A linear chain may follow as a further segment. -/
theorem SegmentedFrom.of_start (h : LinkedFrom prev digest none l)
    (hstart : ∀ a, l.head? = some a → Q a) : SegmentedFrom prev digest Q p l := by
  cases l with
  | nil => trivial
  | cons a l => exact ⟨Or.inr ⟨h.1, hstart a rfl⟩, .of_linked h.2⟩

/-- A chain with a second segment is not linear. -/
theorem not_linkedFrom_append_start (hl : l ≠ []) (hm : m ≠ [])
    (h : LinkedFrom prev digest none m) : ¬LinkedFrom prev digest none (l ++ m) := by
  intro hall
  obtain ⟨-, hrest⟩ := (linkedFrom_append _ _ _).mp hall
  cases m with
  | nil => exact hm rfl
  | cons a m => exact hl (tip_eq_none_iff.mp (hrest.1.symm.trans h.1))

end AgenticGovernance.Support

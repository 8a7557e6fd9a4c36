import Mathlib

/-!
# Windows of validity

A window runs from its start, up to and not including its stop, and is open if
it has none.  The items of a list are valid in windows of their own, and
`coveringAt` is the list of those valid at a given time.

`handoff` closes the selected items at a time `e` and adds a fresh item that is
valid from `e` on.  Before `e` nothing changes, and from `e` on the fresh item
is alone, provided that no other item was valid.
-/

namespace AgenticGovernance.Support

variable {τ : Type*} [LinearOrder τ]

structure Window (τ : Type*) where
  start : τ
  stop : Option τ

namespace Window

def Covers (w : Window τ) (t : τ) : Prop :=
  w.start ≤ t ∧ ∀ e, w.stop = some e → t < e

theorem covers_open {w : Window τ} (h : w.stop = none) {t : τ} :
    w.Covers t ↔ w.start ≤ t := by
  simp [Covers, h]

theorem covers_closed {w : Window τ} {e t : τ} (h : w.stop = some e) :
    w.Covers t ↔ w.start ≤ t ∧ t < e := by
  simp [Covers, h]

instance (w : Window τ) (t : τ) : Decidable (w.Covers t) :=
  match h : w.stop with
  | none => decidable_of_iff _ (covers_open h).symm
  | some _ => decidable_of_iff _ (covers_closed h).symm

end Window

variable {β : Type*} (window : β → Window τ)

/-- The items that are valid at time `t`. -/
def coveringAt (items : List β) (t : τ) : List β :=
  items.filter fun p => (window p).Covers t

theorem mem_coveringAt {items : List β} {t : τ} {p : β} :
    p ∈ coveringAt window items t ↔ p ∈ items ∧ (window p).Covers t := by
  simp [coveringAt]

/-- Close the selected items and add a fresh one. -/
def handoff (selected : β → Prop) [DecidablePred selected] (close : β → β)
    (fresh : β) (items : List β) : List β :=
  items.map (fun p => if selected p then close p else p) ++ [fresh]

variable {window} {selected : β → Prop} [DecidablePred selected] {close : β → β}
  {fresh : β} {items : List β} {e : τ}

/-- Before the handoff the same items are valid. -/
theorem coveringAt_handoff_before
    (hopen : ∀ p ∈ items, selected p → (window p).stop = none)
    (hclose : ∀ p ∈ items, selected p → window (close p) = ⟨(window p).start, some e⟩)
    (hfresh : window fresh = ⟨e, none⟩) {t : τ} (ht : t < e) :
    coveringAt window (handoff selected close fresh items) t =
      (coveringAt window items t).map fun p => if selected p then close p else p := by
  have hnew : ¬(window fresh).Covers t := by
    rw [hfresh, Window.covers_open rfl]
    exact not_le.mpr ht
  rw [coveringAt, handoff, List.filter_append, List.filter_singleton,
    decide_eq_false hnew, cond_false, List.append_nil, List.filter_map, coveringAt]
  apply congrArg
  apply List.filter_congr
  intro p hp
  by_cases hsel : selected p
  · have hsame : (window (close p)).Covers t ↔ (window p).Covers t := by
      rw [hclose p hp hsel, Window.covers_closed rfl,
        Window.covers_open (hopen p hp hsel)]
      exact and_iff_left ht
    simp [hsel, hsame]
  · simp [hsel]

/-- From the handoff on the fresh item is alone, if only selected items were
valid. -/
theorem coveringAt_handoff_after
    (hclose : ∀ p ∈ items, selected p → window (close p) = ⟨(window p).start, some e⟩)
    (hfresh : window fresh = ⟨e, none⟩) {t : τ} (ht : e ≤ t)
    (honly : ∀ p ∈ coveringAt window items t, selected p) :
    coveringAt window (handoff selected close fresh items) t = [fresh] := by
  have hnew : (window fresh).Covers t := by
    rw [hfresh, Window.covers_open rfl]
    exact ht
  have hold : (items.map fun p => if selected p then close p else p).filter
      (fun p => (window p).Covers t) = [] := by
    rw [List.filter_eq_nil_iff]
    intro q hq
    obtain ⟨p, hp, rfl⟩ := List.mem_map.mp hq
    by_cases hsel : selected p
    · rw [if_pos hsel, hclose p hp hsel, decide_eq_true_iff, Window.covers_closed rfl]
      exact fun h => absurd h.2 (not_lt.mpr ht)
    · rw [if_neg hsel, decide_eq_true_iff]
      exact fun h => hsel (honly p (by simpa [coveringAt] using ⟨hp, h⟩))
  rw [coveringAt, handoff, List.filter_append, hold, List.filter_singleton,
    decide_eq_true hnew, cond_true, List.nil_append]

end AgenticGovernance.Support

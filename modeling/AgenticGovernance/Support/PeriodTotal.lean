import Mathlib

/-!
# Totals that start again in each period

A counter keeps one total and the period that the total is of.  The first amount of a later
period starts it again, and a read in a later period finds nothing.  If the periods of the
amounts never go back, a read finds what was added in its period.
-/

namespace AgenticGovernance.Support

namespace PeriodTotal

variable {α δ : Type*} (zero : α) (add : α → δ → α)

/-- What was added in a period, in the order of the log. -/
def totalIn (log : List (ℕ × δ)) (period : ℕ) : α :=
  (log.filter fun e => e.1 = period).foldl (fun total e => add total e.2) zero

/-- The entry after an amount; an absent one is `none`. -/
def bump (entry : Option (α × ℕ)) (period : ℕ) (amount : δ) : α × ℕ :=
  let (total, since) := entry.getD (zero, period)
  if since < period then (add zero amount, period) else (add total amount, since)

def read (entry : Option (α × ℕ)) (period : ℕ) : α :=
  let (total, since) := entry.getD (zero, period)
  if since < period then zero else total

/-- The entry is what the log has left: the total of the last period in it. -/
def Keeps (log : List (ℕ × δ)) : Option (α × ℕ) → Prop
  | none => log = []
  | some (total, since) => (∀ e ∈ log, e.1 ≤ since) ∧ (∃ e ∈ log, e.1 = since) ∧
      total = totalIn zero add log since

variable {zero : α} {add : α → δ → α} {log : List (ℕ × δ)} {entry : Option (α × ℕ)}
  {period : ℕ}

theorem totalIn_eq_zero (h : ∀ e ∈ log, e.1 ≠ period) : totalIn zero add log period = zero := by
  have hnone : log.filter (fun e => decide (e.1 = period)) = [] := by
    rw [List.filter_eq_nil_iff]
    intro e he
    rw [decide_eq_true_eq]
    exact h e he
  rw [totalIn, hnone, List.foldl_nil]

theorem totalIn_concat_self (amount : δ) :
    totalIn zero add (log ++ [(period, amount)]) period =
      add (totalIn zero add log period) amount := by
  rw [totalIn, List.filter_append, List.foldl_append]
  simp [totalIn]

/-- An amount whose period is not past. -/
theorem Keeps.bump (h : Keeps zero add log entry) (hpast : ∀ e ∈ log, e.1 ≤ period)
    (amount : δ) :
    Keeps zero add (log ++ [(period, amount)]) (some (bump zero add entry period amount)) := by
  rcases entry with _ | ⟨total, since⟩
  · obtain rfl : log = [] := h
    simp [PeriodTotal.bump, Keeps, totalIn]
  · obtain ⟨hle, ⟨e, he, heq⟩, htotal⟩ := h
    have hsince : since ≤ period := heq ▸ hpast e he
    have hlast : ∀ e ∈ log ++ [(period, amount)], e.1 ≤ period := by
      intro e he
      rcases List.mem_append.mp he with he | he
      · exact hpast e he
      · rw [List.mem_singleton.mp he]
    have hmem : (period, amount) ∈ log ++ [(period, amount)] :=
      List.mem_append_right _ (List.mem_singleton_self _)
    by_cases hlt : since < period
    · have hbump : PeriodTotal.bump zero add (some (total, since)) period amount =
          (add zero amount, period) := by
        simp [PeriodTotal.bump, hlt]
      have hnone : totalIn zero add log period = zero :=
        totalIn_eq_zero fun e he => (lt_of_le_of_lt (hle e he) hlt).ne
      rw [hbump]
      refine ⟨hlast, ⟨_, hmem, rfl⟩, ?_⟩
      rw [totalIn_concat_self, hnone]
    · obtain rfl : since = period := le_antisymm hsince (not_lt.mp hlt)
      have hbump : PeriodTotal.bump zero add (some (total, since)) since amount =
          (add total amount, since) := by
        simp [PeriodTotal.bump]
      rw [hbump]
      refine ⟨hlast, ⟨_, hmem, rfl⟩, ?_⟩
      rw [totalIn_concat_self, htotal]

/-- A read whose period is not past. -/
theorem Keeps.read_eq (h : Keeps zero add log entry) (hpast : ∀ e ∈ log, e.1 ≤ period) :
    read zero entry period = totalIn zero add log period := by
  rcases entry with _ | ⟨total, since⟩
  · obtain rfl : log = [] := h
    simp [read, totalIn]
  · obtain ⟨hle, ⟨e, he, heq⟩, htotal⟩ := h
    have hsince : since ≤ period := heq ▸ hpast e he
    by_cases hlt : since < period
    · have hnone : totalIn zero add log period = zero :=
        totalIn_eq_zero fun e he => (lt_of_le_of_lt (hle e he) hlt).ne
      simp [read, hlt, hnone]
    · obtain rfl : since = period := le_antisymm hsince (not_lt.mp hlt)
      simpa [read] using htotal

/-- An entry of the period, exactly if something was added in it. -/
theorem Keeps.current_iff {total : α} (h : Keeps zero add log entry)
    (hpast : ∀ e ∈ log, e.1 ≤ period) :
    (∃ since, entry = some (total, since) ∧ period ≤ since) ↔
      (∃ e ∈ log, e.1 = period) ∧ total = totalIn zero add log period := by
  rcases entry with _ | ⟨kept, since⟩
  · obtain rfl : log = [] := h
    simp
  · obtain ⟨hle, ⟨e, he, heq⟩, htotal⟩ := h
    have hsince : since ≤ period := heq ▸ hpast e he
    constructor
    · rintro ⟨since', hentry, hperiod⟩
      obtain ⟨rfl, rfl⟩ := Prod.mk.inj (Option.some.inj hentry)
      obtain rfl : since = period := le_antisymm hsince hperiod
      exact ⟨⟨e, he, heq⟩, htotal⟩
    · rintro ⟨⟨e', he', rfl⟩, rfl⟩
      obtain rfl : since = e'.1 := le_antisymm hsince (hle e' he')
      exact ⟨e'.1, by rw [htotal], le_rfl⟩

end PeriodTotal

end AgenticGovernance.Support

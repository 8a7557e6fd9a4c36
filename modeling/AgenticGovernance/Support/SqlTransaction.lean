import Mathlib

/-!
# Transactions without savepoints

A Postgres transaction works on its own copy of the database.  After a statement has failed
every further statement of the transaction fails as well, also when the client has caught the
exception, and the commit becomes a rollback.
-/

namespace AgenticGovernance.Support

/-- A transaction in progress, with the state it began in and its working copy, which is
`none` once a statement has failed. -/
structure Transaction (σ : Type*) where
  before : σ
  working : Option σ

namespace Transaction

variable {σ α : Type*}

/-- `BEGIN` -/
def start (s : σ) : Transaction σ := ⟨s, some s⟩

/-- A statement, whose exception the client catches. -/
def execute (t : Transaction σ) (statement : σ → Option σ) : Transaction σ :=
  { t with working := t.working.bind statement }

/-- `COMMIT` -/
def commit (t : Transaction σ) : σ := t.working.getD t.before

/-- One statement for each item, one after the other. -/
def executeAll (t : Transaction σ) (statement : α → σ → Option σ) (items : List α) :
    Transaction σ :=
  items.foldl (fun t item => t.execute (statement item)) t

variable {statement : α → σ → Option σ} {reject : α → Bool} {effect : α → σ → σ}

theorem executeAll_cons {t : Transaction σ} {item : α} {items : List α} :
    t.executeAll statement (item :: items) =
      (t.execute (statement item)).executeAll statement items := rfl

@[simp] theorem before_executeAll {t : Transaction σ} {items : List α} :
    (t.executeAll statement items).before = t.before := by
  induction items generalizing t with
  | nil => rfl
  | cons item items ih =>
      rw [executeAll_cons, ih]
      rfl

/-- A failed transaction stays failed. -/
theorem working_executeAll_of_failed {t : Transaction σ} {items : List α}
    (h : t.working = none) : (t.executeAll statement items).working = none := by
  induction items generalizing t with
  | nil => exact h
  | cons item items ih =>
      rw [executeAll_cons]
      apply ih
      rw [execute, h]
      rfl

theorem working_executeAll_of_accepted {t : Transaction σ} {s : σ} {items : List α}
    (hworking : t.working = some s)
    (hstatement : ∀ item ∈ items, ∀ s, statement item s = some (effect item s)) :
    (t.executeAll statement items).working =
      some (items.foldl (fun s item => effect item s) s) := by
  induction items generalizing t s with
  | nil => exact hworking
  | cons item items ih =>
      rw [executeAll_cons, List.foldl_cons]
      apply ih
      · rw [execute, hworking]
        exact hstatement item List.mem_cons_self s
      · intro later hlater
        exact hstatement later (List.mem_cons_of_mem item hlater)

theorem working_executeAll_of_rejected {t : Transaction σ} {item : α} {items : List α}
    (hmem : item ∈ items) (hreject : ∀ s, statement item s = none) :
    (t.executeAll statement items).working = none := by
  induction items generalizing t with
  | nil => simp at hmem
  | cons first items ih =>
      rw [executeAll_cons]
      rcases List.mem_cons.mp hmem with hfirst | hlater
      · apply working_executeAll_of_failed
        rw [execute, ← hfirst, Option.bind_eq_none_iff]
        intro s _
        exact hreject s
      · exact ih hlater

/-- When some items are rejected whatever the state, the transaction has all effects or
none. -/
theorem commit_executeAll (s : σ) (items : List α)
    (hstatement : ∀ item s, statement item s =
      if reject item then none else some (effect item s)) :
    ((start s).executeAll statement items).commit =
      if ∃ item ∈ items, reject item then s
      else items.foldl (fun s item => effect item s) s := by
  rw [commit, before_executeAll]
  split
  · rename_i hrejected
    obtain ⟨item, hmem, hreject⟩ := hrejected
    rw [working_executeAll_of_rejected hmem fun s => by rw [hstatement, if_pos hreject]]
    rfl
  · rename_i haccepted
    have hitems : ∀ item ∈ items, ∀ s, statement item s = some (effect item s) := by
      intro item hmem s
      rw [hstatement, if_neg fun hreject => haccepted ⟨item, hmem, hreject⟩]
    rw [working_executeAll_of_accepted rfl hitems]
    rfl

end Transaction

end AgenticGovernance.Support

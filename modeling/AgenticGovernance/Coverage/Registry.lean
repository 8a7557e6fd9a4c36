import AgenticGovernance.Support.SqlTransaction
import AgenticGovernance.Support.Stamp
import AgenticGovernance.Policies.Persistence

/-!
# The wrapper registry and its mirror

A `WrapperRegistry` collects the wrappers of one process.  `flush_to_postgres` inserts them
into `governance_wrapper_registrations` in one transaction, where a trigger rejects agents
that have no policy.  The loop catches the exception of each row, so that one bad row does
not block the rest, but the transaction is over after the first.

`flush_persists_iff` says when the accepted registrations are in the table afterwards.
-/

namespace AgenticGovernance.Coverage

open Support Policies

/-- `(agent_id, provider, instance_id)`, the key in memory and in the table. -/
abbrev RegistrationKey := String × String × Uuid

/-- One row of the registry; times are microseconds. -/
structure WrapperRegistration where
  agentId : String
  provider : String
  hostnameHash : String
  instanceId : Uuid
  sdkVersion : Option String
  registeredAt : ℤ
  lastSeenAt : ℤ
  deriving DecidableEq

def WrapperRegistration.key (r : WrapperRegistration) : RegistrationKey :=
  (r.agentId, r.provider, r.instanceId)

/-! ## In memory -/

structure WrapperRegistry where
  instanceId : Uuid
  hostnameHash : String
  registrations : Keyed RegistrationKey WrapperRegistration
  keyed : ∀ key r, registrations.get? key = some r → r.key = key

namespace WrapperRegistry

def empty (instanceId : Uuid) (hostnameHash : String) : WrapperRegistry where
  instanceId := instanceId
  hostnameHash := hostnameHash
  registrations := .empty
  keyed := by simp

/-- `register`: the time of a registration that is there, or a new one. -/
def register (W : WrapperRegistry) (now : ℤ) (agentId provider : String)
    (sdkVersion : Option String) : WrapperRegistry :=
  { W with
    registrations := W.registrations.upsert (agentId, provider, W.instanceId)
      ⟨agentId, provider, W.hostnameHash, W.instanceId, sdkVersion, now, now⟩
      fun existing => { existing with lastSeenAt := now }
    keyed := by
      intro key r hr
      by_cases hkey : key = (agentId, provider, W.instanceId)
      · subst hkey
        rw [Keyed.get?_upsert_self, Option.some_inj] at hr
        rcases hexisting : W.registrations.get? (agentId, provider, W.instanceId) with _ | old
        · rw [hexisting] at hr
          rw [← hr]
          rfl
        · rw [hexisting] at hr
          rw [← hr]
          exact W.keyed _ old hexisting
      · rw [Keyed.get?_upsert_of_ne hkey] at hr
        exact W.keyed key r hr }

def snapshot (W : WrapperRegistry) : List WrapperRegistration :=
  W.registrations.entries.map Prod.snd

end WrapperRegistry

/-! ## In the table -/

/-- `governance_wrapper_registrations`, by its unique constraint. -/
abbrev RegistrationTable := Keyed RegistrationKey WrapperRegistration

/-- The trigger `governance_wrapper_reg_agent_exists`: an agent without a policy. -/
def agentMissing (policies : PolicyTable) (r : WrapperRegistration) : Bool :=
  !policies.entries.any fun e => e.1.1 = r.agentId

/-- `INSERT … ON CONFLICT (agent_id, provider, instance_id) DO UPDATE SET last_seen_at` -/
def upsertRow (now : ℤ) (r : WrapperRegistration) (t : RegistrationTable) : RegistrationTable :=
  t.upsert r.key { r with registeredAt := now, lastSeenAt := now } fun row =>
    { row with lastSeenAt := now }

/-- The statement of the loop; the trigger runs before the conflict is looked for. -/
def insertRow (rejects : WrapperRegistration → Bool) (now : ℤ) (r : WrapperRegistration)
    (t : RegistrationTable) : Option RegistrationTable :=
  if rejects r then none else some (upsertRow now r t)

/-- What `_prune_opportunistic` deletes: at most 100 rows last seen before a time, which ones
is left open. -/
structure Pruning where
  before : ℤ
  victims : RegistrationTable → Finset RegistrationKey
  stale : ∀ t, ∀ key ∈ victims t, ∃ row, t.get? key = some row ∧ row.lastSeenAt < before
  limit : ∀ t, (victims t).card ≤ 100

/-- `_prune_opportunistic` -/
def Pruning.prune (P : Pruning) (t : RegistrationTable) : RegistrationTable :=
  t.deleteWhere fun key _ => key ∈ P.victims t

/-- The two transactions of a flush.  The second begins at once, so that what it takes for
stale, 30 days before it, was last seen before the first. -/
structure FlushTimes where
  now : ℤ
  pruning : Pruning
  prompt : pruning.before ≤ now

/-- `flush_to_postgres`, on an engine that answers. -/
def WrapperRegistry.flushToPostgres (W : WrapperRegistry)
    (rejects : WrapperRegistration → Bool) (F : FlushTimes) (t : RegistrationTable) :
    RegistrationTable :=
  if W.registrations.entries.isEmpty then F.pruning.prune t
  else
    F.pruning.prune
      ((Transaction.start t).executeAll (insertRow rejects F.now) W.snapshot).commit

/-! ## Rows that are seen now -/

/-- The table has a row of `key` that was seen at `now`. -/
def SeenAt (now : ℤ) (key : RegistrationKey) (t : RegistrationTable) : Prop :=
  ∃ row, t.get? key = some row ∧ row.lastSeenAt = now

section

variable {now : ℤ} {r : WrapperRegistration} {key : RegistrationKey} {t : RegistrationTable}

theorem seenAt_upsertRow_self : SeenAt now r.key (upsertRow now r t) := by
  refine ⟨_, Keyed.get?_upsert_self, ?_⟩
  rcases t.get? r.key with _ | row
  · rfl
  · rfl

theorem SeenAt.upsertRow (h : SeenAt now key t) : SeenAt now key (upsertRow now r t) := by
  by_cases hkey : key = r.key
  · rw [hkey]
    exact seenAt_upsertRow_self
  · obtain ⟨row, hrow, hseen⟩ := h
    refine ⟨row, ?_, hseen⟩
    rw [Coverage.upsertRow, Keyed.get?_upsert_of_ne hkey]
    exact hrow

theorem SeenAt.foldl (h : SeenAt now key t) (items : List WrapperRegistration) :
    SeenAt now key (items.foldl (fun t r => Coverage.upsertRow now r t) t) := by
  induction items generalizing t with
  | nil => exact h
  | cons item items ih => exact ih h.upsertRow

theorem seenAt_foldl {items : List WrapperRegistration} (hr : r ∈ items) :
    SeenAt now r.key (items.foldl (fun t r => upsertRow now r t) t) := by
  induction items generalizing t with
  | nil => simp at hr
  | cons item items ih =>
      rcases List.mem_cons.mp hr with hitem | hlater
      · rw [hitem]
        exact seenAt_upsertRow_self.foldl items
      · exact ih hlater

/-- The prune of a flush keeps the rows that the flush has written. -/
theorem SeenAt.prune {F : FlushTimes} (h : SeenAt F.now key t) :
    ((F.pruning.prune t).get? key).isSome := by
  obtain ⟨row, hrow, hseen⟩ := h
  have hkept : decide (key ∈ F.pruning.victims t) = false := by
    rw [decide_eq_false_iff_not]
    intro hvictim
    obtain ⟨stale, hstale, hbefore⟩ := F.pruning.stale t key hvictim
    rw [hrow, Option.some_inj] at hstale
    rw [← hstale, hseen] at hbefore
    exact absurd F.prompt (not_le.mpr hbefore)
  rw [Pruning.prune, Keyed.get?_deleteWhere_of_kept hrow hkept]
  rfl

end

/-! ## The flush -/

/-- The loop keeps all rows or none. -/
theorem WrapperRegistry.flushToPostgres_eq (W : WrapperRegistry)
    (rejects : WrapperRegistration → Bool) (F : FlushTimes) (t : RegistrationTable) :
    W.flushToPostgres rejects F t =
      F.pruning.prune (if ∃ r ∈ W.snapshot, rejects r then t
        else W.snapshot.foldl (fun t r => upsertRow F.now r t) t) := by
  have hcommit : ((Transaction.start t).executeAll (insertRow rejects F.now) W.snapshot).commit =
      if ∃ r ∈ W.snapshot, rejects r then t
      else W.snapshot.foldl (fun t r => upsertRow F.now r t) t :=
    Transaction.commit_executeAll t W.snapshot fun _ _ => rfl
  rw [← hcommit, flushToPostgres]
  split
  · rename_i hempty
    have hsnapshot : W.snapshot = [] := by
      rw [snapshot, List.isEmpty_iff.mp hempty]
      rfl
    rw [hsnapshot]
    rfl
  · rfl

/-- Every registration that the trigger accepts is in the table after a flush, exactly when
the trigger rejects none, or the accepted ones were in the table already and the prune spares
them. -/
theorem flush_persists_iff (W : WrapperRegistry) (rejects : WrapperRegistration → Bool)
    (F : FlushTimes) (t : RegistrationTable) :
    (∀ r ∈ W.snapshot, rejects r = false →
      ((W.flushToPostgres rejects F t).get? r.key).isSome) ↔
    (∀ r ∈ W.snapshot, rejects r = false) ∨
      ∀ r ∈ W.snapshot, rejects r = false → ((F.pruning.prune t).get? r.key).isSome := by
  rw [W.flushToPostgres_eq]
  by_cases hrejected : ∃ r ∈ W.snapshot, rejects r
  · rw [if_pos hrejected]
    constructor
    · exact Or.inr
    · intro h
      rcases h with hnone | hthere
      · obtain ⟨r, hr, hreject⟩ := hrejected
        rw [hnone r hr] at hreject
        simp at hreject
      · exact hthere
  · rw [if_neg hrejected]
    have hnone : ∀ r ∈ W.snapshot, rejects r = false := by
      intro r hr
      exact Bool.eq_false_iff.mpr fun hreject => hrejected ⟨r, hr, hreject⟩
    constructor
    · intro _
      exact Or.inl hnone
    · intro _ r hr _
      exact (seenAt_foldl hr).prune

/-! ## A rogue agent -/

/-- A registry in which an agent without a policy registered before one with a policy. -/
def rogueRegistry : WrapperRegistry :=
  ((WrapperRegistry.empty ⟨1⟩ "host").register 0 "rogue-agent" "openai" none).register 0
    "known-a" "openai" none

def knownPolicies : PolicyTable := .set .empty ("known-a", "scope") (.obj [])

/-- A flush with nothing to prune. -/
def plainFlush : FlushTimes where
  now := 1
  pruning :=
    { before := 0
      victims := fun _ => ∅
      stale := by simp
      limit := by simp }
  prompt := by decide

/-- The known agent is accepted by the trigger, and not in the table after the flush. -/
theorem rogue_agent_blocks_flush :
    ∃ r ∈ rogueRegistry.snapshot, agentMissing knownPolicies r = false ∧
      ((rogueRegistry.flushToPostgres (agentMissing knownPolicies) plainFlush .empty).get?
        r.key) = none := by
  refine ⟨⟨"known-a", "openai", "host", ⟨1⟩, none, 0, 0⟩, ?_, ?_, ?_⟩
  · decide
  · decide
  · decide

end AgenticGovernance.Coverage

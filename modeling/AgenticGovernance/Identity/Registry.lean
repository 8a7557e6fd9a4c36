import Mathlib
import AgenticGovernance.Support.Transition

/-!
# The registry of agent keys

`governance_agent_keys` holds every public key of every agent, with the sequence number at
which the key becomes active.  An `AgentKeyRegistry` keeps a mirror of the rows it has met:
those it registered and those whose fingerprint somebody looked up.  `resolve` reads the
mirror alone.

`resolve_eq_select_iff` says in which states the mirror resolves a sequence number to the
key that the table selects: the selected row has to be mirrored, and no key that only the
mirror has may be activated at it or later.
-/

namespace AgenticGovernance.Identity

open Support

structure AgentKeyRecord where
  keyFingerprint : String
  agentId : String
  publicKeyPem : String
  activatedAtChainSeq : ℤ
  deriving DecidableEq

/-- `max(items, key=f)`: of several items with the greatest key it is the first. -/
def maxBy {α β : Type*} [LT β] [DecidableLT β] (f : α → β) : List α → Option α
  | [] => none
  | a :: items => some (items.foldl (fun best b => if f best < f b then b else best) a)

theorem maxBy_eq_argmax {α β : Type*} [Preorder β] [DecidableLT β] (f : α → β)
    (items : List α) : maxBy f items = items.argmax f := by
  have hfold : ∀ (items : List α) (a : α),
      items.foldl (List.argAux fun b c => f c < f b) (some a) =
        some (items.foldl (fun best b => if f best < f b then b else best) a) := by
    intro items
    induction items with
    | nil =>
        intro a
        rfl
    | cons b items ih =>
        intro a
        rw [List.foldl_cons, List.foldl_cons, ← ih]
        simp only [List.argAux]
        split <;> rfl
  cases items with
  | nil => rfl
  | cons a items => exact (hfold items a).symm

/-- The key of `agentId` in `rows` that became active last, at `chainSeq` or before. -/
def activeKey (rows : List AgentKeyRecord) (agentId : String) (chainSeq : ℤ) :
    Option AgentKeyRecord :=
  maxBy AgentKeyRecord.activatedAtChainSeq
    (rows.filter fun r => r.agentId = agentId ∧ r.activatedAtChainSeq ≤ chainSeq)

/-! ## The table -/

/-- The rows of `governance_agent_keys`, whose primary key is the fingerprint. -/
structure KeyTable where
  rows : List AgentKeyRecord
  nodup : (rows.map AgentKeyRecord.keyFingerprint).Nodup

namespace KeyTable

/-- `INSERT … ON CONFLICT (key_fingerprint) DO NOTHING` -/
def insert (t : KeyTable) (row : AgentKeyRecord) : KeyTable :=
  if h : row.keyFingerprint ∈ t.rows.map AgentKeyRecord.keyFingerprint then t
  else
    { rows := t.rows ++ [row]
      nodup := by
        rw [List.map_append]
        exact List.Nodup.append t.nodup (List.nodup_singleton _) (by simpa using h) }

def lookup (t : KeyTable) (fingerprint : String) : Option AgentKeyRecord :=
  t.rows.find? fun r => r.keyFingerprint = fingerprint

/-- The overlap check of `register_key`: a row of another fingerprint. -/
def collision (t : KeyTable) (record : AgentKeyRecord) : Bool :=
  t.rows.any fun r => r.agentId = record.agentId ∧
    r.activatedAtChainSeq = record.activatedAtChainSeq ∧
      r.keyFingerprint ≠ record.keyFingerprint

/-- The key of the agent with the greatest activation at or before `chainSeq`. -/
def select (t : KeyTable) (agentId : String) (chainSeq : ℤ) : Option AgentKeyRecord :=
  activeKey t.rows agentId chainSeq

/-- No two keys of one agent are activated at one sequence number. -/
def DistinctActivations (t : KeyTable) : Prop :=
  ∀ r ∈ t.rows, ∀ r' ∈ t.rows, r.agentId = r'.agentId →
    r.activatedAtChainSeq = r'.activatedAtChainSeq → r = r'

variable {t : KeyTable} {row r : AgentKeyRecord} {fingerprint : String}

theorem mem_insert_of_mem (h : r ∈ t.rows) : r ∈ (t.insert row).rows := by
  rw [insert]
  split
  · exact h
  · exact List.mem_append_left _ h

theorem mem_of_lookup (h : t.lookup fingerprint = some r) :
    r ∈ t.rows ∧ r.keyFingerprint = fingerprint := by
  refine ⟨List.mem_of_find?_eq_some h, ?_⟩
  simpa using List.find?_some h

end KeyTable

/-! ## The mirror -/

/-- `_by_fingerprint` and `_by_agent`, which hold the same records. -/
structure AgentKeyRegistry where
  byFingerprint : String → Option AgentKeyRecord
  byAgent : String → List AgentKeyRecord
  keyed : ∀ fingerprint r, byFingerprint fingerprint = some r →
    r.keyFingerprint = fingerprint
  indexed : ∀ agentId r, r ∈ byAgent agentId ↔
    r.agentId = agentId ∧ byFingerprint r.keyFingerprint = some r

inductive RegistryError where
  | valueError
  | databaseError
  deriving DecidableEq

namespace AgentKeyRegistry

def empty : AgentKeyRegistry where
  byFingerprint _ := none
  byAgent _ := []
  keyed := by simp
  indexed := by simp

/-- The two assignments that `register` and `_cache_existing` end with. -/
def append (g : AgentKeyRegistry) (record : AgentKeyRecord)
    (hfresh : g.byFingerprint record.keyFingerprint = none) : AgentKeyRegistry where
  byFingerprint := Function.update g.byFingerprint record.keyFingerprint (some record)
  byAgent := Function.update g.byAgent record.agentId (g.byAgent record.agentId ++ [record])
  keyed := by
    intro fingerprint r h
    by_cases hfp : fingerprint = record.keyFingerprint
    · subst hfp
      rw [Function.update_self] at h
      rw [Option.some.inj h]
    · rw [Function.update_of_ne hfp] at h
      exact g.keyed fingerprint r h
  indexed := by
    intro agentId r
    have hlist : r ∈ Function.update g.byAgent record.agentId
          (g.byAgent record.agentId ++ [record]) agentId ↔
        r ∈ g.byAgent agentId ∨ r = record ∧ record.agentId = agentId := by
      by_cases hagent : agentId = record.agentId
      · subst hagent
        simp
      · simp [Function.update_of_ne hagent, Ne.symm hagent]
    rw [hlist, g.indexed]
    by_cases hfp : r.keyFingerprint = record.keyFingerprint
    · rw [hfp, hfresh, Function.update_self]
      simp only [reduceCtorEq, and_false, false_or, Option.some.injEq]
      constructor
      · rintro ⟨rfl, hagent⟩
        exact ⟨hagent, rfl⟩
      · rintro ⟨hagent, rfl⟩
        exact ⟨rfl, hagent⟩
    · rw [Function.update_of_ne hfp]
      refine or_iff_left ?_
      rintro ⟨rfl, -⟩
      exact hfp rfl

/-- `register`: strictly later activations only, and nothing twice. -/
def register (g : AgentKeyRegistry) (record : AgentKeyRecord) :
    AgentKeyRegistry × Except RegistryError AgentKeyRecord :=
  match h : g.byFingerprint record.keyFingerprint with
  | some existing =>
      if existing ≠ record then (g, .error .valueError) else (g, .ok existing)
  | none =>
      if (g.byAgent record.agentId).any fun prior =>
          record.activatedAtChainSeq ≤ prior.activatedAtChainSeq then
        (g, .error .valueError)
      else (g.append record h, .ok record)

/-- `_cache_existing` -/
def cacheExisting (g : AgentKeyRegistry) (record : AgentKeyRecord) : AgentKeyRegistry :=
  match h : g.byFingerprint record.keyFingerprint with
  | some _ => g
  | none => g.append record h

def getByFingerprint (g : AgentKeyRegistry) (fingerprint : String) : Option AgentKeyRecord :=
  g.byFingerprint fingerprint

/-- `resolve` -/
def resolve (g : AgentKeyRegistry) (agentId : String) (chainSeq : ℤ) :
    Option AgentKeyRecord :=
  maxBy AgentKeyRecord.activatedAtChainSeq
    ((g.byAgent agentId).filter fun r => r.activatedAtChainSeq ≤ chainSeq)

variable (g : AgentKeyRegistry) (record : AgentKeyRecord)

/-- `register` either leaves the mirror alone or appends a key that is activated after
every mirrored key of its agent. -/
theorem register_cases : (g.register record).1 = g ∨
    ∃ h, (g.register record).1 = g.append record h ∧
      ∀ prior ∈ g.byAgent record.agentId,
        prior.activatedAtChainSeq < record.activatedAtChainSeq := by
  unfold register
  split
  · split
    · exact Or.inl rfl
    · exact Or.inl rfl
  · rename_i hfresh
    split
    · exact Or.inl rfl
    · rename_i hlater
      refine Or.inr ⟨hfresh, rfl, ?_⟩
      simpa using hlater

theorem cacheExisting_cases : g.cacheExisting record = g ∨
    ∃ h, g.cacheExisting record = g.append record h := by
  unfold cacheExisting
  split
  · exact Or.inl rfl
  · rename_i hfresh
    exact Or.inr ⟨hfresh, rfl⟩

variable {g record}

/-- An append keeps a relation between earlier and later keys of an agent that holds
between the keys there and the new one. -/
theorem pairwise_append {R : AgentKeyRecord → AgentKeyRecord → Prop} {h}
    (hpair : ∀ agentId, (g.byAgent agentId).Pairwise R)
    (hnew : ∀ prior ∈ g.byAgent record.agentId, R prior record) (agentId : String) :
    ((g.append record h).byAgent agentId).Pairwise R := by
  by_cases hagent : agentId = record.agentId
  · subst hagent
    have hlist : (g.append record h).byAgent record.agentId =
        g.byAgent record.agentId ++ [record] := Function.update_self ..
    rw [hlist, List.pairwise_append]
    refine ⟨hpair _, List.pairwise_singleton _ _, ?_⟩
    intro prior hprior last hlast
    rw [List.mem_singleton.mp hlast]
    exact hnew prior hprior
  · have hlist : (g.append record h).byAgent agentId = g.byAgent agentId :=
      Function.update_of_ne hagent ..
    rw [hlist]
    exact hpair agentId

end AgentKeyRegistry

/-! ## Calls -/

/-- What becomes of the transaction of `register_key`. -/
inductive TransactionFate where
  | commits
  | rollsBack
  | commitsUnanswered
  deriving DecidableEq

/-- A call on the registry, with what the database makes of it, or a row that another
process registers.  `lookupKeyByFingerprint` may find the database unreachable. -/
inductive RegistryCall where
  | registerKey (agentId publicKeyPem : String) (activatedAtChainSeq : ℤ)
      (keyFingerprint : Option String) (fate : TransactionFate)
  | lookupKeyByFingerprint (fingerprint : String) (answered : Bool)
  | lookupKeysForAgent (agentId : String) (answered : Bool)
  | elsewhere (row : AgentKeyRecord)

structure RegistryState where
  table : KeyTable
  registry : AgentKeyRegistry

namespace RegistryState

/-- `register_key` after the fingerprint is known.  The row is committed before the
overlap that the second query found is reported. -/
def persistAndRegister (σ : RegistryState) (record : AgentKeyRecord) :
    TransactionFate → RegistryState × Except RegistryError AgentKeyRecord
  | .rollsBack => (σ, .error .databaseError)
  | .commitsUnanswered => ({ σ with table := σ.table.insert record }, .error .databaseError)
  | .commits =>
      let table := σ.table.insert record
      if table.collision record then ({ σ with table := table }, .error .valueError)
      else
        let (registry, result) := σ.registry.register record
        (⟨table, registry⟩, result)

/-- `register_key`; `compute_fingerprint` raises on what is not a public key. -/
def registerKey (computeFingerprint : String → Option String) (σ : RegistryState)
    (agentId publicKeyPem : String) (activatedAtChainSeq : ℤ)
    (keyFingerprint : Option String) (fate : TransactionFate) :
    RegistryState × Except RegistryError AgentKeyRecord :=
  match keyFingerprint.or (computeFingerprint publicKeyPem) with
  | none => (σ, .error .valueError)
  | some fingerprint =>
      σ.persistAndRegister ⟨fingerprint, agentId, publicKeyPem, activatedAtChainSeq⟩ fate

/-- `lookup_key_by_fingerprint`: the mirror first, then the table. -/
def lookupKeyByFingerprint (σ : RegistryState) (fingerprint : String) (answered : Bool) :
    RegistryState × Except RegistryError (Option String) :=
  match σ.registry.byFingerprint fingerprint with
  | some cached => (σ, .ok (some cached.publicKeyPem))
  | none =>
      if answered then
        match σ.table.lookup fingerprint with
        | none => (σ, .ok none)
        | some row =>
            ({ σ with registry := σ.registry.cacheExisting row }, .ok (some row.publicKeyPem))
      else (σ, .error .databaseError)

/-- `lookup_keys_for_agent`, which does not fill the mirror. -/
def lookupKeysForAgent (σ : RegistryState) (agentId : String) (answered : Bool) :
    RegistryState × Except RegistryError (List AgentKeyRecord) :=
  (σ,
    if answered then
      .ok ((σ.table.rows.filter fun r => r.agentId = agentId).mergeSort fun r r' =>
        r.activatedAtChainSeq ≤ r'.activatedAtChainSeq)
    else .error .databaseError)

/-- The state after a call. -/
def after (computeFingerprint : String → Option String) (σ : RegistryState) :
    RegistryCall → RegistryState
  | .registerKey agentId pem seq fingerprint fate =>
      (σ.registerKey computeFingerprint agentId pem seq fingerprint fate).1
  | .lookupKeyByFingerprint fingerprint answered =>
      (σ.lookupKeyByFingerprint fingerprint answered).1
  | .lookupKeysForAgent agentId answered => (σ.lookupKeysForAgent agentId answered).1
  | .elsewhere row => { σ with table := σ.table.insert row }

end RegistryState

/-- The runs of one registry, which starts with an empty mirror over any table. -/
def registrySystem (computeFingerprint : String → Option String) :
    System RegistryState where
  init σ := σ.registry = .empty
  step σ σ' := ∃ call, σ' = σ.after computeFingerprint call

/-! ## Keys that only the mirror has -/

/-- Every mirrored key that is not a row of the table was activated after the keys of its
agent that were mirrored before it. -/
def StraysLater (σ : RegistryState) : Prop :=
  ∀ agentId, (σ.registry.byAgent agentId).Pairwise fun prior r =>
    r ∉ σ.table.rows → prior.activatedAtChainSeq < r.activatedAtChainSeq

section

variable {σ : RegistryState} {record row : AgentKeyRecord} {fingerprint agentId : String}
  {computeFingerprint : String → Option String}

theorem StraysLater.insert (h : StraysLater σ) (row : AgentKeyRecord) :
    StraysLater { σ with table := σ.table.insert row } := by
  intro agentId
  refine (h agentId).imp ?_
  intro prior r hlater hstray
  exact hlater fun hmem => hstray (KeyTable.mem_insert_of_mem hmem)

theorem StraysLater.register (h : StraysLater σ) :
    StraysLater { σ with registry := (σ.registry.register record).1 } := by
  rcases AgentKeyRegistry.register_cases σ.registry record with
    hsame | ⟨hfresh, happend, hlater⟩
  · rw [hsame]
    exact h
  · rw [happend]
    apply AgentKeyRegistry.pairwise_append (h := hfresh) h
    intro prior hprior _
    exact hlater prior hprior

theorem StraysLater.cacheExisting (h : StraysLater σ) (hrow : row ∈ σ.table.rows) :
    StraysLater { σ with registry := σ.registry.cacheExisting row } := by
  rcases AgentKeyRegistry.cacheExisting_cases σ.registry row with
    hsame | ⟨hfresh, happend⟩
  · rw [hsame]
    exact h
  · rw [happend]
    apply AgentKeyRegistry.pairwise_append (h := hfresh) h
    intro prior _ hstray
    exact absurd hrow hstray

theorem StraysLater.persistAndRegister (h : StraysLater σ) (fate : TransactionFate) :
    StraysLater (σ.persistAndRegister record fate).1 := by
  cases fate with
  | rollsBack => exact h
  | commitsUnanswered => exact h.insert record
  | commits =>
      rw [RegistryState.persistAndRegister]
      split
      · exact h.insert record
      · exact (h.insert record).register

theorem StraysLater.lookup (h : StraysLater σ) (answered : Bool) :
    StraysLater (σ.lookupKeyByFingerprint fingerprint answered).1 := by
  rw [RegistryState.lookupKeyByFingerprint]
  split
  · exact h
  · split
    · split
      · exact h
      · rename_i hfound
        exact h.cacheExisting (KeyTable.mem_of_lookup hfound).1
    · exact h

theorem StraysLater.after (h : StraysLater σ) (call : RegistryCall) :
    StraysLater (σ.after computeFingerprint call) := by
  cases call with
  | registerKey agentId pem seq fp fate =>
      rw [RegistryState.after, RegistryState.registerKey]
      split
      · exact h
      · exact h.persistAndRegister fate
  | lookupKeyByFingerprint fp answered => exact h.lookup answered
  | lookupKeysForAgent agentId answered => exact h
  | elsewhere row => exact h.insert row

theorem straysLater_of_reachable (h : (registrySystem computeFingerprint).Reachable σ) :
    StraysLater σ := by
  refine System.invariant ?_ ?_ h
  · intro σ hinit agentId
    rw [show σ.registry = .empty from hinit]
    exact List.Pairwise.nil
  · rintro σ σ' - hstrays ⟨call, rfl⟩
    exact hstrays.after call

/-! ## Resolution -/

/-- The mirror resolves a sequence number to the key that is active among its own keys. -/
theorem AgentKeyRegistry.resolve_eq_activeKey (g : AgentKeyRegistry) (agentId : String)
    (chainSeq : ℤ) : g.resolve agentId chainSeq =
      activeKey (g.byAgent agentId) agentId chainSeq := by
  rw [resolve, activeKey]
  congr 1
  apply List.filter_congr
  intro r hr
  have hagent : r.agentId = agentId := ((g.indexed agentId r).mp hr).1
  simp [hagent]

theorem activeKey_eq_some_iff {rows : List AgentKeyRecord} {chainSeq : ℤ}
    {r : AgentKeyRecord} : activeKey rows agentId chainSeq = some r ↔
      r ∈ (rows.filter fun r => r.agentId = agentId ∧
        r.activatedAtChainSeq ≤ chainSeq).argmax AgentKeyRecord.activatedAtChainSeq := by
  rw [activeKey, maxBy_eq_argmax]
  rfl

theorem mem_of_activeKey {rows : List AgentKeyRecord} {chainSeq : ℤ} {r : AgentKeyRecord}
    (h : activeKey rows agentId chainSeq = some r) :
    r ∈ rows ∧ r.agentId = agentId ∧ r.activatedAtChainSeq ≤ chainSeq ∧
      ∀ m ∈ rows, m.agentId = agentId → m.activatedAtChainSeq ≤ chainSeq →
        m.activatedAtChainSeq ≤ r.activatedAtChainSeq := by
  rw [activeKey_eq_some_iff] at h
  have hmem := List.argmax_mem (f := AgentKeyRecord.activatedAtChainSeq) h
  rw [List.mem_filter, decide_eq_true_eq] at hmem
  refine ⟨hmem.1, hmem.2.1, hmem.2.2, ?_⟩
  intro m hm hagent hseq
  exact List.le_of_mem_argmax (List.mem_filter.mpr ⟨hm, by simp [hagent, hseq]⟩) h

theorem activeKey_eq_none_iff {rows : List AgentKeyRecord} {chainSeq : ℤ} :
    activeKey rows agentId chainSeq = none ↔
      ∀ m ∈ rows, m.agentId = agentId → ¬m.activatedAtChainSeq ≤ chainSeq := by
  rw [activeKey, maxBy_eq_argmax, List.argmax_eq_none, List.filter_eq_nil_iff]
  simp

/-- Two keys activated together: the one that `max` returns comes first. -/
theorem lt_of_activeKey_of_pairwise {rows : List AgentKeyRecord} {chainSeq : ℤ}
    {r m : AgentKeyRecord} {p : AgentKeyRecord → Prop}
    (h : activeKey rows agentId chainSeq = some r)
    (hpair : rows.Pairwise fun prior m => p m →
      prior.activatedAtChainSeq < m.activatedAtChainSeq)
    (hm : m ∈ rows) (hagent : m.agentId = agentId) (hseq : m.activatedAtChainSeq ≤ chainSeq)
    (hp : p m) (hne : m ≠ r) : m.activatedAtChainSeq < r.activatedAtChainSeq := by
  obtain ⟨-, -, -, hmax⟩ := mem_of_activeKey h
  refine lt_of_le_of_ne (hmax m hm hagent hseq) ?_
  intro heq
  set candidates := rows.filter fun r => r.agentId = agentId ∧
    r.activatedAtChainSeq ≤ chainSeq with hcandidates
  have hmc : m ∈ candidates := List.mem_filter.mpr ⟨hm, by simp [hagent, hseq]⟩
  obtain ⟨hrc, -, hfirst⟩ := List.mem_argmax_iff.mp (activeKey_eq_some_iff.mp h)
  have hle : candidates.idxOf r ≤ candidates.idxOf m := hfirst m hmc heq.ge
  have hlt : candidates.idxOf r < candidates.idxOf m := by
    refine lt_of_le_of_ne hle ?_
    intro hidx
    exact hne ((List.idxOf_inj hrc).mp hidx).symm
  have hpair' := List.pairwise_iff_getElem.mp (hpair.filter fun r : AgentKeyRecord =>
    r.agentId = agentId ∧ r.activatedAtChainSeq ≤ chainSeq) _ _
      (List.idxOf_lt_length_of_mem hrc) (List.idxOf_lt_length_of_mem hmc) hlt
  rw [List.getElem_idxOf, List.getElem_idxOf] at hpair'
  exact absurd heq (hpair' hp).ne'

/-- In a reached state, over a table without equal activations, `resolve` returns what the
table selects exactly when that row is mirrored and every key that only the mirror has is
activated after `chainSeq` or before that row. -/
theorem resolve_eq_select_iff (computeFingerprint : String → Option String)
    (σ : RegistryState) (agentId : String) (chainSeq : ℤ)
    (hreach : (registrySystem computeFingerprint).Reachable σ)
    (hdistinct : σ.table.DistinctActivations) :
    σ.registry.resolve agentId chainSeq = σ.table.select agentId chainSeq ↔
      (∀ r, σ.table.select agentId chainSeq = some r →
        σ.registry.getByFingerprint r.keyFingerprint = some r) ∧
      (∀ m ∈ σ.registry.byAgent agentId, m ∉ σ.table.rows →
        m.activatedAtChainSeq ≤ chainSeq →
          ∃ r, σ.table.select agentId chainSeq = some r ∧
            m.activatedAtChainSeq < r.activatedAtChainSeq) := by
  have hstrays := straysLater_of_reachable hreach agentId
  rw [AgentKeyRegistry.resolve_eq_activeKey]
  have hagentOf : ∀ m ∈ σ.registry.byAgent agentId, m.agentId = agentId := fun m hm =>
    ((σ.registry.indexed agentId m).mp hm).1
  constructor
  · intro hresolve
    constructor
    · intro r hselect
      rw [hselect] at hresolve
      exact ((σ.registry.indexed agentId r).mp (mem_of_activeKey hresolve).1).2
    · intro m hm hstray hseq
      rcases hselect : σ.table.select agentId chainSeq with _ | r
      · rw [hselect] at hresolve
        exact absurd hseq (activeKey_eq_none_iff.mp hresolve m hm (hagentOf m hm))
      · rw [hselect] at hresolve
        refine ⟨r, rfl, lt_of_activeKey_of_pairwise hresolve hstrays hm (hagentOf m hm)
          hseq hstray ?_⟩
        rintro rfl
        exact hstray (mem_of_activeKey hselect).1
  · rintro ⟨hmirrored, hnoStray⟩
    rcases hselect : σ.table.select agentId chainSeq with _ | r
    · apply activeKey_eq_none_iff.mpr
      intro m hm hagent hseq
      by_cases hrow : m ∈ σ.table.rows
      · exact activeKey_eq_none_iff.mp hselect m hrow hagent hseq
      · obtain ⟨r, hr, -⟩ := hnoStray m hm hrow hseq
        rw [hselect] at hr
        cases hr
    · obtain ⟨hrow, hagent, hseq, hmax⟩ := mem_of_activeKey hselect
      have hr : r ∈ σ.registry.byAgent agentId :=
        (σ.registry.indexed agentId r).mpr ⟨hagent, hmirrored r hselect⟩
      rcases hresolve : activeKey (σ.registry.byAgent agentId) agentId chainSeq with _ | x
      · exact absurd hseq (activeKey_eq_none_iff.mp hresolve r hr hagent)
      · obtain ⟨hx, hxagent, hxseq, hxmax⟩ := mem_of_activeKey hresolve
        have hle : r.activatedAtChainSeq ≤ x.activatedAtChainSeq := hxmax r hr hagent hseq
        by_cases hxrow : x ∈ σ.table.rows
        · have heq := le_antisymm (hmax x hxrow hxagent hxseq) hle
          rw [hdistinct x hxrow r hrow (hxagent.trans hagent.symm) heq]
        · obtain ⟨r', hr', hlt⟩ := hnoStray x hx hxrow hxseq
          rw [hselect] at hr'
          cases hr'
          exact absurd hle (not_le.mpr hlt)

end

/-! ## A rotated key -/

def firstKey : AgentKeyRecord := ⟨"aa", "billing-agent", "PEM A", 0⟩

def rotatedKey : AgentKeyRecord := ⟨"bb", "billing-agent", "PEM B", 100⟩

/-- A table with both keys of an agent, and a registry that nobody has used. -/
def rotatedState : RegistryState := ⟨⟨[firstKey, rotatedKey], by decide⟩, .empty⟩

/-- The same after a row that the first key signed was verified. -/
def halfMirrored : RegistryState := (rotatedState.lookupKeyByFingerprint "aa" true).1

theorem halfMirrored_reachable : (registrySystem fun _ => none).Reachable halfMirrored :=
  System.Reachable.next (.start (s := rotatedState) rfl)
    ⟨.lookupKeyByFingerprint "aa" true, rfl⟩

theorem halfMirrored_distinct : halfMirrored.table.DistinctActivations := by
  have hrows : halfMirrored.table.rows = [firstKey, rotatedKey] := rfl
  rw [KeyTable.DistinctActivations, hrows]
  decide

/-- Before the rotation the mirrored key is the one that the table selects. -/
theorem halfMirrored_resolves :
    halfMirrored.registry.resolve "billing-agent" 99 =
      halfMirrored.table.select "billing-agent" 99 :=
  (resolve_eq_select_iff _ _ _ _ halfMirrored_reachable halfMirrored_distinct).mpr (by
    have hselect : halfMirrored.table.select "billing-agent" 99 = some firstKey := rfl
    have hlist : halfMirrored.registry.byAgent "billing-agent" = [firstKey] := rfl
    have hrows : halfMirrored.table.rows = [firstKey, rotatedKey] := rfl
    rw [hselect, hlist, hrows]
    refine ⟨?_, by decide⟩
    rintro r ⟨⟩
    rfl)

/-- After it the old key is resolved, although another one is active. -/
theorem halfMirrored_resolves_old_key :
    (registrySystem fun _ => none).Reachable halfMirrored ∧
      halfMirrored.table.DistinctActivations ∧
      halfMirrored.registry.byAgent "billing-agent" ≠ [] ∧
      halfMirrored.registry.resolve "billing-agent" 150 = some firstKey ∧
      halfMirrored.table.select "billing-agent" 150 = some rotatedKey ∧
      halfMirrored.registry.resolve "billing-agent" 150 ≠
        halfMirrored.table.select "billing-agent" 150 := by
  refine ⟨halfMirrored_reachable, halfMirrored_distinct, List.cons_ne_nil _ _, rfl, rfl, ?_⟩
  change some firstKey ≠ some rotatedKey
  decide

end AgenticGovernance.Identity

import AgenticGovernance.Identity.Registry

/-!
# Registrations in memory

A registry without an engine is filled by `register` alone.  Whatever the calls, accepted or
refused, the keys of each agent stand in the order in which they were added, each activated
after the one before it.  `registerAll_unambiguous` draws the consequences: both indexes hold
the same records, and `resolve` never has to choose between two keys.
-/

namespace AgenticGovernance.Identity

namespace AgentKeyRegistry

/-- The registry after a sequence of `register` calls. -/
def registerAll (g : AgentKeyRegistry) (calls : List AgentKeyRecord) : AgentKeyRegistry :=
  calls.foldl (fun g record => (g.register record).1) g

/-- A call adds its record when it returns and the fingerprint was not there before. -/
def Adds (g : AgentKeyRegistry) (record : AgentKeyRecord) : Prop :=
  g.byFingerprint record.keyFingerprint = none ∧ (g.register record).2 = .ok record

instance (g : AgentKeyRegistry) (record : AgentKeyRecord) : Decidable (g.Adds record) :=
  inferInstanceAs (Decidable (_ ∧ _))

/-- The records that a sequence of calls adds, in the order of the calls. -/
def additions (g : AgentKeyRegistry) : List AgentKeyRecord → List AgentKeyRecord
  | [] => []
  | record :: calls =>
      let later := (g.register record).1.additions calls
      if g.Adds record then record :: later else later

/-- Every key of an agent is activated after the keys registered before it. -/
def Ordered (g : AgentKeyRegistry) : Prop :=
  ∀ agentId, (g.byAgent agentId).Pairwise fun prior r =>
    prior.activatedAtChainSeq < r.activatedAtChainSeq

/-! ## One call -/

variable {g : AgentKeyRegistry} {record r : AgentKeyRecord} {agentId : String}

theorem byAgent_append {h} : (g.append record h).byAgent agentId =
    if record.agentId = agentId then g.byAgent agentId ++ [record] else g.byAgent agentId := by
  by_cases hagent : record.agentId = agentId
  · subst hagent
    rw [if_pos rfl]
    exact Function.update_self ..
  · rw [if_neg hagent]
    exact Function.update_of_ne (Ne.symm hagent) ..

/-- A call that adds appends its record, and any other call changes nothing. -/
theorem register_eq (g : AgentKeyRegistry) (record : AgentKeyRecord) :
    (g.Adds record ∧ ∃ h, g.register record = (g.append record h, .ok record)) ∨
    (¬g.Adds record ∧ (g.register record).1 = g) := by
  unfold Adds register
  split
  · rename_i existing hfound
    refine Or.inr ⟨?_, ?_⟩
    · simp [hfound]
    · split
      · rfl
      · rfl
  · rename_i hfresh
    split
    · refine Or.inr ⟨?_, rfl⟩
      simp
    · exact Or.inl ⟨⟨hfresh, rfl⟩, hfresh, rfl⟩

theorem register_error {e : RegistryError} (h : (g.register record).2 = .error e) :
    (g.register record).1 = g := by
  rcases register_eq g record with
    ⟨-, hfresh, hregister⟩ | ⟨-, hsame⟩
  · rw [hregister] at h
    simp at h
  · exact hsame

theorem register_same (h : g.byFingerprint record.keyFingerprint = some record) :
    g.register record = (g, .ok record) := by
  unfold register
  split
  · rename_i existing hfound
    have hsame : existing = record := Option.some.inj (hfound.symm.trans h)
    rw [if_neg (not_not_intro hsame), hsame]
  · rename_i hfresh
    simp [hfresh] at h

theorem Ordered.register (h : g.Ordered) : (g.register record).1.Ordered := by
  rcases register_cases g record with hsame | ⟨hfresh, happend, hlater⟩
  · rw [hsame]
    exact h
  · rw [happend]
    exact pairwise_append h hlater

/-! ## A sequence of calls -/

theorem Ordered.registerAll (h : g.Ordered) (calls : List AgentKeyRecord) :
    (g.registerAll calls).Ordered := by
  induction calls generalizing g with
  | nil => exact h
  | cons record calls ih => exact ih h.register

theorem ordered_empty : empty.Ordered := fun _ => List.Pairwise.nil

/-- The list of an agent grows by its records among those added. -/
theorem byAgent_registerAll (calls : List AgentKeyRecord) :
    (g.registerAll calls).byAgent agentId =
      g.byAgent agentId ++ (g.additions calls).filter fun r => r.agentId = agentId := by
  induction calls generalizing g with
  | nil => simp [registerAll, additions]
  | cons record calls ih =>
      have hstep : (g.registerAll (record :: calls)) =
          (g.register record).1.registerAll calls := rfl
      rw [hstep, ih, additions]
      rcases register_eq g record with
        ⟨hadds, hfresh, hregister⟩ | ⟨hadds, hsame⟩
      · rw [if_pos hadds, hregister, byAgent_append]
        by_cases hagent : record.agentId = agentId
        · simp [hagent]
        · simp [hagent]
      · rw [if_neg hadds, hsame]

/-! ## Resolution without a choice -/

/-- Among ordered keys the greatest candidate is above all others. -/
theorem Ordered.resolve_eq_some_iff (h : g.Ordered) {chainSeq : ℤ} :
    g.resolve agentId chainSeq = some r ↔
      r ∈ g.byAgent agentId ∧ r.activatedAtChainSeq ≤ chainSeq ∧
        ∀ m ∈ g.byAgent agentId, m.activatedAtChainSeq ≤ chainSeq → m ≠ r →
          m.activatedAtChainSeq < r.activatedAtChainSeq := by
  have hagentOf : ∀ m ∈ g.byAgent agentId, m.agentId = agentId := by
    intro m hm
    exact ((g.indexed agentId m).mp hm).1
  rw [resolve_eq_activeKey]
  constructor
  · intro hactive
    obtain ⟨hmem, -, hseq, -⟩ := mem_of_activeKey hactive
    refine ⟨hmem, hseq, ?_⟩
    intro m hm hmseq hne
    have hpair := (h agentId).imp fun hlt (_ : True) => hlt
    exact lt_of_activeKey_of_pairwise hactive hpair hm (hagentOf m hm) hmseq trivial hne
  · intro hmax
    obtain ⟨hmem, hseq, hmax⟩ := hmax
    rcases hactive : activeKey (g.byAgent agentId) agentId chainSeq with _ | x
    · exact absurd hseq (activeKey_eq_none_iff.mp hactive r hmem (hagentOf r hmem))
    · obtain ⟨hx, -, hxseq, hxmax⟩ := mem_of_activeKey hactive
      congr 1
      by_contra hne
      have hlt := hmax x hx hxseq hne
      have hle := hxmax r hmem (hagentOf r hmem) hseq
      exact absurd hle (not_le.mpr hlt)

theorem resolve_eq_none_iff {chainSeq : ℤ} : g.resolve agentId chainSeq = none ↔
    ∀ m ∈ g.byAgent agentId, chainSeq < m.activatedAtChainSeq := by
  rw [resolve_eq_activeKey, activeKey_eq_none_iff]
  apply forall₂_congr
  intro m hm
  rw [not_le]
  exact forall_prop_of_true ((g.indexed agentId m).mp hm).1

theorem Ordered.resolve_mono (h : g.Ordered) {chainSeq chainSeq' : ℤ}
    (hle : chainSeq ≤ chainSeq') (hr : g.resolve agentId chainSeq = some r) :
    ∃ r', g.resolve agentId chainSeq' = some r' ∧
      r.activatedAtChainSeq ≤ r'.activatedAtChainSeq := by
  obtain ⟨hmem, hseq, -⟩ := h.resolve_eq_some_iff.mp hr
  have hcandidate := hseq.trans hle
  rcases hr' : g.resolve agentId chainSeq' with _ | r'
  · exact absurd hcandidate (not_le.mpr (resolve_eq_none_iff.mp hr' r hmem))
  · refine ⟨r', rfl, ?_⟩
    obtain ⟨-, -, hmax⟩ := h.resolve_eq_some_iff.mp hr'
    by_cases hsame : r = r'
    · rw [hsame]
    · exact (hmax r hmem hcandidate hsame).le

/-- Over every sequence of `register` calls: the lists keep the order of registration and
strictly increasing activations, both indexes hold the same records, a refused call and a
repeated one change nothing, and `resolve` finds one key above all other candidates, which
only moves to later activations as the sequence number grows. -/
theorem registerAll_unambiguous (calls : List AgentKeyRecord) :
    (∀ agentId,
      (empty.registerAll calls).byAgent agentId =
          ((empty.additions calls).filter fun r => r.agentId = agentId) ∧
        ((empty.registerAll calls).byAgent agentId).Pairwise fun prior r =>
          prior.activatedAtChainSeq < r.activatedAtChainSeq) ∧
    (∀ fingerprint r, (empty.registerAll calls).getByFingerprint fingerprint = some r ↔
      r.keyFingerprint = fingerprint ∧ ∃ agentId, r ∈ (empty.registerAll calls).byAgent agentId) ∧
    (∀ agentId, ∀ r ∈ (empty.registerAll calls).byAgent agentId, r.agentId = agentId) ∧
    (∀ record e, ((empty.registerAll calls).register record).2 = .error e →
      ((empty.registerAll calls).register record).1 = empty.registerAll calls) ∧
    (∀ record, (empty.registerAll calls).getByFingerprint record.keyFingerprint = some record →
      (empty.registerAll calls).register record = (empty.registerAll calls, .ok record)) ∧
    (∀ agentId chainSeq,
      ((empty.registerAll calls).resolve agentId chainSeq = none ↔
        ∀ m ∈ (empty.registerAll calls).byAgent agentId, chainSeq < m.activatedAtChainSeq) ∧
      ∀ r, (empty.registerAll calls).resolve agentId chainSeq = some r ↔
        r ∈ (empty.registerAll calls).byAgent agentId ∧ r.activatedAtChainSeq ≤ chainSeq ∧
          ∀ m ∈ (empty.registerAll calls).byAgent agentId, m.activatedAtChainSeq ≤ chainSeq →
            m ≠ r → m.activatedAtChainSeq < r.activatedAtChainSeq) ∧
    (∀ agentId chainSeq chainSeq' r, chainSeq ≤ chainSeq' →
      (empty.registerAll calls).resolve agentId chainSeq = some r →
        ∃ r', (empty.registerAll calls).resolve agentId chainSeq' = some r' ∧
          r.activatedAtChainSeq ≤ r'.activatedAtChainSeq) := by
  set g := empty.registerAll calls with hg
  have hordered : g.Ordered := ordered_empty.registerAll calls
  refine ⟨?_, ?_, ?_, fun record e => register_error, fun record => register_same, ?_, ?_⟩
  · intro agentId
    exact ⟨byAgent_registerAll calls, hordered agentId⟩
  · intro fingerprint r
    constructor
    · intro hfound
      have hkey := g.keyed fingerprint r hfound
      refine ⟨hkey, r.agentId, (g.indexed r.agentId r).mpr ⟨rfl, ?_⟩⟩
      rw [hkey]
      exact hfound
    · intro hlisted
      obtain ⟨hkey, agentId, hmem⟩ := hlisted
      have hfound := ((g.indexed agentId r).mp hmem).2
      rw [hkey] at hfound
      exact hfound
  · intro agentId r hr
    exact ((g.indexed agentId r).mp hr).1
  · intro agentId chainSeq
    exact ⟨resolve_eq_none_iff, fun r => hordered.resolve_eq_some_iff⟩
  · intro agentId chainSeq chainSeq' r hle hr
    exact hordered.resolve_mono hle hr

end AgentKeyRegistry

end AgenticGovernance.Identity

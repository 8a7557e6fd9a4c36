import AgenticGovernance.Coverage.Registry
import AgenticGovernance.Support.Double

/-!
# Coverage

`CoverageComputer` counts the agents with a scope policy and the agents whose wrapper was
seen within the active window, and reports the quotient.  The second count is not restricted
to agents of the first, so that wrappers of agents that are governed by other policies only
are counted as covered; the clamp to `1.0` hides when they are too many.

`coverage_iff` says for which contents of the two tables the reported numbers are fractions
of the governed agents.
-/

namespace AgenticGovernance.Coverage

open Support Policies

inductive CoverageReason where
  | noScopePoliciesRegistered
  | registryDisabled
  | ok
  deriving DecidableEq

/-- What the queries of one connection see.  `windowStart days` is the database's
`NOW() - CAST('days days' AS INTERVAL)`. -/
structure CoverageDb where
  policies : PolicyTable
  registrations : RegistrationTable
  windowStart : ℤ → ℤ

inductive CoverageEngine where
  | absent
  | unreachable
  | answers (db : CoverageDb)

structure CoverageComputer where
  engine : CoverageEngine
  enabled : Bool
  activeWindowDays : ℤ

namespace CoverageDb

/-- `SELECT DISTINCT agent_id FROM governance_policies WHERE policy_type = 'scope'` -/
def scopeAgents (db : CoverageDb) : Finset String :=
  ((db.policies.entries.filter fun e => e.1.2 = "scope").map fun e => e.1.1).toFinset

/-- `SELECT DISTINCT agent_id FROM governance_wrapper_registrations WHERE last_seen_at >= …` -/
def activeAgents (db : CoverageDb) (days : ℤ) : Finset String :=
  ((db.registrations.entries.filter fun e => db.windowStart days ≤ e.2.lastSeenAt).map
    fun e => e.2.agentId).toFinset

/-- The second query, with `AND agent_id = :agent_id` for one agent. -/
def countActive (db : CoverageDb) (days : ℤ) : Option String → ℕ
  | none => (db.activeAgents days).card
  | some agentId => ((db.activeAgents days).filter fun a => a = agentId).card

/-- The agents with a scope policy and a wrapper seen within the window. -/
def coveredAgents (db : CoverageDb) (days : ℤ) : Finset String :=
  db.scopeAgents.filter fun a => a ∈ db.activeAgents days

end CoverageDb

/-- `active / total` of two integers; `none` is the `OverflowError`. -/
def trueDivide (active total : ℕ) : Option Double := Double.nearest false (active / total)

/-- `min(1.0, q)` -/
def minOne (q : Double) : Double := if q.magnitude < 1 then q else .one

/-- `compute`; whatever the engine raises is reported as a disabled registry. -/
def CoverageComputer.compute (C : CoverageComputer) (agentId : Option String) :
    Option Double × CoverageReason :=
  if C.enabled then
    match C.engine with
    | .absent => (none, .registryDisabled)
    | .unreachable => (none, .registryDisabled)
    | .answers db =>
        let total := db.scopeAgents.card
        if total = 0 then (none, .noScopePoliciesRegistered)
        else
          let active := db.countActive C.activeWindowDays agentId
          match agentId with
          -- the policy of this one agent is not looked for
          | some _ => (some (if 0 < active then .one else .zero false), .ok)
          | none =>
              match trueDivide active total with
              | none => (none, .registryDisabled)
              | some q => (some (minOne q), .ok)
  else (none, .registryDisabled)

/-! ## The quotient -/

theorem minOne_eq_self {q : Double} (hneg : q.neg = false) (hle : q.magnitude ≤ 1) :
    minOne q = q := by
  rw [minOne]
  split
  · rfl
  · rename_i hge
    exact (Double.eq_one_of_magnitude hneg (le_antisymm hle (not_lt.mp hge))).symm

/-- A quotient of at most one is reported as it is. -/
theorem exists_trueDivide {active total : ℕ} (hle : active ≤ total) :
    ∃ q, trueDivide active total = some q ∧ minOne q = q := by
  have hquotient : (active : ℚ) / total ≤ 1 := by
    apply div_le_one_of_le₀
    · exact_mod_cast hle
    · positivity
  obtain ⟨q, hq, hone⟩ := Double.exists_nearest_of_le_one (by positivity) hquotient
  exact ⟨q, hq, minOne_eq_self (Double.neg_of_nearest hq) hone⟩

/-! ## The computer on a database -/

section

variable {C : CoverageComputer} {db : CoverageDb} {agentId : String}

theorem countActive_pos_iff {days : ℤ} :
    0 < db.countActive days (some agentId) ↔ agentId ∈ db.activeAgents days := by
  rw [CoverageDb.countActive, Finset.card_pos]
  constructor
  · intro hnonempty
    obtain ⟨a, ha⟩ := hnonempty
    rw [Finset.mem_filter] at ha
    rw [← ha.2]
    exact ha.1
  · intro hmem
    exact ⟨agentId, Finset.mem_filter.mpr ⟨hmem, rfl⟩⟩

theorem compute_agent (henabled : C.enabled = true) (hengine : C.engine = .answers db)
    (hscope : db.scopeAgents.Nonempty) (agentId : String) : C.compute (some agentId) =
      (some (if agentId ∈ db.activeAgents C.activeWindowDays then .one else .zero false),
        .ok) := by
  rw [CoverageComputer.compute, if_pos henabled, hengine]
  simp only [Finset.card_ne_zero.mpr hscope, if_false, countActive_pos_iff]

theorem compute_all (henabled : C.enabled = true) (hengine : C.engine = .answers db)
    (hscope : db.scopeAgents.Nonempty) : C.compute none =
      match trueDivide (db.activeAgents C.activeWindowDays).card db.scopeAgents.card with
      | none => (none, .registryDisabled)
      | some q => (some (minOne q), .ok) := by
  rw [CoverageComputer.compute, if_pos henabled, hengine]
  simp only [Finset.card_ne_zero.mpr hscope, if_false, CoverageDb.countActive]

/-- One agent is reported as covered when its wrapper is active. -/
theorem compute_agent_eq_one_iff (henabled : C.enabled = true) (hengine : C.engine = .answers db)
    (hscope : db.scopeAgents.Nonempty) : (C.compute (some agentId)).1 = some .one ↔
      agentId ∈ db.activeAgents C.activeWindowDays := by
  rw [compute_agent henabled hengine hscope]
  split
  · rename_i hactive
    exact iff_of_true rfl hactive
  · rename_i hinactive
    refine iff_of_false ?_ hinactive
    intro hone
    have hzero : (Double.zero false).mantissa = Double.one.mantissa :=
      congrArg Double.mantissa (Option.some.inj hone)
    simp [Double.zero, Double.one] at hzero

/-- The reported coverage is the covered fraction of the agents with a scope policy, of all
of them and of each, exactly when every agent with an active wrapper has a scope policy. -/
theorem coverage_iff (C : CoverageComputer) (db : CoverageDb) (henabled : C.enabled = true)
    (hengine : C.engine = .answers db) (hscope : db.scopeAgents.Nonempty) :
    ((∃ q, trueDivide (db.coveredAgents C.activeWindowDays).card db.scopeAgents.card = some q ∧
        C.compute none = (some q, .ok)) ∧
      ∀ agentId, (C.compute (some agentId)).1 = some .one ↔
        agentId ∈ db.coveredAgents C.activeWindowDays) ↔
    db.activeAgents C.activeWindowDays ⊆ db.scopeAgents := by
  constructor
  · intro hreported agentId hactive
    have hone := (compute_agent_eq_one_iff henabled hengine hscope).mpr hactive
    exact (Finset.mem_filter.mp ((hreported.2 agentId).mp hone)).1
  · intro hgoverned
    have hcovered : db.coveredAgents C.activeWindowDays =
        db.activeAgents C.activeWindowDays := by
      rw [CoverageDb.coveredAgents, Finset.filter_mem_eq_inter]
      exact Finset.inter_eq_right.mpr hgoverned
    rw [hcovered]
    refine ⟨?_, fun agentId => compute_agent_eq_one_iff henabled hengine hscope⟩
    obtain ⟨q, hq, hmin⟩ := exists_trueDivide (Finset.card_le_card hgoverned)
    refine ⟨q, hq, ?_⟩
    rw [compute_all henabled hengine hscope, hq]
    simp only [hmin]

end

/-! ## A wrapper without a scope policy -/

def wrapperRow (agentId : String) : WrapperRegistration :=
  ⟨agentId, "openai", "host", ⟨1⟩, none, 10, 10⟩

/-- `agent-a` has a scope policy and no wrapper, `agent-b` a budget and a wrapper. -/
def budgetOnlyDb : CoverageDb where
  policies := (Keyed.empty.set ("agent-a", "scope") (.obj [])).set ("agent-b", "budget") (.obj [])
  registrations := Keyed.empty.set (wrapperRow "agent-b").key (wrapperRow "agent-b")
  windowStart _ := 0

/-- `agent-a` has a scope policy and a wrapper. -/
def governedDb : CoverageDb where
  policies := Keyed.empty.set ("agent-a", "scope") (.obj [])
  registrations := Keyed.empty.set (wrapperRow "agent-a").key (wrapperRow "agent-a")
  windowStart _ := 0

theorem governed_agent_covered :
    (∃ q, trueDivide (governedDb.coveredAgents 7).card governedDb.scopeAgents.card = some q ∧
        CoverageComputer.compute ⟨.answers governedDb, true, 7⟩ none = (some q, .ok)) ∧
      ∀ agentId, (CoverageComputer.compute ⟨.answers governedDb, true, 7⟩ (some agentId)).1 =
        some .one ↔ agentId ∈ governedDb.coveredAgents 7 :=
  (coverage_iff ⟨.answers governedDb, true, 7⟩ governedDb rfl rfl (by decide)).mpr (by decide)

/-- Nobody is covered, and the coverage is reported as complete. -/
theorem budget_only_wrapper_covered :
    budgetOnlyDb.scopeAgents = {"agent-a"} ∧ budgetOnlyDb.coveredAgents 7 = ∅ ∧
      CoverageComputer.compute ⟨.answers budgetOnlyDb, true, 7⟩ none = (some .one, .ok) ∧
      CoverageComputer.compute ⟨.answers budgetOnlyDb, true, 7⟩ (some "agent-b") =
        (some .one, .ok) ∧
      trueDivide (budgetOnlyDb.coveredAgents 7).card budgetOnlyDb.scopeAgents.card ≠
        some .one := by
  have hscope : budgetOnlyDb.scopeAgents = {"agent-a"} := by decide
  have hcovered : budgetOnlyDb.coveredAgents 7 = ∅ := by decide
  have hactive : budgetOnlyDb.activeAgents 7 = {"agent-b"} := by decide
  have hnonempty : budgetOnlyDb.scopeAgents.Nonempty := by decide
  refine ⟨hscope, hcovered, ?_, ?_, ?_⟩
  · have hone : trueDivide 1 1 = some .one := by
      rw [trueDivide, Nat.cast_one, div_one, Double.nearest_one]
    have hall := compute_all (C := ⟨.answers budgetOnlyDb, true, 7⟩) rfl rfl hnonempty
    rw [hall, hscope, hactive]
    simp only [Finset.card_singleton, hone, minOne, Double.magnitude_one, lt_irrefl, if_false]
  · have hagent := compute_agent (C := ⟨.answers budgetOnlyDb, true, 7⟩) rfl rfl hnonempty "agent-b"
    rw [hagent, hactive]
    rfl
  · rw [hcovered, trueDivide, Finset.card_empty, Nat.cast_zero, zero_div, Double.nearest_zero]
    decide

end AgenticGovernance.Coverage

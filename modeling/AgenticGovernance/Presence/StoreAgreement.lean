import Mathlib
import AgenticGovernance.Presence.Store

/-!
# The two presence stores

A module with a database keeps its agents in a table, one without keeps them in a dictionary.
The operations are written once in SQL and once in Python, and they fail differently: a
statement that is rolled back leaves the table as it was, and the caller is told so only by
`halt`.

`presence_stores_agree` compares the two over whole runs.  The table holds what the dictionary
would hold after the calls that took effect, so the same agents are listed and the same agents
are halted, by the same operators.
-/

namespace AgenticGovernance.Presence

open Support

/-! ## Listing the agents -/

/-- What `list_agents` returns for one agent. -/
structure AgentRow where
  agentId : String
  status : AgentStatus
  lastHeartbeat : ℤ
  startedAt : ℤ
  metadata : PyValue
  operatorId : Option String

def agentRow (agentId : String) (e : PresenceEntry) : AgentRow :=
  ⟨agentId, e.status, e.lastHeartbeat, e.startedAt, e.metadata, e.operatorId⟩

/-- `_list_agents_memory` -/
def listAgentsMemory (agents : Agents) : List AgentRow :=
  agents.entries.map fun e => agentRow e.1 e.2

/-- The order of texts in the database. -/
structure Collation where
  le : String → String → Bool
  trans : ∀ a b c, le a b → le b c → le a c
  total : ∀ a b, le a b || le b a

/-- The collation `C`: the order of the bytes, which is that of the code points. -/
def Collation.bytes : Collation where
  le s t := s ≤ t
  trans a b c hab hbc := by
    rw [decide_eq_true_eq] at hab hbc ⊢
    exact hab.trans hbc
  total a b := by
    rw [Bool.or_eq_true, decide_eq_true_eq, decide_eq_true_eq]
    exact le_total a b

/-- The row with its metadata as the driver returns the column. -/
def AgentRow.ofColumn (column : PyValue → PyValue) (r : AgentRow) : AgentRow :=
  { r with metadata := column r.metadata }

/-- `_list_agents_postgres`, where nothing fails. -/
def listAgentsPostgres (collation : Collation) (column : PyValue → PyValue) (table : Agents) :
    List AgentRow :=
  (table.entries.mergeSort fun e f => collation.le e.1 f.1).map fun e =>
    (agentRow e.1 e.2).ofColumn column

/-! ## Runs -/

/-- A call, the time at which it is made, and what becomes of its statement. -/
structure TimedCall where
  call : PresenceCall
  now : ℤ
  fate : Fate

/-- The call has changed the store. -/
def TimedCall.tookEffect (c : TimedCall) : Bool := c.fate ≠ .rolledBack

/-- A module without a database. -/
def memoryEngines : Engines := ⟨false, false, by decide⟩

/-- A module on a database, with an engine of its own for halts or without. -/
def tableEngines (halt : Bool) : Engines := ⟨true, halt, fun _ => rfl⟩

def PresenceState.fresh : PresenceState := ⟨Keyed.empty, Keyed.empty⟩

section Runs

variable (dumpsLength : PyValue → Option ℕ)

def PresenceState.run (E : Engines) : PresenceState → List TimedCall → PresenceState
  | s, [] => s
  | s, c :: calls => PresenceState.run E (s.call dumpsLength E c.now c.fate c.call).1 calls

end Runs

/-! ## The operations agree -/

section Operations

variable {agents table : Agents} {now timeoutSeconds : ℤ} {agentId haltedBy : String}
  {metadata : Option PyValue} {operatorId reason : Option String}

theorem agrees_heartbeat (h : agents.Agrees table) :
    (heartbeatMemory agents now agentId metadata operatorId).Agrees
      (heartbeatPostgres table now agentId metadata operatorId) := by
  apply h.upsert
  rcases agents.get? agentId with - | e
  · simp
  · simp

theorem agrees_markIdle (h : agents.Agrees table) :
    (markIdleMemory agents agentId).Agrees (markIdlePostgres table agentId) :=
  h.updateAll fun _ _ => rfl

/-- A halted agent is closed by neither. -/
theorem agrees_closeAgent (h : agents.Agrees table) :
    (closeAgentMemory agents agentId).Agrees (closeAgentPostgres table agentId) := by
  intro a
  rw [closeAgentMemory, closeAgentPostgres, Keyed.get?_deleteWhere, ← h a]
  by_cases hhalted : ((agents.get? agentId).bind fun e => e.haltedBy).isSome
  · rw [if_pos hhalted]
    rcases hentry : agents.get? a with - | e
    · simp
    · by_cases ha : a = agentId
      · rw [← ha, hentry, Option.bind_some] at hhalted
        have hset : e.haltedBy ≠ none := Option.isSome_iff_ne_none.mp hhalted
        simp [hset]
      · simp [ha]
  · rw [if_neg hhalted, Keyed.get?_deleteWhere]
    rcases hentry : agents.get? a with - | e
    · simp
    · by_cases ha : a = agentId
      · rw [← ha, hentry, Option.bind_some, Option.isSome_iff_ne_none, not_not] at hhalted
        simp [ha, hhalted]
      · simp [ha]

theorem agrees_checkStale (h : agents.Agrees table) :
    (checkStaleMemory agents now timeoutSeconds).Agrees
      (checkStalePostgres table now timeoutSeconds) := by
  apply h.updateAll
  intro a e
  have hlate : timeoutSeconds * 1000000 < now - e.lastHeartbeat ↔
      e.lastHeartbeat < now - timeoutSeconds * 1000000 := by
    omega
  simp only [hlate]

theorem agrees_halt (h : agents.Agrees table) :
    (haltMemory agents now agentId haltedBy reason).Agrees
      (haltPostgres table now agentId haltedBy reason) := by
  apply h.upsert
  rcases agents.get? agentId with - | e
  · simp
  · simp

end Operations

/-! ## Whole runs -/

section Agreement

variable {dumpsLength : PyValue → Option ℕ} {halt : Bool} {s t : PresenceState}

theorem execute_rolledBack (statement : Agents → Agents) :
    t.execute .rolledBack statement = t := by
  rw [PresenceState.execute, if_pos rfl]

theorem table_execute {fate : Fate} (hfate : fate ≠ .rolledBack) (statement : Agents → Agents) :
    (t.execute fate statement).table = statement t.table := by
  rw [PresenceState.execute, if_neg hfate]

theorem haltEngine_tableEngines : (tableEngines halt).haltEngine = true :=
  (tableEngines halt).haltEngine_eq

/-- A statement that is rolled back leaves everything as it was. -/
theorem call_rolledBack (now : ℤ) (c : PresenceCall) :
    (t.call dumpsLength (tableEngines halt) now .rolledBack c).1 = t := by
  have hshared : (tableEngines halt).shared = true := rfl
  cases c with
  | heartbeat agentId metadata operatorId =>
      rw [call_heartbeat]
      rcases heartbeatAccepted dumpsLength agentId metadata operatorId with - | accepted | accepted
      · rfl
      · rfl
      · simp only [hshared, if_true, execute_rolledBack]
  | markIdle agentId => rw [call_markIdle, if_pos hshared, execute_rolledBack]
  | closeAgent agentId => rw [call_closeAgent, if_pos hshared, execute_rolledBack]
  | listAgents => rfl
  | checkStale timeoutSeconds => rw [call_checkStale, if_pos hshared, execute_rolledBack]
  | halt agentId haltedBy reason =>
      rw [call_halt, if_pos haltEngine_tableEngines, execute_rolledBack]

/-- A statement that takes effect does in the table what the call does in the dictionary. -/
theorem call_agrees (h : s.agents.Agrees t.table) (now : ℤ) {fate : Fate}
    (hfate : fate ≠ .rolledBack) (c : PresenceCall) :
    Keyed.Agrees (s.call dumpsLength memoryEngines now fate c).1.agents
      (t.call dumpsLength (tableEngines halt) now fate c).1.table := by
  have hmemory : ¬memoryEngines.shared = true := by decide
  have hshared : (tableEngines halt).shared = true := rfl
  cases c with
  | heartbeat agentId metadata operatorId =>
      rw [call_heartbeat, call_heartbeat]
      rcases heartbeatAccepted dumpsLength agentId metadata operatorId with - | accepted | accepted
      · exact h
      · exact h
      · simp only [hshared, hmemory, if_true, table_execute hfate]
        exact agrees_heartbeat h
  | markIdle agentId =>
      rw [call_markIdle, call_markIdle, if_neg hmemory, if_pos hshared, table_execute hfate]
      exact agrees_markIdle h
  | closeAgent agentId =>
      rw [call_closeAgent, call_closeAgent, if_neg hmemory, if_pos hshared, table_execute hfate]
      exact agrees_closeAgent h
  | listAgents => exact h
  | checkStale timeoutSeconds =>
      rw [call_checkStale, call_checkStale, if_neg hmemory, if_pos hshared, table_execute hfate]
      exact agrees_checkStale h
  | halt agentId haltedBy reason =>
      have hnone : ¬memoryEngines.haltEngine = true := by decide
      rw [call_halt, call_halt, if_neg hnone, if_pos haltEngine_tableEngines, table_execute hfate]
      exact agrees_halt h

theorem run_agrees (h : s.agents.Agrees t.table) (calls : List TimedCall) :
    Keyed.Agrees
      (s.run dumpsLength memoryEngines (calls.filter TimedCall.tookEffect)).agents
      (t.run dumpsLength (tableEngines halt) calls).table := by
  induction calls generalizing s t with
  | nil => exact h
  | cons c calls ih =>
      by_cases hfate : c.fate = .rolledBack
      · have hskip : c.tookEffect = false := by simp [TimedCall.tookEffect, hfate]
        rw [List.filter_cons_of_neg (by simp [hskip]), PresenceState.run, hfate, call_rolledBack]
        exact ih h
      · have heffect : c.tookEffect = true := by simp [TimedCall.tookEffect, hfate]
        rw [List.filter_cons_of_pos heffect, PresenceState.run, PresenceState.run]
        exact ih (call_agrees h c.now hfate c.call)

end Agreement

/-! ## What the readers see -/

section Readers

variable {agents table : Agents}

theorem perm_listAgents (h : agents.Agrees table) (collation : Collation)
    (column : PyValue → PyValue) :
    (listAgentsPostgres collation column table).Perm
      ((listAgentsMemory agents).map fun r => r.ofColumn column) := by
  rw [listAgentsPostgres, listAgentsMemory, List.map_map]
  apply List.Perm.map
  exact (List.mergeSort_perm _ _).trans h.perm.symm

theorem pairwise_listAgentsPostgres (collation : Collation) (column : PyValue → PyValue)
    (table : Agents) :
    (listAgentsPostgres collation column table).Pairwise fun r r' =>
      collation.le r.agentId r'.agentId := by
  rw [listAgentsPostgres, List.pairwise_map]
  exact List.pairwise_mergeSort (fun e f g => collation.trans e.1 f.1 g.1)
    (fun e f => collation.total e.1 f.1) table.entries

end Readers

/-- After any calls, whatever becomes of the statements: the table lists the agents that the
dictionary would list after the calls that took effect, in order and up to the representation
of the metadata, and the same agents are halted, by the same operators. -/
theorem presence_stores_agree (dumpsLength : PyValue → Option ℕ) (halt : Bool)
    (collation : Collation) (column : PyValue → PyValue) (calls : List TimedCall) :
    let memory := PresenceState.fresh.run dumpsLength memoryEngines
      (calls.filter TimedCall.tookEffect)
    let table := PresenceState.fresh.run dumpsLength (tableEngines halt) calls
    (listAgentsPostgres collation column table.table).Perm
        ((listAgentsMemory memory.agents).map fun r => r.ofColumn column) ∧
      ((listAgentsPostgres collation column table.table).Pairwise fun r r' =>
        collation.le r.agentId r'.agentId) ∧
      ∀ a, (table.haltedSet (tableEngines halt)).get? a =
        (memory.haltedSet memoryEngines).get? a := by
  intro memory table
  have hagree : memory.agents.Agrees table.table := run_agrees (Keyed.Agrees.refl _) calls
  refine ⟨perm_listAgents hagree collation column,
    pairwise_listAgentsPostgres collation column _, ?_⟩
  intro a
  have hmarkers := hagree.filterMap (fun _ e => PresenceEntry.haltMeta e)
  exact (hmarkers a).symm

/-- Two agents, one of them halted by a statement whose commit was not acknowledged, and a
heartbeat that was rolled back. -/
def haltedCalls : List TimedCall :=
  [⟨.heartbeat "writer" none (some "operator"), 10, .committed⟩,
   ⟨.heartbeat "analyst" none none, 11, .unacknowledged⟩,
   ⟨.heartbeat "reader" none none, 12, .rolledBack⟩,
   ⟨.halt "writer" "operator" none, 13, .unacknowledged⟩]

theorem haltedCalls_agree :
    let memory := PresenceState.fresh.run (fun _ => none) memoryEngines
      (haltedCalls.filter TimedCall.tookEffect)
    let table := PresenceState.fresh.run (fun _ => none) (tableEngines true) haltedCalls
    ((listAgentsMemory memory.agents).map AgentRow.agentId = ["writer", "analyst"] ∧
      ((table.haltedSet (tableEngines true)).get? "writer").map HaltMeta.haltedBy =
        some "operator") ∧
      (listAgentsPostgres .bytes id table.table).Perm
        ((listAgentsMemory memory.agents).map fun r => r.ofColumn id) ∧
      ((listAgentsPostgres .bytes id table.table).Pairwise fun r r' =>
        Collation.bytes.le r.agentId r'.agentId) ∧
      ∀ a, (table.haltedSet (tableEngines true)).get? a =
        (memory.haltedSet memoryEngines).get? a :=
  ⟨by decide +kernel, presence_stores_agree (fun _ => none) true .bytes id haltedCalls⟩

end AgenticGovernance.Presence

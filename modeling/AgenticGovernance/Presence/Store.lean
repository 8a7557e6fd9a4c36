import Mathlib
import AgenticGovernance.Support.Keyed
import AgenticGovernance.Support.PyValue

/-!
# Agent presence and the halt marker

`PresenceModule` keeps one entry for each agent, in the table
`governance_agent_presence` or, without a database, in a dictionary.  An operator
halts an agent by setting the `halted_by` marker of its entry; no other operation
writes the marker.

Every operation touches its store in one SQL statement or in one section under the
module's lock, with the time read before it as an argument.  So any interleaving of
concurrent calls is a sequence of the steps below.
-/

namespace AgenticGovernance.Presence

open Support

inductive AgentStatus where
  | live
  | idle
  | unresponsive
  deriving DecidableEq, Repr

/-- The values of one agent.  Times are microseconds since the epoch. -/
structure PresenceEntry where
  status : AgentStatus
  lastHeartbeat : ℤ
  startedAt : ℤ
  metadata : PyValue
  operatorId : Option String
  haltedBy : Option String
  haltedAt : Option ℤ
  haltReason : Option String

/-- The halt metadata that `AgentHaltedError` carries. -/
structure HaltMeta where
  haltedBy : String
  haltedAt : Option ℤ
  reason : Option String

abbrev Agents := Keyed String PresenceEntry

def PresenceEntry.haltMeta (e : PresenceEntry) : Option HaltMeta :=
  e.haltedBy.map fun operator => ⟨operator, e.haltedAt, e.haltReason⟩

/-- The entries whose marker is not `None`, as both backends read them. -/
def haltMarkers (agents : Agents) : Keyed String HaltMeta :=
  agents.filterMap fun _ e => e.haltMeta

/-! ## The in-memory dictionary -/

/-- `metadata or {}` -/
def metadataOrEmpty (metadata : Option PyValue) : PyValue := metadata.getD (.dict [])

def heartbeatMemory (agents : Agents) (now : ℤ) (agentId : String)
    (metadata : Option PyValue) (operatorId : Option String) : Agents :=
  let existing := agents.get? agentId
  agents.set agentId
    { status := .live
      lastHeartbeat := now
      startedAt := (existing.map fun e => e.startedAt).getD now
      metadata := metadataOrEmpty metadata
      operatorId := operatorId
      haltedBy := existing.bind fun e => e.haltedBy
      haltedAt := existing.bind fun e => e.haltedAt
      haltReason := existing.bind fun e => e.haltReason }

def markIdleMemory (agents : Agents) (agentId : String) : Agents :=
  agents.update agentId fun e => { e with status := .idle }

def closeAgentMemory (agents : Agents) (agentId : String) : Agents :=
  if ((agents.get? agentId).bind fun e => e.haltedBy).isSome then agents
  else agents.deleteWhere fun k _ => k = agentId

def checkStaleMemory (agents : Agents) (now timeoutSeconds : ℤ) : Agents :=
  agents.updateAll fun _ e =>
    if timeoutSeconds * 1000000 < now - e.lastHeartbeat ∧ e.status ≠ .unresponsive then
      { e with status := .unresponsive }
    else e

def haltMemory (agents : Agents) (now : ℤ) (agentId haltedBy : String)
    (reason : Option String) : Agents :=
  let mark (e : PresenceEntry) : PresenceEntry :=
    { e with haltedBy := some haltedBy, haltedAt := some now, haltReason := reason }
  -- an agent that has not been seen gets a minimal entry
  agents.upsert agentId (mark ⟨.live, now, now, .dict [], none, none, none, none⟩) mark

def deriveHaltedFromMemory (agents : Agents) : Keyed String HaltMeta := haltMarkers agents

/-! ## The SQL statements -/

/-- The metadata column holds the value whose JSON text is cast to `jsonb`. -/
def heartbeatPostgres (table : Agents) (now : ℤ) (agentId : String)
    (metadata : Option PyValue) (operatorId : Option String) : Agents :=
  table.upsert agentId
    ⟨.live, now, now, metadataOrEmpty metadata, operatorId, none, none, none⟩
    fun e => { e with
      status := .live
      lastHeartbeat := now
      metadata := metadataOrEmpty metadata
      operatorId := operatorId }

def markIdlePostgres (table : Agents) (agentId : String) : Agents :=
  table.update agentId fun e => { e with status := .idle }

/-- The trigger on the table stops the deletion of a halted row, and the statement
selects none. -/
def closeAgentPostgres (table : Agents) (agentId : String) : Agents :=
  table.deleteWhere fun k e => k = agentId ∧ e.haltedBy = none

def checkStalePostgres (table : Agents) (now timeoutSeconds : ℤ) : Agents :=
  table.updateAll fun _ e =>
    if e.lastHeartbeat < now - timeoutSeconds * 1000000 ∧ e.status ≠ .unresponsive then
      { e with status := .unresponsive }
    else e

/-- The columns that the `INSERT` does not name take their defaults. -/
def haltPostgres (table : Agents) (now : ℤ) (agentId haltedBy : String)
    (reason : Option String) : Agents :=
  table.upsert agentId
    ⟨.live, now, now, .dict [], none, some haltedBy, some now, reason⟩
    fun e => { e with haltedBy := some haltedBy, haltedAt := some now, haltReason := reason }

def fetchHaltedFromPostgres (table : Agents) : Keyed String HaltMeta := haltMarkers table

/-! ## The module -/

/-- The engines of the module.  `wired` is the check of the SDK constructor, which
refuses a halt engine without a main database. -/
structure Engines where
  shared : Bool
  halt : Bool
  wired : halt = true → shared = true

/-- `_get_halt_engine() is not None` -/
def Engines.haltEngine (E : Engines) : Bool := E.halt || E.shared

theorem Engines.haltEngine_eq (E : Engines) : E.haltEngine = E.shared := by
  rcases hhalt : E.halt with _ | _
  · simp [haltEngine, hhalt]
  · simp [haltEngine, E.wired hhalt]

structure PresenceState where
  agents : Agents
  table : Agents

/-- What becomes of a statement.  One that loses its connection may be committed
although the caller sees an exception. -/
inductive Fate where
  | committed
  | rolledBack
  | unacknowledged
  deriving DecidableEq, Repr

inductive PresenceCall where
  | heartbeat (agentId : String) (metadata : Option PyValue) (operatorId : Option String)
  | markIdle (agentId : String)
  | closeAgent (agentId : String)
  | listAgents
  | checkStale (timeoutSeconds : ℤ)
  | halt (agentId haltedBy : String) (reason : Option String)

inductive Reply where
  | returned
  | raised
  deriving DecidableEq, Repr

def maxAgentIdLen : ℕ := 256

def maxOperatorIdLen : ℕ := 256

def maxMetadataBytes : ℕ := 65536

/-- A statement on the table, with its errors logged and swallowed. -/
def PresenceState.execute (s : PresenceState) (fate : Fate) (statement : Agents → Agents) :
    PresenceState :=
  if fate = .rolledBack then s else { s with table := statement s.table }

section Module

-- `dumpsLength` is `len(json.dumps(value))`, with `none` for the values on which it raises
variable (dumpsLength : PyValue → Option ℕ) (E : Engines)

/-- The guards of `heartbeat`; `none` when the size check raises. -/
def heartbeatAccepted (agentId : String) (metadata : Option PyValue)
    (operatorId : Option String) : Option Bool :=
  if agentId.length = 0 ∨ maxAgentIdLen < agentId.length then some false
  else if maxOperatorIdLen < (operatorId.map String.length).getD 0 then some false
  else
    match metadata with
    | none => some true
    | some value => (dumpsLength value).map fun n => n ≤ maxMetadataBytes

def PresenceState.call (s : PresenceState) (now : ℤ) (fate : Fate) :
    PresenceCall → PresenceState × Reply
  | .heartbeat agentId metadata operatorId =>
      match heartbeatAccepted dumpsLength agentId metadata operatorId with
      | none => (s, .raised)
      | some false => (s, .returned)
      | some true =>
          if E.shared then
            (s.execute fate fun table => heartbeatPostgres table now agentId metadata operatorId,
              .returned)
          else
            ({ s with agents := heartbeatMemory s.agents now agentId metadata operatorId },
              .returned)
  | .markIdle agentId =>
      if E.shared then
        (s.execute fate fun table => markIdlePostgres table agentId, .returned)
      else ({ s with agents := markIdleMemory s.agents agentId }, .returned)
  | .closeAgent agentId =>
      if E.shared then
        (s.execute fate fun table => closeAgentPostgres table agentId, .returned)
      else ({ s with agents := closeAgentMemory s.agents agentId }, .returned)
  -- only reads
  | .listAgents => (s, .returned)
  | .checkStale timeoutSeconds =>
      if E.shared then
        (s.execute fate fun table => checkStalePostgres table now timeoutSeconds, .returned)
      else ({ s with agents := checkStaleMemory s.agents now timeoutSeconds }, .returned)
  | .halt agentId haltedBy reason =>
      if E.haltEngine then
        (s.execute fate fun table => haltPostgres table now agentId haltedBy reason,
          if fate = .committed then .returned else .raised)
      else
        ({ s with agents := haltMemory s.agents now agentId haltedBy reason }, .returned)

/-- One call of any kind, at any time and with any fate. -/
def PresenceStep (s t : PresenceState) : Prop :=
  ∃ c now fate, (s.call dumpsLength E now fate c).1 = t

end Module

/-- The store that the module reads. -/
def PresenceState.store (s : PresenceState) (E : Engines) : Agents :=
  if E.shared then s.table else s.agents

/-- The derivation of the halted set from the store that the module reads. -/
def PresenceState.haltedSet (s : PresenceState) (E : Engines) : Keyed String HaltMeta :=
  if E.shared then fetchHaltedFromPostgres s.table else deriveHaltedFromMemory s.agents

/-! ## The marker stays -/

/-- The agent has an entry and its marker is set. -/
def Marked (agents : Agents) (agentId : String) : Prop :=
  ∃ e, agents.get? agentId = some e ∧ e.haltedBy.isSome

section Marked

variable {agents : Agents} {a : String}

theorem marked_iff : Marked agents a ↔ ((agents.get? a).bind fun e => e.haltedBy).isSome := by
  rcases hget : agents.get? a with _ | e
  · simp [Marked, hget]
  · simp [Marked, hget]

theorem Marked.get?_haltMarkers (h : Marked agents a) :
    ∃ m, (haltMarkers agents).get? a = some m := by
  obtain ⟨e, hget, hmarked⟩ := h
  obtain ⟨operator, hby⟩ := Option.isSome_iff_exists.mp hmarked
  exact ⟨_, by rw [haltMarkers, Keyed.get?_filterMap, hget, Option.bind_some,
    PresenceEntry.haltMeta, hby, Option.map_some]⟩

/-- An update that leaves the marker of every entry alone, or sets it. -/
theorem Marked.of_map {agents' : Agents} {f : PresenceEntry → PresenceEntry}
    (hget : agents'.get? a = (agents.get? a).map f)
    (hf : ∀ e, e.haltedBy.isSome → (f e).haltedBy.isSome) (h : Marked agents a) :
    Marked agents' a := by
  obtain ⟨e, he, hmarked⟩ := h
  exact ⟨f e, by rw [hget, he, Option.map_some], hf e hmarked⟩

theorem Marked.upsert {k : String} {new : PresenceEntry} {f : PresenceEntry → PresenceEntry}
    (hf : ∀ e, e.haltedBy.isSome → (f e).haltedBy.isSome) (h : Marked agents a) :
    Marked (agents.upsert k new f) a := by
  by_cases ha : a = k
  · subst ha
    obtain ⟨e, he, hmarked⟩ := h
    exact ⟨f e, by rw [Keyed.get?_upsert_self, he, Option.map_some, Option.getD_some],
      hf e hmarked⟩
  · rwa [Marked, Keyed.get?_upsert_of_ne ha]

theorem Marked.updateAll {f : String → PresenceEntry → PresenceEntry}
    (hf : ∀ k e, e.haltedBy.isSome → (f k e).haltedBy.isSome) (h : Marked agents a) :
    Marked (agents.updateAll f) a :=
  h.of_map Keyed.get?_updateAll (hf a)

theorem Marked.heartbeatMemory (h : Marked agents a) (now : ℤ) (agentId : String)
    (metadata : Option PyValue) (operatorId : Option String) :
    Marked (heartbeatMemory agents now agentId metadata operatorId) a := by
  by_cases ha : a = agentId
  · subst ha
    exact ⟨_, Keyed.get?_set_self, marked_iff.mp h⟩
  · rwa [Marked, Presence.heartbeatMemory, Keyed.get?_set_of_ne ha]

theorem Marked.closeAgentMemory (h : Marked agents a) (agentId : String) :
    Marked (closeAgentMemory agents agentId) a := by
  rw [Presence.closeAgentMemory]
  split
  · exact h
  · rename_i hopen
    have hne : a ≠ agentId := fun heq => hopen (marked_iff.mp (heq ▸ h))
    obtain ⟨e, he, hmarked⟩ := h
    exact ⟨e, Keyed.get?_deleteWhere_of_kept he (by simpa using hne), hmarked⟩

theorem Marked.closeAgentPostgres (h : Marked agents a) (agentId : String) :
    Marked (closeAgentPostgres agents agentId) a := by
  obtain ⟨e, he, hmarked⟩ := h
  refine ⟨e, Keyed.get?_deleteWhere_of_kept he ?_, hmarked⟩
  have hset : e.haltedBy ≠ none := Option.isSome_iff_ne_none.mp hmarked
  simp [hset]

/-- Marking an entry stale does not touch the marker. -/
theorem haltedBy_ite_unresponsive {p : Prop} [Decidable p] (e : PresenceEntry) :
    (if p then { e with status := .unresponsive } else e).haltedBy = e.haltedBy := by
  split
  · rfl
  · rfl

theorem marked_upsert_self {new : PresenceEntry} {f : PresenceEntry → PresenceEntry}
    (hnew : new.haltedBy.isSome) (hf : ∀ e, (f e).haltedBy.isSome) :
    Marked (agents.upsert a new f) a := by
  refine ⟨_, Keyed.get?_upsert_self, ?_⟩
  rcases agents.get? a with _ | e
  · exact hnew
  · exact hf e

end Marked

variable {dumpsLength : PyValue → Option ℕ} {E : Engines} {s t : PresenceState} {a : String}

theorem marked_execute {fate : Fate} {statement : Agents → Agents}
    (hstatement : Marked s.table a → Marked (statement s.table) a) (h : Marked s.table a) :
    Marked (s.execute fate statement).table a := by
  rw [PresenceState.execute]
  split
  · exact h
  · exact hstatement h

section Call

variable {now timeoutSeconds : ℤ} {fate : Fate} {agentId haltedBy : String}
  {metadata : Option PyValue} {operatorId reason : Option String}

theorem call_heartbeat :
    s.call dumpsLength E now fate (.heartbeat agentId metadata operatorId) =
      match heartbeatAccepted dumpsLength agentId metadata operatorId with
      | none => (s, .raised)
      | some false => (s, .returned)
      | some true =>
          if E.shared then
            (s.execute fate fun table => heartbeatPostgres table now agentId metadata operatorId,
              .returned)
          else
            ({ s with agents := heartbeatMemory s.agents now agentId metadata operatorId },
              .returned) := rfl

theorem call_markIdle :
    s.call dumpsLength E now fate (.markIdle agentId) =
      if E.shared then
        (s.execute fate fun table => markIdlePostgres table agentId, .returned)
      else ({ s with agents := markIdleMemory s.agents agentId }, .returned) := rfl

theorem call_closeAgent :
    s.call dumpsLength E now fate (.closeAgent agentId) =
      if E.shared then
        (s.execute fate fun table => closeAgentPostgres table agentId, .returned)
      else ({ s with agents := closeAgentMemory s.agents agentId }, .returned) := rfl

theorem call_checkStale :
    s.call dumpsLength E now fate (.checkStale timeoutSeconds) =
      if E.shared then
        (s.execute fate fun table => checkStalePostgres table now timeoutSeconds, .returned)
      else ({ s with agents := checkStaleMemory s.agents now timeoutSeconds }, .returned) := rfl

theorem call_halt :
    s.call dumpsLength E now fate (.halt agentId haltedBy reason) =
      if E.haltEngine then
        (s.execute fate fun table => haltPostgres table now agentId haltedBy reason,
          if fate = .committed then .returned else .raised)
      else
        ({ s with agents := haltMemory s.agents now agentId haltedBy reason }, .returned) := rfl

end Call

/-- With a database the calls work on the table. -/
theorem marked_table_call (hshared : E.shared = true) (h : Marked s.table a) (now : ℤ)
    (fate : Fate) (c : PresenceCall) :
    Marked (s.call dumpsLength E now fate c).1.table a := by
  have hhalt : E.haltEngine = true := E.haltEngine_eq.trans hshared
  cases c with
  | heartbeat agentId metadata operatorId =>
      rw [call_heartbeat]
      split
      · exact h
      · exact h
      · rw [if_pos hshared]
        exact marked_execute (fun h => h.upsert fun _ he => he) h
  | markIdle agentId =>
      rw [call_markIdle, if_pos hshared]
      refine marked_execute (fun h => h.updateAll fun k e he => ?_) h
      split
      · exact he
      · exact he
  | closeAgent agentId =>
      rw [call_closeAgent, if_pos hshared]
      exact marked_execute (fun h => h.closeAgentPostgres agentId) h
  | listAgents => exact h
  | checkStale timeoutSeconds =>
      rw [call_checkStale, if_pos hshared]
      refine marked_execute (fun h => h.updateAll fun k e he => ?_) h
      rwa [haltedBy_ite_unresponsive]
  | halt agentId haltedBy reason =>
      rw [call_halt, if_pos hhalt]
      exact marked_execute (fun h => h.upsert fun _ _ => rfl) h

/-- Without a database they work on the dictionary. -/
theorem marked_agents_call (hshared : E.shared = false) (h : Marked s.agents a) (now : ℤ)
    (fate : Fate) (c : PresenceCall) :
    Marked (s.call dumpsLength E now fate c).1.agents a := by
  have hhalt : E.haltEngine = false := E.haltEngine_eq.trans hshared
  cases c with
  | heartbeat agentId metadata operatorId =>
      rw [call_heartbeat]
      split
      · exact h
      · exact h
      · rw [hshared]
        exact h.heartbeatMemory now agentId metadata operatorId
  | markIdle agentId =>
      rw [call_markIdle, hshared]
      refine h.updateAll fun k e he => ?_
      split
      · exact he
      · exact he
  | closeAgent agentId =>
      rw [call_closeAgent, hshared]
      exact h.closeAgentMemory agentId
  | listAgents => exact h
  | checkStale timeoutSeconds =>
      rw [call_checkStale, hshared]
      refine h.updateAll fun k e he => ?_
      rwa [haltedBy_ite_unresponsive]
  | halt agentId haltedBy reason =>
      rw [call_halt, hhalt]
      exact h.upsert fun _ _ => rfl

/-- No step clears a marker. -/
theorem marked_store_step (hstep : PresenceStep dumpsLength E s t) (h : Marked (s.store E) a) :
    Marked (t.store E) a := by
  obtain ⟨c, now, fate, rfl⟩ := hstep
  rcases hshared : E.shared with _ | _
  · rw [PresenceState.store, hshared] at h ⊢
    exact marked_agents_call hshared h now fate c
  · rw [PresenceState.store, hshared] at h ⊢
    exact marked_table_call hshared h now fate c

/-- A `halt` that is not rolled back has set the marker. -/
theorem marked_store_halt {now : ℤ} {fate : Fate} {haltedBy : String} {reason : Option String}
    (hfate : E.shared = true → fate ≠ .rolledBack) :
    Marked ((s.call dumpsLength E now fate (.halt a haltedBy reason)).1.store E) a := by
  rw [call_halt, E.haltEngine_eq, PresenceState.store]
  rcases hshared : E.shared with _ | _
  · exact marked_upsert_self rfl fun _ => rfl
  · rw [if_pos rfl, if_pos rfl, PresenceState.execute, if_neg (hfate hshared)]
    exact marked_upsert_self rfl fun _ => rfl

theorem not_rolledBack_of_returned {now : ℤ} {fate : Fate} {haltedBy : String}
    {reason : Option String}
    (h : (s.call dumpsLength E now fate (.halt a haltedBy reason)).2 = .returned)
    (hshared : E.shared = true) : fate ≠ .rolledBack := by
  intro hfate
  rw [call_halt, E.haltEngine_eq, hshared, if_pos rfl, hfate] at h
  cases h

theorem haltedSet_of_marked (h : Marked (s.store E) a) :
    ∃ m, (s.haltedSet E).get? a = some m := by
  rcases hshared : E.shared with _ | _
  · rw [PresenceState.store, hshared] at h
    rw [PresenceState.haltedSet, hshared]
    exact h.get?_haltMarkers
  · rw [PresenceState.store, hshared] at h
    rw [PresenceState.haltedSet, hshared]
    exact h.get?_haltMarkers

/-- After a `halt` that returned, whatever calls follow, the agent keeps an entry
with its marker set, and every derivation of the halted set contains it. -/
theorem halt_persists {s₀ s₁ : PresenceState} {now : ℤ} {fate : Fate} {haltedBy : String}
    {reason : Option String}
    (hhalt : s₀.call dumpsLength E now fate (.halt a haltedBy reason) = (s₁, .returned))
    (hrun : Relation.ReflTransGen (PresenceStep dumpsLength E) s₁ s) :
    Marked (s.store E) a ∧ ∃ m, (s.haltedSet E).get? a = some m := by
  have hmarked : Marked (s.store E) a := by
    induction hrun with
    | refl =>
        have hset : Marked
            ((s₀.call dumpsLength E now fate (.halt a haltedBy reason)).1.store E) a :=
          marked_store_halt (not_rolledBack_of_returned (congrArg Prod.snd hhalt))
        rwa [hhalt] at hset
    | tail _ hstep ih => exact marked_store_step hstep ih
  exact ⟨hmarked, haltedSet_of_marked hmarked⟩

/-- The dictionary after a heartbeat of `worker`, its halt, and what the agent can
try afterwards: closing and beating again. -/
theorem closed_agent_stays_halted :
    let E : Engines := ⟨false, false, by decide⟩
    let s₀ : PresenceState := ⟨heartbeatMemory .empty 0 "worker" none none, .empty⟩
    let s₁ := (s₀.call (fun _ => some 0) E 1 .committed (.halt "worker" "operator" none)).1
    let s₂ := (s₁.call (fun _ => some 0) E 2 .committed (.closeAgent "worker")).1
    let s₃ := (s₂.call (fun _ => some 0) E 3 .committed (.heartbeat "worker" none none)).1
    Marked (s₃.store E) "worker" ∧ ∃ m, (s₃.haltedSet E).get? "worker" = some m := by
  intro E s₀ s₁ s₂ s₃
  have hclose : PresenceStep (fun _ => some 0) E s₁ s₂ := ⟨_, _, _, rfl⟩
  have hbeat : PresenceStep (fun _ => some 0) E s₂ s₃ := ⟨_, _, _, rfl⟩
  have hhalt : s₀.call (fun _ => some 0) E 1 .committed (.halt "worker" "operator" none) =
      (s₁, .returned) := rfl
  exact halt_persists hhalt (.tail (.single hclose) hbeat)

end AgenticGovernance.Presence

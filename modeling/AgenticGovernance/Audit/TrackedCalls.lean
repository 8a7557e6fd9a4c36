import AgenticGovernance.Audit.Builder
import AgenticGovernance.Audit.ProvenanceChain
import AgenticGovernance.Support.Transition

/-!
# Tracked calls

`@sdk.audit.track` logs a start event, runs the function with that event as the parent of
whatever is logged inside, and logs an end or an error event.  The parent and the session
live in context variables: a block sets the variable and resets it with the old value, and
a new asyncio task starts with a copy of its creator's context.

The host is any number of tasks that log, call tracked functions, open session blocks and
start other tasks, catch exceptions or not, and are cancelled anywhere.  The frames of a
task are its call stack.  The context variables always agree with the frames, so that the
provenance chain of an event is the stack of tracked calls it was logged in.
-/

namespace AgenticGovernance.Audit

open Support

/-! ## The host -/

/-- The context variables of `audit/context.py`. -/
structure Context where
  session : Option Uuid
  parent : Option Uuid

/-- How a coroutine ends.  A result comes with its hash, an exception with its type name;
`asyncio.CancelledError` is not an `Exception`. -/
inductive Outcome where
  | returned (resultHash : String)
  | raised (errorType : String)
  | cancelled

/-- How a call of `audit.log` ends, with the id of the record it returns. -/
inductive LogResult where
  | returned (eventId : Uuid)
  | raised (errorType : String)
  | cancelled

/-- A function under `track`, with the arguments of the decorator. -/
structure TrackedFunction where
  kind : String
  agentId : Option String
  captureArgs : Bool
  captureResult : Bool

/-- What a coroutine of the host does next. -/
inductive Host where
  | finish (outcome : Outcome)
  | log (event : AuditEvent) (next : LogResult → Host)
  | call (f : TrackedFunction) (argsHash : String) (body : Host) (next : Outcome → Host)
  | session (sessionId : Option Uuid) (body : Uuid → Host) (next : Outcome → Host)
  /-- `current_session()` and `current_parent()` -/
  | current (next : Context → Host)
  /-- `asyncio.create_task` -/
  | spawn (child next : Host)

namespace TrackedFunction

variable (f : TrackedFunction)

def resolvedAgent : String :=
  match f.agentId with
  | none => "unknown"
  | some agentId => if agentId = "" then "unknown" else agentId

/-- An event of the wrapper. -/
def event (suffix : String) (inputHash outputHash : Option String) (metadata : Metadata) :
    AuditEvent where
  sessionId := none
  agentId := f.resolvedAgent
  parentEventId := none
  kind := f.kind ++ suffix
  model := none
  inputHash := inputHash
  outputHash := outputHash
  metadata := metadata

def startEvent (argsHash : String) : AuditEvent :=
  f.event ".start" (if f.captureArgs then some argsHash else none) none []

/-- What the wrapper logs when the function ends; a cancellation passes by its handler. -/
def exitEvent : Outcome → Option AuditEvent
  | .returned resultHash =>
      some (f.event ".end" none (if f.captureResult then some resultHash else none) [])
  | .raised errorType => some (f.event ".error" none none [("error_type", .str errorType)])
  | .cancelled => none

end TrackedFunction

/-- How the wrapper ends when the log of its exit event ends in a certain way. -/
def LogResult.after (outcome : Outcome) : LogResult → Outcome
  | returned _ => outcome
  | raised errorType => .raised errorType
  | cancelled => .cancelled

/-! ## Tasks -/

/-- An entered block with the value that its `reset` restores, and what follows it. -/
inductive Frame where
  | tracked (f : TrackedFunction) (startId : Uuid) (saved : Option Uuid)
      (next : Outcome → Host)
  | session (sessionId : Uuid) (saved : Option Uuid) (next : Outcome → Host)

namespace Frame

def startId? : Frame → Option Uuid
  | tracked _ startId _ _ => some startId
  | session _ _ _ => none

def sessionId? : Frame → Option Uuid
  | tracked _ _ _ _ => none
  | session sessionId _ _ => some sessionId

end Frame

/-- Where in the call structure of the host an event is logged: the start events of the
tracked calls around it and the session block around it, both innermost first. -/
structure Scope where
  starts : List Uuid
  session : Option Uuid

/-- The scope inside the given frames, within another scope. -/
def Scope.inside (outer : Scope) (frames : List Frame) : Scope where
  starts := frames.filterMap Frame.startId? ++ outer.starts
  session := (frames.findSome? Frame.sessionId?).or outer.session

/-- An asyncio task.  `inherited` is the scope in which it was created; no code reads it. -/
structure Task where
  code : Host
  frames : List Frame
  context : Context
  inherited : Scope

/-- A task that the program starts with. -/
def Task.root (code : Host) : Task := ⟨code, [], ⟨none, none⟩, ⟨[], none⟩⟩

def Task.scope (t : Task) : Scope := t.inherited.inside t.frames

/-- An event id that a log call draws, with the clock and the session id that it makes up
if it has to. -/
structure Draw where
  eventId : Uuid
  freshSession : Uuid
  now : Datetime

/-- What happens to one call of `log`: for which ids it builds a record, of which only the
last can be the one that it returns, and how it ends. -/
structure LogFate where
  draws : List Draw
  result : LogResult

def LogFate.Sound (fate : LogFate) : Prop :=
  ∀ eventId, fate.result = .returned eventId →
    ∃ draw, fate.draws.getLast? = some draw ∧ draw.eventId = eventId

/-- A record that was built, whether or not a store has it, and the scope of its call. -/
structure BuiltEvent where
  eventId : Uuid
  call : LogCall
  scope : Scope

namespace Task

variable (t : Task)

/-- What a log call of the task builds. -/
def built (event : AuditEvent) (fate : LogFate) : List BuiltEvent :=
  fate.draws.map fun draw =>
    { eventId := draw.eventId
      call := .begin event t.context.session t.context.parent draw.freshSession draw.now
      scope := t.scope }

/-- The wrapper after its start event. -/
def enter (f : TrackedFunction) (body : Host) (next : Outcome → Host) : LogResult → Task
  | .returned startId =>
      { t with
        code := body
        frames := .tracked f startId t.context.parent next :: t.frames
        context := { t.context with parent := some startId } }
  | .raised errorType => { t with code := next (.raised errorType) }
  | .cancelled => { t with code := next .cancelled }

/-- `with context.session(session_id)` -/
def openSession (sessionId : Uuid) (body : Uuid → Host) (next : Outcome → Host) : Task :=
  { t with
    code := body sessionId
    frames := .session sessionId t.context.session next :: t.frames
    context := { t.context with session := some sessionId } }

end Task

/-- One step of a task, with the records it builds and the tasks it creates. -/
inductive TaskStep : Task → Task → List BuiltEvent → List Task → Prop
  | log {t : Task} {event next} (fate : LogFate) (hcode : t.code = .log event next)
      (hsound : fate.Sound) :
      TaskStep t { t with code := next fate.result } (t.built event fate) []
  | call {t : Task} {f argsHash body next} (fate : LogFate)
      (hcode : t.code = .call f argsHash body next) (hsound : fate.Sound) :
      TaskStep t (t.enter f body next fate.result) (t.built (f.startEvent argsHash) fate) []
  | exit {t : Task} {outcome f startId saved next frames event} (fate : LogFate)
      (hcode : t.code = .finish outcome)
      (hframes : t.frames = .tracked f startId saved next :: frames)
      (hevent : f.exitEvent outcome = some event) :
      TaskStep t
        { t with
          code := next (fate.result.after outcome)
          frames := frames
          context := { t.context with parent := saved } }
        (t.built event fate) []
  | exitSilently {t : Task} {outcome f startId saved next frames}
      (hcode : t.code = .finish outcome)
      (hframes : t.frames = .tracked f startId saved next :: frames)
      (hevent : f.exitEvent outcome = none) :
      TaskStep t
        { t with
          code := next outcome
          frames := frames
          context := { t.context with parent := saved } } [] []
  | openSession {t : Task} {sessionId body next} (fresh : Uuid)
      (hcode : t.code = .session sessionId body next) :
      TaskStep t (t.openSession (sessionId.getD fresh) body next) [] []
  | closeSession {t : Task} {outcome sessionId saved next frames}
      (hcode : t.code = .finish outcome)
      (hframes : t.frames = .session sessionId saved next :: frames) :
      TaskStep t
        { t with
          code := next outcome
          frames := frames
          context := { t.context with session := saved } } [] []
  | current {t : Task} {next} (hcode : t.code = .current next) :
      TaskStep t { t with code := next t.context } [] []
  | spawn {t : Task} {child next} (hcode : t.code = .spawn child next) :
      TaskStep t { t with code := next } [] [⟨child, [], t.context, t.scope⟩]
  /-- a cancellation that arrives while the task waits -/
  | cancel (t : Task) : TaskStep t { t with code := .finish .cancelled } [] []

/-- The tasks of a program and every record they have built. -/
structure HostState where
  tasks : List Task
  built : List BuiltEvent

/-- Event ids are drawn by `uuid4`. -/
def FreshIds (old new : List BuiltEvent) : Prop :=
  (new.map fun e => e.eventId).Nodup ∧ ∀ e ∈ new, ∀ e' ∈ old, e.eventId ≠ e'.eventId

inductive HostStep : HostState → HostState → Prop
  | step {s : HostState} {before after t t' new spawned}
      (htasks : s.tasks = before ++ t :: after) (htask : TaskStep t t' new spawned)
      (hfresh : FreshIds s.built new) :
      HostStep s ⟨before ++ t' :: after ++ spawned, s.built ++ new⟩

/-- The runs of a program that starts with the given tasks. -/
def hostSystem (programs : List Host) : System HostState where
  init s := s = ⟨programs.map Task.root, []⟩
  step := HostStep

/-! ## The context variables agree with the frames -/

/-- What the frames restore is what held outside of them. -/
def Restores (outer : Scope) : List Frame → Prop
  | [] => True
  | .tracked _ _ saved _ :: frames =>
      saved = (outer.inside frames).starts.head? ∧ Restores outer frames
  | .session _ saved _ :: frames =>
      saved = (outer.inside frames).session ∧ Restores outer frames

structure Task.Agrees (t : Task) : Prop where
  parent : t.context.parent = t.scope.starts.head?
  session : t.context.session = t.scope.session
  restores : Restores t.inherited t.frames

section Agreement

variable {outer : Scope} {frames : List Frame} {t t' u : Task} {new : List BuiltEvent}
  {spawned : List Task}

theorem Scope.inside_tracked (f : TrackedFunction) (startId : Uuid) (saved : Option Uuid)
    (next : Outcome → Host) :
    outer.inside (.tracked f startId saved next :: frames) =
      ⟨startId :: (outer.inside frames).starts, (outer.inside frames).session⟩ := rfl

theorem Scope.inside_session (sessionId : Uuid) (saved : Option Uuid)
    (next : Outcome → Host) :
    outer.inside (.session sessionId saved next :: frames) =
      ⟨(outer.inside frames).starts, some sessionId⟩ := rfl

theorem Task.agrees_root (code : Host) : (Task.root code).Agrees := ⟨rfl, rfl, trivial⟩

theorem Task.Agrees.enter (h : t.Agrees) (f : TrackedFunction) (body : Host)
    (next : Outcome → Host) (result : LogResult) : (t.enter f body next result).Agrees := by
  match result with
  | .returned startId => exact ⟨rfl, h.session, h.parent, h.restores⟩
  | .raised errorType => exact ⟨h.parent, h.session, h.restores⟩
  | .cancelled => exact ⟨h.parent, h.session, h.restores⟩

theorem Task.Agrees.openSession (h : t.Agrees) (sessionId : Uuid) (body : Uuid → Host)
    (next : Outcome → Host) : (t.openSession sessionId body next).Agrees :=
  ⟨h.parent, rfl, h.session, h.restores⟩

/-- Resetting the parent leaves the block with the context of its outside. -/
theorem Task.Agrees.leaveTracked (h : t.Agrees) {f : TrackedFunction} {startId : Uuid}
    {saved : Option Uuid} {next : Outcome → Host}
    (hframes : t.frames = .tracked f startId saved next :: frames) (code : Host) :
    (Task.mk code frames { t.context with parent := saved } t.inherited).Agrees := by
  have hsession := h.session
  have hrestores := h.restores
  rw [Task.scope, hframes, Scope.inside_tracked] at hsession
  rw [hframes] at hrestores
  exact ⟨hrestores.1, hsession, hrestores.2⟩

theorem Task.Agrees.leaveSession (h : t.Agrees) {sessionId : Uuid} {saved : Option Uuid}
    {next : Outcome → Host} (hframes : t.frames = .session sessionId saved next :: frames)
    (code : Host) :
    (Task.mk code frames { t.context with session := saved } t.inherited).Agrees := by
  have hparent := h.parent
  have hrestores := h.restores
  rw [Task.scope, hframes, Scope.inside_session] at hparent
  rw [hframes] at hrestores
  exact ⟨hparent, hrestores.1, hrestores.2⟩

/-- A step keeps the agreement, and a new task starts with it. -/
theorem TaskStep.agrees (hstep : TaskStep t t' new spawned) (h : t.Agrees) :
    t'.Agrees ∧ ∀ u ∈ spawned, u.Agrees := by
  cases hstep with
  | log fate hcode hsound => exact ⟨⟨h.parent, h.session, h.restores⟩, by simp⟩
  | call fate hcode hsound => exact ⟨h.enter _ _ _ _, by simp⟩
  | exit fate hcode hframes hevent => exact ⟨h.leaveTracked hframes _, by simp⟩
  | exitSilently hcode hframes hevent => exact ⟨h.leaveTracked hframes _, by simp⟩
  | openSession fresh hcode => exact ⟨h.openSession _ _ _, by simp⟩
  | closeSession hcode hframes => exact ⟨h.leaveSession hframes _, by simp⟩
  | current hcode => exact ⟨⟨h.parent, h.session, h.restores⟩, by simp⟩
  | spawn hcode =>
      refine ⟨⟨h.parent, h.session, h.restores⟩, ?_⟩
      intro u hu
      rw [List.mem_singleton.mp hu]
      exact ⟨h.parent, h.session, trivial⟩
  | cancel => exact ⟨⟨h.parent, h.session, h.restores⟩, by simp⟩

/-- The log calls of a step are made in the scope of the task. -/
theorem TaskStep.built_eq (hstep : TaskStep t t' new spawned) :
    new = [] ∨ ∃ event fate, new = t.built event fate := by
  cases hstep with
  | log fate hcode hsound => exact Or.inr ⟨_, _, rfl⟩
  | call fate hcode hsound => exact Or.inr ⟨_, _, rfl⟩
  | exit fate hcode hframes hevent => exact Or.inr ⟨_, _, rfl⟩
  | exitSilently hcode hframes hevent => exact Or.inl rfl
  | openSession fresh hcode => exact Or.inl rfl
  | closeSession hcode hframes => exact Or.inl rfl
  | current hcode => exact Or.inl rfl
  | spawn hcode => exact Or.inl rfl
  | cancel => exact Or.inl rfl

end Agreement

/-- The identifiers of a record come from its event, then from its scope. -/
def BuiltEvent.InScope (e : BuiltEvent) : Prop :=
  ∃ fresh now, e.call = .begin e.call.event e.scope.session e.scope.starts.head? fresh now

theorem Task.Agrees.built_inScope {t : Task} (h : t.Agrees) {event : AuditEvent}
    {fate : LogFate} {e : BuiltEvent} (he : e ∈ t.built event fate) : e.InScope := by
  obtain ⟨draw, -, rfl⟩ := List.mem_map.mp he
  refine ⟨draw.freshSession, draw.now, ?_⟩
  rw [← h.parent, ← h.session]
  rfl

/-- A task after a step is one from before, the one that moved, or a new one. -/
theorem mem_tasks_step {s : HostState} {before after spawned : List Task} {t t' u : Task}
    (htasks : s.tasks = before ++ t :: after)
    (hu : u ∈ before ++ t' :: after ++ spawned) : u ∈ s.tasks ∨ u = t' ∨ u ∈ spawned := by
  simp only [List.mem_append, List.mem_cons] at hu
  simp only [htasks, List.mem_append, List.mem_cons]
  tauto

structure ScopesOk (s : HostState) : Prop where
  tasks : ∀ t ∈ s.tasks, t.Agrees
  built : ∀ e ∈ s.built, e.InScope

theorem scopesOk {programs : List Host} {s : HostState}
    (h : (hostSystem programs).Reachable s) : ScopesOk s := by
  refine System.invariant (I := ScopesOk) ?_ ?_ h
  · rintro s rfl
    refine ⟨?_, by simp⟩
    intro t ht
    obtain ⟨code, -, rfl⟩ := List.mem_map.mp ht
    exact Task.agrees_root code
  · intro s s' _ hok hstep
    obtain ⟨htasks, htask, -⟩ := hstep
    rename_i before after t t' new spawned
    have ht : t.Agrees := hok.tasks t (by simp [htasks])
    obtain ⟨ht', hspawned⟩ := htask.agrees ht
    constructor
    · intro u hu
      rcases mem_tasks_step htasks hu with hu | rfl | hu
      · exact hok.tasks u hu
      · exact ht'
      · exact hspawned u hu
    · intro e he
      rcases List.mem_append.mp he with he | he
      · exact hok.built e he
      · rcases htask.built_eq with hnew | ⟨event, fate, hnew⟩
        · simp [hnew] at he
        · exact ht.built_inScope (hnew ▸ he)

/-! ## Start events point to the start events around them -/

/-- Each id is that of a built event that names no parent of its own and whose scope is the
rest of the list. -/
def StartLine (built : List BuiltEvent) : List Uuid → Prop
  | [] => True
  | id :: rest =>
      (∃ e ∈ built, e.eventId = id ∧ e.call.event.parentEventId = none ∧
        e.scope.starts = rest) ∧ StartLine built rest

theorem StartLine.mono {built built' : List BuiltEvent} (hsub : built ⊆ built')
    {line : List Uuid} (h : StartLine built line) : StartLine built' line := by
  induction line with
  | nil => trivial
  | cons id rest ih =>
      obtain ⟨⟨e, he, hid, hparent, hstarts⟩, hrest⟩ := h
      exact ⟨⟨e, hsub he, hid, hparent, hstarts⟩, ih hrest⟩

theorem StartLine.mem_built {built : List BuiltEvent} {line : List Uuid} {id : Uuid}
    (h : StartLine built line) (hid : id ∈ line) : ∃ e ∈ built, e.eventId = id := by
  induction line with
  | nil => simp at hid
  | cons first rest ih =>
      obtain ⟨⟨e, he, heid, -, -⟩, hrest⟩ := h
      rcases List.mem_cons.mp hid with rfl | hid
      · exact ⟨e, he, heid⟩
      · exact ih hrest hid

/-- A line of start events without repetitions. -/
structure Scope.Lined (scope : Scope) (built : List BuiltEvent) : Prop where
  line : StartLine built scope.starts
  nodup : scope.starts.Nodup

theorem Scope.Lined.mono {scope : Scope} {built built' : List BuiltEvent}
    (h : scope.Lined built) (hsub : built ⊆ built') : scope.Lined built' :=
  ⟨h.line.mono hsub, h.nodup⟩

/-- Entering a tracked call puts its start event, which was not drawn before, in front. -/
theorem Scope.Lined.enter {scope : Scope} {built new : List BuiltEvent} {e : BuiltEvent}
    (h : scope.Lined built) (he : e ∈ new) (hfresh : FreshIds built new)
    (hparent : e.call.event.parentEventId = none) (hscope : e.scope = scope) :
    (Scope.mk (e.eventId :: scope.starts) scope.session).Lined (built ++ new) := by
  refine ⟨⟨⟨e, List.mem_append_right _ he, rfl, hparent, by rw [hscope]⟩, ?_⟩, ?_⟩
  · exact h.line.mono (List.subset_append_left _ _)
  · rw [List.nodup_cons]
    refine ⟨?_, h.nodup⟩
    intro hmem
    obtain ⟨e', he', hid⟩ := h.line.mem_built hmem
    exact hfresh.2 e he e' he' hid.symm

theorem Scope.Lined.leave {outer : Scope} {frames : List Frame} {built : List BuiltEvent}
    {frame : Frame} (h : (outer.inside (frame :: frames)).Lined built) :
    (outer.inside frames).Lined built := by
  cases frame with
  | tracked f startId saved next =>
      rw [inside_tracked] at h
      exact ⟨h.line.2, (List.nodup_cons.mp h.nodup).2⟩
  | session sessionId saved next => exact ⟨h.line, h.nodup⟩

/-- The scopes of a task after a step, and of the tasks that it creates, are lines again. -/
theorem TaskStep.lined {built new : List BuiltEvent} {t t' : Task} {spawned : List Task}
    (hstep : TaskStep t t' new spawned) (h : t.scope.Lined built) (hfresh : FreshIds built new) :
    t'.scope.Lined (built ++ new) ∧ ∀ u ∈ spawned, u.scope.Lined (built ++ new) := by
  have hkept : t.scope.Lined (built ++ new) := h.mono (List.subset_append_left _ _)
  cases hstep with
  | log fate hcode hsound => exact ⟨hkept, by simp⟩
  | @call f argsHash body next fate hcode hsound =>
      refine ⟨?_, by simp⟩
      match hresult : fate.result with
      | .returned startId =>
          obtain ⟨draw, hlast, hid⟩ := hsound startId hresult
          rw [← hid]
          have hmem : draw ∈ fate.draws := List.mem_of_getLast? hlast
          exact h.enter (List.mem_map_of_mem hmem) hfresh rfl rfl
      | .raised errorType => exact hkept
      | .cancelled => exact hkept
  | exit fate hcode hframes hevent =>
      rw [Task.scope, hframes] at hkept
      exact ⟨hkept.leave, by simp⟩
  | exitSilently hcode hframes hevent =>
      rw [Task.scope, hframes] at hkept
      exact ⟨hkept.leave, by simp⟩
  | openSession fresh hcode => exact ⟨⟨hkept.line, hkept.nodup⟩, by simp⟩
  | closeSession hcode hframes =>
      rw [Task.scope, hframes] at hkept
      exact ⟨hkept.leave, by simp⟩
  | current hcode => exact ⟨hkept, by simp⟩
  | spawn hcode =>
      refine ⟨hkept, ?_⟩
      intro u hu
      rw [List.mem_singleton.mp hu]
      exact hkept
  | cancel => exact ⟨hkept, by simp⟩

structure LinesOk (s : HostState) : Prop where
  tasks : ∀ t ∈ s.tasks, t.scope.Lined s.built
  scopes : ∀ e ∈ s.built, e.scope.Lined s.built
  fresh : ∀ e ∈ s.built, e.eventId ∉ e.scope.starts
  distinct : (s.built.map fun e => e.eventId).Nodup

theorem linesOk {programs : List Host} {s : HostState}
    (h : (hostSystem programs).Reachable s) : LinesOk s := by
  refine System.invariant (I := LinesOk) ?_ ?_ h
  · rintro s rfl
    refine ⟨?_, by simp, by simp, by simp⟩
    intro t ht
    obtain ⟨code, -, rfl⟩ := List.mem_map.mp ht
    exact ⟨trivial, List.nodup_nil⟩
  · intro s s' _ hok hstep
    obtain ⟨htasks, htask, hfresh⟩ := hstep
    rename_i before after t t' new spawned
    have ht : t.scope.Lined s.built := hok.tasks t (by simp [htasks])
    obtain ⟨ht', hspawned⟩ := htask.lined ht hfresh
    have hsub : s.built ⊆ s.built ++ new := List.subset_append_left _ _
    have hnew : ∀ e ∈ new, e.scope = t.scope := by
      intro e he
      rcases htask.built_eq with hnil | ⟨event, fate, heq⟩
      · simp [hnil] at he
      · rw [heq] at he
        obtain ⟨draw, -, rfl⟩ := List.mem_map.mp he
        rfl
    refine ⟨?_, ?_, ?_, ?_⟩
    · intro u hu
      rcases mem_tasks_step htasks hu with hu | rfl | hu
      · exact (hok.tasks u hu).mono hsub
      · exact ht'
      · exact hspawned u hu
    · intro e he
      rcases List.mem_append.mp he with he | he
      · exact (hok.scopes e he).mono hsub
      · rw [hnew e he]
        exact ht.mono hsub
    · intro e he
      rcases List.mem_append.mp he with he | he
      · exact hok.fresh e he
      · rw [hnew e he]
        intro hmem
        obtain ⟨e', he', hid⟩ := ht.line.mem_built hmem
        exact hfresh.2 e he e' he' hid.symm
    · rw [List.map_append, List.nodup_append]
      refine ⟨hok.distinct, hfresh.1, ?_⟩
      intro id hid id' hid' heq
      obtain ⟨e', he', rfl⟩ := List.mem_map.mp hid
      obtain ⟨e, he, rfl⟩ := List.mem_map.mp hid'
      exact hfresh.2 e he e' he' heq.symm

end AgenticGovernance.Audit

import Mathlib
import AgenticGovernance.Support.Transition
import AgenticGovernance.Platform.Client

/-!
# Forwarding audit events

`forward` puts an event on a bounded queue and drops the oldest one when it is full.  One
worker takes the events in their order and keeps each of them until it is sent or dropped.
Both run on one event loop, so a step of the system below is what happens between two
suspensions.  `close` waits for the queue to be worked off, at most until a deadline, and
then cancels the worker.

Every event that was handed to `forward` is then in one of the counters, in the queue or
in the hands of the worker, and in no two of them, as long as no log line raises.  The
lines on a 402 and on other client errors show text of the response, and come after the
drop was counted.  Where the console cannot print that text the line raises, and
`_worker_loop` counts the event a second time.  The other lines show the client's own
texts and numbers.
-/

namespace AgenticGovernance.Platform

open Support

/-! ## The system -/

/-- The drop is logged with text of the response: `required_tier` and `upgrade_url` on a
402, a preview of the body on a further client error. -/
def PostFate.showsText : PostFate → Bool
  | .connectionError => false
  | .response r =>
      r.status = 402 ||
        (400 ≤ r.status && r.status < 500 && !([401, 409, 413, 429].contains r.status))

/-- Where the worker is suspended.  An event is named by the number of the `forward` call
that brought it; `start` is the clock at its first pass of the retry loop. -/
inductive WorkerPhase where
  | absent
  | idle
  | posting (call : ℕ) (a : Attempt) (start : ℚ)
  | sleeping (call : ℕ) (a : Attempt) (start : ℚ) (delay : Seconds) (doubles : Bool)
  | ended

/-- The event in the hands of the worker, with its attempt. -/
def WorkerPhase.current : WorkerPhase → Option (ℕ × Attempt)
  | .posting call a _ => some (call, a)
  | .sleeping call a _ _ _ => some (call, a)
  | _ => none

/-- Where `close` stands: it waits for the queue, or for the worker that it has cancelled. -/
inductive ClosePhase where
  | notCalled
  | draining
  | stopping
  | returned
  deriving DecidableEq

/-- `forwards` and `posts` count the calls of `forward` and the POSTs of each event, and
`recounted` the log lines that raised after the drop was counted. -/
structure ForwardState where
  clock : ℚ
  stats : Stats
  queue : List ℕ
  unfinished : ℕ
  worker : WorkerPhase
  authFailed : Bool
  tierNotEntitledLatch : Bool
  started : Bool
  closed : Bool
  nextSeq : ℕ
  closing : ClosePhase
  forwards : ℕ
  posts : ℕ → ℕ
  recounted : ℕ

namespace ForwardState

/-- The number of events in the hands of the worker. -/
def inFlight (s : ForwardState) : ℕ := s.worker.current.toList.length

/-- A terminal response has disabled the bridge. -/
def latched (s : ForwardState) : Bool := s.authFailed || s.tierNotEntitledLatch

def init : ForwardState where
  clock := 0
  stats := .zero
  queue := []
  unfinished := 0
  worker := .absent
  authFailed := false
  tierNotEntitledLatch := false
  started := false
  closed := false
  nextSeq := 1
  closing := .notCalled
  forwards := 0
  posts := fun _ => 0
  recounted := 0

section Steps

variable (digit : Char → Option ℕ) (cfg : PlatformConfig) (s : ForwardState)

/-- An event that is not put on the queue. -/
def refuse : ForwardState :=
  { s with stats := s.stats.record .queueFull, forwards := s.forwards + 1 }

def enqueue : ForwardState :=
  { s with
    queue := s.queue ++ [s.forwards]
    unfinished := s.unfinished + 1
    forwards := s.forwards + 1 }

/-- `get_nowait`, `task_done` and the count of the oldest event. -/
def dropOldest (rest : List ℕ) : ForwardState :=
  { s with
    stats := s.stats.record .queueFull
    queue := rest
    unfinished := s.unfinished - 1 }

/-- The call of `forward` with the number `s.forwards`. -/
def forward : ForwardState :=
  if s.latched || s.closed || !s.started then s.refuse
  else if s.queue.length < cfg.maxQueueSize then s.enqueue
  else
    match s.queue with
    | [] => s.refuse
    | _ :: rest => (s.dropOldest rest).enqueue

/-- The worker is done with its event, and `task_done` is called. -/
def settle (d : Disposal) : ForwardState :=
  { s with
    stats := s.stats.record d
    unfinished := s.unfinished - 1
    worker := .idle }

/-- The head of the retry loop, up to the await of the POST. -/
def loopHead (call : ℕ) (a : Attempt) (start : ℚ) : ForwardState :=
  if maxCumulativeRetrySeconds ≤ s.clock - start then s.settle .fiveXx
  else if cfg.maxRetries < a.attempt then s.settle .fiveXx
  else
    { s with
      posts := Function.update s.posts call (s.posts call + 1)
      worker := .posting call a start }

/-- The event `call` is taken from the queue. -/
def take (call : ℕ) (rest : List ℕ) : ForwardState :=
  let taken := { s with queue := rest }
  if s.latched then taken.settle .queueFull
  else
    { taken with nextSeq := s.nextSeq + 1 }.loopHead cfg call (.first s.nextSeq) s.clock

/-- The event is taken, and its conversion to the wire format raises. -/
def takeFails (rest : List ℕ) : ForwardState :=
  { s with queue := rest, nextSeq := s.nextSeq + 1 }.settle .fiveXx

/-- `_sleep_with_cap`, which gives up once the budget is used. -/
def pause (call : ℕ) (a : Attempt) (start : ℚ) (delay : Seconds) (doubles : Bool) :
    ForwardState :=
  if maxCumulativeRetrySeconds - (s.clock - start) ≤ 0 then s.settle .fiveXx
  else { s with worker := .sleeping call a start delay doubles }

/-- The latch that a 401 sets. -/
def failAuth : ForwardState := { s with authFailed := true }

/-- The latch that a 402 sets. -/
def latchTier : ForwardState := { s with tierNotEntitledLatch := true }

def countRetry : ForwardState := { s with stats := s.stats.retry }

/-- The counter jumps ahead of the expected number, and never back. -/
def jumpSeq (expectedSeq : ℕ) : ForwardState :=
  { s with nextSeq := max s.nextSeq (expectedSeq + 1) }

/-- The POST of the worker has ended. -/
def respond (call : ℕ) (a : Attempt) (start : ℚ) (fate : PostFate) : ForwardState :=
  match a.verdict digit cfg.maxRetries fate with
  | .delivered => s.settle .sent
  | .authFailure => s.failAuth.settle .fourXx
  | .tierNotEntitled => s.latchTier.settle .fourXx
  | .clientError => s.settle .fourXx
  | .seqConflict => s.settle .seqConflict
  | .heal expectedSeq =>
      (s.jumpSeq expectedSeq).countRetry.loopHead cfg call (a.heal expectedSeq) start
  | .pause delay doubles => s.countRetry.pause call a start delay doubles

/-- The handler of `_worker_loop` counts the event that its log line raised for. -/
def recount : ForwardState :=
  { s with stats := s.stats.record .fiveXx, recounted := s.recounted + 1 }

/-- The POST of the worker has ended, and a line that shows text of the response is
logged. -/
def respondLogged (call : ℕ) (a : Attempt) (start : ℚ) (fate : PostFate) (log : LogFate) :
    ForwardState :=
  match log with
  | .printed => s.respond digit cfg call a start fate
  | .raised =>
      if fate.showsText then (s.respond digit cfg call a start fate).recount
      else s.respond digit cfg call a start fate

/-- `CancelledError` reaches the worker. -/
def cancelWorker : ForwardState :=
  match s.worker with
  | .absent => s
  | .ended => s
  | .idle => { s with worker := .ended }
  | .posting _ _ _ => { s.settle .queueFull with worker := .ended }
  | .sleeping _ _ _ _ _ => { s.settle .queueFull with worker := .ended }

/-- `start` creates the worker once. -/
def startClient : ForwardState :=
  if s.started then s else { s with started := true, worker := .idle }

end Steps

end ForwardState

/-- The steps of the client.  A sleep may end at any time after its start.  Once `close`
has cancelled the worker, the cancellation is the next thing that happens to it. -/
inductive ForwardStep (digit : Char → Option ℕ) (cfg : PlatformConfig) :
    ForwardState → ForwardState → Prop
  | tick (s : ForwardState) (d : ℚ) (hd : 0 ≤ d) :
      ForwardStep digit cfg s { s with clock := s.clock + d }
  | start (s : ForwardState) : ForwardStep digit cfg s s.startClient
  | forward (s : ForwardState) : ForwardStep digit cfg s (s.forward cfg)
  | take (s : ForwardState) (call : ℕ) (rest : List ℕ) (hopen : s.closing ≠ .stopping)
      (hworker : s.worker = .idle) (hqueue : s.queue = call :: rest) :
      ForwardStep digit cfg s (s.take cfg call rest)
  | takeFails (s : ForwardState) (call : ℕ) (rest : List ℕ) (hopen : s.closing ≠ .stopping)
      (hworker : s.worker = .idle) (hqueue : s.queue = call :: rest)
      (hlatched : s.latched = false) :
      ForwardStep digit cfg s (s.takeFails rest)
  | respond (s : ForwardState) (call : ℕ) (a : Attempt) (start : ℚ) (fate : PostFate)
      (log : LogFate) (hopen : s.closing ≠ .stopping)
      (hworker : s.worker = .posting call a start) :
      ForwardStep digit cfg s (s.respondLogged digit cfg call a start fate log)
  /-- an exception that the retry loop does not catch -/
  | unexpected (s : ForwardState) (hopen : s.closing ≠ .stopping)
      (hcurrent : s.worker.current.isSome) : ForwardStep digit cfg s (s.settle .fiveXx)
  | wake (s : ForwardState) (call : ℕ) (a : Attempt) (start : ℚ) (delay : Seconds)
      (doubles : Bool) (hopen : s.closing ≠ .stopping)
      (hworker : s.worker = .sleeping call a start delay doubles) :
      ForwardStep digit cfg s (s.loopHead cfg call (a.again doubles) start)
  | cancel (s : ForwardState) : ForwardStep digit cfg s s.cancelWorker
  | close (s : ForwardState) (hclosed : s.closed = false) :
      ForwardStep digit cfg s { s with closed := true, closing := .draining }
  /-- a further call of `close` returns at once -/
  | closeAgain (s : ForwardState) (hclosed : s.closed = true) : ForwardStep digit cfg s s
  /-- `queue.join()` returns within the deadline -/
  | drained (s : ForwardState) (hclosing : s.closing = .draining)
      (hunfinished : s.unfinished = 0) :
      ForwardStep digit cfg s { s with closing := .stopping }
  | drainTimeout (s : ForwardState) (hclosing : s.closing = .draining) :
      ForwardStep digit cfg s
        { s with
          stats :=
            { s.stats with droppedQueueFull := s.stats.droppedQueueFull + s.queue.length }
          closing := .stopping }
  | closed (s : ForwardState) (hclosing : s.closing = .stopping) :
      ForwardStep digit cfg s { s.cancelWorker with closing := .returned }

/-- A client that was just constructed, at any time. -/
def forwardSystem (digit : Char → Option ℕ) (cfg : PlatformConfig) : System ForwardState where
  init s := ∃ clock, s = { ForwardState.init with clock := clock }
  step := ForwardStep digit cfg

/-! ## How often every event is counted -/

namespace ForwardState

/-- The queued events that are not counted yet.  At its deadline `close` counts all of
them at once. -/
def awaited (s : ForwardState) : ℕ :=
  match s.closing with
  | .notCalled => s.queue.length
  | .draining => s.queue.length
  | .stopping => 0
  | .returned => 0

/-- The invariant of the counters. -/
structure Conserved (s : ForwardState) : Prop where
  balanced : s.forwards + s.recounted = s.stats.total + s.awaited + s.inFlight
  unfinished : s.unfinished = s.queue.length + s.inFlight
  closed : s.closing ≠ .notCalled → s.closed = true
  /-- nothing is queued for a worker that starts late, and none works after `close` -/
  unstarted : s.started = false → s.queue = [] ∧ s.inFlight = 0
  stopped : s.closing = .returned → s.inFlight = 0 ∧ (s.worker = .idle → s.queue = [])

variable {digit : Char → Option ℕ} {cfg : PlatformConfig} {s t : ForwardState} {call : ℕ}
  {a : Attempt} {start : ℚ} {rest : List ℕ}

theorem inFlight_current (hcurrent : s.worker.current.isSome) : s.inFlight = 1 := by
  obtain ⟨current, hsome⟩ := Option.isSome_iff_exists.mp hcurrent
  rw [inFlight, hsome]
  rfl

theorem inFlight_posting (hworker : s.worker = .posting call a start) : s.inFlight = 1 := by
  rw [inFlight, hworker]
  rfl

theorem inFlight_sleeping {delay : Seconds} {doubles : Bool}
    (hworker : s.worker = .sleeping call a start delay doubles) : s.inFlight = 1 := by
  rw [inFlight, hworker]
  rfl

theorem inFlight_idle (hworker : s.worker = .idle) : s.inFlight = 0 := by
  rw [inFlight, hworker]
  rfl

/-- The counters have not taken over the queue yet. -/
def Flushing (s : ForwardState) : Prop := s.closing = .notCalled ∨ s.closing = .draining

theorem Flushing.awaited (h : s.Flushing) : s.awaited = s.queue.length := by
  rw [ForwardState.awaited]
  rcases h with hclosing | hclosing
  · rw [hclosing]
  · rw [hclosing]

theorem Flushing.not_returned (h : s.Flushing) : s.closing ≠ .returned := by
  intro hreturned
  rw [Flushing, hreturned] at h
  simp at h

/-- The equation of the counters while `close` has not counted the queue. -/
theorem Conserved.flushing (h : Conserved s) (hflushing : s.Flushing) :
    s.forwards + s.recounted = s.stats.total + s.queue.length + s.inFlight := by
  rw [← hflushing.awaited]
  exact h.balanced

/-- An idle worker that has an event to take is not past the end of `close`. -/
theorem Conserved.flushing_of_take (h : Conserved s) (hopen : s.closing ≠ .stopping)
    (hworker : s.worker = .idle) (hqueue : s.queue = call :: rest) : s.Flushing := by
  rcases hclosing : s.closing with _ | _ | _ | _
  · exact Or.inl hclosing
  · exact Or.inr hclosing
  · exact absurd hclosing hopen
  · rw [(h.stopped hclosing).2 hworker] at hqueue
    cases hqueue

/-- The worker counts the event in its hands. -/
theorem Conserved.settle (h : Conserved s) (hflight : s.inFlight = 1) (d : Disposal) :
    Conserved (s.settle d) := by
  have hbalanced := h.balanced
  have hunfinished := h.unfinished
  have hawaited : (s.settle d).awaited = s.awaited := rfl
  have hidle : (s.settle d).inFlight = 0 := rfl
  constructor
  · rw [hawaited, hidle]
    change s.forwards + s.recounted = (s.stats.record d).total + s.awaited + 0
    rw [Stats.total_record]
    omega
  · rw [hidle]
    change s.unfinished - 1 = s.queue.length + 0
    omega
  · exact h.closed
  · intro hstarted
    have hnone := (h.unstarted hstarted).2
    omega
  · intro hreturned
    have hnone := (h.stopped hreturned).1
    omega

/-- The worker keeps its event and is suspended elsewhere. -/
theorem Conserved.suspend (h : Conserved s) (hflight : s.inFlight = 1) {w : WorkerPhase}
    (hw : w.current.isSome) (posts : ℕ → ℕ) :
    Conserved { s with worker := w, posts := posts } := by
  have hsame : w.current.toList.length = s.inFlight := by
    rw [hflight]
    exact inFlight_current (s := { s with worker := w }) hw
  constructor
  · change s.forwards + s.recounted = s.stats.total + s.awaited + w.current.toList.length
    rw [hsame]
    exact h.balanced
  · change s.unfinished = s.queue.length + w.current.toList.length
    rw [hsame]
    exact h.unfinished
  · exact h.closed
  · change s.started = false → s.queue = [] ∧ w.current.toList.length = 0
    rw [hsame]
    exact h.unstarted
  · intro hreturned
    have hnone := (h.stopped hreturned).1
    omega

theorem Conserved.failAuth (h : Conserved s) : Conserved s.failAuth :=
  ⟨h.balanced, h.unfinished, h.closed, h.unstarted, h.stopped⟩

theorem Conserved.latchTier (h : Conserved s) : Conserved s.latchTier :=
  ⟨h.balanced, h.unfinished, h.closed, h.unstarted, h.stopped⟩

theorem Conserved.countRetry (h : Conserved s) : Conserved s.countRetry :=
  ⟨h.balanced, h.unfinished, h.closed, h.unstarted, h.stopped⟩

theorem Conserved.jumpSeq (h : Conserved s) (expectedSeq : ℕ) :
    Conserved (s.jumpSeq expectedSeq) :=
  ⟨h.balanced, h.unfinished, h.closed, h.unstarted, h.stopped⟩

theorem Conserved.loopHead (h : Conserved s) (hflight : s.inFlight = 1) :
    Conserved (s.loopHead cfg call a start) := by
  rw [ForwardState.loopHead]
  split
  · exact h.settle hflight .fiveXx
  · split
    · exact h.settle hflight .fiveXx
    · exact h.suspend hflight rfl _

theorem Conserved.pause (h : Conserved s) (hflight : s.inFlight = 1) {delay : Seconds}
    {doubles : Bool} : Conserved (s.pause call a start delay doubles) := by
  rw [ForwardState.pause]
  split
  · exact h.settle hflight .fiveXx
  · exact h.suspend hflight rfl s.posts

theorem Conserved.recount (h : Conserved s) : Conserved s.recount := by
  have hbalanced := h.balanced
  refine ⟨?_, h.unfinished, h.closed, h.unstarted, h.stopped⟩
  change s.forwards + (s.recounted + 1) =
    (s.stats.record .fiveXx).total + s.awaited + s.inFlight
  rw [Stats.total_record]
  omega

theorem Conserved.respond (h : Conserved s) (hworker : s.worker = .posting call a start)
    (fate : PostFate) : Conserved (s.respond digit cfg call a start fate) := by
  have hflight := inFlight_posting hworker
  rw [ForwardState.respond]
  rcases a.verdict digit cfg.maxRetries fate with
    _ | _ | _ | _ | _ | expectedSeq | ⟨delay, doubles⟩
  · exact h.settle hflight .sent
  · exact h.failAuth.settle hflight .fourXx
  · exact h.latchTier.settle hflight .fourXx
  · exact h.settle hflight .fourXx
  · exact h.settle hflight .seqConflict
  · exact (h.jumpSeq expectedSeq).countRetry.loopHead hflight
  · exact h.countRetry.pause hflight

theorem Conserved.respondLogged (h : Conserved s) (hworker : s.worker = .posting call a start)
    (fate : PostFate) (log : LogFate) :
    Conserved (s.respondLogged digit cfg call a start fate log) := by
  cases log with
  | printed => exact h.respond hworker fate
  | raised =>
      rw [ForwardState.respondLogged]
      split
      · exact (h.respond hworker fate).recount
      · exact h.respond hworker fate

/-- The first event of the queue passes into the hands of the worker. -/
theorem Conserved.taken (h : Conserved s) (hopen : s.closing ≠ .stopping)
    (hworker : s.worker = .idle) (hqueue : s.queue = call :: rest) (n : ℕ) (a : Attempt)
    (start : ℚ) :
    Conserved { s with queue := rest, nextSeq := n, worker := .posting call a start } := by
  have hflushing := h.flushing_of_take hopen hworker hqueue
  have hbalanced := h.flushing hflushing
  have hunfinished := h.unfinished
  have hflight := inFlight_idle hworker
  have hlength : s.queue.length = rest.length + 1 := by
    rw [hqueue]
    rfl
  constructor
  · have hrest : ForwardState.awaited
        { s with queue := rest, nextSeq := n, worker := .posting call a start } = rest.length :=
      Flushing.awaited hflushing
    rw [hrest]
    change s.forwards + s.recounted = s.stats.total + rest.length + 1
    omega
  · change s.unfinished = rest.length + 1
    omega
  · exact h.closed
  · intro hstarted
    rw [(h.unstarted hstarted).1] at hqueue
    cases hqueue
  · intro hreturned
    exact absurd hreturned hflushing.not_returned

theorem Conserved.take (h : Conserved s) (hopen : s.closing ≠ .stopping)
    (hworker : s.worker = .idle) (hqueue : s.queue = call :: rest) :
    Conserved (s.take cfg call rest) := by
  rw [ForwardState.take]
  split
  · have htaken := h.taken hopen hworker hqueue s.nextSeq (.first s.nextSeq) s.clock
    exact htaken.settle rfl .queueFull
  · have htaken := h.taken hopen hworker hqueue (s.nextSeq + 1) (.first s.nextSeq) s.clock
    exact htaken.loopHead rfl

theorem Conserved.takeFails (h : Conserved s) (hopen : s.closing ≠ .stopping)
    (hworker : s.worker = .idle) (hqueue : s.queue = call :: rest) :
    Conserved (s.takeFails rest) := by
  have htaken := h.taken hopen hworker hqueue (s.nextSeq + 1) (.first s.nextSeq) s.clock
  exact htaken.settle rfl .fiveXx

/-- Before `close` nothing but the deadline is missing. -/
theorem Conserved.notCalled (h : Conserved s) (hclosed : s.closed = false) :
    s.closing = .notCalled := by
  by_contra hcalled
  rw [h.closed hcalled] at hclosed
  cases hclosed

theorem Conserved.refuse (h : Conserved s) : Conserved s.refuse := by
  have hbalanced := h.balanced
  refine ⟨?_, h.unfinished, h.closed, h.unstarted, h.stopped⟩
  change s.forwards + 1 + s.recounted = (s.stats.record .queueFull).total + s.awaited + s.inFlight
  rw [Stats.total_record]
  omega

theorem Conserved.enqueue (h : Conserved s) (hflushing : s.Flushing)
    (hstarted : s.started = true) : Conserved s.enqueue := by
  have hbalanced := h.flushing hflushing
  have hunfinished := h.unfinished
  have hlength : (s.queue ++ [s.forwards]).length = s.queue.length + 1 := List.length_append
  have hflush : s.enqueue.Flushing := hflushing
  have hawaited : s.enqueue.awaited = s.queue.length + 1 := by
    rw [hflush.awaited]
    exact hlength
  constructor
  · rw [hawaited]
    change s.forwards + 1 + s.recounted = s.stats.total + (s.queue.length + 1) + s.inFlight
    omega
  · change s.unfinished + 1 = (s.queue ++ [s.forwards]).length + s.inFlight
    omega
  · exact h.closed
  · intro hunstarted
    change s.started = false at hunstarted
    rw [hstarted] at hunstarted
    cases hunstarted
  · intro hreturned
    exact absurd hreturned hflushing.not_returned

theorem Conserved.dropOldest (h : Conserved s) (hflushing : s.Flushing)
    (hqueue : s.queue = call :: rest) : Conserved (s.dropOldest rest) := by
  have hbalanced := h.flushing hflushing
  have hunfinished := h.unfinished
  have hlength : s.queue.length = rest.length + 1 := by
    rw [hqueue]
    rfl
  have hawaited : (s.dropOldest rest).awaited = rest.length := Flushing.awaited hflushing
  constructor
  · rw [hawaited]
    change s.forwards + s.recounted = (s.stats.record .queueFull).total + rest.length + s.inFlight
    rw [Stats.total_record]
    omega
  · change s.unfinished - 1 = rest.length + s.inFlight
    omega
  · exact h.closed
  · intro hunstarted
    rw [(h.unstarted hunstarted).1] at hqueue
    cases hqueue
  · intro hreturned
    exact absurd hreturned hflushing.not_returned

theorem Conserved.forward (h : Conserved s) : Conserved (s.forward cfg) := by
  rw [ForwardState.forward]
  split
  · exact h.refuse
  · rename_i hopen
    simp only [Bool.or_eq_true, Bool.not_eq_true', not_or, Bool.not_eq_true,
      Bool.not_eq_false] at hopen
    obtain ⟨⟨-, hclosed⟩, hstarted⟩ := hopen
    have hflushing : s.Flushing := Or.inl (h.notCalled hclosed)
    split
    · exact h.enqueue hflushing hstarted
    · split
      · exact h.refuse
      · rename_i oldest rest hqueue
        exact (h.dropOldest hflushing hqueue).enqueue hflushing hstarted

theorem Conserved.cancelWorker (h : Conserved s) :
    Conserved s.cancelWorker ∧ s.cancelWorker.inFlight = 0 ∧ s.cancelWorker.worker ≠ .idle := by
  have hsettled : s.worker.current.isSome →
      Conserved { s.settle .queueFull with worker := .ended } := by
    intro hcurrent
    have hset := h.settle (inFlight_current hcurrent) .queueFull
    refine ⟨hset.balanced, hset.unfinished, hset.closed, hset.unstarted, ?_⟩
    intro hreturned
    exact ⟨rfl, fun hidle => by cases hidle⟩
  rw [ForwardState.cancelWorker]
  rcases hworker : s.worker with _ | _ | ⟨call, a, start⟩ | ⟨call, a, start, delay, doubles⟩ | _
  · refine ⟨h, ?_, ?_⟩
    · rw [inFlight, hworker]
      rfl
    · rw [hworker]
      simp
  · have hflight := inFlight_idle hworker
    refine ⟨⟨?_, ?_, h.closed, ?_, ?_⟩, rfl, by simp⟩
    · have hbalanced := h.balanced
      rw [hflight] at hbalanced
      exact hbalanced
    · have hunfinished := h.unfinished
      rw [hflight] at hunfinished
      exact hunfinished
    · intro hstarted
      exact ⟨(h.unstarted hstarted).1, rfl⟩
    · intro _
      exact ⟨rfl, fun hidle => by cases hidle⟩
  · refine ⟨hsettled ?_, rfl, by simp⟩
    rw [hworker]
    rfl
  · refine ⟨hsettled ?_, rfl, by simp⟩
    rw [hworker]
    rfl
  · refine ⟨h, ?_, ?_⟩
    · rw [inFlight, hworker]
      rfl
    · rw [hworker]
      simp

theorem Conserved.startClient (h : Conserved s) : Conserved s.startClient := by
  rw [ForwardState.startClient]
  split
  · exact h
  · rename_i hstarted
    rw [Bool.not_eq_true] at hstarted
    obtain ⟨hqueue, hflight⟩ := h.unstarted hstarted
    refine ⟨?_, ?_, h.closed, ?_, ?_⟩
    · have hbalanced := h.balanced
      rw [hflight] at hbalanced
      exact hbalanced
    · have hunfinished := h.unfinished
      rw [hflight] at hunfinished
      exact hunfinished
    · intro hunstarted
      cases hunstarted
    · intro _
      exact ⟨rfl, fun _ => hqueue⟩

theorem Conserved.drained (h : Conserved s) (hclosing : s.closing = .draining)
    (hunfinished : s.unfinished = 0) : Conserved { s with closing := .stopping } := by
  have hbalanced := h.flushing (Or.inr hclosing)
  have hcount := h.unfinished
  refine ⟨?_, h.unfinished, ?_, h.unstarted, by simp⟩
  · change s.forwards + s.recounted = s.stats.total + 0 + s.inFlight
    omega
  · intro _
    apply h.closed
    rw [hclosing]
    simp

theorem Conserved.drainTimeout (h : Conserved s) (hclosing : s.closing = .draining) :
    Conserved
      { s with
        stats := { s.stats with droppedQueueFull := s.stats.droppedQueueFull + s.queue.length }
        closing := .stopping } := by
  have hbalanced := h.flushing (Or.inr hclosing)
  rw [Stats.total] at hbalanced
  refine ⟨?_, h.unfinished, ?_, h.unstarted, by simp⟩
  · rw [Stats.total]
    change s.forwards + s.recounted = s.stats.sent + (s.stats.droppedQueueFull + s.queue.length) +
      s.stats.dropped4xx + s.stats.dropped5xx + s.stats.droppedSeqConflict + 0 + s.inFlight
    omega
  · intro _
    apply h.closed
    rw [hclosing]
    simp

/-- The worker has ended, and `close` returns. -/
theorem Conserved.finished (h : Conserved s) (hclosing : s.closing = .stopping) :
    Conserved { s.cancelWorker with closing := .returned } := by
  obtain ⟨hcancelled, hflight, hidle⟩ := h.cancelWorker
  have hphase : s.cancelWorker.closing = .stopping := by
    rw [ForwardState.cancelWorker]
    split
    · exact hclosing
    · exact hclosing
    · exact hclosing
    · exact hclosing
    · exact hclosing
  have hbalanced := hcancelled.balanced
  rw [awaited, hphase] at hbalanced
  refine ⟨hbalanced, hcancelled.unfinished, ?_, hcancelled.unstarted, ?_⟩
  · intro _
    apply hcancelled.closed
    rw [hphase]
    simp
  · intro _
    exact ⟨hflight, fun h => absurd h hidle⟩

/-- Every step keeps the invariant of the counters. -/
theorem conserved_step (h : Conserved s) (hstep : ForwardStep digit cfg s t) : Conserved t := by
  cases hstep with
  | tick d hd => exact ⟨h.balanced, h.unfinished, h.closed, h.unstarted, h.stopped⟩
  | start => exact h.startClient
  | forward => exact h.forward
  | take call rest hopen hworker hqueue => exact h.take hopen hworker hqueue
  | takeFails call rest hopen hworker hqueue hlatched => exact h.takeFails hopen hworker hqueue
  | respond call a start fate log hopen hworker => exact h.respondLogged hworker fate log
  | unexpected hopen hcurrent => exact h.settle (inFlight_current hcurrent) .fiveXx
  | wake call a start delay doubles hopen hworker => exact h.loopHead (inFlight_sleeping hworker)
  | cancel => exact h.cancelWorker.1
  | close hclosed =>
      exact ⟨h.flushing (Or.inl (h.notCalled hclosed)), h.unfinished, fun _ => rfl,
        h.unstarted, by simp⟩
  | closeAgain hclosed => exact h
  | drained hclosing hunfinished => exact h.drained hclosing hunfinished
  | drainTimeout hclosing => exact h.drainTimeout hclosing
  | closed hclosing => exact h.finished hclosing

theorem conserved_of_reachable (h : (forwardSystem digit cfg).Reachable s) : Conserved s := by
  refine System.invariant ?_ ?_ h
  · rintro s ⟨clock, rfl⟩
    exact ⟨rfl, rfl, by simp [init], fun _ => ⟨rfl, rfl⟩, by simp [init]⟩
  · intro s t _ hconserved hstep
    exact conserved_step hconserved hstep

/-! ## No event is sent too often -/

/-- The part of the invariant of the POSTs that does not depend on the worker. -/
structure PostsOk (cfg : PlatformConfig) (s : ForwardState) : Prop where
  fresh : ∀ c, s.forwards ≤ c → s.posts c = 0
  queued : ∀ c ∈ s.queue, c < s.forwards ∧ s.posts c = 0
  nodup : s.queue.Nodup
  bounded : ∀ c, s.posts c ≤ cfg.maxRetries + 1

/-- The invariant of the POSTs: the event of the worker has been sent once for each pass of
its retry loop. -/
structure PostsBounded (cfg : PlatformConfig) (s : ForwardState) : Prop
    extends PostsOk cfg s where
  current : ∀ c a, s.worker.current = some (c, a) →
    c ∉ s.queue ∧ c < s.forwards ∧ s.posts c = a.attempt + 1

theorem PostsOk.settle (h : PostsOk cfg s) (d : Disposal) : PostsBounded cfg (s.settle d) :=
  ⟨⟨h.fresh, h.queued, h.nodup, h.bounded⟩, by rintro c a ⟨⟩⟩

/-- A pass of the loop starts with as many POSTs behind it as it counts. -/
theorem PostsOk.loopHead (h : PostsOk cfg s) (hqueue : call ∉ s.queue)
    (hlt : call < s.forwards) (hposts : s.posts call = a.attempt) :
    PostsBounded cfg (s.loopHead cfg call a start) := by
  rw [ForwardState.loopHead]
  split
  · exact h.settle .fiveXx
  · split
    · exact h.settle .fiveXx
    · rename_i hbudget hattempt
      have hother : ∀ c, c ≠ call →
          Function.update s.posts call (s.posts call + 1) c = s.posts c :=
        fun c hc => Function.update_of_ne hc _ _
      have hself : Function.update s.posts call (s.posts call + 1) call = a.attempt + 1 := by
        rw [Function.update_self, hposts]
      refine ⟨⟨?_, ?_, h.nodup, ?_⟩, ?_⟩
      · intro c hc
        have hne : c ≠ call := by
          rintro rfl
          exact absurd hlt (not_lt.mpr hc)
        exact (hother c hne).trans (h.fresh c hc)
      · intro c hc
        have hne : c ≠ call := by
          rintro rfl
          exact hqueue hc
        exact ⟨(h.queued c hc).1, (hother c hne).trans (h.queued c hc).2⟩
      · intro c
        by_cases hc : c = call
        · subst hc
          change Function.update s.posts c (s.posts c + 1) c ≤ cfg.maxRetries + 1
          omega
        · exact (hother c hc).trans_le (h.bounded c)
      · intro c b hcurrent
        cases hcurrent
        exact ⟨hqueue, hlt, hself⟩

theorem PostsBounded.pause (h : PostsBounded cfg s) (hworker : s.worker = .posting call a start)
    {delay : Seconds} {doubles : Bool} :
    PostsBounded cfg (s.pause call a start delay doubles) := by
  rw [ForwardState.pause]
  split
  · exact h.toPostsOk.settle .fiveXx
  · refine ⟨⟨h.fresh, h.queued, h.nodup, h.bounded⟩, ?_⟩
    intro c b hcurrent
    cases hcurrent
    apply h.current
    rw [hworker]
    rfl

theorem PostsBounded.respond (h : PostsBounded cfg s)
    (hworker : s.worker = .posting call a start) (fate : PostFate) :
    PostsBounded cfg (s.respond digit cfg call a start fate) := by
  obtain ⟨hqueue, hlt, hposts⟩ := h.current call a (by rw [hworker]; rfl)
  rw [ForwardState.respond]
  rcases a.verdict digit cfg.maxRetries fate with
    _ | _ | _ | _ | _ | expectedSeq | ⟨delay, doubles⟩
  · exact h.toPostsOk.settle .sent
  · exact PostsOk.settle (s := s.failAuth) ⟨h.fresh, h.queued, h.nodup, h.bounded⟩ .fourXx
  · exact PostsOk.settle (s := s.latchTier) ⟨h.fresh, h.queued, h.nodup, h.bounded⟩ .fourXx
  · exact h.toPostsOk.settle .fourXx
  · exact h.toPostsOk.settle .seqConflict
  · exact PostsOk.loopHead (s := (s.jumpSeq expectedSeq).countRetry)
      ⟨h.fresh, h.queued, h.nodup, h.bounded⟩ hqueue hlt hposts
  · exact PostsBounded.pause (s := s.countRetry)
      ⟨⟨h.fresh, h.queued, h.nodup, h.bounded⟩, h.current⟩ hworker

theorem PostsBounded.respondLogged (h : PostsBounded cfg s)
    (hworker : s.worker = .posting call a start) (fate : PostFate) (log : LogFate) :
    PostsBounded cfg (s.respondLogged digit cfg call a start fate log) := by
  have hresponded : PostsBounded cfg (s.respond digit cfg call a start fate) :=
    h.respond hworker fate
  cases log with
  | printed => exact hresponded
  | raised =>
      rw [ForwardState.respondLogged]
      split
      · exact ⟨⟨hresponded.fresh, hresponded.queued, hresponded.nodup, hresponded.bounded⟩,
          hresponded.current⟩
      · exact hresponded

/-- The event at the head of the queue is taken off it. -/
theorem PostsBounded.taken (h : PostsBounded cfg s) (hqueue : s.queue = call :: rest) (n : ℕ) :
    PostsOk cfg { s with queue := rest, nextSeq := n } ∧ call ∉ rest ∧ call < s.forwards ∧
      s.posts call = 0 := by
  have hnodup := h.nodup
  have hqueued := h.queued
  rw [hqueue] at hnodup hqueued
  obtain ⟨hmem, hrest⟩ := List.nodup_cons.mp hnodup
  obtain ⟨hlt, hposts⟩ := hqueued call List.mem_cons_self
  refine ⟨⟨h.fresh, ?_, hrest, h.bounded⟩, hmem, hlt, hposts⟩
  intro c hc
  exact hqueued c (List.mem_cons_of_mem call hc)

theorem PostsBounded.take (h : PostsBounded cfg s) (hqueue : s.queue = call :: rest) :
    PostsBounded cfg (s.take cfg call rest) := by
  rw [ForwardState.take]
  split
  · exact (h.taken hqueue s.nextSeq).1.settle .queueFull
  · obtain ⟨hok, hmem, hlt, hposts⟩ := h.taken hqueue (s.nextSeq + 1)
    exact hok.loopHead hmem hlt hposts

theorem PostsBounded.refuse (h : PostsBounded cfg s) : PostsBounded cfg s.refuse := by
  refine ⟨⟨?_, ?_, h.nodup, h.bounded⟩, ?_⟩
  · intro c hc
    exact h.fresh c (Nat.le_of_succ_le hc)
  · intro c hc
    exact ⟨Nat.lt_succ_of_lt (h.queued c hc).1, (h.queued c hc).2⟩
  · intro c b hcurrent
    obtain ⟨hqueue, hlt, hposts⟩ := h.current c b hcurrent
    exact ⟨hqueue, Nat.lt_succ_of_lt hlt, hposts⟩

theorem PostsBounded.enqueue (h : PostsBounded cfg s) : PostsBounded cfg s.enqueue := by
  have hnew : s.forwards ∉ s.queue := fun hmem => lt_irrefl _ (h.queued _ hmem).1
  refine ⟨⟨?_, ?_, ?_, h.bounded⟩, ?_⟩
  · intro c hc
    exact h.fresh c (Nat.le_of_succ_le hc)
  · intro c hc
    rcases List.mem_append.mp hc with hc | hc
    · exact ⟨Nat.lt_succ_of_lt (h.queued c hc).1, (h.queued c hc).2⟩
    · rw [List.mem_singleton.mp hc]
      exact ⟨Nat.lt_succ_self _, h.fresh _ le_rfl⟩
  · change (s.queue ++ [s.forwards]).Nodup
    rw [List.nodup_append]
    refine ⟨h.nodup, List.nodup_singleton _, ?_⟩
    intro c hc c' hc'
    rw [List.mem_singleton.mp hc']
    rintro rfl
    exact hnew hc
  · intro c b hcurrent
    obtain ⟨hqueue, hlt, hposts⟩ := h.current c b hcurrent
    refine ⟨?_, Nat.lt_succ_of_lt hlt, hposts⟩
    intro hmem
    rcases List.mem_append.mp hmem with hmem | hmem
    · exact hqueue hmem
    · rw [List.mem_singleton.mp hmem] at hlt
      exact lt_irrefl _ hlt

theorem PostsBounded.forward (h : PostsBounded cfg s) : PostsBounded cfg (s.forward cfg) := by
  rw [ForwardState.forward]
  split
  · exact h.refuse
  · split
    · exact h.enqueue
    · split
      · exact h.refuse
      · rename_i oldest rest hqueue
        have hok := (h.taken hqueue s.nextSeq).1
        apply PostsBounded.enqueue
        refine ⟨⟨hok.fresh, hok.queued, hok.nodup, hok.bounded⟩, ?_⟩
        intro c b hcurrent
        obtain ⟨hmem, hlt, hposts⟩ := h.current c b hcurrent
        rw [hqueue] at hmem
        exact ⟨fun hc => hmem (List.mem_cons_of_mem oldest hc), hlt, hposts⟩

theorem PostsBounded.cancelWorker (h : PostsBounded cfg s) : PostsBounded cfg s.cancelWorker := by
  have hok : PostsOk cfg s := h.toPostsOk
  rw [ForwardState.cancelWorker]
  split
  · exact h
  · exact h
  · exact ⟨⟨hok.fresh, hok.queued, hok.nodup, hok.bounded⟩, by rintro c a ⟨⟩⟩
  · exact ⟨⟨hok.fresh, hok.queued, hok.nodup, hok.bounded⟩, by rintro c a ⟨⟩⟩
  · exact ⟨⟨hok.fresh, hok.queued, hok.nodup, hok.bounded⟩, by rintro c a ⟨⟩⟩

theorem postsBounded_step (h : PostsBounded cfg s) (hstep : ForwardStep digit cfg s t) :
    PostsBounded cfg t := by
  have hok : PostsOk cfg s := h.toPostsOk
  cases hstep with
  | tick d hd => exact ⟨⟨hok.fresh, hok.queued, hok.nodup, hok.bounded⟩, h.current⟩
  | start =>
      rw [startClient]
      split
      · exact h
      · exact ⟨⟨hok.fresh, hok.queued, hok.nodup, hok.bounded⟩, by rintro c a ⟨⟩⟩
  | forward => exact h.forward
  | take call rest hopen hworker hqueue => exact h.take hqueue
  | takeFails call rest hopen hworker hqueue hlatched =>
      exact (h.taken hqueue (s.nextSeq + 1)).1.settle .fiveXx
  | respond call a start fate log hopen hworker => exact h.respondLogged hworker fate log
  | unexpected hopen hcurrent => exact hok.settle .fiveXx
  | wake call a start delay doubles hopen hworker =>
      obtain ⟨hqueue, hlt, hposts⟩ := h.current call a (by rw [hworker]; rfl)
      exact hok.loopHead hqueue hlt hposts
  | cancel => exact h.cancelWorker
  | close hclosed => exact ⟨⟨hok.fresh, hok.queued, hok.nodup, hok.bounded⟩, h.current⟩
  | closeAgain hclosed => exact h
  | drained hclosing hunfinished =>
      exact ⟨⟨hok.fresh, hok.queued, hok.nodup, hok.bounded⟩, h.current⟩
  | drainTimeout hclosing =>
      exact ⟨⟨hok.fresh, hok.queued, hok.nodup, hok.bounded⟩, h.current⟩
  | closed hclosing =>
      have hcancelled := h.cancelWorker
      exact ⟨⟨hcancelled.fresh, hcancelled.queued, hcancelled.nodup, hcancelled.bounded⟩,
        hcancelled.current⟩

theorem postsBounded_of_reachable (h : (forwardSystem digit cfg).Reachable s) :
    PostsBounded cfg s := by
  refine System.invariant ?_ ?_ h
  · rintro s ⟨clock, rfl⟩
    exact ⟨⟨fun _ _ => rfl, by simp [init], List.nodup_nil, by simp [init]⟩, by rintro c a ⟨⟩⟩
  · intro s t _ hbounded hstep
    exact postsBounded_step hbounded hstep

end ForwardState

/-! ## Conservation -/

/-- In a reachable state before `close` the calls of `forward` are the five counters, the
queued events and the event in flight, and once `close` has returned they are the five
counters, exactly when no log line has raised after the drop was counted.  No event is
sent more than `max_retries + 1` times. -/
theorem audit_forward_conserved_iff {digit : Char → Option ℕ} {cfg : PlatformConfig}
    {s : ForwardState} (hreach : (forwardSystem digit cfg).Reachable s) :
    (s.closing = .notCalled →
        (s.forwards = s.stats.sent + s.stats.droppedQueueFull + s.stats.dropped4xx +
          s.stats.dropped5xx + s.stats.droppedSeqConflict + s.queue.length + s.inFlight ↔
            s.recounted = 0)) ∧
      (s.closing = .returned →
        (s.forwards = s.stats.sent + s.stats.droppedQueueFull + s.stats.dropped4xx +
          s.stats.dropped5xx + s.stats.droppedSeqConflict ↔ s.recounted = 0)) ∧
      ∀ call, s.posts call ≤ cfg.maxRetries + 1 := by
  have hconserved := ForwardState.conserved_of_reachable hreach
  refine ⟨?_, ?_, (ForwardState.postsBounded_of_reachable hreach).bounded⟩
  · intro hclosing
    have hbalanced := hconserved.flushing (Or.inl hclosing)
    rw [Stats.total] at hbalanced
    omega
  · intro hreturned
    have hawaited : s.awaited = 0 := by rw [ForwardState.awaited, hreturned]
    have hbalanced := hconserved.balanced
    rw [hawaited, (hconserved.stopped hreturned).1, Stats.total] at hbalanced
    omega

/-- An event is sent, and the client is closed. -/
theorem delivered_event_conserved :
    ∃ s : ForwardState, s.closing = .returned ∧ s.forwards = 1 ∧ s.stats.sent = 1 ∧
      s.recounted = 0 ∧
      (s.closing = .notCalled →
          (s.forwards = s.stats.sent + s.stats.droppedQueueFull + s.stats.dropped4xx +
            s.stats.dropped5xx + s.stats.droppedSeqConflict + s.queue.length + s.inFlight ↔
              s.recounted = 0)) ∧
        (s.closing = .returned →
          (s.forwards = s.stats.sent + s.stats.droppedQueueFull + s.stats.dropped4xx +
            s.stats.dropped5xx + s.stats.droppedSeqConflict ↔ s.recounted = 0)) ∧
        ∀ call, s.posts call ≤ 4 := by
  have hinit : (forwardSystem asciiDigit ⟨10000, 3, by decide⟩).Reachable .init :=
    .start ⟨0, rfl⟩
  have hqueued := (hinit.next (.start _)).next (.forward _)
  have hposting := hqueued.next (.take _ 0 [] (by decide) rfl rfl)
  have hsent := hposting.next
    (.respond _ 0 (.first 1) 0 (.response ⟨200, none, none⟩) .printed
      (by with_unfolding_all decide) (by with_unfolding_all rfl))
  have hdraining := hsent.next (.close _ (by with_unfolding_all rfl))
  have hstopping := hdraining.next (.drained _ rfl (by with_unfolding_all rfl))
  have hreturned := hstopping.next (.closed _ rfl)
  exact ⟨_, rfl, by with_unfolding_all rfl, by with_unfolding_all rfl,
    by with_unfolding_all rfl, audit_forward_conserved_iff hreturned⟩

/-- The body of a 402 names a tier that cannot be printed.  The event is counted before
the line is logged, and again when the line raises. -/
theorem unprintable_tier_counted_twice :
    ∃ s : ForwardState, (forwardSystem asciiDigit ⟨10000, 3, by decide⟩).Reachable s ∧
      s.closing = .notCalled ∧ s.forwards = 1 ∧ s.queue = [] ∧ s.inFlight = 0 ∧
      s.stats.dropped4xx = 1 ∧ s.stats.dropped5xx = 1 := by
  have hinit : (forwardSystem asciiDigit ⟨10000, 3, by decide⟩).Reachable .init :=
    .start ⟨0, rfl⟩
  have hqueued := (hinit.next (.start _)).next (.forward _)
  have hposting := hqueued.next (.take _ 0 [] (by decide) rfl rfl)
  have hcounted := hposting.next
    (.respond _ 0 (.first 1) 0 (.response ⟨402, none, none⟩) .raised
      (by with_unfolding_all decide) (by with_unfolding_all rfl))
  exact ⟨_, hcounted, by with_unfolding_all rfl, by with_unfolding_all rfl,
    by with_unfolding_all rfl, by with_unfolding_all rfl, by with_unfolding_all rfl,
    by with_unfolding_all rfl⟩

end AgenticGovernance.Platform

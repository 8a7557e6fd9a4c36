import Mathlib
import AgenticGovernance.Support.Transition
import AgenticGovernance.Platform.Client

/-!
# Forwarding gate requests

Every call of `forward_gate_request` starts a task of its own, and so does a call of
`notify_local_resolution` for a gate that the platform knows.  Both kinds of task share
one task set and one semaphore.  `close` waits for the tasks until a deadline.  It then
cancels those that are left and counts them as dropped gate requests, and a cancelled task
counts itself again.  A task also counts itself again where the line on a client error,
which shows the body of the response, cannot be printed and raises.

A step of the system below is what happens between two suspensions.
-/

namespace AgenticGovernance.Platform

open Support

/-- `MAX_CONCURRENT_GATE_FORWARDS` -/
def maxConcurrentGateForwards : ℕ := 100

/-- `_forwarded_request_ids_cap` -/
def forwardedRequestIdsCap : ℕ := 10000

/-! ## Tasks -/

/-- The counters that the two kinds of tasks use. -/
structure GateStats where
  gateRequestsSent : ℕ
  gateRequestsDropped : ℕ
  gateForwardsQueued : ℕ
  localResolutionsSent : ℕ
  localResolutionsDropped : ℕ
  dropped4xx : ℕ
  retries : ℕ

def GateStats.zero : GateStats := ⟨0, 0, 0, 0, 0, 0, 0⟩

/-- What a task reports to the platform. -/
inductive TaskKind where
  | gateRequest
  | localResolution
  deriving DecidableEq

/-- The task's last act on success. -/
def GateStats.sent (s : GateStats) : TaskKind → GateStats
  | .gateRequest => { s with gateRequestsSent := s.gateRequestsSent + 1 }
  | .localResolution => { s with localResolutionsSent := s.localResolutionsSent + 1 }

/-- The task's last act otherwise. -/
def GateStats.dropped (s : GateStats) : TaskKind → GateStats
  | .gateRequest => { s with gateRequestsDropped := s.gateRequestsDropped + 1 }
  | .localResolution => { s with localResolutionsDropped := s.localResolutionsDropped + 1 }

def GateStats.retry (s : GateStats) : GateStats := { s with retries := s.retries + 1 }

/-- The handlers of a 401 and a 402 count in the counters of the audit events. -/
def GateStats.terminal (s : GateStats) : GateStats := { s with dropped4xx := s.dropped4xx + 1 }

/-- A task that finds the semaphore locked. -/
def GateStats.queued (s : GateStats) : TaskKind → GateStats
  | .gateRequest => { s with gateForwardsQueued := s.gateForwardsQueued + 1 }
  | .localResolution => s

/-- The variables of the retry loop. -/
structure Retry where
  attempt : ℕ
  backoff : ℚ

def Retry.first : Retry := ⟨0, 1⟩

def Retry.again (r : Retry) (doubles : Bool) : Retry :=
  ⟨r.attempt + 1, if doubles then 2 * r.backoff else r.backoff⟩

/-- Where a task is suspended.  `start` is the clock at its first step. -/
inductive TaskPhase where
  | created
  | waiting (start : ℚ)
  | posting (r : Retry) (start : ℚ)
  | sleeping (r : Retry) (start : ℚ) (delay : Seconds) (doubles : Bool)

/-- The task holds a slot of the semaphore. -/
def TaskPhase.holds : TaskPhase → Bool
  | .posting _ _ => true
  | .sleeping _ _ _ _ => true
  | _ => false

/-- `cancelled` is set once `close` has cancelled the task. -/
structure GateTask (ι : Type*) where
  kind : TaskKind
  requestId : ι
  phase : TaskPhase
  cancelled : Bool

/-- What a POST of a task ends in. -/
inductive GateVerdict where
  | delivered
  | authFailure
  | tierNotEntitled
  | clientError
  | pause (delay : Seconds) (doubles : Bool)

/-- The branches of `_forward_gate_request_one` and of `_notify_local_resolution_one` on
the status.  A 409 tells that the platform knows already. -/
def Retry.verdict (r : Retry) : PostFate → GateVerdict
  | .connectionError => .pause (.finite r.backoff) true
  | .response resp =>
      if 200 ≤ resp.status ∧ resp.status < 300 then .delivered
      else if resp.status = 401 then .authFailure
      else if resp.status = 402 then .tierNotEntitled
      else if resp.status = 409 then .delivered
      else if 400 ≤ resp.status ∧ resp.status < 500 ∧ resp.status ≠ 429 then .clientError
      else if resp.status = 429 then
        match parseRetryAfter resp with
        | some delay => .pause delay false
        | none => .pause (.finite r.backoff) true
      else .pause (.finite r.backoff) true

/-! ## The system -/

/-- Where `close` stands: it waits for the audit queue, then for the tasks. -/
inductive GateClosePhase where
  | notCalled
  | draining
  | gathering
  | returned
  deriving DecidableEq

/-- `tasks` are the tasks that are not done.  `calls` counts the calls of
`forward_gate_request`, `pendingAtDeadline` the tasks that `close` cancelled, `recounted`
the gate requests whose log line raised after they were counted, and `uncounted` those
whose task ended outside of its handlers. -/
structure GateState (ι : Type*) where
  clock : ℚ
  stats : GateStats
  tasks : List (GateTask ι)
  forwardedRequestIds : List ι
  authFailed : Bool
  tierNotEntitledLatch : Bool
  started : Bool
  closed : Bool
  closing : GateClosePhase
  calls : ℕ
  pendingAtDeadline : ℕ
  recounted : ℕ
  uncounted : ℕ

namespace GateState

variable {ι : Type*}

def init : GateState ι where
  clock := 0
  stats := .zero
  tasks := []
  forwardedRequestIds := []
  authFailed := false
  tierNotEntitledLatch := false
  started := false
  closed := false
  closing := .notCalled
  calls := 0
  pendingAtDeadline := 0
  recounted := 0
  uncounted := 0

/-- The calls that return without a task. -/
def disabled (s : GateState ι) : Bool :=
  s.authFailed || s.tierNotEntitledLatch || s.closed || !s.started

/-- `_gate_forward_sem.locked()` -/
def saturated (s : GateState ι) : Prop :=
  maxConcurrentGateForwards ≤ s.tasks.countP fun task => task.phase.holds

instance (s : GateState ι) : Decidable s.saturated :=
  inferInstanceAs
    (Decidable (maxConcurrentGateForwards ≤ s.tasks.countP fun task => task.phase.holds))

section Steps

variable (cfg : PlatformConfig) (s : GateState ι) (before after : List (GateTask ι))
  (task : GateTask ι)

def forwardGateRequest (requestId : ι) : GateState ι :=
  if s.disabled then { s with stats := s.stats.dropped .gateRequest, calls := s.calls + 1 }
  else
    { s with
      tasks := s.tasks ++ [⟨.gateRequest, requestId, .created, false⟩]
      calls := s.calls + 1 }

/-- A gate that the platform has never seen is not reported. -/
def notifyLocalResolution [DecidableEq ι] (requestId : ι) : GateState ι :=
  if s.disabled then { s with stats := s.stats.dropped .localResolution }
  else if requestId ∉ s.forwardedRequestIds then s
  else { s with tasks := s.tasks ++ [⟨.localResolution, requestId, .created, false⟩] }

/-- The task is done. -/
def finish (stats : GateStats) : GateState ι := { s with stats := stats, tasks := before ++ after }

def suspend (phase : TaskPhase) : GateState ι :=
  { s with tasks := before ++ { task with phase := phase } :: after }

/-- The head of the retry loop, up to the await of the POST. -/
def loopHead (r : Retry) (start : ℚ) : GateState ι :=
  if maxCumulativeRetrySeconds ≤ s.clock - start then
    s.finish before after (s.stats.dropped task.kind)
  else if cfg.maxRetries < r.attempt then s.finish before after (s.stats.dropped task.kind)
  else s.suspend before after task (.posting r start)

/-- The first step of a task. -/
def begin : GateState ι :=
  if s.saturated then
    { s with stats := s.stats.queued task.kind }.suspend before after task (.waiting s.clock)
  else s.loopHead cfg before after task .first s.clock

/-- The conversion to the wire format, ahead of the handlers, raises. -/
def wireFails : GateState ι :=
  { s.finish before after s.stats with
    uncounted := if task.kind = .gateRequest then s.uncounted + 1 else s.uncounted }

/-- `_sleep_with_cap`, which gives up once the budget is used. -/
def pause (r : Retry) (start : ℚ) (delay : Seconds) (doubles : Bool) : GateState ι :=
  if maxCumulativeRetrySeconds - (s.clock - start) ≤ 0 then
    s.finish before after (s.stats.dropped task.kind)
  else s.suspend before after task (.sleeping r start delay doubles)

/-- The platform has the gate.  Over the cap the set gives up one of its elements, and
which one is left open; a duplicate does not look at the cap. -/
def remember [DecidableEq ι] (evicted : Option ι) : GateState ι :=
  if task.kind = .gateRequest then
    { s with
      forwardedRequestIds :=
        (match evicted with
          | some id => s.forwardedRequestIds.erase id
          | none => s.forwardedRequestIds).insert task.requestId }
  else s

/-- A client error is counted, and the line on it is logged.  The task's handler counts
what the line raises. -/
def clientError : LogFate → GateState ι
  | .printed => s.finish before after (s.stats.dropped task.kind)
  | .raised =>
      { s.finish before after ((s.stats.dropped task.kind).dropped task.kind) with
        recounted := if task.kind = .gateRequest then s.recounted + 1 else s.recounted }

/-- The POST of the task has ended.  The handler of a 402 logs ahead of the task's count,
so that the task counts itself once whatever the line comes to. -/
def respond [DecidableEq ι] (r : Retry) (start : ℚ) (fate : PostFate) (evicted : Option ι)
    (log : LogFate) : GateState ι :=
  match r.verdict fate with
  | .delivered => (s.remember task evicted).finish before after (s.stats.sent task.kind)
  | .authFailure =>
      { s with authFailed := true }.finish before after (s.stats.terminal.dropped task.kind)
  | .tierNotEntitled =>
      { s with tierNotEntitledLatch := true }.finish before after
        (s.stats.terminal.dropped task.kind)
  | .clientError => s.clientError before after task log
  | .pause delay doubles =>
      { s with stats := s.stats.retry }.pause before after task r start delay doubles

/-- `CancelledError` reaches the task.  A task that has not made its first step is not
entered any more. -/
def cancel : GateState ι :=
  match task.phase with
  | .created => s.wireFails before after task
  | _ => s.finish before after (s.stats.dropped task.kind)

/-- The deadline of `close`: it cancels the tasks that are left, and counts them. -/
def deadline : GateState ι :=
  { s with
    tasks := s.tasks.map fun task => { task with cancelled := true }
    stats :=
      { s.stats with gateRequestsDropped := s.stats.gateRequestsDropped + s.tasks.length }
    closing := .returned
    pendingAtDeadline := s.pendingAtDeadline + s.tasks.length }

end Steps

end GateState

/-- The steps of the client.  A task that `close` has cancelled only receives its
cancellation. -/
inductive GateStep {ι : Type*} [DecidableEq ι] (cfg : PlatformConfig) :
    GateState ι → GateState ι → Prop
  | tick (s : GateState ι) (d : ℚ) (hd : 0 ≤ d) : GateStep cfg s { s with clock := s.clock + d }
  | start (s : GateState ι) : GateStep cfg s { s with started := true }
  | forwardGateRequest (s : GateState ι) (requestId : ι) :
      GateStep cfg s (s.forwardGateRequest requestId)
  | notifyLocalResolution (s : GateState ι) (requestId : ι) :
      GateStep cfg s (s.notifyLocalResolution requestId)
  | begin (s : GateState ι) (before after : List (GateTask ι)) (task : GateTask ι)
      (htasks : s.tasks = before ++ task :: after) (hphase : task.phase = .created)
      (hlive : task.cancelled = false) : GateStep cfg s (s.begin cfg before after task)
  | wireFails (s : GateState ι) (before after : List (GateTask ι)) (task : GateTask ι)
      (htasks : s.tasks = before ++ task :: after) (hphase : task.phase = .created)
      (hlive : task.cancelled = false) : GateStep cfg s (s.wireFails before after task)
  | acquire (s : GateState ι) (before after : List (GateTask ι)) (task : GateTask ι) (start : ℚ)
      (htasks : s.tasks = before ++ task :: after) (hphase : task.phase = .waiting start)
      (hlive : task.cancelled = false) (hfree : ¬s.saturated) :
      GateStep cfg s (s.loopHead cfg before after task .first start)
  | respond (s : GateState ι) (before after : List (GateTask ι)) (task : GateTask ι) (r : Retry)
      (start : ℚ) (fate : PostFate) (evicted : Option ι) (log : LogFate)
      (htasks : s.tasks = before ++ task :: after) (hphase : task.phase = .posting r start)
      (hlive : task.cancelled = false)
      (hevicted : evicted.isSome → forwardedRequestIdsCap ≤ s.forwardedRequestIds.length) :
      GateStep cfg s (s.respond before after task r start fate evicted log)
  | wake (s : GateState ι) (before after : List (GateTask ι)) (task : GateTask ι) (r : Retry)
      (start : ℚ) (delay : Seconds) (doubles : Bool)
      (htasks : s.tasks = before ++ task :: after)
      (hphase : task.phase = .sleeping r start delay doubles) (hlive : task.cancelled = false) :
      GateStep cfg s (s.loopHead cfg before after task (r.again doubles) start)
  /-- an exception that the retry loop does not catch -/
  | unexpected (s : GateState ι) (before after : List (GateTask ι)) (task : GateTask ι)
      (htasks : s.tasks = before ++ task :: after) (hholds : task.phase.holds)
      (hlive : task.cancelled = false) :
      GateStep cfg s (s.finish before after (s.stats.dropped task.kind))
  | cancel (s : GateState ι) (before after : List (GateTask ι)) (task : GateTask ι)
      (htasks : s.tasks = before ++ task :: after) : GateStep cfg s (s.cancel before after task)
  | close (s : GateState ι) (hclosed : s.closed = false) :
      GateStep cfg s { s with closed := true, closing := .draining }
  /-- the audit queue is drained, or its deadline is over -/
  | drained (s : GateState ι) (hclosing : s.closing = .draining) :
      GateStep cfg s { s with closing := .gathering }
  | gathered (s : GateState ι) (hclosing : s.closing = .gathering) (htasks : s.tasks = []) :
      GateStep cfg s { s with closing := .returned }
  | deadline (s : GateState ι) (hclosing : s.closing = .gathering) : GateStep cfg s s.deadline

/-- A client that was just constructed, at any time. -/
def gateSystem {ι : Type*} [DecidableEq ι] (cfg : PlatformConfig) : System (GateState ι) where
  init s := ∃ clock, s = { GateState.init with clock := clock }
  step := GateStep cfg

/-! ## What every step adds -/

namespace GateState

variable {ι : Type*} {cfg : PlatformConfig} {s t : GateState ι} {before after : List (GateTask ι)}
  {task : GateTask ι}

/-- The gate requests whose task is not done. -/
def pendingGates (tasks : List (GateTask ι)) : ℕ :=
  tasks.countP fun task => task.kind = .gateRequest

/-- The counted gate requests. -/
def counted (stats : GateStats) : ℕ := stats.gateRequestsSent + stats.gateRequestsDropped

/-- A gate request is counted, pending, or lost to the counters; `close` counts each task
that is left at its deadline once more, and a task itself where its log line raises. -/
def Balanced (s : GateState ι) : Prop :=
  counted s.stats + pendingGates s.tasks + s.uncounted =
    s.calls + s.pendingAtDeadline + s.recounted

theorem pendingGates_split (before after : List (GateTask ι)) (task : GateTask ι) :
    pendingGates (before ++ task :: after) =
      pendingGates (before ++ after) + if task.kind = .gateRequest then 1 else 0 := by
  simp only [pendingGates, List.countP_append, List.countP_cons, decide_eq_true_eq]
  omega

theorem counted_sent (stats : GateStats) (kind : TaskKind) :
    counted (stats.sent kind) = counted stats + if kind = .gateRequest then 1 else 0 := by
  cases kind with
  | gateRequest =>
      simp only [counted, GateStats.sent, if_true]
      omega
  | localResolution => rfl

theorem counted_dropped (stats : GateStats) (kind : TaskKind) :
    counted (stats.dropped kind) = counted stats + if kind = .gateRequest then 1 else 0 := by
  cases kind with
  | gateRequest =>
      simp only [counted, GateStats.dropped, if_true]
      omega
  | localResolution => rfl

theorem counted_queued (stats : GateStats) (kind : TaskKind) :
    counted (stats.queued kind) = counted stats := by
  cases kind with
  | gateRequest => rfl
  | localResolution => rfl

/-- A task that counts itself at its end. -/
theorem Balanced.finish (h : s.Balanced) (htasks : s.tasks = before ++ task :: after)
    {stats : GateStats}
    (hstats : counted stats = counted s.stats + if task.kind = .gateRequest then 1 else 0) :
    (s.finish before after stats).Balanced := by
  have hsplit := pendingGates_split before after task
  rw [Balanced, htasks] at h
  change counted stats + pendingGates (before ++ after) + s.uncounted =
    s.calls + s.pendingAtDeadline + s.recounted
  omega

theorem Balanced.drop (h : s.Balanced) (htasks : s.tasks = before ++ task :: after) :
    (s.finish before after (s.stats.dropped task.kind)).Balanced :=
  h.finish htasks (counted_dropped s.stats task.kind)

theorem Balanced.suspend (h : s.Balanced) (htasks : s.tasks = before ++ task :: after)
    (phase : TaskPhase) : (s.suspend before after task phase).Balanced := by
  have hsplit := pendingGates_split before after task
  have hsplit' : pendingGates (before ++ { task with phase := phase } :: after) =
      pendingGates (before ++ after) + if task.kind = .gateRequest then 1 else 0 :=
    pendingGates_split before after { task with phase := phase }
  rw [Balanced, htasks] at h
  change counted s.stats + pendingGates (before ++ { task with phase := phase } :: after) +
    s.uncounted = s.calls + s.pendingAtDeadline + s.recounted
  omega

theorem Balanced.loopHead (h : s.Balanced) (htasks : s.tasks = before ++ task :: after)
    (r : Retry) (start : ℚ) : (s.loopHead cfg before after task r start).Balanced := by
  rw [GateState.loopHead]
  split
  · exact h.drop htasks
  · split
    · exact h.drop htasks
    · exact h.suspend htasks _

/-- The counters that a step of a task leaves alone may be exchanged. -/
theorem Balanced.of_counted (h : s.Balanced) {stats : GateStats}
    (hstats : counted stats = counted s.stats) : Balanced { s with stats := stats } := by
  change counted stats + pendingGates s.tasks + s.uncounted =
    s.calls + s.pendingAtDeadline + s.recounted
  rw [hstats]
  exact h

theorem Balanced.begin (h : s.Balanced) (htasks : s.tasks = before ++ task :: after) :
    (s.begin cfg before after task).Balanced := by
  rw [GateState.begin]
  split
  · have hqueued := h.of_counted (counted_queued s.stats task.kind)
    exact hqueued.suspend htasks _
  · exact h.loopHead htasks _ _

theorem Balanced.wireFails (h : s.Balanced) (htasks : s.tasks = before ++ task :: after) :
    (s.wireFails before after task).Balanced := by
  have hsplit := pendingGates_split before after task
  rw [Balanced, htasks] at h
  change counted s.stats + pendingGates (before ++ after) +
    (if task.kind = .gateRequest then s.uncounted + 1 else s.uncounted) =
      s.calls + s.pendingAtDeadline + s.recounted
  by_cases hkind : task.kind = .gateRequest
  · rw [if_pos hkind] at hsplit ⊢
    omega
  · rw [if_neg hkind] at hsplit ⊢
    omega

theorem Balanced.pause (h : s.Balanced) (htasks : s.tasks = before ++ task :: after) (r : Retry)
    (start : ℚ) (delay : Seconds) (doubles : Bool) :
    (s.pause before after task r start delay doubles).Balanced := by
  rw [GateState.pause]
  split
  · exact h.drop htasks
  · exact h.suspend htasks _

theorem Balanced.remember [DecidableEq ι] (h : s.Balanced) (task : GateTask ι)
    (evicted : Option ι) : (s.remember task evicted).Balanced := by
  unfold GateState.remember
  split
  · exact h
  · exact h

theorem remember_tasks [DecidableEq ι] (s : GateState ι) (task : GateTask ι) (evicted : Option ι) :
    (s.remember task evicted).tasks = s.tasks ∧ (s.remember task evicted).stats = s.stats := by
  unfold GateState.remember
  split
  · exact ⟨rfl, rfl⟩
  · exact ⟨rfl, rfl⟩

theorem Balanced.clientError (h : s.Balanced) (htasks : s.tasks = before ++ task :: after)
    (log : LogFate) : (s.clientError before after task log).Balanced := by
  cases log with
  | printed => exact h.drop htasks
  | raised =>
      have hsplit := pendingGates_split before after task
      have honce := counted_dropped s.stats task.kind
      have htwice := counted_dropped (s.stats.dropped task.kind) task.kind
      rw [Balanced, htasks] at h
      change counted ((s.stats.dropped task.kind).dropped task.kind) +
        pendingGates (before ++ after) + s.uncounted = s.calls + s.pendingAtDeadline +
          (if task.kind = .gateRequest then s.recounted + 1 else s.recounted)
      by_cases hkind : task.kind = .gateRequest
      · rw [if_pos hkind] at hsplit honce htwice ⊢
        omega
      · rw [if_neg hkind] at hsplit honce htwice ⊢
        omega

theorem Balanced.respond [DecidableEq ι] (h : s.Balanced)
    (htasks : s.tasks = before ++ task :: after) (r : Retry) (start : ℚ) (fate : PostFate)
    (evicted : Option ι) (log : LogFate) :
    (s.respond before after task r start fate evicted log).Balanced := by
  rw [GateState.respond]
  rcases r.verdict fate with _ | _ | _ | _ | ⟨delay, doubles⟩
  · obtain ⟨hsame, hstats⟩ := remember_tasks s task evicted
    apply (h.remember task evicted).finish (hsame.trans htasks)
    rw [hstats]
    exact counted_sent s.stats task.kind
  · have hlatched : Balanced { s with authFailed := true } := h
    exact hlatched.finish htasks (counted_dropped s.stats.terminal task.kind)
  · have hlatched : Balanced { s with tierNotEntitledLatch := true } := h
    exact hlatched.finish htasks (counted_dropped s.stats.terminal task.kind)
  · exact h.clientError htasks log
  · have hretry : Balanced { s with stats := s.stats.retry } := h.of_counted rfl
    exact hretry.pause htasks r start delay doubles

theorem Balanced.cancel (h : s.Balanced) (htasks : s.tasks = before ++ task :: after) :
    (s.cancel before after task).Balanced := by
  rw [GateState.cancel]
  split
  · exact h.wireFails htasks
  · exact h.drop htasks

theorem Balanced.forwardGateRequest (h : s.Balanced) (requestId : ι) :
    (s.forwardGateRequest requestId).Balanced := by
  rw [Balanced] at h
  rw [GateState.forwardGateRequest]
  split
  · have hdropped : counted (s.stats.dropped .gateRequest) = counted s.stats + 1 :=
      counted_dropped s.stats .gateRequest
    change counted (s.stats.dropped .gateRequest) + pendingGates s.tasks + s.uncounted =
      s.calls + 1 + s.pendingAtDeadline + s.recounted
    omega
  · have hsplit := pendingGates_split s.tasks [] ⟨.gateRequest, requestId, .created, false⟩
    rw [List.append_nil, if_pos rfl] at hsplit
    change counted s.stats +
      pendingGates (s.tasks ++ [⟨.gateRequest, requestId, .created, false⟩]) + s.uncounted =
        s.calls + 1 + s.pendingAtDeadline + s.recounted
    omega

theorem Balanced.notifyLocalResolution [DecidableEq ι] (h : s.Balanced) (requestId : ι) :
    (s.notifyLocalResolution requestId).Balanced := by
  rw [GateState.notifyLocalResolution]
  split
  · exact h.of_counted rfl
  · split
    · exact h
    · have hsplit := pendingGates_split s.tasks [] ⟨.localResolution, requestId, .created, false⟩
      rw [List.append_nil, if_neg (by simp)] at hsplit
      rw [Balanced] at h
      change counted s.stats +
        pendingGates (s.tasks ++ [⟨.localResolution, requestId, .created, false⟩]) +
          s.uncounted = s.calls + s.pendingAtDeadline + s.recounted
      omega

theorem Balanced.deadline (h : s.Balanced) : s.deadline.Balanced := by
  have hsame : pendingGates (s.tasks.map fun task => { task with cancelled := true }) =
      pendingGates s.tasks := by
    rw [pendingGates, List.countP_map]
    rfl
  rw [Balanced, counted] at h
  change s.stats.gateRequestsSent + (s.stats.gateRequestsDropped + s.tasks.length) +
    pendingGates (s.tasks.map fun task => { task with cancelled := true }) + s.uncounted =
      s.calls + (s.pendingAtDeadline + s.tasks.length) + s.recounted
  omega

/-- Every step keeps the balance. -/
theorem balanced_step [DecidableEq ι] (h : s.Balanced) (hstep : GateStep cfg s t) :
    t.Balanced := by
  cases hstep with
  | tick d hd => exact h
  | start => exact h
  | forwardGateRequest requestId => exact h.forwardGateRequest requestId
  | notifyLocalResolution requestId => exact h.notifyLocalResolution requestId
  | begin before after task htasks hphase hlive => exact h.begin htasks
  | wireFails before after task htasks hphase hlive => exact h.wireFails htasks
  | acquire before after task start htasks hphase hlive hfree =>
      exact h.loopHead htasks .first start
  | respond before after task r start fate evicted log htasks hphase hlive hevicted =>
      exact h.respond htasks r start fate evicted log
  | wake before after task r start delay doubles htasks hphase hlive =>
      exact h.loopHead htasks (r.again doubles) start
  | unexpected before after task htasks hholds hlive => exact h.drop htasks
  | cancel before after task htasks => exact h.cancel htasks
  | close hclosed => exact h
  | drained hclosing => exact h
  | gathered hclosing htasks => exact h
  | deadline hclosing => exact h.deadline

theorem balanced_of_reachable [DecidableEq ι] (h : (gateSystem cfg).Reachable s) : s.Balanced := by
  refine System.invariant ?_ ?_ h
  · rintro s ⟨clock, rfl⟩
    rfl
  · intro s t _ hbalanced hstep
    exact balanced_step hbalanced hstep

end GateState

/-! ## Conservation -/

/-- Once all tasks are done, every gate request is counted once exactly when the tasks that
`close` found at its deadline and the gate requests whose log line raised are as many as
the gate requests whose task ended outside of its handlers. -/
theorem gate_forward_conserved_iff {ι : Type*} [DecidableEq ι] {cfg : PlatformConfig}
    {s : GateState ι} (hreach : (gateSystem cfg).Reachable s) (hdone : s.tasks = []) :
    s.stats.gateRequestsSent + s.stats.gateRequestsDropped = s.calls ↔
      s.pendingAtDeadline + s.recounted = s.uncounted := by
  have hbalanced := GateState.balanced_of_reachable hreach
  rw [GateState.Balanced, hdone] at hbalanced
  change s.stats.gateRequestsSent + s.stats.gateRequestsDropped + 0 + s.uncounted = _ at hbalanced
  omega

/-- A gate request that is delivered before `close`. -/
theorem delivered_gate_counted :
    ∃ s : GateState ℕ, s.tasks = [] ∧ s.closing = .returned ∧ s.calls = 1 ∧
      (s.stats.gateRequestsSent + s.stats.gateRequestsDropped = s.calls ↔
        s.pendingAtDeadline + s.recounted = s.uncounted) := by
  have hinit : (gateSystem ⟨1000, 4, by decide⟩).Reachable (GateState.init : GateState ℕ) :=
    .start ⟨0, rfl⟩
  have hcreated := (hinit.next (.start _)).next (.forwardGateRequest _ 7)
  have hposting := hcreated.next
    (.begin _ [] [] ⟨.gateRequest, 7, .created, false⟩ rfl rfl rfl)
  have hsent := hposting.next
    (.respond _ [] [] ⟨.gateRequest, 7, .posting .first 0, false⟩ .first 0
      (.response ⟨201, none, none⟩) none .printed (by with_unfolding_all rfl) rfl rfl (by simp))
  have hclosed := ((hsent.next (.close _ (by with_unfolding_all rfl))).next (.drained _ rfl)).next
    (.gathered _ rfl (by with_unfolding_all rfl))
  exact ⟨_, by with_unfolding_all rfl, rfl, by with_unfolding_all rfl,
    gate_forward_conserved_iff hclosed (by with_unfolding_all rfl)⟩

/-- The POST of a gate request hangs until the deadline of `close`, which counts the request
before its task does. -/
theorem hanging_gate_counted_twice :
    ∃ s : GateState ℕ, (gateSystem ⟨1000, 4, by decide⟩).Reachable s ∧ s.tasks = [] ∧
      s.closing = .returned ∧ s.calls = 1 ∧ s.stats.gateRequestsSent = 0 ∧
      s.stats.gateRequestsDropped = 2 := by
  have hinit : (gateSystem ⟨1000, 4, by decide⟩).Reachable (GateState.init : GateState ℕ) :=
    .start ⟨0, rfl⟩
  have hcreated := (hinit.next (.start _)).next (.forwardGateRequest _ 7)
  have hposting := hcreated.next
    (.begin _ [] [] ⟨.gateRequest, 7, .created, false⟩ rfl rfl rfl)
  have hdeadline := ((hposting.next (.close _ (by with_unfolding_all rfl))).next
    (.drained _ rfl)).next (.deadline _ rfl)
  have hcancelled := hdeadline.next
    (.cancel _ [] [] ⟨.gateRequest, 7, .posting .first 0, true⟩ (by with_unfolding_all rfl))
  exact ⟨_, hcancelled, by with_unfolding_all rfl, by with_unfolding_all rfl,
    by with_unfolding_all rfl, by with_unfolding_all rfl, by with_unfolding_all rfl⟩

end AgenticGovernance.Platform

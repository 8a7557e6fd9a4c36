import Mathlib
import AgenticGovernance.Audit.Backend
import AgenticGovernance.Support.Transition

/-!
# The batching writer

`BatchingWriter` keeps queued events in a buffer.  A flush takes the whole buffer, writes it
to the primary, spills it to the fallback when that fails, and puts back what fits when both
fail.  Flushes are made by `flush`, by the background loop `_run` and by `close`, so several
may be under way at once; `close` cancels the loop when it does not end in time.

A step of the model runs from one `await` to the next.  The lock is held across an `await`
only by an `enqueue` that spills, so that `lock` names the task that spills.
-/

namespace AgenticGovernance.Audit

open Support

/-! ## Stores that lose nothing -/

/-- A store as the writer uses it.  The stores tell events apart by their ids.  A call of
`write_batch` that does not return (it raises, times out or is cancelled) may have written
anything, but nothing leaves the store. -/
structure BatchStore where
  Store : Type
  Holds : Store → Uuid → Prop
  /-- `write_batch` leaves the second store and returns, or does not -/
  WriteBatch : Store → List AuditEventRecord → Store → Bool → Prop
  keeps : ∀ {st batch st' ok id}, WriteBatch st batch st' ok → Holds st id → Holds st' id
  stores : ∀ {st batch st' r}, WriteBatch st batch st' true → r ∈ batch →
    Holds st' r.eventId

namespace MemoryAudit

variable {σ σ' : MemoryAudit} {records : List AuditEventRecord} {ok : Bool} {id : Uuid}

/-- With `on_full='raise'` a batch only adds events, and all of them when it returns. -/
theorem writeBatch_isSome (hraise : σ.onFull = .raise)
    (h : σ.writeBatch records = (σ', ok)) :
    (∀ id, (σ.events id).isSome → (σ'.events id).isSome) ∧
      (ok = true → ∀ r ∈ records, (σ'.events r.eventId).isSome) := by
  fun_induction writeBatch σ records with
  | case1 σ =>
      obtain ⟨rfl, rfl⟩ := Prod.mk.inj h
      exact ⟨fun _ hid => hid, by simp⟩
  | case2 σ r records hknown ih =>
      obtain ⟨hkept, hstored⟩ := ih hraise h
      refine ⟨hkept, fun hok x hx => ?_⟩
      rcases List.mem_cons.mp hx with rfl | hx
      · exact hkept _ hknown
      · exact hstored hok x hx
  | case3 σ r records hnew hfull =>
      rw [refused_of_raise hraise] at h
      obtain ⟨rfl, rfl⟩ := Prod.mk.inj h
      exact ⟨fun _ hid => hid, by simp⟩
  | case4 σ r records hnew σ₁ hroom ih =>
      obtain rfl : σ₁ = σ := by
        rw [enforceCapBeforeAppend, hraise] at hroom
        split at hroom
        · exact (Option.some.inj hroom).symm
        · cases hroom
      have hadded : ∀ id, (σ₁.events id).isSome ∨ id = r.eventId →
          ((σ₁.append r.sessionId r).events id).isSome := by
        intro id hid
        change (Function.update σ₁.events r.eventId (some r) id).isSome
        by_cases heq : id = r.eventId
        · rw [heq, Function.update_self]
          rfl
        · rw [Function.update_of_ne heq]
          exact hid.resolve_right heq
      obtain ⟨hkept, hstored⟩ := ih hraise h
      refine ⟨fun id hid => hkept id (hadded id (Or.inl hid)), fun hok x hx => ?_⟩
      rcases List.mem_cons.mp hx with rfl | hx
      · exact hkept _ (hadded _ (Or.inr rfl))
      · exact hstored hok x hx

/-- `InMemoryAuditStore` with `on_full='raise'`.  Its `write_batch` can be interrupted only
before it holds the lock. -/
def batchStore : BatchStore where
  Store := { σ : MemoryAudit // σ.onFull = .raise }
  Holds σ id := (σ.val.events id).isSome
  WriteBatch σ batch σ' ok := σ.val.writeBatch batch = (σ'.val, ok) ∨ ok = false ∧ σ' = σ
  keeps := by
    rintro σ batch σ' ok id (h | ⟨-, rfl⟩) hid
    · exact (writeBatch_isSome σ.property h).1 id hid
    · exact hid
  stores := by
    rintro σ batch σ' r (h | ⟨hfalse, -⟩) hr
    · exact (writeBatch_isSome σ.property h).2 rfl r hr
    · cases hfalse

end MemoryAudit

namespace PostgresAudit

variable {τ τ' : PostgresAudit} {records : List AuditEventRecord} {ok : Bool}

theorem insertRows_holds (h : τ.insertRows records = (τ', true)) :
    τ.rows ⊆ τ'.rows ∧ ∀ r ∈ records, ∃ row ∈ τ'.rows, row.record = r := by
  induction records generalizing τ with
  | nil =>
      obtain ⟨rfl, -⟩ := Prod.mk.inj h
      exact ⟨List.Subset.refl _, by simp⟩
  | cons r records ih =>
      rw [insertRows, insertRow] at h
      split_ifs at h with hknown
      · cases (Prod.mk.inj h).2
      · obtain ⟨hkept, hstored⟩ := ih h
        refine ⟨List.Subset.trans (List.subset_append_left _ _) hkept, fun x hx => ?_⟩
        rcases List.mem_cons.mp hx with rfl | hx
        · exact ⟨_, hkept (List.mem_append_right _ (List.mem_singleton.mpr rfl)), rfl⟩
        · exact hstored x hx

theorem writeBatch_holds (h : τ.writeBatch records = (τ', ok)) :
    τ.rows ⊆ τ'.rows ∧ (ok = true → ∀ r ∈ records, ∃ row ∈ τ'.rows, row.record = r) := by
  rw [writeBatch] at h
  rcases hrows : τ.insertRows records with ⟨τ₁, _ | _⟩
  · rw [hrows] at h
    obtain ⟨rfl, rfl⟩ := Prod.mk.inj h
    exact ⟨List.Subset.refl _, by simp⟩
  · rw [hrows] at h
    obtain ⟨rfl, rfl⟩ := Prod.mk.inj h
    obtain ⟨hkept, hstored⟩ := insertRows_holds hrows
    exact ⟨hkept, fun _ => hstored⟩

/-- `PostgresAuditStore`.  A call that does not return has rolled back or committed. -/
def batchStore : BatchStore where
  Store := PostgresAudit
  Holds τ id := ∃ row ∈ τ.rows, row.record.eventId = id
  WriteBatch τ batch τ' ok :=
    τ.writeBatch batch = (τ', ok) ∨ ok = false ∧ (τ' = τ ∨ τ' = (τ.writeBatch batch).1)
  keeps := by
    rintro τ batch τ' ok id (h | ⟨-, rfl | rfl⟩) ⟨row, hrow, rfl⟩
    · exact ⟨row, (writeBatch_holds h).1 hrow, rfl⟩
    · exact ⟨row, hrow, rfl⟩
    · exact ⟨row, (writeBatch_holds rfl).1 hrow, rfl⟩
  stores := by
    rintro τ batch τ' r (h | ⟨hfalse, -⟩) hr
    · obtain ⟨row, hrow, hrec⟩ := (writeBatch_holds h).2 rfl r hr
      exact ⟨row, hrow, by rw [hrec]⟩
    · cases hfalse

end PostgresAudit

/-! ## The writer -/

/-- Where a call of `_flush_once` stands. -/
inductive FlushStage where
  | idle
  | locking
  /-- in `self._primary.write_batch(batch)` -/
  | primary (batch : List AuditEventRecord)
  /-- in `self._fallback.write_batch(batch)` -/
  | fallback (batch : List AuditEventRecord)
  /-- acquiring the lock to put the batch back -/
  | requeue (batch : List AuditEventRecord)

/-- The events that only the flush holds. -/
def FlushStage.batch : FlushStage → List AuditEventRecord
  | idle => []
  | locking => []
  | primary batch => batch
  | fallback batch => batch
  | requeue batch => batch

/-- Where a task that uses the writer stands. -/
inductive WriterTask where
  | idle
  /-- in `enqueue`, past the test of `_closed` -/
  | enqueueing (event : AuditEventRecord)
  | spilling (event : AuditEventRecord)
  | flushing
  /-- in `close`, waiting for the loop -/
  | joining
  | draining
  | disposing

/-- Where the task of `_run` stands. -/
inductive FlushLoop where
  | absent
  /-- at the test of `while not self._closed` -/
  | top
  | waiting
  | flushing
  | ended

structure WriterConfig where
  batchSize : ℕ
  bufferMax : ℕ

/-- The writer with its stores and the tasks that use it.  The loop flushes as `none`, the
tasks as `some i`. -/
structure WriterState (P F : BatchStore) (ι : Type) where
  primary : P.Store
  fallback : F.Store
  buffer : List AuditEventRecord
  lock : Option ι
  flushRequested : Bool
  closed : Bool
  degraded : Bool
  loop : FlushLoop
  tasks : ι → WriterTask
  stages : Option ι → FlushStage
  /-- the events for which `enqueue` has returned -/
  accepted : List AuditEventRecord

inductive WriterAct (ι : Type) where
  | start
  | test
  | wake
  | loopFlushed
  | callEnqueue (i : ι) (event : AuditEventRecord)
  | refuse (i : ι) (event : AuditEventRecord)
  | append (i : ι)
  | spill (i : ι)
  | spilled (i : ι) (ok : Bool)
  | callFlush (i : ι)
  | take (o : Option ι)
  | writePrimary (o : Option ι) (ok : Bool)
  | writeFallback (o : Option ι) (ok : Bool)
  | requeue (o : Option ι)
  | flushed (i : ι)
  | callClose (i : ι)
  | join (i : ι)
  | cancel (i : ι)
  | joinRaises (i : ι)
  | drained (i : ι)
  | dispose (i : ι)

section Steps

variable {P F : BatchStore} {ι : Type} [DecidableEq ι]

namespace WriterState

variable (s : WriterState P F ι)

def setTask (i : ι) (t : WriterTask) : WriterState P F ι :=
  { s with tasks := Function.update s.tasks i t }

def setStage (o : Option ι) (st : FlushStage) : WriterState P F ι :=
  { s with stages := Function.update s.stages o st }

/-- `self._buffer.append(event)`, after which `enqueue` returns. -/
def push (cfg : WriterConfig) (event : AuditEventRecord) : WriterState P F ι :=
  { s with
    buffer := s.buffer ++ [event]
    flushRequested := s.flushRequested || decide (cfg.batchSize ≤ s.buffer.length + 1)
    accepted := event :: s.accepted }

/-- The last resort of `_flush_once`. -/
def putBack (cfg : WriterConfig) (batch : List AuditEventRecord) : WriterState P F ι :=
  { s with buffer := s.buffer ++ batch.take (cfg.bufferMax - s.buffer.length) }

end WriterState

/-- One step of the writer, from one `await` to the next. -/
inductive WriterStep (cfg : WriterConfig) :
    WriterState P F ι → WriterAct ι → WriterState P F ι → Prop where
  -- the background loop
  | start {s} (h : s.loop = .absent) : WriterStep cfg s .start { s with loop := .top }
  | testOpen {s} (h : s.loop = .top) (hopen : s.closed = false) :
      WriterStep cfg s .test { s with loop := .waiting }
  | testClosed {s} (h : s.loop = .top) (hclosed : s.closed = true) :
      WriterStep cfg s .test { s with loop := .ended }
  /-- the event is set, or the flush interval is over -/
  | wake {s} (h : s.loop = .waiting) :
      WriterStep cfg s .wake
        ({ s with loop := .flushing, flushRequested := false }.setStage none .locking)
  | loopFlushed {s} (h : s.loop = .flushing) (hstage : s.stages none = .idle) :
      WriterStep cfg s .loopFlushed { s with loop := .top }
  -- `enqueue`
  | callEnqueue {s i event} (h : s.tasks i = .idle) (hopen : s.closed = false) :
      WriterStep cfg s (.callEnqueue i event) (s.setTask i (.enqueueing event))
  | refuse {s i event} (h : s.tasks i = .idle) (hclosed : s.closed = true) :
      WriterStep cfg s (.refuse i event) s
  | append {s i event} (h : s.tasks i = .enqueueing event) (hlock : s.lock = none)
      (hroom : s.buffer.length < cfg.bufferMax) :
      WriterStep cfg s (.append i) ((s.push cfg event).setTask i .idle)
  | spill {s i event} (h : s.tasks i = .enqueueing event) (hlock : s.lock = none)
      (hfull : cfg.bufferMax ≤ s.buffer.length) :
      WriterStep cfg s (.spill i) ({ s with lock := some i }.setTask i (.spilling event))
  | spilled {s i event fallback} (h : s.tasks i = .spilling event)
      (hwrite : F.WriteBatch s.fallback [event] fallback true) :
      WriterStep cfg s (.spilled i true)
        ({ s with
          fallback := fallback
          lock := none
          accepted := event :: s.accepted }.setTask i .idle)
  | spillRaised {s i event fallback} (h : s.tasks i = .spilling event)
      (hwrite : F.WriteBatch s.fallback [event] fallback false) :
      WriterStep cfg s (.spilled i false)
        ({ s with fallback := fallback, lock := none }.setTask i .idle)
  -- `_flush_once`
  | callFlush {s i} (h : s.tasks i = .idle) :
      WriterStep cfg s (.callFlush i) ((s.setTask i .flushing).setStage (some i) .locking)
  | takeNothing {s o} (h : s.stages o = .locking) (hlock : s.lock = none)
      (hempty : s.buffer = []) : WriterStep cfg s (.take o) (s.setStage o .idle)
  | take {s o} (h : s.stages o = .locking) (hlock : s.lock = none)
      (hne : s.buffer ≠ []) :
      WriterStep cfg s (.take o) ({ s with buffer := [] }.setStage o (.primary s.buffer))
  | primaryWritten {s o batch primary} (h : s.stages o = .primary batch)
      (hwrite : P.WriteBatch s.primary batch primary true) :
      WriterStep cfg s (.writePrimary o true)
        ({ s with primary := primary, degraded := false }.setStage o .idle)
  | primaryFailed {s o batch primary} (h : s.stages o = .primary batch)
      (hwrite : P.WriteBatch s.primary batch primary false) :
      WriterStep cfg s (.writePrimary o false)
        ({ s with primary := primary, degraded := true }.setStage o (.fallback batch))
  | fallbackWritten {s o batch fallback} (h : s.stages o = .fallback batch)
      (hwrite : F.WriteBatch s.fallback batch fallback true) :
      WriterStep cfg s (.writeFallback o true)
        ({ s with fallback := fallback }.setStage o .idle)
  | fallbackFailed {s o batch fallback} (h : s.stages o = .fallback batch)
      (hwrite : F.WriteBatch s.fallback batch fallback false) :
      WriterStep cfg s (.writeFallback o false)
        ({ s with fallback := fallback }.setStage o (.requeue batch))
  | requeue {s o batch} (h : s.stages o = .requeue batch) (hlock : s.lock = none) :
      WriterStep cfg s (.requeue o) ((s.putBack cfg batch).setStage o .idle)
  | flushed {s i} (h : s.tasks i = .flushing) (hstage : s.stages (some i) = .idle) :
      WriterStep cfg s (.flushed i) (s.setTask i .idle)
  -- `close`
  | callClose {s i} (h : s.tasks i = .idle) :
      WriterStep cfg s (.callClose i)
        ({ s with closed := true, flushRequested := true }.setTask i .joining)
  | join {s i} (h : s.tasks i = .joining) (hdone : s.loop = .absent ∨ s.loop = .ended) :
      WriterStep cfg s (.join i)
        (({ s with loop := .absent }.setTask i .draining).setStage (some i) .locking)
  /-- The wait for the loop is over.  `CancelledError` is no `Exception`, so whatever the loop
  is doing ends there. -/
  | cancel {s i primary fallback} (h : s.tasks i = .joining)
      (hrunning : s.loop ≠ .absent ∧ s.loop ≠ .ended)
      (hprimary : primary = s.primary ∨ ∃ batch, s.stages none = .primary batch ∧
        P.WriteBatch s.primary batch primary false)
      (hfallback : fallback = s.fallback ∨ ∃ batch, s.stages none = .fallback batch ∧
        F.WriteBatch s.fallback batch fallback false) :
      WriterStep cfg s (.cancel i)
        ((({ s with
          loop := .absent
          primary := primary
          fallback := fallback }.setStage none .idle).setTask i .draining).setStage (some i)
            .locking)
  /-- the wait of a second `close` ends with the cancellation made by the first -/
  | joinRaises {s i} (h : s.tasks i = .joining) :
      WriterStep cfg s (.joinRaises i) (s.setTask i .idle)
  | drained {s i} (h : s.tasks i = .draining) (hstage : s.stages (some i) = .idle) :
      WriterStep cfg s (.drained i) (s.setTask i .disposing)
  | dispose {s i} (h : s.tasks i = .disposing) :
      WriterStep cfg s (.dispose i) (s.setTask i .idle)

def WriterState.initial (primary : P.Store) (fallback : F.Store) : WriterState P F ι where
  primary := primary
  fallback := fallback
  buffer := []
  lock := none
  flushRequested := false
  closed := false
  degraded := false
  loop := .absent
  tasks _ := .idle
  stages _ := .idle
  accepted := []

/-- The runs of a new writer whose steps all satisfy `C`. -/
def writerRuns (cfg : WriterConfig) (C : WriterState P F ι → WriterAct ι → Prop) :
    System (WriterState P F ι) where
  init s := ∃ primary fallback, s = .initial primary fallback
  step s t := ∃ a, WriterStep cfg s a t ∧ C s a

theorem writerRuns_mono {cfg : WriterConfig} {C D : WriterState P F ι → WriterAct ι → Prop}
    {s : WriterState P F ι} (h : (writerRuns cfg C).Reachable s) (hCD : ∀ s a, C s a → D s a) :
    (writerRuns cfg D).Reachable s := by
  refine System.invariant (M := writerRuns cfg C) (I := (writerRuns cfg D).Reachable)
    (fun _ hinit => .start hinit) ?_ h
  rintro s t - hs ⟨a, hstep, hC⟩
  exact hs.next ⟨a, hstep, hCD s a hC⟩

/-! ## Where an accepted event is -/

namespace WriterState

variable (s : WriterState P F ι)

/-- Some flush holds the event. -/
def InFlight (r : AuditEventRecord) : Prop := ∃ o, r ∈ (s.stages o).batch

def Keeps (r : AuditEventRecord) : Prop :=
  P.Holds s.primary r.eventId ∨ F.Holds s.fallback r.eventId ∨ r ∈ s.buffer ∨ s.InFlight r

/-- No operation of the writer is under way. -/
structure Quiescent : Prop where
  tasks : ∀ i, s.tasks i = .idle
  stages : ∀ o, s.stages o = .idle

/-- The owner of a flush is in a call of `_flush_once`. -/
def Flushes : Option ι → Prop
  | none => s.loop = .flushing
  | some i => s.tasks i = .flushing ∨ s.tasks i = .draining

def Orderly : Prop := ∀ o, s.stages o ≠ .idle → s.Flushes o

variable {s} {t : WriterState P F ι} {r : AuditEventRecord} {o o' : Option ι} {i : ι}
  {st : FlushStage} {pc : WriterTask} {l : FlushLoop}

theorem stages_setStage_self : (s.setStage o st).stages o = st :=
  Function.update_self ..

theorem stages_setStage_of_ne (h : o' ≠ o) : (s.setStage o st).stages o' = s.stages o' :=
  Function.update_of_ne h ..

theorem InFlight.setStage (h : s.InFlight r) (o : Option ι) (st : FlushStage) :
    r ∈ (s.stages o).batch ∨ (s.setStage o st).InFlight r := by
  obtain ⟨o', ho'⟩ := h
  by_cases heq : o' = o
  · exact Or.inl (heq ▸ ho')
  · exact Or.inr ⟨o', by rwa [stages_setStage_of_ne heq]⟩

theorem inFlight_setStage_self (h : r ∈ st.batch) : (s.setStage o st).InFlight r :=
  ⟨o, by rwa [stages_setStage_self]⟩

theorem Orderly.setStage (h : s.Orderly) (ho : st = .idle ∨ s.Flushes o) :
    (s.setStage o st).Orderly := by
  intro o' ho'
  by_cases heq : o' = o
  · subst heq
    rw [stages_setStage_self] at ho'
    exact ho.resolve_left ho'
  · rw [stages_setStage_of_ne heq] at ho'
    exact h o' ho'

theorem Orderly.setTask (h : s.Orderly)
    (hi : s.stages (some i) = .idle ∨ pc = .flushing ∨ pc = .draining) :
    (s.setTask i pc).Orderly := by
  intro o ho
  cases o with
  | none => exact h none ho
  | some j =>
      by_cases hj : j = i
      · subst hj
        change Function.update s.tasks j pc j = _ ∨ Function.update s.tasks j pc j = _
        rw [Function.update_self]
        exact hi.resolve_left ho
      · change Function.update s.tasks i pc j = _ ∨ Function.update s.tasks i pc j = _
        rw [Function.update_of_ne hj]
        exact h (some j) ho

omit [DecidableEq ι] in
theorem Orderly.setLoop (h : s.Orderly) (hl : s.stages none = .idle ∨ l = .flushing) :
    Orderly { s with loop := l } := by
  intro o ho
  cases o with
  | none => exact hl.resolve_left ho
  | some i => exact h (some i) ho

omit [DecidableEq ι] in
/-- A task that is not in `_flush_once` has no flush. -/
theorem Orderly.idle_of_task (h : s.Orderly) (htask : s.tasks i = pc)
    (hflush : pc ≠ .flushing) (hdrain : pc ≠ .draining) : s.stages (some i) = .idle := by
  by_contra hne
  rcases h (some i) hne with heq | heq
  · exact hflush (htask.symm.trans heq)
  · exact hdrain (htask.symm.trans heq)

omit [DecidableEq ι] in
theorem Orderly.idle_of_loop (h : s.Orderly) (hloop : s.loop = l) (hl : l ≠ .flushing) :
    s.stages none = .idle := by
  by_contra hne
  exact hl (hloop.symm.trans (h none hne))

theorem flushes_setTask (h : pc = .flushing ∨ pc = .draining) :
    (s.setTask i pc).Flushes (some i) := by
  change Function.update s.tasks i pc i = _ ∨ Function.update s.tasks i pc i = _
  rw [Function.update_self]
  exact h

end WriterState

variable {cfg : WriterConfig} {s t : WriterState P F ι} {a : WriterAct ι}

theorem WriterStep.orderly (h : WriterStep cfg s a t) (hs : s.Orderly) : t.Orderly := by
  cases h with
  | start h => exact hs.setLoop (Or.inl (hs.idle_of_loop h (by simp)))
  | testOpen h => exact hs.setLoop (Or.inl (hs.idle_of_loop h (by simp)))
  | testClosed h => exact hs.setLoop (Or.inl (hs.idle_of_loop h (by simp)))
  | wake =>
      have hloop : WriterState.Orderly
          { s with loop := .flushing, flushRequested := false } :=
        hs.setLoop (Or.inr rfl)
      exact hloop.setStage (Or.inr rfl)
  | loopFlushed h hstage => exact hs.setLoop (Or.inl hstage)
  | callEnqueue h => exact hs.setTask (Or.inl (hs.idle_of_task h (by simp) (by simp)))
  | refuse => exact hs
  | @append i event h =>
      have hpush : (s.push cfg event).Orderly := hs
      exact hpush.setTask (Or.inl (hs.idle_of_task h (by simp) (by simp)))
  | @spill i event h =>
      have hlocked : WriterState.Orderly { s with lock := some i } := hs
      exact hlocked.setTask (Or.inl (hs.idle_of_task h (by simp) (by simp)))
  | @spilled i event fallback h =>
      have hstored : WriterState.Orderly
          { s with fallback := fallback, lock := none, accepted := event :: s.accepted } := hs
      exact hstored.setTask (Or.inl (hs.idle_of_task h (by simp) (by simp)))
  | @spillRaised i event fallback h =>
      have hraised : WriterState.Orderly { s with fallback := fallback, lock := none } := hs
      exact hraised.setTask (Or.inl (hs.idle_of_task h (by simp) (by simp)))
  | callFlush =>
      exact (hs.setTask (Or.inr (Or.inl rfl))).setStage
        (Or.inr (WriterState.flushes_setTask (Or.inl rfl)))
  | takeNothing => exact hs.setStage (Or.inl rfl)
  | take h =>
      have htaken : WriterState.Orderly { s with buffer := [] } := hs
      exact htaken.setStage (Or.inr (hs _ (by simp [h])))
  | @primaryWritten o batch primary =>
      have hstored : WriterState.Orderly { s with primary := primary, degraded := false } := hs
      exact hstored.setStage (Or.inl rfl)
  | @primaryFailed o batch primary h =>
      have hfailed : WriterState.Orderly { s with primary := primary, degraded := true } := hs
      exact hfailed.setStage (Or.inr (hs _ (by simp [h])))
  | @fallbackWritten o batch fallback =>
      have hstored : WriterState.Orderly { s with fallback := fallback } := hs
      exact hstored.setStage (Or.inl rfl)
  | @fallbackFailed o batch fallback h =>
      have hfailed : WriterState.Orderly { s with fallback := fallback } := hs
      exact hfailed.setStage (Or.inr (hs _ (by simp [h])))
  | @requeue o batch =>
      have hback : (s.putBack cfg batch).Orderly := hs
      exact hback.setStage (Or.inl rfl)
  | flushed h hstage => exact hs.setTask (Or.inl hstage)
  | callClose h =>
      have hclosed : WriterState.Orderly { s with closed := true, flushRequested := true } := hs
      exact hclosed.setTask (Or.inl (hs.idle_of_task h (by simp) (by simp)))
  | join h hdone =>
      have hloop : s.stages none = .idle :=
        hdone.elim (fun h => hs.idle_of_loop h (by simp)) fun h => hs.idle_of_loop h (by simp)
      exact ((hs.setLoop (Or.inl hloop)).setTask (Or.inr (Or.inr rfl))).setStage
        (Or.inr (WriterState.flushes_setTask (Or.inr rfl)))
  | @cancel i primary fallback =>
      have hcleared : (s.setStage none .idle).Orderly := hs.setStage (Or.inl rfl)
      have hstopped : WriterState.Orderly
          ({ s with loop := .absent, primary := primary, fallback := fallback }.setStage none
            .idle) :=
        hcleared.setLoop (Or.inl WriterState.stages_setStage_self)
      exact (hstopped.setTask (Or.inr (Or.inr rfl))).setStage
        (Or.inr (WriterState.flushes_setTask (Or.inr rfl)))
  | joinRaises h => exact hs.setTask (Or.inl (hs.idle_of_task h (by simp) (by simp)))
  | drained h hstage => exact hs.setTask (Or.inl hstage)
  | dispose h => exact hs.setTask (Or.inl (hs.idle_of_task h (by simp) (by simp)))

/-! ## Nothing is dropped -/

namespace WriterState.Keeps

variable {r : AuditEventRecord} {o : Option ι} {st : FlushStage}

omit [DecidableEq ι] in
theorem of_buffer (h : r ∈ s.buffer) : s.Keeps r := Or.inr (Or.inr (Or.inl h))

omit [DecidableEq ι] in
theorem of_inFlight (h : s.InFlight r) : s.Keeps r := Or.inr (Or.inr (Or.inr h))

omit [DecidableEq ι] in
/-- Stores that lose nothing and a buffer that loses nothing keep an event. -/
theorem frame (h : s.Keeps r) (hprimary : ∀ id, P.Holds s.primary id → P.Holds t.primary id)
    (hfallback : ∀ id, F.Holds s.fallback id → F.Holds t.fallback id)
    (hbuffer : r ∈ s.buffer → r ∈ t.buffer) (hstages : t.stages = s.stages) : t.Keeps r := by
  rcases h with h | h | h | h
  · exact Or.inl (hprimary _ h)
  · exact Or.inr (Or.inl (hfallback _ h))
  · exact of_buffer (hbuffer h)
  · obtain ⟨o, ho⟩ := h
    exact of_inFlight ⟨o, by rwa [hstages]⟩

/-- A flush moves on; the events of its batch have to be somewhere else. -/
theorem setStage (h : s.Keeps r)
    (hbatch : r ∈ (s.stages o).batch → (s.setStage o st).Keeps r) :
    (s.setStage o st).Keeps r := by
  rcases h with h | h | h | h
  · exact Or.inl h
  · exact Or.inr (Or.inl h)
  · exact of_buffer h
  · rcases h.setStage o st with hmem | hflight
    · exact hbatch hmem
    · exact of_inFlight hflight

/-- A flush without a batch may move to any stage. -/
theorem setStage_of_empty (h : s.Keeps r) (hempty : (s.stages o).batch = []) :
    (s.setStage o st).Keeps r := by
  apply h.setStage
  intro hmem
  rw [hempty] at hmem
  exact absurd hmem List.not_mem_nil

/-- A flush may move on with its batch. -/
theorem setStage_of_batch (h : s.Keeps r) (hsame : st.batch = (s.stages o).batch) :
    (s.setStage o st).Keeps r := by
  apply h.setStage
  intro hmem
  rw [← hsame] at hmem
  exact of_inFlight (inFlight_setStage_self hmem)

end WriterState.Keeps

/-- A batch is put back into a buffer with room for all of it, and `close` does not cancel a
loop that holds a batch. -/
def LossFree (cfg : WriterConfig) (s : WriterState P F ι) : WriterAct ι → Prop
  | .requeue o => s.buffer.length + (s.stages o).batch.length ≤ cfg.bufferMax
  | .cancel _ => (s.stages none).batch = []
  | _ => True

/-- A step that is free of loss keeps every event, wherever it is. -/
theorem WriterStep.keeps (h : WriterStep cfg s a t) (hs : s.Orderly) (hfree : LossFree cfg s a)
    {r : AuditEventRecord} (hr : s.Keeps r) : t.Keeps r := by
  have hidle : ∀ {u : WriterState P F ι} {o}, u.stages o = .idle → (u.stages o).batch = [] := by
    intro u o ho
    rw [ho]
    rfl
  cases h with
  | start | testOpen | testClosed | loopFlushed | callEnqueue | refuse | spill | flushed
  | callClose | joinRaises | drained | dispose => exact hr
  | wake h =>
      have hkept : WriterState.Keeps { s with loop := .flushing, flushRequested := false } r := hr
      exact hkept.setStage_of_empty (hidle (hs.idle_of_loop h (by simp)))
  | append =>
      exact hr.frame (fun _ => id) (fun _ => id) (fun hb => List.mem_append_left _ hb) rfl
  | spilled _ hwrite | spillRaised _ hwrite =>
      exact hr.frame (fun _ => id) (fun _ => F.keeps hwrite) id rfl
  | @callFlush i h =>
      have hkept : (s.setTask i .flushing).Keeps r := hr
      exact hkept.setStage_of_empty (hidle (hs.idle_of_task h (by simp) (by simp)))
  | takeNothing h =>
      apply hr.setStage_of_empty
      rw [h]
      rfl
  | @take o h =>
      -- the buffer moves into the flush as a whole
      rcases hr with hr | hr | hr | hr
      · exact Or.inl hr
      · exact Or.inr (Or.inl hr)
      · exact .of_inFlight (WriterState.inFlight_setStage_self hr)
      · have hflight : WriterState.Keeps { s with buffer := [] } r := .of_inFlight hr
        apply hflight.setStage_of_empty
        change (s.stages o).batch = []
        rw [h]
        rfl
  | @primaryWritten o batch primary h hwrite =>
      have hkept : WriterState.Keeps { s with primary := primary, degraded := false } r :=
        hr.frame (fun _ => P.keeps hwrite) (fun _ => id) id rfl
      apply hkept.setStage
      intro hmem
      change r ∈ (s.stages o).batch at hmem
      rw [h] at hmem
      exact Or.inl (P.stores hwrite hmem)
  | @primaryFailed o batch primary h hwrite =>
      have hkept : WriterState.Keeps { s with primary := primary, degraded := true } r :=
        hr.frame (fun _ => P.keeps hwrite) (fun _ => id) id rfl
      exact hkept.setStage_of_batch (congrArg FlushStage.batch h).symm
  | @fallbackWritten o batch fallback h hwrite =>
      have hkept : WriterState.Keeps { s with fallback := fallback } r :=
        hr.frame (fun _ => id) (fun _ => F.keeps hwrite) id rfl
      apply hkept.setStage
      intro hmem
      change r ∈ (s.stages o).batch at hmem
      rw [h] at hmem
      exact Or.inr (Or.inl (F.stores hwrite hmem))
  | @fallbackFailed o batch fallback h hwrite =>
      have hkept : WriterState.Keeps { s with fallback := fallback } r :=
        hr.frame (fun _ => id) (fun _ => F.keeps hwrite) id rfl
      exact hkept.setStage_of_batch (congrArg FlushStage.batch h).symm
  | @requeue o batch h =>
      have hroom : s.buffer.length + batch.length ≤ cfg.bufferMax := by
        change s.buffer.length + (s.stages o).batch.length ≤ cfg.bufferMax at hfree
        rw [h] at hfree
        exact hfree
      have hall : batch.take (cfg.bufferMax - s.buffer.length) = batch :=
        List.take_of_length_le (by omega)
      have hkept : (s.putBack cfg batch).Keeps r :=
        hr.frame (fun _ => id) (fun _ => id) (fun hb => List.mem_append_left _ hb) rfl
      apply hkept.setStage
      intro hmem
      change r ∈ (s.stages o).batch at hmem
      rw [h] at hmem
      apply WriterState.Keeps.of_buffer
      apply List.mem_append_right
      rw [hall]
      exact hmem
  | @join i h =>
      have hkept : WriterState.Keeps ({ s with loop := .absent }.setTask i .draining) r := hr
      exact hkept.setStage_of_empty (hidle (hs.idle_of_task h (by simp) (by simp)))
  | @cancel i primary fallback h _ hprimary hfallback =>
      have hkeptP : ∀ id, P.Holds s.primary id → P.Holds primary id := by
        rcases hprimary with rfl | ⟨batch, -, hwrite⟩
        · exact fun _ => id
        · exact fun _ => P.keeps hwrite
      have hkeptF : ∀ id, F.Holds s.fallback id → F.Holds fallback id := by
        rcases hfallback with rfl | ⟨batch, -, hwrite⟩
        · exact fun _ => id
        · exact fun _ => F.keeps hwrite
      have hkept : WriterState.Keeps
          { s with loop := .absent, primary := primary, fallback := fallback } r :=
        hr.frame hkeptP hkeptF id rfl
      have hcleared : (WriterState.setStage
          { s with loop := .absent, primary := primary, fallback := fallback } none
            .idle).Keeps r :=
        hkept.setStage_of_empty hfree
      have hdraining : ((WriterState.setStage { s with
          loop := .absent, primary := primary, fallback := fallback } none .idle).setTask i
            .draining).Keeps r := hcleared
      apply hdraining.setStage_of_empty
      change ((s.setStage none .idle).stages (some i)).batch = []
      rw [WriterState.stages_setStage_of_ne (by simp)]
      exact hidle (hs.idle_of_task h (by simp) (by simp))

/-- An event that a step accepts is in the buffer or in the fallback. -/
theorem WriterStep.accepted (h : WriterStep cfg s a t) {r : AuditEventRecord}
    (hr : r ∈ t.accepted) : r ∈ s.accepted ∨ t.Keeps r := by
  cases h with
  | append =>
      rcases List.mem_cons.mp hr with rfl | hr
      · exact Or.inr (Or.inr (Or.inr (Or.inl
          (List.mem_append_right _ (List.mem_singleton.mpr rfl)))))
      · exact Or.inl hr
  | spilled _ hwrite =>
      rcases List.mem_cons.mp hr with rfl | hr
      · exact Or.inr (Or.inr (Or.inl (F.stores hwrite (List.mem_singleton.mpr rfl))))
      · exact Or.inl hr
  | _ => exact Or.inl hr

/-- In every run free of loss an accepted event is in a store, in the buffer or in a flush. -/
theorem keeps_of_reachable (h : (writerRuns cfg (LossFree cfg)).Reachable s) :
    s.Orderly ∧ ∀ r ∈ s.accepted, s.Keeps r := by
  refine System.invariant (I := fun s => s.Orderly ∧ ∀ r ∈ s.accepted, s.Keeps r) ?_ ?_ h
  · rintro s ⟨primary, fallback, rfl⟩
    exact ⟨fun _ ho => absurd rfl ho, fun r hr => absurd hr List.not_mem_nil⟩
  · rintro s t - ⟨hs, hkeeps⟩ ⟨a, hstep, hfree⟩
    refine ⟨hstep.orderly hs, fun r hr => ?_⟩
    rcases hstep.accepted hr with hr | hr
    · exact hstep.keeps hs hfree (hkeeps r hr)
    · exact hr

/-- At a quiescent state every event for which `enqueue` has returned is in the primary, in
the fallback or in the buffer, if no batch was put back without room for it and no loop was
cancelled with a batch. -/
theorem writer_drops_nothing (h : (writerRuns cfg (LossFree cfg)).Reachable s)
    (hquiet : s.Quiescent) :
    ∀ r ∈ s.accepted,
      P.Holds s.primary r.eventId ∨ F.Holds s.fallback r.eventId ∨ r ∈ s.buffer := by
  intro r hr
  rcases (keeps_of_reachable h).2 r hr with hkept | hkept | hkept | ⟨o, ho⟩
  · exact Or.inl hkept
  · exact Or.inr (Or.inl hkept)
  · exact Or.inr (Or.inr hkept)
  · rw [hquiet.stages o] at ho
    cases ho

end Steps

/-! ### A primary that does not answer -/

section HangingPrimary

/-- The default configuration. -/
def defaultWriter : WriterConfig := ⟨500, 10000⟩

abbrev SampleWriter : Type := WriterState PostgresAudit.batchStore MemoryAudit.batchStore Unit

def newWriter : SampleWriter :=
  .initial PostgresAudit.empty ⟨MemoryAudit.empty 100000 .raise, rfl⟩

/-- The loop has taken the queued event and waits for the primary. -/
def hangingWriter : SampleWriter :=
  (({ newWriter.push defaultWriter sampleRecord₁ with
    loop := .flushing
    flushRequested := false
    buffer := [] }.setTask () .idle).setStage none .locking).setStage none
      (.primary [sampleRecord₁])

theorem hangingWriter_reachable :
    (writerRuns defaultWriter (LossFree defaultWriter)).Reachable hangingWriter := by
  have h₀ : (writerRuns defaultWriter (LossFree defaultWriter)).Reachable newWriter :=
    .start ⟨_, _, rfl⟩
  have h₁ := h₀.next ⟨_, .start rfl, trivial⟩
  have h₂ := h₁.next ⟨_, .testOpen rfl rfl, trivial⟩
  have h₃ := h₂.next ⟨.callEnqueue () sampleRecord₁, .callEnqueue rfl rfl, trivial⟩
  have h₄ := h₃.next ⟨_, .append (i := ()) rfl rfl (by decide), trivial⟩
  have h₅ := h₄.next ⟨_, .wake rfl, trivial⟩
  have h₆ := h₅.next ⟨_, .take (o := none) rfl rfl (List.cons_ne_nil _ _), trivial⟩
  exact h₆

/-- The loop is cancelled with the batch, and `close` finds an empty buffer. -/
theorem cancelled_batch_dropped :
    ∃ s : SampleWriter, (writerRuns defaultWriter fun _ _ => True).Reachable s ∧
      s.Quiescent ∧ sampleRecord₁ ∈ s.accepted ∧
      ¬(PostgresAudit.batchStore.Holds s.primary sampleRecord₁.eventId ∨
        MemoryAudit.batchStore.Holds s.fallback sampleRecord₁.eventId ∨
        sampleRecord₁ ∈ s.buffer) := by
  have h₀ := writerRuns_mono (D := fun _ _ => True) hangingWriter_reachable fun _ _ _ => trivial
  have h₁ := h₀.next ⟨_, .callClose (i := ()) rfl, trivial⟩
  have h₂ := h₁.next ⟨_, .cancel (i := ()) rfl ⟨by rintro ⟨⟩, by rintro ⟨⟩⟩ (Or.inl rfl)
    (Or.inl rfl), trivial⟩
  have h₃ := h₂.next ⟨_, .takeNothing (o := some ()) rfl rfl rfl, trivial⟩
  have h₄ := h₃.next ⟨_, .drained (i := ()) rfl rfl, trivial⟩
  have h₅ := h₄.next ⟨_, .dispose (i := ()) rfl, trivial⟩
  refine ⟨_, h₅, ⟨fun _ => rfl, ?_⟩, List.mem_singleton.mpr rfl, ?_⟩
  · rintro (_ | _)
    · rfl
    · rfl
  · rintro (⟨row, hrow, -⟩ | hfallback | hbuffer)
    · cases hrow
    · cases hfallback
    · cases hbuffer

/-- The primary answers after all. -/
theorem answered_batch_kept :
    ∃ s : SampleWriter, (writerRuns defaultWriter (LossFree defaultWriter)).Reachable s ∧
      s.accepted = [sampleRecord₁] ∧
      ∀ r ∈ s.accepted, PostgresAudit.batchStore.Holds s.primary r.eventId ∨
        MemoryAudit.batchStore.Holds s.fallback r.eventId ∨ r ∈ s.buffer := by
  have h₁ := hangingWriter_reachable.next
    ⟨_, .primaryWritten (o := none) rfl (Or.inl rfl), trivial⟩
  refine ⟨_, h₁, rfl, writer_drops_nothing h₁ ⟨fun _ => rfl, ?_⟩⟩
  rintro (_ | _)
  · rfl
  · rfl

end HangingPrimary

end AgenticGovernance.Audit

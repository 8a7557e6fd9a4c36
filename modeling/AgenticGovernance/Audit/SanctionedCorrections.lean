import Mathlib
import AgenticGovernance.Audit.Corrections
import AgenticGovernance.Support.Transition

/-!
# The guard on reserved kinds

`AuditModule.log` refuses an event of a reserved kind unless the identity of the event object
is in `_sanctioned_correction_event_ids`.  `log_validated_correction` puts the identity of
the event it has built into the set, awaits `log`, and takes it out again in a `finally`.

The model runs any number of calls on one module.  A call can be interrupted between any two
of its accesses to the set and to the stores, an insert can happen or not, and the inner call
of `log` can end in any way.  `Consistent` says that the set holds exactly the objects of the
corrections that are inside their `try` block.
-/

namespace AgenticGovernance.Audit

open Support

/-! ## The calls -/

/-- `id(event)` -/
abbrev ObjectId := ℕ

/-- Who calls `log`. -/
inductive LogCaller where
  | direct
  | correction (payload : CorrectionPayload) (hmacKey : Bytes)

/-- How a call of `log` ends. -/
inductive LogOutcome where
  /-- the `RuntimeError` of the guard -/
  | refused
  | returned (record : LoggedRecord)
  /-- an error or a cancellation past the guard -/
  | raised

inductive CallPhase where
  | idle
  /-- `log_validated_correction` has raised before it had an event -/
  | rejected (payload : CorrectionPayload) (hmacKey : Bytes) (failure : CorrectionFailure)
  | constructed (payload : CorrectionPayload) (hmacKey : Bytes) (object : ObjectId)
      (event : LoggedEvent)
  /-- `log` is about to look at the guard -/
  | entering (caller : LogCaller) (object : ObjectId) (event : LoggedEvent)
  /-- in `_log_unsafe` -/
  | logging (caller : LogCaller) (object : ObjectId) (L : LoggedCall)
  /-- `log_validated_correction` is about to run its `finally` block -/
  | leaving (payload : CorrectionPayload) (hmacKey : Bytes) (object : ObjectId)
      (event : LoggedEvent) (outcome : LogOutcome)
  | ended (caller : LogCaller) (event : LoggedEvent) (outcome : LogOutcome)

namespace CallPhase

def InProgress : CallPhase → Prop
  | idle => False
  | rejected .. => False
  | ended .. => False
  | _ => True

/-- The event object that only a call of `log_validated_correction` refers to. -/
def owned : CallPhase → Option ObjectId
  | constructed _ _ object _ => some object
  | entering (.correction ..) object _ => some object
  | logging (.correction ..) object _ => some object
  | leaving _ _ object _ _ => some object
  | _ => none

/-- The object that the call has put into the set and not taken out. -/
def registered : CallPhase → Option ObjectId
  | entering (.correction ..) object _ => some object
  | logging (.correction ..) object _ => some object
  | leaving _ _ object _ _ => some object
  | _ => none

/-- The object of a caller that the call refers to. -/
def borrowed : CallPhase → Option ObjectId
  | entering .direct object _ => some object
  | logging .direct object _ => some object
  | _ => none

/-- Where a call goes when its call of `log` has ended. -/
def afterLog (caller : LogCaller) (object : ObjectId) (event : LoggedEvent)
    (outcome : LogOutcome) : CallPhase :=
  match caller with
  | .direct => ended .direct event outcome
  | .correction payload hmacKey => leaving payload hmacKey object event outcome

end CallPhase

/-- The event objects of callers, the set, the calls, and every record that a store has
taken. -/
structure GuardState (ι : Type*) where
  heap : ObjectId → Option LoggedEvent
  sanctionedCorrectionEventIds : Finset ObjectId
  phase : ι → CallPhase
  stored : List LoggedRecord

namespace GuardState

variable {ι : Type*}

def start : GuardState ι := ⟨fun _ => none, ∅, fun _ => .idle, []⟩

def setPhase [DecidableEq ι] (s : GuardState ι) (i : ι) (p : CallPhase) : GuardState ι :=
  { s with phase := Function.update s.phase i p }

def setHeap (s : GuardState ι) (object : ObjectId) (event : Option LoggedEvent) :
    GuardState ι :=
  { s with heap := Function.update s.heap object event }

theorem setHeap_self (s : GuardState ι) (object : ObjectId) (event : Option LoggedEvent) :
    (s.setHeap object event).heap object = event :=
  Function.update_self ..

theorem setHeap_of_ne (s : GuardState ι) {object o : ObjectId} (h : o ≠ object)
    (event : Option LoggedEvent) : (s.setHeap object event).heap o = s.heap o :=
  Function.update_of_ne h ..

/-- No live event has this identity. -/
def Free (s : GuardState ι) (object : ObjectId) : Prop :=
  s.heap object = none ∧ ∀ i, (s.phase i).owned ≠ some object

variable [DecidableEq ι]

@[simp] theorem setPhase_self (s : GuardState ι) (i : ι) (p : CallPhase) :
    (s.setPhase i p).phase i = p :=
  Function.update_self ..

theorem setPhase_of_ne (s : GuardState ι) {i j : ι} (h : j ≠ i) (p : CallPhase) :
    (s.setPhase i p).phase j = s.phase j :=
  Function.update_of_ne h ..

end GuardState

/-- `event.kind in PERMITTED_KINDS and id(event) not in sanctioned` -/
def guardRefuses (sanctioned : Finset ObjectId) (object : ObjectId) (event : LoggedEvent) :
    Prop :=
  event.base.kind ∈ permittedKinds ∧ object ∉ sanctioned

section Steps

variable {ι : Type*} [DecidableEq ι] (rt : CorrectionRuntime)
  (canonicalMetadata : List (String × PyValue) → Option Metadata) (K : ModuleKeys)

inductive GuardStep : GuardState ι → GuardState ι → Prop
  /-- a caller constructs an event -/
  | construct (s : GuardState ι) (args : EventArgs) (event : LoggedEvent) (object : ObjectId)
      (hevent : args.construct rt.nfc = some event) (hfree : s.Free object) :
      GuardStep s (s.setHeap object (some event))
  /-- an event that nothing refers to is collected -/
  | collect (s : GuardState ι) (object : ObjectId)
      (hunused : ∀ i, (s.phase i).borrowed ≠ some object) :
      GuardStep s (s.setHeap object none)
  | callLog (s : GuardState ι) (i : ι) (object : ObjectId) (event : LoggedEvent)
      (hphase : s.phase i = .idle) (hheap : s.heap object = some event) :
      GuardStep s (s.setPhase i (.entering .direct object event))
  | reject (s : GuardState ι) (i : ι) (payload : CorrectionPayload) (hmacKey : Bytes)
      (failure : CorrectionFailure) (hphase : s.phase i = .idle)
      (hevent : correctionEvent rt payload hmacKey = .error failure) :
      GuardStep s (s.setPhase i (.rejected payload hmacKey failure))
  | accept (s : GuardState ι) (i : ι) (payload : CorrectionPayload) (hmacKey : Bytes)
      (object : ObjectId) (event : LoggedEvent) (hphase : s.phase i = .idle)
      (hevent : correctionEvent rt payload hmacKey = .ok event) (hfree : s.Free object) :
      GuardStep s (s.setPhase i (.constructed payload hmacKey object event))
  | register (s : GuardState ι) (i : ι) (payload : CorrectionPayload) (hmacKey : Bytes)
      (object : ObjectId) (event : LoggedEvent)
      (hphase : s.phase i = .constructed payload hmacKey object event) :
      GuardStep s
        ({ s with
          sanctionedCorrectionEventIds :=
            insert object s.sanctionedCorrectionEventIds }.setPhase i
          (.entering (.correction payload hmacKey) object event))
  | refuse (s : GuardState ι) (i : ι) (caller : LogCaller) (object : ObjectId)
      (event : LoggedEvent) (hphase : s.phase i = .entering caller object event)
      (hguard : guardRefuses s.sanctionedCorrectionEventIds object event) :
      GuardStep s (s.setPhase i (.afterLog caller object event .refused))
  | letPass (s : GuardState ι) (i : ι) (caller : LogCaller) (object : ObjectId) (L : LoggedCall)
      (hphase : s.phase i = .entering caller object L.event)
      (hguard : ¬ guardRefuses s.sanctionedCorrectionEventIds object L.event) :
      GuardStep s (s.setPhase i (.logging caller object L))
  | insertRecord (s : GuardState ι) (i : ι) (caller : LogCaller) (object : ObjectId)
      (L : LoggedCall) (eventId : Uuid) (prevHash : Option String) (record : LoggedRecord)
      (hphase : s.phase i = .logging caller object L)
      (hbuilt : L.buildRecord canonicalMetadata K eventId prevHash = some record) :
      GuardStep s { s with stored := s.stored ++ [record] }
  | insertMarker (s : GuardState ι) (i : ι) (caller : LogCaller) (object : ObjectId)
      (L : LoggedCall) (markerId : Uuid) (now : Datetime) (prevHash : Option String)
      (record : LoggedRecord) (hphase : s.phase i = .logging caller object L)
      (hbuilt : L.buildMarker K markerId now prevHash = some record) :
      GuardStep s { s with stored := s.stored ++ [record] }
  | finish (s : GuardState ι) (i : ι) (caller : LogCaller) (object : ObjectId)
      (L : LoggedCall) (record : LoggedRecord)
      (hphase : s.phase i = .logging caller object L)
      (hreturns : (∃ eventId prevHash,
        L.buildRecord canonicalMetadata K eventId prevHash = some record) ∨
          ∃ draw, L.placeholderRecord draw = some record) :
      GuardStep s (s.setPhase i (.afterLog caller object L.event (.returned record)))
  | fail (s : GuardState ι) (i : ι) (caller : LogCaller) (object : ObjectId) (L : LoggedCall)
      (hphase : s.phase i = .logging caller object L) :
      GuardStep s (s.setPhase i (.afterLog caller object L.event .raised))
  | discard (s : GuardState ι) (i : ι) (payload : CorrectionPayload) (hmacKey : Bytes)
      (object : ObjectId) (event : LoggedEvent) (outcome : LogOutcome)
      (hphase : s.phase i = .leaving payload hmacKey object event outcome) :
      GuardStep s
        ({ s with
          sanctionedCorrectionEventIds :=
            s.sanctionedCorrectionEventIds.erase object }.setPhase i
          (.ended (.correction payload hmacKey) event outcome))

/-- The calls on one module, from its construction on. -/
def guardSystem : System (GuardState ι) where
  init s := s = .start
  step := GuardStep rt canonicalMetadata K

end Steps

/-! ## What holds of the calls -/

/-- The metadata is what the constructor of the event makes of an accepted payload. -/
def FromAccepted (rt : CorrectionRuntime) (record : LoggedRecord) : Prop :=
  ∃ payload hmacKey v, validateCorrectionPayload rt payload hmacKey = .ok v ∧
    record.metadata = v.metadata.map fun e => (e.1, sanitizeMetadata rt.nfc e.2)

/-- The event may be past the guard. -/
def MayLog (rt : CorrectionRuntime) : LogCaller → LoggedEvent → Prop
  | .direct, event => event.base.kind ∉ permittedKinds
  | .correction payload hmacKey, event => correctionEvent rt payload hmacKey = .ok event

/-- How a call of `log` may have ended. -/
def MayEnd (rt : CorrectionRuntime) : LogCaller → LoggedEvent → LogOutcome → Prop
  | .direct, event, outcome => outcome = .refused ↔ event.base.kind ∈ permittedKinds
  | .correction payload hmacKey, event, outcome =>
      correctionEvent rt payload hmacKey = .ok event ∧ outcome ≠ .refused

def PhaseOk (rt : CorrectionRuntime) : CallPhase → Prop
  | .idle => True
  | .rejected payload hmacKey failure => correctionEvent rt payload hmacKey = .error failure
  | .constructed payload hmacKey _ event => correctionEvent rt payload hmacKey = .ok event
  | .entering .direct _ _ => True
  | .entering (.correction payload hmacKey) _ event =>
      correctionEvent rt payload hmacKey = .ok event
  | .logging caller _ L => MayLog rt caller L.event
  | .leaving payload hmacKey _ event outcome =>
      MayEnd rt (.correction payload hmacKey) event outcome
  | .ended caller event outcome => MayEnd rt caller event outcome

structure Consistent {ι : Type*} (rt : CorrectionRuntime) (s : GuardState ι) : Prop where
  phase : ∀ i, PhaseOk rt (s.phase i)
  exclusive : ∀ i j object, (s.phase i).owned = some object →
    (s.phase j).owned = some object → i = j
  apart : ∀ i object, (s.phase i).owned = some object → s.heap object = none
  held : ∀ i object event, s.phase i = .entering .direct object event →
    s.heap object = some event
  sanctioned : ∀ object, object ∈ s.sanctionedCorrectionEventIds ↔
    ∃ i, (s.phase i).registered = some object
  stored : ∀ record ∈ s.stored, record.base.kind ∈ permittedKinds → FromAccepted rt record

section Calls

variable {ι : Type*} {rt : CorrectionRuntime}
  {canonicalMetadata : List (String × PyValue) → Option Metadata} {K : ModuleKeys}
  {s t : GuardState ι}

theorem CallPhase.owned_of_registered {p : CallPhase} {object : ObjectId}
    (h : p.registered = some object) : p.owned = some object := by
  unfold registered at h
  split at h
  · exact h
  · exact h
  · exact h
  · cases h

theorem CallPhase.inProgress_of_registered {p : CallPhase} {object : ObjectId}
    (h : p.registered = some object) : p.InProgress := by
  unfold registered at h
  split at h
  · trivial
  · trivial
  · trivial
  · cases h

theorem phaseOk_afterLog {caller : LogCaller} {object : ObjectId} {event : LoggedEvent}
    {outcome : LogOutcome} (h : MayEnd rt caller event outcome) :
    PhaseOk rt (.afterLog caller object event outcome) := by
  cases caller with
  | direct => exact h
  | correction payload hmacKey => exact h

/-- Past the guard, a call is not refused any more. -/
theorem MayLog.mayEnd {caller : LogCaller} {event : LoggedEvent} {outcome : LogOutcome}
    (h : MayLog rt caller event) (hpassed : outcome ≠ .refused) :
    MayEnd rt caller event outcome := by
  cases caller with
  | direct => exact iff_of_false hpassed h
  | correction payload hmacKey => exact ⟨h, hpassed⟩

/-- The event of an accepted payload carries its rewritten metadata. -/
theorem fromAccepted_of_correctionEvent {payload : CorrectionPayload} {hmacKey : Bytes}
    {event : LoggedEvent} {record : LoggedRecord}
    (hevent : correctionEvent rt payload hmacKey = .ok event)
    (hmetadata : record.metadata = event.metadata) : FromAccepted rt record := by
  obtain ⟨-, v, hv, -, rfl⟩ := correctionEvent_eq_ok_iff.mp hevent
  exact ⟨payload, hmacKey, v, hv, hmetadata⟩

namespace Consistent

theorem sanctioned_iff_or (h : Consistent rt s) (i : ι) (object : ObjectId) :
    object ∈ s.sanctionedCorrectionEventIds ↔
      (s.phase i).registered = some object ∨
        ∃ j, j ≠ i ∧ (s.phase j).registered = some object := by
  rw [h.sanctioned]
  constructor
  · rintro ⟨j, hj⟩
    by_cases hji : j = i
    · rw [hji] at hj
      exact Or.inl hj
    · exact Or.inr ⟨j, hji, hj⟩
  · rintro (hi | ⟨j, -, hj⟩)
    · exact ⟨i, hi⟩
    · exact ⟨j, hj⟩

/-- A caller's event is not in the set. -/
theorem not_sanctioned_of_heap (h : Consistent rt s) {object : ObjectId} {event : LoggedEvent}
    (hheap : s.heap object = some event) : object ∉ s.sanctionedCorrectionEventIds := by
  intro hmem
  obtain ⟨i, hi⟩ := (h.sanctioned object).mp hmem
  have hnone := h.apart i object (CallPhase.owned_of_registered hi)
  rw [hheap] at hnone
  cases hnone

variable [DecidableEq ι]

/-- One call moves on and the set changes with it. -/
theorem move (h : Consistent rt s) (sanctioned : Finset ObjectId) {i : ι} {q : CallPhase}
    (hphase : PhaseOk rt q)
    (howned : ∀ object, q.owned = some object →
      (s.phase i).owned = some object ∨ s.Free object)
    (hheld : ∀ object event, q = .entering .direct object event → s.heap object = some event)
    (hsanctioned : ∀ object, object ∈ sanctioned ↔
      q.registered = some object ∨ ∃ j, j ≠ i ∧ (s.phase j).registered = some object) :
    Consistent rt
      ({ s with sanctionedCorrectionEventIds := sanctioned }.setPhase i q) := by
  have hother : ∀ j, j ≠ i →
      ({ s with sanctionedCorrectionEventIds := sanctioned }.setPhase i q).phase j =
        s.phase j :=
    fun j hj => GuardState.setPhase_of_ne _ hj q
  have hone : ∀ j object, j ≠ i → q.owned = some object →
      (s.phase j).owned ≠ some object := by
    intro j object hj hq howner
    rcases howned object hq with hi | hfree
    · exact hj (h.exclusive j i object howner hi)
    · exact hfree.2 j howner
  constructor
  · intro j
    by_cases hj : j = i
    · rw [hj, GuardState.setPhase_self]
      exact hphase
    · rw [hother j hj]
      exact h.phase j
  · intro j k object hjo hko
    by_cases hj : j = i
    · by_cases hk : k = i
      · rw [hj, hk]
      · rw [hj, GuardState.setPhase_self] at hjo
        rw [hother k hk] at hko
        exact absurd hko (hone k object hk hjo)
    · rw [hother j hj] at hjo
      by_cases hk : k = i
      · rw [hk, GuardState.setPhase_self] at hko
        exact absurd hjo (hone j object hj hko)
      · rw [hother k hk] at hko
        exact h.exclusive j k object hjo hko
  · intro j object hjo
    by_cases hj : j = i
    · rw [hj, GuardState.setPhase_self] at hjo
      rcases howned object hjo with hi | hfree
      · exact h.apart i object hi
      · exact hfree.1
    · rw [hother j hj] at hjo
      exact h.apart j object hjo
  · intro j object event hjp
    by_cases hj : j = i
    · rw [hj, GuardState.setPhase_self] at hjp
      exact hheld object event hjp
    · rw [hother j hj] at hjp
      exact h.held j object event hjp
  · intro object
    refine (hsanctioned object).trans ?_
    constructor
    · rintro (hq | ⟨j, hj, hregistered⟩)
      · refine ⟨i, ?_⟩
        rw [GuardState.setPhase_self]
        exact hq
      · refine ⟨j, ?_⟩
        rw [hother j hj]
        exact hregistered
    · rintro ⟨j, hregistered⟩
      by_cases hj : j = i
      · rw [hj, GuardState.setPhase_self] at hregistered
        exact Or.inl hregistered
      · rw [hother j hj] at hregistered
        exact Or.inr ⟨j, hj, hregistered⟩
  · exact h.stored

/-- One call moves on and the set stays. -/
theorem moveKeeping (h : Consistent rt s) {i : ι} {q : CallPhase} (hphase : PhaseOk rt q)
    (howned : ∀ object, q.owned = some object →
      (s.phase i).owned = some object ∨ s.Free object)
    (hheld : ∀ object event, q = .entering .direct object event → s.heap object = some event)
    (hregistered : q.registered = (s.phase i).registered) :
    Consistent rt (s.setPhase i q) := by
  refine h.move s.sanctionedCorrectionEventIds hphase howned hheld ?_
  intro object
  rw [hregistered]
  exact h.sanctioned_iff_or i object

/-- A call of `log` that is past the guard ends. -/
theorem moveAfterLog (h : Consistent rt s) {i : ι} {caller : LogCaller} {object : ObjectId}
    {L : LoggedCall} {outcome : LogOutcome} (hphase : s.phase i = .logging caller object L)
    (hpassed : outcome ≠ .refused) :
    Consistent rt (s.setPhase i (.afterLog caller object L.event outcome)) := by
  have hok := h.phase i
  rw [hphase] at hok
  refine h.moveKeeping (phaseOk_afterLog (hok.mayEnd hpassed)) ?_ ?_ ?_
  · intro o ho
    rw [hphase]
    cases caller with
    | direct => cases ho
    | correction payload hmacKey => exact Or.inl ho
  · intro o e he
    cases caller with
    | direct => cases he
    | correction payload hmacKey => cases he
  · rw [hphase]
    cases caller with
    | direct => rfl
    | correction payload hmacKey => rfl

omit [DecidableEq ι] in
theorem store (h : Consistent rt s) {record : LoggedRecord}
    (hrecord : record.base.kind ∈ permittedKinds → FromAccepted rt record) :
    Consistent rt { s with stored := s.stored ++ [record] } := by
  refine ⟨h.phase, h.exclusive, h.apart, h.held, h.sanctioned, ?_⟩
  intro r hr
  rcases List.mem_append.mp hr with hr | hr
  · exact h.stored r hr
  · rw [List.mem_singleton.mp hr]
    exact hrecord

end Consistent

theorem consistent_start : Consistent rt (GuardState.start : GuardState ι) := by
  refine ⟨fun i => trivial, ?_, ?_, ?_, ?_, ?_⟩
  · rintro i j object ⟨⟩
  · rintro i object ⟨⟩
  · rintro i object event ⟨⟩
  · intro object
    constructor
    · intro hmem
      exact absurd hmem (Finset.notMem_empty object)
    · rintro ⟨i, ⟨⟩⟩
  · rintro record ⟨⟩

/-- The guard refuses direct calls with a reserved kind, and no others. -/
theorem Consistent.guardRefuses_iff (h : Consistent rt s) {i : ι} {caller : LogCaller}
    {object : ObjectId} {event : LoggedEvent}
    (hphase : s.phase i = .entering caller object event) :
    guardRefuses s.sanctionedCorrectionEventIds object event ↔
      caller = .direct ∧ event.base.kind ∈ permittedKinds := by
  cases caller with
  | direct =>
      have habsent := h.not_sanctioned_of_heap (h.held i object event hphase)
      constructor
      · rintro ⟨hkind, -⟩
        exact ⟨rfl, hkind⟩
      · rintro ⟨-, hkind⟩
        exact ⟨hkind, habsent⟩
  | correction payload hmacKey =>
      have hpresent : object ∈ s.sanctionedCorrectionEventIds :=
        (h.sanctioned object).mpr ⟨i, by rw [hphase]; rfl⟩
      constructor
      · rintro ⟨-, habsent⟩
        exact absurd hpresent habsent
      · rintro ⟨⟨⟩, -⟩

variable [DecidableEq ι]

omit [DecidableEq ι] in
theorem Consistent.construct (h : Consistent rt s) {object : ObjectId} (hfree : s.Free object)
    (event : LoggedEvent) : Consistent rt (s.setHeap object (some event)) := by
  refine ⟨h.phase, h.exclusive, ?_, ?_, h.sanctioned, h.stored⟩
  · intro i o ho
    have hne : o ≠ object := by
      intro heq
      rw [heq] at ho
      exact hfree.2 i ho
    rw [GuardState.setHeap_of_ne s hne]
    exact h.apart i o ho
  · intro i o e he
    have hheap := h.held i o e he
    have hne : o ≠ object := by
      intro heq
      rw [heq, hfree.1] at hheap
      exact absurd hheap (Option.some_ne_none e).symm
    rw [GuardState.setHeap_of_ne s hne]
    exact hheap

omit [DecidableEq ι] in
theorem Consistent.collect (h : Consistent rt s) {object : ObjectId}
    (hunused : ∀ i, (s.phase i).borrowed ≠ some object) :
    Consistent rt (s.setHeap object none) := by
  refine ⟨h.phase, h.exclusive, ?_, ?_, h.sanctioned, h.stored⟩
  · intro i o ho
    by_cases heq : o = object
    · rw [heq, GuardState.setHeap_self]
    · rw [GuardState.setHeap_of_ne s heq]
      exact h.apart i o ho
  · intro i o e he
    have hphase : s.phase i = .entering .direct o e := he
    have hne : o ≠ object := by
      intro heq
      apply hunused i
      rw [hphase, ← heq]
      rfl
    rw [GuardState.setHeap_of_ne s hne]
    exact h.held i o e he

/-- A correction puts its event into the set and enters `log`. -/
theorem Consistent.register (h : Consistent rt s) {i : ι} {payload : CorrectionPayload}
    {hmacKey : Bytes} {object : ObjectId} {event : LoggedEvent}
    (hphase : s.phase i = .constructed payload hmacKey object event) :
    Consistent rt
      ({ s with
        sanctionedCorrectionEventIds :=
          insert object s.sanctionedCorrectionEventIds }.setPhase i
        (.entering (.correction payload hmacKey) object event)) := by
  have hok := h.phase i
  rw [hphase] at hok
  refine h.move _ hok ?_ ?_ ?_
  · rintro o ⟨⟩
    rw [hphase]
    exact Or.inl rfl
  · rintro o e ⟨⟩
  · intro o
    have hidle : (s.phase i).registered ≠ some o := by
      rw [hphase]
      rintro ⟨⟩
    rw [Finset.mem_insert, h.sanctioned_iff_or i o]
    constructor
    · rintro (rfl | hi | hother)
      · exact Or.inl rfl
      · exact absurd hi hidle
      · exact Or.inr hother
    · rintro (ho | hother)
      · exact Or.inl (Option.some.inj ho).symm
      · exact Or.inr (Or.inr hother)

/-- A call that the guard does not refuse is a direct call with another kind, or comes from a
correction that was accepted. -/
theorem Consistent.letPass (h : Consistent rt s) {i : ι} {caller : LogCaller}
    {object : ObjectId} {L : LoggedCall} (hphase : s.phase i = .entering caller object L.event)
    (hguard : ¬guardRefuses s.sanctionedCorrectionEventIds object L.event) :
    Consistent rt (s.setPhase i (.logging caller object L)) := by
  rw [h.guardRefuses_iff hphase] at hguard
  have hok := h.phase i
  rw [hphase] at hok
  cases caller with
  | direct =>
      refine h.moveKeeping (fun hkind => hguard ⟨rfl, hkind⟩) ?_ ?_ ?_
      · rintro o ⟨⟩
      · rintro o e ⟨⟩
      · rw [hphase]
        rfl
  | correction payload hmacKey =>
      refine h.moveKeeping hok ?_ ?_ ?_
      · rintro o ⟨⟩
        rw [hphase]
        exact Or.inl rfl
      · rintro o e ⟨⟩
      · rw [hphase]
        rfl

omit [DecidableEq ι] in
/-- What a call past the guard inserts has another kind, or the metadata of an accepted
payload. -/
theorem Consistent.insertRecord (h : Consistent rt s) {i : ι} {caller : LogCaller}
    {object : ObjectId} {L : LoggedCall} {eventId : Uuid} {prevHash : Option String}
    {record : LoggedRecord} (hphase : s.phase i = .logging caller object L)
    (hbuilt : L.buildRecord canonicalMetadata K eventId prevHash = some record) :
    Consistent rt { s with stored := s.stored ++ [record] } := by
  obtain ⟨hkind, hmetadata⟩ := LoggedCall.buildRecord_kind hbuilt
  have hok := h.phase i
  rw [hphase] at hok
  apply h.store
  intro hreserved
  cases caller with
  | direct =>
      rw [hkind] at hreserved
      exact absurd hreserved hok
  | correction payload hmacKey => exact fromAccepted_of_correctionEvent hok hmetadata

/-- A correction takes its event out of the set, where no other call has put it. -/
theorem Consistent.discard (h : Consistent rt s) {i : ι} {payload : CorrectionPayload}
    {hmacKey : Bytes} {object : ObjectId} {event : LoggedEvent} {outcome : LogOutcome}
    (hphase : s.phase i = .leaving payload hmacKey object event outcome) :
    Consistent rt
      ({ s with
        sanctionedCorrectionEventIds :=
          s.sanctionedCorrectionEventIds.erase object }.setPhase i
        (.ended (.correction payload hmacKey) event outcome)) := by
  have hok := h.phase i
  rw [hphase] at hok
  have hi : (s.phase i).registered = some object := by
    rw [hphase]
    rfl
  refine h.move _ hok ?_ ?_ ?_
  · rintro o ⟨⟩
  · rintro o e ⟨⟩
  · intro o
    rw [Finset.mem_erase, h.sanctioned_iff_or i o]
    constructor
    · rintro ⟨hne, ho | hother⟩
      · rw [hi] at ho
        exact absurd (Option.some.inj ho).symm hne
      · exact Or.inr hother
    · rintro (⟨⟨⟩⟩ | ⟨j, hj, ho⟩)
      refine ⟨?_, Or.inr ⟨j, hj, ho⟩⟩
      intro heq
      rw [heq] at ho
      exact hj (h.exclusive j i object (CallPhase.owned_of_registered ho)
        (CallPhase.owned_of_registered hi))

theorem Consistent.step (h : Consistent rt s)
    (hstep : GuardStep rt canonicalMetadata K s t) : Consistent rt t := by
  cases hstep with
  | construct args event object hevent hfree => exact h.construct hfree event
  | collect object hunused => exact h.collect hunused
  | callLog i object event hphase hheap =>
      refine h.moveKeeping trivial ?_ ?_ ?_
      · rintro o ⟨⟩
      · rintro o e ⟨⟩
        exact hheap
      · rw [hphase]
        rfl
  | reject i payload hmacKey failure hphase hevent =>
      refine h.moveKeeping hevent ?_ ?_ ?_
      · rintro o ⟨⟩
      · rintro o e ⟨⟩
      · rw [hphase]
        rfl
  | accept i payload hmacKey object event hphase hevent hfree =>
      refine h.moveKeeping hevent ?_ ?_ ?_
      · rintro o ⟨⟩
        exact Or.inr hfree
      · rintro o e ⟨⟩
      · rw [hphase]
        rfl
  | register i payload hmacKey object event hphase => exact h.register hphase
  | refuse i caller object event hphase hguard =>
      obtain ⟨rfl, hkind⟩ := (h.guardRefuses_iff hphase).mp hguard
      refine h.moveKeeping (iff_of_true rfl hkind) ?_ ?_ ?_
      · rintro o ⟨⟩
      · rintro o e ⟨⟩
      · rw [hphase]
        rfl
  | letPass i caller object L hphase hguard => exact h.letPass hphase hguard
  | insertRecord i caller object L eventId prevHash record hphase hbuilt =>
      exact h.insertRecord hphase hbuilt
  | insertMarker i caller object L markerId now prevHash record hphase hbuilt =>
      apply h.store
      intro hreserved
      rw [LoggedCall.buildMarker_kind hbuilt] at hreserved
      exact absurd hreserved (by decide)
  | finish i caller object L record hphase hreturns =>
      exact h.moveAfterLog hphase (by rintro ⟨⟩)
  | fail i caller object L hphase =>
      exact h.moveAfterLog hphase (by rintro ⟨⟩)
  | discard i payload hmacKey object event outcome hphase => exact h.discard hphase

theorem consistent_of_reachable (h : (guardSystem rt canonicalMetadata K).Reachable s) :
    Consistent rt s := by
  refine System.invariant ?_ ?_ h
  · rintro s rfl
    exact consistent_start
  · intro s t _ hs hstep
    exact hs.step hstep

/-- In every interleaving of calls: a stored record of a reserved kind carries the metadata of
an accepted payload; a correction is turned away for its payload alone; a direct call with a
reserved kind gets no further than the guard, where it is refused; and the set is empty when
no call is in progress. -/
theorem corrections_only_through_validator
    (h : (guardSystem rt canonicalMetadata K).Reachable s) :
    (∀ record ∈ s.stored, record.base.kind ∈ permittedKinds → FromAccepted rt record) ∧
      (∀ i payload hmacKey,
        (∀ failure, s.phase i = .rejected payload hmacKey failure →
          correctionEvent rt payload hmacKey = .error failure) ∧
        (∀ object event, s.phase i = .entering (.correction payload hmacKey) object event →
          ¬ guardRefuses s.sanctionedCorrectionEventIds object event) ∧
        ∀ event, s.phase i ≠ .ended (.correction payload hmacKey) event .refused) ∧
      (∀ i event, event.base.kind ∈ permittedKinds →
        (∀ object, s.phase i = .entering .direct object event →
          guardRefuses s.sanctionedCorrectionEventIds object event) ∧
        (∀ object L, s.phase i = .logging .direct object L → L.event ≠ event) ∧
        ∀ outcome, s.phase i = .ended .direct event outcome → outcome = .refused) ∧
      ((∀ i, ¬ (s.phase i).InProgress) → s.sanctionedCorrectionEventIds = ∅) := by
  have hs := consistent_of_reachable h
  refine ⟨hs.stored, ?_, ?_, ?_⟩
  · intro i payload hmacKey
    have hok := hs.phase i
    refine ⟨?_, ?_, ?_⟩
    · intro failure hphase
      rw [hphase] at hok
      exact hok
    · intro object event hphase hguard
      cases ((hs.guardRefuses_iff hphase).mp hguard).1
    · intro event hphase
      rw [hphase] at hok
      exact hok.2 rfl
  · intro i event hkind
    have hok := hs.phase i
    refine ⟨?_, ?_, ?_⟩
    · intro object hphase
      exact (hs.guardRefuses_iff hphase).mpr ⟨rfl, hkind⟩
    · rintro object L hphase rfl
      rw [hphase] at hok
      exact hok hkind
    · intro outcome hphase
      rw [hphase] at hok
      exact hok.mpr hkind
  · intro hquiet
    rw [Finset.eq_empty_iff_forall_notMem]
    intro object hmem
    obtain ⟨i, hi⟩ := (hs.sanctioned object).mp hmem
    exact hquiet i (CallPhase.inProgress_of_registered hi)

end Calls

/-- A correction from its construction to the end of its `finally` block. -/
theorem sample_correction_guarded :
    ∃ K, ∃ s : GuardState Unit, (guardSystem asciiRuntime reloadedMetadata K).Reachable s ∧
      (∃ record ∈ s.stored, record.base.kind ∈ permittedKinds ∧
        FromAccepted asciiRuntime record) ∧
      s.sanctionedCorrectionEventIds = ∅ := by
  have hnote : validateNoteText asciiRuntime "fake rows" = .ok "fake rows" := by decide +kernel
  have haccepted : (sampleValidated "fake rows").eventArgs.Accepted := by decide +kernel
  have hsample := sampleCorrection_event hnote haccepted
  obtain ⟨metadata, hmetadata⟩ := sampleCorrection_prints hsample
  obtain ⟨record, event, hevent, K, sessionId, parentId, createdAt, eventId, prevHash, hbuilt⟩ :=
    exists_storesCorrection hsample hmetadata
  have hreserved : record.base.kind ∈ permittedKinds := by
    rw [(LoggedCall.buildRecord_kind hbuilt).1, correctionEvent_base hevent]
    decide
  have hstart := System.Reachable.start (M := guardSystem asciiRuntime reloadedMetadata K)
    (s := (GuardState.start : GuardState Unit)) rfl
  have hconstructed := hstart.next (GuardStep.accept _ () _ _ 0 event rfl hevent
    ⟨rfl, by rintro i ⟨⟩⟩)
  have hregistered := hconstructed.next (GuardStep.register _ () _ _ 0 event
    (GuardState.setPhase_self ..))
  have hadmitted := hregistered.next (GuardStep.letPass _ () _ 0
    ⟨event, sessionId, parentId, createdAt⟩ (GuardState.setPhase_self ..)
    fun hguard => hguard.2 (Finset.mem_insert_self 0 _))
  have hinserted := hadmitted.next (GuardStep.insertRecord _ () _ 0 _ eventId prevHash record
    (GuardState.setPhase_self ..) hbuilt)
  have hfinished := hinserted.next (GuardStep.finish _ ()
    (.correction (sampleCorrection "fake rows") sampleHmacKey) 0
    ⟨event, sessionId, parentId, createdAt⟩ record rfl (Or.inl ⟨eventId, prevHash, hbuilt⟩))
  have hended := hfinished.next (GuardStep.discard _ () _ _ 0 event _
    (GuardState.setPhase_self ..))
  obtain ⟨hstored, -, -, hempty⟩ := corrections_only_through_validator hended
  refine ⟨K, _, hended, ⟨record, List.mem_singleton_self record, hreserved, ?_⟩, hempty ?_⟩
  · exact hstored record (List.mem_singleton_self record) hreserved
  · intro i hprogress
    rw [GuardState.setPhase_self] at hprogress
    exact hprogress

end AgenticGovernance.Audit

import Mathlib
import AgenticGovernance.Audit.Chain
import AgenticGovernance.Gates.Store
import AgenticGovernance.Support.Transition

/-!
# Resolving approval requests

Three entry points resolve a request: `grant` and `deny` with a token, and the
write-back of a platform verdict.  Each reads the pending request, then calls
`resolve` on the store, which takes a lock, checks that the request is pending,
runs the `on_commit` hook that emits the audit event, and only then makes the
resolution visible.

The step relation covers any number of concurrent calls on any requests.  What
makes a decision single-use is that a call whose hook is running, or has run,
holds the lock of its request, and that the request is still unresolved.
-/

namespace AgenticGovernance.Gates

open Support

/-- A call that resolves a request.  For `grant` and `deny` this is the result of
`parse_token`, `none` when it raises: the request id and the action hash. -/
inductive ResolveCall where
  | token (parsed : Option (Uuid × String)) (granted : Bool)
  | platform (rid : Uuid) (status : Resolution)

namespace ResolveCall

def verdict : ResolveCall → Resolution
  | token _ granted => if granted then .granted else .denied
  | platform _ status => status

/-- The request a call is about, if its token could be read. -/
def target : ResolveCall → Option Uuid
  | token parsed _ => parsed.map Prod.fst
  | platform rid _ => some rid

def byPlatform : ResolveCall → Bool
  | token _ _ => false
  | platform _ _ => true

end ResolveCall

/-- The audit event of a decision: `approval.granted` or `approval.denied`, with
`by = platform` for a verdict of the platform. -/
structure DecisionEvent where
  agentId : String
  requestId : Uuid
  approvalKind : String
  verdict : Resolution
  byPlatform : Bool

def DecisionEvent.kind (e : DecisionEvent) : String :=
  match e.verdict with
  | .granted => "approval.granted"
  | .denied => "approval.denied"

/-- What `_emit_audit` logs for a call. -/
def emitAudit (call : ResolveCall) (rid : Uuid) (req : ApprovalRequest) :
    DecisionEvent where
  agentId := req.agentId
  requestId := rid
  approvalKind := req.kind
  verdict := call.verdict
  byPlatform := call.byPlatform

/-- The cross-check of `_resolve` against the persisted action hash. -/
def actionHashMatches (pending : Option ApprovalRequest) (actionHash : String) : Bool :=
  match pending with
  | none => true
  | some req =>
      match Audit.compareDigest req.actionHash actionHash with
      | .ok equal => equal
      | .error _ => false

/-- Where a call is.  `inHook` is inside the transaction with `on_commit`
running, `committing` after it returned. -/
inductive CallPhase where
  | idle
  | ready (rid : Uuid)
  | inHook (rid : Uuid) (req : ApprovalRequest)
  | committing (rid : Uuid) (req : ApprovalRequest)
  | returned (rid : Uuid)
  | raised
  | skipped

/-- The request that a phase names. -/
def CallPhase.request? : CallPhase → Option Uuid
  | ready rid => some rid
  | inHook rid _ => some rid
  | committing rid _ => some rid
  | returned rid => some rid
  | _ => none

/-- The call is inside the transaction of `resolve` on `rid`. -/
def CallPhase.InTransaction (rid : Uuid) (req : ApprovalRequest) (p : CallPhase) : Prop :=
  p = .inHook rid req ∨ p = .committing rid req

structure GatesState (B : GatesBackend) (ι : Type*) where
  store : B.State
  lock : Option Uuid → Option ι
  events : List DecisionEvent
  phase : ι → CallPhase

variable {B : GatesBackend} {ι : Type*} [DecidableEq ι]

namespace GatesState

def setPhase (s : GatesState B ι) (i : ι) (p : CallPhase) : GatesState B ι :=
  { s with phase := Function.update s.phase i p }

def release (s : GatesState B ι) (i : ι) : GatesState B ι :=
  { s with lock := fun k => if s.lock k = some i then none else s.lock k }

def resolution (s : GatesState B ι) (rid : Uuid) : Option Resolution :=
  B.getResolution s.store rid

/-- The verdicts of the decision events of a request. -/
def verdicts (s : GatesState B ι) (rid : Uuid) : List Resolution :=
  (s.events.filter fun e => e.requestId = rid).map fun e => e.verdict

/-- A read of the request is not kept waiting by the store's lock. -/
def Readable (s : GatesState B ι) (rid : Uuid) : Prop :=
  B.lockReads = true → s.lock (B.lockKey rid) = none

end GatesState

variable (B) in
def GatesState.initial : GatesState B ι where
  store := B.empty
  lock := fun _ => none
  events := []
  phase := fun _ => .idle

section System

variable (calls : ι → ResolveCall)

inductive ResolveStep : GatesState B ι → GatesState B ι → Prop
  | insertPending (s : GatesState B ι) (req : ApprovalRequest)
      (hfresh : B.check s.store req.requestId = .error .unknownRequest)
      (hread : s.Readable req.requestId) :
      ResolveStep s { s with store := B.insertPending s.store req }
  | parseRaises (s : GatesState B ι) (i : ι) (granted : Bool)
      (hcall : calls i = .token none granted) (hphase : s.phase i = .idle) :
      ResolveStep s (s.setPhase i .raised)
  | tokenChecked (s : GatesState B ι) (i : ι) (rid : Uuid) (actionHash : String)
      (granted : Bool) (hcall : calls i = .token (some (rid, actionHash)) granted)
      (hphase : s.phase i = .idle) (hread : s.Readable rid) :
      ResolveStep s (s.setPhase i
        (if actionHashMatches (B.getPending s.store rid) actionHash then .ready rid
         else .raised))
  | tokenReadRaises (s : GatesState B ι) (i : ι) (parsed : Option (Uuid × String))
      (granted : Bool) (hcall : calls i = .token parsed granted)
      (hphase : s.phase i = .idle) : ResolveStep s (s.setPhase i .raised)
  | platformChecked (s : GatesState B ι) (i : ι) (rid : Uuid) (status : Resolution)
      (hcall : calls i = .platform rid status) (hphase : s.phase i = .idle)
      (hread : s.Readable rid) :
      ResolveStep s (s.setPhase i
        (if (B.getPending s.store rid).isSome then .ready rid else .skipped))
  | platformReadRaises (s : GatesState B ι) (i : ι) (rid : Uuid) (status : Resolution)
      (hcall : calls i = .platform rid status) (hphase : s.phase i = .idle) :
      ResolveStep s (s.setPhase i .skipped)
  | reject (s : GatesState B ι) (i : ι) (rid : Uuid) (e : ResolveError)
      (hphase : s.phase i = .ready rid) (hread : s.Readable rid)
      (hcheck : B.check s.store rid = .error e) :
      ResolveStep s (s.setPhase i .raised)
  | resolveRaises (s : GatesState B ι) (i : ι) (rid : Uuid)
      (hphase : s.phase i = .ready rid) : ResolveStep s (s.setPhase i .raised)
  | acquire (s : GatesState B ι) (i : ι) (rid : Uuid) (req : ApprovalRequest)
      (hphase : s.phase i = .ready rid) (hfree : s.lock (B.lockKey rid) = none)
      (hcheck : B.check s.store rid = .ok req) :
      ResolveStep s
        ({ s with lock := Function.update s.lock (B.lockKey rid) (some i)
         }.setPhase i (.inHook rid req))
  | hookRaises (s : GatesState B ι) (i : ι) (rid : Uuid) (req : ApprovalRequest)
      (hphase : s.phase i = .inHook rid req) :
      ResolveStep s ((s.release i).setPhase i .raised)
  | hookCompletes (s : GatesState B ι) (i : ι) (rid : Uuid) (req : ApprovalRequest)
      (hphase : s.phase i = .inHook rid req) :
      ResolveStep s
        ({ s with events := s.events ++ [emitAudit (calls i) rid req]
         }.setPhase i (.committing rid req))
  | commit (s : GatesState B ι) (i : ι) (rid : Uuid) (req : ApprovalRequest)
      (hphase : s.phase i = .committing rid req) :
      ResolveStep s
        (({ s with store := B.commit s.store rid (calls i).verdict req
          }.release i).setPhase i (.returned rid))

variable (B) in
def resolveSystem : System (GatesState B ι) where
  init s := s = GatesState.initial B
  step := ResolveStep calls

end System

/-! ## Mutual exclusion on a request -/

section Invariants

variable {calls : ι → ResolveCall} {s t : GatesState B ι}

@[simp] theorem setPhase_self (i : ι) (p : CallPhase) : (s.setPhase i p).phase i = p :=
  Function.update_self ..

theorem setPhase_of_ne {i j : ι} (h : j ≠ i) (p : CallPhase) :
    (s.setPhase i p).phase j = s.phase j :=
  Function.update_of_ne h ..

/-- A call that is elsewhere than where call `i` went was there before. -/
theorem phase_of_setPhase {i j : ι} {p q : CallPhase} (hnew : p ≠ q)
    (h : (s.setPhase i p).phase j = q) : s.phase j = q := by
  by_cases hji : j = i
  · rw [hji, setPhase_self] at h
    exact absurd h hnew
  · rwa [setPhase_of_ne hji] at h

theorem phase_setPhase_iff {i j : ι} {p q : CallPhase} (hold : s.phase i ≠ q) (hnew : p ≠ q) :
    (s.setPhase i p).phase j = q ↔ s.phase j = q := by
  constructor
  · exact phase_of_setPhase hnew
  · intro h
    have hji : j ≠ i := by
      intro heq
      rw [heq] at h
      exact hold h
    rwa [setPhase_of_ne hji]

/-- A call inside the transaction of a request holds its lock, and the request
is unresolved. -/
structure TransactionOk (s : GatesState B ι) : Prop where
  locked : ∀ i rid req, (s.phase i).InTransaction rid req →
    s.lock (B.lockKey rid) = some i
  checked : ∀ i rid req, (s.phase i).InTransaction rid req →
    B.check s.store rid = .ok req

omit [DecidableEq ι] in
theorem TransactionOk.eq_of_inTransaction (h : TransactionOk s) {i j : ι} {rid : Uuid}
    {req req' : ApprovalRequest} (hi : (s.phase i).InTransaction rid req)
    (hj : (s.phase j).InTransaction rid req') : i = j := by
  have hlock := h.locked i rid req hi
  rw [h.locked j rid req' hj] at hlock
  exact (Option.some.inj hlock).symm

/-- A change of phase that does not enter a transaction. -/
theorem TransactionOk.setPhase (h : TransactionOk s) {i : ι} {p : CallPhase}
    (hp : ∀ rid req, p.InTransaction rid req → (s.phase i).InTransaction rid req) :
    TransactionOk (s.setPhase i p) := by
  have hold : ∀ j rid req, ((s.setPhase i p).phase j).InTransaction rid req →
      (s.phase j).InTransaction rid req := by
    intro j rid req hj
    by_cases hji : j = i
    · subst hji
      rw [setPhase_self] at hj
      exact hp rid req hj
    · rwa [setPhase_of_ne hji] at hj
  exact ⟨fun j rid req hj => h.locked j rid req (hold j rid req hj),
    fun j rid req hj => h.checked j rid req (hold j rid req hj)⟩

theorem not_inTransaction {p : CallPhase} (hhook : ∀ rid req, p ≠ .inHook rid req)
    (hcommit : ∀ rid req, p ≠ .committing rid req) (rid : Uuid)
    (req : ApprovalRequest) : ¬p.InTransaction rid req := by
  rintro (hp | hp)
  · exact hhook rid req hp
  · exact hcommit rid req hp

theorem TransactionOk.outside (h : TransactionOk s) {i : ι} {p : CallPhase}
    (hhook : ∀ rid req, p ≠ .inHook rid req)
    (hcommit : ∀ rid req, p ≠ .committing rid req) : TransactionOk (s.setPhase i p) :=
  h.setPhase fun rid req hp => absurd hp (not_inTransaction hhook hcommit rid req)

/-- The end of a transaction, in a store where the others' requests are as
before. -/
theorem TransactionOk.release (h : TransactionOk s) {i : ι} {p : CallPhase}
    {σ : B.State} (hp : ∀ rid req, ¬p.InTransaction rid req)
    (hσ : ∀ j rid req, j ≠ i → (s.phase j).InTransaction rid req →
      B.check σ rid = .ok req) :
    TransactionOk (({ s with store := σ }.release i).setPhase i p) := by
  constructor
  · intro j rid req hj
    by_cases hji : j = i
    · subst hji
      rw [setPhase_self] at hj
      exact absurd hj (hp rid req)
    · rw [setPhase_of_ne hji] at hj
      have hlock := h.locked j rid req hj
      change (if s.lock _ = some i then none else s.lock _) = some j
      rw [hlock, if_neg fun heq => hji (Option.some.inj heq)]
  · intro j rid req hj
    by_cases hji : j = i
    · subst hji
      rw [setPhase_self] at hj
      exact absurd hj (hp rid req)
    · rw [setPhase_of_ne hji] at hj
      exact hσ j rid req hji hj

theorem transactionOk_step (h : TransactionOk s) (hstep : ResolveStep calls s t) :
    TransactionOk t := by
  cases hstep with
  | insertPending req hfresh hread =>
      refine ⟨h.locked, fun i rid req' hi => ?_⟩
      have hcheck := h.checked i rid req' hi
      have hne : req.requestId ≠ rid := by
        rintro rfl
        rw [hcheck] at hfresh
        cases hfresh
      exact (B.check_insert req rid hne).trans hcheck
  | parseRaises i granted hcall hphase => exact h.outside (by simp) (by simp)
  | tokenChecked i rid actionHash granted hcall hphase hread =>
      split
      · exact h.outside (by simp) (by simp)
      · exact h.outside (by simp) (by simp)
  | tokenReadRaises i parsed granted hcall hphase => exact h.outside (by simp) (by simp)
  | platformChecked i rid status hcall hphase hread =>
      split
      · exact h.outside (by simp) (by simp)
      · exact h.outside (by simp) (by simp)
  | platformReadRaises i rid status hcall hphase => exact h.outside (by simp) (by simp)
  | reject i rid e hphase hread hcheck => exact h.outside (by simp) (by simp)
  | resolveRaises i rid hphase => exact h.outside (by simp) (by simp)
  | acquire i rid req hphase hfree hcheck =>
      have hkey : ∀ j rid' req', j ≠ i → (s.phase j).InTransaction rid' req' →
          B.lockKey rid' ≠ B.lockKey rid := by
        intro j rid' req' _ hj heq
        have hlock := h.locked j rid' req' hj
        rw [heq, hfree] at hlock
        cases hlock
      constructor
      · intro j rid' req' hj
        by_cases hji : j = i
        · subst hji
          rw [setPhase_self] at hj
          rcases hj with hj | hj
          · cases hj
            exact Function.update_self ..
          · cases hj
        · rw [setPhase_of_ne hji] at hj
          exact (Function.update_of_ne (hkey j rid' req' hji hj) ..).trans
            (h.locked j rid' req' hj)
      · intro j rid' req' hj
        by_cases hji : j = i
        · subst hji
          rw [setPhase_self] at hj
          rcases hj with hj | hj
          · cases hj
            exact hcheck
          · cases hj
        · rw [setPhase_of_ne hji] at hj
          exact h.checked j rid' req' hj
  | hookRaises i rid req hphase =>
      exact h.release (not_inTransaction (by simp) (by simp)) fun j rid' req' _ hj =>
        h.checked j rid' req' hj
  | hookCompletes i rid req hphase =>
      have hevents : TransactionOk
          { s with events := s.events ++ [emitAudit (calls i) rid req] } :=
        ⟨h.locked, h.checked⟩
      refine hevents.setPhase fun rid' req' hp => ?_
      rcases hp with hp | hp
      · cases hp
      · cases hp
        exact Or.inl hphase
  | commit i rid req hphase =>
      refine h.release (not_inTransaction (by simp) (by simp)) fun j rid' req' hji hj => ?_
      have hne : rid' ≠ rid := by
        rintro rfl
        exact hji (h.eq_of_inTransaction hj (Or.inr hphase))
      exact (B.check_commit _ req hne).trans (h.checked j rid' req' hj)

theorem transactionOk_of_reachable (h : (resolveSystem B calls).Reachable s) :
    TransactionOk s := by
  refine System.invariant ?_ ?_ h
  · rintro s rfl
    have hidle : ∀ (i : ι) rid req,
        ¬((GatesState.initial B).phase i).InTransaction rid req := fun i =>
      not_inTransaction (by simp [GatesState.initial]) (by simp [GatesState.initial])
    exact ⟨fun i rid req hi => absurd hi (hidle i rid req),
      fun i rid req hi => absurd hi (hidle i rid req)⟩
  · intro s t _ hinv hstep
    exact transactionOk_step hinv hstep

/-! ## Calls stay with their request -/

/-- The phase of every call names the request of the call. -/
def OnTarget (calls : ι → ResolveCall) (s : GatesState B ι) : Prop :=
  ∀ i rid, (s.phase i).request? = some rid → (calls i).target = some rid

theorem OnTarget.setPhase (h : OnTarget calls s) {i : ι} {p : CallPhase}
    (hp : ∀ rid, p.request? = some rid → (calls i).target = some rid) :
    OnTarget calls (s.setPhase i p) := by
  intro j rid hj
  by_cases hji : j = i
  · subst hji
    rw [setPhase_self] at hj
    exact hp rid hj
  · rw [setPhase_of_ne hji] at hj
    exact h j rid hj

theorem onTarget_step (h : OnTarget calls s) (hstep : ResolveStep calls s t) :
    OnTarget calls t := by
  cases hstep with
  | insertPending req hfresh hread => exact h
  | parseRaises i granted hcall hphase => exact h.setPhase (by rintro rid ⟨⟩)
  | tokenChecked i rid actionHash granted hcall hphase hread =>
      split
      · refine h.setPhase ?_
        rintro rid' ⟨⟩
        rw [hcall]
        rfl
      · exact h.setPhase (by rintro rid' ⟨⟩)
  | tokenReadRaises i parsed granted hcall hphase => exact h.setPhase (by rintro rid ⟨⟩)
  | platformChecked i rid status hcall hphase hread =>
      split
      · refine h.setPhase ?_
        rintro rid' ⟨⟩
        rw [hcall]
        rfl
      · exact h.setPhase (by rintro rid' ⟨⟩)
  | platformReadRaises i rid status hcall hphase => exact h.setPhase (by rintro rid' ⟨⟩)
  | reject i rid e hphase hread hcheck => exact h.setPhase (by rintro rid' ⟨⟩)
  | resolveRaises i rid hphase => exact h.setPhase (by rintro rid' ⟨⟩)
  | acquire i rid req hphase hfree hcheck =>
      have hi := h i rid (by rw [hphase]; rfl)
      have hlocked : OnTarget calls
          { s with lock := Function.update s.lock (B.lockKey rid) (some i) } := h
      exact hlocked.setPhase (by rintro rid' ⟨⟩; exact hi)
  | hookRaises i rid req hphase =>
      have hreleased : OnTarget calls (s.release i) := h
      exact hreleased.setPhase (by rintro rid' ⟨⟩)
  | hookCompletes i rid req hphase =>
      have hi := h i rid (by rw [hphase]; rfl)
      have hevents : OnTarget calls
          { s with events := s.events ++ [emitAudit (calls i) rid req] } := h
      exact hevents.setPhase (by rintro rid' ⟨⟩; exact hi)
  | commit i rid req hphase =>
      have hi := h i rid (by rw [hphase]; rfl)
      have hstored : OnTarget calls
          ({ s with store := B.commit s.store rid (calls i).verdict req }.release i) := h
      exact hstored.setPhase (by rintro rid' ⟨⟩; exact hi)

theorem onTarget_of_reachable (h : (resolveSystem B calls).Reachable s) :
    OnTarget calls s := by
  refine System.invariant ?_ ?_ h
  · rintro s rfl i rid ⟨⟩
  · intro s t _ hinv hstep
    exact onTarget_step hinv hstep

/-! ## One call and one event for each decision -/

omit [DecidableEq ι] in
theorem TransactionOk.resolution_eq_none (h : TransactionOk s) {i : ι} {rid : Uuid}
    {req : ApprovalRequest} (hi : (s.phase i).InTransaction rid req) :
    s.resolution rid = none :=
  B.getResolution_of_check (h.checked i rid req hi)

omit [DecidableEq ι] in
theorem verdicts_append (e : DecisionEvent) (rid : Uuid) :
    ({ s with events := s.events ++ [e] } : GatesState B ι).verdicts rid =
      s.verdicts rid ++ if e.requestId = rid then [e.verdict] else [] := by
  by_cases h : e.requestId = rid
  · simp [GatesState.verdicts, h]
  · simp [GatesState.verdicts, h]

/-- Resolutions, successful calls and decision events match one to one; a call
between its hook and its commit has emitted its event already. -/
structure DecisionOk (calls : ι → ResolveCall) (s : GatesState B ι) : Prop where
  resolved : ∀ i rid, s.phase i = .returned rid →
    s.resolution rid = some (calls i).verdict
  author : ∀ rid v, s.resolution rid = some v → ∃ i, s.phase i = .returned rid
  unique : ∀ i j rid, s.phase i = .returned rid → s.phase j = .returned rid → i = j
  emitted : ∀ rid v, s.resolution rid = some v → s.verdicts rid = [v]
  emitting : ∀ i rid req, s.phase i = .committing rid req →
    s.verdicts rid = [(calls i).verdict]
  silent : ∀ rid, s.resolution rid = none →
    (∀ i req, s.phase i ≠ .committing rid req) → s.verdicts rid = []

/-- A change of phase before the hook has completed. -/
theorem DecisionOk.setPhase (h : DecisionOk calls s) {i : ι} {p : CallPhase}
    (hold : (∀ rid, s.phase i ≠ .returned rid) ∧ ∀ rid req, s.phase i ≠ .committing rid req)
    (hnew : (∀ rid, p ≠ .returned rid) ∧ ∀ rid req, p ≠ .committing rid req) :
    DecisionOk calls (s.setPhase i p) := by
  have hret : ∀ j rid, (s.setPhase i p).phase j = .returned rid ↔
      s.phase j = .returned rid :=
    fun j rid => phase_setPhase_iff (hold.1 rid) (hnew.1 rid)
  have hcom : ∀ j rid req, (s.setPhase i p).phase j = .committing rid req ↔
      s.phase j = .committing rid req :=
    fun j rid req => phase_setPhase_iff (hold.2 rid req) (hnew.2 rid req)
  constructor
  · intro j rid hj
    exact h.resolved j rid ((hret j rid).mp hj)
  · intro rid v hres
    obtain ⟨j, hj⟩ := h.author rid v hres
    exact ⟨j, (hret j rid).mpr hj⟩
  · intro j k rid hj hk
    exact h.unique j k rid ((hret j rid).mp hj) ((hret k rid).mp hk)
  · exact h.emitted
  · intro j rid req hj
    exact h.emitting j rid req ((hcom j rid req).mp hj)
  · intro rid hres hnone
    exact h.silent rid hres fun j req hj => hnone j req ((hcom j rid req).mpr hj)

/-- The hook of call `i` completes: its request had no event before. -/
theorem DecisionOk.hookCompletes (h : DecisionOk calls s) (htrans : TransactionOk s)
    {i : ι} {rid : Uuid} {req : ApprovalRequest} (hphase : s.phase i = .inHook rid req) :
    DecisionOk calls
      ({ s with events := s.events ++ [emitAudit (calls i) rid req]
       }.setPhase i (.committing rid req)) := by
  have hres : s.resolution rid = none := htrans.resolution_eq_none (Or.inl hphase)
  have hnotcom : ∀ j req', s.phase j ≠ .committing rid req' := by
    intro j req' hj
    have hji : j = i := htrans.eq_of_inTransaction (Or.inr hj) (Or.inl hphase)
    rw [hji, hphase] at hj
    cases hj
  have hverdicts : ∀ rid', ({ s with
      events := s.events ++ [emitAudit (calls i) rid req] } : GatesState B ι).verdicts rid' =
        s.verdicts rid' ++ if rid = rid' then [(calls i).verdict] else [] :=
    verdicts_append _
  have hother : ∀ rid', rid' ≠ rid → ({ s with
      events := s.events ++ [emitAudit (calls i) rid req] } : GatesState B ι).verdicts rid' =
        s.verdicts rid' := by
    intro rid' hne
    rw [hverdicts, if_neg hne.symm, List.append_nil]
  have hself : ({ s with
      events := s.events ++ [emitAudit (calls i) rid req] } : GatesState B ι).verdicts rid =
        [(calls i).verdict] := by
    rw [hverdicts, if_pos rfl, h.silent rid hres hnotcom, List.nil_append]
  have hret : ∀ j rid', (GatesState.setPhase { s with
      events := s.events ++ [emitAudit (calls i) rid req] } i
        (.committing rid req)).phase j = .returned rid' ↔ s.phase j = .returned rid' := by
    intro j rid'
    refine phase_setPhase_iff ?_ (by simp)
    simp [hphase]
  constructor
  · intro j rid' hj
    exact h.resolved j rid' ((hret j rid').mp hj)
  · intro rid' v hv
    obtain ⟨j, hj⟩ := h.author rid' v hv
    exact ⟨j, (hret j rid').mpr hj⟩
  · intro j k rid' hj hk
    exact h.unique j k rid' ((hret j rid').mp hj) ((hret k rid').mp hk)
  · intro rid' v hv
    have hne : rid' ≠ rid := by
      rintro rfl
      rw [show s.resolution rid' = some v from hv] at hres
      cases hres
    exact (hother rid' hne).trans (h.emitted rid' v hv)
  · intro j rid' req' hj
    by_cases hji : j = i
    · subst hji
      rw [setPhase_self] at hj
      cases hj
      exact hself
    · rw [setPhase_of_ne hji] at hj
      have hne : rid' ≠ rid := by
        rintro rfl
        exact hnotcom j req' hj
      exact (hother rid' hne).trans (h.emitting j rid' req' hj)
  · intro rid' hv hnone
    have hne : rid' ≠ rid := by
      rintro rfl
      exact hnone i req (by rw [setPhase_self])
    refine (hother rid' hne).trans (h.silent rid' hv fun j req' hj => hnone j req' ?_)
    refine (phase_setPhase_iff ?_ ?_).mpr hj
    · simp [hphase]
    · simp [hne.symm]

/-- The resolution of call `i` becomes visible: it is the first of its request. -/
theorem DecisionOk.commit (h : DecisionOk calls s) (htrans : TransactionOk s)
    {i : ι} {rid : Uuid} {req : ApprovalRequest}
    (hphase : s.phase i = .committing rid req) :
    DecisionOk calls
      (({ s with store := B.commit s.store rid (calls i).verdict req
        }.release i).setPhase i (.returned rid)) := by
  have hnone : s.resolution rid = none := htrans.resolution_eq_none (Or.inr hphase)
  have hres : ∀ rid', B.getResolution (B.commit s.store rid (calls i).verdict req) rid' =
      if rid' = rid then some (calls i).verdict else s.resolution rid' :=
    B.getResolution_commit s.store rid (calls i).verdict req
  have hnotret : ∀ j, s.phase j ≠ .returned rid := by
    intro j hj
    rw [h.resolved j rid hj] at hnone
    cases hnone
  -- of the other requests nothing changes, and call `i` is the one that returned for `rid`
  have hret : ∀ j rid', rid' ≠ rid → (((({ s with
      store := B.commit s.store rid (calls i).verdict req }.release i).setPhase i
        (.returned rid)).phase j) = .returned rid' ↔ s.phase j = .returned rid') := by
    intro j rid' hne
    refine phase_setPhase_iff ?_ (by simp [hne.symm])
    change s.phase i ≠ .returned rid'
    simp [hphase]
  have hself : ∀ j, ((({ s with
      store := B.commit s.store rid (calls i).verdict req }.release i).setPhase i
        (.returned rid)).phase j) = .returned rid → j = i := by
    intro j hj
    by_contra hji
    rw [setPhase_of_ne hji] at hj
    exact hnotret j hj
  constructor
  · intro j rid' hj
    refine (hres rid').trans ?_
    by_cases hne : rid' = rid
    · subst hne
      rw [if_pos rfl, hself j hj]
    · rw [if_neg hne]
      exact h.resolved j rid' ((hret j rid' hne).mp hj)
  · intro rid' v hv
    by_cases hne : rid' = rid
    · subst hne
      exact ⟨i, setPhase_self ..⟩
    · obtain ⟨j, hj⟩ := h.author rid' v (((hres rid').trans (if_neg hne)).symm.trans hv)
      exact ⟨j, (hret j rid' hne).mpr hj⟩
  · intro j k rid' hj hk
    by_cases hne : rid' = rid
    · subst hne
      rw [hself j hj, hself k hk]
    · exact h.unique j k rid' ((hret j rid' hne).mp hj) ((hret k rid' hne).mp hk)
  · intro rid' v hv
    have hv' := (hres rid').symm.trans hv
    by_cases hne : rid' = rid
    · subst hne
      rw [if_pos rfl] at hv'
      obtain rfl := Option.some.inj hv'
      exact h.emitting i rid' req hphase
    · rw [if_neg hne] at hv'
      exact h.emitted rid' v hv'
  · intro j rid' req' hj
    exact h.emitting j rid' req' (phase_of_setPhase (by simp) hj)
  · intro rid' hv hcom
    have hv' := (hres rid').symm.trans hv
    have hne : rid' ≠ rid := by
      intro heq
      rw [if_pos heq] at hv'
      exact Option.some_ne_none _ hv'
    rw [if_neg hne] at hv'
    refine h.silent rid' hv' fun j req' hj => hcom j req' ?_
    refine (phase_setPhase_iff ?_ (by simp)).mpr hj
    change s.phase i ≠ .committing rid' req'
    simp [hphase, hne.symm]

theorem decisionOk_step (h : DecisionOk calls s) (htrans : TransactionOk s)
    (hstep : ResolveStep calls s t) : DecisionOk calls t := by
  cases hstep with
  | insertPending req hfresh hread =>
      have hres : ∀ rid, ({ s with store := B.insertPending s.store req } :
          GatesState B ι).resolution rid = s.resolution rid :=
        fun rid => B.getResolution_insert req rid hfresh
      exact
        { resolved := fun i rid hi => (hres rid).trans (h.resolved i rid hi)
          author := fun rid v hv => h.author rid v ((hres rid).symm.trans hv)
          unique := h.unique
          emitted := fun rid v hv => h.emitted rid v ((hres rid).symm.trans hv)
          emitting := h.emitting
          silent := fun rid hv hcom => h.silent rid ((hres rid).symm.trans hv) hcom }
  | parseRaises i granted hcall hphase =>
      exact h.setPhase (by simp [hphase]) (by simp)
  | tokenChecked i rid actionHash granted hcall hphase hread =>
      split
      · exact h.setPhase (by simp [hphase]) (by simp)
      · exact h.setPhase (by simp [hphase]) (by simp)
  | tokenReadRaises i parsed granted hcall hphase =>
      exact h.setPhase (by simp [hphase]) (by simp)
  | platformChecked i rid status hcall hphase hread =>
      split
      · exact h.setPhase (by simp [hphase]) (by simp)
      · exact h.setPhase (by simp [hphase]) (by simp)
  | platformReadRaises i rid status hcall hphase =>
      exact h.setPhase (by simp [hphase]) (by simp)
  | reject i rid e hphase hread hcheck =>
      exact h.setPhase (by simp [hphase]) (by simp)
  | resolveRaises i rid hphase => exact h.setPhase (by simp [hphase]) (by simp)
  | acquire i rid req hphase hfree hcheck =>
      have hlocked : DecisionOk calls
          { s with lock := Function.update s.lock (B.lockKey rid) (some i) } :=
        ⟨h.resolved, h.author, h.unique, h.emitted, h.emitting, h.silent⟩
      exact hlocked.setPhase (by simp [hphase]) (by simp)
  | hookRaises i rid req hphase =>
      have hreleased : DecisionOk calls (s.release i) :=
        ⟨h.resolved, h.author, h.unique, h.emitted, h.emitting, h.silent⟩
      refine hreleased.setPhase ?_ (by simp)
      simp [GatesState.release, hphase]
  | hookCompletes i rid req hphase => exact h.hookCompletes htrans hphase
  | commit i rid req hphase => exact h.commit htrans hphase

theorem decisionOk_of_reachable (h : (resolveSystem B calls).Reachable s) :
    DecisionOk calls s := by
  refine System.invariant ?_ ?_ h
  · rintro s rfl
    have hnone : ∀ rid, (GatesState.initial B : GatesState B ι).resolution rid = none :=
      B.getResolution_empty
    constructor
    · rintro i rid ⟨⟩
    · intro rid v hv
      rw [hnone] at hv
      cases hv
    · rintro i j rid ⟨⟩
    · intro rid v hv
      rw [hnone] at hv
      cases hv
    · rintro i rid req ⟨⟩
    · intro rid _ _
      rfl
  · intro s t hreach hinv hstep
    exact decisionOk_step hinv (transactionOk_of_reachable hreach) hstep

/-- The store changes by a new request, or by the commit of a call whose hook has
completed; in particular a call whose hook raises leaves it as it was. -/
theorem store_step (hstep : ResolveStep calls s t) :
    t.store = s.store ∨
      (∃ req, B.check s.store req.requestId = .error .unknownRequest ∧
        t.store = B.insertPending s.store req) ∨
      ∃ i rid req, s.phase i = .committing rid req ∧ t.phase i = .returned rid ∧
        t.store = B.commit s.store rid (calls i).verdict req := by
  cases hstep with
  | insertPending req hfresh hread => exact Or.inr (Or.inl ⟨req, hfresh, rfl⟩)
  | commit i rid req hphase =>
      exact Or.inr (Or.inr ⟨i, rid, req, hphase, setPhase_self .., rfl⟩)
  | _ => exact Or.inl rfl

/-- A step of a call that does not return successfully leaves the store as it was,
so a call that ends by raising never changed it. -/
theorem store_eq_of_not_returned (hstep : ResolveStep calls s t) {i : ι}
    (hmoved : t.phase i ≠ s.phase i) (hnot : ∀ rid, t.phase i ≠ .returned rid) :
    t.store = s.store := by
  cases hstep with
  | insertPending req hfresh hread => exact absurd rfl hmoved
  | commit j rid req hphase =>
      by_cases hij : i = j
      · subst hij
        exact absurd (setPhase_self ..) (hnot rid)
      · exact absurd (setPhase_of_ne hij _) hmoved
  | _ => rfl

theorem resolution_step (htrans : TransactionOk s) (hstep : ResolveStep calls s t)
    {rid : Uuid} {v : Resolution} (h : s.resolution rid = some v) :
    t.resolution rid = some v := by
  rw [GatesState.resolution]
  rcases store_step hstep with hstore | ⟨req, hfresh, hstore⟩ |
    ⟨i, rid', req, hphase, -, hstore⟩
  · rw [hstore]
    exact h
  · rw [hstore]
    exact (B.getResolution_insert req rid hfresh).trans h
  · rw [hstore, B.getResolution_commit, if_neg]
    · exact h
    · rintro rfl
      rw [htrans.resolution_eq_none (Or.inr hphase)] at h
      cases h

/-- A resolution never changes afterwards. -/
theorem resolution_stable (h : (resolveSystem B calls).Reachable s)
    (hrun : Relation.ReflTransGen (ResolveStep calls) s t) {rid : Uuid} {v : Resolution}
    (hres : s.resolution rid = some v) : t.resolution rid = some v := by
  have hboth : (resolveSystem B calls).Reachable t ∧ t.resolution rid = some v := by
    induction hrun with
    | refl => exact ⟨h, hres⟩
    | tail _ hlast ih =>
        exact ⟨ih.1.next hlast,
          resolution_step (transactionOk_of_reachable ih.1) hlast ih.2⟩
  exact hboth.2

end Invariants

/-- Decisions are single-use in both stores, for any interleaving of calls: a
resolution is permanent; exactly one call for a resolved request has returned,
with the stored verdict; exactly one decision event was emitted for it, with that
verdict, and none for an unresolved request unless a call is about to commit; the
store changes only by new requests and by commits after a completed hook, so the
steps of a call that raises leave it as it was. -/
theorem decisions_single_use (kind : StoreKind) {calls : ι → ResolveCall}
    {s : GatesState kind.backend ι} (h : (resolveSystem kind.backend calls).Reachable s) :
    (∀ t rid v, Relation.ReflTransGen (ResolveStep calls) s t →
      s.resolution rid = some v → t.resolution rid = some v) ∧
    (∀ rid v, s.resolution rid = some v → ∃! i, s.phase i = .returned rid) ∧
    (∀ i rid, s.phase i = .returned rid → s.resolution rid = some (calls i).verdict) ∧
    (∀ rid v, s.resolution rid = some v → s.verdicts rid = [v]) ∧
    (∀ rid, s.resolution rid = none → (∀ i req, s.phase i ≠ .committing rid req) →
      s.verdicts rid = []) ∧
    (∀ t, ResolveStep calls s t →
      t.store = s.store ∨
        (∃ req, kind.backend.check s.store req.requestId = .error .unknownRequest ∧
          t.store = kind.backend.insertPending s.store req) ∨
        ∃ i rid req, s.phase i = .committing rid req ∧ t.phase i = .returned rid ∧
          t.store = kind.backend.commit s.store rid (calls i).verdict req) ∧
    (∀ t i, ResolveStep calls s t → t.phase i ≠ s.phase i →
      (∀ rid, t.phase i ≠ .returned rid) → t.store = s.store) := by
  have hok := decisionOk_of_reachable h
  refine ⟨fun t rid v hrun hres => resolution_stable h hrun hres, ?_, hok.resolved,
    hok.emitted, hok.silent, fun t hstep => store_step hstep,
    fun t i hstep => store_eq_of_not_returned hstep⟩
  intro rid v hres
  obtain ⟨i, hi⟩ := hok.author rid v hres
  exact ⟨i, hi, fun j hj => hok.unique j i rid hj hi⟩

/-! ### A grant and a denial of the same request -/

def sampleRequest : ApprovalRequest where
  requestId := ⟨7⟩
  agentId := "billing-agent"
  kind := "charge_card"
  actionHash := String.ofList (List.replicate 64 'a')
  expiresAt := ⟨2025, 1, 2, 4, 4, 5, 0, some .utc⟩
  payload := []
  token := String.ofList (List.replicate 64 't')

/-- `grant(token)` is call `true`, `deny(token)` call `false`. -/
def racingCalls (granted : Bool) : ResolveCall :=
  .token (some (⟨7⟩, sampleRequest.actionHash)) granted

/-- The denial takes the row lock first; the grant is rejected. -/
theorem racingCalls_single_use :
    ∃ s : GatesState StoreKind.postgres.backend Bool,
      (resolveSystem StoreKind.postgres.backend racingCalls).Reachable s ∧
        s.resolution ⟨7⟩ = some .denied ∧ s.phase true = .raised ∧
          s.verdicts ⟨7⟩ = [.denied] := by
  have h₀ : (resolveSystem StoreKind.postgres.backend racingCalls).Reachable
      (GatesState.initial _) := .start rfl
  have h₁ := h₀.next (.insertPending _ sampleRequest rfl (by rintro ⟨⟩))
  have h₂ := h₁.next (.tokenChecked _ true ⟨7⟩ _ true rfl rfl (by rintro ⟨⟩))
  have h₃ := h₂.next (.tokenChecked _ false ⟨7⟩ _ false rfl rfl (by rintro ⟨⟩))
  have h₄ := h₃.next (.acquire _ false ⟨7⟩ sampleRequest rfl rfl rfl)
  have h₅ := h₄.next (.hookCompletes _ false ⟨7⟩ sampleRequest rfl)
  have h₆ := h₅.next (.commit _ false ⟨7⟩ sampleRequest rfl)
  have h₇ := h₆.next (.reject _ true ⟨7⟩ .alreadyUsed rfl (by rintro ⟨⟩) rfl)
  refine ⟨_, h₇, rfl, rfl, ?_⟩
  exact (decisions_single_use .postgres h₇).2.2.2.1 ⟨7⟩ .denied rfl

end AgenticGovernance.Gates

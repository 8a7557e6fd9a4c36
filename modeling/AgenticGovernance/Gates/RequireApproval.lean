import Mathlib
import AgenticGovernance.Gates.Tokens
import AgenticGovernance.Gates.WaitFor

/-!
# Functions that need an approval

`@gates.require_approval` opens a request for every call of a function, waits for its
decision and only then runs the body.  The request is stored under a fresh id together with
the hash of the arguments; its token says the same under a MAC.

`guarded_call_approved` follows a body that runs back to its decision: a token for this very
request, with the hash of these very arguments, or a verdict of the platform on this request.
No other call has the request, so one decision runs one body.
-/

namespace AgenticGovernance.Gates

open Support Audit

/-! ## Requests and decisions -/

/-- `MAX_PAYLOAD_BYTES` -/
def maxPayloadBytes : ℕ := 64 * 1024

/-- The secret of the module and how it reads tokens. -/
structure GateKeys where
  hmac : Hmac
  stamps : StampReader
  source : KeySource
  secret : Bytes
  acceptV1Until : Option Datetime
  enableV2Tokens : Bool
  sha256 : String → String

/-- `_hash_action_payload`.  The text is ASCII, so that its characters are its bytes. -/
def GateKeys.hashActionPayload (K : GateKeys) (payload : List (String × Json)) : String :=
  K.sha256 (String.ofList ((Json.obj payload).canonical.toList.take maxPayloadBytes))

/-- A call of a decorated function. -/
structure GuardedCall where
  kind : String
  agentId : String
  args : List Json
  kwargs : List (String × Json)
  blocking : Bool

def GuardedCall.payload (g : GuardedCall) : List (String × Json) :=
  [("args", .arr g.args), ("kwargs", .obj g.kwargs)]

/-- What `request` draws: a `uuid4`, and the time plus the validity. -/
structure RequestDraw where
  requestId : Uuid
  expiresAt : Datetime

/-- The request that `request` builds. -/
def GuardedCall.request (K : GateKeys) (g : GuardedCall) (d : RequestDraw) :
    ApprovalRequest where
  requestId := d.requestId
  agentId := g.agentId
  kind := g.kind
  actionHash := K.hashActionPayload g.payload
  expiresAt := d.expiresAt
  payload := g.payload
  token := makeToken K.hmac K.secret d.requestId (K.hashActionPayload g.payload) d.expiresAt
    K.enableV2Tokens

/-- A call of `grant` or `deny` with the text of a token, at the times that its parsing reads,
or the write-back of a verdict of the platform. -/
inductive Presented where
  | token (text : String) (granted : Bool) (sunsetNow now : Datetime)
  | platform (rid : Uuid) (status : Resolution)

def GateKeys.parse (K : GateKeys) (text : String) (sunsetNow now : Datetime) :
    Except TokenError (Uuid × String × Datetime) :=
  parseToken K.hmac K.stamps K.source K.secret text K.acceptV1Until sunsetNow now

def Presented.call (K : GateKeys) : Presented → ResolveCall
  | token text granted sunsetNow now =>
      .token ((K.parse text sunsetNow now).toOption.map fun t => (t.1, t.2.1)) granted
  | platform rid status => .platform rid status

/-! ## Runs -/

/-- The waiters of the calls, and which of them have opened their request. -/
structure GuardedState (B : GatesBackend) (ι ω : Type*) where
  wait : WaitState B ι ω
  asked : ω → Bool

namespace GuardedState

variable {B : GatesBackend} {ι ω : Type*} [DecidableEq ω]

def ask (s : GuardedState B ι ω) (w : ω) : GuardedState B ι ω :=
  { s with asked := Function.update s.asked w true }

def insertPending (s : GuardedState B ι ω) (req : ApprovalRequest) : GuardedState B ι ω :=
  { s with
    wait :=
      { s.wait with
        gates := { s.wait.gates with store := B.insertPending s.wait.gates.store req } } }

end GuardedState

section System

variable {B : GatesBackend} {ι ω : Type*} [DecidableEq ι] [DecidableEq ω]
  (K : GateKeys) (presented : ι → Presented) (guarded : ω → GuardedCall)
  (draws : ω → RequestDraw)

/-- A request was opened under this id. -/
def GuardedState.Opened (s : GuardedState B ι ω) (rid : Uuid) : Prop :=
  ∃ w, s.asked w = true ∧ (draws w).requestId = rid

inductive GuardedStep : GuardedState B ι ω → GuardedState B ι ω → Prop
  /-- `request`, whose insert may fail.  A call that does not block ends here. -/
  | request (s : GuardedState B ι ω) (w : ω) (persisted : Bool) (hnew : s.asked w = false)
      (hfresh : ¬s.Opened draws (draws w).requestId)
      (hread : s.wait.gates.Readable (draws w).requestId) :
      GuardedStep s
        (if persisted then (s.ask w).insertPending ((guarded w).request K (draws w))
         else s.ask w)
  /-- Any other step.  Only calls that have opened their request wait, and nobody decides on
  an id that has not been drawn. -/
  | wait (s : GuardedState B ι ω) (t : WaitState B ι ω)
      (hstep : WaitStep (fun i => (presented i).call K) (fun w => (draws w).requestId) s.wait t)
      (hinsert : ∀ rid, B.check s.wait.gates.store rid = .error .unknownRequest →
        B.check t.gates.store rid = .error .unknownRequest)
      (hwaiter : ∀ w, t.waiter w ≠ s.wait.waiter w →
        s.asked w = true ∧ (guarded w).blocking = true)
      (hdrawn : ∀ i rid, t.gates.phase i ≠ s.wait.gates.phase i →
        ((presented i).call K).target = some rid → s.Opened draws rid) :
      GuardedStep s { s with wait := t }

variable (B) in
/-- The runs of any number of calls of decorated functions, and of any number of decisions. -/
def guardedSystem : System (GuardedState B ι ω) where
  init s := s.wait = ⟨GatesState.initial B, fun _ => .polling⟩ ∧ s.asked = fun _ => false
  step := GuardedStep K presented guarded draws

end System

/-! ## Where a decision comes from -/

section Sources

variable {B : GatesBackend} {ι ω : Type*} [DecidableEq ι] [DecidableEq ω]
  {calls : ι → ResolveCall} {target : ω → Uuid} {s t : WaitState B ι ω}

/-- The decision of a waiter is the stored one, or a verdict of the platform. -/
structure Sourced (calls : ι → ResolveCall) (target : ω → Uuid) (s : WaitState B ι ω) :
    Prop where
  syncing : ∀ w v k, s.waiter w = .syncing v k → calls k = .platform (target w) v
  decided : ∀ w d, (s.waiter w).decision = some d →
    s.gates.resolution (target w) = some d ∨ ∃ k, calls k = .platform (target w) d

omit [DecidableEq ι] in
theorem Sourced.setWaiter (h : Sourced calls target s) {w : ω} {p : WaitPhase ι}
    (hsync : ∀ v k, p = .syncing v k → calls k = .platform (target w) v)
    (hdec : ∀ d, p.decision = some d →
      s.gates.resolution (target w) = some d ∨ ∃ k, calls k = .platform (target w) d) :
    Sourced calls target (s.setWaiter w p) := by
  constructor
  · intro w' v k hw'
    by_cases hww : w' = w
    · subst hww
      exact hsync v k (by simpa [WaitState.setWaiter] using hw')
    · exact h.syncing w' v k (by simpa [WaitState.setWaiter, hww] using hw')
  · intro w' d hw'
    by_cases hww : w' = w
    · subst hww
      exact hdec d (by simpa [WaitState.setWaiter] using hw')
    · exact h.decided w' d (by simpa [WaitState.setWaiter, hww] using hw')

theorem Sourced.step (h : Sourced calls target s) (htrans : TransactionOk s.gates)
    (hstep : WaitStep calls target s t) : Sourced calls target t := by
  cases hstep with
  | resolve g hg hstarted =>
      refine ⟨h.syncing, ?_⟩
      intro w d hd
      exact (h.decided w d hd).imp_left (resolution_step htrans hg)
  | readLocal w hphase hread =>
      apply h.setWaiter
      · intro v k hp
        exact absurd hp ofResolution_ne_syncing
      · intro d hd
        exact Or.inl (decision_ofResolution hd)
  | readLocalRaises w hphase => exact h.setWaiter (by simp) (by simp [WaitPhase.decision])
  | platformVerdict w v k hphase hcall hidle hunused =>
      apply h.setWaiter
      · intro v' k' hp
        obtain ⟨rfl, rfl⟩ := WaitPhase.syncing.inj hp
        exact hcall
      · simp [WaitPhase.decision]
  | noVerdict w hphase => exact h.setWaiter (by simp) (by simp [WaitPhase.decision])
  | timeout w hphase => exact h.setWaiter (by simp) (by simp [WaitPhase.decision])
  | syncEnds w v k hphase hended =>
      apply h.setWaiter
      · intro v' k' hp
        exact absurd hp ofResolution_ne_syncing
      · intro d hd
        have hvd : v = d := Option.some.inj (decision_ofResolution hd)
        rw [← hvd]
        exact Or.inr ⟨k, h.syncing w v k hphase⟩
  | runGuarded w hphase =>
      apply h.setWaiter
      · simp
      · intro d hd
        exact h.decided w d (by rw [hphase]; exact hd)

theorem sourced (h : (waitSystem B calls target).Reachable s) : Sourced calls target s := by
  refine System.invariant ?_ ?_ h
  · intro s hs
    obtain ⟨-, hpolling⟩ := hs
    exact ⟨fun w v k hw => by simp [hpolling w] at hw,
      fun w d hw => by simp [hpolling w, WaitPhase.decision] at hw⟩
  · intro s t hreach hs hstep
    exact hs.step (transactionOk_of_reachable (gates_reachable hreach)) hstep

end Sources

/-! ## The stores -/

section Stores

variable {kind : StoreKind} {σ : kind.backend.State} {rid : Uuid} {req : ApprovalRequest}

theorem check_insert_self
    (h : kind.backend.check σ req.requestId = .error .unknownRequest) :
    kind.backend.check (kind.backend.insertPending σ req) req.requestId = .ok req := by
  cases kind with
  | inMemory =>
      change MemoryGates.check σ req.requestId = .error .unknownRequest at h
      change MemoryGates.check (MemoryGates.insertPending σ req) req.requestId = .ok req
      by_cases hres : (MemoryGates.resolutions σ req.requestId).isSome
      · simp [MemoryGates.check, hres] at h
      · simp [MemoryGates.check, MemoryGates.insertPending, hres]
  | postgres =>
      change PostgresGates.check (PostgresGates.insertPending σ req) req.requestId = .ok req
      simp [PostgresGates.check, PostgresGates.insertPending]

theorem getPending_of_check (h : kind.backend.check σ rid = .ok req) :
    kind.backend.getPending σ rid = some req := by
  cases kind with
  | inMemory =>
      change MemoryGates.check σ rid = .ok req at h
      change MemoryGates.pending σ rid = some req
      by_cases hres : (MemoryGates.resolutions σ rid).isSome
      · simp [MemoryGates.check, hres] at h
      · rcases hpending : MemoryGates.pending σ rid with - | req'
        · simp [MemoryGates.check, hres, hpending] at h
        · simpa [MemoryGates.check, hres, hpending] using h
  | postgres =>
      change PostgresGates.check σ rid = .ok req at h
      change PostgresGates.getPending σ rid = some req
      rcases hrow : PostgresGates.rows σ rid with - | ⟨req', - | v⟩
      · simp [PostgresGates.check, hrow] at h
      · simpa [PostgresGates.check, PostgresGates.getPending, hrow] using h
      · simp [PostgresGates.check, hrow] at h

theorem check_commit_self (v : Resolution) (req : ApprovalRequest) :
    kind.backend.check (kind.backend.commit σ rid v req) rid = .error .alreadyUsed := by
  cases kind with
  | inMemory =>
      change MemoryGates.check (MemoryGates.commit σ rid v req) rid = .error .alreadyUsed
      simp [MemoryGates.check, MemoryGates.commit]
  | postgres =>
      change PostgresGates.check (PostgresGates.commit σ rid v req) rid = .error .alreadyUsed
      simp [PostgresGates.check, PostgresGates.commit]

variable {ι : Type*} [DecidableEq ι] {calls : ι → ResolveCall} {s t : GatesState kind.backend ι}

/-- A step that stores no request makes none pending. -/
theorem check_step (hstep : ResolveStep calls s t)
    (hinsert : ∀ rid, kind.backend.check s.store rid = .error .unknownRequest →
      kind.backend.check t.store rid = .error .unknownRequest)
    (h : kind.backend.check t.store rid = .ok req) :
    kind.backend.check s.store rid = .ok req := by
  rcases store_step hstep with hstore | ⟨req', hunknown, hstore⟩ | ⟨i, rid', req', -, -, hstore⟩
  · rwa [hstore] at h
  · have hstill := hinsert req'.requestId hunknown
    rw [hstore, check_insert_self hunknown] at hstill
    simp at hstill
  · rw [hstore] at h
    by_cases hrid : rid = rid'
    · subst hrid
      rw [check_commit_self] at h
      simp at h
    · rwa [kind.backend.check_commit _ _ hrid] at h

end Stores

/-! ## The phases of one call -/

section Phases

variable {B : GatesBackend} {ι : Type*} [DecidableEq ι] {calls : ι → ResolveCall}
  {s t : GatesState B ι}

/-- The steps of a call that finds the store `σ`. -/
inductive PhaseStep (σ : B.State) (call : ResolveCall) : CallPhase → CallPhase → Prop
  | raised (p : CallPhase) : PhaseStep σ call p .raised
  | skipped (p : CallPhase) : PhaseStep σ call p .skipped
  | tokenReady (rid : Uuid) (actionHash : String) (granted : Bool)
      (hcall : call = .token (some (rid, actionHash)) granted)
      (hmatch : actionHashMatches (B.getPending σ rid) actionHash = true) :
      PhaseStep σ call .idle (.ready rid)
  | platformReady (rid : Uuid) (status : Resolution) (hcall : call = .platform rid status) :
      PhaseStep σ call .idle (.ready rid)
  | entered (rid : Uuid) (req : ApprovalRequest) (hcheck : B.check σ rid = .ok req) :
      PhaseStep σ call (.ready rid) (.inHook rid req)
  | completed (rid : Uuid) (req : ApprovalRequest) :
      PhaseStep σ call (.inHook rid req) (.committing rid req)
  | committed (rid : Uuid) (req : ApprovalRequest) :
      PhaseStep σ call (.committing rid req) (.returned rid)

theorem phaseStep_update {i j : ι} {p : CallPhase}
    (h : PhaseStep s.store (calls i) (s.phase i) p) :
    Function.update s.phase i p j = s.phase j ∨
      PhaseStep s.store (calls j) (s.phase j) (Function.update s.phase i p j) := by
  by_cases hji : j = i
  · subst hji
    rw [Function.update_self]
    exact Or.inr h
  · exact Or.inl (Function.update_of_ne hji ..)

/-- A step moves a call along its phases, or not at all. -/
theorem phase_step (hstep : ResolveStep calls s t) (j : ι) :
    t.phase j = s.phase j ∨ PhaseStep s.store (calls j) (s.phase j) (t.phase j) := by
  cases hstep with
  | insertPending req hfresh hread => exact Or.inl rfl
  | parseRaises i granted hcall hphase => exact phaseStep_update (.raised _)
  | tokenChecked i rid actionHash granted hcall hphase hread =>
      apply phaseStep_update
      split
      next hmatch =>
        rw [hphase]
        exact .tokenReady rid actionHash granted hcall hmatch
      next hmatch => exact .raised _
  | tokenReadRaises i parsed granted hcall hphase => exact phaseStep_update (.raised _)
  | platformChecked i rid status hcall hphase hread =>
      apply phaseStep_update
      split
      next hpending =>
        rw [hphase]
        exact .platformReady rid status hcall
      next hpending => exact .skipped _
  | platformReadRaises i rid status hcall hphase => exact phaseStep_update (.skipped _)
  | reject i rid e hphase hread hcheck => exact phaseStep_update (.raised _)
  | resolveRaises i rid hphase => exact phaseStep_update (.raised _)
  | acquire i rid req hphase hfree hcheck =>
      apply phaseStep_update
      rw [hphase]
      exact .entered rid req hcheck
  | hookRaises i rid req hphase => exact phaseStep_update (.raised _)
  | hookCompletes i rid req hphase =>
      apply phaseStep_update
      rw [hphase]
      exact .completed rid req
  | commit i rid req hphase =>
      have hmoved : PhaseStep s.store (calls i) (s.phase i) (.returned rid) := by
        rw [hphase]
        exact .committed rid req
      exact phaseStep_update hmoved

end Phases

/-! ## Which arguments were approved -/

section Runs

variable {kind : StoreKind} {ι ω : Type*} [DecidableEq ι] [DecidableEq ω]
  {K : GateKeys} {presented : ι → Presented} {guarded : ω → GuardedCall}
  {draws : ω → RequestDraw} {s t : GuardedState kind.backend ι ω}

variable (K guarded draws) in
/-- Some call has opened the request `req` under the id `rid`. -/
def GuardedState.Asked {B : GatesBackend} (s : GuardedState B ι ω) (rid : Uuid)
    (req : ApprovalRequest) : Prop :=
  ∃ w, s.asked w = true ∧ (draws w).requestId = rid ∧ req = (guarded w).request K (draws w)

omit [DecidableEq ι] [DecidableEq ω] in
theorem GuardedState.Asked.opened {rid : Uuid} {req : ApprovalRequest}
    (h : s.Asked K guarded draws rid req) : s.Opened draws rid := by
  obtain ⟨w, hasked, hid, -⟩ := h
  exact ⟨w, hasked, hid⟩

/-- What the phase of a call with a token for `actionHash` says about the request. -/
def HashChecked (σ : kind.backend.State) (asked : Uuid → ApprovalRequest → Prop)
    (actionHash : String) : CallPhase → Prop
  | .ready rid => ∀ req, kind.backend.check σ rid = .ok req →
      actionHashMatches (some req) actionHash = true
  | .inHook rid req => asked rid req ∧ actionHashMatches (some req) actionHash = true
  | .committing rid req => asked rid req ∧ actionHashMatches (some req) actionHash = true
  | .returned rid => ∃ req, asked rid req ∧ actionHashMatches (some req) actionHash = true
  | _ => True

/-- Requests only become known to more calls, and no new one is pending. -/
theorem HashChecked.mono {σ τ : kind.backend.State}
    {asked asked' : Uuid → ApprovalRequest → Prop} {actionHash : String} {p : CallPhase}
    (hpending : ∀ rid req, p = .ready rid → kind.backend.check τ rid = .ok req →
      kind.backend.check σ rid = .ok req)
    (hasked : ∀ rid req, asked rid req → asked' rid req)
    (h : HashChecked σ asked actionHash p) : HashChecked τ asked' actionHash p := by
  cases p with
  | ready rid => exact fun req hcheck => h req (hpending rid req rfl hcheck)
  | inHook rid req => exact ⟨hasked rid req h.1, h.2⟩
  | committing rid req => exact ⟨hasked rid req h.1, h.2⟩
  | returned rid =>
      obtain ⟨req, hreq, hmatch⟩ := h
      exact ⟨req, hasked rid req hreq, hmatch⟩
  | idle => trivial
  | raised => trivial
  | skipped => trivial

/-- A phase step keeps to the hash of the token. -/
theorem HashChecked.step {σ : kind.backend.State}
    {asked : Uuid → ApprovalRequest → Prop} {rid : Uuid} {actionHash : String}
    {granted : Bool} {p q : CallPhase}
    (hpending : ∀ rid req, kind.backend.check σ rid = .ok req → asked rid req)
    (h : HashChecked σ asked actionHash p)
    (hstep : PhaseStep σ (.token (some (rid, actionHash)) granted) p q) :
    HashChecked σ asked actionHash q := by
  cases hstep with
  | raised => trivial
  | skipped => trivial
  | tokenReady rid' actionHash' granted' hcall hmatch =>
      intro req hcheck
      have hhash : rid = rid' ∧ actionHash = actionHash' := by
        simpa using (ResolveCall.token.inj hcall).1
      rw [getPending_of_check hcheck, ← hhash.2] at hmatch
      exact hmatch
  | platformReady rid' status hcall => exact absurd hcall (by simp)
  | entered rid' req hcheck => exact ⟨hpending rid' req hcheck, h req hcheck⟩
  | completed rid' req => exact h
  | committed rid' req => exact ⟨req, h⟩

variable (K presented guarded draws) in
structure GuardedOk (s : GuardedState kind.backend ι ω) : Prop where
  reach : (waitSystem kind.backend (fun i => (presented i).call K)
    fun w => (draws w).requestId).Reachable s.wait
  known : ∀ rid, kind.backend.check s.wait.gates.store rid ≠ .error .unknownRequest →
    s.Opened draws rid
  pending : ∀ rid req, kind.backend.check s.wait.gates.store rid = .ok req →
    s.Asked K guarded draws rid req
  fresh : ∀ w w', s.asked w = true → s.asked w' = true →
    (draws w).requestId = (draws w').requestId → w = w'
  waiting : ∀ w, s.wait.waiter w ≠ .polling → s.asked w = true ∧ (guarded w).blocking = true
  underway : ∀ i rid, (s.wait.gates.phase i).request? = some rid → s.Opened draws rid
  hashed : ∀ i rid actionHash granted,
    (presented i).call K = .token (some (rid, actionHash)) granted →
      HashChecked s.wait.gates.store (s.Asked K guarded draws) actionHash
        (s.wait.gates.phase i)

omit [DecidableEq ι] in
theorem GuardedState.Asked.ask {rid : Uuid} {req : ApprovalRequest}
    (h : s.Asked K guarded draws rid req) (w : ω) :
    (s.ask w).Asked K guarded draws rid req := by
  obtain ⟨w', hasked, hreq⟩ := h
  refine ⟨w', ?_, hreq⟩
  simp [GuardedState.ask, Function.update_apply, hasked]

omit [DecidableEq ι] in
theorem GuardedState.Opened.ask {rid : Uuid} (h : s.Opened draws rid) (w : ω) :
    (s.ask w).Opened draws rid := by
  obtain ⟨w', hasked, hid⟩ := h
  refine ⟨w', ?_, hid⟩
  simp [GuardedState.ask, Function.update_apply, hasked]

omit [DecidableEq ι] in
theorem asked_ask {w w' : ω} : (s.ask w).asked w' = true ↔ w' = w ∨ s.asked w' = true := by
  by_cases hww : w' = w
  · simp [GuardedState.ask, hww]
  · simp [GuardedState.ask, hww]

theorem GuardedOk.ask (h : GuardedOk K presented guarded draws s) {w : ω}
    (hfresh : ¬s.Opened draws (draws w).requestId) :
    GuardedOk K presented guarded draws (s.ask w) := by
  constructor
  · exact h.reach
  · intro rid hknown
    exact (h.known rid hknown).ask w
  · intro rid req hcheck
    exact (h.pending rid req hcheck).ask w
  · intro w₁ w₂ h₁ h₂ hid
    -- an id that was opened before is not the new one
    have hne : ∀ w', s.asked w' = true → (draws w').requestId ≠ (draws w).requestId :=
      fun w' hasked heq => hfresh ⟨w', hasked, heq⟩
    rcases asked_ask.mp h₁ with hw₁ | hasked₁
    · rcases asked_ask.mp h₂ with hw₂ | hasked₂
      · rw [hw₁, hw₂]
      · rw [hw₁] at hid
        exact absurd hid.symm (hne w₂ hasked₂)
    · rcases asked_ask.mp h₂ with hw₂ | hasked₂
      · rw [hw₂] at hid
        exact absurd hid (hne w₁ hasked₁)
      · exact h.fresh w₁ w₂ hasked₁ hasked₂ hid
  · intro w' hmoved
    have hwaiting := h.waiting w' hmoved
    exact ⟨asked_ask.mpr (Or.inr hwaiting.1), hwaiting.2⟩
  · intro i rid hphase
    exact (h.underway i rid hphase).ask w
  · intro i rid actionHash granted hcall
    exact (h.hashed i rid actionHash granted hcall).mono (fun _ _ _ hcheck => hcheck)
      fun _ _ hreq => hreq.ask w

theorem GuardedOk.insertPending (h : GuardedOk K presented guarded draws s) {w : ω}
    (hasked : s.asked w = true)
    (hunknown : kind.backend.check s.wait.gates.store (draws w).requestId =
      .error .unknownRequest)
    (hidle : ∀ i, (s.wait.gates.phase i).request? ≠ some (draws w).requestId)
    (hread : s.wait.gates.Readable (draws w).requestId) :
    GuardedOk K presented guarded draws
      (s.insertPending ((guarded w).request K (draws w))) := by
  have hother : ∀ rid, rid ≠ (draws w).requestId →
      kind.backend.check (kind.backend.insertPending s.wait.gates.store
        ((guarded w).request K (draws w))) rid =
      kind.backend.check s.wait.gates.store rid :=
    fun rid hne => kind.backend.check_insert ((guarded w).request K (draws w)) rid hne.symm
  constructor
  · exact h.reach.next (.resolve s.wait _ (.insertPending _ _ hunknown hread)
      fun k rid v hcall hmoved => absurd rfl hmoved)
  · intro rid hknown
    by_cases hrid : rid = (draws w).requestId
    · exact ⟨w, hasked, hrid.symm⟩
    · apply h.known rid
      rw [← hother rid hrid]
      exact hknown
  · intro rid req hcheck
    by_cases hrid : rid = (draws w).requestId
    · have hself : kind.backend.check (kind.backend.insertPending s.wait.gates.store
          ((guarded w).request K (draws w))) (draws w).requestId =
          .ok ((guarded w).request K (draws w)) := check_insert_self hunknown
      subst hrid
      exact ⟨w, hasked, rfl, Except.ok.inj (hcheck.symm.trans hself)⟩
    · apply h.pending rid req
      rw [← hother rid hrid]
      exact hcheck
  · exact h.fresh
  · exact h.waiting
  · exact h.underway
  · intro i rid actionHash granted hcall
    refine (h.hashed i rid actionHash granted hcall).mono ?_ fun _ _ hreq => hreq
    intro rid' req hphase hcheck
    have hne : rid' ≠ (draws w).requestId := by
      intro heq
      apply hidle i
      rw [show s.wait.gates.phase i = .ready rid' from hphase, heq]
      rfl
    rw [← hother rid' hne]
    exact hcheck

theorem GuardedOk.request (h : GuardedOk K presented guarded draws s) {w : ω}
    (hfresh : ¬s.Opened draws (draws w).requestId)
    (hread : s.wait.gates.Readable (draws w).requestId) (persisted : Bool) :
    GuardedOk K presented guarded draws
      (if persisted then (s.ask w).insertPending ((guarded w).request K (draws w))
       else s.ask w) := by
  have hasked := h.ask hfresh
  split
  next =>
    apply hasked.insertPending (Function.update_self ..)
    · by_contra hknown
      exact hfresh (h.known _ hknown)
    · intro i hphase
      exact hfresh (h.underway i _ hphase)
    · exact hread
  next => exact hasked

theorem GuardedOk.wait (h : GuardedOk K presented guarded draws s)
    {t : WaitState kind.backend ι ω}
    (hstep : WaitStep (fun i => (presented i).call K) (fun w => (draws w).requestId) s.wait t)
    (hinsert : ∀ rid, kind.backend.check s.wait.gates.store rid = .error .unknownRequest →
      kind.backend.check t.gates.store rid = .error .unknownRequest)
    (hwaiter : ∀ w, t.waiter w ≠ s.wait.waiter w →
      s.asked w = true ∧ (guarded w).blocking = true)
    (hdrawn : ∀ i rid, t.gates.phase i ≠ s.wait.gates.phase i →
      ((presented i).call K).target = some rid → s.Opened draws rid) :
    GuardedOk K presented guarded draws { s with wait := t } := by
  have hreach := h.reach.next hstep
  have hgates : t.gates = s.wait.gates ∨
      ResolveStep (fun i => (presented i).call K) s.wait.gates t.gates := by
    cases hstep with
    | resolve g hg hstarted => exact Or.inr hg
    | _ => exact Or.inl rfl
  have hpending : ∀ rid req, kind.backend.check t.gates.store rid = .ok req →
      kind.backend.check s.wait.gates.store rid = .ok req := by
    intro rid req hcheck
    rcases hgates with heq | hg
    · rwa [heq] at hcheck
    · exact check_step hg hinsert hcheck
  constructor
  · exact hreach
  · intro rid hknown
    apply h.known rid
    intro hunknown
    exact hknown (hinsert rid hunknown)
  · intro rid req hcheck
    exact h.pending rid req (hpending rid req hcheck)
  · exact h.fresh
  · intro w hmoved
    by_cases hsame : t.waiter w = s.wait.waiter w
    · apply h.waiting w
      rw [← hsame]
      exact hmoved
    · exact hwaiter w hsame
  · intro i rid hphase
    by_cases hsame : t.gates.phase i = s.wait.gates.phase i
    · apply h.underway i rid
      rw [← hsame]
      exact hphase
    · exact hdrawn i rid hsame (onTarget_of_reachable (gates_reachable hreach) i rid hphase)
  · intro i rid actionHash granted hcall
    have hold := h.hashed i rid actionHash granted hcall
    have hnew : HashChecked s.wait.gates.store (s.Asked K guarded draws) actionHash
        (t.gates.phase i) := by
      rcases hgates with heq | hg
      · rwa [heq]
      · rcases phase_step hg i with hsame | hmoved
        · rwa [hsame]
        · rw [hcall] at hmoved
          exact hold.step h.pending hmoved
    exact hnew.mono (fun rid' req _ hcheck => hpending rid' req hcheck) fun _ _ hreq => hreq

theorem guardedOk_of_reachable
    (h : (guardedSystem kind.backend K presented guarded draws).Reachable s) :
    GuardedOk K presented guarded draws s := by
  refine System.invariant ?_ ?_ h
  · intro s hinit
    obtain ⟨hwait, hasked⟩ := hinit
    constructor
    · apply System.Reachable.start
      rw [hwait]
      exact ⟨rfl, fun _ => rfl⟩
    · intro rid hknown
      rw [hwait] at hknown
      exact absurd (kind.backend.check_empty rid) hknown
    · intro rid req hcheck
      rw [hwait] at hcheck
      have hempty := kind.backend.check_empty rid
      rw [show kind.backend.check kind.backend.empty rid = .ok req from hcheck] at hempty
      exact absurd hempty (by simp)
    · intro w w' hw
      simp [hasked] at hw
    · intro w hmoved
      simp [hwait] at hmoved
    · intro i rid hphase
      simp [hwait, GatesState.initial, CallPhase.request?] at hphase
    · intro i rid actionHash granted hcall
      rw [hwait]
      trivial
  · intro s t _ hs hstep
    cases hstep with
    | request w persisted hnew hfresh hread => exact hs.request hfresh hread persisted
    | wait t hstep hinsert hwaiter hdrawn => exact hs.wait hstep hinsert hwaiter hdrawn

end Runs

/-- A hash that matches that of the stored request is the hash of the same arguments. -/
theorem actionHashMatches_some {req : ApprovalRequest} {actionHash : String}
    (h : actionHashMatches (some req) actionHash = true) : actionHash = req.actionHash := by
  rw [actionHashMatches, compareDigest] at h
  split at h
  next equal hequal =>
    split at hequal
    · rw [← Except.ok.inj hequal] at h
      exact (eq_of_beq h).symm
    · simp at hequal
  next => simp at h

theorem parse_of_target {K : GateKeys} {text : String} {granted : Bool}
    {sunsetNow now : Datetime} {rid : Uuid}
    (h : ((Presented.token text granted sunsetNow now).call K).target = some rid) :
    ∃ actionHash expiresAt, K.parse text sunsetNow now = .ok (rid, actionHash, expiresAt) := by
  rcases hparse : K.parse text sunsetNow now with e | ⟨rid', actionHash, expiresAt⟩
  · simp [Presented.call, ResolveCall.target, hparse, Except.toOption] at h
  · have hrid : rid' = rid := by
      simpa [Presented.call, ResolveCall.target, hparse, Except.toOption] using h
    exact ⟨actionHash, expiresAt, by rw [hrid]⟩

/-- A body that runs was approved: its call has opened a request of its own, and that
request was granted with a token for the hash of these arguments, or the platform said so. -/
theorem guarded_call_approved (kind : StoreKind) {ι ω : Type*} [DecidableEq ι]
    [DecidableEq ω] {K : GateKeys} {presented : ι → Presented} {guarded : ω → GuardedCall}
    {draws : ω → RequestDraw} {s : GuardedState kind.backend ι ω}
    (h : (guardedSystem kind.backend K presented guarded draws).Reachable s) {w : ω}
    (hran : s.wait.waiter w = .ran) :
    s.asked w = true ∧ (guarded w).blocking = true ∧
      (∀ w', s.asked w' = true → (draws w').requestId = (draws w).requestId → w' = w) ∧
      ((∃ i text sunsetNow now expiresAt,
          presented i = .token text true sunsetNow now ∧
            K.parse text sunsetNow now =
              .ok ((draws w).requestId, K.hashActionPayload (guarded w).payload, expiresAt) ∧
            s.wait.gates.phase i = .returned (draws w).requestId) ∨
        ∃ k, presented k = .platform (draws w).requestId .granted) := by
  have hok := guardedOk_of_reachable h
  have hgates := gates_reachable hok.reach
  obtain ⟨hasked, hblocking⟩ := hok.waiting w (by simp [hran])
  refine ⟨hasked, hblocking, fun w' hw' hid => hok.fresh w' w hw' hasked hid, ?_⟩
  rcases (sourced hok.reach).decided w .granted (by rw [hran]; rfl) with hstored | ⟨k, hk⟩
  · -- the stored decision has an author, whose token was checked against the request
    obtain ⟨i, hi⟩ := (decisionOk_of_reachable hgates).author _ _ hstored
    have hverdict := (decisionOk_of_reachable hgates).resolved i _ hi
    rw [hstored] at hverdict
    have htarget := onTarget_of_reachable hgates i (draws w).requestId (by rw [hi]; rfl)
    cases hpresented : presented i with
    | token text granted sunsetNow now =>
        left
        rw [hpresented] at hverdict htarget
        obtain ⟨actionHash, expiresAt, hparse⟩ := parse_of_target htarget
        have hgranted : granted = true := by
          by_contra hdenied
          simp [Presented.call, ResolveCall.verdict, hdenied] at hverdict
        have hcall : (presented i).call K =
            .token (some ((draws w).requestId, actionHash)) granted := by
          rw [hpresented, Presented.call, hparse]
          rfl
        have hchecked := hok.hashed i _ _ _ hcall
        rw [hi] at hchecked
        obtain ⟨req, ⟨w', hw', hid, hreq⟩, hmatch⟩ := hchecked
        have hww : w' = w := hok.fresh w' w hw' hasked hid
        rw [hreq, hww] at hmatch
        have hhash := actionHashMatches_some hmatch
        rw [hhash] at hparse
        rw [hgranted] at hpresented
        exact ⟨i, text, sunsetNow, now, expiresAt, hpresented, hparse, hi⟩
    | platform rid status =>
        right
        rw [hpresented] at hverdict htarget
        have hrid : rid = (draws w).requestId := Option.some.inj htarget
        have hstatus : .granted = status := Option.some.inj hverdict
        rw [hrid, ← hstatus] at hpresented
        exact ⟨i, hpresented⟩
  · right
    cases hpresented : presented k with
    | token text granted sunsetNow now => simp [hpresented, Presented.call] at hk
    | platform rid status =>
        rw [hpresented] at hk
        obtain ⟨hrid, hstatus⟩ := ResolveCall.platform.inj hk
        rw [hrid, hstatus] at hpresented
        exact ⟨k, hpresented⟩

/-! ### A token that starts a body -/

def refundHash : String := "4a93b9562a962c4b0b23d20b95405cd7905ba899950caa19c4c0005a967f4e18"

/-- HMAC-SHA256 and SHA-256 on the messages of the sample call. -/
noncomputable def refundKeys : GateKeys where
  hmac :=
    .ofTable
      [((mintingKey, fingerprintContext), mintingFingerprint),
       ((mintingKey, "v2:a3792a42666f4419:00000000-0000-0000-0000-000000000007:" ++
          refundHash ++ ":2025-01-02T03:04:05+00:00"),
        0x790368cc7e08851eafc2be5812a6147fbef1343e96f2c63bd6f7592f3ec8d2ae#256)]
  stamps := .exact
  source := tokenKeySource
  secret := mintingKey
  acceptV1Until := none
  enableV2Tokens := true
  sha256 := fun _ => refundHash

def refundCall : GuardedCall where
  kind := "refund"
  agentId := "billing-agent"
  args := [.str "cust-7"]
  kwargs := []
  blocking := true

def refundDraw : RequestDraw := ⟨⟨7⟩, deployExpiry⟩

noncomputable def refundRequest : ApprovalRequest := refundCall.request refundKeys refundDraw

/-- `grant` with the token of the request, a second before it expires. -/
noncomputable def refundGrant : Presented :=
  .token refundRequest.token true { deployExpiry with second := 4 }
    { deployExpiry with second := 4 }

theorem parse_refundRequest :
    refundKeys.parse refundRequest.token { deployExpiry with second := 4 }
      { deployExpiry with second := 4 } = .ok (⟨7⟩, refundHash, deployExpiry) := by
  apply parseToken_makeToken_v2
  · decide
  · simp [refundKeys]
  · exact Or.inl rfl
  · decide
  · exact ⟨by decide, by decide⟩

theorem refundGrant_call :
    refundGrant.call refundKeys = .token (some (⟨7⟩, refundHash)) true := by
  rw [refundGrant, Presented.call, parse_refundRequest]
  rfl

theorem refundRequest_matches :
    actionHashMatches (some refundRequest) refundHash = true := by
  have hhash : refundRequest.actionHash = refundHash := rfl
  rw [actionHashMatches, hhash]
  decide

theorem tokenReady_step {B : GatesBackend} {ι : Type*} [DecidableEq ι]
    {calls : ι → ResolveCall} {s : GatesState B ι} (i : ι) {rid : Uuid} {actionHash : String}
    {granted : Bool} (hcall : calls i = .token (some (rid, actionHash)) granted)
    (hphase : s.phase i = .idle) (hread : s.Readable rid)
    (hmatch : actionHashMatches (B.getPending s.store rid) actionHash = true) :
    ResolveStep calls s (s.setPhase i (.ready rid)) := by
  have hstep := ResolveStep.tokenChecked s i rid actionHash granted hcall hphase hread
  rwa [if_pos hmatch] at hstep

/-- The request, its grant, the local read and the body. -/
theorem sample_guarded_call_approved :
    ∃ s : GuardedState StoreKind.postgres.backend Unit Unit,
      s.wait.waiter () = .ran ∧
        ((∃ i text sunsetNow now expiresAt,
            (fun _ : Unit => refundGrant) i = .token text true sunsetNow now ∧
              refundKeys.parse text sunsetNow now =
                .ok (⟨7⟩, refundKeys.hashActionPayload refundCall.payload, expiresAt) ∧
              s.wait.gates.phase i = .returned ⟨7⟩) ∨
          ∃ k, (fun _ : Unit => refundGrant) k = .platform ⟨7⟩ .granted) := by
  let M : System (GuardedState StoreKind.postgres.backend Unit Unit) :=
    guardedSystem _ refundKeys (fun _ => refundGrant) (fun _ => refundCall) fun _ => refundDraw
  have h₀ : M.Reachable ⟨⟨GatesState.initial _, fun _ => .polling⟩, fun _ => false⟩ :=
    .start ⟨rfl, rfl⟩
  have h₁ : M.Reachable
      ((⟨⟨GatesState.initial _, fun _ => .polling⟩, fun _ => true⟩ :
        GuardedState StoreKind.postgres.backend Unit Unit).insertPending refundRequest) :=
    h₀.next (.request _ () true rfl (by rintro ⟨w, ⟨⟩, -⟩) (by rintro ⟨⟩))
  have hstep : ∀ (u t : WaitState StoreKind.postgres.backend Unit Unit),
      M.Reachable ⟨u, fun _ => true⟩ →
      WaitStep (fun _ => refundGrant.call refundKeys) (fun _ => ⟨7⟩) u t →
      (∀ rid, StoreKind.postgres.backend.check u.gates.store rid = .error .unknownRequest →
        StoreKind.postgres.backend.check t.gates.store rid = .error .unknownRequest) →
      M.Reachable ⟨t, fun _ => true⟩ := by
    intro u t hu hwait hinsert
    refine hu.next (.wait ⟨u, fun _ => true⟩ t hwait hinsert (fun _ _ => ⟨rfl, rfl⟩) ?_)
    intro i rid hmoved htarget
    rw [refundGrant_call] at htarget
    exact ⟨(), rfl, Option.some.inj htarget⟩
  have hresolve : ∀ (g g' : GatesState StoreKind.postgres.backend Unit)
      (waiter : Unit → WaitPhase Unit),
      ResolveStep (fun _ => refundGrant.call refundKeys) g g' →
      WaitStep (fun _ => refundGrant.call refundKeys) (fun _ : Unit => (⟨7⟩ : Uuid))
        ⟨g, waiter⟩ ⟨g', waiter⟩ := by
    intro g g' waiter hg
    refine .resolve _ g' hg ?_
    intro k rid v hcall
    rw [refundGrant_call] at hcall
    exact absurd hcall (by simp)
  have h₂ := hstep _ _ h₁ (hresolve _ _ _ (tokenReady_step () refundGrant_call rfl
    (by rintro ⟨⟩) refundRequest_matches)) fun _ hrid => hrid
  have h₃ := hstep _ _ h₂ (hresolve _ _ _ (.acquire _ () ⟨7⟩ refundRequest rfl rfl rfl))
    fun _ hrid => hrid
  have h₄ := hstep _ _ h₃ (hresolve _ _ _ (.hookCompletes _ () ⟨7⟩ refundRequest rfl))
    fun _ hrid => hrid
  have h₅ := hstep _ _ h₄ (hresolve _ _ _ (.commit _ () ⟨7⟩ refundRequest rfl)) (by
    intro rid hrid
    have hne : rid ≠ ⟨7⟩ := by
      intro heq
      rw [heq] at hrid
      cases hrid
    exact (StoreKind.postgres.backend.check_commit _ _ hne).trans hrid)
  obtain ⟨g, hg, hgranted⟩ : ∃ g : GatesState StoreKind.postgres.backend Unit,
      M.Reachable ⟨⟨g, fun _ => .polling⟩, fun _ => true⟩ ∧
        g.resolution ⟨7⟩ = some .granted := by
    refine ⟨_, h₅, ?_⟩
    change some (refundGrant.call refundKeys).verdict = _
    rw [refundGrant_call]
    rfl
  have h₆ := hstep _ _ hg (.readLocal _ () rfl (by rintro ⟨⟩)) fun _ hrid => hrid
  have h₇ := hstep _ _ h₆ (.runGuarded _ () (by
    rw [hgranted]
    rfl)) fun _ hrid => hrid
  exact ⟨_, rfl, (guarded_call_approved .postgres h₇ (w := ()) rfl).2.2.2⟩

end AgenticGovernance.Gates

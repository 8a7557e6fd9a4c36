import Mathlib
import AgenticGovernance.Compliance.ViolationCounters
import AgenticGovernance.Gates.RequireApproval

/-!
# The human oversight section

The gates module logs `approval.requested` for each request that it opens, and
`approval.granted` or `approval.denied` for each decision.  The report counts these events and
calls the oversight compliant when there are as many decisions as requests.

That says more than the numbers do.  A request is decided at most once, and only requests are
decided, so equal numbers mean that every request has been decided: `oversight_reports_gates`.
-/

namespace AgenticGovernance.Compliance

open Support Audit Gates

/-! ## The section -/

inductive SectionStatus where
  | compliant
  | partlyCompliant
  | nonCompliant
  deriving DecidableEq, Repr

structure ReportSection where
  title : String
  description : String
  data : List (String × PyValue)
  status : SectionStatus

/-- `section_human_oversight`, where `rate a b` is `round(a / b, 4)`. -/
def sectionHumanOversight (rate : ℕ → ℕ → PyValue)
    (approvalRequested approvalGranted approvalDenied : ℕ) : ReportSection where
  title := "Human Oversight Measures"
  description :=
    "Article 12 requires logging of human oversight actions. " ++
    "This section shows HITL gate activity: requests, approvals, and denials."
  data :=
    [("approval_requested", .int approvalRequested), ("approval_granted", .int approvalGranted),
      ("approval_denied", .int approvalDenied),
      ("approval_rate",
        if 0 < approvalRequested then rate approvalGranted approvalRequested else .none)]
  status :=
    if 0 < approvalRequested ∧ approvalGranted + approvalDenied = approvalRequested then
      .compliant
    else if 0 < approvalRequested then .partlyCompliant
    else .nonCompliant

theorem status_eq_compliant_iff {rate : ℕ → ℕ → PyValue} {requested granted denied : ℕ} :
    (sectionHumanOversight rate requested granted denied).status = .compliant ↔
      0 < requested ∧ granted + denied = requested := by
  rw [sectionHumanOversight]
  by_cases hpos : 0 < requested
  · by_cases hall : granted + denied = requested
    · simp [hpos, hall]
    · simp [hpos, hall]
  · simp [hpos]

theorem status_eq_nonCompliant_iff {rate : ℕ → ℕ → PyValue} {requested granted denied : ℕ} :
    (sectionHumanOversight rate requested granted denied).status = .nonCompliant ↔
      requested = 0 := by
  rw [sectionHumanOversight]
  by_cases hpos : 0 < requested
  · by_cases hall : granted + denied = requested
    · simp [hpos, hall, hpos.ne']
    · simp [hpos, hall, hpos.ne']
  · simp [Nat.eq_zero_of_not_pos hpos]

/-- `if agent_id and event.agent_id != agent_id: continue` -/
def keepsAgent (agent : Option String) (agentId : String) : Bool :=
  match agent with
  | none => true
  | some a => a = "" || agentId = a

/-- The data of a report over the events of one agent, or of all. -/
def agentReport (truth : PyValue → Bool) (str : PyValue → String) (agent : Option String)
    (events : List EventDict) : ReportData :=
  extractReportData truth str (events.filter fun event => keepsAgent agent event.agentId)

def ReportData.humanOversight (rate : ℕ → ℕ → PyValue) (data : ReportData) : ReportSection :=
  sectionHumanOversight rate data.approvalRequested data.approvalGranted data.approvalDenied

/-! ## Requests and decisions -/

/-- Where a call of `request` is.  `opened` is after the insert, which may have failed. -/
inductive RequestPhase where
  | idle
  | opened
  | logged
  deriving DecidableEq

structure OversightState (B : GatesBackend) (ι ω : Type*) where
  gates : GatesState B ι
  phase : ω → RequestPhase
  /-- the requests whose `approval.requested` is logged, in the order of these events -/
  log : List ω

section System

variable {B : GatesBackend} {ι ω : Type*} [DecidableEq ι] [DecidableEq ω]
  (calls : ι → ResolveCall) (requests : ω → ApprovalRequest)

inductive OversightStep : OversightState B ι ω → OversightState B ι ω → Prop
  /-- `request` draws an id of its own, and stores the request if it can. -/
  | opens (s : OversightState B ι ω) (w : ω) (persisted : Bool) (hidle : s.phase w = .idle)
      (hfresh : ∀ w', s.phase w' ≠ .idle → (requests w').requestId ≠ (requests w).requestId)
      (hread : s.gates.Readable (requests w).requestId) :
      OversightStep s
        { s with
          gates :=
            if persisted then
              { s.gates with store := B.insertPending s.gates.store (requests w) }
            else s.gates
          phase := Function.update s.phase w .opened }
  | logs (s : OversightState B ι ω) (w : ω) (hopened : s.phase w = .opened) :
      OversightStep s
        { s with phase := Function.update s.phase w .logged, log := s.log ++ [w] }
  /-- A step of a decision. -/
  | resolve (s : OversightState B ι ω) (g : GatesState B ι)
      (hstep : ResolveStep calls s.gates g)
      (hinsert : ∀ rid, B.check s.gates.store rid = .error .unknownRequest →
        B.check g.store rid = .error .unknownRequest) :
      OversightStep s { s with gates := g }

variable (B) in
/-- The runs of any number of requests and decisions. -/
def oversightSystem : System (OversightState B ι ω) where
  init s := s = ⟨GatesState.initial B, fun _ => .idle, []⟩
  step := OversightStep calls requests

/-- No request is between its insert and its event, and no decision is between its event and
its commit. -/
structure OversightState.Quiet (s : OversightState B ι ω) : Prop where
  requests : ∀ w, s.phase w ≠ .opened
  decisions : ∀ i rid req, s.gates.phase i ≠ .committing rid req

/-- The agents and kinds of the events that the module has logged. -/
def OversightState.approvalEvents (s : OversightState B ι ω) : List (String × String) :=
  (s.log.map fun w => ((requests w).agentId, "approval.requested")) ++
    s.gates.events.map fun e => (e.agentId, e.kind)

def approvalKinds : List String := ["approval.requested", "approval.granted", "approval.denied"]

/-- The store holds what the module has logged, among the events of other modules and in any
order. -/
def Recorded (s : OversightState B ι ω) (events : List EventDict) : Prop :=
  ((events.filter fun event => event.kind ∈ approvalKinds).map fun event =>
    (event.agentId, event.kind)).Perm (s.approvalEvents requests)

end System

/-! ## Counting by keys -/

/-- If every element of `l` has the key of an element of `m`, and these have different keys,
then a count over `l` adds up over the keys. -/
theorem countP_eq_of_fibers {α β κ : Type*} [DecidableEq κ] {p : α → Bool} {q : β → Bool}
    (key : α → κ) (key' : β → κ) (m : List β) (l : List α) (hnodup : (m.map key').Nodup)
    (hcover : ∀ a ∈ l, ∃ b ∈ m, key' b = key a)
    (hfiber : ∀ b ∈ m, (l.filter fun a => key a = key' b).countP p = if q b then 1 else 0) :
    l.countP p = m.countP q := by
  induction m generalizing l with
  | nil =>
      have hempty : l = [] := by
        apply List.eq_nil_iff_forall_not_mem.mpr
        intro a ha
        obtain ⟨b, hb, -⟩ := hcover a ha
        simp at hb
      simp [hempty]
  | cons b m ih =>
      obtain ⟨hb, hnodup⟩ := List.nodup_cons.mp hnodup
      have hrest : (l.filter fun a => ¬key a = key' b).countP p = m.countP q := by
        apply ih _ hnodup
        · intro a ha
          obtain ⟨hal, hne⟩ := List.mem_filter.mp ha
          obtain ⟨b', hb', hkey⟩ := hcover a hal
          rcases List.mem_cons.mp hb' with heq | hmem
          · rw [heq] at hkey
            simp [hkey] at hne
          · exact ⟨b', hmem, hkey⟩
        · intro b' hb'
          rw [← hfiber b' (List.mem_cons_of_mem b hb'), List.filter_filter]
          -- the elements with the key of `b'` do not have the key of `b`
          congr 1
          apply List.filter_congr
          intro a _
          by_cases hkey : key a = key' b'
          · have hne : key' b' ≠ key' b := by
              intro heq
              exact hb (heq ▸ List.mem_map_of_mem hb')
            simp [hkey, hne]
          · simp [hkey]
      have hsplit := List.countP_eq_countP_filter_add l p fun a => key a = key' b
      rw [hsplit, hfiber b List.mem_cons_self, List.countP_cons]
      have hnot : (l.filter fun a => !decide (key a = key' b)).countP p = m.countP q := by
        rw [← hrest]
        congr 1
        apply List.filter_congr
        intro a _
        simp
      rw [hnot, Nat.add_comm]

/-! ## The requests of a run -/

section Runs

variable {kind : Gates.StoreKind} {ι ω : Type*} [DecidableEq ι] [DecidableEq ω]
  {calls : ι → ResolveCall} {requests : ω → ApprovalRequest}
  {s t : OversightState kind.backend ι ω}

/-- The audit trail grows by the event of a call whose hook completes. -/
theorem events_step {g g' : GatesState kind.backend ι} (hstep : ResolveStep calls g g') :
    g'.events = g.events ∨ ∃ i rid req, g.phase i = .inHook rid req ∧
      g'.events = g.events ++ [emitAudit (calls i) rid req] := by
  cases hstep with
  | hookCompletes i rid req hphase => exact Or.inr ⟨i, rid, req, hphase, rfl⟩
  | _ => exact Or.inl rfl

/-- `w` has opened the request `req`. -/
def OversightState.Opened {B : GatesBackend} (s : OversightState B ι ω)
    (requests : ω → ApprovalRequest) (rid : Uuid) (w : ω) : Prop :=
  s.phase w ≠ .idle ∧ (requests w).requestId = rid

variable (calls requests) in
structure OversightOk (s : OversightState kind.backend ι ω) : Prop where
  reach : (resolveSystem kind.backend calls).Reachable s.gates
  known : ∀ rid, kind.backend.check s.gates.store rid ≠ .error .unknownRequest →
    ∃ w, s.Opened requests rid w
  pending : ∀ rid req, kind.backend.check s.gates.store rid = .ok req →
    ∃ w, s.Opened requests rid w ∧ req = requests w
  fresh : ∀ w w', s.phase w ≠ .idle → s.phase w' ≠ .idle →
    (requests w).requestId = (requests w').requestId → w = w'
  decided : ∀ e ∈ s.gates.events, ∃ w, s.Opened requests e.requestId w ∧
    e.agentId = (requests w).agentId
  log_nodup : s.log.Nodup
  mem_log : ∀ w, w ∈ s.log ↔ s.phase w = .logged

omit [DecidableEq ω] in
theorem OversightOk.start : OversightOk calls requests
    (⟨GatesState.initial kind.backend, fun _ => .idle, []⟩ :
      OversightState kind.backend ι ω) := by
  have hempty : ∀ rid, kind.backend.check (GatesState.initial kind.backend : GatesState _ ι).store
      rid = .error .unknownRequest := kind.backend.check_empty
  constructor
  · exact .start rfl
  · intro rid hknown
    exact absurd (hempty rid) hknown
  · intro rid req hcheck
    rw [hempty rid] at hcheck
    simp at hcheck
  · intro w w' hw
    simp at hw
  · intro e he
    simp [GatesState.initial] at he
  · exact List.nodup_nil
  · simp

omit [DecidableEq ι] [DecidableEq ω] in
theorem OversightState.Opened.mono {rid : Uuid} {w : ω} (h : s.Opened requests rid w)
    (hphase : ∀ w, s.phase w ≠ .idle → t.phase w ≠ .idle) : t.Opened requests rid w :=
  ⟨hphase w h.1, h.2⟩

omit [DecidableEq ι] in
theorem not_idle_update {w : ω} {p : RequestPhase} (hp : p ≠ .idle) (w' : ω)
    (h : s.phase w' ≠ .idle) : Function.update s.phase w p w' ≠ .idle := by
  by_cases hww : w' = w
  · rw [hww, Function.update_self]
    exact hp
  · rwa [Function.update_of_ne hww]

/-- The gates after the insert of `request`. -/
def inserted (g : GatesState kind.backend ι) (req : ApprovalRequest) (persisted : Bool) :
    GatesState kind.backend ι :=
  if persisted then { g with store := kind.backend.insertPending g.store req } else g

omit [DecidableEq ι] in
theorem events_inserted (g : GatesState kind.backend ι) (req : ApprovalRequest)
    (persisted : Bool) : (inserted g req persisted).events = g.events := by
  rw [inserted]
  split
  · rfl
  · rfl

theorem reachable_inserted {g : GatesState kind.backend ι} {req : ApprovalRequest}
    (h : (resolveSystem kind.backend calls).Reachable g) (hread : g.Readable req.requestId)
    (hunknown : kind.backend.check g.store req.requestId = .error .unknownRequest)
    (persisted : Bool) :
    (resolveSystem kind.backend calls).Reachable (inserted g req persisted) := by
  rw [inserted]
  split
  · exact h.next (.insertPending g req hunknown hread)
  · exact h

omit [DecidableEq ι] in
theorem check_inserted_of_ne {g : GatesState kind.backend ι} {req : ApprovalRequest}
    {rid : Uuid} (hne : rid ≠ req.requestId) (persisted : Bool) :
    kind.backend.check (inserted g req persisted).store rid = kind.backend.check g.store rid := by
  rw [inserted]
  split
  · exact kind.backend.check_insert req rid hne.symm
  · rfl

omit [DecidableEq ι] in
theorem check_inserted_self {g : GatesState kind.backend ι} {req req' : ApprovalRequest}
    (hunknown : kind.backend.check g.store req.requestId = .error .unknownRequest)
    {persisted : Bool}
    (h : kind.backend.check (inserted g req persisted).store req.requestId = .ok req') :
    req' = req := by
  rw [inserted] at h
  split at h
  · have hself : kind.backend.check (kind.backend.insertPending g.store req) req.requestId =
        .ok req := check_insert_self hunknown
    exact (Except.ok.inj (hself.symm.trans h)).symm
  · rw [hunknown] at h
    simp at h

theorem OversightOk.opens (h : OversightOk calls requests s) {w : ω}
    (hfresh : ∀ w', s.phase w' ≠ .idle → (requests w').requestId ≠ (requests w).requestId)
    (hread : s.gates.Readable (requests w).requestId) (hidle : s.phase w = .idle)
    (persisted : Bool) :
    OversightOk calls requests
      ({ s with
          gates := inserted s.gates (requests w) persisted
          phase := Function.update s.phase w .opened } : OversightState kind.backend ι ω) := by
  have hunknown : kind.backend.check s.gates.store (requests w).requestId =
      .error .unknownRequest := by
    by_contra hknown
    obtain ⟨w', hopened, hid⟩ := h.known _ hknown
    exact hfresh w' hopened hid
  have hphase : ∀ w', s.phase w' ≠ .idle → Function.update s.phase w .opened w' ≠ .idle :=
    not_idle_update (by simp)
  have hself : Function.update s.phase w .opened w ≠ .idle := by simp
  have hne : ∀ w', Function.update s.phase w .opened w' ≠ .idle → w' = w ∨ s.phase w' ≠ .idle := by
    intro w' hw'
    by_cases hww : w' = w
    · exact Or.inl hww
    · rw [Function.update_of_ne hww] at hw'
      exact Or.inr hw'
  constructor
  · exact reachable_inserted h.reach hread hunknown persisted
  · intro rid hknown
    by_cases hrid : rid = (requests w).requestId
    · exact ⟨w, hself, hrid.symm⟩
    · rw [check_inserted_of_ne hrid] at hknown
      obtain ⟨w', hopened⟩ := h.known rid hknown
      exact ⟨w', hopened.mono hphase⟩
  · intro rid req hcheck
    by_cases hrid : rid = (requests w).requestId
    · subst hrid
      exact ⟨w, ⟨hself, rfl⟩, check_inserted_self hunknown hcheck⟩
    · rw [check_inserted_of_ne hrid] at hcheck
      obtain ⟨w', hopened, hreq⟩ := h.pending rid req hcheck
      exact ⟨w', hopened.mono hphase, hreq⟩
  · intro w₁ w₂ h₁ h₂ hid
    rcases hne w₁ h₁ with heq₁ | hold₁
    · rcases hne w₂ h₂ with heq₂ | hold₂
      · rw [heq₁, heq₂]
      · rw [heq₁] at hid
        exact absurd hid.symm (hfresh w₂ hold₂)
    · rcases hne w₂ h₂ with heq₂ | hold₂
      · rw [heq₂] at hid
        exact absurd hid (hfresh w₁ hold₁)
      · exact h.fresh w₁ w₂ hold₁ hold₂ hid
  · intro e he
    rw [events_inserted] at he
    obtain ⟨w', hopened, hagent⟩ := h.decided e he
    exact ⟨w', hopened.mono hphase, hagent⟩
  · exact h.log_nodup
  · intro w'
    rw [h.mem_log w']
    by_cases hww : w' = w
    · simp [hww, hidle]
    · simp [hww]

theorem OversightOk.logs (h : OversightOk calls requests s) {w : ω}
    (hopened : s.phase w = .opened) :
    OversightOk calls requests
      ({ s with phase := Function.update s.phase w .logged, log := s.log ++ [w] } :
        OversightState kind.backend ι ω) := by
  have hphase : ∀ w', s.phase w' ≠ .idle → Function.update s.phase w .logged w' ≠ .idle :=
    not_idle_update (by simp)
  have hold : ∀ w', Function.update s.phase w .logged w' ≠ .idle → s.phase w' ≠ .idle := by
    intro w' hw'
    by_cases hww : w' = w
    · rw [hww, hopened]
      simp
    · rwa [Function.update_of_ne hww] at hw'
  constructor
  · exact h.reach
  · intro rid hknown
    obtain ⟨w', hw'⟩ := h.known rid hknown
    exact ⟨w', hw'.mono hphase⟩
  · intro rid req hcheck
    obtain ⟨w', hw', hreq⟩ := h.pending rid req hcheck
    exact ⟨w', hw'.mono hphase, hreq⟩
  · intro w₁ w₂ h₁ h₂ hid
    exact h.fresh w₁ w₂ (hold w₁ h₁) (hold w₂ h₂) hid
  · intro e he
    obtain ⟨w', hw', hagent⟩ := h.decided e he
    exact ⟨w', hw'.mono hphase, hagent⟩
  · have hnot : w ∉ s.log := by
      rw [h.mem_log w, hopened]
      simp
    exact List.nodup_append.mpr ⟨h.log_nodup, List.nodup_singleton w, by
      intro a ha b hb heq
      rw [heq, List.mem_singleton.mp hb] at ha
      exact hnot ha⟩
  · intro w'
    rw [List.mem_append, List.mem_singleton, h.mem_log w']
    by_cases hww : w' = w
    · simp [hww]
    · simp [hww]

omit [DecidableEq ω] in
theorem OversightOk.resolve (h : OversightOk calls requests s) {g : GatesState kind.backend ι}
    (hstep : ResolveStep calls s.gates g)
    (hinsert : ∀ rid, kind.backend.check s.gates.store rid = .error .unknownRequest →
      kind.backend.check g.store rid = .error .unknownRequest) :
    OversightOk calls requests { s with gates := g } := by
  constructor
  · exact h.reach.next hstep
  · intro rid hknown
    apply h.known rid
    intro hunknown
    exact hknown (hinsert rid hunknown)
  · intro rid req hcheck
    exact h.pending rid req (check_step hstep hinsert hcheck)
  · exact h.fresh
  · intro e he
    rcases events_step hstep with hevents | ⟨i, rid, req, hphase, hevents⟩
    · exact h.decided e (hevents ▸ he)
    · rw [hevents, List.mem_append, List.mem_singleton] at he
      rcases he with hold | hnew
      · exact h.decided e hold
      · -- the hook runs on the pending request
        obtain ⟨w, hopened, hreq⟩ := h.pending rid req
          ((transactionOk_of_reachable h.reach).checked i rid req (Or.inl hphase))
        rw [hnew]
        exact ⟨w, hopened, by rw [← hreq]; rfl⟩
  · exact h.log_nodup
  · exact h.mem_log

theorem oversightOk_of_reachable
    (h : (oversightSystem kind.backend calls requests).Reachable s) :
    OversightOk calls requests s := by
  refine System.invariant ?_ ?_ h
  · intro s hinit
    rw [hinit]
    exact .start
  · intro s t _ hs hstep
    cases hstep with
    | opens w persisted hidle hfresh hread => exact hs.opens hfresh hread hidle persisted
    | logs w hopened => exact hs.logs hopened
    | resolve g hstep hinsert => exact hs.resolve hstep hinsert

/-! ## What the report counts -/

omit [DecidableEq ω] in
/-- The decision events of a request: one if it is decided, and none otherwise. -/
theorem countP_decision (h : OversightOk calls requests s)
    (hquiet : ∀ i rid req, s.gates.phase i ≠ .committing rid req) (agent : Option String)
    (v : Resolution) {w : ω} (hw : s.phase w ≠ .idle) :
    (s.gates.events.filter fun e => e.requestId = (requests w).requestId).countP
        (fun e => e.verdict = v && keepsAgent agent e.agentId) =
      if s.gates.resolution (requests w).requestId = some v &&
        keepsAgent agent (requests w).agentId then 1 else 0 := by
  have hok := decisionOk_of_reachable h.reach
  rcases hres : s.gates.resolution (requests w).requestId with - | v'
  · have hsilent : s.gates.verdicts (requests w).requestId = [] :=
      hok.silent _ hres fun i req => hquiet i _ req
    rw [List.map_eq_nil_iff.mp hsilent]
    simp
  · have hemitted : s.gates.verdicts (requests w).requestId = [v'] := hok.emitted _ v' hres
    obtain ⟨e, hfilter, hverdict⟩ := List.map_eq_singleton_iff.mp hemitted
    have hmem : e ∈ s.gates.events.filter fun e => e.requestId = (requests w).requestId := by
      rw [hfilter]
      exact List.mem_singleton_self e
    obtain ⟨hevent, hid⟩ := List.mem_filter.mp hmem
    obtain ⟨w', ⟨hopened, hid'⟩, hagent⟩ := h.decided e hevent
    have hww : w' = w := h.fresh w' w hopened hw (hid'.trans (of_decide_eq_true hid))
    rw [hfilter, List.countP_singleton]
    simp [hverdict, hagent, hww]

/-- The requests of the agents that the report is about. -/
def OversightState.askedFor {B : GatesBackend} (s : OversightState B ι ω)
    (requests : ω → ApprovalRequest) (agent : Option String) : List ω :=
  s.log.filter fun w => keepsAgent agent (requests w).agentId

omit [DecidableEq ω] in
theorem countP_events (h : OversightOk calls requests s) (hquiet : s.Quiet)
    (agent : Option String) (v : Resolution) :
    s.gates.events.countP (fun e => e.verdict = v && keepsAgent agent e.agentId) =
      (s.askedFor requests agent).countP fun w =>
        s.gates.resolution (requests w).requestId = some v := by
  have hlogged : ∀ w, s.phase w ≠ .idle → w ∈ s.log := by
    intro w hw
    rw [h.mem_log w]
    rcases hphase : s.phase w with - | - | -
    · exact absurd hphase hw
    · exact absurd hphase (hquiet.requests w)
    · rfl
  have hopened : ∀ w ∈ s.log, s.phase w ≠ .idle := by
    intro w hw
    rw [(h.mem_log w).mp hw]
    simp
  rw [OversightState.askedFor, List.countP_filter]
  apply countP_eq_of_fibers (fun e => e.requestId) fun w => (requests w).requestId
  · apply List.Nodup.map_on _ h.log_nodup
    intro w hw w' hw' hid
    exact h.fresh w w' (hopened w hw) (hopened w' hw') hid
  · intro e he
    obtain ⟨w, ⟨hw, hid⟩, -⟩ := h.decided e he
    exact ⟨w, hlogged w hw, hid⟩
  · intro w hw
    exact countP_decision h hquiet.decisions agent v (hopened w hw)

omit [DecidableEq ι] [DecidableEq ω] in
/-- The report counts what the module has logged for the agents it is about. -/
theorem ofKind_recorded {events : List EventDict} (h : Recorded requests s events)
    {name : String} (hname : name ∈ approvalKinds) (agent : Option String) :
    ofKind name (events.filter fun event => keepsAgent agent event.agentId) =
      (s.approvalEvents requests).countP fun x => x.2 = name && keepsAgent agent x.1 := by
  rw [← h.countP_eq, List.countP_map, List.countP_filter, ofKind, List.countP_filter]
  apply List.countP_congr
  intro event _
  by_cases hkind : event.kind = name
  · simp [hkind, hname]
  · simp [hkind]

omit [DecidableEq ι] [DecidableEq ω] in
theorem countP_requested (agent : Option String) :
    (s.approvalEvents requests).countP
        (fun x => x.2 = "approval.requested" && keepsAgent agent x.1) =
      (s.askedFor requests agent).length := by
  have hdecision : (s.gates.events.map fun e => (e.agentId, e.kind)).countP
      (fun x => x.2 = "approval.requested" && keepsAgent agent x.1) = 0 := by
    rw [List.countP_map, List.countP_eq_zero]
    intro e _
    rcases hverdict : e.verdict with - | -
    · simp [DecisionEvent.kind, hverdict]
    · simp [DecisionEvent.kind, hverdict]
  rw [OversightState.approvalEvents, List.countP_append, hdecision, Nat.add_zero,
    List.countP_map, OversightState.askedFor, ← List.countP_eq_length_filter]
  apply List.countP_congr
  intro w _
  simp

def verdictKind : Resolution → String
  | .granted => "approval.granted"
  | .denied => "approval.denied"

omit [DecidableEq ω] in
theorem countP_decided (h : OversightOk calls requests s) (hquiet : s.Quiet)
    (agent : Option String) (v : Resolution) :
    (s.approvalEvents requests).countP
        (fun x => x.2 = verdictKind v && keepsAgent agent x.1) =
      (s.askedFor requests agent).countP fun w =>
        s.gates.resolution (requests w).requestId = some v := by
  have hrequest : (s.log.map fun w => ((requests w).agentId, "approval.requested")).countP
      (fun x => x.2 = verdictKind v && keepsAgent agent x.1) = 0 := by
    rw [List.countP_map, List.countP_eq_zero]
    intro w _
    cases v with
    | granted => simp [verdictKind]
    | denied => simp [verdictKind]
  rw [OversightState.approvalEvents, List.countP_append, hrequest, Nat.zero_add,
    List.countP_map, ← countP_events h hquiet agent v]
  apply List.countP_congr
  intro e _
  have hkind : e.kind = verdictKind v ↔ e.verdict = v := by
    rcases hverdict : e.verdict with - | -
    · cases v with
      | granted => simp [DecisionEvent.kind, hverdict, verdictKind]
      | denied => simp [DecisionEvent.kind, hverdict, verdictKind]
    · cases v with
      | granted => simp [DecisionEvent.kind, hverdict, verdictKind]
      | denied => simp [DecisionEvent.kind, hverdict, verdictKind]
  simp [hkind]

end Runs

section Counters

variable (truth : PyValue → Bool) (str : PyValue → String) (events : List EventDict)

theorem approvalRequested_eq : (extractReportData truth str events).approvalRequested =
    ofKind "approval.requested" events :=
  counter_eq_ofKind truth str events (fun x => x.approvalRequested) _ rfl fun _ _ => rfl

theorem approvalGranted_eq : (extractReportData truth str events).approvalGranted =
    ofKind "approval.granted" events :=
  counter_eq_ofKind truth str events (fun x => x.approvalGranted) _ rfl fun _ _ => rfl

theorem approvalDenied_eq : (extractReportData truth str events).approvalDenied =
    ofKind "approval.denied" events :=
  counter_eq_ofKind truth str events (fun x => x.approvalDenied) _ rfl fun _ _ => rfl

end Counters

theorem countP_granted_add_denied {ω : Type*} (decision : ω → Option Resolution) (l : List ω) :
    l.countP (fun w => decision w = some .granted) + l.countP (fun w => decision w = some .denied) =
      l.countP fun w => (decision w).isSome := by
  induction l with
  | nil => rfl
  | cons w l ih =>
      rw [List.countP_cons, List.countP_cons, List.countP_cons, ← ih]
      rcases decision w with - | - | -
      · simp
      · simp
        omega
      · simp
        omega

/-- In every run of requests and decisions, once no event is under way: the report over any
agent, or over all, counts its requests and what has become of them.  It says compliant exactly
when there are requests and all have been decided. -/
theorem oversight_reports_gates (kind : Gates.StoreKind) {ι ω : Type*} [DecidableEq ι]
    [DecidableEq ω] {calls : ι → ResolveCall} {requests : ω → ApprovalRequest}
    {s : OversightState kind.backend ι ω}
    (h : (oversightSystem kind.backend calls requests).Reachable s) (hquiet : s.Quiet)
    {events : List EventDict} (hrecorded : Recorded requests s events)
    (truth : PyValue → Bool) (str : PyValue → String) (rate : ℕ → ℕ → PyValue)
    (agent : Option String) :
    (agentReport truth str agent events).approvalRequested =
        (s.askedFor requests agent).length ∧
      (agentReport truth str agent events).approvalGranted =
        ((s.askedFor requests agent).countP fun w =>
          s.gates.resolution (requests w).requestId = some .granted) ∧
      (agentReport truth str agent events).approvalDenied =
        ((s.askedFor requests agent).countP fun w =>
          s.gates.resolution (requests w).requestId = some .denied) ∧
      (((agentReport truth str agent events).humanOversight rate).status = .compliant ↔
        s.askedFor requests agent ≠ [] ∧ ∀ w ∈ s.askedFor requests agent,
          (s.gates.resolution (requests w).requestId).isSome) ∧
      (((agentReport truth str agent events).humanOversight rate).status = .nonCompliant ↔
        s.askedFor requests agent = []) := by
  have hok := oversightOk_of_reachable h
  have hrequested : (agentReport truth str agent events).approvalRequested =
      (s.askedFor requests agent).length := by
    rw [agentReport, approvalRequested_eq, ofKind_recorded hrecorded (by simp [approvalKinds]),
      countP_requested]
  have hgranted : (agentReport truth str agent events).approvalGranted =
      (s.askedFor requests agent).countP fun w =>
        s.gates.resolution (requests w).requestId = some .granted := by
    rw [agentReport, approvalGranted_eq, ofKind_recorded hrecorded (by simp [approvalKinds])]
    exact countP_decided hok hquiet agent .granted
  have hdenied : (agentReport truth str agent events).approvalDenied =
      (s.askedFor requests agent).countP fun w =>
        s.gates.resolution (requests w).requestId = some .denied := by
    rw [agentReport, approvalDenied_eq, ofKind_recorded hrecorded (by simp [approvalKinds])]
    exact countP_decided hok hquiet agent .denied
  have hsum := countP_granted_add_denied
    (fun w => s.gates.resolution (requests w).requestId) (s.askedFor requests agent)
  refine ⟨hrequested, hgranted, hdenied, ?_, ?_⟩
  · rw [ReportData.humanOversight, status_eq_compliant_iff, hrequested, hgranted, hdenied, hsum,
      List.countP_eq_length, List.length_pos_iff]
  · rw [ReportData.humanOversight, status_eq_nonCompliant_iff, hrequested,
      List.length_eq_zero_iff]


/-! ### A denied request -/

/-- `deny(token)` -/
def denyingCall (_ : Unit) : ResolveCall :=
  .token (some (⟨7⟩, sampleRequest.actionHash)) false

def approvalEvent (name : String) : EventDict where
  sessionId := ""
  agentId := "billing-agent"
  kind := name
  model := none
  inputHash := none
  metadata := []
  createdAt := sampleRequest.expiresAt

/-- The trail of the request and of its denial, with a call in between. -/
def deniedTrail : List EventDict :=
  [approvalEvent "approval.requested", approvalEvent "llm.call", approvalEvent "approval.denied"]

/-- The only request is denied, and the section says compliant. -/
theorem deniedTrail_compliant :
    ((agentReport (fun _ => false) (fun _ => "") (some "billing-agent") deniedTrail).humanOversight
      fun _ _ => .none).status = .compliant := by
  have h₀ : (oversightSystem Gates.StoreKind.postgres.backend denyingCall
      fun _ : Unit => sampleRequest).Reachable ⟨GatesState.initial _, fun _ => .idle, []⟩ :=
    .start rfl
  have h₁ := h₀.next (.opens _ () true rfl (by simp) (by rintro ⟨⟩))
  have h₂ := h₁.next (.logs _ () rfl)
  have h₃ := h₂.next (.resolve _ _ (tokenReady_step () rfl rfl (by rintro ⟨⟩) (by decide))
    fun _ hrid => hrid)
  have h₄ := h₃.next (.resolve _ _ (.acquire _ () ⟨7⟩ sampleRequest rfl rfl rfl)
    fun _ hrid => hrid)
  have h₅ := h₄.next (.resolve _ _ (.hookCompletes _ () ⟨7⟩ sampleRequest rfl)
    fun _ hrid => hrid)
  have h₆ := h₅.next (.resolve _ _ (.commit _ () ⟨7⟩ sampleRequest rfl) (by
    intro rid hrid
    have hne : rid ≠ ⟨7⟩ := by
      intro heq
      rw [heq] at hrid
      cases hrid
    exact (Gates.StoreKind.postgres.backend.check_commit _ _ hne).trans hrid))
  obtain ⟨s, hs, hquiet, hrecorded, hlog, hdenied⟩ :
      ∃ s : OversightState Gates.StoreKind.postgres.backend Unit Unit,
        (oversightSystem _ denyingCall fun _ : Unit => sampleRequest).Reachable s ∧ s.Quiet ∧
          Recorded (fun _ => sampleRequest) s deniedTrail ∧ s.log = [()] ∧
            s.gates.resolution ⟨7⟩ = some .denied := by
    refine ⟨_, h₆, ⟨by simp, by simp⟩, ?_, rfl, rfl⟩
    exact List.Perm.refl
      [("billing-agent", "approval.requested"), ("billing-agent", "approval.denied")]
  have hasked : s.askedFor (fun _ => sampleRequest) (some "billing-agent") = [()] := by
    rw [OversightState.askedFor, hlog]
    decide
  have hreports := oversight_reports_gates .postgres hs hquiet hrecorded (fun _ => false)
    (fun _ => "") (fun _ _ => .none) (some "billing-agent")
  refine hreports.2.2.2.1.mpr ⟨?_, ?_⟩
  · simp [hasked]
  · intro w _
    exact Option.isSome_iff_exists.mpr ⟨.denied, hdenied⟩

end AgenticGovernance.Compliance

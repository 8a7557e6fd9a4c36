import Mathlib
import AgenticGovernance.Gates.Resolve

/-!
# Waiting for a decision

`wait_for` polls the local store and, when that shows no resolution, the
platform.  A terminal verdict of the platform is written back through the resolve
protocol and then returned, whether or not the write-back succeeded; and a failed
local read counts as "no resolution".

So the decision a caller gets is the stored one exactly as long as no write-back
stops short of it.  `Undisturbed` is that condition on the steps of a run.
-/

namespace AgenticGovernance.Gates

open Support

/-- Where a `wait_for` is.  `localPending` is after a local read that gave no
resolution, `syncing` inside `_sync_platform_resolution`, and `ran` is after the
function guarded by `require_approval` was started. -/
inductive WaitPhase (ι : Type*) where
  | polling
  | localPending
  | syncing (verdict : Resolution) (call : ι)
  | approved
  | denied
  | timedOut
  | ran

/-- The decision a `wait_for` ended with. -/
def WaitPhase.decision {ι : Type*} : WaitPhase ι → Option Resolution
  | approved => some .granted
  | ran => some .granted
  | denied => some .denied
  | _ => none

/-- What `wait_for` does with a resolution, local or from the platform. -/
def WaitPhase.ofResolution {ι : Type*} : Option Resolution → WaitPhase ι
  | some .granted => approved
  | some .denied => denied
  | none => localPending

theorem decision_ofResolution {ι : Type*} {o : Option Resolution}
    {d : Resolution}
    (h : (WaitPhase.ofResolution o : WaitPhase ι).decision = some d) : o = some d := by
  rcases o with - | (- | -)
  · cases h
  · cases h
    rfl
  · cases h
    rfl

theorem ofResolution_ne_syncing {ι : Type*} {o : Option Resolution}
    {v : Resolution} {k : ι} :
    (WaitPhase.ofResolution o : WaitPhase ι) ≠ .syncing v k := by
  rcases o with - | (- | -) <;> rintro ⟨⟩

/-- The call to the store inside a sync has ended, one way or another. -/
def CallPhase.Ended : CallPhase → Prop
  | returned _ => True
  | raised => True
  | skipped => True
  | _ => False

structure WaitState (B : GatesBackend) (ι ω : Type*) where
  gates : GatesState B ι
  waiter : ω → WaitPhase ι

variable {B : GatesBackend} {ι ω : Type*} [DecidableEq ι] [DecidableEq ω]

namespace WaitState

def setWaiter (s : WaitState B ι ω) (w : ω) (p : WaitPhase ι) : WaitState B ι ω :=
  { s with waiter := Function.update s.waiter w p }

end WaitState

section System

variable (calls : ι → ResolveCall) (target : ω → Uuid)

inductive WaitStep : WaitState B ι ω → WaitState B ι ω → Prop
  -- a step of some resolve call; a platform call runs inside a `wait_for`
  | resolve (s : WaitState B ι ω) (g : GatesState B ι)
      (hstep : ResolveStep calls s.gates g)
      (hstarted : ∀ k rid v, calls k = .platform rid v →
        g.phase k ≠ s.gates.phase k → ∃ w, s.waiter w = .syncing v k) :
      WaitStep s { s with gates := g }
  | readLocal (s : WaitState B ι ω) (w : ω) (hphase : s.waiter w = .polling)
      (hread : s.gates.Readable (target w)) :
      WaitStep s (s.setWaiter w (.ofResolution (s.gates.resolution (target w))))
  | readLocalRaises (s : WaitState B ι ω) (w : ω) (hphase : s.waiter w = .polling) :
      WaitStep s (s.setWaiter w .localPending)
  | platformVerdict (s : WaitState B ι ω) (w : ω) (v : Resolution) (k : ι)
      (hphase : s.waiter w = .localPending) (hcall : calls k = .platform (target w) v)
      (hidle : s.gates.phase k = .idle) (hunused : ∀ w' v', s.waiter w' ≠ .syncing v' k) :
      WaitStep s (s.setWaiter w (.syncing v k))
  | noVerdict (s : WaitState B ι ω) (w : ω) (hphase : s.waiter w = .localPending) :
      WaitStep s (s.setWaiter w .polling)
  | timeout (s : WaitState B ι ω) (w : ω) (hphase : s.waiter w = .localPending) :
      WaitStep s (s.setWaiter w .timedOut)
  | syncEnds (s : WaitState B ι ω) (w : ω) (v : Resolution) (k : ι)
      (hphase : s.waiter w = .syncing v k) (hended : (s.gates.phase k).Ended) :
      WaitStep s (s.setWaiter w (.ofResolution (some v)))
  | runGuarded (s : WaitState B ι ω) (w : ω) (hphase : s.waiter w = .approved) :
      WaitStep s (s.setWaiter w .ran)

variable (B) in
def waitSystem : System (WaitState B ι ω) where
  init s := s.gates = GatesState.initial B ∧ ∀ w, s.waiter w = .polling
  step := WaitStep calls target

/-- The stored decision is authoritative: no `wait_for` has returned `True`, and
no guarded function has been started, for a request whose stored resolution is
`denied`; and all decisions on a request agree. -/
structure Authoritative (s : WaitState B ι ω) : Prop where
  not_denied : ∀ w, (s.waiter w).decision = some .granted →
    s.gates.resolution (target w) ≠ some .denied
  agree : ∀ w w' d d', target w = target w' → (s.waiter w).decision = some d →
    (s.waiter w').decision = some d' → d = d'

/-- A sync of the verdict `v` that stops without a write, because a read or the
hook failed, because there was no pending row, or because it lost a race, does so
only where `v` is stored already. -/
def Undisturbed (s t : WaitState B ι ω) : Prop :=
  ∀ k rid v, calls k = .platform rid v →
    t.gates.phase k = .raised ∨ t.gates.phase k = .skipped →
    t.gates.phase k ≠ s.gates.phase k → s.gates.resolution rid = some v

end System

/-! ## Decisions are stored decisions -/

section Invariants

variable {calls : ι → ResolveCall} {target : ω → Uuid} {s t : WaitState B ι ω}

theorem gates_reachable (h : (waitSystem B calls target).Reachable s) :
    (resolveSystem B calls).Reachable s.gates := by
  refine System.invariant
    (I := fun s : WaitState B ι ω => (resolveSystem B calls).Reachable s.gates) ?_ ?_ h
  · rintro s ⟨hgates, -⟩
    exact .start hgates
  · intro s t _ hinv hstep
    cases hstep with
    | resolve g hg hstarted => exact hinv.next hg
    | _ => exact hinv

/-- A sync that has ended left its verdict in the store. -/
def SyncStored (calls : ι → ResolveCall) (g : GatesState B ι) : Prop :=
  ∀ k rid v, calls k = .platform rid v → (g.phase k).Ended → g.resolution rid = some v

/-- A waiter's sync is about its own request, and its decision is the stored one. -/
structure WaiterOk (calls : ι → ResolveCall) (target : ω → Uuid)
    (s : WaitState B ι ω) : Prop where
  syncing : ∀ w v k, s.waiter w = .syncing v k → calls k = .platform (target w) v
  stored : ∀ w d, (s.waiter w).decision = some d → s.gates.resolution (target w) = some d

omit [DecidableEq ω] in
theorem syncStored_resolve {s t : WaitState B ι ω}
    (hreach : (resolveSystem B calls).Reachable s.gates)
    (hg : ResolveStep calls s.gates t.gates) (h : SyncStored calls s.gates)
    (hcond : Undisturbed calls s t) : SyncStored calls t.gates := by
  intro k rid v hcall hended
  have hstable : s.gates.resolution rid = some v → t.gates.resolution rid = some v :=
    resolution_step (transactionOk_of_reachable hreach) hg
  by_cases hsame : t.gates.phase k = s.gates.phase k
  · rw [hsame] at hended
    exact hstable (h k rid v hcall hended)
  · cases hphase : t.gates.phase k with
    | returned rid' =>
        have hnext := hreach.next hg
        have hres := (decisionOk_of_reachable hnext).resolved k rid' hphase
        have htarget := onTarget_of_reachable hnext k rid' (by rw [hphase]; rfl)
        rw [hcall] at htarget hres
        cases htarget
        exact hres
    | raised => exact hstable (hcond k rid v hcall (Or.inl hphase) hsame)
    | skipped => exact hstable (hcond k rid v hcall (Or.inr hphase) hsame)
    | _ =>
        rw [hphase] at hended
        exact hended.elim

omit [DecidableEq ι] in
theorem WaiterOk.setWaiter (h : WaiterOk calls target s) {w : ω} {p : WaitPhase ι}
    (hsync : ∀ v k, p = .syncing v k → calls k = .platform (target w) v)
    (hdec : ∀ d, p.decision = some d → s.gates.resolution (target w) = some d) :
    WaiterOk calls target (s.setWaiter w p) := by
  constructor
  · intro w' v k hw'
    by_cases hww : w' = w
    · subst hww
      exact hsync v k (by simpa [WaitState.setWaiter] using hw')
    · exact h.syncing w' v k (by simpa [WaitState.setWaiter, hww] using hw')
  · intro w' d hw'
    by_cases hww : w' = w
    · subst hww
      exact hdec d (by simpa [WaitState.setWaiter] using hw')
    · exact h.stored w' d (by simpa [WaitState.setWaiter, hww] using hw')

theorem waiterOk_step (hreach : (resolveSystem B calls).Reachable s.gates)
    (hsync : SyncStored calls s.gates) (h : WaiterOk calls target s)
    (hstep : WaitStep calls target s t) : WaiterOk calls target t := by
  cases hstep with
  | resolve g hg hstarted =>
      refine ⟨h.syncing, fun w d hd => ?_⟩
      exact resolution_step (transactionOk_of_reachable hreach) hg (h.stored w d hd)
  | readLocal w hphase hread =>
      exact h.setWaiter (fun v k hp => absurd hp ofResolution_ne_syncing)
        fun d hd => decision_ofResolution hd
  | readLocalRaises w hphase =>
      exact h.setWaiter (by rintro v k ⟨⟩) (by rintro d ⟨⟩)
  | platformVerdict w v k hphase hcall hidle hunused =>
      refine h.setWaiter ?_ (by rintro d ⟨⟩)
      rintro v' k' ⟨⟩
      exact hcall
  | noVerdict w hphase => exact h.setWaiter (by rintro v k ⟨⟩) (by rintro d ⟨⟩)
  | timeout w hphase => exact h.setWaiter (by rintro v k ⟨⟩) (by rintro d ⟨⟩)
  | syncEnds w v k hphase hended =>
      refine h.setWaiter (fun v' k' hp => absurd hp ofResolution_ne_syncing) fun d hd => ?_
      have hstored := hsync k (target w) v (h.syncing w v k hphase) hended
      rw [hstored]
      exact decision_ofResolution hd
  | runGuarded w hphase =>
      refine h.setWaiter (by rintro v k ⟨⟩) ?_
      rintro d ⟨⟩
      exact h.stored w .granted (by rw [hphase]; rfl)

/-- A guarded function is started by a `wait_for` that returned `True`. -/
theorem approved_of_ran (hstep : WaitStep calls target s t) {w : ω}
    (hran : t.waiter w = .ran) (hnot : s.waiter w ≠ .ran) :
    (s.waiter w).decision = some .granted := by
  have hset : ∀ w' (p : WaitPhase ι), p ≠ .ran → (s.setWaiter w' p).waiter w ≠ .ran := by
    intro w' p hp
    by_cases hww : w = w'
    · subst hww
      simpa [WaitState.setWaiter] using hp
    · simpa [WaitState.setWaiter, hww] using hnot
  cases hstep with
  | resolve g hg hstarted => exact absurd hran hnot
  | readLocal w' hphase hread =>
      refine absurd hran (hset w' _ ?_)
      rcases s.gates.resolution (target w') with - | (- | -) <;> rintro ⟨⟩
  | readLocalRaises w' hphase => exact absurd hran (hset w' _ (by simp))
  | platformVerdict w' v k hphase hcall hidle hunused =>
      exact absurd hran (hset w' _ (by simp))
  | noVerdict w' hphase => exact absurd hran (hset w' _ (by simp))
  | timeout w' hphase => exact absurd hran (hset w' _ (by simp))
  | syncEnds w' v k hphase hended =>
      refine absurd hran (hset w' _ ?_)
      cases v <;> rintro ⟨⟩
  | runGuarded w' hphase =>
      by_cases hww : w = w'
      · subst hww
        rw [hphase]
        rfl
      · exact absurd (by simpa [WaitState.setWaiter, hww] using hran) hnot

theorem waiterOk_of_reachable
    (h : ((waitSystem B calls target).along (Undisturbed calls)).Reachable s) :
    SyncStored calls s.gates ∧ WaiterOk calls target s := by
  refine System.invariant
    (I := fun s => SyncStored calls s.gates ∧ WaiterOk calls target s) ?_ ?_ h
  · rintro s ⟨hgates, hpolling⟩
    refine ⟨?_, ?_, ?_⟩
    · intro k rid v _ hended
      rw [hgates] at hended
      exact hended.elim
    · intro w v k hw
      rw [hpolling w] at hw
      cases hw
    · intro w d hw
      rw [hpolling w] at hw
      cases hw
  · rintro s t hs ⟨hsync, hwait⟩ ⟨hstep, hcond⟩
    have hreach := gates_reachable hs.of_along
    refine ⟨?_, waiterOk_step hreach hsync hwait hstep⟩
    cases hstep with
    | resolve g hg hstarted =>
        exact syncStored_resolve (t := { s with gates := g }) hreach hg hsync hcond
    | _ => exact hsync

end Invariants

/-- In every run in which no sync of a platform verdict is disturbed, the stored
decision is authoritative in every state reached, and a guarded function is
started only while its request is not stored as denied. -/
theorem local_decision_authoritative (kind : StoreKind) {calls : ι → ResolveCall}
    {target : ω → Uuid} {s : WaitState kind.backend ι ω}
    (h : ((waitSystem kind.backend calls target).along (Undisturbed calls)).Reachable s) :
    Authoritative target s ∧
      ∀ t w, WaitStep calls target s t → t.waiter w = .ran → s.waiter w ≠ .ran →
        s.gates.resolution (target w) ≠ some .denied := by
  have hstored := (waiterOk_of_reachable h).2.stored
  have hgranted : ∀ w, (s.waiter w).decision = some .granted →
      s.gates.resolution (target w) ≠ some .denied := by
    intro w hw hdenied
    rw [hstored w .granted hw] at hdenied
    cases hdenied
  refine ⟨⟨hgranted, ?_⟩, ?_⟩
  · intro w w' d d' htarget hd hd'
    have hres := hstored w d hd
    rw [htarget, hstored w' d' hd'] at hres
    exact (Option.some.inj hres).symm
  · intro t w hstep hran hnot
    exact hgranted w (approved_of_ran hstep hran hnot)

/-! ### A denied request that is approved -/

/-- Call `false` is `deny(token)`, call `true` the write-back of a grant. -/
def disputedCalls (byPlatform : Bool) : ResolveCall :=
  if byPlatform then .platform ⟨7⟩ .granted
  else .token (some (⟨7⟩, sampleRequest.actionHash)) false

def disputedTarget (_ : Unit) : Uuid := ⟨7⟩

/-- The denial is stored; then the local read of a `wait_for` fails, the platform
says granted, the sync finds no pending row, and `wait_for` returns `True` and
the guarded function is started. -/
theorem denied_request_approved :
    ∃ s t u : WaitState StoreKind.postgres.backend Bool Unit,
      (waitSystem _ disputedCalls disputedTarget).Reachable s ∧
        s.gates.resolution ⟨7⟩ = some .denied ∧ (s.waiter ()).decision = none ∧
          WaitStep disputedCalls disputedTarget s t ∧ t.waiter () = .approved ∧
            ¬Authoritative disputedTarget t ∧
              WaitStep disputedCalls disputedTarget t u ∧ u.waiter () = .ran ∧
                u.gates.resolution ⟨7⟩ = some .denied := by
  have h₀ : (waitSystem StoreKind.postgres.backend disputedCalls disputedTarget).Reachable
      ⟨GatesState.initial _, fun _ => .polling⟩ := .start ⟨rfl, fun _ => rfl⟩
  have hlocal : ∀ (g g' : GatesState StoreKind.postgres.backend Bool)
      (waiter : Unit → WaitPhase Bool), ResolveStep disputedCalls g g' →
      g'.phase true = g.phase true →
      WaitStep disputedCalls disputedTarget ⟨g, waiter⟩ ⟨g', waiter⟩ := by
    intro g g' waiter hstep hsame
    refine .resolve _ g' hstep fun k rid v hcall hmoved => ?_
    cases k with
    | false => cases hcall
    | true => exact absurd hsame hmoved
  have h₁ := h₀.next (hlocal _ _ _
    (.insertPending _ sampleRequest rfl (by rintro ⟨⟩)) rfl)
  have h₂ := h₁.next (hlocal _ _ _
    (.tokenChecked _ false ⟨7⟩ _ false rfl rfl (by rintro ⟨⟩)) rfl)
  have h₃ := h₂.next (hlocal _ _ _ (.acquire _ false ⟨7⟩ sampleRequest rfl rfl rfl) rfl)
  have h₄ := h₃.next (hlocal _ _ _ (.hookCompletes _ false ⟨7⟩ sampleRequest rfl) rfl)
  have h₅ := h₄.next (hlocal _ _ _ (.commit _ false ⟨7⟩ sampleRequest rfl) rfl)
  have h₆ := h₅.next (.readLocalRaises _ () rfl)
  have h₇ := h₆.next (.platformVerdict _ () .granted true rfl rfl rfl (by
    rintro ⟨⟩ v' ⟨⟩))
  have h₈ := h₇.next (.resolve _ _
    (.platformChecked _ true ⟨7⟩ .granted rfl rfl (by rintro ⟨⟩)) (by
      intro k rid v hcall hmoved
      cases k with
      | false => exact absurd rfl hmoved
      | true =>
          cases hcall
          exact ⟨(), rfl⟩))
  refine ⟨_, _, _, h₈, rfl, rfl, .syncEnds _ () .granted true rfl trivial, rfl, ?_,
    .runGuarded _ () rfl, rfl, rfl⟩
  intro hauth
  exact hauth.not_denied () rfl rfl

/-! ### An undisturbed sync -/

/-- A grant of the platform that is written back before it is returned. -/
theorem undisturbed_sync_authoritative :
    ∃ s : WaitState StoreKind.inMemory.backend Unit Unit,
      s.gates.resolution ⟨7⟩ = some .granted ∧ s.waiter () = .approved ∧
        Authoritative (fun _ => ⟨7⟩) s := by
  let calls : Unit → ResolveCall := fun _ => .platform ⟨7⟩ .granted
  have h₀ : ((waitSystem StoreKind.inMemory.backend calls fun _ : Unit => ⟨7⟩).along
      (Undisturbed calls)).Reachable
      ⟨GatesState.initial _, fun _ => .polling⟩ := .start ⟨rfl, fun _ => rfl⟩
  have hcond : ∀ s t : WaitState StoreKind.inMemory.backend Unit Unit,
      t.gates.phase () ≠ .raised → t.gates.phase () ≠ .skipped →
      Undisturbed calls s t := by
    rintro s t hraised hskipped ⟨⟩ rid v - (h | h) -
    · exact absurd h hraised
    · exact absurd h hskipped
  have hstarted : ∀ (g g' : GatesState StoreKind.inMemory.backend Unit) (k : Unit)
      (rid : Uuid) (v : Resolution), calls k = .platform rid v →
      g'.phase k ≠ g.phase k →
      ∃ w : Unit, (fun _ : Unit => WaitPhase.syncing Resolution.granted ()) w =
        .syncing v k := by
    rintro g g' ⟨⟩ rid v ⟨⟩ -
    exact ⟨(), rfl⟩
  have h₁ := h₀.next ⟨.resolve _ _ (.insertPending _ sampleRequest rfl fun _ => rfl)
    (fun k rid v _ hmoved => absurd rfl hmoved), hcond _ _ (by rintro ⟨⟩) (by rintro ⟨⟩)⟩
  have h₂ := h₁.next ⟨.readLocal _ () rfl fun _ => rfl,
    hcond _ _ (by rintro ⟨⟩) (by rintro ⟨⟩)⟩
  have h₃ := h₂.next ⟨.platformVerdict _ () .granted () rfl rfl rfl (by rintro ⟨⟩ v' ⟨⟩),
    hcond _ _ (by rintro ⟨⟩) (by rintro ⟨⟩)⟩
  have h₄ := h₃.next ⟨.resolve _ _
    (.platformChecked _ () ⟨7⟩ .granted rfl rfl fun _ => rfl) (hstarted _ _),
    hcond _ _ (by rintro ⟨⟩) (by rintro ⟨⟩)⟩
  have h₅ := h₄.next ⟨.resolve _ _ (.acquire _ () ⟨7⟩ sampleRequest rfl rfl rfl)
    (hstarted _ _), hcond _ _ (by rintro ⟨⟩) (by rintro ⟨⟩)⟩
  have h₆ := h₅.next ⟨.resolve _ _ (.hookCompletes _ () ⟨7⟩ sampleRequest rfl)
    (hstarted _ _), hcond _ _ (by rintro ⟨⟩) (by rintro ⟨⟩)⟩
  have h₇ := h₆.next ⟨.resolve _ _ (.commit _ () ⟨7⟩ sampleRequest rfl)
    (hstarted _ _), hcond _ _ (by rintro ⟨⟩) (by rintro ⟨⟩)⟩
  have h₈ := h₇.next ⟨.syncEnds _ () .granted () rfl trivial,
    hcond _ _ (by rintro ⟨⟩) (by rintro ⟨⟩)⟩
  exact ⟨_, rfl, rfl, (local_decision_authoritative .inMemory h₈).1⟩

end AgenticGovernance.Gates

import Mathlib
import AgenticGovernance.Integrations.WrappedCalls
import AgenticGovernance.Presence.HaltCache

/-!
# The kill switch

An operator halts an agent by a marker in the table of the presence module.  The wrapper of an
LLM client asks for the marker through the cache of that module, which may be five seconds old.

`halted_agent_sends_nothing` puts the two together: once a halt is committed, a call whose halt
check has not started five seconds later sends no request, whatever else the program does, the
heartbeats and calls of the halted agent included.
-/

namespace AgenticGovernance.Integrations

open Support Presence

/-- A program with the wrapped calls `ι`, each of which makes one halt check, and with other
tasks `κ` that ask the presence module. -/
structure WiredState (ι κ U : Type) where
  presence : CacheState (ι ⊕ κ)
  phase : ι → CallPhase U
  trace : ι → List (CallItem U)

/-- The calls of the presence module. -/
def haltChecks {ι κ : Type} (calls : ι → CreateCall) (others : κ → CacheCall) :
    ι ⊕ κ → CacheCall
  | .inl i => .assertNotHalted (calls i).client.agentId
  | .inr k => others k

section System

variable {ι κ U : Type} [DecidableEq ι] [DecidableEq κ] [Zero U] [LT U] [DecidableLT U]
  (dumpsLength : PyValue → Option ℕ) (E : Engines) (cfg : WrapperConfig U)
  (calls : ι → CreateCall) (others : κ → CacheCall)

/-- The steps of the program, while no read of the halted set fails. -/
inductive WiredStep : WiredState ι κ U → WiredState ι κ U → Prop
  /-- A step of the presence module.  The halt check of a wrapped call runs while its wrapper
  awaits it. -/
  | presence (s : WiredState ι κ U) (p : CacheState (ι ⊕ κ))
      (hstep : CacheStep dumpsLength E (haltChecks calls others) false s.presence p)
      (hawaited : ∀ i, p.phase (.inl i) ≠ s.presence.phase (.inl i) →
        ∃ kw, s.phase i = .routed kw) :
      WiredStep s { s with presence := p }
  /-- A step of a wrapped call, with any answers of the other modules.  Unless the wrapper is
  cancelled there, its halt check gets the answer of the presence module. -/
  | call (s : WiredState ι κ U) (i : ι) (m : SdkMoment U) (items : List (CallItem U))
      (p : CallPhase U)
      (hstep : CallStep cfg (calls i).client (calls i).kwargs m (s.phase i) items p)
      (hanswer : ∀ kw, s.phase i = .routed kw → p ≠ .finished (.raised cancelledError) →
        ∃ start, s.presence.phase (.inl i) =
          .finished start (m.checkEnv.haltOf (calls i).client.agentId)) :
      WiredStep s
        { s with
          phase := Function.update s.phase i p
          trace := Function.update s.trace i (s.trace i ++ items) }

/-- An operator's `halt`. -/
def WiredState.halted (s : WiredState ι κ U) (now : ℤ) (fate : Fate)
    (agentId haltedBy : String) (reason : Option String) : WiredState ι κ U :=
  { s with
    presence :=
      { s.presence with
        presence := (s.presence.presence.call dumpsLength E now fate
          (.halt agentId haltedBy reason)).1 } }

def wiredSystem : System (WiredState ι κ U) where
  init s := (cacheSystem dumpsLength E (haltChecks calls others) false).init s.presence ∧
    (∀ i, s.phase i = .idle) ∧ ∀ i, s.trace i = []
  step := WiredStep dumpsLength E cfg calls others

end System

/-! ## The halt checks -/

section Checks

variable {τ : Type} {dumpsLength : PyValue → Option ℕ} {E : Engines} {checks : τ → CacheCall}
  {faults : Bool} {s t : CacheState τ}

/-- The clock at the start of a check that has not been cancelled. -/
def start? : RefreshPhase → Option ℚ
  | .waiting start => some start
  | .fetching start _ _ => some start
  | .finished start _ => some start
  | _ => none

/-- One check moves on while the clock shows `clock`. -/
structure Moves (clock : ℚ) (p q : RefreshPhase) : Prop where
  unfinished : ∀ start halted, p ≠ .finished start halted
  start : ∀ start, start? q = some start → start = clock ∨ start? p = some start

variable [DecidableEq τ]

theorem moves_setPhase {i : τ} {p : RefreshPhase} (h : Moves s.clock (s.phase i) p) (j : τ) :
    Function.update s.phase i p j = s.phase j ∨
      Moves s.clock (s.phase j) (Function.update s.phase i p j) := by
  by_cases hji : j = i
  · subst hji
    rw [Function.update_self]
    exact Or.inr h
  · exact Or.inl (Function.update_of_ne hji ..)

theorem Moves.begin {clock : ℚ} {q : RefreshPhase} (hq : start? q = some clock) :
    Moves clock .idle q where
  unfinished := by simp
  start := by
    intro start hstart
    exact Or.inl (Option.some.inj (hstart.symm.trans hq))

theorem Moves.goOn {clock start : ℚ} {p q : RefreshPhase}
    (hp : ∀ start halted, p ≠ .finished start halted) (hstart : start? p = some start)
    (hq : start? q = some start ∨ start? q = none) : Moves clock p q where
  unfinished := hp
  start := by
    intro start' hstart'
    rcases hq with hq | hq
    · rw [hstart, ← hq]
      exact Or.inr hstart'
    · simp [hq] at hstart'

/-- A step of the presence module starts a check, moves it on, or leaves it alone. -/
theorem cacheStep_moves (hstep : CacheStep dumpsLength E checks faults s t) (j : τ) :
    t.phase j = s.phase j ∨ Moves s.clock (s.phase j) (t.phase j) := by
  cases hstep with
  | tick d hd => exact Or.inl rfl
  | presence p hp => exact Or.inl rfl
  | startFresh i hphase hfresh =>
      change Function.update (s.expire (checks i)).phase i _ j = s.phase j ∨ Moves s.clock _
        (Function.update (s.expire (checks i)).phase i _ j)
      rw [s.phase_expire]
      apply moves_setPhase
      rw [hphase]
      exact .begin rfl
  | startStale i hphase hstale =>
      change Function.update (s.expire (checks i)).phase i _ j = s.phase j ∨ Moves s.clock _
        (Function.update (s.expire (checks i)).phase i _ j)
      rw [s.phase_expire]
      apply moves_setPhase
      rw [hphase]
      exact .begin rfl
  | acquireFresh i start hphase hlock hfresh =>
      apply moves_setPhase
      rw [hphase]
      exact .goOn (by simp) rfl (Or.inl rfl)
  | deriveMemory i start hphase hlock hstale hengine =>
      have hmoves : Moves s.clock (s.phase i) (.finished start ((checks i).lookup
          (deriveHaltedFromMemory s.presence.agents))) := by
        rw [hphase]
        exact .goOn (by simp) rfl (Or.inl rfl)
      exact moves_setPhase hmoves j
  | startFetch i start hphase hlock hstale hengine =>
      have hmoves : Moves s.clock (s.phase i) (.fetching start s.clock none) := by
        rw [hphase]
        exact .goOn (by simp) rfl (Or.inl rfl)
      exact moves_setPhase hmoves j
  | select i start now hphase =>
      apply moves_setPhase
      rw [hphase]
      exact .goOn (by simp) rfl (Or.inl rfl)
  | refreshed i start now rows hphase =>
      have hmoves : Moves s.clock (s.phase i) (.finished start ((checks i).lookup rows)) := by
        rw [hphase]
        exact .goOn (by simp) rfl (Or.inl rfl)
      exact moves_setPhase hmoves j
  | readFailed i start now rows hphase hfaults =>
      have hmoves : Moves s.clock (s.phase i)
          (.finished start ((checks i).lookup s.haltedCache)) := by
        rw [hphase]
        exact .goOn (by simp) rfl (Or.inl rfl)
      exact moves_setPhase hmoves j
  | cancelWaiting i start hphase =>
      apply moves_setPhase
      rw [hphase]
      exact .goOn (by simp) rfl (Or.inr rfl)
  | cancelFetching i start now rows hphase =>
      have hmoves : Moves s.clock (s.phase i) .cancelled := by
        rw [hphase]
        exact .goOn (by simp) rfl (Or.inr rfl)
      exact moves_setPhase hmoves j

theorem clock_le_of_step (hstep : CacheStep dumpsLength E checks faults s t) :
    s.clock ≤ t.clock := by
  cases hstep with
  | tick d hd => exact le_add_of_nonneg_right hd
  | startFresh i hphase hfresh => exact (s.clock_expire (checks i)).ge
  | startStale i hphase hstale => exact (s.clock_expire (checks i)).ge
  | _ => exact le_rfl

/-- The check of task `j` has not started before the clock showed `c`. -/
structure NotBefore (c : ℚ) (s : CacheState τ) (j : τ) : Prop where
  clock : c ≤ s.clock
  start : ∀ start, start? (s.phase j) = some start → c ≤ start

theorem NotBefore.run {c : ℚ} {j : τ} (h : NotBefore c s j)
    (hrun : Relation.ReflTransGen (CacheStep dumpsLength E checks faults) s t) :
    NotBefore c t j := by
  induction hrun with
  | refl => exact h
  | tail _ hstep ih =>
      refine ⟨ih.clock.trans (clock_le_of_step hstep), ?_⟩
      intro start hstart
      rcases cacheStep_moves hstep j with hsame | hmoves
      · rw [hsame] at hstart
        exact ih.start start hstart
      · rcases hmoves.start start hstart with hclock | hold
        · rw [hclock]
          exact ih.clock
        · exact ih.start start hold

end Checks

/-! ## No request without a check -/

section Requests

variable {ι κ U : Type} [DecidableEq ι] [DecidableEq κ] [Zero U] [LT U] [DecidableLT U]
  {dumpsLength : PyValue → Option ℕ} {E : Engines} {cfg : WrapperConfig U}
  {calls : ι → CreateCall} {others : κ → CacheCall} {s t : WiredState ι κ U}

/-- The wrapper has not got past its halt check, or it has ended. -/
def Unasked (p : CallPhase U) : Prop :=
  p = .idle ∨ (∃ kw, p = .routed kw) ∨ ∃ outcome, p = .finished outcome

/-- The only way past the halt check is that the agent is not halted. -/
theorem callStep_unasked {client : WrappedClient} {kw₀ : CreateKwargs} {m : SdkMoment U}
    {p q : CallPhase U} {items : List (CallItem U)}
    (hstep : CallStep cfg client kw₀ m p items q) (hp : Unasked p) :
    items = [] ∧ (Unasked q ∨
      (∃ kw, p = .routed kw) ∧ q ≠ .finished (.raised cancelledError) ∧
        m.checkEnv.haltOf client.agentId = none) := by
  have hfinished : ∀ outcome, Unasked (.finished outcome : CallPhase U) :=
    fun outcome => Or.inr (Or.inr ⟨outcome, rfl⟩)
  cases hstep with
  | @route kw h => exact ⟨rfl, Or.inl (Or.inr (Or.inl ⟨kw, rfl⟩))⟩
  | @halt kw h =>
      exact ⟨rfl, Or.inr ⟨⟨kw, rfl⟩, by simp, haltCheckIfWired_eq_ok_iff.mp h⟩⟩
  | routeRaises h => exact ⟨rfl, Or.inl (hfinished _)⟩
  | haltRaises h => exact ⟨rfl, Or.inl (hfinished _)⟩
  | cancel hp => exact ⟨rfl, Or.inl (hfinished _)⟩
  | _ => simp [Unasked] at hp

/-- A call that has got past its halt check was told that its agent is not halted. -/
def CheckedFirst (s : WiredState ι κ U) (i : ι) : Prop :=
  (Unasked (s.phase i) ∧ s.trace i = []) ∨
    ∃ start, s.presence.phase (.inl i) = .finished start none

theorem CheckedFirst.step {i : ι} (h : CheckedFirst s i)
    (hstep : WiredStep dumpsLength E cfg calls others s t) : CheckedFirst t i := by
  cases hstep with
  | presence p hstep hawaited =>
      refine h.imp_right ?_
      intro hpassed
      obtain ⟨start, hphase⟩ := hpassed
      rcases cacheStep_moves hstep (.inl i) with hsame | hmoves
      · exact ⟨start, hsame.trans hphase⟩
      · exact absurd hphase (hmoves.unfinished start none)
  | call j m items p hstep hanswer =>
      by_cases hij : i = j
      · subst hij
        rcases h with ⟨hunasked, htrace⟩ | hpassed
        · obtain ⟨hitems, hnext⟩ := callStep_unasked hstep hunasked
          rcases hnext with hstill | ⟨⟨kw, hrouted⟩, hgoesOn, hopen⟩
          · left
            simp [hstill, htrace, hitems]
          · right
            obtain ⟨start, hphase⟩ := hanswer kw hrouted hgoesOn
            rw [hopen] at hphase
            exact ⟨start, hphase⟩
        · exact Or.inr hpassed
      · rw [CheckedFirst] at h ⊢
        simpa [hij] using h

theorem checkedFirst_of_reachable
    (h : (wiredSystem dumpsLength E cfg calls others).Reachable s) (i : ι) :
    CheckedFirst s i := by
  refine System.invariant (I := fun s => CheckedFirst s i) ?_ ?_ h
  · intro s hinit
    obtain ⟨-, hidle, hempty⟩ := hinit
    exact Or.inl ⟨Or.inl (hidle i), hempty i⟩
  · intro s t _ hs hstep
    exact hs.step hstep

theorem CheckedFirst.run {i : ι} (h : CheckedFirst s i)
    (hrun : Relation.ReflTransGen (WiredStep dumpsLength E cfg calls others) s t) :
    CheckedFirst t i := by
  induction hrun with
  | refl => exact h
  | tail _ hstep ih => exact ih.step hstep

/-- The presence module does the steps of a run of its own. -/
theorem presence_run
    (hrun : Relation.ReflTransGen (WiredStep dumpsLength E cfg calls others) s t) :
    Relation.ReflTransGen (CacheStep dumpsLength E (haltChecks calls others) false)
      s.presence t.presence := by
  induction hrun with
  | refl => exact .refl
  | tail _ hstep ih =>
      cases hstep with
      | presence p hstep hawaited => exact ih.tail hstep
      | call i m items p hstep hanswer => exact ih

theorem presence_reachable
    (h : (wiredSystem dumpsLength E cfg calls others).Reachable s) :
    (cacheSystem dumpsLength E (haltChecks calls others) false).Reachable s.presence := by
  obtain ⟨s₀, hinit, hrun⟩ := h
  exact ⟨s₀.presence, hinit.1, presence_run hrun⟩

/-- A halt of an agent is committed while the clock shows `s₁.presence.clock`.  A call of the
agent whose halt check has not started five seconds later never sends a request. -/
theorem halted_agent_sends_nothing {s₁ s₂ : WiredState ι κ U} {haltedBy : String}
    {reason : Option String} {now : ℤ} {fate : Fate} {i : ι}
    (hreach : (wiredSystem dumpsLength E cfg calls others).Reachable s₁)
    (hcommitted : E.shared = true → fate ≠ .rolledBack)
    (hhalted : Relation.ReflTransGen (WiredStep dumpsLength E cfg calls others)
      (s₁.halted dumpsLength E now fate (calls i).client.agentId haltedBy reason) s₂)
    (hlate : s₁.presence.clock + haltCacheTtlSeconds ≤ s₂.presence.clock)
    (hidle : s₂.presence.phase (.inl i) = .idle)
    (hrun : Relation.ReflTransGen (WiredStep dumpsLength E cfg calls others) s₂ t) :
    ∀ kw, .request kw ∉ t.trace i := by
  intro kw hrequest
  have hchecked₁ : CheckedFirst
      (s₁.halted dumpsLength E now fate (calls i).client.agentId haltedBy reason) i :=
    checkedFirst_of_reachable hreach i
  have hcovered := covered_run
    ((covered_of_reachable (presence_reachable hreach)).halted (marked_store_halt hcommitted))
    (presence_run (hhalted.trans hrun))
  rcases hchecked₁.run (hhalted.trans hrun) with ⟨-, htrace⟩ | ⟨start, hphase⟩
  · simp [htrace] at hrequest
  · -- the check started after the halt had become effective, so it did not return
    have hnew : NotBefore s₂.presence.clock s₂.presence (.inl i) := by
      refine ⟨le_rfl, ?_⟩
      simp [hidle, start?]
    have hstart : s₂.presence.clock ≤ start :=
      (hnew.run (presence_run hrun)).start start (by rw [hphase]; rfl)
    have hok := hcovered.phases (.inl i)
    rw [hphase] at hok
    obtain ⟨halt, hhalt⟩ := hok.2 _ rfl rfl (hlate.trans hstart)
    simp at hhalt

end Requests

/-! ### A call that is stopped -/

def killEngines : Engines := ⟨true, false, by decide⟩

/-- A program with one call, on a database, started when the clock shows zero. -/
def killStart : WiredState Unit Empty ℚ where
  presence := ⟨⟨.empty, .empty⟩, 0, .empty, 0, none, fun _ => .idle⟩
  phase := fun _ => .idle
  trace := fun _ => []

/-- No other task asks. -/
def killChecks : Unit ⊕ Empty → CacheCall := haltChecks sampleCall nofun

theorem haltCheckIfWired_of_halted {U : Type} {client : WrappedClient} {m : SdkMoment U}
    {halt : HaltMeta} (h : m.checkEnv.haltOf client.agentId = some halt) :
    haltCheckIfWired client m = .error (.agentHalted halt) := by
  simp [haltCheckIfWired, h]

def killStep : WiredState Unit Empty ℚ → WiredState Unit Empty ℚ → Prop :=
  WiredStep (fun _ => some 0) killEngines sampleConfig sampleCall nofun

theorem killStep_call {presence : CacheState (Unit ⊕ Empty)} {p p' : CallPhase ℚ}
    {m : SdkMoment ℚ} (hstep : CallStep sampleConfig sampleClient sampleKwargs m p [] p')
    (hanswer : ∀ kw, p = .routed kw →
      ∃ start, presence.phase (.inl ()) = .finished start (m.checkEnv.haltOf "agent-a")) :
    killStep ⟨presence, fun _ => p, fun _ => []⟩ ⟨presence, fun _ => p', fun _ => []⟩ := by
  have hcall : killStep ⟨presence, fun _ => p, fun _ => []⟩
      ⟨presence, Function.update (fun _ => p) () p', Function.update (fun _ => []) () ([] ++ [])⟩ :=
    .call _ () m [] p' hstep fun kw hrouted _ => hanswer kw hrouted
  have hp : Function.update (fun _ => p) () p' = fun _ => p' := by
    funext u
    simp
  have htrace : Function.update (fun _ : Unit => ([] : List (CallItem ℚ))) () ([] ++ []) =
      fun _ => [] := by
    funext u
    simp
  rwa [hp, htrace] at hcall

theorem killStep_presence {p q : CacheState (Unit ⊕ Empty)}
    (hstep : CacheStep (fun _ => some 0) killEngines killChecks false p q) :
    killStep ⟨p, fun _ => .routed sampleKwargs, fun _ => []⟩
      ⟨q, fun _ => .routed sampleKwargs, fun _ => []⟩ :=
  .presence _ q hstep fun _ _ => ⟨sampleKwargs, rfl⟩

/-- The halt is committed at once, and the call starts five seconds later. -/
theorem sample_halted_agent_sends_nothing :
    ∃ (t : WiredState Unit Empty ℚ) (halt : HaltMeta),
      t.phase () = .finished (.refused (.agentHalted halt)) ∧
        ∀ kw, .request kw ∉ t.trace () := by
  have hreach : (wiredSystem (fun _ => some 0) killEngines sampleConfig sampleCall
      nofun).Reachable killStart :=
    .start ⟨⟨le_rfl, rfl, rfl, rfl, fun _ => rfl⟩, fun _ => rfl, fun _ => rfl⟩
  let table : Agents := haltPostgres .empty 0 "agent-a" "operator" none
  let late : CacheState (Unit ⊕ Empty) :=
    ⟨⟨.empty, table⟩, 0 + 5, .empty, 0, none, fun _ => .idle⟩
  have hlater : Relation.ReflTransGen killStep
      (killStart.halted (fun _ => some 0) killEngines 0 .committed "agent-a" "operator" none)
      ⟨late, fun _ => .idle, fun _ => []⟩ :=
    .single (.presence _ late (.tick _ 5 (by norm_num)) fun i hmoved => absurd rfl hmoved)
  have hstale : ¬late.Fresh := by
    change ¬((0 : ℚ) + 5 - 0 < 5)
    norm_num
  have h₁ : killStep ⟨late, fun _ => .idle, fun _ => []⟩
      ⟨late, fun _ => .routed sampleKwargs, fun _ => []⟩ :=
    killStep_call (.route (show route sampleClient (injectIncludeUsage .anthropic sampleKwargs)
      openMoment = .ok sampleKwargs from rfl)) (by simp)
  let waiting := late.setPhase (.inl ()) (.waiting late.clock)
  let fetching : CacheState (Unit ⊕ Empty) :=
    { waiting.setPhase (.inl ()) (.fetching late.clock late.clock none) with
      lock := some (.inl ()) }
  let rows := fetchHaltedFromPostgres table
  let fetched := fetching.setPhase (.inl ()) (.fetching late.clock late.clock (some rows))
  have h₂ : killStep _ ⟨waiting, fun _ => .routed sampleKwargs, fun _ => []⟩ :=
    killStep_presence (.startStale late (.inl ()) rfl hstale)
  have h₃ : killStep _ ⟨fetching, fun _ => .routed sampleKwargs, fun _ => []⟩ :=
    killStep_presence (.startFetch waiting (.inl ()) late.clock
      (CacheState.phase_setPhase_self ..) rfl hstale rfl)
  have hfetching : fetching.phase (.inl ()) = .fetching late.clock late.clock none :=
    waiting.phase_setPhase_self (.inl ()) _
  have h₄ : killStep _ ⟨fetched, fun _ => .routed sampleKwargs, fun _ => []⟩ :=
    killStep_presence (.select fetching (.inl ()) late.clock late.clock hfetching)
  have h₅ := killStep_presence (.refreshed fetched (.inl ()) late.clock late.clock rows
    (CacheState.phase_setPhase_self ..))
  obtain ⟨halt, hrow⟩ : ∃ halt, rows.get? "agent-a" = some halt := ⟨_, rfl⟩
  let stoppedMoment : SdkMoment ℚ := { openMoment with presence := some rows }
  have hcheck : haltCheckIfWired sampleClient stoppedMoment = .error (.agentHalted halt) :=
    haltCheckIfWired_of_halted hrow
  have hphase : ((fetched.refresh rows late.clock).release.finish (.inl ())
      (killChecks (.inl ())) late.clock).phase (.inl ()) =
      .finished late.clock (stoppedMoment.checkEnv.haltOf "agent-a") :=
    (fetched.refresh rows late.clock).release.phase_setPhase_self (.inl ()) _
  have hrefused : CallStep sampleConfig sampleClient sampleKwargs stoppedMoment
      (.routed sampleKwargs) [] (.finished (.refused (.agentHalted halt))) := .haltRaises hcheck
  have h₆ := killStep_call hrefused fun _ _ => ⟨late.clock, hphase⟩
  have hrun := ((((Relation.ReflTransGen.single h₁).tail h₂).tail h₃).tail h₄).tail h₅ |>.tail h₆
  exact ⟨_, halt, rfl, halted_agent_sends_nothing (i := ()) hreach (by simp) hlater
    (by norm_num [killStart, late, haltCacheTtlSeconds]) rfl hrun⟩

end AgenticGovernance.Integrations

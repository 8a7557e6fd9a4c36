import Mathlib
import AgenticGovernance.Cost.Check
import AgenticGovernance.Cost.Store
import AgenticGovernance.Support.Overcommit
import AgenticGovernance.Support.Transition

/-!
# The soft ceiling

A caller checks its budget, does its work and tracks what it used.  Nothing is
reserved in between, so callers that overlap can all be admitted on the same
counter.  The overshoot is bounded: with at most `N` callers between their usage
read and their `track`, a token counter never exceeds its cap by more than
`N - 1` times the projected tokens of a call.

The proof keeps room for the callers that may still track.  For every set `F` of
such callers, the counter plus `F.card` projections stays within the bound; a
caller that tracks leaves the sets, and one that is admitted has just seen the
counter with its own projection below the cap.
-/

namespace AgenticGovernance.Cost

open Support

structure Caller where
  agent : String
  session : Uuid
  projected : ℤ

/-- Where a caller is.  With a combined query the day is fixed when the
transaction begins; otherwise it is fixed between the two reads.  `tracking`
holds the usage and the day of a `track` that has not reached the counters. -/
inductive CallerPhase (U : Type) where
  | idle
  | begun (day : ℕ)
  | sessionRead (usd : U) (tokens : ℤ)
  | dayFixed (usd : U) (tokens : ℤ) (day : ℕ)
  | usageRead (usage : Usage U)
  | admitted
  | refused
  | tracking (day : ℕ) (usd : U) (tokens : ℤ)
  | done

variable {U : Type} {ι : Type*} [DecidableEq ι]

structure BudgetState (B : Backend U) (ι : Type*) where
  store : B.State
  today : ℕ
  phase : ι → CallerPhase U

namespace BudgetState

variable {B : Backend U}

def setPhase (s : BudgetState B ι) (i : ι) (p : CallerPhase U) : BudgetState B ι :=
  { s with phase := Function.update s.phase i p }

/-- `track` reaches the counters. -/
def record (s : BudgetState B ι) (c : Caller) (day : ℕ) (usd : U) (tokens : ℤ) :
    BudgetState B ι :=
  { s with store := B.track s.store c.agent c.session day usd tokens }

def sessionTokens (s : BudgetState B ι) (agent : String) (sid : Uuid) : ℤ :=
  (B.session s.store agent sid).2

/-- The agent's tokens on the current day. -/
def dailyTokens (s : BudgetState B ι) (agent : String) : ℤ :=
  (B.daily s.store agent s.today).2

end BudgetState

section System

variable [Zero U] [LT U] [DecidableLT U]
variable (B : Backend U) (policies : String → Option (BudgetPolicy U))
  (callers : ι → Caller)

inductive BudgetStep : BudgetState B ι → BudgetState B ι → Prop
  | tick (s : BudgetState B ι) : BudgetStep s { s with today := s.today + 1 }
  | begin (s : BudgetState B ι) (i : ι) (hB : B.combined = true)
      (hphase : s.phase i = .idle) : BudgetStep s (s.setPhase i (.begun s.today))
  | readBoth (s : BudgetState B ι) (i : ι) (day : ℕ)
      (hphase : s.phase i = .begun day) :
      BudgetStep s (s.setPhase i (.usageRead
        ⟨(B.session s.store (callers i).agent (callers i).session).1,
          (B.session s.store (callers i).agent (callers i).session).2,
          (B.daily s.store (callers i).agent day).1,
          (B.daily s.store (callers i).agent day).2⟩))
  | readSession (s : BudgetState B ι) (i : ι) (hB : B.combined = false)
      (hphase : s.phase i = .idle) :
      BudgetStep s (s.setPhase i (.sessionRead
        (B.session s.store (callers i).agent (callers i).session).1
        (B.session s.store (callers i).agent (callers i).session).2))
  | fixDay (s : BudgetState B ι) (i : ι) (usd : U) (tokens : ℤ)
      (hphase : s.phase i = .sessionRead usd tokens) :
      BudgetStep s (s.setPhase i (.dayFixed usd tokens s.today))
  | readDaily (s : BudgetState B ι) (i : ι) (usd : U) (tokens : ℤ) (day : ℕ)
      (hphase : s.phase i = .dayFixed usd tokens day) :
      BudgetStep s (s.setPhase i (.usageRead
        ⟨usd, tokens, (B.daily s.store (callers i).agent day).1,
          (B.daily s.store (callers i).agent day).2⟩))
  -- the rest of `check_or_raise`: the answers are those already read, and the
  -- session's age and the presence module may answer anything
  | pass (s : BudgetState B ι) (i : ι) (usage : Usage U) (failOpen : Bool)
      (halted : Option Bool) (answers : StoreReads U)
      (reads : List (StoreRead × Bool)) (hphase : s.phase i = .usageRead usage)
      (hanswers : readUsage answers = (.ok usage, reads))
      (hcheck : (checkOrRaise failOpen halted (policies (callers i).agent) answers
        (some (callers i).projected)).outcome = .ok ()) :
      BudgetStep s (s.setPhase i .admitted)
  | refuse (s : BudgetState B ι) (i : ι) (usage : Usage U) (failOpen : Bool)
      (halted : Option Bool) (answers : StoreReads U)
      (reads : List (StoreRead × Bool)) (e : CheckError U)
      (hphase : s.phase i = .usageRead usage)
      (hanswers : readUsage answers = (.ok usage, reads))
      (hcheck : (checkOrRaise failOpen halted (policies (callers i).agent) answers
        (some (callers i).projected)).outcome = .error e) :
      BudgetStep s (s.setPhase i .refused)
  | rejectNegative (s : BudgetState B ι) (i : ι) (usd : U) (tokens : ℤ)
      (hphase : s.phase i = .admitted) (hneg : tokens < 0 ∨ usd < 0) :
      BudgetStep s (s.setPhase i .done)
  | beginTrack (s : BudgetState B ι) (i : ι) (usd : U) (tokens : ℤ)
      (hphase : s.phase i = .admitted) (hpos : ¬(tokens < 0 ∨ usd < 0))
      (hmost : tokens ≤ (callers i).projected) :
      BudgetStep s (s.setPhase i (.tracking s.today usd tokens))
  | track (s : BudgetState B ι) (i : ι) (day : ℕ) (usd : U) (tokens : ℤ)
      (hphase : s.phase i = .tracking day usd tokens) :
      BudgetStep s ((s.record (callers i) day usd tokens).setPhase i .done)

def budgetSystem : System (BudgetState B ι) where
  init s := s.store = B.empty ∧ ∀ i, s.phase i = .idle
  step := BudgetStep B policies callers

end System

/-! ## Days and amounts in use -/

section Invariants

variable {B : Backend U} {callers : ι → Caller} {s : BudgetState B ι}

/-- A property of phases that the new phase of `i` shares only with its old one
holds of no more callers than before. -/
theorem setPhase_imp {P : CallerPhase U → Prop} {i : ι} {ph : CallerPhase U}
    (h : P ph → P (s.phase i)) (j : ι) (hj : P ((s.setPhase i ph).phase j)) :
    P (s.phase j) := by
  by_cases hji : j = i
  · subst hji
    exact h (by simpa [BudgetState.setPhase] using hj)
  · simpa [BudgetState.setPhase, Function.update_of_ne hji] using hj

/-- Days in use have begun, a daily counter that was read is not negative, and a
pending `track` adds at most the projected tokens. -/
def PhaseSane (today : ℕ) (c : Caller) : CallerPhase U → Prop
  | .begun day => day ≤ today
  | .dayFixed _ _ day => day ≤ today
  | .usageRead usage => 0 ≤ usage.dTok
  | .tracking day _ tokens => day ≤ today ∧ 0 ≤ tokens ∧ tokens ≤ c.projected
  | _ => True

theorem PhaseSane.tick {today : ℕ} {c : Caller} {ph : CallerPhase U}
    (h : PhaseSane today c ph) : PhaseSane (today + 1) c ph := by
  cases ph with
  | begun day => exact Nat.le_succ_of_le h
  | dayFixed usd tokens day => exact Nat.le_succ_of_le h
  | tracking day usd tokens => exact ⟨Nat.le_succ_of_le h.1, h.2⟩
  | _ => exact h

structure Sane (callers : ι → Caller) (s : BudgetState B ι) : Prop where
  store : B.Ok s.store s.today
  phases : ∀ i, PhaseSane s.today (callers i) (s.phase i)

theorem Sane.setPhase (h : Sane callers s) {i : ι} {ph : CallerPhase U}
    (hph : PhaseSane s.today (callers i) ph) : Sane callers (s.setPhase i ph) where
  store := h.store
  phases := by
    intro j
    by_cases hji : j = i
    · subst hji
      simpa [BudgetState.setPhase] using hph
    · simpa [BudgetState.setPhase, Function.update_of_ne hji] using h.phases j

/-! ## The session counter -/

/-- Between the read of the session counter and the end of `track`. -/
def SessionInFlight : CallerPhase U → Prop
  | .sessionRead _ _ | .dayFixed _ _ _ | .usageRead _ | .admitted | .tracking _ _ _ =>
      True
  | _ => False

/-- The caller has not seen its projection exceed the session cap. -/
def SessionPending (cap p : ℤ) : CallerPhase U → Prop
  | .sessionRead _ tokens => tokens + p ≤ cap
  | .dayFixed _ tokens _ => tokens + p ≤ cap
  | .usageRead usage => usage.sTok + p ≤ cap
  | .admitted | .tracking _ _ _ => True
  | _ => False

theorem sessionInFlight_of_pending {cap p : ℤ} {ph : CallerPhase U}
    (h : SessionPending cap p ph) : SessionInFlight ph := by
  cases ph <;> first | exact h.elim | trivial

/-- The callers that use the given session. -/
def OnSession (callers : ι → Caller) (agent : String) (sid : Uuid) (i : ι) : Prop :=
  (callers i).agent = agent ∧ (callers i).session = sid

/-- At most `n` callers of a session are in flight. -/
def SessionOverlap (callers : ι → Caller) (agent : String) (sid : Uuid) (n : ℕ)
    (s : BudgetState B ι) : Prop :=
  AtMost n fun i => OnSession callers agent sid i ∧ SessionInFlight (s.phase i)

/-- The session counter has room for its pending callers. -/
def SessionRoom (callers : ι → Caller) (agent : String) (sid : Uuid) (n : ℕ)
    (cap p : ℤ) (s : BudgetState B ι) : Prop :=
  RoomFor (s.sessionTokens agent sid) (ceiling cap n p) p fun i =>
    OnSession callers agent sid i ∧ SessionPending cap p (s.phase i)

variable {agent : String} {sid : Uuid} {n : ℕ} {cap p : ℤ}

theorem SessionRoom.setPhase (h : SessionRoom callers agent sid n cap p s) {i : ι}
    {ph : CallerPhase U} (hph : SessionPending cap p ph → SessionPending cap p (s.phase i)) :
    SessionRoom callers agent sid n cap p (s.setPhase i ph) :=
  RoomFor.mono h le_rfl fun j hj => ⟨hj.1, setPhase_imp hph j hj.2⟩

/-- A caller that reads the session counter joins only if its projection fits. -/
theorem SessionRoom.read (h : SessionRoom callers agent sid n cap p s) (hp : 0 ≤ p)
    {i : ι} {ph : CallerPhase U}
    (hmost : SessionOverlap callers agent sid n (s.setPhase i ph))
    (hseen : SessionPending cap p ph →
      (B.session s.store (callers i).agent (callers i).session).2 + p ≤ cap) :
    SessionRoom callers agent sid n cap p (s.setPhase i ph) := by
  have hothers : ∀ j, j ≠ i →
      (OnSession callers agent sid j ∧
        SessionPending cap p ((s.setPhase i ph).phase j)) →
      OnSession callers agent sid j ∧ SessionPending cap p (s.phase j) := by
    intro j hji hj
    simpa [BudgetState.setPhase, Function.update_of_ne hji] using hj
  by_cases hi : OnSession callers agent sid i ∧ SessionPending cap p ph
  · have hfits : s.sessionTokens agent sid + p ≤ cap := by
      have hread := hseen hi.2
      rwa [hi.1.1, hi.1.2] at hread
    refine RoomFor.join h hp hfits ?_ hothers
    exact hmost.mono fun j hj => ⟨hj.1, sessionInFlight_of_pending hj.2⟩
  · refine RoomFor.mono h le_rfl fun j hj => ?_
    by_cases hji : j = i
    · subst hji
      exact absurd ⟨hj.1, by simpa [BudgetState.setPhase] using hj.2⟩ hi
    · exact hothers j hji hj

/-! ## The daily counter -/

/-- Between the start of the read of the daily counter, when its day is fixed,
and the end of `track`. -/
def DailyInFlight : CallerPhase U → Prop
  | .begun _ | .dayFixed _ _ _ | .usageRead _ | .admitted | .tracking _ _ _ => True
  | _ => False

/-- The caller may still be admitted whatever the current day's counter is: it
has seen its projection fit, or it is about to read the counter of a past day. -/
def DailyPending (cap p : ℤ) (today : ℕ) : CallerPhase U → Prop
  | .begun day => day < today ∧ p ≤ cap
  | .dayFixed _ _ day => day < today ∧ p ≤ cap
  | .usageRead usage => usage.dTok + p ≤ cap ∧ p ≤ cap
  | .admitted | .tracking _ _ _ => p ≤ cap
  | _ => False

theorem dailyInFlight_of_pending {cap p : ℤ} {today : ℕ} {ph : CallerPhase U}
    (h : DailyPending cap p today ph) : DailyInFlight ph := by
  cases ph <;> first | exact h.elim | trivial

theorem fits_of_dailyPending {cap p : ℤ} {today : ℕ} {ph : CallerPhase U}
    (h : DailyPending cap p today ph) : p ≤ cap := by
  cases ph <;> first | exact h.elim | exact h.2 | exact h

/-- The callers of the given agent, in any session. -/
def OnAgent (callers : ι → Caller) (agent : String) (i : ι) : Prop :=
  (callers i).agent = agent

def DailyOverlap (callers : ι → Caller) (agent : String) (n : ℕ)
    (s : BudgetState B ι) : Prop :=
  AtMost n fun i => OnAgent callers agent i ∧ DailyInFlight (s.phase i)

/-- The counter of the current day has room for its pending callers. -/
def DailyRoom (callers : ι → Caller) (agent : String) (n : ℕ) (cap p : ℤ)
    (s : BudgetState B ι) : Prop :=
  RoomFor (s.dailyTokens agent) (ceiling cap n p) p fun i =>
    OnAgent callers agent i ∧ DailyPending cap p s.today (s.phase i)

theorem DailyRoom.setPhase (h : DailyRoom callers agent n cap p s) {i : ι}
    {ph : CallerPhase U}
    (hph : DailyPending cap p s.today ph → DailyPending cap p s.today (s.phase i)) :
    DailyRoom callers agent n cap p (s.setPhase i ph) :=
  RoomFor.mono h le_rfl fun j hj => ⟨hj.1, setPhase_imp hph j hj.2⟩

/-- A caller that reads the counter of `day` was pending already if that day is
past; otherwise it joins only if its projection fits. -/
theorem DailyRoom.read (h : DailyRoom callers agent n cap p s) (hp : 0 ≤ p)
    {i : ι} {usage : Usage U} {day : ℕ}
    (hmost : DailyOverlap callers agent n (s.setPhase i (.usageRead usage)))
    (hread : usage.dTok = (B.daily s.store (callers i).agent day).2)
    (hpast : day < s.today → p ≤ cap → DailyPending cap p s.today (s.phase i))
    (hday : day ≤ s.today) :
    DailyRoom callers agent n cap p (s.setPhase i (.usageRead usage)) := by
  by_cases hlt : day < s.today
  · exact h.setPhase fun hpend => hpast hlt hpend.2
  have htoday : day = s.today := le_antisymm hday (not_lt.mp hlt)
  have hothers : ∀ j, j ≠ i →
      (OnAgent callers agent j ∧ DailyPending cap p (s.setPhase i (.usageRead usage)).today
        ((s.setPhase i (.usageRead usage)).phase j)) →
      OnAgent callers agent j ∧ DailyPending cap p s.today (s.phase j) := by
    intro j hji hj
    simpa [BudgetState.setPhase, Function.update_of_ne hji] using hj
  by_cases hi : OnAgent callers agent i ∧ usage.dTok + p ≤ cap
  · have hfits : s.dailyTokens agent + p ≤ cap := by
      have hseen := hi.2
      rwa [hread, hi.1, htoday] at hseen
    refine RoomFor.join h hp hfits ?_ hothers
    exact hmost.mono fun j hj => ⟨hj.1, dailyInFlight_of_pending hj.2⟩
  · refine RoomFor.mono h le_rfl fun j hj => ?_
    by_cases hji : j = i
    · subst hji
      have hpend : usage.dTok + p ≤ cap ∧ p ≤ cap := by
        simpa [BudgetState.setPhase, DailyPending] using hj.2
      exact absurd ⟨hj.1, hpend.1⟩ hi
    · exact hothers j hji hj

/-- `check_or_raise` has returned and the usage is not recorded yet. -/
def Admitted : CallerPhase U → Prop
  | .admitted | .tracking _ _ _ => True
  | _ => False

/-- The invariant of the daily counter.  An admitted caller's projection fits the
cap by itself, which matters when the counter starts again at midnight. -/
structure DailyInv (callers : ι → Caller) (agent : String) (n : ℕ) (cap p : ℤ)
    (s : BudgetState B ι) : Prop where
  room : DailyRoom callers agent n cap p s
  fits : ∀ i, OnAgent callers agent i → Admitted (s.phase i) → p ≤ cap

theorem DailyInv.fits_setPhase (h : DailyInv callers agent n cap p s) {i : ι}
    {ph : CallerPhase U}
    (hph : OnAgent callers agent i → Admitted ph → Admitted (s.phase i) ∨ p ≤ cap)
    (j : ι) (hj : OnAgent callers agent j) (hadm : Admitted ((s.setPhase i ph).phase j)) :
    p ≤ cap := by
  by_cases hji : j = i
  · subst hji
    have hnew : Admitted ph := by simpa [BudgetState.setPhase] using hadm
    rcases hph hj hnew with hold | hle
    · exact h.fits j hj hold
    · exact hle
  · refine h.fits j hj ?_
    simpa [BudgetState.setPhase, Function.update_of_ne hji] using hadm

theorem DailyInv.setPhase (h : DailyInv callers agent n cap p s) {i : ι}
    {ph : CallerPhase U}
    (hpend : DailyPending cap p s.today ph → DailyPending cap p s.today (s.phase i))
    (hadm : Admitted ph → Admitted (s.phase i)) :
    DailyInv callers agent n cap p (s.setPhase i ph) :=
  ⟨h.room.setPhase hpend, h.fits_setPhase fun _ hph => Or.inl (hadm hph)⟩

/-- The usage of an admitted caller is recorded. -/
theorem DailyInv.record (h : DailyInv callers agent n cap p s)
    (hproj : ∀ i, OnAgent callers agent i → (callers i).projected = p)
    (hsane : Sane callers s) {i : ι} {day : ℕ} {usd : U} {tokens : ℤ}
    (hphase : s.phase i = .tracking day usd tokens) :
    DailyInv callers agent n cap p
      ((s.record (callers i) day usd tokens).setPhase i .done) := by
  have hi := hsane.phases i
  rw [hphase] at hi
  have hcount : ((s.record (callers i) day usd tokens).setPhase i .done).dailyTokens
      agent ≤ s.dailyTokens agent + if agent = (callers i).agent then tokens else 0 :=
    B.daily_track _ _ _ _ hsane.store hi.1 hi.2.1
  have hother : ∀ j, j ≠ i →
      ((s.record (callers i) day usd tokens).setPhase i .done).phase j = s.phase j :=
    fun j hji => Function.update_of_ne hji ..
  have hdone : ((s.record (callers i) day usd tokens).setPhase i .done).phase i = .done :=
    Function.update_self ..
  refine ⟨?_, ?_⟩
  · by_cases hon : OnAgent callers agent i
    · have hle : p ≤ cap := h.fits i hon (by rw [hphase]; trivial)
      have hpend : OnAgent callers agent i ∧ DailyPending cap p s.today (s.phase i) :=
        ⟨hon, by rw [hphase]; exact hle⟩
      refine RoomFor.raise h.room hpend ?_ fun j hj => ?_
      · rw [if_pos hon.symm] at hcount
        have hmost := hi.2.2
        rw [hproj i hon] at hmost
        linarith
      · by_cases hji : j = i
        · subst hji
          rw [hdone] at hj
          exact hj.2.elim
        · rw [hother j hji] at hj
          exact ⟨hji, hj⟩
    · refine RoomFor.mono h.room ?_ fun j hj => ?_
      · rwa [if_neg fun heq => hon heq.symm, add_zero] at hcount
      · by_cases hji : j = i
        · subst hji
          exact absurd hj.1 hon
        · rw [hother j hji] at hj
          exact hj
  · intro j hj hadm
    by_cases hji : j = i
    · subst hji
      rw [hdone] at hadm
      exact hadm.elim
    · rw [hother j hji] at hadm
      exact h.fits j hj hadm

end Invariants

/-! ## Every step keeps the room -/

section Steps

variable [Zero U] [LT U] [DecidableLT U] {B : Backend U}
  {policies : String → Option (BudgetPolicy U)} {callers : ι → Caller}
  {s t : BudgetState B ι} {agent : String} {sid : Uuid} {n : ℕ} {p : ℤ}

theorem sane_step (h : Sane callers s) (hstep : BudgetStep B policies callers s t) :
    Sane callers t := by
  cases hstep with
  | tick => exact ⟨B.ok_tick h.store, fun i => (h.phases i).tick⟩
  | beginTrack i usd tokens hphase hpos hmost =>
      refine h.setPhase ⟨le_refl _, ?_, hmost⟩
      exact not_lt.mp fun hneg => hpos (Or.inl hneg)
  | track i day usd tokens hphase =>
      have hi := h.phases i
      rw [hphase] at hi
      have hrecord : Sane callers (s.record (callers i) day usd tokens) :=
        ⟨B.ok_track h.store hi.1 hi.2.1, h.phases⟩
      exact hrecord.setPhase trivial
  | begin i hB hphase => exact h.setPhase (le_refl s.today)
  | readBoth i day hphase => exact h.setPhase (B.daily_nonneg h.store)
  | readSession i hB hphase => exact h.setPhase trivial
  | fixDay i usd tokens hphase => exact h.setPhase (le_refl s.today)
  | readDaily i usd tokens day hphase => exact h.setPhase (B.daily_nonneg h.store)
  | pass i usage failOpen halted answers reads hphase hanswers hcheck =>
      exact h.setPhase trivial
  | refuse i usage failOpen halted answers reads e hphase hanswers hcheck =>
      exact h.setPhase trivial
  | rejectNegative i usd tokens hphase hneg => exact h.setPhase trivial

theorem sane_of_reachable (h : (budgetSystem B policies callers).Reachable s) :
    Sane callers s := by
  refine System.invariant ?_ ?_ h
  · rintro s ⟨hstore, hidle⟩
    refine ⟨by rw [hstore]; exact B.ok_empty _, fun i => ?_⟩
    rw [hidle i]
    trivial
  · intro s t _ hinv hstep
    exact sane_step hinv hstep

theorem sessionRoom_step {policy : BudgetPolicy U} {cap : ℕ}
    (hpolicy : policies agent = some policy) (hcap : policy.perSessionTokens = some cap)
    (hp : 0 ≤ p) (hproj : ∀ i, OnSession callers agent sid i → (callers i).projected = p)
    (hsane : Sane callers s) (h : SessionRoom callers agent sid n cap p s)
    (hstep : BudgetStep B policies callers s t)
    (hmost : SessionOverlap callers agent sid n t) :
    SessionRoom callers agent sid n cap p t := by
  cases hstep with
  | tick => exact h
  | begin i hB hphase => exact h.setPhase False.elim
  | readBoth i day hphase => exact h.read hp hmost id
  | readSession i hB hphase => exact h.read hp hmost id
  | fixDay i usd tokens hphase =>
      exact h.setPhase fun hpend => by rw [hphase]; exact hpend
  | readDaily i usd tokens day hphase =>
      exact h.setPhase fun hpend => by rw [hphase]; exact hpend
  | pass i usage failOpen halted answers reads hphase hanswers hcheck =>
      refine RoomFor.mono h le_rfl fun j hj => ⟨hj.1, ?_⟩
      by_cases hji : j = i
      · subst hji
        rw [hphase]
        rw [hj.1.1, hpolicy, hproj j hj.1] at hcheck
        exact (tokens_le_of_checkOrRaise_ok hanswers hcheck).1 cap hcap
      · simpa [BudgetState.setPhase, Function.update_of_ne hji] using hj.2
  | refuse i usage failOpen halted answers reads e hphase hanswers hcheck =>
      exact h.setPhase False.elim
  | rejectNegative i usd tokens hphase hneg => exact h.setPhase False.elim
  | beginTrack i usd tokens hphase hpos hmost' =>
      exact h.setPhase fun _ => by rw [hphase]; trivial
  | track i day usd tokens hphase =>
      have hi := hsane.phases i
      rw [hphase] at hi
      have hcount : ((s.record (callers i) day usd tokens).setPhase i .done).sessionTokens
          agent sid = s.sessionTokens agent sid +
            if agent = (callers i).agent ∧ sid = (callers i).session then tokens else 0 :=
        B.session_track ..
      by_cases hon : OnSession callers agent sid i
      · have hpend : OnSession callers agent sid i ∧
            SessionPending cap p (s.phase i) := ⟨hon, by rw [hphase]; trivial⟩
        refine RoomFor.raise h hpend ?_ fun j hj => ?_
        · rw [hcount, if_pos ⟨hon.1.symm, hon.2.symm⟩, ← hproj i hon]
          linarith [hi.2.2]
        · by_cases hji : j = i
          · subst hji
            simp [BudgetState.setPhase, SessionPending] at hj
          · refine ⟨hji, hj.1, ?_⟩
            simpa [BudgetState.setPhase, BudgetState.record, Function.update_of_ne hji]
              using hj.2
      · refine RoomFor.mono h ?_ fun j hj => ⟨hj.1, ?_⟩
        · rw [hcount, if_neg fun heq => hon ⟨heq.1.symm, heq.2.symm⟩, add_zero]
        · by_cases hji : j = i
          · subst hji
            exact absurd hj.1 hon
          · simpa [BudgetState.setPhase, BudgetState.record, Function.update_of_ne hji]
              using hj.2

theorem dailyInv_step {policy : BudgetPolicy U} {cap : ℕ}
    (hpolicy : policies agent = some policy)
    (hcap : policy.perAgentTokensDaily = some cap) (hp : 0 ≤ p)
    (hproj : ∀ i, OnAgent callers agent i → (callers i).projected = p)
    (hsane : Sane callers s) (h : DailyInv callers agent n cap p s)
    (hstep : BudgetStep B policies callers s t) (hmost : DailyOverlap callers agent n t) :
    DailyInv callers agent n cap p t := by
  cases hstep with
  | tick =>
      refine ⟨?_, h.fits⟩
      have hzero : ({ s with today := s.today + 1 } : BudgetState B ι).dailyTokens agent
          = 0 := B.daily_tick hsane.store
      rw [DailyRoom, hzero]
      refine RoomFor.restart hp (Int.natCast_nonneg cap) ?_ fun i hi =>
        fits_of_dailyPending hi.2
      exact hmost.mono fun i hi => ⟨hi.1, dailyInFlight_of_pending hi.2⟩
  | begin i hB hphase =>
      exact h.setPhase (fun hpend => absurd hpend.1 (lt_irrefl _)) False.elim
  | readBoth i day hphase =>
      have hday := hsane.phases i
      rw [hphase] at hday
      refine ⟨h.room.read hp hmost rfl (fun hlt hle => ?_) hday,
        h.fits_setPhase fun _ => False.elim⟩
      rw [hphase]
      exact ⟨hlt, hle⟩
  | readSession i hB hphase => exact h.setPhase False.elim False.elim
  | fixDay i usd tokens hphase =>
      exact h.setPhase (fun hpend => absurd hpend.1 (lt_irrefl _)) False.elim
  | readDaily i usd tokens day hphase =>
      have hday := hsane.phases i
      rw [hphase] at hday
      refine ⟨h.room.read hp hmost rfl (fun hlt hle => ?_) hday,
        h.fits_setPhase fun _ => False.elim⟩
      rw [hphase]
      exact ⟨hlt, hle⟩
  | pass i usage failOpen halted answers reads hphase hanswers hcheck =>
      have hseen : OnAgent callers agent i → usage.dTok + p ≤ cap := by
        intro hon
        rw [hon, hpolicy, hproj i hon] at hcheck
        exact (tokens_le_of_checkOrRaise_ok hanswers hcheck).2 cap hcap
      have hnonneg := hsane.phases i
      rw [hphase] at hnonneg
      constructor
      · refine RoomFor.mono h.room le_rfl fun j hj => ⟨hj.1, ?_⟩
        by_cases hji : j = i
        · subst hji
          have hle : p ≤ cap := fits_of_dailyPending hj.2
          rw [hphase]
          exact ⟨hseen hj.1, hle⟩
        · simpa [BudgetState.setPhase, Function.update_of_ne hji] using hj.2
      · refine h.fits_setPhase fun hon _ => Or.inr ?_
        have hle := hseen hon
        change 0 ≤ usage.dTok at hnonneg
        linarith
  | refuse i usage failOpen halted answers reads e hphase hanswers hcheck =>
      exact h.setPhase False.elim False.elim
  | rejectNegative i usd tokens hphase hneg => exact h.setPhase False.elim False.elim
  | beginTrack i usd tokens hphase hpos hmost' =>
      refine h.setPhase (fun hpend => ?_) fun _ => ?_
      · rw [hphase]
        exact hpend
      · rw [hphase]
        trivial
  | track i day usd tokens hphase => exact h.record hproj hsane hphase

/-! ## The bound -/

/-- For both stores: if at most `n` callers of a session overlap, its tokens never
exceed the session cap by more than `n - 1` projections, and if at most `n`
callers of an agent overlap, neither do the tokens of the current day. -/
theorem soft_ceiling [Add U] (kind : StoreKind) {policies : String → Option (BudgetPolicy U)}
    {callers : ι → Caller} {agent : String} {policy : BudgetPolicy U}
    (hpolicy : policies agent = some policy) {p : ℤ} (hp : 0 ≤ p) (n : ℕ) :
    (∀ (sid : Uuid) (cap : ℕ), policy.perSessionTokens = some cap →
      (∀ i, OnSession callers agent sid i → (callers i).projected = p) →
      ∀ s, ((budgetSystem kind.backend policies callers).within
          (SessionOverlap callers agent sid n)).Reachable s →
        s.sessionTokens agent sid ≤ cap + ((n - 1 : ℕ) : ℤ) * p) ∧
    (∀ cap : ℕ, policy.perAgentTokensDaily = some cap →
      (∀ i, OnAgent callers agent i → (callers i).projected = p) →
      ∀ s, ((budgetSystem kind.backend policies callers).within
          (DailyOverlap callers agent n)).Reachable s →
        s.dailyTokens agent ≤ cap + ((n - 1 : ℕ) : ℤ) * p) := by
  constructor
  · intro sid cap hcap hproj s hreach
    refine RoomFor.recorded_le (System.invariant
      (I := SessionRoom callers agent sid n cap p) ?_ ?_ hreach)
    · rintro s ⟨⟨hstore, hidle⟩, -⟩
      have hzero : s.sessionTokens agent sid = 0 := by
        rw [BudgetState.sessionTokens, hstore]
        exact kind.backend.session_empty agent sid
      rw [SessionRoom, hzero]
      refine RoomFor.start hp (Int.natCast_nonneg cap) fun i hi => ?_
      rw [hidle i] at hi
      exact hi.2.elim
    · rintro s t hs hinv ⟨hstep, hmost⟩
      exact sessionRoom_step hpolicy hcap hp hproj
        (sane_of_reachable hs.of_within.1) hinv hstep hmost
  · intro cap hcap hproj s hreach
    refine RoomFor.recorded_le (System.invariant
      (I := DailyInv callers agent n cap p) ?_ ?_ hreach).room
    · rintro s ⟨⟨hstore, hidle⟩, -⟩
      have hzero : s.dailyTokens agent = 0 := by
        rw [BudgetState.dailyTokens, hstore]
        exact kind.backend.daily_empty agent s.today
      refine ⟨?_, fun i _ hadm => ?_⟩
      · rw [DailyRoom, hzero]
        refine RoomFor.start hp (Int.natCast_nonneg cap) fun i hi => ?_
        rw [hidle i] at hi
        exact hi.2.elim
      · rw [hidle i] at hadm
        exact hadm.elim
    · rintro s t hs hinv ⟨hstep, hmost⟩
      exact dailyInv_step hpolicy hcap hp hproj
        (sane_of_reachable hs.of_within.1) hinv hstep hmost

end Steps

/-! ### Two overlapping callers -/

/-- A policy that caps both token counters at ten. -/
def tenTokens : BudgetPolicy ℚ where
  perSessionUsd := none
  perSessionTokens := some 10
  perAgentUsdDaily := none
  perAgentTokensDaily := some 10
  perSessionSeconds := none
  sessionTokens_le := by
    rintro n ⟨⟩
    decide
  dailyTokens_le := by
    rintro n ⟨⟩
    decide
  seconds_le := le_of_unset _
  anySet := ⟨.perSessionTokens, by simp [PolicyCaps.Sets]⟩

def samplePolicies (agent : String) : Option (BudgetPolicy ℚ) :=
  if agent = "agent-a" then some tenTokens else none

def sampleCallers (_ : Bool) : Caller := ⟨"agent-a", ⟨100⟩, 10⟩

/-- What the store answers while both counters are zero. -/
def zeroAnswers : StoreReads ℚ where
  sessionAndDailyUsage := none
  sessionUsage := .ok (0, 0)
  agentDailyUsage := .ok (0, 0)
  sessionElapsedSeconds := none
  sessionStartTime := .ok none
  now := 0

/-- Both callers read the counters before either tracks its ten tokens. -/
theorem sampleCallers_run :
    ∃ s : BudgetState (StoreKind.inMemory.backend (U := ℚ)) Bool,
      (budgetSystem _ samplePolicies sampleCallers).Reachable s ∧
        s.sessionTokens "agent-a" ⟨100⟩ = 20 ∧ s.dailyTokens "agent-a" = 20 := by
  let s₀ : BudgetState (StoreKind.inMemory.backend (U := ℚ)) Bool :=
    ⟨MemoryStore.empty, 7, fun _ => .idle⟩
  have h₀ : (budgetSystem _ samplePolicies sampleCallers).Reachable s₀ :=
    .start ⟨rfl, fun _ => rfl⟩
  have h₁ := h₀.next (.readSession _ false rfl rfl)
  have h₂ := h₁.next (.readSession _ true rfl rfl)
  have h₃ := h₂.next (.fixDay _ false _ _ rfl)
  have h₄ := h₃.next (.fixDay _ true _ _ rfl)
  have h₅ := h₄.next (.readDaily _ false _ _ _ rfl)
  have h₆ := h₅.next (.readDaily _ true _ _ _ rfl)
  have h₇ := h₆.next (.pass _ false _ false none zeroAnswers _ rfl rfl rfl)
  have h₈ := h₇.next (.pass _ true _ false none zeroAnswers _ rfl rfl rfl)
  have h₉ := h₈.next (.beginTrack _ false 0 10 rfl (by decide) (by decide))
  have h₁₀ := h₉.next (.beginTrack _ true 0 10 rfl (by decide) (by decide))
  have h₁₁ := h₁₀.next (.track _ false _ _ _ rfl)
  have h₁₂ := h₁₁.next (.track _ true _ _ _ rfl)
  exact ⟨_, h₁₂, rfl, rfl⟩

/-- Two overlapping callers record twenty tokens against a cap of ten, which is
the bound for two. -/
theorem sampleCallers_soft_ceiling :
    ∃ s : BudgetState (StoreKind.inMemory.backend (U := ℚ)) Bool,
      s.sessionTokens "agent-a" ⟨100⟩ = 20 ∧
        s.sessionTokens "agent-a" ⟨100⟩ ≤ 10 + ((2 - 1 : ℕ) : ℤ) * 10 ∧
          s.dailyTokens "agent-a" ≤ 10 + ((2 - 1 : ℕ) : ℤ) * 10 := by
  obtain ⟨s, hreach, hsession, -⟩ := sampleCallers_run
  have hmost : ∀ P : Bool → Prop, AtMost 2 P := fun P F _ => Finset.card_le_univ F
  have hpolicy : samplePolicies "agent-a" = some tenTokens := rfl
  refine ⟨s, hsession, ?_, ?_⟩
  · exact (soft_ceiling .inMemory hpolicy (by decide) 2).1 ⟨100⟩ 10 rfl (fun _ _ => rfl) s
      (hreach.to_within fun t => hmost _)
  · exact (soft_ceiling .inMemory hpolicy (by decide) 2).2 10 rfl (fun _ _ => rfl) s
      (hreach.to_within fun t => hmost _)

end AgenticGovernance.Cost

import Mathlib
import AgenticGovernance.Cost.Check
import AgenticGovernance.Cost.Counters
import AgenticGovernance.Support.Transition

/-!
# Runs of `track`

`CostModule.track` reads the daily usage of the agent, adds the deltas to the store, reads the
usage again and, if it has crossed the alert threshold, fires a webhook for the day.  Each read
and the update holds the lock of the store, and other calls and the clock can move in between.

Every call is a caller that runs once.  The clock never goes back, and a step of a caller
happens at the time at which it takes its day.
-/

namespace AgenticGovernance.Cost

open Support

section Policies

variable {U : Type} [Zero U] [LE U] [NatCast U]

/-- `MAX_USD_CAP` -/
def maxUsdCap : ℕ := 1000000

/-- A budget policy with the fields of its alert. -/
structure AlertPolicy (U : Type) [Zero U] [LE U] [NatCast U] extends BudgetPolicy U where
  agentId : String
  alertWebhookUrl : Option String
  alertWebhookSecret : Option String
  alertThresholdPct : ℕ
  agentId_length : 1 ≤ agentId.length ∧ agentId.length ≤ 256
  usd_range : ∀ cap, perSessionUsd = some cap ∨ perAgentUsdDaily = some cap →
    0 ≤ cap ∧ cap ≤ (maxUsdCap : U)
  url_length : ∀ url, alertWebhookUrl = some url → url.length ≤ 2048
  thresholdPct_range : 1 ≤ alertThresholdPct ∧ alertThresholdPct ≤ 100
  url_needs_cap : alertWebhookUrl ≠ none → perAgentUsdDaily ≠ none

/-- `self._policies` after `register` of each policy. -/
def registerBudgets (policies : List (AlertPolicy U)) : String → Option (AlertPolicy U) :=
  policies.foldl (fun table policy => Function.update table policy.agentId (some policy))
    fun _ => none

theorem registerBudgets_agentId {policies : List (AlertPolicy U)} {agentId : String}
    {policy : AlertPolicy U} (h : registerBudgets policies agentId = some policy) :
    policy.agentId = agentId := by
  induction policies using List.reverseRecOn with
  | nil => cases h
  | append_singleton before last ih =>
      rw [registerBudgets, List.foldl_append, List.foldl_cons, List.foldl_nil] at h
      by_cases hagent : agentId = last.agentId
      · subst hagent
        rw [Function.update_self] at h
        rw [← Option.some.inj h]
      · rw [Function.update_of_ne hagent] at h
        exact ih h

end Policies

/-! ## One call -/

/-- Where a call is: `preUsd` is `none` when nobody wants to know whether the threshold is
crossed.  The times are those of its last step. -/
inductive TrackPhase (U : Type) where
  | idle
  | preRead (readAt : ℕ) (preUsd : Option U)
  | tracked (trackedAt : ℕ) (preUsd : Option U)
  | postRead (readAt : ℕ) (preUsd postUsd : U)
  | done
  deriving DecidableEq

/-- The payload of `build_payload`, without its percentage and its nonce. -/
structure BudgetAlert (U : Type) where
  agentId : String
  capId : String
  capType : String
  capValue : U
  usedValue : U
  thresholdPct : ℕ
  periodBucket : ℕ
  timestamp : ℕ

structure TrackState (U : Type) (ι : Type*) where
  store : UsageStore U
  now : ℕ
  /-- `AlertDedup.fired`, with each bucket by the number of its day -/
  fired : Finset (String × String × ℕ)
  /-- the calls of `send_budget_alert` -/
  alerts : List (BudgetAlert U)
  /-- the callers whose deltas are in the store, with the times at which they got there -/
  accepted : List (ℕ × ι)
  phase : ι → TrackPhase U

def capUsdDaily : String := "per_agent_usd_daily"

/-- `AlertDedup.mark_if_unfired` -/
def markIfUnfired (fired : Finset (String × String × ℕ)) (key : String × String × ℕ) :
    Bool × Finset (String × String × ℕ) :=
  if key ∈ fired then (false, fired) else (true, insert key fired)

variable {U : Type} {ι : Type*} [DecidableEq ι]

def TrackState.setPhase (s : TrackState U ι) (i : ι) (phase : TrackPhase U) :
    TrackState U ι :=
  { s with phase := Function.update s.phase i phase }

@[simp] theorem TrackState.phase_setPhase_self (s : TrackState U ι) (i : ι)
    (phase : TrackPhase U) : (s.setPhase i phase).phase i = phase :=
  Function.update_self ..

theorem TrackState.phase_setPhase_of_ne {i j : ι} (h : j ≠ i) (s : TrackState U ι)
    (phase : TrackPhase U) : (s.setPhase i phase).phase j = s.phase j :=
  Function.update_of_ne h ..

/-- `self._store.track(...)` -/
def TrackState.accept [Zero U] [Add U] (s : TrackState U ι) (c : TrackCall U) (i : ι) :
    TrackState U ι :=
  { s with store := s.store.track s.now c, accepted := s.accepted ++ [(s.now, i)] }

/-- What the store has accepted. -/
def TrackState.log (s : TrackState U ι) (calls : ι → TrackCall U) : TrackLog U :=
  s.accepted.map fun e => (e.1, calls e.2)

/-- `if tokens < 0 or usd < 0.0` -/
def Rejected [Zero U] [LT U] (c : TrackCall U) : Prop := c.tokens < 0 ∨ c.usd < 0

instance [Zero U] [LT U] [DecidableLT U] (c : TrackCall U) : Decidable (Rejected c) :=
  inferInstanceAs (Decidable (c.tokens < 0 ∨ c.usd < 0))

section Steps

variable [Zero U] [Add U] [Mul U] [Div U] [NatCast U] [LE U] [LT U] [DecidableLE U]
  [DecidableLT U]

namespace AlertPolicy

variable (policy : AlertPolicy U)

/-- The policy has a URL and a cap that a positive amount can bring closer. -/
def watches (usd : U) : Bool :=
  policy.alertWebhookUrl.isSome && policy.perAgentUsdDaily.isSome && decide (0 < usd)

/-- Nothing that the alert needs is missing. -/
def armed : Bool :=
  policy.alertWebhookUrl.isSome && policy.alertWebhookSecret.isSome &&
    policy.perAgentUsdDaily.isSome

def threshold (cap : U) : U := cap * ((policy.alertThresholdPct : U) / ((100 : ℕ) : U))

end AlertPolicy

variable (enabled : Bool) (policies : List (AlertPolicy U)) (calls : ι → TrackCall U)

/-- The end of `_maybe_fire_budget_alert`, from the comparison with the threshold on. -/
def fire (s : TrackState U ι) (policy : AlertPolicy U) (preUsd postUsd : U) :
    TrackState U ι :=
  match policy.perAgentUsdDaily with
  | none => s
  | some cap =>
      if preUsd < policy.threshold cap ∧ policy.threshold cap ≤ postUsd then
        let bucket := utcDay s.now
        let (unfired, fired) := markIfUnfired s.fired (policy.agentId, capUsdDaily, bucket)
        if unfired then
          { s with
            fired := fired
            alerts := s.alerts ++ [{
              agentId := policy.agentId
              capId := capUsdDaily
              capType := "per_agent_usd_daily"
              capValue := cap
              usedValue := postUsd
              thresholdPct := policy.alertThresholdPct
              periodBucket := bucket
              timestamp := s.now }] }
        else s
      else s

/-- The next step of a call. -/
def resume (s : TrackState U ι) (i : ι) : TrackState U ι :=
  let c := calls i
  let policy := registerBudgets policies c.agentId
  match s.phase i with
  | .idle =>
      if Rejected c then s.setPhase i .done
      else if policy.any (·.watches c.usd) then
        s.setPhase i (.preRead s.now (some (s.store.getAgentDailyUsage c.agentId
          (utcDay s.now)).1))
      else s.setPhase i (.preRead s.now none)
  | .preRead _ preUsd =>
      (s.accept c i).setPhase i (.tracked s.now preUsd)
  | .tracked _ preUsd =>
      match preUsd, policy with
      | some preUsd, some policy =>
          if enabled && policy.armed then
            s.setPhase i (.postRead s.now preUsd (s.store.getAgentDailyUsage policy.agentId
              (utcDay s.now)).1)
          else s.setPhase i .done
      | _, _ => s.setPhase i .done
  | .postRead _ preUsd postUsd =>
      match policy with
      | some policy => (fire s policy preUsd postUsd).setPhase i .done
      | none => s.setPhase i .done
  | .done => s

inductive TrackStep : TrackState U ι → TrackState U ι → Prop
  | advance (s : TrackState U ι) (later : ℕ) (h : s.now ≤ later) :
      TrackStep s { s with now := later }
  | resume (s : TrackState U ι) (i : ι) : TrackStep s (resume enabled policies calls s i)

def trackSystem : System (TrackState U ι) where
  init s := s.store = UsageStore.empty ∧ s.fired = ∅ ∧ s.alerts = [] ∧ s.accepted = [] ∧
    ∀ i, s.phase i = .idle
  step := TrackStep enabled policies calls

end Steps

/-! ## What a step does -/

section Views

variable [Zero U] [Add U] [Mul U] [Div U] [NatCast U] [LE U] [LT U] [DecidableLE U]
  [DecidableLT U]
variable {enabled : Bool} {policies : List (AlertPolicy U)} {calls : ι → TrackCall U}

/-- What the first read leaves for the comparison. -/
def firstRead (policies : List (AlertPolicy U)) (c : TrackCall U) (s : TrackState U ι) :
    Option U :=
  if (registerBudgets policies c.agentId).any (·.watches c.usd) then
    some (s.store.getAgentDailyUsage c.agentId (utcDay s.now)).1
  else none

/-- The steps of a call. -/
inductive ResumeView (enabled : Bool) (policies : List (AlertPolicy U)) (calls : ι → TrackCall U)
    (s : TrackState U ι) (i : ι) : TrackState U ι → Prop
  | rejected (hphase : s.phase i = .idle) (hrejected : Rejected (calls i)) :
      ResumeView enabled policies calls s i (s.setPhase i .done)
  | preRead (hphase : s.phase i = .idle) (hvalid : ¬ Rejected (calls i)) :
      ResumeView enabled policies calls s i
        (s.setPhase i (.preRead s.now (firstRead policies (calls i) s)))
  | stored (readAt : ℕ) (preUsd : Option U) (hphase : s.phase i = .preRead readAt preUsd) :
      ResumeView enabled policies calls s i
        ((s.accept (calls i) i).setPhase i (.tracked s.now preUsd))
  | unwatched (trackedAt : ℕ) (preUsd : Option U) (hphase : s.phase i = .tracked trackedAt preUsd)
      (hquiet : ∀ usd policy, preUsd = some usd →
        registerBudgets policies (calls i).agentId = some policy →
          (enabled && policy.armed) = false) :
      ResumeView enabled policies calls s i (s.setPhase i .done)
  | postRead (trackedAt : ℕ) (preUsd : U) (policy : AlertPolicy U)
      (hphase : s.phase i = .tracked trackedAt (some preUsd))
      (hpolicy : registerBudgets policies (calls i).agentId = some policy) :
      ResumeView enabled policies calls s i (s.setPhase i (.postRead s.now preUsd
        (s.store.getAgentDailyUsage policy.agentId (utcDay s.now)).1))
  | fired (readAt : ℕ) (preUsd postUsd : U) (policy : AlertPolicy U)
      (hphase : s.phase i = .postRead readAt preUsd postUsd)
      (hpolicy : registerBudgets policies (calls i).agentId = some policy) :
      ResumeView enabled policies calls s i ((fire s policy preUsd postUsd).setPhase i .done)
  | unregistered (readAt : ℕ) (preUsd postUsd : U)
      (hphase : s.phase i = .postRead readAt preUsd postUsd)
      (hpolicy : registerBudgets policies (calls i).agentId = none) :
      ResumeView enabled policies calls s i (s.setPhase i .done)
  | done (hphase : s.phase i = .done) : ResumeView enabled policies calls s i s

theorem resumeView (enabled : Bool) (policies : List (AlertPolicy U)) (calls : ι → TrackCall U)
    (s : TrackState U ι) (i : ι) :
    ResumeView enabled policies calls s i (resume enabled policies calls s i) := by
  rw [resume]
  rcases hphase : s.phase i with _ | ⟨readAt, preUsd⟩ | ⟨trackedAt, preUsd⟩ |
    ⟨readAt, preUsd, postUsd⟩ | _
  · by_cases hrejected : Rejected (calls i)
    · simp only [hrejected, if_true]
      exact .rejected hphase hrejected
    · have hread : ResumeView enabled policies calls s i _ := .preRead hphase hrejected
      simp only [hrejected, if_false]
      rw [firstRead] at hread
      split
      · rwa [if_pos ‹_›] at hread
      · rwa [if_neg ‹_›] at hread
  · exact .stored readAt preUsd hphase
  · rcases preUsd with _ | preUsd
    · refine .unwatched trackedAt none hphase ?_
      rintro usd policy ⟨⟩
    · rcases hpolicy : registerBudgets policies (calls i).agentId with _ | policy
      · refine .unwatched trackedAt (some preUsd) hphase fun usd policy _ hsome => ?_
        rw [hpolicy] at hsome
        cases hsome
      · by_cases harmed : (enabled && policy.armed) = true
        · simp only [harmed, if_true]
          exact .postRead trackedAt preUsd policy hphase hpolicy
        · simp only [harmed, Bool.false_eq_true, if_false]
          refine .unwatched trackedAt (some preUsd) hphase fun usd policy' _ hsome => ?_
          rw [← Option.some.inj (hpolicy.symm.trans hsome)]
          exact Bool.eq_false_iff.mpr harmed
  · rcases hpolicy : registerBudgets policies (calls i).agentId with _ | policy
    · exact .unregistered readAt preUsd postUsd hphase hpolicy
    · exact .fired readAt preUsd postUsd policy hphase hpolicy
  · exact .done hphase

variable (s : TrackState U ι) (policy : AlertPolicy U) (preUsd postUsd : U)

omit [DecidableEq ι] [Add U] in
/-- Firing changes nothing but the alerts and their keys. -/
theorem fire_frame : (fire s policy preUsd postUsd).store = s.store ∧
    (fire s policy preUsd postUsd).now = s.now ∧
    (fire s policy preUsd postUsd).accepted = s.accepted ∧
    (fire s policy preUsd postUsd).phase = s.phase := by
  rw [fire]
  rcases policy.perAgentUsdDaily with _ | cap
  · exact ⟨rfl, rfl, rfl, rfl⟩
  · by_cases hcross : preUsd < policy.threshold cap ∧ policy.threshold cap ≤ postUsd
    · by_cases hfired : (policy.agentId, capUsdDaily, utcDay s.now) ∈ s.fired
      · simp [hcross, markIfUnfired, hfired]
      · simp [hcross, markIfUnfired, hfired]
    · simp [hcross]

end Views

/-! ## The log of a run -/

/-- The deltas of the call are in the store, unless it was rejected. -/
def TrackPhase.stored : TrackPhase U → Bool
  | .idle => false
  | .preRead .. => false
  | _ => true

section Logged

variable [Zero U] [Add U] [Mul U] [Div U] [NatCast U] [LE U] [LT U] [DecidableLE U]
  [DecidableLT U]
variable {enabled : Bool} {policies : List (AlertPolicy U)} {calls : ι → TrackCall U}
  {s t : TrackState U ι} {i : ι}

/-- The store holds the deltas of exactly the calls that have got to it, each once. -/
structure Logged (calls : ι → TrackCall U) (s : TrackState U ι) : Prop where
  tallies : Tallies s.store (s.log calls)
  past : ∀ e ∈ s.accepted, e.1 ≤ s.now
  nodup : (s.accepted.map Prod.snd).Nodup
  stored_iff : ∀ i, i ∈ s.accepted.map Prod.snd ↔ (s.phase i).stored ∧ ¬ Rejected (calls i)
  waiting : ∀ i readAt preUsd, s.phase i = .preRead readAt preUsd → ¬ Rejected (calls i)

omit [Mul U] [Div U] [NatCast U] [LE U] [DecidableLE U] [DecidableLT U] in
/-- A step that leaves the store alone. -/
theorem Logged.setPhase (h : Logged calls s) {phase : TrackPhase U}
    (hstored : phase.stored ∧ ¬ Rejected (calls i) ↔
      (s.phase i).stored ∧ ¬ Rejected (calls i))
    (hwaiting : ∀ readAt preUsd, phase = .preRead readAt preUsd → ¬ Rejected (calls i)) :
    Logged calls (s.setPhase i phase) := by
  refine ⟨h.tallies, h.past, h.nodup, fun j => ?_, fun j readAt preUsd hphase => ?_⟩
  · refine (h.stored_iff j).trans ?_
    by_cases hj : j = i
    · subst hj
      rw [TrackState.phase_setPhase_self]
      exact hstored.symm
    · rw [TrackState.phase_setPhase_of_ne hj]
  · by_cases hj : j = i
    · subst hj
      rw [TrackState.phase_setPhase_self] at hphase
      exact hwaiting readAt preUsd hphase
    · rw [TrackState.phase_setPhase_of_ne hj] at hphase
      exact h.waiting j readAt preUsd hphase

omit [Mul U] [Div U] [NatCast U] [LE U] [DecidableLE U] [DecidableLT U] in
/-- The step that gets the deltas into the store. -/
theorem Logged.accept (h : Logged calls s) {readAt : ℕ} {preUsd : Option U}
    (hphase : s.phase i = .preRead readAt preUsd) :
    Logged calls ((s.accept (calls i) i).setPhase i (.tracked s.now preUsd)) := by
  have hnew : i ∉ s.accepted.map Prod.snd := by
    rw [h.stored_iff, hphase]
    rintro ⟨⟨⟩, -⟩
  have hpast : ∀ e ∈ s.log calls, e.1 ≤ s.now := by
    intro e he
    obtain ⟨a, ha, rfl⟩ := List.mem_map.mp he
    exact h.past a ha
  constructor
  · have hlog : ((s.accept (calls i) i).setPhase i (.tracked s.now preUsd)).log calls =
        s.log calls ++ [(s.now, calls i)] := by
      simp [TrackState.log, TrackState.accept, TrackState.setPhase]
    rw [hlog]
    exact h.tallies.track hpast (calls i)
  · intro e he
    rcases List.mem_append.mp he with he | he
    · exact h.past e he
    · rw [List.mem_singleton.mp he]
      rfl
  · rw [TrackState.setPhase, TrackState.accept, List.map_append]
    exact h.nodup.append (List.nodup_singleton i) (by simpa using hnew)
  · intro j
    have haccepted : j ∈ ((s.accept (calls i) i).setPhase i
        (.tracked s.now preUsd)).accepted.map Prod.snd ↔
          j ∈ s.accepted.map Prod.snd ∨ j = i := by
      simp [TrackState.setPhase, TrackState.accept]
    rw [haccepted, h.stored_iff]
    by_cases hj : j = i
    · subst hj
      simpa [TrackPhase.stored] using h.waiting j readAt preUsd hphase
    · rw [TrackState.phase_setPhase_of_ne hj]
      simp [hj, TrackState.accept]
  · intro j at' preUsd' hj
    by_cases hji : j = i
    · subst hji
      rw [TrackState.phase_setPhase_self] at hj
      cases hj
    · rw [TrackState.phase_setPhase_of_ne hji] at hj
      exact h.waiting j at' preUsd' hj

/-- One step of a call. -/
theorem Logged.resume (h : Logged calls s) (i : ι) :
    Logged calls (resume enabled policies calls s i) := by
  have hview := resumeView enabled policies calls s i
  generalize Cost.resume enabled policies calls s i = t at hview ⊢
  cases hview with
  | rejected hphase hrejected => exact h.setPhase (by simp [hrejected]) (by rintro _ _ ⟨⟩)
  | preRead hphase hvalid =>
      exact h.setPhase (by simp [hphase, TrackPhase.stored]) fun _ _ _ => hvalid
  | stored readAt preUsd hphase => exact h.accept hphase
  | unwatched trackedAt preUsd hphase =>
      exact h.setPhase (by simp [hphase, TrackPhase.stored]) (by rintro _ _ ⟨⟩)
  | postRead trackedAt preUsd policy hphase =>
      exact h.setPhase (by simp [hphase, TrackPhase.stored]) (by rintro _ _ ⟨⟩)
  | fired readAt preUsd postUsd policy hphase =>
      obtain ⟨hstore, hnow, haccepted, hphases⟩ := fire_frame s policy preUsd postUsd
      have hfire : Logged calls (fire s policy preUsd postUsd) := by
        refine ⟨?_, ?_, ?_, ?_, ?_⟩
        · rw [TrackState.log, hstore, haccepted]
          exact h.tallies
        · rw [hnow, haccepted]
          exact h.past
        · rw [haccepted]
          exact h.nodup
        · rw [haccepted, hphases]
          exact h.stored_iff
        · rw [hphases]
          exact h.waiting
      exact hfire.setPhase (by simp [hphases, hphase, TrackPhase.stored]) (by rintro _ _ ⟨⟩)
  | unregistered readAt preUsd postUsd hphase =>
      exact h.setPhase (by simp [hphase, TrackPhase.stored]) (by rintro _ _ ⟨⟩)
  | done => exact h

theorem logged_of_reachable (h : (trackSystem enabled policies calls).Reachable s) :
    Logged calls s := by
  refine System.invariant (I := Logged calls) ?_ ?_ h
  · rintro s ⟨hstore, -, -, haccepted, hphase⟩
    refine ⟨?_, ?_, ?_, ?_, ?_⟩
    · rw [TrackState.log, hstore, haccepted]
      exact tallies_empty
    · simp [haccepted]
    · simp [haccepted]
    · simp [haccepted, hphase, TrackPhase.stored]
    · simp [hphase]
  · intro s t _ hs hstep
    cases hstep with
    | advance later hlater =>
        exact ⟨hs.tallies, fun e he => (hs.past e he).trans hlater, hs.nodup, hs.stored_iff,
          hs.waiting⟩
    | resume i => exact hs.resume i

/-- A rejected call never touches the store. -/
theorem resume_of_rejected (h : Logged calls s) (hrejected : Rejected (calls i)) :
    (resume enabled policies calls s i).store = s.store ∧
      (resume enabled policies calls s i).accepted = s.accepted := by
  have hview := resumeView enabled policies calls s i
  generalize Cost.resume enabled policies calls s i = t at hview ⊢
  cases hview with
  | stored readAt preUsd hphase => exact absurd hrejected (h.waiting i readAt preUsd hphase)
  | fired readAt preUsd postUsd policy hphase =>
      obtain ⟨hstore, -, haccepted, -⟩ := fire_frame s policy preUsd postUsd
      exact ⟨hstore, haccepted⟩
  | _ => exact ⟨rfl, rfl⟩

/-- In every reachable state the counters are the sums of what was accepted for them, and a
rejected call changes neither the counters nor the log. -/
theorem counters_exact (enabled : Bool) (policies : List (AlertPolicy U))
    (calls : ι → TrackCall U) {s : TrackState U ι}
    (h : (trackSystem enabled policies calls).Reachable s) :
    CountersExact s.store (s.log calls) s.now ∧
      (∀ e ∈ s.accepted, ¬ Rejected (calls e.2)) ∧
      ∀ i, Rejected (calls i) → (resume enabled policies calls s i).store = s.store ∧
        (resume enabled policies calls s i).accepted = s.accepted := by
  have hlogged := logged_of_reachable h
  have hvalid : ∀ e ∈ s.accepted, ¬ Rejected (calls e.2) := fun e he =>
    ((hlogged.stored_iff e.2).mp (List.mem_map_of_mem he)).2
  refine ⟨hlogged.tallies.countersExact ?_ ?_, hvalid, fun i => resume_of_rejected hlogged⟩
  · intro e he
    obtain ⟨a, ha, rfl⟩ := List.mem_map.mp he
    exact hlogged.past a ha
  · intro e he
    obtain ⟨a, ha, rfl⟩ := List.mem_map.mp he
    exact not_lt.mp fun hneg => hvalid a ha (Or.inl hneg)

end Logged

/-! ## One call -/

/-- A caller that tracks some tokens of a model. -/
def modelCall (tokens : ℤ) (_ : Unit) : TrackCall ℚ := ⟨"agent-a", ⟨1⟩, tokens, 0, some "m"⟩

def freshState : TrackState ℚ Unit := ⟨UsageStore.empty, 0, ∅, [], [], fun _ => .idle⟩

def afterModelCall (tokens : ℤ) : TrackState ℚ Unit :=
  resume false [] (modelCall tokens) (resume false [] (modelCall tokens) freshState ()) ()

theorem afterModelCall_reachable (tokens : ℤ) :
    (trackSystem false [] (modelCall tokens)).Reachable (afterModelCall tokens) := by
  have hstart : (trackSystem false [] (modelCall tokens)).Reachable freshState :=
    .start ⟨rfl, rfl, rfl, rfl, fun _ => rfl⟩
  exact (hstart.next (.resume freshState ())).next (.resume _ ())

/-- Ten tokens of one model. -/
theorem ten_tokens_exact :
    CountersExact (afterModelCall 10).store ((afterModelCall 10).log (modelCall 10))
        (afterModelCall 10).now ∧
      (afterModelCall 10).store.getAgentDailyUsage "agent-a" 0 = (0, 10) :=
  ⟨(counters_exact false [] (modelCall 10) (afterModelCall_reachable 10)).1,
    by decide +kernel⟩

/-- The first number of tokens that no float has. -/
theorem breakdown_rounds :
    ¬ ∀ s, (trackSystem false [] (modelCall (2 ^ 53 + 1))).Reachable s →
      ∀ agentId now rows, s.now ≤ now → s.store.getModelBreakdown agentId now = some rows →
        ∀ row ∈ rows, row.2.2.magnitude = (total (modelDayLog
          (s.log (modelCall (2 ^ 53 + 1))) agentId (some row.1) (utcDay now))).2 := by
  intro h
  have hrows : (afterModelCall (2 ^ 53 + 1)).store.getModelBreakdown "agent-a" 0 =
      some [("m", 0, ⟨false, 2 ^ 52, 1, by norm_num, by norm_num, by norm_num,
        Or.inl le_rfl⟩)] := by
    decide +kernel
  have hrow := h _ (afterModelCall_reachable _) "agent-a" 0 _ le_rfl hrows _
    (List.mem_singleton_self _)
  revert hrow
  decide +kernel

end AgenticGovernance.Cost

import Mathlib
import AgenticGovernance.Cost.TrackRuns
import AgenticGovernance.Support.FloatSum

/-!
# One budget alert per day

A webhook is fired by a call that reads a usage below the threshold before its update and one
that has reached it afterwards.  The day of the first read, of the update, of the second read
and of the bucket are each taken from the clock.  On one day, the call that takes the total
across the threshold sees it do so.  A midnight between its steps can hide the crossing from
it, and a midnight before the bucket books it on the wrong day.

Amounts are floats: a total is the sum that the store has accumulated, and an amount may be a
NaN, which `track` accepts.
-/

namespace AgenticGovernance.Cost

open Support

variable {U : Type} {ι : Type*} [Zero U] [LE U]

/-! ## Alerts and crossings -/

/-- The policy of the agent, with all that an alert needs. -/
structure AlertsOn [NatCast U] (policies : List (AlertPolicy U)) (agent : String)
    (policy : AlertPolicy U)
    (cap : U) : Prop where
  registered : registerBudgets policies agent = some policy
  url : policy.alertWebhookUrl.isSome
  secret : policy.alertWebhookSecret.isSome
  dailyCap : policy.perAgentUsdDaily = some cap

variable [Add U] [LT U]

section Crossings

variable (calls : ι → TrackCall U) (agent : String) (limit : U)

/-- The USD that an agent has spent on a day. -/
def spentOn (accepted : List (ℕ × ι)) (day : ℕ) : U :=
  (total (dayLog (accepted.map fun e => (e.1, calls e.2)) agent day)).1

/-- The update of the call took the total of the day to the limit. -/
def Crossed (accepted : List (ℕ × ι)) (i : ι) (day : ℕ) : Prop :=
  (calls i).agentId = agent ∧ ∃ before time after, accepted = before ++ (time, i) :: after ∧
    utcDay time = day ∧ spentOn calls agent before day < limit ∧
    limit ≤ spentOn calls agent before day + (calls i).usd

/-- The alerts for the agent with the bucket of a day. -/
def alertsFor (s : TrackState U ι) (day : ℕ) : List (BudgetAlert U) :=
  s.alerts.filter fun a => a.agentId = agent && a.periodBucket = day

/-- No call of the agent is on its way. -/
def Settled (s : TrackState U ι) : Prop :=
  ∀ i, (calls i).agentId = agent → s.phase i = .idle ∨ s.phase i = .done

/-- At most one alert for each day, only for days on which the limit is reached, and for each
of them when all calls have come to their end. -/
def OneAlertPerDay (s : TrackState U ι) : Prop :=
  (∀ day, (alertsFor agent s day).length ≤ 1 ∧
    (alertsFor agent s day ≠ [] → limit ≤ spentOn calls agent s.accepted day)) ∧
  (Settled calls agent s → ∀ day, limit ≤ spentOn calls agent s.accepted day →
    (alertsFor agent s day).length = 1)

/-- Before the next step of a call: its amount is a number, and no midnight has passed since
its last step, if its update is the one that crosses the limit, or if it is about to fire. -/
def InTime (s : TrackState U ι) (i : ι) : Prop :=
  match s.phase i with
  | .preRead readAt _ =>
      (calls i).usd ≤ (calls i).usd ∧
        (spentOn calls agent s.accepted (utcDay s.now) < limit →
          limit ≤ spentOn calls agent s.accepted (utcDay s.now) + (calls i).usd →
            utcDay readAt = utcDay s.now)
  | .tracked trackedAt _ =>
      Crossed calls agent limit s.accepted i (utcDay trackedAt) →
        utcDay trackedAt = utcDay s.now
  | .postRead readAt preUsd postUsd =>
      preUsd < limit → limit ≤ postUsd → utcDay readAt = utcDay s.now
  | _ => True

/-- The call that a step moves is in time. -/
def MovesInTime (s t : TrackState U ι) : Prop :=
  ∀ i, (calls i).agentId = agent → t.phase i ≠ s.phase i → InTime calls agent limit s i

end Crossings

/-! ## Totals of a growing log -/

section Totals

variable {calls : ι → TrackCall U} {agent : String} {limit : U} {accepted : List (ℕ × ι)}
  {i j : ι} {day time : ℕ}

/-- No amount of the agent is negative or a NaN. -/
def Charged (calls : ι → TrackCall U) (agent : String) (accepted : List (ℕ × ι)) : Prop :=
  ∀ e ∈ accepted, (calls e.2).agentId = agent → 0 ≤ (calls e.2).usd

omit [Add U] [LT U] in
theorem Charged.of_concat (h : Charged calls agent (accepted ++ [(time, i)])) :
    Charged calls agent accepted :=
  fun e he => h e (List.mem_append_left _ he)

omit [LE U] [LT U] in
theorem spentOn_concat (accepted : List (ℕ × ι)) (time : ℕ) (i : ι) (day : ℕ) :
    spentOn calls agent (accepted ++ [(time, i)]) day =
      if (calls i).agentId = agent ∧ utcDay time = day then
        spentOn calls agent accepted day + (calls i).usd
      else spentOn calls agent accepted day := by
  rw [spentOn, List.map_append, dayLog, List.filter_append, total, List.foldl_append]
  by_cases hcounts : (calls i).agentId = agent ∧ utcDay time = day
  · simp [spentOn, total, dayLog, hcounts, addCall]
  · have hnone : List.filter (fun e : ℕ × TrackCall U =>
        decide (e.2.agentId = agent) && decide (utcDay e.1 = day)) [(time, calls i)] = [] := by
      simpa [List.filter_cons] using hcounts
    simp [spentOn, total, dayLog, hcounts, hnone]

variable [FloatSum U]

theorem Charged.spentOn_nonneg (h : Charged calls agent accepted) (day : ℕ) :
    0 ≤ spentOn calls agent accepted day := by
  induction accepted using List.reverseRecOn with
  | nil => exact FloatSum.zero
  | append_singleton before last ih =>
      obtain ⟨time, i⟩ := last
      rw [spentOn_concat]
      split
      · next hcounts =>
          exact FloatSum.add_nonneg (ih h.of_concat) (h (time, i) (by simp) hcounts.1)
      · exact ih h.of_concat

theorem Charged.spentOn_le (h : Charged calls agent accepted) (day : ℕ) :
    spentOn calls agent accepted day ≤ spentOn calls agent accepted day :=
  (FloatSum.numbers (h.spentOn_nonneg day)).2

theorem Charged.spentOn_le_concat (h : Charged calls agent (accepted ++ [(time, i)]))
    (day : ℕ) :
    spentOn calls agent accepted day ≤ spentOn calls agent (accepted ++ [(time, i)]) day := by
  rw [spentOn_concat]
  split
  · next hcounts =>
      exact FloatSum.le_add (h.of_concat.spentOn_nonneg day) (h (time, i) (by simp) hcounts.1)
  · exact h.of_concat.spentOn_le day

/-- A total that has reached the limit has crossed it. -/
theorem exists_crossed (hcharged : Charged calls agent accepted) (hpos : 0 < limit)
    (h : limit ≤ spentOn calls agent accepted day) :
    ∃ i, Crossed calls agent limit accepted i day := by
  induction accepted using List.reverseRecOn with
  | nil => exact absurd h (FloatSum.not_le_of_lt hpos)
  | append_singleton before last ih =>
      obtain ⟨time, i⟩ := last
      by_cases hbefore : limit ≤ spentOn calls agent before day
      · obtain ⟨j, hagent, first, at', rest, rfl, hcrossed⟩ := ih hcharged.of_concat hbefore
        exact ⟨j, hagent, first, at', rest ++ [(time, i)], by simp, hcrossed⟩
      · rw [spentOn_concat] at h
        by_cases hcounts : (calls i).agentId = agent ∧ utcDay time = day
        · rw [if_pos hcounts] at h
          have hbelow := FloatSum.lt_of_not_le (hcharged.of_concat.spentOn_le day)
            (FloatSum.numbers h).1 hbefore
          exact ⟨i, hcounts.1, before, time, [], rfl, hcounts.2, hbelow, h⟩
        · rw [if_neg hcounts] at h
          exact absurd h hbefore

omit [FloatSum U] in
theorem Crossed.mem (h : Crossed calls agent limit accepted i day) :
    ∃ time, (time, i) ∈ accepted ∧ utcDay time = day := by
  obtain ⟨-, before, time, after, rfl, hday, -⟩ := h
  exact ⟨time, by simp, hday⟩

/-- The limit stays reached. -/
theorem Crossed.le_spentOn (hcharged : Charged calls agent accepted)
    (h : Crossed calls agent limit accepted i day) :
    limit ≤ spentOn calls agent accepted day := by
  obtain ⟨hagent, before, time, after, rfl, hday, -, hreached⟩ := h
  induction after using List.reverseRecOn with
  | nil =>
      rw [spentOn_concat, if_pos ⟨hagent, hday⟩]
      exact hreached
  | append_singleton after last ih =>
      have hsplit : before ++ (time, i) :: (after ++ [last]) =
          (before ++ (time, i) :: after) ++ [last] := by simp
      rw [hsplit] at hcharged ⊢
      exact FloatSum.le_trans (ih hcharged.of_concat) (hcharged.spentOn_le_concat day)

omit [FloatSum U] in
/-- An update crosses the limit with the total that it finds. -/
theorem crossed_concat_self (hnew : i ∉ accepted.map Prod.snd)
    (h : Crossed calls agent limit (accepted ++ [(time, i)]) i day) :
    utcDay time = day ∧ spentOn calls agent accepted day < limit ∧
      limit ≤ spentOn calls agent accepted day + (calls i).usd := by
  obtain ⟨-, before, at', after, heq, hday, hbelow, hreached⟩ := h
  rcases List.eq_nil_or_concat after with rfl | ⟨rest, last, rfl⟩
  · obtain ⟨rfl, hlast⟩ := List.append_inj' heq rfl
    obtain ⟨rfl, -⟩ := Prod.mk.inj (List.singleton_inj.mp hlast)
    exact ⟨hday, hbelow, hreached⟩
  · have heq' : accepted ++ [(time, i)] = (before ++ (at', i) :: rest) ++ [last] := by
      rw [heq]
      simp
    obtain ⟨rfl, -⟩ := List.append_inj' heq' rfl
    exact absurd (by simp) hnew

omit [FloatSum U] in
/-- The update of another call crosses nothing for this one. -/
theorem crossed_of_concat (hne : i ≠ j)
    (h : Crossed calls agent limit (accepted ++ [(time, j)]) i day) :
    Crossed calls agent limit accepted i day := by
  obtain ⟨hagent, before, at', after, heq, hcrossed⟩ := h
  rcases List.eq_nil_or_concat after with rfl | ⟨rest, last, rfl⟩
  · obtain ⟨-, hlast⟩ := List.append_inj' heq rfl
    exact absurd (Prod.mk.inj (List.singleton_inj.mp hlast)).2.symm hne
  · have heq' : accepted ++ [(time, j)] = (before ++ (at', i) :: rest) ++ [last] := by
      rw [heq]
      simp
    obtain ⟨rfl, -⟩ := List.append_inj' heq' rfl
    exact ⟨hagent, before, at', rest, rfl, hcrossed⟩

end Totals

/-! ## What a call on one day sees -/

section Alerts

variable {calls : ι → TrackCall U} {agent : String} {limit : U} {s : TrackState U ι} {i : ι}

/-- What a call of the agent has seen so far, and what it has still to do about a crossing. -/
def PhaseOk (calls : ι → TrackCall U) (agent : String) (limit : U) (accepted : List (ℕ × ι))
    (fired : Finset (String × String × ℕ)) (i : ι) : TrackPhase U → Prop
  | .idle => True
  | .preRead _ none => ¬ 0 < (calls i).usd
  | .preRead readAt (some preUsd) => preUsd ≤ spentOn calls agent accepted (utcDay readAt)
  | .tracked trackedAt preUsd => (trackedAt, i) ∈ accepted ∧
      ∀ day, Crossed calls agent limit accepted i day → ∃ usd, preUsd = some usd ∧ usd < limit
  | .postRead readAt preUsd postUsd =>
      postUsd ≤ spentOn calls agent accepted (utcDay readAt) ∧
      ∀ day, Crossed calls agent limit accepted i day →
        preUsd < limit ∧ limit ≤ postUsd ∧ utcDay readAt = day
  | .done => ∀ day, Crossed calls agent limit accepted i day →
      (agent, capUsdDaily, day) ∈ fired

structure AlertInv (calls : ι → TrackCall U) (agent : String) (limit : U)
    (s : TrackState U ι) : Prop where
  charged : Charged calls agent s.accepted
  phases : ∀ i, (calls i).agentId = agent →
    PhaseOk calls agent limit s.accepted s.fired i (s.phase i)
  reached : ∀ day, (agent, capUsdDaily, day) ∈ s.fired →
    limit ≤ spentOn calls agent s.accepted day
  alerts : ∀ day, (alertsFor agent s day).length =
    if (agent, capUsdDaily, day) ∈ s.fired then 1 else 0

theorem PhaseOk.fired_mono {accepted : List (ℕ × ι)} {fired fired' : Finset (String × String × ℕ)}
    {phase : TrackPhase U} (h : PhaseOk calls agent limit accepted fired i phase)
    (hfired : fired ⊆ fired') : PhaseOk calls agent limit accepted fired' i phase := by
  cases phase with
  | done => exact fun day hday => hfired (h day hday)
  | preRead readAt preUsd =>
      cases preUsd with
      | none => exact h
      | some usd => exact h
  | _ => exact h

/-- The update of another call. -/
theorem PhaseOk.concat [FloatSum U] {accepted : List (ℕ × ι)} {fired : Finset (String × String × ℕ)}
    {phase : TrackPhase U} {j : ι} {time : ℕ}
    (h : PhaseOk calls agent limit accepted fired i phase) (hne : i ≠ j)
    (hcharged : Charged calls agent (accepted ++ [(time, j)])) :
    PhaseOk calls agent limit (accepted ++ [(time, j)]) fired i phase := by
  cases phase with
  | idle => trivial
  | preRead readAt preUsd =>
      cases preUsd with
      | none => exact h
      | some usd => exact FloatSum.le_trans h (hcharged.spentOn_le_concat _)
  | tracked trackedAt preUsd =>
      exact ⟨List.mem_append_left _ h.1, fun day hday => h.2 day (crossed_of_concat hne hday)⟩
  | postRead readAt preUsd postUsd =>
      exact ⟨FloatSum.le_trans h.1 (hcharged.spentOn_le_concat _),
        fun day hday => h.2 day (crossed_of_concat hne hday)⟩
  | done => exact fun day hday => h day (crossed_of_concat hne hday)

theorem AlertInv.setPhase [DecidableEq ι] (h : AlertInv calls agent limit s) {phase : TrackPhase U}
    (hphase : (calls i).agentId = agent →
      PhaseOk calls agent limit s.accepted s.fired i phase) :
    AlertInv calls agent limit (s.setPhase i phase) := by
  refine ⟨h.charged, fun j hj => ?_, h.reached, h.alerts⟩
  by_cases hji : j = i
  · subst hji
    rw [TrackState.phase_setPhase_self]
    exact hphase hj
  · rw [TrackState.phase_setPhase_of_ne hji]
    exact h.phases j hj

omit [LE U] in
/-- A read of the daily usage. -/
theorem Logged.daily_usd (h : Logged calls s) (agent : String) :
    (s.store.getAgentDailyUsage agent (utcDay s.now)).1 =
      spentOn calls agent s.accepted (utcDay s.now) := by
  have hpast : ∀ e ∈ s.log calls, e.1 ≤ s.now := by
    intro e he
    obtain ⟨a, ha, rfl⟩ := List.mem_map.mp he
    exact h.past a ha
  rw [h.tallies.daily_read hpast]
  rfl

/-- A call that has not got to the store has crossed nothing. -/
theorem Logged.not_crossed (h : Logged calls s) (hstored : (s.phase i).stored = false)
    (day : ℕ) : ¬ Crossed calls agent limit s.accepted i day := by
  intro hcrossed
  obtain ⟨time, hmem, -⟩ := hcrossed.mem
  have hphase := ((h.stored_iff i).mp (List.mem_map_of_mem hmem)).1
  rw [hstored] at hphase
  cases hphase

/-- A call is in the log once. -/
theorem Logged.crossed_day (h : Logged calls s) {time day : ℕ} (hmem : (time, i) ∈ s.accepted)
    (hcrossed : Crossed calls agent limit s.accepted i day) : utcDay time = day := by
  obtain ⟨time', hmem', rfl⟩ := hcrossed.mem
  have hsame : (time, i) = (time', i) :=
    List.inj_on_of_nodup_map h.nodup hmem hmem' rfl
  rw [(Prod.mk.inj hsame).1]

/-! ## The steps of a call -/

section Steps

variable [Mul U] [Div U] [NatCast U] [DecidableLE U] [DecidableLT U] [FloatSum U]
  [DecidableEq ι]
variable {policies : List (AlertPolicy U)} {policy : AlertPolicy U} {cap : U}

omit [Mul U] [Div U] [DecidableLE U] in
/-- The first read. -/
theorem AlertInv.preRead (h : AlertInv calls agent limit s) (hlogged : Logged calls s)
    (hon : AlertsOn policies agent policy cap) :
    AlertInv calls agent limit
      (s.setPhase i (.preRead s.now (firstRead policies (calls i) s))) := by
  refine h.setPhase fun hagent => ?_
  rw [firstRead, hagent, hon.registered, Option.any_some]
  by_cases hwatches : policy.watches (calls i).usd
  · rw [if_pos hwatches, hlogged.daily_usd]
    exact h.charged.spentOn_le _
  · rw [if_neg hwatches]
    intro hpos
    refine hwatches ?_
    rw [AlertPolicy.watches, hon.url, hon.dailyCap]
    simpa using hpos

omit [Mul U] [Div U] [NatCast U] [DecidableLE U] [DecidableLT U] in
/-- The update. -/
theorem AlertInv.accept (h : AlertInv calls agent limit s) (hlogged : Logged calls s)
    {readAt : ℕ} {preUsd : Option U} (hphase : s.phase i = .preRead readAt preUsd)
    (hintime : (calls i).agentId = agent → InTime calls agent limit s i) :
    AlertInv calls agent limit ((s.accept (calls i) i).setPhase i (.tracked s.now preUsd)) := by
  have hnumber : (calls i).agentId = agent → 0 ≤ (calls i).usd := by
    intro hagent
    have hsame := hintime hagent
    rw [InTime, hphase] at hsame
    exact FloatSum.nonneg_of_not_neg hsame.1
      fun hneg => hlogged.waiting i readAt preUsd hphase (Or.inr hneg)
  have hcharged : Charged calls agent (s.accepted ++ [(s.now, i)]) := by
    intro e he
    rcases List.mem_append.mp he with he | he
    · exact h.charged e he
    · rw [List.mem_singleton.mp he]
      exact hnumber
  have hnew : i ∉ s.accepted.map Prod.snd := by
    rw [hlogged.stored_iff, hphase]
    rintro ⟨⟨⟩, -⟩
  refine ⟨hcharged, fun j hj => ?_, fun day hday =>
    FloatSum.le_trans (h.reached day hday) (hcharged.spentOn_le_concat day), h.alerts⟩
  by_cases hji : j = i
  · subst hji
    rw [TrackState.phase_setPhase_self]
    refine ⟨List.mem_append_right _ (List.mem_singleton_self _), fun day hday => ?_⟩
    obtain ⟨rfl, hbelow, hreached⟩ := crossed_concat_self hnew hday
    have hread := h.phases j hj
    have hsame := hintime hj
    rw [hphase] at hread
    rw [InTime, hphase] at hsame
    have hday' := hsame.2 hbelow hreached
    rcases preUsd with _ | usd
    · -- Without a first read the amount is zero.
      have hsum := FloatSum.add_le (h.charged.spentOn_nonneg (utcDay s.now)) (hnumber hj)
        (FloatSum.nonpos_of_not_pos hsame.1 hread)
      exact absurd (FloatSum.le_trans hreached hsum) (FloatSum.not_le_of_lt hbelow)
    · have hle : usd ≤ spentOn calls agent s.accepted (utcDay readAt) := hread
      rw [hday'] at hle
      exact ⟨usd, rfl, FloatSum.lt_of_le_of_lt hle hbelow⟩
  · rw [TrackState.phase_setPhase_of_ne hji]
    exact (h.phases j hj).concat hji hcharged

omit [Mul U] [Div U] [DecidableLE U] [DecidableLT U] in
/-- The second read. -/
theorem AlertInv.postRead (h : AlertInv calls agent limit s) (hlogged : Logged calls s)
    {trackedAt : ℕ} {preUsd : U} (hphase : s.phase i = .tracked trackedAt (some preUsd))
    {called : AlertPolicy U} (hcalled : registerBudgets policies (calls i).agentId = some called)
    (hintime : (calls i).agentId = agent → InTime calls agent limit s i) :
    AlertInv calls agent limit (s.setPhase i (.postRead s.now preUsd
      (s.store.getAgentDailyUsage called.agentId (utcDay s.now)).1)) := by
  refine h.setPhase fun hagent => ?_
  have hread := h.phases i hagent
  have hsame := hintime hagent
  rw [hphase] at hread
  rw [InTime, hphase] at hsame
  rw [registerBudgets_agentId hcalled, hagent, hlogged.daily_usd]
  refine ⟨h.charged.spentOn_le _, fun day hcrossed => ?_⟩
  obtain ⟨usd, husd, hbelow⟩ := hread.2 day hcrossed
  obtain rfl := Option.some.inj husd
  obtain rfl := hlogged.crossed_day hread.1 hcrossed
  rw [← hsame hcrossed]
  exact ⟨hbelow, hcrossed.le_spentOn h.charged, rfl⟩

omit [FloatSum U] [DecidableEq ι] in
/-- The alert of another agent. -/
theorem AlertInv.fire_other (h : AlertInv calls agent limit s) {called : AlertPolicy U}
    (hne : called.agentId ≠ agent) (preUsd postUsd : U) :
    AlertInv calls agent limit (fire s called preUsd postUsd) := by
  rw [fire]
  rcases called.perAgentUsdDaily with _ | cap
  · exact h
  by_cases hcross : preUsd < called.threshold cap ∧ called.threshold cap ≤ postUsd
  · by_cases hfired : (called.agentId, capUsdDaily, utcDay s.now) ∈ s.fired
    · simpa [hcross, markIfUnfired, hfired] using h
    · simp only [hcross, and_self, if_true, markIfUnfired, hfired, if_false]
      have hkey : ∀ day, (agent, capUsdDaily, day) ∈
          insert (called.agentId, capUsdDaily, utcDay s.now) s.fired ↔
            (agent, capUsdDaily, day) ∈ s.fired := by
        intro day
        simp [Ne.symm hne]
      refine ⟨h.charged, fun j hj => (h.phases j hj).fired_mono (Finset.subset_insert _ _),
        fun day hday => h.reached day ((hkey day).mp hday), fun day => ?_⟩
      have hsame := h.alerts day
      rw [alertsFor] at hsame
      rw [alertsFor, List.filter_append]
      simpa [hne, Ne.symm hne] using hsame
  · simpa [hcross] using h

/-- The end of a call, with the alert that it may fire. -/
theorem AlertInv.fire (h : AlertInv calls agent (policy.threshold cap) s)
    (hon : AlertsOn policies agent policy cap) {readAt : ℕ} {preUsd postUsd : U}
    (hphase : s.phase i = .postRead readAt preUsd postUsd) {called : AlertPolicy U}
    (hcalled : registerBudgets policies (calls i).agentId = some called)
    (hintime : (calls i).agentId = agent → InTime calls agent (policy.threshold cap) s i) :
    AlertInv calls agent (policy.threshold cap)
      ((Cost.fire s called preUsd postUsd).setPhase i .done) := by
  have hid := registerBudgets_agentId hcalled
  by_cases hagent : (calls i).agentId = agent
  · have hread := h.phases i hagent
    have hsame := hintime hagent
    rw [hphase] at hread
    rw [InTime, hphase] at hsame
    rw [hagent] at hcalled hid
    obtain rfl := Option.some.inj (hon.registered.symm.trans hcalled)
    rw [Cost.fire, hon.dailyCap]
    by_cases hcross : preUsd < policy.threshold cap ∧ policy.threshold cap ≤ postUsd
    · have hday := hsame hcross.1 hcross.2
      have hreached : policy.threshold cap ≤ spentOn calls agent s.accepted (utcDay s.now) := by
        rw [← hday]
        exact FloatSum.le_trans hcross.2 hread.1
      by_cases hfired : (agent, capUsdDaily, utcDay s.now) ∈ s.fired
      · simp only [hcross, and_self, if_true, hid, markIfUnfired, hfired, Bool.false_eq_true,
          if_false]
        refine h.setPhase fun _ day hcrossed => ?_
        rw [← (hread.2 day hcrossed).2.2, hday]
        exact hfired
      · simp only [hcross, and_self, if_true, hid, markIfUnfired, hfired, if_false]
        refine AlertInv.setPhase ⟨?_, ?_, ?_, ?_⟩ fun _ day hcrossed => ?_
        · exact h.charged
        · exact fun j hj => (h.phases j hj).fired_mono (Finset.subset_insert _ _)
        · intro day hmem
          rcases Finset.mem_insert.mp hmem with heq | hmem
          · rw [(Prod.mk.inj (Prod.mk.inj heq).2).2]
            exact hreached
          · exact h.reached day hmem
        · intro day
          have hbefore := h.alerts day
          rw [alertsFor] at hbefore
          rw [alertsFor, List.filter_append, List.length_append, hbefore]
          by_cases htoday : day = utcDay s.now
          · subst htoday
            simp [hfired]
          · simp [htoday, Ne.symm htoday]
        · rw [← (hread.2 day hcrossed).2.2, hday]
          exact Finset.mem_insert_self _ _
    · simp only [hcross, if_false]
      refine h.setPhase fun _ day hcrossed => ?_
      obtain ⟨hbelow, hreached, -⟩ := hread.2 day hcrossed
      exact absurd ⟨hbelow, hreached⟩ hcross
  · exact (h.fire_other (hid.trans_ne hagent) preUsd postUsd).setPhase
      fun hsame => absurd hsame hagent

/-- One step of a call that is in time. -/
theorem AlertInv.resume (h : AlertInv calls agent (policy.threshold cap) s)
    (hlogged : Logged calls s) (hon : AlertsOn policies agent policy cap)
    (hintime : (calls i).agentId = agent →
      (resume true policies calls s i).phase i ≠ s.phase i →
        InTime calls agent (policy.threshold cap) s i) :
    AlertInv calls agent (policy.threshold cap) (resume true policies calls s i) := by
  have hview := resumeView true policies calls s i
  generalize Cost.resume true policies calls s i = t at hview hintime ⊢
  cases hview with
  | rejected hphase =>
      refine h.setPhase fun _ day hcrossed => ?_
      exact absurd hcrossed (hlogged.not_crossed (by rw [hphase]; rfl) day)
  | preRead hphase => exact h.preRead hlogged hon
  | stored readAt preUsd hphase =>
      refine h.accept hlogged hphase fun hagent => hintime hagent ?_
      rw [TrackState.phase_setPhase_self, hphase]
      rintro ⟨⟩
  | unwatched trackedAt preUsd hphase hquiet =>
      refine h.setPhase fun hagent day hcrossed => ?_
      have hread := h.phases i hagent
      rw [hphase] at hread
      obtain ⟨usd, husd, -⟩ := hread.2 day hcrossed
      have harmed := hquiet usd policy husd (hagent ▸ hon.registered)
      rw [AlertPolicy.armed, hon.url, hon.secret, hon.dailyCap] at harmed
      cases harmed
  | postRead trackedAt preUsd called hphase hcalled =>
      refine h.postRead hlogged hphase hcalled fun hagent => hintime hagent ?_
      rw [TrackState.phase_setPhase_self, hphase]
      rintro ⟨⟩
  | fired readAt preUsd postUsd called hphase hcalled =>
      refine h.fire hon hphase hcalled fun hagent => hintime hagent ?_
      rw [TrackState.phase_setPhase_self, hphase]
      rintro ⟨⟩
  | unregistered readAt preUsd postUsd hphase hnone =>
      refine h.setPhase fun hagent => ?_
      rw [hagent, hon.registered] at hnone
      cases hnone
  | done => exact h

/-! ## One alert -/

theorem alertInv_of_reachable (hon : AlertsOn policies agent policy cap)
    (h : ((trackSystem true policies calls).along
      (MovesInTime calls agent (policy.threshold cap))).Reachable s) :
    AlertInv calls agent (policy.threshold cap) s := by
  refine System.invariant (I := AlertInv calls agent (policy.threshold cap)) ?_ ?_ h
  · rintro s ⟨-, hfired, halerts, haccepted, hphase⟩
    refine ⟨fun e he => ?_, fun i _ => ?_, fun day hday => ?_, fun day => ?_⟩
    · rw [haccepted] at he
      cases he
    · rw [hphase]
      trivial
    · rw [hfired] at hday
      cases hday
    · simp [alertsFor, halerts, hfired]
  · rintro s t hreach hs ⟨hstep, hmoves⟩
    cases hstep with
    | advance later => exact ⟨hs.charged, hs.phases, hs.reached, hs.alerts⟩
    | resume i =>
        exact hs.resume (logged_of_reachable hreach.of_along) hon fun hagent => hmoves i hagent

/-- With webhooks enabled, a URL, a secret and a positive threshold: in every run in which no
amount of the agent is a NaN and no midnight falls into the steps of the call that crosses the
threshold, or between a second read that has seen a crossing and the bucket, there is one alert
for each day on which the agent reaches the threshold, and none for any other day. -/
theorem one_alert_per_day (policies : List (AlertPolicy U)) (calls : ι → TrackCall U)
    {agent : String} {policy : AlertPolicy U} {cap : U}
    (hon : AlertsOn policies agent policy cap) (hpos : 0 < policy.threshold cap)
    {s : TrackState U ι}
    (h : ((trackSystem true policies calls).along
      (MovesInTime calls agent (policy.threshold cap))).Reachable s) :
    OneAlertPerDay calls agent (policy.threshold cap) s := by
  have hinv := alertInv_of_reachable hon h
  have hlogged := logged_of_reachable h.of_along
  constructor
  · intro day
    have hcount := hinv.alerts day
    by_cases hfired : (agent, capUsdDaily, day) ∈ s.fired
    · rw [if_pos hfired] at hcount
      exact ⟨hcount.le, fun _ => hinv.reached day hfired⟩
    · rw [if_neg hfired] at hcount
      exact ⟨by omega, fun hne => absurd (List.length_eq_zero_iff.mp hcount) hne⟩
  · intro hsettled day hreached
    obtain ⟨i, hcrossed⟩ := exists_crossed hinv.charged hpos hreached
    have hphase := hinv.phases i hcrossed.1
    rcases hsettled i hcrossed.1 with hidle | hdone
    · exact absurd hcrossed (hlogged.not_crossed (by rw [hidle]; rfl) day)
    · rw [hdone] at hphase
      rw [hinv.alerts, if_pos (hphase day hcrossed)]

end Steps

end Alerts

/-! ## One call around midnight -/

/-- A cap of ten dollars, with an alert at eighty percent. -/
def tenDollars : AlertPolicy ℚ where
  agentId := "agent-a"
  perSessionUsd := none
  perSessionTokens := none
  perAgentUsdDaily := some 10
  perAgentTokensDaily := none
  perSessionSeconds := none
  alertWebhookUrl := some "https://hooks.example.com/budget"
  alertWebhookSecret := some "secret"
  alertThresholdPct := 80
  sessionTokens_le := le_of_unset _
  dailyTokens_le := le_of_unset _
  seconds_le := le_of_unset _
  anySet := ⟨.perAgentUsdDaily, by simp [PolicyCaps.Sets]⟩
  agentId_length := by decide
  usd_range := by
    rintro cap (⟨⟨⟩⟩ | ⟨⟨⟩⟩)
    norm_num [maxUsdCap]
  url_length := by
    rintro url ⟨⟩
    decide
  thresholdPct_range := by decide
  url_needs_cap := by simp

theorem tenDollars_on : AlertsOn [tenDollars] "agent-a" tenDollars 10 :=
  ⟨rfl, rfl, rfl, rfl⟩

def nineDollars (_ : Unit) : TrackCall ℚ := ⟨"agent-a", ⟨1⟩, 0, 9, none⟩

/-- The next step of the call. -/
def moved (s : TrackState ℚ Unit) : TrackState ℚ Unit := resume true [tenDollars] nineDollars s ()

/-- A call within a day fires its alert. -/
theorem nineDollars_alerted :
    OneAlertPerDay nineDollars "agent-a" (tenDollars.threshold 10)
        (moved (moved (moved (moved freshState)))) ∧
      (alertsFor "agent-a" (moved (moved (moved (moved freshState)))) 0).length = 1 := by
  have hmoves : ∀ s : TrackState ℚ Unit,
      InTime nineDollars "agent-a" (tenDollars.threshold 10) s () →
        MovesInTime nineDollars "agent-a" (tenDollars.threshold 10) s (moved s) :=
    fun s hs _ _ _ => hs
  have hstart : ((trackSystem true [tenDollars] nineDollars).along
      (MovesInTime nineDollars "agent-a" (tenDollars.threshold 10))).Reachable freshState :=
    .start ⟨rfl, rfl, rfl, rfl, fun _ => rfl⟩
  have hread := hstart.next ⟨.resume freshState (), hmoves freshState trivial⟩
  have htracked := hread.next ⟨.resume _ (), hmoves (moved freshState) ⟨le_rfl, fun _ _ => rfl⟩⟩
  have hagain := htracked.next
    ⟨.resume _ (), hmoves (moved (moved freshState)) fun _ => rfl⟩
  have hdone := hagain.next
    ⟨.resume _ (), hmoves (moved (moved (moved freshState))) fun _ _ => rfl⟩
  exact ⟨one_alert_per_day [tenDollars] nineDollars tenDollars_on
      (by norm_num [AlertPolicy.threshold, tenDollars]) hdone,
    by decide +kernel⟩

/-- The same call, with a midnight before its second read. -/
def afterMidnight : TrackState ℚ Unit :=
  moved (moved { moved (moved freshState) with now := microsecondsPerDay })

/-- The day on which the threshold was reached gets no alert. -/
theorem midnight_hides_crossing :
    ¬ ∀ s, (trackSystem true [tenDollars] nineDollars).Reachable s →
      OneAlertPerDay nineDollars "agent-a" (tenDollars.threshold 10) s := by
  intro h
  have hstart : (trackSystem true [tenDollars] nineDollars).Reachable freshState :=
    .start ⟨rfl, rfl, rfl, rfl, fun _ => rfl⟩
  have htracked := (hstart.next (.resume _ ())).next (.resume _ ())
  have hlate := htracked.next (.advance _ microsecondsPerDay (Nat.zero_le _))
  have hdone := (hlate.next (.resume _ ())).next (.resume _ ())
  have hphase : afterMidnight.phase () = .done := by decide +kernel
  have hone := (h afterMidnight hdone).2 (fun _ _ => Or.inr hphase) 0 (by decide +kernel)
  revert hone
  decide +kernel

end AgenticGovernance.Cost

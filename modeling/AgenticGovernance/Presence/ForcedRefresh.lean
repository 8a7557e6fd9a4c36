import Mathlib
import AgenticGovernance.Presence.HaltCache

/-!
# A forced refresh and the refreshes in flight

`force_refresh_halted_cache` resets the cached time without the lock and then goes
through the same two checks as every other call.  A refresh that has read its rows
before the reset stores them after it, together with the time it took under the lock,
and this takes the reset back.  On a clock below the TTL the reset expires nothing.

Which agents a forced refresh can miss is therefore decided in the state in which it
starts: those missing from the rows of such a refresh, and on a young clock those
missing from the cache.
-/

namespace AgenticGovernance.Presence

open Support CacheState

/-- Rows with an entry for each of the agents. -/
def Holds (halted : Set String) (rows : Keyed String HaltMeta) : Prop :=
  ∀ a ∈ halted, ∃ m, rows.get? a = some m

variable {ι : Type}

/-- The agents whose halt is committed in the store that the module reads. -/
def CacheState.committedHalts (s : CacheState ι) (E : Engines) : Set String :=
  {a | Marked (s.presence.store E) a}

/-- The call has ended, and it was not cancelled. -/
def RefreshPhase.Returned (p : RefreshPhase) : Prop :=
  ∃ start halted, p = .finished start halted

section Returns

variable [DecidableEq ι] (dumpsLength : PyValue → Option ℕ) (E : Engines)
  (calls : ι → CacheCall) (i : ι)

/-- A run without failing reads whose first step is the start of the call of `i` in the
state `s`, and whose last step is its return, in the state `u`. -/
def CallReturns (s u : CacheState ι) : Prop :=
  ∃ s', CacheStep dumpsLength E calls false s s' ∧
    s.phase i = .idle ∧ s'.phase i ≠ .idle ∧
    ((s'.phase i).Returned ∧ u = s' ∨
      ¬(s'.phase i).Returned ∧
        ∃ t, Relation.ReflTransGen (CacheStep dumpsLength E calls false) s' t ∧
          CacheStep dumpsLength E calls false t u ∧
          ¬(t.phase i).Returned ∧ (u.phase i).Returned)

end Returns

/-- The reset leaves the cache young only on a clock below the TTL. -/
theorem fresh_expire_iff {s : CacheState ι} :
    (s.expire .forceRefresh).Fresh ↔ s.clock < haltCacheTtlSeconds := by
  change s.clock - 0 < haltCacheTtlSeconds ↔ _
  rw [sub_zero]

/-- On a clock below the TTL the cache holds the halted agents.  On a later clock so do
the rows that a refresh in flight has read, unless its time is already too old. -/
structure RefreshesCurrent (E : Engines) (s : CacheState ι) : Prop where
  cached : s.clock < haltCacheTtlSeconds → Holds (s.committedHalts E) s.haltedCache
  inFlight : haltCacheTtlSeconds ≤ s.clock →
    ∀ j start now rows, s.phase j = .fetching start now (some rows) →
      s.clock - now < haltCacheTtlSeconds → Holds (s.committedHalts E) rows

/-! ## While a forced refresh waits -/

/-- The invariant from the start of a forced call of `i` on: what the checks of the call
can accept holds the agents that were halted at its start. -/
structure Forced (E : Engines) (halted : Set String) (i : ι) (s : CacheState ι) : Prop where
  old : haltCacheTtlSeconds ≤ s.clock
  marked : ∀ a ∈ halted, Marked (s.presence.store E) a
  cached : s.Fresh → Holds halted s.haltedCache
  inFlight : ∀ j start now rows, s.phase j = .fetching start now (some rows) →
    s.clock - now < haltCacheTtlSeconds → Holds halted rows
  own : ∀ start now rows, s.phase i = .fetching start now (some rows) → Holds halted rows

section Forced

variable {dumpsLength : PyValue → Option ℕ} {E : Engines} {calls : ι → CacheCall}
  {halted : Set String} {s t u : CacheState ι} {i j : ι}

theorem Holds.haltedSet (hmarked : ∀ a ∈ halted, Marked (s.presence.store E) a) :
    Holds halted (s.presence.haltedSet E) :=
  fun a hmem => haltedSet_of_marked (hmarked a hmem)

theorem Forced.release (h : Forced E halted i s) : Forced E halted i s.release :=
  ⟨h.old, h.marked, h.cached, h.inFlight, h.own⟩

theorem Forced.refresh (h : Forced E halted i s) {rows : Keyed String HaltMeta} {now : ℚ}
    (hrows : s.clock - now < haltCacheTtlSeconds → Holds halted rows) :
    Forced E halted i (s.refresh rows now) :=
  ⟨h.old, h.marked, hrows, h.inFlight, h.own⟩

/-- Expiring the cache makes it stale, as the clock has passed the TTL. -/
theorem Forced.expire (h : Forced E halted i s) (c : CacheCall) :
    Forced E halted i (s.expire c) := by
  cases c with
  | forceRefresh =>
      refine ⟨h.old, h.marked, ?_, h.inFlight, h.own⟩
      intro hfresh
      exact absurd (fresh_expire_iff.mp hfresh) (not_lt.mpr h.old)
  | assertNotHalted agentId => exact h
  | isHalted agentId => exact h

theorem Forced.tick (h : Forced E halted i s) {d : ℚ} (hd : 0 ≤ d) :
    Forced E halted i { s with clock := s.clock + d } := by
  have hold := h.old
  refine ⟨?_, h.marked, ?_, ?_, h.own⟩
  · change haltCacheTtlSeconds ≤ s.clock + d
    linarith
  · intro hfresh
    apply h.cached
    change s.clock + d - s.haltedCacheAt < haltCacheTtlSeconds at hfresh
    rw [Fresh]
    linarith
  · intro j start now rows hphase hyoung
    apply h.inFlight j start now rows hphase
    change s.clock + d - now < haltCacheTtlSeconds at hyoung
    linarith

variable [DecidableEq ι]

theorem Forced.setPhase (h : Forced E halted i s) {p : RefreshPhase}
    (hp : ∀ start now rows, p = .fetching start now (some rows) → Holds halted rows) :
    Forced E halted i (s.setPhase j p) := by
  have hrows : ∀ k start now rows, (s.setPhase j p).phase k = .fetching start now (some rows) →
      Holds halted rows ∨ s.phase k = .fetching start now (some rows) := by
    intro k start now rows hphase
    by_cases hk : k = j
    · subst hk
      rw [phase_setPhase_self] at hphase
      exact Or.inl (hp start now rows hphase)
    · rw [phase_setPhase_of_ne s hk] at hphase
      exact Or.inr hphase
  refine ⟨h.old, h.marked, h.cached, ?_, ?_⟩
  · intro k start now rows hphase hyoung
    rcases hrows k start now rows hphase with hholds | hsame
    · exact hholds
    · exact h.inFlight k start now rows hsame hyoung
  · intro start now rows hphase
    rcases hrows i start now rows hphase with hholds | hsame
    · exact hholds
    · exact h.own start now rows hsame

theorem Forced.finish (h : Forced E halted i s) (c : CacheCall) (start : ℚ) :
    Forced E halted i (s.finish j c start) :=
  h.setPhase fun start now rows heq => by cases heq

/-- Only a module with a database fetches. -/
theorem shared_of_fetching (hreach : (cacheSystem dumpsLength E calls false).Reachable s)
    {start now : ℚ} {rows : Option (Keyed String HaltMeta)}
    (hfetching : s.phase j = .fetching start now rows) : E.shared = true := by
  have hphase := (covered_of_reachable hreach).phases j
  rw [hfetching] at hphase
  exact hphase.1

/-- Whatever the other calls do, the invariant is kept. -/
theorem forced_step (hreach : (cacheSystem dumpsLength E calls false).Reachable s)
    (h : Forced E halted i s) (hstep : CacheStep dumpsLength E calls false s t) :
    Forced E halted i t := by
  cases hstep with
  | tick d hd => exact h.tick hd
  | presence p hp =>
      exact ⟨h.old, fun a hmem => marked_store_step hp (h.marked a hmem), h.cached,
        h.inFlight, h.own⟩
  | startFresh j hidle hfresh => exact (h.expire (calls j)).finish (calls j) s.clock
  | startStale j hidle hstale => exact (h.expire (calls j)).setPhase (by simp)
  | acquireFresh j start hwaiting hlock hfresh => exact h.finish (calls j) start
  | deriveMemory j start hwaiting hlock hstale hengine =>
      have hderived := Holds.haltedSet h.marked
      rw [PresenceState.haltedSet, hengine] at hderived
      exact (h.refresh fun _ => hderived).finish (calls j) start
  | startFetch j start hwaiting hlock hstale hengine =>
      have hset : Forced E halted i (s.setPhase j (.fetching start s.clock none)) :=
        h.setPhase (by simp)
      exact ⟨hset.old, hset.marked, hset.cached, hset.inFlight, hset.own⟩
  | select j start now hfetching =>
      -- the snapshot is taken after the start of the forced call
      have hfetched := Holds.haltedSet h.marked
      rw [PresenceState.haltedSet, shared_of_fetching hreach hfetching] at hfetched
      apply h.setPhase
      intro start' now' rows heq
      cases heq
      exact hfetched
  | refreshed j start now rows hfetching =>
      exact (h.refresh (h.inFlight j start now rows hfetching)).release.finish (calls j) start
  | readFailed j start now rows hfetching hfaults => cases hfaults
  | cancelWaiting j start hwaiting => exact h.setPhase (by simp)
  | cancelFetching j start now rows hfetching => exact h.release.setPhase (by simp)

theorem forced_run (hreach : (cacheSystem dumpsLength E calls false).Reachable s)
    (h : Forced E halted i s)
    (hrun : Relation.ReflTransGen (CacheStep dumpsLength E calls false) s t) :
    Forced E halted i t := by
  have hboth : (cacheSystem dumpsLength E calls false).Reachable t ∧ Forced E halted i t := by
    induction hrun with
    | refl => exact ⟨hreach, h⟩
    | tail _ hstep ih => exact ⟨ih.1.next hstep, forced_step ih.1 ih.2 hstep⟩
  exact hboth.2

/-! ## The step in which a call returns -/

theorem returned_setPhase {p : RefreshPhase} (hold : ¬(s.phase i).Returned)
    (hnew : ((s.setPhase j p).phase i).Returned) : i = j ∧ p.Returned := by
  by_cases hi : i = j
  · subst hi
    rw [phase_setPhase_self] at hnew
    exact ⟨rfl, hnew⟩
  · rw [phase_setPhase_of_ne s hi] at hnew
    exact absurd hnew hold

theorem not_returned_waiting (start : ℚ) : ¬(RefreshPhase.waiting start).Returned := by
  rintro ⟨start', halted, heq⟩
  cases heq

theorem not_returned_fetching (start now : ℚ) (rows : Option (Keyed String HaltMeta)) :
    ¬(RefreshPhase.fetching start now rows).Returned := by
  rintro ⟨start', halted, heq⟩
  cases heq

theorem not_returned_cancelled : ¬RefreshPhase.cancelled.Returned := by
  rintro ⟨start', halted, heq⟩
  cases heq

/-- A call returns on a cache that one of its two checks finds young, or on the rows
that it has stored itself. -/
theorem returns_cases (hstep : CacheStep dumpsLength E calls false s t)
    (hold : ¬(s.phase i).Returned) (hnew : (t.phase i).Returned) :
    (s.phase i = .idle ∧ (s.expire (calls i)).Fresh ∧ t.haltedCache = s.haltedCache) ∨
      ((∃ start, s.phase i = .waiting start) ∧ s.Fresh ∧ t.haltedCache = s.haltedCache) ∨
      (E.shared = false ∧ t.haltedCache = deriveHaltedFromMemory s.presence.agents) ∨
      ∃ start now rows, s.phase i = .fetching start now (some rows) ∧ t.haltedCache = rows := by
  cases hstep with
  | tick d hd => exact absurd hnew hold
  | presence p hp => exact absurd hnew hold
  | startFresh j hidle hfresh =>
      have hold' : ¬((s.expire (calls j)).phase i).Returned := by rwa [phase_expire]
      obtain ⟨rfl, -⟩ := returned_setPhase hold' hnew
      obtain ⟨time, htime⟩ := s.expire_eq (calls i)
      refine Or.inl ⟨hidle, hfresh, ?_⟩
      rw [htime]
      rfl
  | startStale j hidle hstale =>
      have hold' : ¬((s.expire (calls j)).phase i).Returned := by rwa [phase_expire]
      exact absurd (returned_setPhase hold' hnew).2 (not_returned_waiting _)
  | acquireFresh j start hwaiting hlock hfresh =>
      obtain ⟨rfl, -⟩ := returned_setPhase hold hnew
      exact Or.inr (Or.inl ⟨⟨start, hwaiting⟩, hfresh, rfl⟩)
  | deriveMemory j start hwaiting hlock hstale hengine =>
      exact Or.inr (Or.inr (Or.inl ⟨hengine, rfl⟩))
  | startFetch j start hwaiting hlock hstale hengine =>
      exact absurd (returned_setPhase hold hnew).2 (not_returned_fetching _ _ _)
  | select j start now hfetching =>
      exact absurd (returned_setPhase hold hnew).2 (not_returned_fetching _ _ _)
  | refreshed j start now rows hfetching =>
      have hold' : ¬((s.refresh rows now).release.phase i).Returned := hold
      obtain ⟨rfl, -⟩ := returned_setPhase hold' hnew
      exact Or.inr (Or.inr (Or.inr ⟨start, now, rows, hfetching, rfl⟩))
  | readFailed j start now rows hfetching hfaults => cases hfaults
  | cancelWaiting j start hwaiting =>
      exact absurd (returned_setPhase hold hnew).2 not_returned_cancelled
  | cancelFetching j start now rows hfetching =>
      have hold' : ¬(s.release.phase i).Returned := hold
      exact absurd (returned_setPhase hold' hnew).2 not_returned_cancelled

/-- A forced call that returns while the invariant holds has missed nobody. -/
theorem Forced.returns (h : Forced E halted i s) (hcall : calls i = .forceRefresh)
    (hstep : CacheStep dumpsLength E calls false s t) (hold : ¬(s.phase i).Returned)
    (hnew : (t.phase i).Returned) : Holds halted t.haltedCache := by
  rcases returns_cases hstep hold hnew with
    ⟨-, hfresh, hcache⟩ | ⟨-, hfresh, hcache⟩ | ⟨hengine, hcache⟩ |
    ⟨start, now, rows, hfetching, hcache⟩
  · rw [hcall] at hfresh
    exact absurd (fresh_expire_iff.mp hfresh) (not_lt.mpr h.old)
  · rw [hcache]
    exact h.cached hfresh
  · have hderived := Holds.haltedSet h.marked
    rw [PresenceState.haltedSet, hengine] at hderived
    rw [hcache]
    exact hderived
  · rw [hcache]
    exact h.own start now rows hfetching

/-! ## What a forced refresh can miss -/

/-- A step of another call leaves this one unstarted. -/
theorem idle_setPhase {p : RefreshPhase} (hidle : s.phase i = .idle)
    (hj : s.phase j ≠ .idle) : (s.setPhase j p).phase i = .idle := by
  have hi : i ≠ j := by
    rintro rfl
    exact hj hidle
  rwa [phase_setPhase_of_ne s hi]

/-- The step that starts a forced call expires the cache, and it returns at once only on
a clock below the TTL. -/
theorem forced_start_cases (hcall : calls i = .forceRefresh)
    (hstep : CacheStep dumpsLength E calls false s t) (hidle : s.phase i = .idle)
    (hstarted : t.phase i ≠ .idle) :
    (s.clock < haltCacheTtlSeconds ∧ t.haltedCache = s.haltedCache ∧
        (t.phase i).Returned) ∨
      (haltCacheTtlSeconds ≤ s.clock ∧
        t = (s.expire .forceRefresh).setPhase i (.waiting s.clock)) := by
  -- the other steps move a call that has started before
  have hother : ∀ {j p} {X : CacheState ι}, X.phase = s.phase → s.phase j ≠ .idle →
      (X.setPhase j p).phase i = .idle := by
    intro j p X hX hj
    apply idle_setPhase
    · rw [hX, hidle]
    · rwa [hX]
  cases hstep with
  | tick d hd => exact absurd hidle hstarted
  | presence p hp => exact absurd hidle hstarted
  | startFresh j hj hfresh =>
      by_cases hi : i = j
      · subst hi
        refine Or.inl ⟨?_, ?_, ⟨_, _, phase_setPhase_self ..⟩⟩
        · rw [hcall] at hfresh
          exact fresh_expire_iff.mp hfresh
        · rw [hcall]
          rfl
      · refine absurd ?_ hstarted
        change ((s.expire (calls j)).setPhase j _).phase i = .idle
        rw [phase_setPhase_of_ne _ hi, phase_expire, hidle]
  | startStale j hj hstale =>
      by_cases hi : i = j
      · subst hi
        refine Or.inr ⟨?_, by rw [hcall]⟩
        rw [hcall, fresh_expire_iff] at hstale
        exact not_lt.mp hstale
      · refine absurd ?_ hstarted
        rw [phase_setPhase_of_ne _ hi, phase_expire, hidle]
  | acquireFresh j start hwaiting hlock hfresh =>
      exact absurd (hother rfl (by simp [hwaiting])) hstarted
  | deriveMemory j start hwaiting hlock hstale hengine =>
      exact absurd (hother (X := s.refresh _ _) rfl (by simp [hwaiting])) hstarted
  | startFetch j start hwaiting hlock hstale hengine =>
      exact absurd (hother (X := s) rfl (by simp [hwaiting])) hstarted
  | select j start now hfetching =>
      exact absurd (hother rfl (by simp [hfetching])) hstarted
  | refreshed j start now rows hfetching =>
      exact absurd (hother (X := (s.refresh rows now).release) rfl (by simp [hfetching])) hstarted
  | readFailed j start now rows hfetching hfaults => cases hfaults
  | cancelWaiting j start hwaiting =>
      exact absurd (hother rfl (by simp [hwaiting])) hstarted
  | cancelFetching j start now rows hfetching =>
      exact absurd (hother (X := s.release) rfl (by simp [hfetching])) hstarted

/-- A forced call that starts on an old clock while every refresh in flight is current
establishes the invariant. -/
theorem forced_start (hcurrent : RefreshesCurrent E s) (hidle : s.phase i = .idle)
    (hold : haltCacheTtlSeconds ≤ s.clock) :
    Forced E (s.committedHalts E) i
      ((s.expire .forceRefresh).setPhase i (.waiting s.clock)) := by
  have hexpired : Forced E (s.committedHalts E) i (s.expire .forceRefresh) := by
    refine ⟨hold, fun a hmem => hmem, ?_, hcurrent.inFlight hold, ?_⟩
    · intro hfresh
      exact absurd (fresh_expire_iff.mp hfresh) (not_lt.mpr hold)
    · intro start now rows hfetching
      rw [phase_expire, hidle] at hfetching
      cases hfetching
  exact hexpired.setPhase (by simp)

variable (dumpsLength E calls) in
/-- The run in which a refresh in flight stores its rows while the forced call waits. -/
theorem overtaken_returns (hcall : calls i = .forceRefresh) (hidle : s.phase i = .idle)
    (hold : haltCacheTtlSeconds ≤ s.clock) {start now : ℚ} {rows : Keyed String HaltMeta}
    (hfetching : s.phase j = .fetching start now (some rows))
    (hyoung : s.clock - now < haltCacheTtlSeconds) :
    ∃ u, CallReturns dumpsLength E calls i s u ∧ u.haltedCache = rows := by
  have hne : i ≠ j := by
    rintro rfl
    rw [hidle] at hfetching
    cases hfetching
  let waiting := (s.expire .forceRefresh).setPhase i (.waiting s.clock)
  let stored := (waiting.refresh rows now).release.finish j (calls j) start
  have hstale : ¬(s.expire (calls i)).Fresh := by
    rw [hcall, fresh_expire_iff]
    exact not_lt.mpr hold
  have hstart : CacheStep dumpsLength E calls false s waiting := by
    have hstep : CacheStep dumpsLength E calls false s
        ((s.expire (calls i)).setPhase i (.waiting s.clock)) :=
      .startStale s i hidle hstale
    rwa [hcall] at hstep
  have hphase : waiting.phase j = .fetching start now (some rows) := by
    rw [phase_setPhase_of_ne _ hne.symm]
    exact hfetching
  have hstore : CacheStep dumpsLength E calls false waiting stored :=
    .refreshed waiting j start now rows hphase
  have hwaiting : stored.phase i = .waiting s.clock := by
    change (CacheState.setPhase _ j _).phase i = _
    rw [phase_setPhase_of_ne _ hne]
    exact phase_setPhase_self ..
  have hacquire : CacheStep dumpsLength E calls false stored
      (stored.finish i (calls i) s.clock) :=
    .acquireFresh stored i s.clock hwaiting rfl hyoung
  have hwaits : waiting.phase i = .waiting s.clock := phase_setPhase_self ..
  refine ⟨stored.finish i (calls i) s.clock, ⟨waiting, hstart, hidle, ?_, Or.inr ⟨?_, stored,
    .single hstore, hacquire, ?_, ?_⟩⟩, rfl⟩
  · rw [hwaits]
    simp
  · rw [hwaits]
    exact not_returned_waiting _
  · rw [hwaiting]
    exact not_returned_waiting _
  · exact ⟨_, _, phase_setPhase_self ..⟩

variable (dumpsLength E calls) in
theorem young_returns (hcall : calls i = .forceRefresh) (hidle : s.phase i = .idle)
    (hyoung : s.clock < haltCacheTtlSeconds) :
    ∃ u, CallReturns dumpsLength E calls i s u ∧ u.haltedCache = s.haltedCache := by
  have hfresh : (s.expire (calls i)).Fresh := by
    rw [hcall]
    exact fresh_expire_iff.mpr hyoung
  refine ⟨(s.expire (calls i)).finish i (calls i) s.clock, ⟨_, .startFresh s i hidle hfresh,
    hidle, ?_, Or.inl ⟨⟨_, _, phase_setPhase_self ..⟩, rfl⟩⟩, ?_⟩
  · rw [CacheState.finish, phase_setPhase_self]
    simp
  · rw [hcall]
    rfl

/-- In every run without failing reads that goes on from the state `s` with a forced
refresh, the cache holds all agents halted before when the call returns, if and only if
in that state the refreshes that can serve the call are current. -/
theorem forced_refresh_sees_halts_iff
    (hreach : (cacheSystem dumpsLength E calls false).Reachable s)
    (hcall : calls i = .forceRefresh) (hidle : s.phase i = .idle) :
    (∀ u, CallReturns dumpsLength E calls i s u → Holds (s.committedHalts E) u.haltedCache) ↔
      RefreshesCurrent E s := by
  constructor
  · intro hsees
    constructor
    · intro hyoung
      obtain ⟨u, hreturns, hcache⟩ := young_returns dumpsLength E calls hcall hidle hyoung
      rw [← hcache]
      exact hsees u hreturns
    · intro hold j start now rows hfetching hyoung
      obtain ⟨u, hreturns, hcache⟩ :=
        overtaken_returns dumpsLength E calls hcall hidle hold hfetching hyoung
      rw [← hcache]
      exact hsees u hreturns
  · intro hcurrent u hreturns
    obtain ⟨s', hstep, -, hstarted, hend⟩ := hreturns
    rcases forced_start_cases hcall hstep hidle hstarted with
      ⟨hyoung, hcache, hreturned⟩ | ⟨hold, rfl⟩
    · rcases hend with ⟨-, rfl⟩ | ⟨hbefore, -⟩
      · rw [hcache]
        exact hcurrent.cached hyoung
      · exact absurd hreturned hbefore
    · rcases hend with ⟨hreturned, -⟩ | ⟨-, t, hrun, hlast, hbefore, hafter⟩
      · rw [phase_setPhase_self] at hreturned
        exact absurd hreturned (not_returned_waiting _)
      · have hforced := forced_run (hreach.next hstep) (forced_start hcurrent hidle hold) hrun
        exact hforced.returns hcall hlast hbefore hafter

end Forced

/-- A module on a database with nobody halted, ten seconds after the boot. -/
def runningModule (ι : Type) : CacheState ι :=
  ⟨⟨.empty, .empty⟩, 10, .empty, 0, none, fun _ => .idle⟩

/-- The state of `s` after an operator has halted the worker. -/
def CacheState.haltWorker {ι : Type} (s : CacheState ι) (E : Engines) : CacheState ι :=
  { s with
    presence := (s.presence.call (fun _ => some 0) E 0 .committed
      (.halt "worker" "operator" none)).1 }

/-- With nothing in flight the forced refresh sees the halt of the worker. -/
theorem worker_seen_by_forced_refresh :
    let E : Engines := ⟨true, false, by decide⟩
    ∀ u, CallReturns (fun _ => some 0) E (fun _ : Unit => .forceRefresh) ()
        ((runningModule Unit).haltWorker E) u →
      ∃ m, u.haltedCache.get? "worker" = some m := by
  intro E u hreturns
  have hreach : (cacheSystem (fun _ => some 0) E (fun _ : Unit => .forceRefresh) false).Reachable
      ((runningModule Unit).haltWorker E) := by
    refine (System.Reachable.start ?_).next (.presence (runningModule Unit) _ ⟨_, _, _, rfl⟩)
    exact ⟨by norm_num [runningModule], rfl, rfl, rfl, fun _ => rfl⟩
  have hcurrent : RefreshesCurrent E ((runningModule Unit).haltWorker E) := by
    constructor
    · intro hyoung
      have hlt : (10 : ℚ) < 5 := hyoung
      norm_num at hlt
    · intro _ j start now rows hfetching
      cases hfetching
  have hsees := (forced_refresh_sees_halts_iff hreach rfl rfl).mpr hcurrent u hreturns
  exact hsees "worker" (marked_store_halt (by decide))

/-- The calls of two tasks, a check of the worker and a forced refresh. -/
def checkAndForce : Bool → CacheCall
  | false => .assertNotHalted "worker"
  | true => .forceRefresh

/-- The check has read its rows when the worker is halted, and stores them while the
forced refresh waits for the lock. -/
theorem overtaken_refresh_misses_halt :
    let E : Engines := ⟨true, false, by decide⟩
    ∃ s u, (cacheSystem (fun _ => some 0) E checkAndForce false).Reachable s ∧
      checkAndForce true = .forceRefresh ∧ "worker" ∈ s.committedHalts E ∧
      CallReturns (fun _ => some 0) E checkAndForce true s u ∧
      u.haltedCache.get? "worker" = none := by
  intro E
  let s₀ := runningModule Bool
  let s₁ := s₀.setPhase false (.waiting 10)
  let s₂ : CacheState Bool :=
    { s₁.setPhase false (.fetching 10 10 none) with lock := some false }
  let s₃ := s₂.setPhase false (.fetching 10 10 (some (fetchHaltedFromPostgres .empty)))
  have hstale : ¬s₀.Fresh := by
    change ¬((10 : ℚ) - 0 < 5)
    norm_num
  have hreach₁ : (cacheSystem (fun _ => some 0) E checkAndForce false).Reachable s₁ := by
    refine (System.Reachable.start ?_).next (.startStale s₀ false rfl hstale)
    exact ⟨by norm_num [s₀, runningModule], rfl, rfl, rfl, fun _ => rfl⟩
  have hreach₃ : (cacheSystem (fun _ => some 0) E checkAndForce false).Reachable s₃ :=
    (hreach₁.next (.startFetch s₁ false 10 (phase_setPhase_self ..) rfl hstale rfl)).next
      (.select s₂ false 10 10 (phase_setPhase_self s₁ false _))
  have hreach := hreach₃.next (.presence s₃ (s₃.haltWorker E).presence ⟨_, _, _, rfl⟩)
  have hyoung : (s₃.haltWorker E).clock - 10 < haltCacheTtlSeconds := by
    change (10 : ℚ) - 10 < 5
    norm_num
  have hold : haltCacheTtlSeconds ≤ (s₃.haltWorker E).clock := by
    change (5 : ℚ) ≤ 10
    norm_num
  have hfetching : (s₃.haltWorker E).phase false =
      .fetching 10 10 (some (fetchHaltedFromPostgres .empty)) :=
    phase_setPhase_self s₂ false _
  obtain ⟨u, hreturns, hcache⟩ :=
    overtaken_returns (fun _ => some 0) E checkAndForce (i := true) rfl rfl hold hfetching hyoung
  refine ⟨s₃.haltWorker E, u, hreach, rfl, marked_store_halt (by decide), hreturns, ?_⟩
  rw [hcache]
  rfl

end AgenticGovernance.Presence

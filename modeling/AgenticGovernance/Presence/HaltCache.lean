import Mathlib
import AgenticGovernance.Support.Transition
import AgenticGovernance.Presence.Store

/-!
# The halted cache

`assert_not_halted` reads a cache of the halted set that is refreshed once it is
older than `_HALT_CACHE_TTL_SECONDS`.  A refresh holds a lock, reads the clock, then
fetches the halted set, and stores the rows together with the time read *before* the
fetch.  `force_refresh_halted_cache` resets the time without the lock.

The system below runs any number of such calls against the presence module, with
arbitrary delays between the steps of a call.  The cached rows then contain every halt
committed before the cached time, which bounds the delay of a halt by the TTL.
-/

namespace AgenticGovernance.Presence

open Support

/-- `_HALT_CACHE_TTL_SECONDS` -/
def haltCacheTtlSeconds : ℚ := 5

inductive CacheCall where
  | assertNotHalted (agentId : String)
  | isHalted (agentId : String)
  | forceRefresh

/-- What a call reads from the cache at its end.  For `assert_not_halted` this is the
metadata of the `AgentHaltedError`, and `none` if it returns. -/
def CacheCall.lookup (c : CacheCall) (cache : Keyed String HaltMeta) : Option HaltMeta :=
  match c with
  | .assertNotHalted agentId => cache.get? agentId
  | .isHalted agentId => cache.get? agentId
  | .forceRefresh => none

/-- Where a call stands.  `start` is the clock at its first check, `now` the clock
under the lock, and `rows` the answer of the database. -/
inductive RefreshPhase where
  | idle
  | waiting (start : ℚ)
  | fetching (start now : ℚ) (rows : Option (Keyed String HaltMeta))
  | finished (start : ℚ) (halted : Option HaltMeta)
  | cancelled

structure CacheState (ι : Type) where
  presence : PresenceState
  clock : ℚ
  haltedCache : Keyed String HaltMeta
  haltedCacheAt : ℚ
  lock : Option ι
  phase : ι → RefreshPhase

variable {ι : Type}

namespace CacheState

/-- The cache is younger than its TTL. -/
def Fresh (s : CacheState ι) : Prop := s.clock - s.haltedCacheAt < haltCacheTtlSeconds

/-- `self._halted_cache = rows; self._halted_cache_at = now` -/
def refresh (s : CacheState ι) (rows : Keyed String HaltMeta) (now : ℚ) : CacheState ι :=
  { s with haltedCache := rows, haltedCacheAt := now }

/-- `force_refresh_halted_cache` sets the time to zero before its refresh. -/
def expire (s : CacheState ι) : CacheCall → CacheState ι
  | .forceRefresh => { s with haltedCacheAt := 0 }
  | _ => s

def release (s : CacheState ι) : CacheState ι := { s with lock := none }

/-- Expiring touches nothing but the cached time. -/
theorem expire_eq (s : CacheState ι) (c : CacheCall) :
    ∃ time, s.expire c = { s with haltedCacheAt := time } := by
  cases c with
  | forceRefresh => exact ⟨0, rfl⟩
  | assertNotHalted agentId => exact ⟨s.haltedCacheAt, rfl⟩
  | isHalted agentId => exact ⟨s.haltedCacheAt, rfl⟩

theorem clock_expire (s : CacheState ι) (c : CacheCall) : (s.expire c).clock = s.clock := by
  obtain ⟨time, htime⟩ := s.expire_eq c
  rw [htime]

theorem phase_expire (s : CacheState ι) (c : CacheCall) : (s.expire c).phase = s.phase := by
  obtain ⟨time, htime⟩ := s.expire_eq c
  rw [htime]

section Phase

variable [DecidableEq ι]

def setPhase (s : CacheState ι) (i : ι) (p : RefreshPhase) : CacheState ι :=
  { s with phase := Function.update s.phase i p }

/-- The call `c` of task `i` reads the cache and ends. -/
def finish (s : CacheState ι) (i : ι) (c : CacheCall) (start : ℚ) : CacheState ι :=
  s.setPhase i (.finished start (c.lookup s.haltedCache))

@[simp] theorem phase_setPhase_self (s : CacheState ι) (i : ι) (p : RefreshPhase) :
    (s.setPhase i p).phase i = p :=
  Function.update_self ..

theorem phase_setPhase_of_ne (s : CacheState ι) {i j : ι} (hne : j ≠ i) (p : RefreshPhase) :
    (s.setPhase i p).phase j = s.phase j :=
  Function.update_of_ne hne ..

end Phase

end CacheState

open CacheState

section System

variable [DecidableEq ι] (dumpsLength : PyValue → Option ℕ) (E : Engines)
  (calls : ι → CacheCall)

/-- The steps of the system.  `faults` allows the reads of the halted set to raise. -/
inductive CacheStep (faults : Bool) : CacheState ι → CacheState ι → Prop
  | tick (s : CacheState ι) (d : ℚ) (hd : 0 ≤ d) :
      CacheStep faults s { s with clock := s.clock + d }
  | presence (s : CacheState ι) (p : PresenceState)
      (hp : PresenceStep dumpsLength E s.presence p) :
      CacheStep faults s { s with presence := p }
  /-- The first check finds a young cache. -/
  | startFresh (s : CacheState ι) (i : ι) (hphase : s.phase i = .idle)
      (hfresh : (s.expire (calls i)).Fresh) :
      CacheStep faults s ((s.expire (calls i)).finish i (calls i) s.clock)
  | startStale (s : CacheState ι) (i : ι) (hphase : s.phase i = .idle)
      (hstale : ¬(s.expire (calls i)).Fresh) :
      CacheStep faults s ((s.expire (calls i)).setPhase i (.waiting s.clock))
  /-- Another call has refreshed the cache meanwhile. -/
  | acquireFresh (s : CacheState ι) (i : ι) (start : ℚ)
      (hphase : s.phase i = .waiting start) (hlock : s.lock = none) (hfresh : s.Fresh) :
      CacheStep faults s (s.finish i (calls i) start)
  | deriveMemory (s : CacheState ι) (i : ι) (start : ℚ)
      (hphase : s.phase i = .waiting start) (hlock : s.lock = none) (hstale : ¬s.Fresh)
      (hengine : E.shared = false) :
      CacheStep faults s
        ((s.refresh (deriveHaltedFromMemory s.presence.agents) s.clock).finish i (calls i)
          start)
  | startFetch (s : CacheState ι) (i : ι) (start : ℚ)
      (hphase : s.phase i = .waiting start) (hlock : s.lock = none) (hstale : ¬s.Fresh)
      (hengine : E.shared = true) :
      CacheStep faults s
        { s.setPhase i (.fetching start s.clock none) with lock := some i }
  /-- The database takes its snapshot at any time after the fetch has started. -/
  | select (s : CacheState ι) (i : ι) (start now : ℚ)
      (hphase : s.phase i = .fetching start now none) :
      CacheStep faults s
        (s.setPhase i
          (.fetching start now (some (fetchHaltedFromPostgres s.presence.table))))
  | refreshed (s : CacheState ι) (i : ι) (start now : ℚ) (rows : Keyed String HaltMeta)
      (hphase : s.phase i = .fetching start now (some rows)) :
      CacheStep faults s ((s.refresh rows now).release.finish i (calls i) start)
  /-- A read that raises keeps the rows and moves the time. -/
  | readFailed (s : CacheState ι) (i : ι) (start now : ℚ)
      (rows : Option (Keyed String HaltMeta))
      (hphase : s.phase i = .fetching start now rows) (hfaults : faults = true) :
      CacheStep faults s ((s.refresh s.haltedCache now).release.finish i (calls i) start)
  | cancelWaiting (s : CacheState ι) (i : ι) (start : ℚ)
      (hphase : s.phase i = .waiting start) :
      CacheStep faults s (s.setPhase i .cancelled)
  | cancelFetching (s : CacheState ι) (i : ι) (start now : ℚ)
      (rows : Option (Keyed String HaltMeta))
      (hphase : s.phase i = .fetching start now rows) :
      CacheStep faults s (s.release.setPhase i .cancelled)

/-- A fresh module, on a monotonic clock that has not gone below zero. -/
def cacheSystem (faults : Bool) : System (CacheState ι) where
  init s := 0 ≤ s.clock ∧ s.haltedCache = .empty ∧ s.haltedCacheAt = 0 ∧ s.lock = none ∧
    ∀ i, s.phase i = .idle
  step := CacheStep dumpsLength E calls faults

end System

/-! ## The cached rows contain every earlier halt -/

/-- Rows stored with the time `now` contain the halts committed before it.  A halt is
an agent with the time of its commit. -/
def RowsCover (halts : Set (String × ℚ)) (now : ℚ) (rows : Keyed String HaltMeta) : Prop :=
  ∀ h ∈ halts, h.2 < now → ∃ m, rows.get? h.1 = some m

/-- A finished `assert_not_halted` that started a TTL after a halt has raised. -/
def PhaseOk (E : Engines) (halts : Set (String × ℚ)) (c : CacheCall) (clock : ℚ) :
    RefreshPhase → Prop
  | .idle => True
  | .waiting start => start ≤ clock
  | .fetching start now rows =>
      E.shared = true ∧ start ≤ now ∧ now ≤ clock ∧ ∀ r, rows = some r → RowsCover halts now r
  | .finished start halted =>
      start ≤ clock ∧ ∀ h ∈ halts, c = .assertNotHalted h.1 →
        h.2 + haltCacheTtlSeconds ≤ start → ∃ m, halted = some m
  | .cancelled => True

/-- The invariant, for the halts committed so far. -/
structure Covered (E : Engines) (calls : ι → CacheCall) (halts : Set (String × ℚ))
    (s : CacheState ι) : Prop where
  clock_nonneg : 0 ≤ s.clock
  cacheAt_le : s.haltedCacheAt ≤ s.clock
  halt_nonneg : ∀ h ∈ halts, 0 ≤ h.2
  marked : ∀ h ∈ halts, Marked (s.presence.store E) h.1
  cached : RowsCover halts s.haltedCacheAt s.haltedCache
  phases : ∀ i, PhaseOk E halts (calls i) s.clock (s.phase i)

section Cover

variable {dumpsLength : PyValue → Option ℕ} {E : Engines} {calls : ι → CacheCall}
  {halts : Set (String × ℚ)} {s t : CacheState ι} {i : ι} {c : CacheCall}

theorem PhaseOk.mono {clock clock' : ℚ} (hle : clock ≤ clock') {p : RefreshPhase}
    (h : PhaseOk E halts c clock p) : PhaseOk E halts c clock' p := by
  match p with
  | .idle => trivial
  | .waiting start => exact le_trans h hle
  | .fetching start now rows => exact ⟨h.1, h.2.1, h.2.2.1.trans hle, h.2.2.2⟩
  | .finished start halted => exact ⟨h.1.trans hle, h.2⟩
  | .cancelled => trivial

/-- A call that reads rows stored later than its start less the TTL ends well. -/
theorem phaseOk_finished {start clock now : ℚ} {rows : Keyed String HaltMeta}
    (hstart : start ≤ clock) (hrows : RowsCover halts now rows)
    (hnow : start - haltCacheTtlSeconds < now) :
    PhaseOk E halts c clock (.finished start (c.lookup rows)) := by
  refine ⟨hstart, ?_⟩
  intro h hmem hc httl
  rw [hc]
  exact hrows h hmem (by linarith)

theorem RowsCover.haltedSet (hmarked : ∀ h ∈ halts, Marked (s.presence.store E) h.1)
    (now : ℚ) : RowsCover halts now (s.presence.haltedSet E) :=
  fun h hmem _ => haltedSet_of_marked (hmarked h hmem)

theorem Covered.refresh (h : Covered E calls halts s) {rows : Keyed String HaltMeta} {now : ℚ}
    (hnow : now ≤ s.clock) (hrows : RowsCover halts now rows) :
    Covered E calls halts (s.refresh rows now) :=
  ⟨h.clock_nonneg, hnow, h.halt_nonneg, h.marked, hrows, h.phases⟩

/-- Expiring the cache loses nothing: no halt was committed before time zero. -/
theorem Covered.expire (h : Covered E calls halts s) (c : CacheCall) :
    Covered E calls halts (s.expire c) := by
  cases c with
  | forceRefresh =>
      refine ⟨h.clock_nonneg, h.clock_nonneg, h.halt_nonneg, h.marked, ?_, h.phases⟩
      intro halt hmem hlt
      exact absurd hlt (not_lt.mpr (h.halt_nonneg halt hmem))
  | assertNotHalted agentId => exact h
  | isHalted agentId => exact h

theorem Covered.release (h : Covered E calls halts s) :
    Covered E calls halts s.release :=
  ⟨h.clock_nonneg, h.cacheAt_le, h.halt_nonneg, h.marked, h.cached, h.phases⟩

theorem lt_cacheAt_of_fresh {start : ℚ} (hfresh : s.Fresh) (hstart : start ≤ s.clock) :
    start - haltCacheTtlSeconds < s.haltedCacheAt := by
  rw [Fresh] at hfresh
  linarith

theorem ttl_pos : (0 : ℚ) < haltCacheTtlSeconds := by
  norm_num [haltCacheTtlSeconds]

/-- At its commit a halt is later than every cached time and every start. -/
theorem Covered.halted (h : Covered E calls ∅ s) {p : PresenceState} {a : String}
    (hp : Marked (p.store E) a) :
    Covered E calls {(a, s.clock)} { s with presence := p } where
  clock_nonneg := h.clock_nonneg
  cacheAt_le := h.cacheAt_le
  halt_nonneg := by
    rintro halt rfl
    exact h.clock_nonneg
  marked := by
    rintro halt rfl
    exact hp
  cached := by
    rintro halt rfl hlt
    exact absurd hlt (not_lt.mpr h.cacheAt_le)
  phases := by
    intro i
    have hphase : PhaseOk E ∅ (calls i) s.clock (s.phase i) := h.phases i
    change PhaseOk E {(a, s.clock)} (calls i) s.clock (s.phase i)
    match s.phase i, hphase with
    | .idle, _ => trivial
    | .waiting start, hstart => exact hstart
    | .fetching start now rows, ⟨hengine, hstart, hnow, _⟩ =>
        refine ⟨hengine, hstart, hnow, ?_⟩
        rintro r - halt rfl hlt
        exact absurd hlt (not_lt.mpr hnow)
    | .finished start halted, ⟨hstart, _⟩ =>
        refine ⟨hstart, ?_⟩
        rintro halt rfl - httl
        exfalso
        linarith [ttl_pos]
    | .cancelled, _ => trivial

variable [DecidableEq ι]

theorem Covered.setPhase (h : Covered E calls halts s) {p : RefreshPhase}
    (hp : PhaseOk E halts (calls i) s.clock p) : Covered E calls halts (s.setPhase i p) where
  clock_nonneg := h.clock_nonneg
  cacheAt_le := h.cacheAt_le
  halt_nonneg := h.halt_nonneg
  marked := h.marked
  cached := h.cached
  phases := by
    intro j
    by_cases hj : j = i
    · subst hj
      rw [phase_setPhase_self]
      exact hp
    · rw [phase_setPhase_of_ne s hj]
      exact h.phases j

theorem Covered.finish (h : Covered E calls halts s) {start : ℚ} (hstart : start ≤ s.clock)
    (hnow : start - haltCacheTtlSeconds < s.haltedCacheAt) :
    Covered E calls halts (s.finish i (calls i) start) :=
  h.setPhase (phaseOk_finished hstart h.cached hnow)

/-- Every step of a run without failing reads keeps the invariant. -/
theorem covered_step (h : Covered E calls halts s)
    (hstep : CacheStep dumpsLength E calls false s t) : Covered E calls halts t := by
  have hphase : ∀ {i p}, s.phase i = p → PhaseOk E halts (calls i) s.clock p := by
    intro i p hp
    exact hp ▸ h.phases i
  cases hstep with
  | tick d hd =>
      have hle : s.clock ≤ s.clock + d := by linarith
      exact ⟨h.clock_nonneg.trans hle, h.cacheAt_le.trans hle, h.halt_nonneg, h.marked,
        h.cached, fun i => (h.phases i).mono hle⟩
  | presence p hp =>
      exact ⟨h.clock_nonneg, h.cacheAt_le, h.halt_nonneg,
        fun halt hmem => marked_store_step hp (h.marked halt hmem), h.cached, h.phases⟩
  | startFresh i hidle hfresh =>
      have hclock : s.clock ≤ (s.expire (calls i)).clock := (clock_expire s (calls i)).ge
      exact (h.expire (calls i)).finish hclock (lt_cacheAt_of_fresh hfresh hclock)
  | startStale i hidle hstale =>
      exact (h.expire (calls i)).setPhase (clock_expire s (calls i)).ge
  | acquireFresh i start hwaiting hlock hfresh =>
      have hstart : start ≤ s.clock := hphase hwaiting
      exact h.finish hstart (lt_cacheAt_of_fresh hfresh hstart)
  | deriveMemory i start hwaiting hlock hstale hengine =>
      have hstart : start ≤ s.clock := hphase hwaiting
      have hrows : RowsCover halts s.clock (deriveHaltedFromMemory s.presence.agents) := by
        have hderived := RowsCover.haltedSet h.marked s.clock
        rwa [PresenceState.haltedSet, hengine] at hderived
      refine (h.refresh le_rfl hrows).finish hstart ?_
      change start - haltCacheTtlSeconds < s.clock
      linarith [ttl_pos]
  | startFetch i start hwaiting hlock hstale hengine =>
      have hstart : start ≤ s.clock := hphase hwaiting
      have hfetch : PhaseOk E halts (calls i) s.clock (.fetching start s.clock none) :=
        ⟨hengine, hstart, le_rfl, by simp⟩
      have hset := h.setPhase hfetch
      exact ⟨hset.clock_nonneg, hset.cacheAt_le, hset.halt_nonneg, hset.marked, hset.cached,
        hset.phases⟩
  | select i start now hfetching =>
      obtain ⟨hengine, hstart, hnow, -⟩ := hphase hfetching
      refine h.setPhase ⟨hengine, hstart, hnow, ?_⟩
      intro rows hrows
      have hfetched := RowsCover.haltedSet h.marked now
      rw [PresenceState.haltedSet, hengine] at hfetched
      rwa [← Option.some.inj hrows]
  | refreshed i start now rows hfetching =>
      obtain ⟨-, hstart, hnow, hrows⟩ := hphase hfetching
      refine ((h.refresh hnow (hrows rows rfl)).release).finish (hstart.trans hnow) ?_
      change start - haltCacheTtlSeconds < now
      linarith [ttl_pos]
  | readFailed i start now rows hfetching hfaults => cases hfaults
  | cancelWaiting i start hwaiting => exact h.setPhase trivial
  | cancelFetching i start now rows hfetching => exact h.release.setPhase trivial

theorem covered_run (h : Covered E calls halts s)
    (hrun : Relation.ReflTransGen (CacheStep dumpsLength E calls false) s t) :
    Covered E calls halts t := by
  induction hrun with
  | refl => exact h
  | tail _ hstep ih => exact covered_step ih hstep

theorem covered_of_reachable (h : (cacheSystem dumpsLength E calls false).Reachable s) :
    Covered E calls ∅ s := by
  refine System.invariant ?_ ?_ h
  · rintro s ⟨hclock, -, hcacheAt, -, hidle⟩
    refine ⟨hclock, hcacheAt ▸ hclock, by simp, by simp, by simp [RowsCover], ?_⟩
    intro i
    rw [hidle i]
    trivial
  · intro s t _ hcovered hstep
    exact covered_step hcovered hstep

end Cover

/-! ## A started call can be completed -/

/-- The lock is held by the call that fetches. -/
def LockHeld (s : CacheState ι) : Prop :=
  ∀ i, s.lock = some i ↔ ∃ start now rows, s.phase i = .fetching start now rows

theorem LockHeld.expire {s : CacheState ι} (h : LockHeld s) (c : CacheCall) :
    LockHeld (s.expire c) := by
  obtain ⟨time, htime⟩ := s.expire_eq c
  rw [htime]
  exact h

section Progress

variable [DecidableEq ι] {dumpsLength : PyValue → Option ℕ} {E : Engines}
  {calls : ι → CacheCall} {faults : Bool} {s t : CacheState ι} {i : ι}

theorem LockHeld.setPhase (h : LockHeld s) {p : RefreshPhase}
    (hold : ∀ start now rows, s.phase i ≠ .fetching start now rows)
    (hnew : ∀ start now rows, p ≠ .fetching start now rows) : LockHeld (s.setPhase i p) := by
  intro j
  change s.lock = some j ↔ _
  rw [h j]
  by_cases hj : j = i
  · subst hj
    simp [hold, hnew]
  · rw [phase_setPhase_of_ne s hj]

/-- The fetching call gives the lock back when it ends. -/
theorem LockHeld.release (h : LockHeld s) {p : RefreshPhase} {start now : ℚ}
    {rows : Option (Keyed String HaltMeta)} (hphase : s.phase i = .fetching start now rows)
    (hnew : ∀ start now rows, p ≠ .fetching start now rows) :
    LockHeld (s.release.setPhase i p) := by
  have hlock : s.lock = some i := (h i).mpr ⟨start, now, rows, hphase⟩
  intro j
  change none = some j ↔ _
  by_cases hj : j = i
  · subst hj
    simp [hnew]
  · rw [phase_setPhase_of_ne s.release hj]
    change none = some j ↔ ∃ start now rows, s.phase j = .fetching start now rows
    rw [← h j, hlock]
    simp [Ne.symm hj]

theorem lockHeld_step (h : LockHeld s) (hstep : CacheStep dumpsLength E calls faults s t) :
    LockHeld t := by
  cases hstep with
  | tick d hd => exact h
  | presence p hp => exact h
  | startFresh i hidle hfresh =>
      exact (h.expire (calls i)).setPhase (by simp [phase_expire, hidle]) (by simp)
  | startStale i hidle hstale =>
      exact (h.expire (calls i)).setPhase (by simp [phase_expire, hidle]) (by simp)
  | acquireFresh i start hwaiting hlock hfresh =>
      exact h.setPhase (by simp [hwaiting]) (by simp)
  | deriveMemory i start hwaiting hlock hstale hengine =>
      exact LockHeld.setPhase (s := s.refresh _ _) h
        (by simp [CacheState.refresh, hwaiting]) (by simp)
  | startFetch i start hwaiting hlock hstale hengine =>
      intro j
      change some i = some j ↔ ∃ _ _ _, (s.setPhase i _).phase j = _
      by_cases hj : j = i
      · subst hj
        simp
      · rw [phase_setPhase_of_ne s hj, ← h j, hlock]
        simp [Ne.symm hj]
  | select i start now hfetching =>
      intro j
      change s.lock = some j ↔ _
      by_cases hj : j = i
      · subst hj
        simpa using (h j).mpr ⟨start, now, none, hfetching⟩
      · rw [phase_setPhase_of_ne s hj]
        exact h j
  | refreshed i start now rows hfetching =>
      exact LockHeld.release (s := s.refresh rows now) h hfetching (by simp)
  | readFailed i start now rows hfetching hfaults =>
      exact LockHeld.release (s := s.refresh _ now) h hfetching (by simp)
  | cancelWaiting i start hwaiting => exact h.setPhase (by simp [hwaiting]) (by simp)
  | cancelFetching i start now rows hfetching => exact h.release hfetching (by simp)

theorem lockHeld_of_reachable (h : (cacheSystem dumpsLength E calls faults).Reachable s) :
    LockHeld s := by
  refine System.invariant ?_ ?_ h
  · rintro s ⟨-, -, -, hlock, hidle⟩ i
    simp [hlock, hidle]
  · intro s t _ hheld hstep
    exact lockHeld_step hheld hstep

variable (dumpsLength E calls faults)

/-- A fetch that the database answers ends its call and frees the lock. -/
theorem fetch_completes {start now : ℚ} {rows : Option (Keyed String HaltMeta)}
    (hphase : s.phase i = .fetching start now rows) :
    ∃ t halted, Relation.ReflTransGen (CacheStep dumpsLength E calls faults) s t ∧
      t.lock = none ∧ t.phase i = .finished start halted ∧
      ∀ j, j ≠ i → t.phase j = s.phase j := by
  -- from the state in which the rows have arrived
  have hanswered : ∀ (s : CacheState ι) (rows : Keyed String HaltMeta),
      s.phase i = .fetching start now (some rows) →
      ∃ t halted, Relation.ReflTransGen (CacheStep dumpsLength E calls faults) s t ∧
        t.lock = none ∧ t.phase i = .finished start halted ∧
        ∀ j, j ≠ i → t.phase j = s.phase j := by
    intro s rows hrows
    exact ⟨_, _, .single (.refreshed s i start now rows hrows), rfl,
      phase_setPhase_self .., fun j hj => phase_setPhase_of_ne _ hj _⟩
  rcases rows with _ | rows
  · obtain ⟨t, halted, hrun, hlock, hfinished, hothers⟩ := hanswered _ _
      (phase_setPhase_self s i (.fetching start now
        (some (fetchHaltedFromPostgres s.presence.table))))
    refine ⟨t, halted, hrun.head (.select s i start now hphase), hlock, hfinished, ?_⟩
    intro j hj
    rw [hothers j hj, phase_setPhase_of_ne s hj]
  · exact hanswered s rows hphase

theorem acquire_completes {start : ℚ} (hphase : s.phase i = .waiting start)
    (hlock : s.lock = none) :
    ∃ t halted, Relation.ReflTransGen (CacheStep dumpsLength E calls faults) s t ∧
      t.phase i = .finished start halted := by
  by_cases hfresh : s.Fresh
  · exact ⟨_, _, .single (.acquireFresh s i start hphase hlock hfresh),
      phase_setPhase_self ..⟩
  · rcases hengine : E.shared with _ | _
    · exact ⟨_, _, .single (.deriveMemory s i start hphase hlock hfresh hengine),
        phase_setPhase_self ..⟩
    · have hstep : CacheStep dumpsLength E calls faults s
          { s.setPhase i (.fetching start s.clock none) with lock := some i } :=
        .startFetch s i start hphase hlock hfresh hengine
      obtain ⟨t, halted, hrun, -, hfinished, -⟩ :=
        fetch_completes dumpsLength E calls faults
          (s := { s.setPhase i (.fetching start s.clock none) with lock := some i })
          (phase_setPhase_self s i _)
      exact ⟨t, halted, hrun.head hstep, hfinished⟩

/-- A call that waits for the lock gets it once the fetch under way has ended. -/
theorem waiting_completes (hheld : LockHeld s) {start : ℚ}
    (hphase : s.phase i = .waiting start) :
    ∃ t halted, Relation.ReflTransGen (CacheStep dumpsLength E calls faults) s t ∧
      t.phase i = .finished start halted := by
  rcases hlock : s.lock with _ | j
  · exact acquire_completes dumpsLength E calls faults hphase hlock
  · obtain ⟨start', now, rows, hfetching⟩ := (hheld j).mp hlock
    have hne : i ≠ j := by
      rintro rfl
      rw [hphase] at hfetching
      cases hfetching
    obtain ⟨t, -, hrun, hfree, -, hothers⟩ :=
      fetch_completes dumpsLength E calls faults hfetching
    obtain ⟨u, halted, hrun', hfinished⟩ :=
      acquire_completes dumpsLength E calls faults ((hothers i hne).trans hphase) hfree
    exact ⟨u, halted, hrun.trans hrun', hfinished⟩

end Progress

/-! ## The TTL bounds the delay of a halt -/

/-- A call that has started and is neither finished nor cancelled. -/
def RefreshPhase.Running (start : ℚ) (p : RefreshPhase) : Prop :=
  p = .waiting start ∨ ∃ now rows, p = .fetching start now rows

/-- In a run in which no read of the halted set fails, a halt of `a` is committed when
the clock shows `s₁.clock`.  Then an `assert_not_halted(a)` that starts at least a TTL
later ends with `AgentHaltedError` and never returns; while it runs, the calls under way
can complete, and it with them. -/
theorem halt_effective_within_ttl [DecidableEq ι] {dumpsLength : PyValue → Option ℕ}
    {E : Engines} {calls : ι → CacheCall} {s₁ s : CacheState ι} {a haltedBy : String}
    {reason : Option String} {now : ℤ} {fate : Fate} {i : ι} {start : ℚ}
    (hreach : (cacheSystem dumpsLength E calls false).Reachable s₁)
    (hcommitted : E.shared = true → fate ≠ .rolledBack)
    (hrun : Relation.ReflTransGen (CacheStep dumpsLength E calls false)
      { s₁ with
        presence := (s₁.presence.call dumpsLength E now fate (.halt a haltedBy reason)).1 } s)
    (hcall : calls i = .assertNotHalted a)
    (hstart : s₁.clock + haltCacheTtlSeconds ≤ start) :
    (∀ halted, s.phase i = .finished start halted → ∃ m, halted = some m) ∧
      ((s.phase i).Running start →
        ∃ t m, Relation.ReflTransGen (CacheStep dumpsLength E calls false) s t ∧
          t.phase i = .finished start (some m)) := by
  have hcovered := covered_run
    ((covered_of_reachable hreach).halted (marked_store_halt hcommitted)) hrun
  -- whatever state the run goes on to, the call has not returned there
  have hraised : ∀ t, Relation.ReflTransGen (CacheStep dumpsLength E calls false) s t →
      ∀ halted, t.phase i = .finished start halted → ∃ m, halted = some m := by
    intro t hst halted hfinished
    have hphase := (covered_run hcovered hst).phases i
    rw [hfinished] at hphase
    exact hphase.2 _ rfl hcall hstart
  refine ⟨hraised s .refl, ?_⟩
  intro hrunning
  have hheld : LockHeld s := by
    have hreach' : (cacheSystem dumpsLength E calls false).Reachable s := by
      clear hcovered hraised hrunning
      induction hrun with
      | refl => exact hreach.next (.presence s₁ _ ⟨_, _, _, rfl⟩)
      | tail _ hstep ih => exact ih.next hstep
    exact lockHeld_of_reachable hreach'
  have hcompletes : ∃ t halted,
      Relation.ReflTransGen (CacheStep dumpsLength E calls false) s t ∧
        t.phase i = .finished start halted := by
    rcases hrunning with hwaiting | ⟨now', rows, hfetching⟩
    · exact waiting_completes dumpsLength E calls false hheld hwaiting
    · obtain ⟨t, halted, hst, -, hfinished, -⟩ :=
        fetch_completes dumpsLength E calls false hfetching
      exact ⟨t, halted, hst, hfinished⟩
  obtain ⟨t, halted, hst, hfinished⟩ := hcompletes
  obtain ⟨m, rfl⟩ := hraised t hst halted hfinished
  exact ⟨t, m, hst, hfinished⟩

/-- A module on a database, started when the clock shows zero. -/
def startedModule : CacheState Unit :=
  ⟨⟨.empty, .empty⟩, 0, .empty, 0, none, fun _ => .idle⟩

/-- Halted at time zero, the worker is stopped at its check five seconds later. -/
theorem worker_stopped_after_five_seconds :
    let E : Engines := ⟨true, false, by decide⟩
    let step := CacheStep (fun _ => some 0) E (fun _ : Unit => .assertNotHalted "worker") false
    ∃ t m, Relation.ReflTransGen step
        { startedModule with
          presence := (startedModule.presence.call (fun _ => some 0) E 0 .committed
            (.halt "worker" "operator" none)).1 } t ∧
      t.phase () = .finished 5 (some m) := by
  intro E step
  have hreach : (cacheSystem (fun _ => some 0) E
      (fun _ : Unit => .assertNotHalted "worker") false).Reachable startedModule :=
    .start ⟨le_rfl, rfl, rfl, rfl, fun _ => rfl⟩
  have hrun : Relation.ReflTransGen step
      { startedModule with
        presence := (startedModule.presence.call (fun _ => some 0) E 0 .committed
          (.halt "worker" "operator" none)).1 } _ :=
    .tail (.single (.tick _ 5 (by norm_num))) (.startStale _ () rfl (by
      change ¬((0 : ℚ) + 5 - 0 < 5)
      norm_num))
  have hstart : startedModule.clock + haltCacheTtlSeconds ≤ 5 := by
    norm_num [startedModule, haltCacheTtlSeconds]
  obtain ⟨-, hends⟩ := halt_effective_within_ttl hreach (by decide) hrun (i := ()) rfl hstart
  obtain ⟨t, m, hrest, hfinished⟩ := hends (Or.inl (by simp [startedModule]))
  exact ⟨t, m, hrun.trans hrest, hfinished⟩

end AgenticGovernance.Presence

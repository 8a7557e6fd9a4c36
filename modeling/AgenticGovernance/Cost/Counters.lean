import Mathlib
import AgenticGovernance.Cost.Store
import AgenticGovernance.Support.Double
import AgenticGovernance.Support.Keyed
import AgenticGovernance.Support.PeriodTotal

/-!
# The counters in memory

`InMemoryCostStore` keeps a total for each session, one for each agent and one for each model
of an agent.  The last two are totals of a UTC day and start again on the first `track` of a
later one.  All three are compared with the log of the calls that reached the store.

USD amounts are a type with a zero and a sum, about which nothing is assumed: a total is the
sum of the amounts in the order in which they came, as floating point computes it.
-/

namespace AgenticGovernance.Cost

open Support

/-! ## The store -/

def microsecondsPerDay : ℕ := 86400000000

/-- The day of `_utc_day_start`, for a time in microseconds. -/
def utcDay (now : ℕ) : ℕ := now / microsecondsPerDay

theorem utcDay_mono {early late : ℕ} (h : early ≤ late) : utcDay early ≤ utcDay late :=
  Nat.div_le_div_right h

/-- The arguments of `track`. -/
structure TrackCall (U : Type) where
  agentId : String
  sessionId : Uuid
  tokens : ℤ
  usd : U
  model : Option String

/-- `InMemoryCostStore` with all its dictionaries. -/
structure UsageStore (U : Type) extends MemoryStore U where
  sessionStarted : String × Uuid → Option ℕ
  modelUsage : Keyed (String × String) (U × ℤ × ℕ)

variable {U : Type} [Zero U] [Add U]

namespace UsageStore

def empty : UsageStore U := ⟨MemoryStore.empty, fun _ => none, Keyed.empty⟩

/-- `InMemoryCostStore.track` at a time. -/
def track (σ : UsageStore U) (now : ℕ) (c : TrackCall U) : UsageStore U where
  toMemoryStore := σ.toMemoryStore.track c.agentId c.sessionId (utcDay now) c.usd c.tokens
  sessionStarted :=
    if (σ.sessionStarted (c.agentId, c.sessionId)).isNone then
      Function.update σ.sessionStarted (c.agentId, c.sessionId) (some now)
    else σ.sessionStarted
  modelUsage :=
    match c.model with
    | none => σ.modelUsage
    | some model => σ.modelUsage.set (c.agentId, model)
        (MemoryStore.bumpDaily (σ.modelUsage.get? (c.agentId, model)) (utcDay now) c.usd
          c.tokens)

/-- The entries that `get_model_breakdown` goes through. -/
def modelRows (σ : UsageStore U) (agentId : String) (day : ℕ) : List (String × U × ℤ) :=
  σ.modelUsage.entries.filterMap fun e =>
    if e.1.1 = agentId ∧ day ≤ e.2.2.2 then some (e.1.2, e.2.1, e.2.2.1) else none

/-- `get_model_breakdown`; `none` stands for the `OverflowError` of `float(m_tok)`. -/
def getModelBreakdown (σ : UsageStore U) (agentId : String) (now : ℕ) :
    Option (List (String × U × Double)) :=
  (σ.modelRows agentId (utcDay now)).mapM fun row =>
    (Double.ofInt row.2.2).map fun tokens => (row.1, row.2.1, tokens)

def getSessionStartTime (σ : UsageStore U) (agentId : String) (sessionId : Uuid) : Option ℕ :=
  σ.sessionStarted (agentId, sessionId)

end UsageStore

/-! ## What was accepted -/

/-- The calls that reached the store, with the times at which they did. -/
abbrev TrackLog (U : Type) := List (ℕ × TrackCall U)

def addCall (total : U × ℤ) (c : TrackCall U) : U × ℤ := (total.1 + c.usd, total.2 + c.tokens)

/-- The sum of the deltas of a log. -/
def total (log : TrackLog U) : U × ℤ := log.foldl (fun t e => addCall t e.2) (0, 0)

section Logs

omit [Zero U] [Add U]

variable (log : TrackLog U) (agentId : String)

def sessionLog (sessionId : Uuid) : TrackLog U :=
  log.filter fun e => e.2.agentId = agentId && e.2.sessionId = sessionId

def dayLog (day : ℕ) : TrackLog U :=
  log.filter fun e => e.2.agentId = agentId && utcDay e.1 = day

def modelDayLog (model : Option String) (day : ℕ) : TrackLog U :=
  log.filter fun e => (e.2.agentId = agentId && e.2.model = model) && utcDay e.1 = day

end Logs

/-- Whatever is read at `clock` or later is the sum of what was accepted for it. -/
structure CountersExact (σ : UsageStore U) (log : TrackLog U) (clock : ℕ) : Prop where
  session : ∀ agentId sessionId,
    σ.getSessionUsage agentId sessionId = total (sessionLog log agentId sessionId)
  daily : ∀ agentId now, clock ≤ now →
    σ.getAgentDailyUsage agentId (utcDay now) = total (dayLog log agentId (utcDay now))
  /-- the models of the day, with the floats nearest to their tokens -/
  breakdown : ∀ agentId now rows, clock ≤ now → σ.getModelBreakdown agentId now = some rows →
    ∀ model usd tokens, (model, usd, tokens) ∈ rows ↔
      modelDayLog log agentId (some model) (utcDay now) ≠ [] ∧
      usd = (total (modelDayLog log agentId (some model) (utcDay now))).1 ∧
      Double.ofInt (total (modelDayLog log agentId (some model) (utcDay now))).2 = some tokens
  /-- days on which every number of tokens is a float -/
  split : ∀ agentId now, clock ≤ now →
    (σ.getAgentDailyUsage agentId (utcDay now)).2 ≤ 2 ^ 53 →
      ∃ rows, σ.getModelBreakdown agentId now = some rows ∧
        (∀ row ∈ rows, row.2.2.magnitude =
          (total (modelDayLog log agentId (some row.1) (utcDay now))).2) ∧
        ((σ.getAgentDailyUsage agentId (utcDay now)).2 : ℚ) =
          (rows.map fun row => row.2.2.magnitude).sum +
            (total (modelDayLog log agentId none (utcDay now))).2

/-! ## The entries and the log -/

/-- The amounts of the calls that satisfy `p`, by their days. -/
def amounts (p : TrackCall U → Bool) (log : TrackLog U) : List (ℕ × TrackCall U) :=
  (log.filter fun e => p e.2).map fun e => (utcDay e.1, e.2)

/-- A daily entry as a total and its day. -/
def regroup (entry : U × ℤ × ℕ) : (U × ℤ) × ℕ := ((entry.1, entry.2.1), entry.2.2)

theorem regroup_bumpDaily (entry : Option (U × ℤ × ℕ)) (day : ℕ) (c : TrackCall U) :
    regroup (MemoryStore.bumpDaily entry day c.usd c.tokens) =
      PeriodTotal.bump (0, 0) addCall (entry.map regroup) day c := by
  rcases entry with _ | ⟨usd, tok, since⟩
  · simp [MemoryStore.bumpDaily, PeriodTotal.bump, regroup, addCall]
  · by_cases hlt : since < day
    · simp [MemoryStore.bumpDaily, PeriodTotal.bump, regroup, addCall, hlt]
    · simp [MemoryStore.bumpDaily, PeriodTotal.bump, regroup, addCall, hlt]

omit [Add U] in
theorem getAgentDailyUsage_eq_read (σ : MemoryStore U) (agentId : String) (day : ℕ) :
    σ.getAgentDailyUsage agentId day =
      PeriodTotal.read (0, 0) ((σ.agentDaily agentId).map regroup) day := by
  rcases hentry : σ.agentDaily agentId with _ | ⟨usd, tok, since⟩
  · simp [MemoryStore.getAgentDailyUsage, PeriodTotal.read, hentry]
  · by_cases hlt : since < day
    · simp [MemoryStore.getAgentDailyUsage, PeriodTotal.read, regroup, hentry, hlt]
    · simp [MemoryStore.getAgentDailyUsage, PeriodTotal.read, regroup, hentry, hlt]

theorem totalIn_amounts (p : TrackCall U → Bool) (log : TrackLog U) (day : ℕ) :
    PeriodTotal.totalIn (0, 0) addCall (amounts p log) day =
      total (log.filter fun e => p e.2 && utcDay e.1 = day) := by
  rw [PeriodTotal.totalIn, amounts, List.filter_map, List.foldl_map, List.filter_filter, total]
  congr 1
  refine List.filter_congr fun e _ => ?_
  rw [Bool.and_comm]
  rfl

section Concat

omit [Zero U] [Add U]

theorem amounts_concat_of_pos {p : TrackCall U → Bool} {c : TrackCall U} (h : p c)
    (log : TrackLog U) (now : ℕ) :
    amounts p (log ++ [(now, c)]) = amounts p log ++ [(utcDay now, c)] := by
  simp [amounts, List.filter_append, h]

theorem amounts_concat_of_neg {p : TrackCall U → Bool} {c : TrackCall U} (h : p c = false)
    (log : TrackLog U) (now : ℕ) : amounts p (log ++ [(now, c)]) = amounts p log := by
  simp [amounts, List.filter_append, h]

theorem sessionLog_concat_self (log : TrackLog U) (now : ℕ) (c : TrackCall U) :
    sessionLog (log ++ [(now, c)]) c.agentId c.sessionId =
      sessionLog log c.agentId c.sessionId ++ [(now, c)] := by
  simp [sessionLog, List.filter_append]

theorem sessionLog_concat_of_ne {c : TrackCall U} {agentId : String} {sessionId : Uuid}
    (hne : (agentId, sessionId) ≠ (c.agentId, c.sessionId)) (log : TrackLog U) (now : ℕ) :
    sessionLog (log ++ [(now, c)]) agentId sessionId = sessionLog log agentId sessionId := by
  have hkey : ¬ (c.agentId = agentId ∧ c.sessionId = sessionId) := by
    rintro ⟨rfl, rfl⟩
    exact hne rfl
  simp [sessionLog, List.filter_append, List.filter_cons]
  tauto

theorem amounts_past {p : TrackCall U → Bool} {log : TrackLog U} {now : ℕ}
    (h : ∀ e ∈ log, e.1 ≤ now) : ∀ a ∈ amounts p log, a.1 ≤ utcDay now := by
  intro a ha
  obtain ⟨e, he, rfl⟩ := List.mem_map.mp ha
  exact utcDay_mono (h e (List.mem_filter.mp he).1)

end Concat

/-- Every entry of the store is what the log has left of it. -/
structure Tallies (σ : UsageStore U) (log : TrackLog U) : Prop where
  session : ∀ agentId sessionId,
    σ.getSessionUsage agentId sessionId = total (sessionLog log agentId sessionId)
  started : ∀ agentId sessionId, σ.getSessionStartTime agentId sessionId =
    (sessionLog log agentId sessionId).head?.map Prod.fst
  daily : ∀ agentId, PeriodTotal.Keeps (0, 0) addCall
    (amounts (fun c => c.agentId = agentId) log) ((σ.agentDaily agentId).map regroup)
  model : ∀ agentId model, PeriodTotal.Keeps (0, 0) addCall
    (amounts (fun c => c.agentId = agentId && c.model = some model) log)
    ((σ.modelUsage.get? (agentId, model)).map regroup)

theorem tallies_empty : Tallies (UsageStore.empty : UsageStore U) [] :=
  ⟨fun _ _ => rfl, fun _ _ => rfl, fun _ => rfl, fun _ _ => rfl⟩

namespace Tallies

variable {σ : UsageStore U} {log : TrackLog U} {now : ℕ} {c : TrackCall U}

theorem session_track (h : Tallies σ log) (agentId : String) (sessionId : Uuid) :
    (σ.track now c).getSessionUsage agentId sessionId =
      total (sessionLog (log ++ [(now, c)]) agentId sessionId) := by
  by_cases hkey : (agentId, sessionId) = (c.agentId, c.sessionId)
  · obtain ⟨rfl, rfl⟩ := Prod.mk.inj hkey
    have hbefore := h.session c.agentId c.sessionId
    rw [sessionLog_concat_self, total, List.foldl_append, ← total, ← hbefore]
    simp [UsageStore.track, MemoryStore.track, MemoryStore.getSessionUsage, addCall]
  · rw [sessionLog_concat_of_ne hkey, ← h.session]
    simp [UsageStore.track, MemoryStore.track, MemoryStore.getSessionUsage, hkey]

theorem started_track (h : Tallies σ log) (agentId : String) (sessionId : Uuid) :
    (σ.track now c).getSessionStartTime agentId sessionId =
      (sessionLog (log ++ [(now, c)]) agentId sessionId).head?.map Prod.fst := by
  have hbefore := h.started agentId sessionId
  rw [UsageStore.getSessionStartTime] at hbefore
  rw [UsageStore.getSessionStartTime, UsageStore.track]
  by_cases hkey : (agentId, sessionId) = (c.agentId, c.sessionId)
  · obtain ⟨rfl, rfl⟩ := Prod.mk.inj hkey
    rw [sessionLog_concat_self, List.head?_append]
    rcases hhead : (sessionLog log c.agentId c.sessionId).head? with _ | e
    · rw [hhead] at hbefore
      simp [hbefore]
    · rw [hhead] at hbefore
      simp [hbefore]
  · rw [sessionLog_concat_of_ne hkey, ← hbefore]
    by_cases hfirst : (σ.sessionStarted (c.agentId, c.sessionId)).isNone
    · simp [hfirst, hkey]
    · simp [hfirst]

theorem daily_track (h : Tallies σ log) (hpast : ∀ e ∈ log, e.1 ≤ now) (agentId : String) :
    PeriodTotal.Keeps (0, 0) addCall
      (amounts (fun c => c.agentId = agentId) (log ++ [(now, c)]))
      (((σ.track now c).agentDaily agentId).map regroup) := by
  by_cases hagent : c.agentId = agentId
  · subst hagent
    have hentry : ((σ.track now c).agentDaily c.agentId).map regroup = some
        (PeriodTotal.bump (0, 0) addCall ((σ.agentDaily c.agentId).map regroup) (utcDay now)
          c) := by
      rw [← regroup_bumpDaily]
      simp [UsageStore.track, MemoryStore.track]
    rw [hentry, amounts_concat_of_pos (by simp)]
    exact (h.daily c.agentId).bump (amounts_past hpast) c
  · have hentry : (σ.track now c).agentDaily agentId = σ.agentDaily agentId := by
      simp [UsageStore.track, MemoryStore.track, Ne.symm hagent]
    rw [hentry, amounts_concat_of_neg (by simp [hagent])]
    exact h.daily agentId

theorem model_track (h : Tallies σ log) (hpast : ∀ e ∈ log, e.1 ≤ now) (agentId model : String) :
    PeriodTotal.Keeps (0, 0) addCall
      (amounts (fun c => c.agentId = agentId && c.model = some model) (log ++ [(now, c)]))
      (((σ.track now c).modelUsage.get? (agentId, model)).map regroup) := by
  by_cases hkey : c.agentId = agentId ∧ c.model = some model
  · obtain ⟨rfl, hmodel⟩ := hkey
    have hentry : ((σ.track now c).modelUsage.get? (c.agentId, model)).map regroup = some
        (PeriodTotal.bump (0, 0) addCall
          ((σ.modelUsage.get? (c.agentId, model)).map regroup) (utcDay now) c) := by
      rw [← regroup_bumpDaily]
      simp [UsageStore.track, hmodel]
    rw [hentry, amounts_concat_of_pos (by simp [hmodel])]
    exact (h.model c.agentId model).bump (amounts_past hpast) c
  · have hentry : (σ.track now c).modelUsage.get? (agentId, model) =
        σ.modelUsage.get? (agentId, model) := by
      rcases hmodel : c.model with _ | called
      · simp [UsageStore.track, hmodel]
      · have hne : (agentId, model) ≠ (c.agentId, called) := by
          rintro heq
          obtain ⟨rfl, rfl⟩ := Prod.mk.inj heq
          exact hkey ⟨rfl, hmodel⟩
        simp [UsageStore.track, hmodel, Keyed.get?_set_of_ne hne]
    rw [hentry, amounts_concat_of_neg (by simpa using hkey)]
    exact h.model agentId model

/-- One `track` on a clock that has not gone back. -/
theorem track (h : Tallies σ log) (hpast : ∀ e ∈ log, e.1 ≤ now) (c : TrackCall U) :
    Tallies (σ.track now c) (log ++ [(now, c)]) :=
  ⟨h.session_track, h.started_track, h.daily_track hpast, h.model_track hpast⟩

end Tallies

/-! ## What is read -/

theorem total_tokens (log : TrackLog U) : (total log).2 = (log.map fun e => e.2.tokens).sum := by
  have hgen : ∀ t : U × ℤ, (log.foldl (fun t e => addCall t e.2) t).2 =
      t.2 + (log.map fun e => e.2.tokens).sum := by
    induction log with
    | nil =>
        intro t
        simp
    | cons e log ih =>
        intro t
        rw [List.foldl_cons, ih, addCall, List.map_cons, List.sum_cons, add_assoc]
  rw [total, hgen, zero_add]

/-- A sum by the values of a key, and the rest of it. -/
theorem sum_by_key {α κ : Type*} [DecidableEq κ] (key : α → Option κ) (f : α → ℤ)
    {keys : List κ} (hnodup : keys.Nodup) {l : List α}
    (hall : ∀ a ∈ l, ∀ k, key a = some k → k ∈ keys) :
    (keys.map fun k => ((l.filter fun a => key a = some k).map f).sum).sum +
      ((l.filter fun a => key a = none).map f).sum = (l.map f).sum := by
  induction l with
  | nil => simp
  | cons a l ih =>
      have hrest := ih fun b hb => hall b (List.mem_cons_of_mem a hb)
      rcases hkey : key a with _ | k
      · simp only [List.filter_cons, hkey, reduceCtorEq, decide_false, decide_true,
          Bool.false_eq_true, if_false, if_true, List.map_cons, List.sum_cons]
        linarith
      · have hk : k ∈ keys := hall a List.mem_cons_self k hkey
        have hsplit : ∀ k', (((a :: l).filter fun b => key b = some k').map f).sum =
            (if k' = k then f a else 0) + ((l.filter fun b => key b = some k').map f).sum := by
          intro k'
          by_cases hk' : k' = k
          · simp [hkey, hk']
          · simp [hkey, hk', Ne.symm hk']
        have hone : (keys.map fun k' => if k' = k then f a else 0).sum = f a := by
          rw [List.sum_map_ite_eq keys (fun _ => f a) (fun _ => 0) k, hnodup.count, if_pos hk]
          simp
        simp only [hsplit, List.sum_map_add, hone]
        simp only [List.filter_cons, hkey, reduceCtorEq, decide_false, Bool.false_eq_true,
          if_false, List.map_cons, List.sum_cons]
        linarith

theorem mapM_eq_some_iff {α β : Type} {f : α → Option β} {l : List α} {bs : List β} :
    l.mapM f = some bs ↔ l.map f = bs.map some := by
  induction l generalizing bs with
  | nil =>
      rw [List.mapM_nil, Option.pure_def, Option.some.injEq, List.map_nil, eq_comm,
        eq_comm (a := []), List.map_eq_nil_iff]
  | cons a l ih =>
      rw [List.mapM_cons, List.map_cons]
      simp only [Option.bind_eq_bind, Option.bind_eq_some_iff, Option.pure_def,
        Option.some.injEq, ih]
      constructor
      · rintro ⟨b, hb, bs', hbs', rfl⟩
        rw [List.map_cons, hb, hbs']
      · intro heq
        obtain ⟨b, bs', rfl, hb, hbs'⟩ := List.map_eq_cons_iff.mp heq.symm
        exact ⟨b, hb.symm, bs', hbs'.symm, rfl⟩

omit [Zero U] [Add U] in
theorem modelRows_nodup (σ : UsageStore U) (agentId : String) (day : ℕ) :
    ((σ.modelRows agentId day).map Prod.fst).Nodup := by
  have hkeys : σ.modelUsage.entries.Pairwise fun e f => e.1 ≠ f.1 :=
    List.pairwise_map.mp σ.modelUsage.nodup
  rw [List.Nodup, List.pairwise_map, UsageStore.modelRows]
  refine hkeys.filterMap _ fun e f hne row hrow row' hrow' hsame => ?_
  simp only [Option.ite_none_right_eq_some, Option.some.injEq] at hrow hrow'
  obtain ⟨⟨hagent, -⟩, rfl⟩ := hrow
  obtain ⟨⟨hagent', -⟩, rfl⟩ := hrow'
  exact hne (Prod.ext (hagent.trans hagent'.symm) hsame)

namespace Tallies

variable {σ : UsageStore U} {log : TrackLog U} {clock now : ℕ}

theorem daily_read (h : Tallies σ log) (hpast : ∀ e ∈ log, e.1 ≤ now) (agentId : String) :
    σ.getAgentDailyUsage agentId (utcDay now) = total (dayLog log agentId (utcDay now)) := by
  rw [getAgentDailyUsage_eq_read, (h.daily agentId).read_eq (amounts_past hpast),
    totalIn_amounts]
  rfl

/-- A model has a row of the day exactly if it was tracked on it. -/
theorem mem_modelRows (h : Tallies σ log) (hpast : ∀ e ∈ log, e.1 ≤ now)
    {agentId model : String} {usd : U} {tokens : ℤ} :
    (model, usd, tokens) ∈ σ.modelRows agentId (utcDay now) ↔
      modelDayLog log agentId (some model) (utcDay now) ≠ [] ∧
        (usd, tokens) = total (modelDayLog log agentId (some model) (utcDay now)) := by
  have hentry : (model, usd, tokens) ∈ σ.modelRows agentId (utcDay now) ↔
      ∃ since, (σ.modelUsage.get? (agentId, model)).map regroup =
        some ((usd, tokens), since) ∧ utcDay now ≤ since := by
    rw [UsageStore.modelRows, List.mem_filterMap]
    constructor
    · rintro ⟨⟨⟨agent, name⟩, u, t, since⟩, he, hrow⟩
      simp only [Option.ite_none_right_eq_some, Option.some.injEq, Prod.mk.injEq] at hrow
      obtain ⟨⟨rfl, hday⟩, rfl, rfl, rfl⟩ := hrow
      exact ⟨since, by rw [Keyed.mem_entries_iff.mp he]; rfl, hday⟩
    · rintro ⟨since, hsome, hday⟩
      obtain ⟨⟨u, t, since'⟩, hget, hgroup⟩ := Option.map_eq_some_iff.mp hsome
      obtain ⟨⟨rfl, rfl⟩, rfl⟩ := by simpa [regroup] using hgroup
      refine ⟨((agentId, model), u, t, since'), Keyed.mem_entries_iff.mpr hget, ?_⟩
      simp [hday]
  have hsome : (∃ a ∈ amounts (fun c => c.agentId = agentId && c.model = some model) log,
      a.1 = utcDay now) ↔ modelDayLog log agentId (some model) (utcDay now) ≠ [] := by
    constructor
    · rintro ⟨a, ha, hday⟩
      obtain ⟨e, he, rfl⟩ := List.mem_map.mp ha
      obtain ⟨he, hp⟩ := List.mem_filter.mp he
      have hkept : (decide (e.2.agentId = agentId) && decide (e.2.model = some model) &&
          decide (utcDay e.1 = utcDay now)) = true := by
        rw [Bool.and_eq_true, decide_eq_true_eq]
        exact ⟨hp, hday⟩
      exact List.ne_nil_of_mem (List.mem_filter.mpr ⟨he, hkept⟩)
    · intro hne
      obtain ⟨e, he⟩ := List.exists_mem_of_ne_nil _ hne
      obtain ⟨he, hp⟩ := List.mem_filter.mp he
      rw [Bool.and_eq_true, decide_eq_true_eq] at hp
      exact ⟨_, List.mem_map_of_mem (List.mem_filter.mpr ⟨he, hp.1⟩), hp.2⟩
  rw [hentry, (h.model agentId model).current_iff (amounts_past hpast), hsome, totalIn_amounts]
  rfl

/-- The tokens of a day, by models. -/
theorem daily_tokens (h : Tallies σ log) (hpast : ∀ e ∈ log, e.1 ≤ now) (agentId : String) :
    (σ.getAgentDailyUsage agentId (utcDay now)).2 =
      ((σ.modelRows agentId (utcDay now)).map fun row => row.2.2).sum +
        (total (modelDayLog log agentId none (utcDay now))).2 := by
  have hmodels : ∀ model, (dayLog log agentId (utcDay now)).filter
      (fun e => e.2.model = model) = modelDayLog log agentId model (utcDay now) := by
    intro model
    rw [dayLog, List.filter_filter]
    refine List.filter_congr fun e _ => ?_
    rw [Bool.and_comm, Bool.and_right_comm]
  have hrows : ∀ row ∈ σ.modelRows agentId (utcDay now), row.2.2 =
      ((modelDayLog log agentId (some row.1) (utcDay now)).map fun e => e.2.tokens).sum := by
    rintro ⟨model, usd, tokens⟩ hrow
    rw [← total_tokens]
    exact congrArg Prod.snd ((h.mem_modelRows hpast).mp hrow).2
  have hall : ∀ e ∈ dayLog log agentId (utcDay now), ∀ model, e.2.model = some model →
      model ∈ (σ.modelRows agentId (utcDay now)).map Prod.fst := by
    intro e he model hmodel
    have hmem : e ∈ modelDayLog log agentId (some model) (utcDay now) := by
      rw [← hmodels]
      exact List.mem_filter.mpr ⟨he, by simpa using hmodel⟩
    exact List.mem_map_of_mem (f := Prod.fst)
      ((h.mem_modelRows hpast).mpr ⟨List.ne_nil_of_mem hmem, rfl⟩)
  have hsum := sum_by_key (fun e : ℕ × TrackCall U => e.2.model) (fun e => e.2.tokens)
    (modelRows_nodup σ agentId (utcDay now)) hall
  simp only [hmodels] at hsum
  rw [h.daily_read hpast, total_tokens, total_tokens, ← hsum, List.map_map,
    List.map_congr_left hrows]
  rfl

theorem mem_breakdown (h : Tallies σ log) (hpast : ∀ e ∈ log, e.1 ≤ now) {agentId : String}
    {rows : List (String × U × Double)} (hrows : σ.getModelBreakdown agentId now = some rows)
    (model : String) (usd : U) (tokens : Double) :
    (model, usd, tokens) ∈ rows ↔
      modelDayLog log agentId (some model) (utcDay now) ≠ [] ∧
      usd = (total (modelDayLog log agentId (some model) (utcDay now))).1 ∧
      Double.ofInt (total (modelDayLog log agentId (some model) (utcDay now))).2 =
        some tokens := by
  have hmap := mapM_eq_some_iff.mp hrows
  have hmem : (model, usd, tokens) ∈ rows ↔ ∃ count,
      (model, usd, count) ∈ σ.modelRows agentId (utcDay now) ∧
        Double.ofInt count = some tokens := by
    rw [← List.mem_map_of_injective (Option.some_injective _), ← hmap, List.mem_map]
    constructor
    · rintro ⟨⟨name, u, count⟩, hsource, hfloat⟩
      obtain ⟨d, hd, heq⟩ := Option.map_eq_some_iff.mp hfloat
      obtain ⟨rfl, rfl, rfl⟩ := by simpa using heq
      exact ⟨count, hsource, hd⟩
    · rintro ⟨count, hsource, hfloat⟩
      exact ⟨_, hsource, by rw [hfloat]; rfl⟩
  rw [hmem]
  constructor
  · rintro ⟨count, hsource, hfloat⟩
    obtain ⟨hne, heq⟩ := (h.mem_modelRows hpast).mp hsource
    obtain ⟨rfl, rfl⟩ := Prod.mk.inj heq
    exact ⟨hne, rfl, hfloat⟩
  · rintro ⟨hne, rfl, hfloat⟩
    exact ⟨_, (h.mem_modelRows hpast).mpr ⟨hne, rfl⟩, hfloat⟩

/-- A day on which every number of tokens is a float. -/
theorem daily_split (h : Tallies σ log) (hpast : ∀ e ∈ log, e.1 ≤ now)
    (hpos : ∀ e ∈ log, 0 ≤ e.2.tokens) (agentId : String)
    (hsmall : (σ.getAgentDailyUsage agentId (utcDay now)).2 ≤ 2 ^ 53) :
    ∃ rows, σ.getModelBreakdown agentId now = some rows ∧
      (∀ row ∈ rows, row.2.2.magnitude =
        (total (modelDayLog log agentId (some row.1) (utcDay now))).2) ∧
      ((σ.getAgentDailyUsage agentId (utcDay now)).2 : ℚ) =
        (rows.map fun row => row.2.2.magnitude).sum +
          (total (modelDayLog log agentId none (utcDay now))).2 := by
  have hcount : ∀ (p : ℕ × TrackCall U → Bool), 0 ≤ (total (log.filter p)).2 := by
    intro p
    rw [total_tokens]
    refine List.sum_nonneg fun t ht => ?_
    obtain ⟨e, he, rfl⟩ := List.mem_map.mp ht
    exact hpos e (List.mem_filter.mp he).1
  have hrow : ∀ row ∈ σ.modelRows agentId (utcDay now),
      0 ≤ row.2.2 ∧ row.2.2 = (total (modelDayLog log agentId (some row.1) (utcDay now))).2 := by
    rintro ⟨model, usd, tokens⟩ hrow
    have heq : tokens = (total (modelDayLog log agentId (some model) (utcDay now))).2 :=
      congrArg Prod.snd ((h.mem_modelRows hpast).mp hrow).2
    exact ⟨heq ▸ hcount _, heq⟩
  have htokens := h.daily_tokens hpast agentId
  have hrest : 0 ≤ (total (modelDayLog log agentId none (utcDay now))).2 := hcount _
  have hexact : ∀ row ∈ σ.modelRows agentId (utcDay now),
      ∃ d, Double.ofInt row.2.2 = some d ∧ d.magnitude = row.2.2 := by
    intro row hmem
    have hle : row.2.2 ≤ ((σ.modelRows agentId (utcDay now)).map fun row => row.2.2).sum := by
      refine List.single_le_sum ?_ _ (List.mem_map_of_mem hmem)
      intro t ht
      obtain ⟨row', hrow', rfl⟩ := List.mem_map.mp ht
      exact (hrow row' hrow').1
    exact Double.magnitude_ofInt (hrow row hmem).1 (by omega)
  have : Nonempty Double := ⟨Double.zero false⟩
  choose! float hfloat using hexact
  refine ⟨(σ.modelRows agentId (utcDay now)).map fun row => (row.1, row.2.1, float row),
    ?_, ?_, ?_⟩
  · rw [UsageStore.getModelBreakdown, mapM_eq_some_iff, List.map_map]
    refine List.map_congr_left fun row hmem => ?_
    rw [(hfloat row hmem).1]
    rfl
  · intro answer hanswer
    obtain ⟨row, hmem, rfl⟩ := List.mem_map.mp hanswer
    rw [(hfloat row hmem).2, (hrow row hmem).2]
  · have hsum : ((σ.modelRows agentId (utcDay now)).map fun row => (float row).magnitude) =
        (σ.modelRows agentId (utcDay now)).map fun row => ((row.2.2 : ℤ) : ℚ) :=
      List.map_congr_left fun row hmem => (hfloat row hmem).2
    rw [List.map_map]
    change _ = ((σ.modelRows agentId (utcDay now)).map fun row => (float row).magnitude).sum + _
    rw [hsum, htokens, Int.cast_add, Int.cast_list_sum, List.map_map]
    rfl

/-- The counters that can be read. -/
theorem countersExact (h : Tallies σ log) (hpast : ∀ e ∈ log, e.1 ≤ clock)
    (hpos : ∀ e ∈ log, 0 ≤ e.2.tokens) : CountersExact σ log clock where
  session := h.session
  daily agentId _ hnow := h.daily_read (fun e he => (hpast e he).trans hnow) agentId
  breakdown _ _ _ hnow hrows := h.mem_breakdown (fun e he => (hpast e he).trans hnow) hrows
  split agentId _ hnow :=
    h.daily_split (fun e he => (hpast e he).trans hnow) hpos agentId

end Tallies

end AgenticGovernance.Cost

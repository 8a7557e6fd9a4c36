import AgenticGovernance.Cost.Check
import AgenticGovernance.Cost.Counters

/-!
# Cost stores that agree

`PostgresCostStore` keeps a row for each session, for each day of an agent and for each day
of a model.  A `track` is one transaction over the three tables, which fails as a whole when
a value does not fit its column.

As long as every call fits, all answers are those of the in-memory store.  The sums are taken
in the same order, so that this holds of floating-point amounts; only `0 + u = u` is used.
-/

namespace AgenticGovernance.Cost

open Support

/-- The three tables of `PostgresCostStore`.  `startedAt` and `modelDaily` go beyond the
counters of the gate. -/
structure UsageTables (U : Type) extends PostgresStore U where
  startedAt : String × Uuid → Option ℕ
  modelDaily : Keyed (String × String × ℕ) (U × ℤ)

def maxBigint : ℤ := 2 ^ 63 - 1

def maxAgentIdColumn : ℕ := 256

def maxModelColumn : ℕ := 128

variable {U : Type}

/-- The tokens of a row after an upsert. -/
def tokensAfter (row : Option (U × ℤ)) (tokens : ℤ) : ℤ := (row.map Prod.snd).getD 0 + tokens

namespace UsageTables

section

variable [Zero U]

def empty : UsageTables U := ⟨⟨fun _ => none, fun _ => none⟩, fun _ => none, .empty⟩

end

variable (τ : UsageTables U)

def getSessionStartTime (agentId : String) (sessionId : Uuid) : Option ℕ :=
  τ.startedAt (agentId, sessionId)

/-- Every value of the transaction fits its column. -/
structure Fits (now : ℕ) (c : TrackCall U) : Prop where
  agentId : c.agentId.length ≤ maxAgentIdColumn
  model : ∀ model ∈ c.model, model.length ≤ maxModelColumn
  session : tokensAfter (τ.sessionUsage (c.agentId, c.sessionId)) c.tokens ≤ maxBigint
  daily : tokensAfter (τ.agentDaily (c.agentId, utcDay now)) c.tokens ≤ maxBigint
  modelDaily : ∀ model ∈ c.model,
    tokensAfter (τ.modelDaily.get? (c.agentId, model, utcDay now)) c.tokens ≤ maxBigint

instance (now : ℕ) (c : TrackCall U) : Decidable (τ.Fits now c) :=
  decidable_of_iff
    (c.agentId.length ≤ maxAgentIdColumn ∧ (∀ model ∈ c.model, model.length ≤ maxModelColumn) ∧
      tokensAfter (τ.sessionUsage (c.agentId, c.sessionId)) c.tokens ≤ maxBigint ∧
      tokensAfter (τ.agentDaily (c.agentId, utcDay now)) c.tokens ≤ maxBigint ∧
      ∀ model ∈ c.model,
        tokensAfter (τ.modelDaily.get? (c.agentId, model, utcDay now)) c.tokens ≤ maxBigint)
    ⟨fun ⟨h₁, h₂, h₃, h₄, h₅⟩ => ⟨h₁, h₂, h₃, h₄, h₅⟩,
      fun ⟨h₁, h₂, h₃, h₄, h₅⟩ => ⟨h₁, h₂, h₃, h₄, h₅⟩⟩

variable [Zero U] [Add U]

/-- `get_session_and_daily_usage` -/
def getSessionAndDailyUsage (agentId : String) (sessionId : Uuid) (now : ℕ) : U × ℤ × U × ℤ :=
  let session := τ.getSessionUsage agentId sessionId
  let daily := τ.getAgentDailyUsage agentId (utcDay now)
  (session.1, session.2, daily.1, daily.2)

/-- The rows of `get_model_breakdown`. -/
def modelRows (agentId : String) (day : ℕ) : List (String × U × ℤ) :=
  τ.modelDaily.entries.filterMap fun e =>
    if e.1.1 = agentId ∧ e.1.2.2 = day then some (e.1.2.1, e.2.1, e.2.2) else none

/-- `PostgresCostStore.track` at a time; `none` is the `CostError`, which leaves the tables
as they were. -/
def track (now : ℕ) (c : TrackCall U) : Option (UsageTables U) :=
  if τ.Fits now c then
    some
      { toPostgresStore :=
          τ.toPostgresStore.track c.agentId c.sessionId (utcDay now) c.usd c.tokens
        startedAt :=
          match τ.sessionUsage (c.agentId, c.sessionId) with
          | none => Function.update τ.startedAt (c.agentId, c.sessionId) (some now)
          | some _ => τ.startedAt
        modelDaily :=
          match c.model with
          | none => τ.modelDaily
          | some model =>
              τ.modelDaily.upsert (c.agentId, model, utcDay now) (c.usd, c.tokens)
                fun row => (row.1 + c.usd, row.2 + c.tokens) }
  else none

end UsageTables

/-! ## The tables and the log -/

section Tables

variable [AddZeroClass U]

/-- The row that the calls of a log leave behind. -/
def tallied (log : TrackLog U) : Option (U × ℤ) := if log = [] then none else some (total log)

theorem tallied_getD (log : TrackLog U) : (tallied log).getD (0, 0) = total log := by
  rw [tallied]
  split
  · rename_i hnil
    rw [hnil]
    rfl
  · rfl

theorem total_concat (log : TrackLog U) (now : ℕ) (c : TrackCall U) :
    total (log ++ [(now, c)]) = addCall (total log) c := by
  rw [total, List.foldl_append]
  rfl

/-- `INSERT … ON CONFLICT DO UPDATE` adds a call to its row. -/
theorem tallied_concat (log : TrackLog U) (now : ℕ) (c : TrackCall U) :
    tallied (log ++ [(now, c)]) =
      some (match tallied log with
        | none => (c.usd, c.tokens)
        | some (usdUsed, tokensUsed) => (usdUsed + c.usd, tokensUsed + c.tokens)) := by
  rw [tallied, if_neg (by simp), total_concat]
  by_cases hlog : log = []
  · subst hlog
    simp [tallied, total, addCall]
  · rw [tallied, if_neg hlog]
    rfl

/-- An upsert adds a call to the row of its key and leaves the others. -/
theorem upsert_tallied {κ : Type*} [DecidableEq κ] {table : κ → Option (U × ℤ)}
    {f : TrackLog U → κ → TrackLog U} {log : TrackLog U} {now : ℕ} {c : TrackCall U} {key : κ}
    (h : ∀ k, table k = tallied (f log k))
    (hself : f (log ++ [(now, c)]) key = f log key ++ [(now, c)])
    (hother : ∀ k, k ≠ key → f (log ++ [(now, c)]) k = f log k) (k : κ) :
    PostgresStore.upsert table key c.usd c.tokens k = tallied (f (log ++ [(now, c)]) k) := by
  by_cases hk : k = key
  · subst hk
    have hrow := tallied_concat (f log k) now c
    rcases htable : tallied (f log k) with - | row
    · rw [htable] at hrow
      simp [PostgresStore.upsert, h, hself, htable, hrow]
    · rw [htable] at hrow
      simp [PostgresStore.upsert, h, hself, htable, hrow]
  · rw [PostgresStore.upsert, Function.update_of_ne hk, h, hother k hk]

/-- Every row is what the log adds up to for it. -/
structure TablesTally (τ : UsageTables U) (log : TrackLog U) : Prop where
  session : ∀ key : String × Uuid, τ.sessionUsage key = tallied (sessionLog log key.1 key.2)
  started : ∀ key : String × Uuid,
    τ.startedAt key = (sessionLog log key.1 key.2).head?.map Prod.fst
  daily : ∀ key : String × ℕ, τ.agentDaily key = tallied (dayLog log key.1 key.2)
  model : ∀ key : String × String × ℕ,
    τ.modelDaily.get? key = tallied (modelDayLog log key.1 (some key.2.1) key.2.2)

theorem tablesTally_empty : TablesTally (UsageTables.empty : UsageTables U) [] :=
  ⟨fun _ => rfl, fun _ => rfl, fun _ => rfl, fun _ => rfl⟩

section Concat

omit [AddZeroClass U]

theorem dayLog_concat_self (log : TrackLog U) (now : ℕ) (c : TrackCall U) :
    dayLog (log ++ [(now, c)]) c.agentId (utcDay now) =
      dayLog log c.agentId (utcDay now) ++ [(now, c)] := by
  simp [dayLog, List.filter_append]

theorem dayLog_concat_of_ne {c : TrackCall U} {now : ℕ} {key : String × ℕ}
    (hne : key ≠ (c.agentId, utcDay now)) (log : TrackLog U) :
    dayLog (log ++ [(now, c)]) key.1 key.2 = dayLog log key.1 key.2 := by
  have hkey : ¬(c.agentId = key.1 ∧ utcDay now = key.2) := by
    intro heq
    exact hne (Prod.ext heq.1.symm heq.2.symm)
  rw [dayLog, List.filter_append, List.filter_cons_of_neg (by simpa using hkey),
    List.filter_nil, List.append_nil, dayLog]

theorem modelDayLog_concat_self {c : TrackCall U} {model : String} (hmodel : c.model = some model)
    (log : TrackLog U) (now : ℕ) :
    modelDayLog (log ++ [(now, c)]) c.agentId (some model) (utcDay now) =
      modelDayLog log c.agentId (some model) (utcDay now) ++ [(now, c)] := by
  simp [modelDayLog, List.filter_append, hmodel]

theorem modelDayLog_concat_of_ne {c : TrackCall U} {now : ℕ} {key : String × String × ℕ}
    (hne : ∀ model, c.model = some model → key ≠ (c.agentId, model, utcDay now))
    (log : TrackLog U) :
    modelDayLog (log ++ [(now, c)]) key.1 (some key.2.1) key.2.2 =
      modelDayLog log key.1 (some key.2.1) key.2.2 := by
  have hkey : ¬((c.agentId = key.1 ∧ c.model = some key.2.1) ∧ utcDay now = key.2.2) := by
    intro heq
    apply hne _ heq.1.2
    rw [heq.1.1, heq.2]
  rw [modelDayLog, List.filter_append, List.filter_cons_of_neg (by simpa using hkey),
    List.filter_nil, List.append_nil, modelDayLog]

end Concat

namespace TablesTally

variable {τ τ' : UsageTables U} {log : TrackLog U} {now : ℕ} {c : TrackCall U}

theorem started_track (h : TablesTally τ log) (key : String × Uuid) :
    (match τ.sessionUsage (c.agentId, c.sessionId) with
      | none => Function.update τ.startedAt (c.agentId, c.sessionId) (some now)
      | some _ => τ.startedAt) key =
      (sessionLog (log ++ [(now, c)]) key.1 key.2).head?.map Prod.fst := by
  rw [h.session, tallied]
  by_cases hkey : key = (c.agentId, c.sessionId)
  · subst hkey
    rw [sessionLog_concat_self, List.head?_append]
    rcases hlog : sessionLog log c.agentId c.sessionId with - | ⟨e, rest⟩
    · simp
    · have hold := h.started (c.agentId, c.sessionId)
      rw [hlog] at hold
      simpa using hold
  · rw [sessionLog_concat_of_ne hkey, ← h.started]
    split
    · simp [hkey]
    · rfl

theorem model_track (h : TablesTally τ log) (key : String × String × ℕ) :
    (match c.model with
      | none => τ.modelDaily
      | some model =>
          τ.modelDaily.upsert (c.agentId, model, utcDay now) (c.usd, c.tokens)
            fun row => (row.1 + c.usd, row.2 + c.tokens)).get? key =
      tallied (modelDayLog (log ++ [(now, c)]) key.1 (some key.2.1) key.2.2) := by
  rcases hmodel : c.model with - | model
  · rw [modelDayLog_concat_of_ne (by simp [hmodel])]
    exact h.model key
  · by_cases hkey : key = (c.agentId, model, utcDay now)
    · subst hkey
      rw [Keyed.get?_upsert_self, h.model, modelDayLog_concat_self hmodel, tallied_concat]
      dsimp only
      rcases tallied (modelDayLog log c.agentId (some model) (utcDay now)) with - | row
      · rfl
      · rfl
    · rw [Keyed.get?_upsert_of_ne hkey, h.model, modelDayLog_concat_of_ne]
      intro model' hmodel'
      rw [hmodel] at hmodel'
      rw [← Option.some.inj hmodel']
      exact hkey

/-- One transaction. -/
theorem track (h : TablesTally τ log) (htrack : τ.track now c = some τ') :
    TablesTally τ' (log ++ [(now, c)]) := by
  rw [UsageTables.track] at htrack
  split at htrack
  · rw [← Option.some.inj htrack]
    refine ⟨?_, h.started_track, ?_, h.model_track⟩
    · exact upsert_tallied (f := fun log key => sessionLog log key.1 key.2) h.session
        (sessionLog_concat_self log now c) fun key hkey => sessionLog_concat_of_ne hkey log now
    · exact upsert_tallied (f := fun log key => dayLog log key.1 key.2) h.daily
        (dayLog_concat_self log now c) fun key hkey => dayLog_concat_of_ne hkey log
  · simp at htrack

theorem mem_modelRows (h : TablesTally τ log) {agentId model : String} {day : ℕ} {usd : U}
    {tokens : ℤ} :
    (model, usd, tokens) ∈ τ.modelRows agentId day ↔
      modelDayLog log agentId (some model) day ≠ [] ∧
        (usd, tokens) = total (modelDayLog log agentId (some model) day) := by
  have hentry : (model, usd, tokens) ∈ τ.modelRows agentId day ↔
      τ.modelDaily.get? (agentId, model, day) = some (usd, tokens) := by
    rw [← Keyed.mem_entries_iff, UsageTables.modelRows, List.mem_filterMap]
    constructor
    · intro hrow
      obtain ⟨⟨⟨agent, name, day'⟩, row⟩, he, hrow⟩ := hrow
      simp only [Option.ite_none_right_eq_some, Option.some.injEq, Prod.mk.injEq] at hrow
      obtain ⟨⟨rfl, rfl⟩, rfl, rfl, rfl⟩ := hrow
      exact he
    · intro he
      exact ⟨_, he, by simp⟩
  rw [hentry, h.model, tallied]
  by_cases hlog : modelDayLog log agentId (some model) day = []
  · simp [hlog]
  · rw [if_neg hlog, Option.some.injEq, eq_comm]
    simp [hlog]

end TablesTally

end Tables

/-! ## What the gate reads -/

section Gate

variable [AddZeroClass U]

/-- The in-memory store after the calls of a log. -/
def memoryAfter (log : TrackLog U) : UsageStore U :=
  log.foldl (fun σ e => σ.track e.1 e.2) .empty

/-- The tables after the calls of a log; `none` if one of them raised. -/
def tablesAfter (log : TrackLog U) : Option (UsageTables U) :=
  log.foldlM (fun τ e => τ.track e.1 e.2) .empty

/-- Seconds, for a time in microseconds. -/
def seconds (micros : ℕ) : ℚ := micros / 1000000

/-- The read methods of `InMemoryCostStore` for a session.  It has neither the combined read
nor the elapsed time. -/
def UsageStore.reads (σ : UsageStore U) (agentId : String) (sessionId : Uuid) (now : ℕ) :
    StoreReads U where
  sessionAndDailyUsage := none
  sessionUsage := .ok (σ.getSessionUsage agentId sessionId)
  agentDailyUsage := .ok (σ.getAgentDailyUsage agentId (utcDay now))
  sessionElapsedSeconds := none
  sessionStartTime := .ok ((σ.getSessionStartTime agentId sessionId).map seconds)
  now := seconds now

/-- `EXTRACT(EPOCH FROM NOW() - started_at)` -/
def UsageTables.getSessionElapsedSeconds (τ : UsageTables U) (agentId : String)
    (sessionId : Uuid) (now : ℕ) : Option ℚ :=
  (τ.startedAt (agentId, sessionId)).map fun t => seconds now - seconds t

/-- The read methods of `PostgresCostStore`. -/
def UsageTables.reads (τ : UsageTables U) (agentId : String) (sessionId : Uuid) (now : ℕ) :
    StoreReads U where
  sessionAndDailyUsage := some (.ok (τ.getSessionAndDailyUsage agentId sessionId now))
  sessionUsage := .ok (τ.getSessionUsage agentId sessionId)
  agentDailyUsage := .ok (τ.getAgentDailyUsage agentId (utcDay now))
  sessionElapsedSeconds := some (.ok (τ.getSessionElapsedSeconds agentId sessionId now))
  sessionStartTime := .ok ((τ.getSessionStartTime agentId sessionId).map seconds)
  now := seconds now

variable {log : TrackLog U} {now : ℕ}

theorem memoryAfter_concat (log : TrackLog U) (e : ℕ × TrackCall U) :
    memoryAfter (log ++ [e]) = (memoryAfter log).track e.1 e.2 := by
  rw [memoryAfter, List.foldl_append]
  rfl

theorem tablesAfter_concat (log : TrackLog U) (e : ℕ × TrackCall U) :
    tablesAfter (log ++ [e]) = (tablesAfter log).bind fun τ => τ.track e.1 e.2 := by
  rw [tablesAfter, List.foldlM_append]
  simp only [List.foldlM_cons, List.foldlM_nil, bind_pure]
  rfl

theorem tallies_memoryAfter (hclock : log.Pairwise fun e f => e.1 ≤ f.1) :
    Tallies (memoryAfter log) log := by
  induction log using List.reverseRecOn with
  | nil => exact tallies_empty
  | append_singleton log e ih =>
      obtain ⟨hlog, -, hpast⟩ := List.pairwise_append.mp hclock
      rw [memoryAfter_concat]
      exact (ih hlog).track (fun f hf => hpast f hf e (List.mem_singleton_self e)) e.2

theorem tablesTally_tablesAfter {τ : UsageTables U} (h : tablesAfter log = some τ) :
    TablesTally τ log := by
  induction log using List.reverseRecOn generalizing τ with
  | nil =>
      rw [← Option.some.inj h]
      exact tablesTally_empty
  | append_singleton log e ih =>
      rw [tablesAfter_concat] at h
      obtain ⟨τ₀, hbefore, htrack⟩ := Option.bind_eq_some_iff.mp h
      exact (ih hbefore).track htrack

section Agree

variable {σ : UsageStore U} {τ : UsageTables U} (hσ : Tallies σ log) (hτ : TablesTally τ log)
include hσ hτ

theorem sessionUsage_agree (agentId : String) (sessionId : Uuid) :
    τ.getSessionUsage agentId sessionId = σ.getSessionUsage agentId sessionId := by
  rw [PostgresStore.getSessionUsage, hτ.session, tallied_getD, hσ.session]

theorem sessionStartTime_agree (agentId : String) (sessionId : Uuid) :
    τ.getSessionStartTime agentId sessionId = σ.getSessionStartTime agentId sessionId := by
  rw [UsageTables.getSessionStartTime, hτ.started, hσ.started]

theorem dailyUsage_agree (hpast : ∀ e ∈ log, e.1 ≤ now) (agentId : String) :
    τ.getAgentDailyUsage agentId (utcDay now) = σ.getAgentDailyUsage agentId (utcDay now) := by
  rw [PostgresStore.getAgentDailyUsage, hτ.daily, tallied_getD, hσ.daily_read hpast]

theorem modelRows_agree (hpast : ∀ e ∈ log, e.1 ≤ now) (agentId : String)
    (row : String × U × ℤ) :
    row ∈ τ.modelRows agentId (utcDay now) ↔ row ∈ σ.modelRows agentId (utcDay now) := by
  obtain ⟨model, usd, tokens⟩ := row
  rw [hτ.mem_modelRows, hσ.mem_modelRows hpast]

end Agree

section Decision

variable [LT U] [DecidableLT U]

omit [AddZeroClass U] in
/-- The gate decides by the counters and the age of the session, however it reads them. -/
theorem checkOrRaise_congr {failOpen : Bool} {halted : Option Bool}
    {policy : Option (BudgetPolicy U)} {projectedTokens : Option ℤ} {s t : StoreReads U}
    (husage : (readUsage s).1 = (readUsage t).1)
    (helapsed : (readElapsed s).1 = (readElapsed t).1) :
    (checkOrRaise failOpen halted policy s projectedTokens).outcome =
        (checkOrRaise failOpen halted policy t projectedTokens).outcome ∧
      (checkOrRaise failOpen halted policy s projectedTokens).events =
        (checkOrRaise failOpen halted policy t projectedTokens).events := by
  unfold checkOrRaise
  by_cases hhalted : halted = some true
  · simp [hhalted]
  · rw [if_neg hhalted, if_neg hhalted]
    rcases policy with - | policy
    · exact ⟨rfl, rfl⟩
    · dsimp only
      rcases hs : readUsage s with ⟨e | u, reads⟩
      · rcases ht : readUsage t with ⟨e' | u', reads'⟩
        · rw [hs, ht] at husage
          rw [Except.error.inj husage]
          exact ⟨rfl, rfl⟩
        · simp [hs, ht] at husage
      · rcases ht : readUsage t with ⟨e' | u', reads'⟩
        · simp [hs, ht] at husage
        · rw [hs, ht] at husage
          rw [Except.ok.inj husage]
          dsimp only
          rcases breach policy u' projectedTokens with - | b
          · dsimp only
            unfold checkSeconds
            rcases policy.perSessionSeconds with - | limit
            · exact ⟨rfl, rfl⟩
            · dsimp only
              rcases hes : readElapsed s with ⟨- | elapsed, more⟩
              · rcases het : readElapsed t with ⟨- | elapsed', more'⟩
                · exact ⟨rfl, rfl⟩
                · simp [hes, het] at helapsed
              · rcases het : readElapsed t with ⟨- | elapsed', more'⟩
                · simp [hes, het] at helapsed
                · rw [hes, het] at helapsed
                  rw [Option.some.inj helapsed]
                  dsimp only
                  split
                  · exact ⟨rfl, rfl⟩
                  · exact ⟨rfl, rfl⟩
          · exact ⟨rfl, rfl⟩

end Decision

end Gate

/-- After any calls on a clock that does not go back, all of which Postgres accepted, the two
cost stores answer alike at the current time or later, and the budget gate decides the same
on both and logs the same. -/
theorem usage_stores_agree [AddZeroClass U] [LT U] [DecidableLT U] (log : TrackLog U)
    (hclock : log.Pairwise fun e f => e.1 ≤ f.1) {τ : UsageTables U}
    (haccepted : tablesAfter log = some τ) {now : ℕ} (hpast : ∀ e ∈ log, e.1 ≤ now)
    (agentId : String) (sessionId : Uuid) :
    τ.getSessionUsage agentId sessionId = (memoryAfter log).getSessionUsage agentId sessionId ∧
    τ.getAgentDailyUsage agentId (utcDay now) =
      (memoryAfter log).getAgentDailyUsage agentId (utcDay now) ∧
    τ.getSessionStartTime agentId sessionId =
      (memoryAfter log).getSessionStartTime agentId sessionId ∧
    (∀ row, row ∈ τ.modelRows agentId (utcDay now) ↔
      row ∈ (memoryAfter log).modelRows agentId (utcDay now)) ∧
    ∀ failOpen halted policy projectedTokens,
      (checkOrRaise failOpen halted policy (τ.reads agentId sessionId now)
          projectedTokens).outcome =
        (checkOrRaise failOpen halted policy ((memoryAfter log).reads agentId sessionId now)
          projectedTokens).outcome ∧
      (checkOrRaise failOpen halted policy (τ.reads agentId sessionId now)
          projectedTokens).events =
        (checkOrRaise failOpen halted policy ((memoryAfter log).reads agentId sessionId now)
          projectedTokens).events := by
  have hσ := tallies_memoryAfter hclock
  have hτ := tablesTally_tablesAfter haccepted
  have hsession := sessionUsage_agree hσ hτ agentId sessionId
  have hdaily := dailyUsage_agree hσ hτ hpast agentId
  have hstart := sessionStartTime_agree hσ hτ agentId sessionId
  refine ⟨hsession, hdaily, hstart, modelRows_agree hσ hτ hpast agentId, ?_⟩
  intro failOpen halted policy projectedTokens
  apply checkOrRaise_congr
  · simp only [readUsage, UsageTables.reads, UsageStore.reads,
      UsageTables.getSessionAndDailyUsage, hsession, hdaily]
  · rw [UsageTables.getSessionStartTime] at hstart
    simp only [readElapsed, UsageTables.reads, UsageStore.reads,
      UsageTables.getSessionElapsedSeconds, hstart, Option.map_map]
    rfl

/-! ### Two calls across midnight -/

/-- A call before midnight and one after it. -/
def midnightLog : TrackLog ℕ :=
  [(microsecondsPerDay - 1, ⟨"agent-a", ⟨100⟩, 7, 2, some "gpt-4o"⟩),
   (microsecondsPerDay, ⟨"agent-a", ⟨100⟩, 5, 1, none⟩)]

/-- The row that was read is that of the second day. -/
theorem midnight_stores_agree :
    ∃ τ, tablesAfter midnightLog = some τ ∧
      τ.getAgentDailyUsage "agent-a" (utcDay microsecondsPerDay) = (1, 5) ∧
      (memoryAfter midnightLog).getAgentDailyUsage "agent-a" (utcDay microsecondsPerDay) =
        (1, 5) := by
  obtain ⟨τ, haccepted⟩ : ∃ τ, tablesAfter midnightLog = some τ := by
    rw [← Option.isSome_iff_exists]
    decide
  have hpast : ∀ e ∈ midnightLog, e.1 ≤ microsecondsPerDay := by decide
  have h := usage_stores_agree midnightLog (by decide) haccepted hpast "agent-a" ⟨100⟩
  have hmemory : (memoryAfter midnightLog).getAgentDailyUsage "agent-a"
      (utcDay microsecondsPerDay) = (1, 5) := by decide
  exact ⟨τ, haccepted, h.2.1.trans hmemory, hmemory⟩

end AgenticGovernance.Cost

import Mathlib
import AgenticGovernance.Support.Stamp

/-!
# Usage counters

Two cost stores keep the counters of an agent: usage per session, and usage per
UTC day.  `InMemoryCostStore` keeps one daily entry for each agent and starts it
again on the first `track` of a later day; `PostgresCostStore` keeps one row for
each day.  In both, an operation fixes its day before it touches the counter, so
that day can be past when the counter is read or written.

`Backend` collects what the budget gate relies on, and both stores are shown to
provide it.
-/

namespace AgenticGovernance.Cost

open Support

variable {U : Type} [Zero U] [Add U]

/-! ## The in-memory store -/

/-- An absent entry of a dictionary is `none`.  Days are counted from some
fixed date. -/
structure MemoryStore (U : Type) where
  sessionUsage : String × Uuid → Option (U × ℤ)
  agentDaily : String → Option (U × ℤ × ℕ)

namespace MemoryStore

def empty : MemoryStore U := ⟨fun _ => none, fun _ => none⟩

def getSessionUsage (σ : MemoryStore U) (agent : String) (session : Uuid) : U × ℤ :=
  (σ.sessionUsage (agent, session)).getD (0, 0)

/-- `get_agent_daily_usage` once it holds the lock, having computed `day`. -/
def getAgentDailyUsage (σ : MemoryStore U) (agent : String) (day : ℕ) : U × ℤ :=
  let (usd, tok, entryDay) := (σ.agentDaily agent).getD (0, 0, day)
  if entryDay < day then (0, 0) else (usd, tok)

/-- The daily entry after `track` on `day`. -/
def bumpDaily (entry : Option (U × ℤ × ℕ)) (day : ℕ) (usd : U) (tokens : ℤ) :
    U × ℤ × ℕ :=
  let (dUsd, dTok, dDay) := entry.getD (0, 0, day)
  if dDay < day then (0 + usd, 0 + tokens, day)
  else (dUsd + usd, dTok + tokens, dDay)

/-- `track` once it holds the lock, having computed `day`. -/
def track (σ : MemoryStore U) (agent : String) (session : Uuid) (day : ℕ) (usd : U)
    (tokens : ℤ) : MemoryStore U where
  sessionUsage :=
    let (curUsd, curTok) := σ.getSessionUsage agent session
    Function.update σ.sessionUsage (agent, session) (some (curUsd + usd, curTok + tokens))
  agentDaily :=
    Function.update σ.agentDaily agent
      (some (bumpDaily (σ.agentDaily agent) day usd tokens))

end MemoryStore

/-! ## The Postgres store -/

/-- The rows of `governance_cost_session_usage` and `governance_cost_agent_daily`
by their primary keys. -/
structure PostgresStore (U : Type) where
  sessionUsage : String × Uuid → Option (U × ℤ)
  agentDaily : String × ℕ → Option (U × ℤ)

namespace PostgresStore

def empty : PostgresStore U := ⟨fun _ => none, fun _ => none⟩

def getSessionUsage (σ : PostgresStore U) (agent : String) (session : Uuid) : U × ℤ :=
  (σ.sessionUsage (agent, session)).getD (0, 0)

def getAgentDailyUsage (σ : PostgresStore U) (agent : String) (day : ℕ) : U × ℤ :=
  (σ.agentDaily (agent, day)).getD (0, 0)

/-- `INSERT ... ON CONFLICT DO UPDATE SET col = col + EXCLUDED.col` -/
def upsert {κ : Type*} [DecidableEq κ] (table : κ → Option (U × ℤ)) (key : κ)
    (usd : U) (tokens : ℤ) : κ → Option (U × ℤ) :=
  Function.update table key
    (some (match table key with
      | none => (usd, tokens)
      | some (usdUsed, tokensUsed) => (usdUsed + usd, tokensUsed + tokens)))

/-- The transaction of `track`; `day` is the date of its `NOW()`. -/
def track (σ : PostgresStore U) (agent : String) (session : Uuid) (day : ℕ) (usd : U)
    (tokens : ℤ) : PostgresStore U where
  sessionUsage := upsert σ.sessionUsage (agent, session) usd tokens
  agentDaily := upsert σ.agentDaily (agent, day) usd tokens

end PostgresStore

/-! ## What the gate relies on -/

/-- A store of usage counters.  `Ok σ today` is the invariant of its states when
the current day is `today`. -/
structure Backend (U : Type) where
  State : Type
  /-- the store has `get_session_and_daily_usage` -/
  combined : Bool
  empty : State
  session : State → String → Uuid → U × ℤ
  daily : State → String → ℕ → U × ℤ
  track : State → String → Uuid → ℕ → U → ℤ → State
  Ok : State → ℕ → Prop
  ok_empty : ∀ today, Ok empty today
  ok_track : ∀ {σ agent sid day usd tokens today}, Ok σ today → day ≤ today →
    0 ≤ tokens → Ok (track σ agent sid day usd tokens) today
  ok_tick : ∀ {σ today}, Ok σ today → Ok σ (today + 1)
  session_empty : ∀ agent sid, (session empty agent sid).2 = 0
  session_track : ∀ σ agent sid day usd tokens agent' sid',
    (session (track σ agent sid day usd tokens) agent' sid').2 =
      (session σ agent' sid').2 + if agent' = agent ∧ sid' = sid then tokens else 0
  daily_empty : ∀ agent day, (daily empty agent day).2 = 0
  daily_nonneg : ∀ {σ today agent day}, Ok σ today → 0 ≤ (daily σ agent day).2
  daily_tick : ∀ {σ today agent}, Ok σ today → (daily σ agent (today + 1)).2 = 0
  /-- a late `track` may miss the current day, never count twice on it -/
  daily_track : ∀ {σ today day tokens} agent sid usd agent', Ok σ today →
    day ≤ today → 0 ≤ tokens →
    (daily (track σ agent sid day usd tokens) agent' today).2 ≤
      (daily σ agent' today).2 + if agent' = agent then tokens else 0

namespace MemoryStore

/-- Daily entries are not negative and not from the future. -/
def Ok (σ : MemoryStore U) (today : ℕ) : Prop :=
  ∀ agent usd tok day, σ.agentDaily agent = some (usd, tok, day) →
    0 ≤ tok ∧ day ≤ today

theorem bumpDaily_tokens {entry : Option (U × ℤ × ℕ)} {day today : ℕ} (usd : U)
    {tokens : ℤ} (hentry : ∀ u t d, entry = some (u, t, d) → 0 ≤ t ∧ d ≤ today)
    (hday : day ≤ today) (htokens : 0 ≤ tokens) :
    0 ≤ (bumpDaily entry day usd tokens).2.1 ∧
      (bumpDaily entry day usd tokens).2.2 ≤ today := by
  rcases entry with - | ⟨u, t, d⟩
  · simp [bumpDaily, htokens, hday]
  · obtain ⟨ht, hd⟩ := hentry u t d rfl
    by_cases hlt : d < day
    · simp [bumpDaily, hlt, htokens, hday]
    · simp only [bumpDaily, Option.getD_some, hlt, if_false]
      exact ⟨by omega, hd⟩

theorem ok_track {σ : MemoryStore U} {agent : String} {sid : Uuid} {day : ℕ}
    {usd : U} {tokens : ℤ} {today : ℕ} (h : σ.Ok today) (hday : day ≤ today)
    (htokens : 0 ≤ tokens) : (σ.track agent sid day usd tokens).Ok today := by
  intro agent' usd' tok' day' hentry
  by_cases hagent : agent' = agent
  · subst hagent
    have hsome : bumpDaily (σ.agentDaily agent') day usd tokens = (usd', tok', day') := by
      simpa [track] using hentry
    have hbump := bumpDaily_tokens usd (h agent') hday htokens
    rw [hsome] at hbump
    exact hbump
  · have hsame : σ.agentDaily agent' = some (usd', tok', day') := by
      simpa [track, Function.update_of_ne hagent] using hentry
    exact h agent' usd' tok' day' hsame

theorem session_track {σ : MemoryStore U} {agent : String} {sid : Uuid} {day : ℕ}
    {usd : U} {tokens : ℤ} {agent' : String} {sid' : Uuid} :
    ((σ.track agent sid day usd tokens).getSessionUsage agent' sid').2 =
      (σ.getSessionUsage agent' sid').2 +
        if agent' = agent ∧ sid' = sid then tokens else 0 := by
  by_cases hkey : agent' = agent ∧ sid' = sid
  · obtain ⟨rfl, rfl⟩ := hkey
    simp [track, getSessionUsage]
  · have hne : (agent', sid') ≠ (agent, sid) := by simpa using hkey
    simp [track, getSessionUsage, hne, hkey]

theorem daily_track {σ : MemoryStore U} {agent : String} {sid : Uuid} {day : ℕ}
    {usd : U} {tokens : ℤ} {agent' : String} {today : ℕ} (h : σ.Ok today)
    (hday : day ≤ today) (htokens : 0 ≤ tokens) :
    ((σ.track agent sid day usd tokens).getAgentDailyUsage agent' today).2 ≤
      (σ.getAgentDailyUsage agent' today).2 +
        if agent' = agent then tokens else 0 := by
  by_cases hagent : agent' = agent
  · subst hagent
    have hnew : (σ.track agent' sid day usd tokens).agentDaily agent' =
        some (bumpDaily (σ.agentDaily agent') day usd tokens) := by
      simp [track]
    rw [getAgentDailyUsage, getAgentDailyUsage, hnew, if_pos rfl]
    rcases hentry : σ.agentDaily agent' with - | ⟨u, t, d⟩
    · by_cases hlt : day < today
      · simp [bumpDaily, hlt, htokens]
      · simp [bumpDaily, hlt]
    · obtain ⟨ht, hd⟩ := h agent' u t d hentry
      by_cases hlt : d < day
      · have hd' : d < today := by omega
        by_cases hlt' : day < today
        · simp [bumpDaily, hlt, hlt', hd', htokens]
        · simp [bumpDaily, hlt, hlt', hd']
      · by_cases hd' : d < today
        · simp [bumpDaily, hlt, hd', htokens]
        · simp [bumpDaily, hlt, hd']
  · rw [if_neg hagent]
    simp [track, getAgentDailyUsage, Function.update_of_ne hagent]

/-- `InMemoryCostStore` -/
def backend : Backend U where
  State := MemoryStore U
  combined := false
  empty := empty
  session := getSessionUsage
  daily := getAgentDailyUsage
  track := track
  Ok := Ok
  ok_empty := by
    rintro today agent usd tok day ⟨⟩
  ok_track := ok_track
  ok_tick := by
    intro σ today h agent usd tok day hentry
    obtain ⟨htok, hday⟩ := h agent usd tok day hentry
    exact ⟨htok, by omega⟩
  session_empty := fun _ _ => rfl
  daily_empty := fun _ _ => by simp [getAgentDailyUsage, empty]
  session_track := fun _ _ _ _ _ _ _ _ => session_track
  daily_nonneg := by
    intro σ today agent day h
    rcases hentry : σ.agentDaily agent with - | ⟨u, t, d⟩
    · simp [getAgentDailyUsage, hentry]
    · have ht := (h agent u t d hentry).1
      by_cases hlt : d < day
      · simp [getAgentDailyUsage, hentry, hlt]
      · simp [getAgentDailyUsage, hentry, hlt, ht]
  daily_tick := by
    intro σ today agent h
    rcases hentry : σ.agentDaily agent with - | ⟨u, t, d⟩
    · simp [getAgentDailyUsage, hentry]
    · have hd := (h agent u t d hentry).2
      simp [getAgentDailyUsage, hentry, Nat.lt_succ_of_le hd]
  daily_track := fun _ _ _ _ => daily_track

end MemoryStore

namespace PostgresStore

/-- Daily rows are not negative and none is from the future. -/
def Ok (σ : PostgresStore U) (today : ℕ) : Prop :=
  ∀ agent day usd tok, σ.agentDaily (agent, day) = some (usd, tok) →
    0 ≤ tok ∧ day ≤ today

theorem upsert_tokens {κ : Type*} [DecidableEq κ] (table : κ → Option (U × ℤ))
    (key key' : κ) (usd : U) (tokens : ℤ) :
    ((upsert table key usd tokens key').getD (0, 0)).2 =
      ((table key').getD (0, 0)).2 + if key' = key then tokens else 0 := by
  by_cases hkey : key' = key
  · subst hkey
    rcases hrow : table key' with - | ⟨u, t⟩ <;> simp [upsert, hrow]
  · simp [upsert, hkey]

theorem ok_track {σ : PostgresStore U} {agent : String} {sid : Uuid} {day : ℕ}
    {usd : U} {tokens : ℤ} {today : ℕ} (h : σ.Ok today) (hday : day ≤ today)
    (htokens : 0 ≤ tokens) : (σ.track agent sid day usd tokens).Ok today := by
  intro agent' day' usd' tok' hrow
  by_cases hkey : (agent', day') = (agent, day)
  · cases hkey
    refine ⟨?_, hday⟩
    have htok := upsert_tokens σ.agentDaily (agent, day) (agent, day) usd tokens
    rw [show upsert σ.agentDaily (agent, day) usd tokens (agent, day) =
      some (usd', tok') from hrow] at htok
    rcases hold : σ.agentDaily (agent, day) with - | ⟨u, t⟩
    · simp [hold] at htok
      omega
    · have ht := (h agent day u t hold).1
      simp [hold] at htok
      omega
  · have hsame : σ.agentDaily (agent', day') = some (usd', tok') := by
      simpa [track, upsert, Function.update_of_ne hkey] using hrow
    exact h agent' day' usd' tok' hsame

/-- `PostgresCostStore` -/
def backend : Backend U where
  State := PostgresStore U
  combined := true
  empty := empty
  session := getSessionUsage
  daily := getAgentDailyUsage
  track := track
  Ok := Ok
  ok_empty := by
    rintro today agent day usd tok ⟨⟩
  ok_track := ok_track
  ok_tick := by
    intro σ today h agent day usd tok hrow
    obtain ⟨htok, hday⟩ := h agent day usd tok hrow
    exact ⟨htok, by omega⟩
  session_empty := fun _ _ => rfl
  daily_empty := fun _ _ => rfl
  session_track := by
    intro σ agent sid day usd tokens agent' sid'
    simpa [getSessionUsage, track] using
      upsert_tokens σ.sessionUsage (agent, sid) (agent', sid') usd tokens
  daily_nonneg := by
    intro σ today agent day h
    rcases hrow : σ.agentDaily (agent, day) with - | ⟨u, t⟩
    · simp [getAgentDailyUsage, hrow]
    · simpa [getAgentDailyUsage, hrow] using (h agent day u t hrow).1
  daily_tick := by
    intro σ today agent h
    rcases hrow : σ.agentDaily (agent, today + 1) with - | ⟨u, t⟩
    · simp [getAgentDailyUsage, hrow]
    · have hday := (h agent (today + 1) u t hrow).2
      omega
  daily_track := by
    intro σ today day tokens agent sid usd agent' h hday htokens
    refine le_of_eq_of_le (upsert_tokens ..) ?_
    by_cases hagent : agent' = agent
    · by_cases hd : today = day
      · simp [getAgentDailyUsage, hagent, hd]
      · simp [getAgentDailyUsage, hagent, hd, htokens]
    · simp [getAgentDailyUsage, hagent]

end PostgresStore

inductive StoreKind where
  | inMemory
  | postgres
  deriving DecidableEq, Repr

def StoreKind.backend : StoreKind → Backend U
  | inMemory => MemoryStore.backend
  | postgres => PostgresStore.backend

end AgenticGovernance.Cost

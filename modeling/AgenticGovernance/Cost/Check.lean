import Mathlib

/-!
# The budget gate

`CostModule.check_or_raise` evaluates up to five caps over two groups of store
reads.  The usage read comes first and covers the four USD and token caps; the
session-time read is made only if a time cap is configured and no other cap is
breached.  Each group has its own exception handler, and they differ.

USD amounts are a type with a decidable order: the gate only compares them.
-/

namespace AgenticGovernance.Cost

def maxTokenCap : ℕ := 1000000000

def maxSessionSeconds : ℕ := 86400

inductive Cap where
  | perSessionUsd
  | perSessionTokens
  | perAgentUsdDaily
  | perAgentTokensDaily
  | perSessionSeconds
  deriving DecidableEq, Repr

/-- The caps of a policy; `none` is no limit. -/
structure PolicyCaps (U : Type) where
  perSessionUsd : Option U
  perSessionTokens : Option ℕ
  perAgentUsdDaily : Option U
  perAgentTokensDaily : Option ℕ
  perSessionSeconds : Option ℕ

/-- The policy sets the given cap. -/
def PolicyCaps.Sets {U : Type} (p : PolicyCaps U) : Cap → Prop
  | .perSessionUsd => p.perSessionUsd ≠ none
  | .perSessionTokens => p.perSessionTokens ≠ none
  | .perAgentUsdDaily => p.perAgentUsdDaily ≠ none
  | .perAgentTokensDaily => p.perAgentTokensDaily ≠ none
  | .perSessionSeconds => p.perSessionSeconds ≠ none

theorem le_of_unset (bound : ℕ) : ∀ n, none = some n → n ≤ bound := by
  rintro n ⟨⟩

/-- A policy that passed its validators. -/
structure BudgetPolicy (U : Type) extends PolicyCaps U where
  sessionTokens_le : ∀ n, perSessionTokens = some n → n ≤ maxTokenCap
  dailyTokens_le : ∀ n, perAgentTokensDaily = some n → n ≤ maxTokenCap
  seconds_le : ∀ n, perSessionSeconds = some n → n ≤ maxSessionSeconds
  anySet : ∃ cap, toPolicyCaps.Sets cap

/-- `type(exc).__name__` of an exception raised by the store. -/
abbrev ReadError := String

inductive StoreRead where
  | sessionAndDailyUsage
  | sessionUsage
  | agentDailyUsage
  | sessionElapsedSeconds
  | sessionStartTime
  deriving DecidableEq, Repr

/-- What the read methods of the store answer during one call.  The two optional
fields are the methods that `check_or_raise` looks for with `hasattr`. -/
structure StoreReads (U : Type) where
  sessionAndDailyUsage : Option (Except ReadError (U × ℤ × U × ℤ))
  sessionUsage : Except ReadError (U × ℤ)
  agentDailyUsage : Except ReadError (U × ℤ)
  sessionElapsedSeconds : Option (Except ReadError (Option ℚ))
  sessionStartTime : Except ReadError (Option ℚ)
  now : ℚ

structure Usage (U : Type) where
  sUsd : U
  sTok : ℤ
  dUsd : U
  dTok : ℤ

/-- The first breached cap, with the two numbers of the message. -/
inductive Breach (U : Type) where
  | usd (cap : Cap) (used limit : U)
  | tokens (cap : Cap) (used limit : ℤ)
  | seconds (elapsed limit : ℤ)

inductive CheckError (U : Type) where
  | agentHalted
  | budgetExceeded (breach : Breach U)
  | storeUnreachable (error : ReadError)

/-- Both the breach and the unreachable store raise `BudgetExceeded`. -/
def CheckError.IsBudgetExceeded {U : Type} : CheckError U → Prop
  | agentHalted => False
  | budgetExceeded _ => True
  | storeUnreachable _ => True

/-- Audit rows written by the gate. -/
inductive CheckEvent (U : Type) where
  | checkFailed (error : ReadError) (failOpen : Bool)
  | exceeded (breach : Breach U)

/-- What a call of `check_or_raise` did: how it ended, the reads it made with
whether they succeeded, and the audit rows it wrote. -/
structure CheckRun (U : Type) where
  outcome : Except (CheckError U) Unit
  reads : List (StoreRead × Bool)
  events : List (CheckEvent U)

/-- `int(x)` on a finite float. -/
def truncate (q : ℚ) : ℤ := if q < 0 then ⌈q⌉ else ⌊q⌋

section Gate

variable {U : Type} [LT U] [DecidableLT U]

def readUsage (store : StoreReads U) :
    Except ReadError (Usage U) × List (StoreRead × Bool) :=
  match store.sessionAndDailyUsage with
  | some (.ok (sUsd, sTok, dUsd, dTok)) =>
      (.ok ⟨sUsd, sTok, dUsd, dTok⟩, [(.sessionAndDailyUsage, true)])
  | some (.error e) => (.error e, [(.sessionAndDailyUsage, false)])
  | none =>
      match store.sessionUsage with
      | .error e => (.error e, [(.sessionUsage, false)])
      | .ok (sUsd, sTok) =>
          match store.agentDailyUsage with
          | .error e =>
              (.error e, [(.sessionUsage, true), (.agentDailyUsage, false)])
          | .ok (dUsd, dTok) =>
              (.ok ⟨sUsd, sTok, dUsd, dTok⟩,
                [(.sessionUsage, true), (.agentDailyUsage, true)])

/-- The session-time read.  Its handler turns a failure into "no start time". -/
def readElapsed (store : StoreReads U) : Option ℤ × List (StoreRead × Bool) :=
  match store.sessionElapsedSeconds with
  | some (.ok elapsed) => (elapsed.map truncate, [(.sessionElapsedSeconds, true)])
  | some (.error _) => (none, [(.sessionElapsedSeconds, false)])
  | none =>
      match store.sessionStartTime with
      | .ok started =>
          (started.map fun t => truncate (store.now - t), [(.sessionStartTime, true)])
      | .error _ => (none, [(.sessionStartTime, false)])

def projected (tokens : ℤ) (projectedTokens : Option ℤ) : ℤ :=
  match projectedTokens with
  | some p => tokens + p
  | none => tokens

def overUsd (cap : Cap) (limit : Option U) (used : U) : Option (Breach U) :=
  match limit with
  | some l => if l < used then some (.usd cap used l) else none
  | none => none

omit [LT U] [DecidableLT U] in
def overTokens (cap : Cap) (limit : Option ℕ) (used : ℤ) : Option (Breach U) :=
  match limit with
  | some l => if (l : ℤ) < used then some (.tokens cap used l) else none
  | none => none

/-- The `if`/`elif` chain over the four counters. -/
def breach (policy : BudgetPolicy U) (u : Usage U) (projectedTokens : Option ℤ) :
    Option (Breach U) :=
  (overUsd .perSessionUsd policy.perSessionUsd u.sUsd).or
    ((overTokens .perSessionTokens policy.perSessionTokens
        (projected u.sTok projectedTokens)).or
      ((overUsd .perAgentUsdDaily policy.perAgentUsdDaily u.dUsd).or
        (overTokens .perAgentTokensDaily policy.perAgentTokensDaily
          (projected u.dTok projectedTokens))))

/-- The last part of the gate, after the four counters passed. -/
def checkSeconds (policy : BudgetPolicy U) (store : StoreReads U)
    (reads : List (StoreRead × Bool)) : CheckRun U :=
  match policy.perSessionSeconds with
  | none => ⟨.ok (), reads, []⟩
  | some limit =>
      match readElapsed store with
      | (none, more) => ⟨.ok (), reads ++ more, []⟩
      | (some elapsed, more) =>
          if (limit : ℤ) < elapsed then
            ⟨.error (.budgetExceeded (.seconds elapsed limit)), reads ++ more,
              [.exceeded (.seconds elapsed limit)]⟩
          else ⟨.ok (), reads ++ more, []⟩

/-- `check_or_raise`; `halted` is the answer of the presence module, if wired. -/
def checkOrRaise (failOpen : Bool) (halted : Option Bool)
    (policy : Option (BudgetPolicy U)) (store : StoreReads U)
    (projectedTokens : Option ℤ) : CheckRun U :=
  if halted = some true then ⟨.error .agentHalted, [], []⟩
  else
    match policy with
    | none => ⟨.ok (), [], []⟩
    | some policy =>
        match readUsage store with
        | (.error e, reads) =>
            ⟨if failOpen then .ok () else .error (.storeUnreachable e), reads,
              [.checkFailed e failOpen]⟩
        | (.ok u, reads) =>
            match breach policy u projectedTokens with
            | some b => ⟨.error (.budgetExceeded b), reads, [.exceeded b]⟩
            | none => checkSeconds policy store reads

end Gate

/-! ## What failing closed means -/

section Specification

variable {U : Type} [LT U] [DecidableLT U]

/-- The session counters as the store reports them, if it does. -/
def StoreReads.session? (store : StoreReads U) : Option (U × ℤ) :=
  match store.sessionAndDailyUsage with
  | some (.ok (sUsd, sTok, _, _)) => some (sUsd, sTok)
  | some (.error _) => none
  | none => store.sessionUsage.toOption

/-- The counters of the current day as the store reports them, if it does. -/
def StoreReads.daily? (store : StoreReads U) : Option (U × ℤ) :=
  match store.sessionAndDailyUsage with
  | some (.ok (_, _, dUsd, dTok)) => some (dUsd, dTok)
  | some (.error _) => none
  | none => store.agentDailyUsage.toOption

/-- The age of the session as the store reports it: `none` when the read fails,
`some none` when the session has not started. -/
def StoreReads.elapsed? (store : StoreReads U) : Option (Option ℤ) :=
  match store.sessionElapsedSeconds with
  | some answer => answer.toOption.map fun elapsed => elapsed.map truncate
  | none =>
      store.sessionStartTime.toOption.map fun started =>
        started.map fun t => truncate (store.now - t)

/-- The read that the evaluation of a cap needs. -/
def neededRead (store : StoreReads U) : Cap → StoreRead
  | .perSessionUsd | .perSessionTokens =>
      if store.sessionAndDailyUsage.isSome then .sessionAndDailyUsage
      else .sessionUsage
  | .perAgentUsdDaily | .perAgentTokensDaily =>
      if store.sessionAndDailyUsage.isSome then .sessionAndDailyUsage
      else .agentDailyUsage
  | .perSessionSeconds =>
      if store.sessionElapsedSeconds.isSome then .sessionElapsedSeconds
      else .sessionStartTime

/-- A configured cap is exceeded by what the store reports. -/
def Exceeded (policy : BudgetPolicy U) (store : StoreReads U)
    (projectedTokens : Option ℤ) : Cap → Prop
  | .perSessionUsd =>
      ∃ l u, policy.perSessionUsd = some l ∧ store.session? = some u ∧ l < u.1
  | .perSessionTokens =>
      ∃ (l : ℕ) (u : U × ℤ), policy.perSessionTokens = some l ∧
        store.session? = some u ∧ (l : ℤ) < projected u.2 projectedTokens
  | .perAgentUsdDaily =>
      ∃ l u, policy.perAgentUsdDaily = some l ∧ store.daily? = some u ∧ l < u.1
  | .perAgentTokensDaily =>
      ∃ (l : ℕ) (u : U × ℤ), policy.perAgentTokensDaily = some l ∧
        store.daily? = some u ∧ (l : ℤ) < projected u.2 projectedTokens
  | .perSessionSeconds =>
      ∃ (l : ℕ) (e : ℤ), policy.perSessionSeconds = some l ∧
        store.elapsed? = some (some e) ∧ (l : ℤ) < e

/-- The gate admits a call only if the read behind every configured cap was made,
succeeded, and showed the cap to hold; and a failed read behind a configured cap
makes it raise `BudgetExceeded`. -/
structure FailsClosed (policy : BudgetPolicy U) (store : StoreReads U)
    (projectedTokens : Option ℤ) (run : CheckRun U) : Prop where
  admitted : run.outcome = .ok () → ∀ cap, policy.Sets cap →
    (neededRead store cap, true) ∈ run.reads ∧
      ¬Exceeded policy store projectedTokens cap
  refused : ∀ cap, policy.Sets cap → (neededRead store cap, false) ∈ run.reads →
    ∃ e, run.outcome = .error e ∧ e.IsBudgetExceeded

/-! ## The two groups of reads -/

omit [LT U] [DecidableLT U] in
theorem readUsage_error {store : StoreReads U} {e : ReadError}
    {reads : List (StoreRead × Bool)} (h : readUsage store = (.error e, reads)) :
    store.session? = none ∨ store.daily? = none := by
  rcases store with ⟨combined, session, daily, elapsed, started, now⟩
  rcases combined with - | (e' | ⟨a, b, c, d⟩)
  · rcases session with e' | ⟨a, b⟩
    · exact Or.inl rfl
    · rcases daily with e' | ⟨c, d⟩
      · exact Or.inr rfl
      · simp [readUsage] at h
  · exact Or.inl rfl
  · simp [readUsage] at h

omit [LT U] [DecidableLT U] in
/-- A usage read that succeeds reports both counters, covers the four caps and
contains no failed read. -/
theorem readUsage_ok {store : StoreReads U} {u : Usage U}
    {reads : List (StoreRead × Bool)} (h : readUsage store = (.ok u, reads)) :
    store.session? = some (u.sUsd, u.sTok) ∧ store.daily? = some (u.dUsd, u.dTok) ∧
      (∀ cap, cap ≠ .perSessionSeconds → (neededRead store cap, true) ∈ reads) ∧
        ∀ r, (r, false) ∉ reads := by
  rcases store with ⟨combined, session, daily, elapsed, started, now⟩
  rcases combined with - | (e' | ⟨a, b, c, d⟩)
  · rcases session with e' | ⟨a, b⟩
    · simp [readUsage] at h
    · rcases daily with e' | ⟨c, d⟩
      · simp [readUsage] at h
      · simp only [readUsage, Prod.mk.injEq, Except.ok.injEq] at h
        obtain ⟨rfl, rfl⟩ := h
        refine ⟨rfl, rfl, ?_, by simp⟩
        intro cap hcap
        cases cap <;> simp_all [neededRead]
  · simp [readUsage] at h
  · simp only [readUsage, Prod.mk.injEq, Except.ok.injEq] at h
    obtain ⟨rfl, rfl⟩ := h
    refine ⟨rfl, rfl, ?_, by simp⟩
    intro cap hcap
    cases cap <;> simp_all [neededRead]

omit [LT U] [DecidableLT U] in
theorem readElapsed_eq (store : StoreReads U) :
    readElapsed store =
      (store.elapsed?.join,
        [(neededRead store .perSessionSeconds, store.elapsed?.isSome)]) := by
  rcases store with ⟨combined, session, daily, elapsed, started, now⟩
  rcases elapsed with - | (e | elapsed)
  · rcases started with e | started
    · rfl
    · rfl
  · rfl
  · rfl

theorem overUsd_eq_none_iff {cap : Cap} {limit : Option U} {used : U} :
    overUsd cap limit used = none ↔ ∀ l, limit = some l → ¬l < used := by
  cases limit with
  | none => simp [overUsd]
  | some l => simp [overUsd]

omit [LT U] [DecidableLT U] in
theorem overTokens_eq_none_iff {cap : Cap} {limit : Option ℕ} {used : ℤ} :
    (overTokens cap limit used : Option (Breach U)) = none ↔
      ∀ l : ℕ, limit = some l → ¬(l : ℤ) < used := by
  cases limit with
  | none => simp [overTokens]
  | some l => simp [overTokens]

/-- The chain of comparisons finds nothing exactly when none of the four counters
exceeds its cap. -/
theorem breach_eq_none_iff {policy : BudgetPolicy U} {store : StoreReads U}
    {u : Usage U} {projectedTokens : Option ℤ}
    (hs : store.session? = some (u.sUsd, u.sTok))
    (hd : store.daily? = some (u.dUsd, u.dTok)) :
    breach policy u projectedTokens = none ↔
      ∀ cap, cap ≠ .perSessionSeconds → ¬Exceeded policy store projectedTokens cap := by
  simp only [breach, Option.or_eq_none_iff, overUsd_eq_none_iff,
    overTokens_eq_none_iff]
  constructor
  · rintro ⟨h₁, h₂, h₃, h₄⟩ cap hcap
    cases cap with
    | perSessionUsd =>
        rintro ⟨l, v, hl, hv, hlt⟩
        rw [hs] at hv
        cases hv
        exact h₁ l hl hlt
    | perSessionTokens =>
        rintro ⟨l, v, hl, hv, hlt⟩
        rw [hs] at hv
        cases hv
        exact h₂ l hl hlt
    | perAgentUsdDaily =>
        rintro ⟨l, v, hl, hv, hlt⟩
        rw [hd] at hv
        cases hv
        exact h₃ l hl hlt
    | perAgentTokensDaily =>
        rintro ⟨l, v, hl, hv, hlt⟩
        rw [hd] at hv
        cases hv
        exact h₄ l hl hlt
    | perSessionSeconds => exact absurd rfl hcap
  · intro h
    refine ⟨fun l hl hlt => ?_, fun l hl hlt => ?_, fun l hl hlt => ?_, fun l hl hlt => ?_⟩
    · exact h .perSessionUsd (by decide) ⟨l, _, hl, hs, hlt⟩
    · exact h .perSessionTokens (by decide) ⟨l, _, hl, hs, hlt⟩
    · exact h .perAgentUsdDaily (by decide) ⟨l, _, hl, hd, hlt⟩
    · exact h .perAgentTokensDaily (by decide) ⟨l, _, hl, hd, hlt⟩

/-! ## When the gate fails closed -/

omit [DecidableLT U] in
theorem failsClosed_of_budgetExceeded {policy : BudgetPolicy U}
    {store : StoreReads U} {projectedTokens : Option ℤ} {run : CheckRun U}
    {e : CheckError U} (h : run.outcome = .error e) (he : e.IsBudgetExceeded) :
    FailsClosed policy store projectedTokens run := by
  constructor
  · intro hok
    rw [h] at hok
    cases hok
  · intro cap _ _
    exact ⟨e, h, he⟩

omit [DecidableLT U] in
/-- After the four counters passed, only the session-time read can go wrong, and
its failure is swallowed. -/
theorem failsClosed_checkSeconds_iff {policy : BudgetPolicy U}
    {store : StoreReads U} {projectedTokens : Option ℤ}
    {reads : List (StoreRead × Bool)}
    (hread : ∀ cap, cap ≠ .perSessionSeconds → (neededRead store cap, true) ∈ reads)
    (hfailed : ∀ r, (r, false) ∉ reads)
    (hwithin : ∀ cap, cap ≠ .perSessionSeconds →
      ¬Exceeded policy store projectedTokens cap) :
    FailsClosed policy store projectedTokens (checkSeconds policy store reads) ↔
      ¬(policy.Sets .perSessionSeconds ∧ store.elapsed? = none) := by
  unfold checkSeconds
  cases hcap : policy.perSessionSeconds with
  | none =>
      have hunset : ¬policy.Sets .perSessionSeconds := fun h => h hcap
      refine iff_of_true ⟨?_, ?_⟩ fun h => hunset h.1
      · intro _ cap hset
        have hne : cap ≠ .perSessionSeconds := fun h => hunset (h ▸ hset)
        exact ⟨hread cap hne, hwithin cap hne⟩
      · intro cap _ hfail
        exact absurd hfail (hfailed _)
  | some limit =>
      have hset : policy.Sets .perSessionSeconds := by
        simp [PolicyCaps.Sets, hcap]
      rw [readElapsed_eq]
      cases hel : store.elapsed? with
      | none =>
          refine iff_of_false (fun h => ?_) fun h => h ⟨hset, rfl⟩
          obtain ⟨e, he, -⟩ := h.refused .perSessionSeconds hset (by simp)
          cases he
      | some elapsed =>
          have hexceeded : Exceeded policy store projectedTokens .perSessionSeconds ↔
              ∃ e, elapsed = some e ∧ (limit : ℤ) < e := by
            simp [Exceeded, hcap, hel]
          -- the run made the read and it succeeded, whatever it found
          have hok : ∀ run : CheckRun U,
              run.reads = reads ++ [(neededRead store .perSessionSeconds, true)] →
              (run.outcome = .ok () → ¬Exceeded policy store projectedTokens
                .perSessionSeconds) →
              FailsClosed policy store projectedTokens run := by
            intro run hreads hout
            constructor
            · intro h cap _
              by_cases hne : cap = .perSessionSeconds
              · subst hne
                exact ⟨by simp [hreads], hout h⟩
              · exact ⟨by simp [hreads, hread cap hne], hwithin cap hne⟩
            · intro cap _ hfail
              rw [hreads] at hfail
              simp [hfailed] at hfail
          refine iff_of_true ?_ (by simp)
          cases elapsed with
          | none =>
              refine hok _ rfl fun _ => ?_
              rw [hexceeded]
              rintro ⟨e, ⟨⟩, -⟩
          | some e =>
              by_cases hover : (limit : ℤ) < e
              · simp only [Option.join_some, hover, if_true]
                exact hok _ rfl fun h => by cases h
              · simp only [Option.join_some, hover, if_false]
                refine hok _ rfl fun _ => ?_
                rw [hexceeded]
                rintro ⟨e', ⟨⟩, hlt⟩
                exact hover hlt

/-- With `fail_open=False` the gate fails closed on exactly the calls on which it
does not reach a failing session-time read: one for a live agent whose policy has
a time cap, whose usage reads succeed, and which breaches none of the other four
caps. -/
theorem checkOrRaise_failsClosed_iff (halted : Option Bool)
    (policy : BudgetPolicy U) (store : StoreReads U) (projectedTokens : Option ℤ) :
    FailsClosed policy store projectedTokens
        (checkOrRaise false halted (some policy) store projectedTokens) ↔
      ¬(halted ≠ some true ∧ policy.Sets .perSessionSeconds ∧
        store.session? ≠ none ∧ store.daily? ≠ none ∧
        (∀ cap, cap ≠ .perSessionSeconds →
          ¬Exceeded policy store projectedTokens cap) ∧
        store.elapsed? = none) := by
  unfold checkOrRaise
  by_cases hhalt : halted = some true
  · rw [if_pos hhalt]
    refine iff_of_true ?_ fun h => h.1 hhalt
    constructor
    · intro hok
      cases hok
    · intro cap _ hfail
      cases hfail
  · rw [if_neg hhalt]
    rcases hread : readUsage store with ⟨e | u, reads⟩
    · refine iff_of_true (failsClosed_of_budgetExceeded rfl trivial) ?_
      rintro ⟨-, -, hs, hd, -⟩
      rcases readUsage_error hread with h | h
      · exact hs h
      · exact hd h
    · obtain ⟨hs, hd, hneeded, hfailed⟩ := readUsage_ok hread
      dsimp only
      cases hbreach : breach policy u projectedTokens with
      | some b =>
          refine iff_of_true (failsClosed_of_budgetExceeded rfl trivial) ?_
          rintro ⟨-, -, -, -, hwithin, -⟩
          rw [(breach_eq_none_iff hs hd).mpr hwithin] at hbreach
          cases hbreach
      | none =>
          have hwithin := (breach_eq_none_iff hs hd).mp hbreach
          refine (failsClosed_checkSeconds_iff hneeded hfailed hwithin).trans ?_
          refine not_congr ⟨?_, ?_⟩
          · rintro ⟨hset, hel⟩
            exact ⟨hhalt, hset, by simp [hs], by simp [hd], hwithin, hel⟩
          · rintro ⟨-, hset, -, -, -, hel⟩
            exact ⟨hset, hel⟩

/-- An admitted call projects no token counter beyond its cap. -/
theorem tokens_le_of_checkOrRaise_ok {failOpen : Bool} {halted : Option Bool}
    {policy : BudgetPolicy U} {store : StoreReads U} {u : Usage U} {p : ℤ}
    {reads : List (StoreRead × Bool)} (hread : readUsage store = (.ok u, reads))
    (h : (checkOrRaise failOpen halted (some policy) store (some p)).outcome = .ok ()) :
    (∀ cap : ℕ, policy.perSessionTokens = some cap → u.sTok + p ≤ cap) ∧
      ∀ cap : ℕ, policy.perAgentTokensDaily = some cap → u.dTok + p ≤ cap := by
  have hbreach : breach policy u (some p) = none := by
    unfold checkOrRaise at h
    by_cases hhalt : halted = some true
    · rw [if_pos hhalt] at h
      cases h
    · rw [if_neg hhalt, hread] at h
      dsimp only at h
      cases hb : breach policy u (some p) with
      | none => rfl
      | some b =>
          rw [hb] at h
          cases h
  simp only [breach, Option.or_eq_none_iff, overTokens_eq_none_iff, projected,
    not_lt] at hbreach
  exact ⟨hbreach.2.1, hbreach.2.2.2⟩

end Specification

end AgenticGovernance.Cost

import Mathlib
import AgenticGovernance.Audit.Module
import AgenticGovernance.Cost.Check

/-!
# The budget gate with its audit rows

`check_or_raise` hands its event to `audit.log` before it raises, and what `log` raises
leaves the gate in place of `BudgetExceeded`.  `log` swallows the failures of its stores,
and still refuses an event whose agent id sanitizes to nothing or to too long a text.

`auditedCheck_failsClosed_iff` says on which calls the gate fails closed.
-/

namespace AgenticGovernance.Cost

open Support Audit

def capName : Cap → String
  | .perSessionUsd => "per_session_usd"
  | .perSessionTokens => "per_session_tokens"
  | .perAgentUsdDaily => "per_agent_usd_daily"
  | .perAgentTokensDaily => "per_agent_tokens_daily"
  | .perSessionSeconds => "per_session_seconds"

section Events

-- a USD amount and `float(n)`, as values of the metadata
variable {U : Type} (usd : U → PyValue) (float : ℤ → PyValue)

def breachMetadata : Breach U → List (String × PyValue)
  | .usd cap used limit =>
      [("cap", .str (capName cap)), ("used", usd used), ("limit", usd limit)]
  | .tokens cap used limit =>
      [("cap", .str (capName cap)), ("used", float used), ("limit", float limit)]
  | .seconds elapsed limit =>
      [("cap", .str (capName .perSessionSeconds)), ("used", float elapsed),
        ("limit", float limit)]

/-- The events of `check_or_raise`. -/
def costArgs (agentId : String) (sessionId : Uuid) : CheckEvent U → EventArgs
  | .exceeded breach =>
      ⟨some sessionId, agentId, none, "budget.exceeded", none, none, none,
        breachMetadata usd float breach⟩
  | .checkFailed error failOpen =>
      ⟨some sessionId, agentId, none, "budget.check_failed", none, none, none,
        [("reason", .str "cost store unreachable"), ("error_type", .str error),
          ("fail_mode", .str (if failOpen then "open" else "closed"))]⟩

end Events

/-- What leaves the gate: its own error, or that of a log call. -/
inductive GateError (U : Type) where
  | check (e : CheckError U)
  | audit (e : PyError)

/-- A call of `check_or_raise` with its log calls: how it ended, and the reads it made. -/
structure AuditedRun (U : Type) where
  outcome : Except (GateError U) Unit
  reads : List (StoreRead × Bool)

/-- The awaits of `audit.log`, one after the other. -/
def logAll (audit : AuditEnv) : List EventArgs → Except PyError Unit
  | [] => .ok ()
  | a :: rest =>
      match audit.log a with
      | .ok _ => logAll audit rest
      | .error e => .error e

section Gate

variable {U : Type} [LT U] [DecidableLT U] (usd : U → PyValue) (float : ℤ → PyValue)
  (audit : AuditEnv)

/-- The events are logged, and then the gate ends as `check_or_raise` without them. -/
def CheckRun.audited (agentId : String) (sessionId : Uuid) (run : CheckRun U) :
    AuditedRun U where
  outcome :=
    match logAll audit (run.events.map (costArgs usd float agentId sessionId)) with
    | .ok () => run.outcome.mapError .check
    | .error e => .error (.audit e)
  reads := run.reads

/-- `check_or_raise` for an agent with a policy. -/
def auditedCheck (agentId : String) (sessionId : Uuid) (failOpen : Bool)
    (halted : Option Bool) (policy : BudgetPolicy U) (store : StoreReads U)
    (projectedTokens : Option ℤ) : AuditedRun U :=
  (checkOrRaise failOpen halted (some policy) store projectedTokens).audited usd float audit
    agentId sessionId

end Gate

/-! ## When the gate fails closed -/

section Specification

variable {U : Type} [LT U] [DecidableLT U] {usd : U → PyValue} {float : ℤ → PyValue}
  {audit : AuditEnv} {agentId : String} {sessionId : Uuid} {policy : BudgetPolicy U}
  {store : StoreReads U} {projectedTokens : Option ℤ} {halted : Option Bool}

/-- The gate admits a call only if the read behind every configured cap was made,
succeeded, and showed the cap to hold; and a failed read behind a configured cap makes it
raise `BudgetExceeded`. -/
structure AuditedFailsClosed (policy : BudgetPolicy U) (store : StoreReads U)
    (projectedTokens : Option ℤ) (run : AuditedRun U) : Prop where
  admitted : run.outcome = .ok () → ∀ cap, policy.Sets cap →
    (neededRead store cap, true) ∈ run.reads ∧
      ¬Exceeded policy store projectedTokens cap
  refused : ∀ cap, policy.Sets cap → (neededRead store cap, false) ∈ run.reads →
    ∃ e, run.outcome = .error (.check e) ∧ e.IsBudgetExceeded

/-- The first usage read that fails, with the name of its error. -/
def StoreReads.usageFailure (store : StoreReads U) : Option (StoreRead × ReadError) :=
  match store.sessionAndDailyUsage with
  | some (.error e) => some (.sessionAndDailyUsage, e)
  | some (.ok _) => none
  | none =>
      match store.sessionUsage with
      | .error e => some (.sessionUsage, e)
      | .ok _ =>
          match store.agentDailyUsage with
          | .error e => some (.agentDailyUsage, e)
          | .ok _ => none

/-- The event of a failed usage read, under `fail_open=False`. -/
def checkFailedArgs (agentId : String) (sessionId : Uuid) (error : ReadError) : EventArgs :=
  costArgs (fun _ : Unit => .none) (fun _ => .none) agentId sessionId (.checkFailed error false)

omit [LT U] [DecidableLT U] in
/-- A failed usage read is the one failed read of the call. -/
theorem usageFailure_eq_some_iff {r : StoreRead} {e : ReadError} :
    store.usageFailure = some (r, e) ↔
      (readUsage store).1 = .error e ∧ (r, false) ∈ (readUsage store).2 := by
  rcases store with ⟨combined, session, daily, elapsed, started, now⟩
  rcases combined with - | (e' | ⟨a, b, c, d⟩)
  · rcases session with e' | ⟨a, b⟩
    · simp only [StoreReads.usageFailure, readUsage]
      grind
    · rcases daily with e' | ⟨c, d⟩
      · simp only [StoreReads.usageFailure, readUsage]
        grind
      · simp only [StoreReads.usageFailure, readUsage]
        grind
  · simp only [StoreReads.usageFailure, readUsage]
    grind
  · simp only [StoreReads.usageFailure, readUsage]
    grind

/-- The event is logged whenever its agent id and its size allow it. -/
theorem checkFailed_logged_iff (hnfc : ∀ s, isAscii s = true → audit.nfc s = s)
    (error : ReadError) :
    (∃ record, audit.log (checkFailedArgs agentId sessionId error) = .ok record) ↔
      (checkFailedArgs agentId sessionId error).AgentLoggable audit.nfc := by
  have hkind : sanitizeString audit.nfc "budget.check_failed" maxKindLen =
      "budget.check_failed" := by
    rw [sanitizeString_of_nfc (hnfc _ (by decide))]
    decide
  rw [AuditEnv.log_ok_iff]
  exact EventArgs.agentLoggable_iff
    (by decide : 1 ≤ "budget.check_failed".length ∧ "budget.check_failed".length ≤ maxKindLen)
    hkind (by decide : "budget.check_failed" ∉ permittedKinds) rfl rfl rfl
    (by decide : 3 ≤ maxMetadataKeys)

theorem logAll_singleton_ok_iff {a : EventArgs} :
    logAll audit [a] = .ok () ↔ ∃ record, audit.log a = .ok record := by
  rcases hlog : audit.log a with e | record
  · simp [logAll, hlog]
  · simp [logAll, hlog]

omit [DecidableLT U] in
/-- Where the log calls go through, the gate ends as it would without them. -/
theorem auditedFailsClosed_of_logged {run : CheckRun U}
    (hlogged : logAll audit (run.events.map (costArgs usd float agentId sessionId)) = .ok ()) :
    AuditedFailsClosed policy store projectedTokens
        (run.audited usd float audit agentId sessionId) ↔
      FailsClosed policy store projectedTokens run := by
  have houtcome : (run.audited usd float audit agentId sessionId).outcome =
      run.outcome.mapError .check := by
    rw [CheckRun.audited, hlogged]
  have hok : (run.audited usd float audit agentId sessionId).outcome = .ok () ↔
      run.outcome = .ok () := by
    rw [houtcome]
    rcases run.outcome with e | ⟨⟩
    · simp [Except.mapError]
    · simp [Except.mapError]
  have herror : ∀ e, (run.audited usd float audit agentId sessionId).outcome =
      .error (.check e) ↔ run.outcome = .error e := by
    intro e
    rw [houtcome]
    rcases run.outcome with e' | ⟨⟩
    · simp [Except.mapError]
    · simp [Except.mapError]
  constructor
  · intro h
    refine ⟨fun hrun => h.admitted (hok.mpr hrun), ?_⟩
    intro cap hset hfailed
    obtain ⟨e, he, hexceeded⟩ := h.refused cap hset hfailed
    exact ⟨e, (herror e).mp he, hexceeded⟩
  · intro h
    refine ⟨fun hrun => h.admitted (hok.mp hrun), ?_⟩
    intro cap hset hfailed
    obtain ⟨e, he, hexceeded⟩ := h.refused cap hset hfailed
    exact ⟨e, (herror e).mpr he, hexceeded⟩

omit [DecidableLT U] in
/-- Where a log call raises, nothing is admitted, and the gate fails closed unless a needed
read has failed. -/
theorem auditedFailsClosed_of_lost {run : CheckRun U} {e : PyError}
    (hlost : logAll audit (run.events.map (costArgs usd float agentId sessionId)) = .error e) :
    AuditedFailsClosed policy store projectedTokens
        (run.audited usd float audit agentId sessionId) ↔
      ∀ cap, policy.Sets cap → (neededRead store cap, false) ∉ run.reads := by
  have houtcome : (run.audited usd float audit agentId sessionId).outcome =
      .error (.audit e) := by
    rw [CheckRun.audited, hlost]
  constructor
  · intro h cap hset hfailed
    obtain ⟨e', he', -⟩ := h.refused cap hset hfailed
    rw [houtcome] at he'
    cases he'
  · intro h
    constructor
    · intro hok
      rw [houtcome] at hok
      cases hok
    · intro cap hset hfailed
      exact absurd hfailed (h cap hset)

omit [LT U] [DecidableLT U] in
theorem usageFailure_eq_none {u : Usage U} {reads : List (StoreRead × Bool)}
    (hread : readUsage store = (.ok u, reads)) : store.usageFailure = none := by
  rw [Option.eq_none_iff_forall_not_mem]
  rintro ⟨r, e⟩ hfailure
  have herror := (usageFailure_eq_some_iff.mp hfailure).1
  rw [hread] at herror
  cases herror

omit [LT U] [DecidableLT U] in
/-- The event of a breach comes after reads that have all succeeded. -/
theorem checkSeconds_reads {reads : List (StoreRead × Bool)} (hok : ∀ r, (r, false) ∉ reads)
    (hevents : (checkSeconds policy store reads).events ≠ []) (r : StoreRead) :
    (r, false) ∉ (checkSeconds policy store reads).reads := by
  unfold checkSeconds at hevents ⊢
  cases hcap : policy.perSessionSeconds with
  | none =>
      rw [hcap] at hevents
      exact absurd rfl hevents
  | some limit =>
      rw [hcap, readElapsed_eq] at hevents
      rw [readElapsed_eq]
      rcases helapsed : store.elapsed? with _ | _ | elapsed
      · rw [helapsed] at hevents
        exact absurd rfl hevents
      · rw [helapsed] at hevents
        exact absurd rfl hevents
      · dsimp only [Option.join_some, Option.isSome_some]
        split
        · simpa using hok r
        · simpa using hok r

/-- A call on a live agent either fails on its usage read, whose event is then the only
one, or logs nothing after a failed read. -/
theorem checkOrRaise_live (hlive : halted ≠ some true) :
    (∃ e, (readUsage store).1 = .error e ∧
      (checkOrRaise false halted (some policy) store projectedTokens).events =
        [.checkFailed e false] ∧
      (checkOrRaise false halted (some policy) store projectedTokens).reads =
        (readUsage store).2) ∨
    (store.usageFailure = none ∧
      ((checkOrRaise false halted (some policy) store projectedTokens).events ≠ [] →
        ∀ r, (r, false) ∉
          (checkOrRaise false halted (some policy) store projectedTokens).reads)) := by
  rw [checkOrRaise, if_neg hlive]
  rcases hread : readUsage store with ⟨e | u, reads⟩
  · exact Or.inl ⟨e, rfl, rfl, rfl⟩
  · right
    refine ⟨usageFailure_eq_none hread, ?_⟩
    have hok := (readUsage_ok hread).2.2.2
    dsimp only
    cases breach policy u projectedTokens with
    | some b => exact fun _ => hok
    | none => exact checkSeconds_reads hok

/-- Nothing is logged on an admitted call. -/
theorem checkOrRaise_ok_events
    (hok : (checkOrRaise false halted (some policy) store projectedTokens).outcome = .ok ()) :
    (checkOrRaise false halted (some policy) store projectedTokens).events = [] := by
  rw [checkOrRaise] at hok ⊢
  split
  · rfl
  · rename_i hlive
    rw [if_neg hlive] at hok
    rcases hread : readUsage store with ⟨e | u, reads⟩
    · rw [hread] at hok
      cases hok
    · rw [hread] at hok
      dsimp only at hok ⊢
      cases hbreach : breach policy u projectedTokens with
      | some b =>
          rw [hbreach] at hok
          cases hok
      | none =>
          rw [hbreach] at hok
          dsimp only [checkSeconds] at hok ⊢
          rcases hcap : policy.perSessionSeconds with _ | limit
          · rfl
          · rw [hcap] at hok
            rcases helapsed : readElapsed store with ⟨_ | elapsed, more⟩
            · rfl
            · rw [helapsed] at hok
              dsimp only at hok ⊢
              split
              · rename_i hover
                rw [if_pos hover] at hok
                cases hok
              · rfl

omit [DecidableLT U] in
/-- A failed usage read is refused, so that only the log call of its event can get in the
way. -/
theorem audited_of_usageError (hnfc : ∀ s, isAscii s = true → audit.nfc s = s)
    {run : CheckRun U} {e : ReadError} (hclosed : FailsClosed policy store projectedTokens run)
    (hevents : run.events = [.checkFailed e false]) :
    AuditedFailsClosed policy store projectedTokens
        (run.audited usd float audit agentId sessionId) ↔
      ∀ cap, policy.Sets cap → (neededRead store cap, false) ∈ run.reads →
        (checkFailedArgs agentId sessionId e).AgentLoggable audit.nfc := by
  have hargs : run.events.map (costArgs usd float agentId sessionId) =
      [checkFailedArgs agentId sessionId e] := by
    rw [hevents]
    rfl
  by_cases hlogged : (checkFailedArgs agentId sessionId e).AgentLoggable audit.nfc
  · have hok := logAll_singleton_ok_iff.mpr ((checkFailed_logged_iff hnfc e).mpr hlogged)
    rw [← hargs] at hok
    rw [auditedFailsClosed_of_logged hok]
    exact iff_of_true hclosed fun _ _ _ => hlogged
  · obtain ⟨e', hlost⟩ : ∃ e', logAll audit [checkFailedArgs agentId sessionId e] =
        .error e' := by
      rcases hlog : logAll audit [checkFailedArgs agentId sessionId e] with e' | ⟨⟩
      · exact ⟨e', rfl⟩
      · exact absurd ((checkFailed_logged_iff hnfc e).mp (logAll_singleton_ok_iff.mp hlog))
          hlogged
    rw [← hargs] at hlost
    rw [auditedFailsClosed_of_lost hlost]
    exact forall₂_congr fun cap _ => imp_congr_right fun _ => (iff_false_intro hlogged).symm

/-- Where nothing is logged after a failed read, the log calls do not matter. -/
theorem audited_of_usageRead
    (hclean : (checkOrRaise false halted (some policy) store projectedTokens).events ≠ [] →
      ∀ r, (r, false) ∉
        (checkOrRaise false halted (some policy) store projectedTokens).reads) :
    AuditedFailsClosed policy store projectedTokens
        (auditedCheck usd float audit agentId sessionId false halted policy store
          projectedTokens) ↔
      FailsClosed policy store projectedTokens
        (checkOrRaise false halted (some policy) store projectedTokens) := by
  rw [auditedCheck]
  rcases hlog : logAll audit ((checkOrRaise false halted (some policy) store
    projectedTokens).events.map (costArgs usd float agentId sessionId)) with e | ⟨⟩
  · have hsome : (checkOrRaise false halted (some policy) store projectedTokens).events ≠
        [] := by
      intro hempty
      rw [hempty] at hlog
      cases hlog
    have hreads : ∀ cap, policy.Sets cap → (neededRead store cap, false) ∉
        (checkOrRaise false halted (some policy) store projectedTokens).reads :=
      fun cap _ => hclean hsome _
    rw [auditedFailsClosed_of_lost hlog]
    refine iff_of_true hreads ⟨?_, fun cap hset hfailed => absurd hfailed (hreads cap hset)⟩
    intro hok
    exact absurd (checkOrRaise_ok_events hok) hsome
  · exact auditedFailsClosed_of_logged hlog

/-- With `fail_open=False` the gate fails closed on exactly the calls on which it reaches
neither a failing session-time read nor a log call that raises ahead of the refusal for a
failed usage read.  The first is a call for a live agent whose policy has a time cap,
whose usage reads succeed, and which breaches none of the other four caps.  The second is
a call for a live agent where the failed read is that of a configured cap. -/
theorem auditedCheck_failsClosed_iff (hnfc : ∀ s, isAscii s = true → audit.nfc s = s) :
    AuditedFailsClosed policy store projectedTokens
        (auditedCheck usd float audit agentId sessionId false halted policy store
          projectedTokens) ↔
      ¬(halted ≠ some true ∧ policy.Sets .perSessionSeconds ∧
          store.session? ≠ none ∧ store.daily? ≠ none ∧
          (∀ cap, cap ≠ .perSessionSeconds →
            ¬Exceeded policy store projectedTokens cap) ∧
          store.elapsed? = none) ∧
        ¬(halted ≠ some true ∧ ∃ cap e, policy.Sets cap ∧
          store.usageFailure = some (neededRead store cap, e) ∧
          ¬(checkFailedArgs agentId sessionId e).AgentLoggable audit.nfc) := by
  rw [← checkOrRaise_failsClosed_iff, auditedCheck]
  by_cases hhalt : halted = some true
  · have hrun : checkOrRaise false halted (some policy) store projectedTokens =
        ⟨.error .agentHalted, [], []⟩ := if_pos hhalt
    rw [hrun, auditedFailsClosed_of_logged rfl]
    simp [hhalt]
  · have hlive : (∃ e, (readUsage store).1 = .error e ∧
        (checkOrRaise false halted (some policy) store projectedTokens).events =
          [.checkFailed e false] ∧
        (checkOrRaise false halted (some policy) store projectedTokens).reads =
          (readUsage store).2) ∨ _ := checkOrRaise_live hhalt
    rcases hlive with ⟨e, herror, hevents, hreads⟩ | ⟨hnone, hclean⟩
    · -- the usage read fails, and its event decides
      have hfailure : ∀ cap e', store.usageFailure = some (neededRead store cap, e') ↔
          e' = e ∧ (neededRead store cap, false) ∈ (readUsage store).2 := by
        intro cap e'
        rw [usageFailure_eq_some_iff, herror, Except.error.injEq, eq_comm]
      have hclosed : FailsClosed policy store projectedTokens
          (checkOrRaise false halted (some policy) store projectedTokens) := by
        rw [checkOrRaise_failsClosed_iff]
        rintro ⟨-, -, hsession, hdaily, -⟩
        rcases readUsage_error (Prod.ext herror rfl : readUsage store = (.error e, _)) with h | h
        · exact hsession h
        · exact hdaily h
      rw [audited_of_usageError hnfc hclosed hevents, hreads, and_iff_right hclosed]
      constructor
      · rintro h ⟨-, cap, e', hset, hfailed, hlost⟩
        obtain ⟨rfl, hread⟩ := (hfailure cap e').mp hfailed
        exact hlost (h cap hset hread)
      · intro h cap hset hread
        by_contra hlost
        exact h ⟨hhalt, cap, e, hset, (hfailure cap e).mpr ⟨rfl, hread⟩, hlost⟩
    · -- no usage read fails, and what is logged follows reads that succeeded
      have hvacuous : ¬(halted ≠ some true ∧ ∃ cap e, policy.Sets cap ∧
          store.usageFailure = some (neededRead store cap, e) ∧
          ¬(checkFailedArgs agentId sessionId e).AgentLoggable audit.nfc) := by
        rintro ⟨-, cap, e, -, hfailed, -⟩
        rw [hnone] at hfailed
        cases hfailed
      rw [and_iff_left hvacuous]
      exact audited_of_usageRead hclean

end Specification

/-! ### Refusals that are lost -/

/-- A policy with only a session-time cap of one minute. -/
def minutePolicy : BudgetPolicy ℚ where
  perSessionUsd := none
  perSessionTokens := none
  perAgentUsdDaily := none
  perAgentTokensDaily := none
  perSessionSeconds := some 60
  sessionTokens_le := le_of_unset _
  dailyTokens_le := le_of_unset _
  seconds_le := by
    rintro n ⟨⟩
    decide
  anySet := ⟨.perSessionSeconds, by simp [PolicyCaps.Sets]⟩

/-- A Postgres store that answers the usage query and fails the next one. -/
def flakyStore : StoreReads ℚ where
  sessionAndDailyUsage := some (.ok (0, 0, 0, 0))
  sessionUsage := .ok (0, 0)
  agentDailyUsage := .ok (0, 0)
  sessionElapsedSeconds := some (.error "OperationalError")
  sessionStartTime := .error "OperationalError"
  now := 0

/-- An audit module whose stores are all down. -/
def deadAudit : AuditEnv where
  nfc := id
  canonicalMetadata := fun _ => some []
  keys := ⟨.ofTable [], List.replicate 32 7, none⟩
  sessionId := ⟨1⟩
  parentId := none
  createdAt := ⟨2025, 1, 2, 3, 4, 5, 0, some .utc⟩
  fates := ⟨.raises, .raises, .raises, .raises⟩
  degradedStarts := ∅
  draw := ⟨⟨2⟩, ⟨1⟩, ⟨2025, 1, 2, 3, 4, 5, 0, some .utc⟩⟩

/-- A check of the policy with only a session-time cap of one minute. -/
def minuteCheck (agentId : String) (store : StoreReads ℚ) : AuditedRun ℚ :=
  auditedCheck (fun _ => .none) .int deadAudit agentId ⟨1⟩ false none minutePolicy store none

/-- A store that is wholly unreachable. -/
def deadStore : StoreReads ℚ where
  sessionAndDailyUsage := some (.error "OperationalError")
  sessionUsage := .error "OperationalError"
  agentDailyUsage := .error "OperationalError"
  sessionElapsedSeconds := some (.error "OperationalError")
  sessionStartTime := .error "OperationalError"
  now := 0

/-- Both stores are down, and the agent id is a plain one: the gate fails closed. -/
theorem deadStore_failsClosed :
    AuditedFailsClosed minutePolicy deadStore none (minuteCheck "worker" deadStore) := by
  have hlogged : (checkFailedArgs "worker" ⟨1⟩ "OperationalError").AgentLoggable
      deadAudit.nfc := ⟨by decide, by decide, by decide⟩
  refine (auditedCheck_failsClosed_iff fun _ _ => rfl).mpr ⟨?_, ?_⟩
  · rintro ⟨-, -, hsession, -⟩
    exact hsession rfl
  · rintro ⟨-, cap, e, -, hfailure, hlost⟩
    have he : "OperationalError" = e := congrArg Prod.snd (Option.some.inj hfailure)
    rw [← he] at hlost
    exact hlost hlogged

/-- The gate admits a call although it could not read the session's age. -/
theorem flakyStore_admits :
    (minuteCheck "worker" flakyStore).outcome = .ok () ∧
      ¬AuditedFailsClosed minutePolicy flakyStore none (minuteCheck "worker" flakyStore) := by
  refine ⟨rfl, fun h => ?_⟩
  have hset : minutePolicy.Sets .perSessionSeconds := by
    simp [PolicyCaps.Sets, minutePolicy]
  obtain ⟨e, he, -⟩ := h.refused .perSessionSeconds hset (List.mem_cons_of_mem _
    List.mem_cons_self)
  cases he

/-- A policy with only a cap on the tokens of a session. -/
def tokenPolicy : BudgetPolicy ℚ where
  perSessionUsd := none
  perSessionTokens := some 1000
  perAgentUsdDaily := none
  perAgentTokensDaily := none
  perSessionSeconds := none
  sessionTokens_le := by
    rintro n ⟨⟩
    decide
  dailyTokens_le := le_of_unset _
  seconds_le := le_of_unset _
  anySet := ⟨.perSessionTokens, by simp [PolicyCaps.Sets]⟩

/-- The agent id sanitizes to nothing, and `ValidationError` leaves the gate in place of
`BudgetExceeded`. -/
theorem escape_agent_not_refused :
    (auditedCheck (fun _ => .none) .int deadAudit "\x1b" ⟨1⟩ false none tokenPolicy deadStore
        none).outcome = .error (.audit .validationError) := by
  have hempty : (sanitizeString id "\x1b" maxAgentIdLen).length = 0 := by decide
  have hevent : deadAudit.log (checkFailedArgs "\x1b" ⟨1⟩ "OperationalError") =
      .error .validationError := by
    rw [AuditEnv.log, EventArgs.construct_eq_some_iff.mpr ⟨by decide, rfl⟩]
    apply LoggedCall.log_of_invalid
    · change sanitizeString id "budget.check_failed" maxKindLen ∉ permittedKinds
      decide
    · intro hvalid
      have hagent : 1 ≤ (sanitizeString id "\x1b" maxAgentIdLen).length := hvalid.agentId.1
      omega
  have hgate : (auditedCheck (fun _ => .none) .int deadAudit "\x1b" ⟨1⟩ false none tokenPolicy
      deadStore none).outcome =
        match logAll deadAudit [checkFailedArgs "\x1b" ⟨1⟩ "OperationalError"] with
        | .ok () => .error (.check (.storeUnreachable "OperationalError"))
        | .error e => .error (.audit e) := rfl
  rw [hgate, logAll, hevent]

end AgenticGovernance.Cost

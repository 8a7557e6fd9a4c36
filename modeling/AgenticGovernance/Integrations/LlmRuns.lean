import Mathlib
import AgenticGovernance.Cost.Pricing
import AgenticGovernance.Support.PyValue

/-!
# Prices of LangChain runs

The start callback of an LLM run leaves the name of its model in `self._last_model`, and the
end callback prices the tokens of its run with the model that it finds there.  One handler has
one such attribute for all its runs, so an end callback prices with the model that was named
last, whichever run named it.

The callbacks of a run arrive as dictionaries of arbitrary Python values.  `str` and `int` are
parameters, which may raise.  What a callback does before its first `await` happens at once.
Amounts are of any type with the arithmetic of `estimate_cost` and a comparison.
-/

namespace AgenticGovernance.Integrations

open Support Cost

/-! ## Reading the arguments -/

/-- `value.get(key, default)`, which only a dictionary has. -/
def dictGet (value : PyValue) (key : String) (default : PyValue) : Option PyValue :=
  match value with
  | .dict entries => some ((entries.lookup (.str key)).getD default)
  | _ => none

/-- `value[-1]` -/
def lastItem : PyValue → Option PyValue
  | .list items => items.getLast?
  | .tuple items => items.getLast?
  | .str s => s.toList.getLast?.map fun c => .str (String.singleton c)
  | .dict entries => entries.lookup (.int (-1))
  | _ => none

/-- The model of a start callback; `none` when an exception is raised on the way. -/
def startModel (serialized invocationParams : PyValue) : Option PyValue := do
  let ids ← dictGet serialized "id" (.list [.str "unknown"])
  let last ← lastItem ids
  let model ← dictGet serialized "name" last
  match invocationParams with
  | .dict _ =>
      let model ← dictGet invocationParams "model" model
      dictGet invocationParams "model_name" model
  | _ => some model

/-- `t.get("function", {}).get("name", "") if isinstance(t, dict) else ""` -/
def toolFunctionName (t : PyValue) : Option PyValue :=
  match t with
  | .dict _ => do
      let function ← dictGet t "function" (.dict [])
      dictGet function "name" (.str "")
  | _ => some (.str "")

/-- Values that a set can hold. -/
def hashable : PyValue → Bool
  | .list _ => false
  | .dict _ => false
  | .tuple items => items.attach.all fun item => hashable item.1
  | _ => true
termination_by value => sizeOf value
decreasing_by
  have := List.sizeOf_lt_of_mem item.2
  simp
  omega

/-- A tool of the list that is taken out of it. -/
def isHiddenTool (hiddenTools : Finset String) (t : PyValue) : Bool :=
  match t, toolFunctionName t with
  | .dict _, some (.str name) => decide (name ∈ hiddenTools)
  | _, _ => false

/-- The tools that the model gets to see.  `hiddenTools` is those of the scope policy, `none`
without one; `none` is returned when an exception is raised on the way. -/
def visibleTools (hiddenTools : Option (Finset String)) (tools : List PyValue) :
    Option (List PyValue) := do
  let names ← tools.mapM toolFunctionName
  match hiddenTools with
  | none => some []
  | some hidden =>
      if hidden = ∅ then some tools
      else if names.all hashable then some (tools.filter fun t => !isHiddenTool hidden t)
      else none

/-- The invocation parameters after the filtering of `on_llm_start`. -/
def filteredParams (hiddenTools : Option (Finset String)) (invocationParams : PyValue) :
    Option PyValue :=
  match invocationParams with
  | .dict entries =>
      match entries.lookup (.str "tools") with
      | some (.list tools) => (visibleTools hiddenTools tools).map fun visible =>
          .dict (entries.map fun e => if e.1 = .str "tools" then (e.1, .list visible) else e)
      | _ => some invocationParams
  | _ => some invocationParams

/-! ## The callbacks -/

/-- What the handler has from outside: Python's `str` and `int`, the hidden tools of its
agent, and `_unknown_model_fallback_usd_per_million` of the cost module. -/
structure LlmEnv (U : Type) where
  str : PyValue → Option String
  int : PyValue → Option ℤ
  hiddenTools : Option (Finset String)
  unknownModelFallback : Option U

/-- The arguments of a start callback, `on_llm_start` or `aon_llm_start`. -/
structure LlmStart where
  sync : Bool
  serialized : PyValue
  invocationParams : PyValue

/-- The argument of an end callback; `none` is a response without `llm_output`. -/
structure LlmEnd where
  llmOutput : Option PyValue

/-- The handler, with what it has given `sdk.cost.track` and the store has accepted. -/
structure LlmHandler (U : Type) (ι : Type*) where
  lastModel : Option String
  unknownModelWarned : Finset String
  tracked : List (ι × ℤ × U)

namespace LlmEnv

variable {U : Type} {ι : Type*}

section Starts

variable (env : LlmEnv U)

/-- The model that a run is given at its start. -/
def given (a : LlmStart) : Option String :=
  (startModel a.serialized a.invocationParams).bind env.str

/-- `on_llm_start`, with the invocation parameters as it leaves them. -/
def onLlmStart (s : LlmHandler U ι) (a : LlmStart) : LlmHandler U ι × PyValue :=
  match startModel a.serialized a.invocationParams,
      filteredParams env.hiddenTools a.invocationParams with
  | some value, some params =>
      match env.str value with
      | some model => ({ s with lastModel := some model }, params)
      | none => (s, params)
  | _, _ => (s, a.invocationParams)

def aonLlmStart (s : LlmHandler U ι) (a : LlmStart) : LlmHandler U ι :=
  match env.given a with
  | some model => { s with lastModel := some model }
  | none => s

/-- `token_usage` of an end callback. -/
def tokenUsage (e : LlmEnd) : PyValue :=
  match e.llmOutput with
  | some (.dict entries) => (entries.lookup (.str "token_usage")).getD (.dict [])
  | _ => .dict []

/-- `int(token_usage.get(key, 0))` -/
def tokens (e : LlmEnd) (key : String) : Option ℤ :=
  (dictGet (tokenUsage e) key (.int 0)).bind env.int

end Starts

section Ends

variable [Zero U] [Add U] [Mul U] [Div U] [PriceNumbers U] [LT U] [DecidableLT U]
  (env : LlmEnv U)

def fallback : U := env.unknownModelFallback.getD 0

/-- `estimate_cost` as the handler calls it. -/
def laxEstimate (model : String) (promptTokens completionTokens : ℤ) : Except EstimateError U :=
  estimateCost model promptTokens completionTokens false (some env.fallback)

/-- `_estimate_cost_safe`; each of its two handlers returns `0.0`. -/
def estimateCostSafe (s : LlmHandler U ι) (model : String) (promptTokens completionTokens : ℤ) :
    LlmHandler U ι × U :=
  let isKnown := (modelPricing.map Prod.fst).any (startsWith model)
  let warned :=
    if !isKnown && decide (model ∉ s.unknownModelWarned) then
      insert model s.unknownModelWarned
    else s.unknownModelWarned
  ({ s with unknownModelWarned := warned },
    match env.laxEstimate model promptTokens completionTokens with
    | .ok usd => usd
    | .error (.unknownModel _) => 0
    | .error .overflow => 0)

/-- `_cost_track`: the cost module rejects negative deltas. -/
def costTrack (s : LlmHandler U ι) (i : ι) (tokens : ℤ) (usd : U) : LlmHandler U ι :=
  if tokens < 0 ∨ usd < 0 then s
  else { s with tracked := s.tracked ++ [(i, tokens, usd)] }

/-- `on_llm_end` and `aon_llm_end`, for a run. -/
def llmEnd (s : LlmHandler U ι) (i : ι) (e : LlmEnd) : LlmHandler U ι :=
  match env.tokens e "total_tokens" with
  | none => s
  | some total =>
      if 0 < total then
        match s.lastModel.filter (· ≠ "") with
        | some model =>
            match env.tokens e "prompt_tokens", env.tokens e "completion_tokens" with
            | some promptTokens, some completionTokens =>
                let (s, usd) := env.estimateCostSafe s model promptTokens completionTokens
                costTrack s i total usd
            | _, _ => s
        | none => costTrack s i total 0
      else s

end Ends

end LlmEnv

/-! ## Runs -/

inductive LlmEvent (ι : Type*) where
  | llmStart (i : ι) (a : LlmStart)
  | llmEnd (i : ι) (e : LlmEnd)

section Runs

variable {U : Type} {ι : Type*}

def LlmEvent.started : LlmEvent ι → Option ι
  | .llmStart i _ => some i
  | .llmEnd .. => none

def LlmEvent.ended : LlmEvent ι → Option ι
  | .llmStart .. => none
  | .llmEnd i _ => some i

/-- Every run starts and ends at most once, and starts before it ends. -/
structure Consistent (events : List (LlmEvent ι)) : Prop where
  starts : (events.filterMap LlmEvent.started).Nodup
  ends : (events.filterMap LlmEvent.ended).Nodup
  order : ∀ before i e after, events = before ++ .llmEnd i e :: after →
    ∃ a, .llmStart i a ∈ before

/-- A run that has ended, with the model given at its start and the tokens of its end. -/
structure EndedRun (env : LlmEnv U) (events before : List (LlmEvent ι)) (i : ι) (e : LlmEnd)
    (model : String) (promptTokens completionTokens : ℤ) : Prop where
  ended : ∃ after, events = before ++ .llmEnd i e :: after
  given : ∃ a, .llmStart i a ∈ before ∧ env.given a = some model
  prompt : env.tokens e "prompt_tokens" = some promptTokens
  completion : env.tokens e "completion_tokens" = some completionTokens

/-- The model that a start callback gets as far as naming: on the synchronous path an
exception of the tool filtering comes first. -/
def named (env : LlmEnv U) : LlmEvent ι → Option String
  | .llmStart _ a =>
      if a.sync && (filteredParams env.hiddenTools a.invocationParams).isNone then none
      else env.given a
  | .llmEnd .. => none

/-- The model that was named last. -/
def lastNamed (env : LlmEnv U) (before : List (LlmEvent ι)) : Option String :=
  (before.filterMap (named env)).getLast?

/-- The model that an end callback prices with, if it prices at all. -/
def pricedWith (env : LlmEnv U) (before : List (LlmEvent ι)) (e : LlmEnd) : Option String :=
  match env.tokens e "total_tokens" with
  | some total => if 0 < total then (lastNamed env before).filter (· ≠ "") else none
  | none => none

/-- The USD that the end callback of a run has tracked. -/
def trackedUsd [Zero U] [DecidableEq ι] (s : LlmHandler U ι) (i : ι) : U :=
  ((s.tracked.find? fun entry => entry.1 = i).map fun entry => entry.2.2).getD 0

variable [Zero U] [Add U] [Mul U] [Div U] [PriceNumbers U] [LT U] [DecidableLT U]
  (env : LlmEnv U)

def llmStep (s : LlmHandler U ι) : LlmEvent ι → LlmHandler U ι
  | .llmStart _ a => if a.sync then (env.onLlmStart s a).1 else env.aonLlmStart s a
  | .llmEnd i e => env.llmEnd s i e

/-- A new handler after some callbacks. -/
def afterCallbacks (events : List (LlmEvent ι)) : LlmHandler U ι :=
  events.foldl (llmStep env) ⟨none, ∅, []⟩

/-- The USD tracked for each run is what its tokens cost at its own model. -/
def OwnPrices [DecidableEq ι] (events : List (LlmEvent ι)) : Prop :=
  ∀ before i e model promptTokens completionTokens,
    EndedRun env events before i e model promptTokens completionTokens →
      env.laxEstimate model promptTokens completionTokens =
        .ok (trackedUsd (afterCallbacks env events) i)

/-- What a model charges for some tokens, if that can be computed and is not negative. -/
def charge (model : String) (promptTokens completionTokens : ℤ) : Option U :=
  (env.laxEstimate model promptTokens completionTokens).toOption.filter fun usd => ¬ usd < 0

/-- The model named last charges for the tokens what the own model charges; tokens that are
not charged for cost nothing. -/
def PricedAlike (before : List (LlmEvent ι)) (e : LlmEnd) (model : String)
    (promptTokens completionTokens : ℤ) : Prop :=
  match (pricedWith env before e).bind fun last =>
      charge env last promptTokens completionTokens with
  | some usd => env.laxEstimate model promptTokens completionTokens = .ok usd
  | none => env.laxEstimate model promptTokens completionTokens = .ok 0

variable {env}

theorem charge_eq_some_iff {model : String} {promptTokens completionTokens : ℤ} {usd : U} :
    charge env model promptTokens completionTokens = some usd ↔
      env.laxEstimate model promptTokens completionTokens = .ok usd ∧ ¬ usd < 0 := by
  rw [charge, Option.filter_eq_some_iff, decide_eq_true_iff]
  rcases env.laxEstimate model promptTokens completionTokens with error | usd'
  · simp [Except.toOption]
  · simp [Except.toOption]

/-- No other run has named a model since, and the charge is one that `track` accepts. -/
theorem pricedAlike_of_own {before : List (LlmEvent ι)} {e : LlmEnd} {model : String}
    {promptTokens completionTokens : ℤ} {usd : U} (hown : pricedWith env before e = some model)
    (hcharge : charge env model promptTokens completionTokens = some usd) :
    PricedAlike env before e model promptTokens completionTokens := by
  rw [PricedAlike, hown, Option.bind_some, hcharge]
  exact (charge_eq_some_iff.mp hcharge).1

/-! ## The model that is found -/


/-- An end callback tracks for its own run at most once, and names no model. -/
theorem llmEnd_cases (env : LlmEnv U) (s : LlmHandler U ι) (i : ι) (e : LlmEnd) :
    ∃ warned, ∃ entry : Option (ℤ × U), env.llmEnd s i e =
      ⟨s.lastModel, warned, s.tracked ++ (entry.map fun entry => (i, entry)).toList⟩ := by
  have hsame : s = ⟨s.lastModel, s.unknownModelWarned,
      s.tracked ++ ((none : Option (ℤ × U)).map fun entry => (i, entry)).toList⟩ := by simp
  have htrack : ∀ (s : LlmHandler U ι) (total : ℤ) (usd : U), ∃ entry : Option (ℤ × U),
      LlmEnv.costTrack s i total usd = ⟨s.lastModel, s.unknownModelWarned,
        s.tracked ++ (entry.map fun entry => (i, entry)).toList⟩ := by
    intro s total usd
    rw [LlmEnv.costTrack]
    split
    · exact ⟨none, by simp⟩
    · exact ⟨some (total, usd), rfl⟩
  rw [LlmEnv.llmEnd]
  rcases env.tokens e "total_tokens" with _ | total
  · exact ⟨_, none, hsame⟩
  by_cases hpos : 0 < total
  · simp only [hpos, if_true]
    rcases s.lastModel.filter (· ≠ "") with _ | model
    · obtain ⟨entry, hentry⟩ := htrack s total 0
      exact ⟨_, entry, hentry⟩
    · rcases env.tokens e "prompt_tokens" with _ | promptTokens
      · exact ⟨_, none, hsame⟩
      · rcases env.tokens e "completion_tokens" with _ | completionTokens
        · exact ⟨_, none, hsame⟩
        · obtain ⟨entry, hentry⟩ := htrack
            (env.estimateCostSafe s model promptTokens completionTokens).1 total
            (env.estimateCostSafe s model promptTokens completionTokens).2
          exact ⟨_, entry, hentry⟩
  · simp only [hpos, if_false]
    exact ⟨_, none, hsame⟩

omit [LT U] [DecidableLT U] [Zero U] [Add U] [Mul U] [Div U] [PriceNumbers U] in
theorem lastNamed_concat (before : List (LlmEvent ι)) (event : LlmEvent ι) :
    lastNamed env (before ++ [event]) = (named env event).or (lastNamed env before) := by
  rw [lastNamed, List.filterMap_append, List.getLast?_append, lastNamed]
  rcases hnamed : named env event with _ | model
  · rw [List.filterMap_cons_none hnamed]
    rfl
  · rw [List.filterMap_cons_some hnamed]
    rfl

/-- A start callback leaves the model that it gets as far as naming, and tracks nothing. -/
theorem llmStart_eq (s : LlmHandler U ι) (i : ι) (a : LlmStart) :
    llmStep env s (.llmStart i a) =
      { s with lastModel := (named env (.llmStart i a)).or s.lastModel } := by
  rw [llmStep, named, LlmEnv.onLlmStart, LlmEnv.aonLlmStart, LlmEnv.given]
  rcases startModel a.serialized a.invocationParams with _ | value
  · simp
  · rcases hstr : env.str value with _ | model
    · rcases filteredParams env.hiddenTools a.invocationParams with _ | params
      · simp [hstr]
      · simp [hstr]
    · by_cases hsync : a.sync
      · rcases filteredParams env.hiddenTools a.invocationParams with _ | params
        · simp [hsync]
        · simp [hsync, hstr]
      · simp [hsync, hstr]

/-- The attribute holds the model that was named last. -/
theorem afterCallbacks_lastModel (events : List (LlmEvent ι)) :
    (afterCallbacks env events).lastModel = lastNamed env events := by
  induction events using List.reverseRecOn with
  | nil => rfl
  | append_singleton before event ih =>
      rw [lastNamed_concat, ← ih, afterCallbacks, List.foldl_append, ← afterCallbacks,
        List.foldl_cons, List.foldl_nil]
      cases event with
      | llmStart i a => rw [llmStart_eq]
      | llmEnd i e =>
          obtain ⟨warned, entry, hend⟩ := llmEnd_cases env (afterCallbacks env before) i e
          rw [llmStep, hend]
          rfl

/-! ## What is tracked -/

section Tracked

variable [DecidableEq ι] {i : ι}

/-- The callbacks of other runs leave what is tracked for a run. -/
theorem filter_tracked_step_of_ne (s : LlmHandler U ι) {event : LlmEvent ι}
    (h : event.ended ≠ some i) :
    (llmStep env s event).tracked.filter (fun entry => entry.1 = i) =
      s.tracked.filter fun entry => entry.1 = i := by
  cases event with
  | llmStart j a => rw [llmStart_eq]
  | llmEnd j e =>
      have hne : j ≠ i := fun heq => h (congrArg some heq)
      obtain ⟨warned, entry, hend⟩ := llmEnd_cases env s j e
      rw [llmStep, hend, List.filter_append]
      rcases entry with _ | entry
      · simp
      · simp [hne]

theorem filter_tracked_foldl_of_ne {events : List (LlmEvent ι)}
    (h : ∀ event ∈ events, event.ended ≠ some i) (s : LlmHandler U ι) :
    (events.foldl (llmStep env) s).tracked.filter (fun entry => entry.1 = i) =
      s.tracked.filter fun entry => entry.1 = i := by
  induction events generalizing s with
  | nil => rfl
  | cons event events ih =>
      rw [List.foldl_cons, ih fun e he => h e (List.mem_cons_of_mem event he),
        filter_tracked_step_of_ne s (h event List.mem_cons_self)]

omit [Add U] [Mul U] [Div U] [PriceNumbers U] [LT U] [DecidableLT U] in
theorem trackedUsd_of_filter_eq {s t : LlmHandler U ι}
    (h : s.tracked.filter (fun entry => entry.1 = i) =
      t.tracked.filter fun entry => entry.1 = i) : trackedUsd s i = trackedUsd t i := by
  rw [trackedUsd, trackedUsd, ← List.head?_filter, ← List.head?_filter, h]

omit [Add U] [Mul U] [Div U] [PriceNumbers U] in
/-- The first deltas of a run. -/
theorem trackedUsd_costTrack {s : LlmHandler U ι}
    (hfirst : s.tracked.filter (fun entry => entry.1 = i) = []) {total : ℤ} (hpos : 0 < total)
    (usd : U) : trackedUsd (LlmEnv.costTrack s i total usd) i = if usd < 0 then 0 else usd := by
  rw [LlmEnv.costTrack, trackedUsd]
  by_cases hneg : usd < 0
  · rw [if_pos (Or.inr hneg), if_pos hneg, ← List.head?_filter, hfirst]
    rfl
  · rw [if_neg (not_or.mpr ⟨by omega, hneg⟩), if_neg hneg, ← List.head?_filter,
      List.filter_append, hfirst]
    simp

/-- What the end callback of a run tracks, whose tokens can be read. -/
theorem trackedUsd_llmEnd {before : List (LlmEvent ι)} {e : LlmEnd}
    {promptTokens completionTokens : ℤ}
    (hfirst : (afterCallbacks env before).tracked.filter (fun entry => entry.1 = i) = [])
    (hprompt : env.tokens e "prompt_tokens" = some promptTokens)
    (hcompletion : env.tokens e "completion_tokens" = some completionTokens) :
    trackedUsd (env.llmEnd (afterCallbacks env before) i e) i =
      ((pricedWith env before e).bind fun last =>
        charge env last promptTokens completionTokens).getD 0 := by
  have hnothing : trackedUsd (afterCallbacks env before) i = 0 := by
    rw [trackedUsd, ← List.head?_filter, hfirst]
    rfl
  rw [LlmEnv.llmEnd, pricedWith, afterCallbacks_lastModel]
  rcases env.tokens e "total_tokens" with _ | total
  · exact hnothing
  by_cases hpos : 0 < total
  · simp only [hpos, if_true]
    rcases (lastNamed env before).filter (· ≠ "") with _ | model
    · exact (trackedUsd_costTrack hfirst hpos 0).trans (ite_self 0)
    · simp only [hprompt, hcompletion]
      have hsafe : (env.estimateCostSafe (afterCallbacks env before) model promptTokens
          completionTokens).1.tracked.filter (fun entry => entry.1 = i) = [] := hfirst
      refine (trackedUsd_costTrack hsafe hpos _).trans ?_
      rw [LlmEnv.estimateCostSafe, Option.bind_some, charge]
      rcases env.laxEstimate model promptTokens completionTokens with (_ | _) | usd
      · exact ite_self 0
      · exact ite_self 0
      · by_cases hneg : usd < 0
        · simp [Except.toOption, Option.filter, hneg]
        · simp [Except.toOption, Option.filter, hneg]
  · simpa [hpos] using hnothing

/-- What a run has been charged in the end. -/
theorem EndedRun.trackedUsd_eq {events before : List (LlmEvent ι)} {e : LlmEnd} {model : String}
    {promptTokens completionTokens : ℤ} (hevents : Consistent events)
    (h : EndedRun env events before i e model promptTokens completionTokens) :
    trackedUsd (afterCallbacks env events) i =
      ((pricedWith env before e).bind fun last =>
        charge env last promptTokens completionTokens).getD 0 := by
  obtain ⟨after, rfl⟩ := h.ended
  have honce := hevents.ends
  have hend : LlmEvent.ended (.llmEnd i e) = some i := rfl
  rw [List.filterMap_append, List.filterMap_cons_some hend, List.nodup_append] at honce
  obtain ⟨-, hlater, hearlier⟩ := honce
  have hbefore : ∀ event ∈ before, event.ended ≠ some i := fun event hevent hended =>
    hearlier i (List.mem_filterMap.mpr ⟨event, hevent, hended⟩) i List.mem_cons_self rfl
  have hafter : ∀ event ∈ after, event.ended ≠ some i := fun event hevent hended =>
    (List.nodup_cons.mp hlater).1 (List.mem_filterMap.mpr ⟨event, hevent, hended⟩)
  have hfirst : (afterCallbacks env before).tracked.filter (fun entry => entry.1 = i) = [] :=
    filter_tracked_foldl_of_ne hbefore _
  rw [afterCallbacks, List.foldl_append, List.foldl_cons,
    trackedUsd_of_filter_eq (filter_tracked_foldl_of_ne hafter _), ← afterCallbacks]
  exact trackedUsd_llmEnd hfirst h.prompt h.completion

/-- For any interleaving of LLM runs, each run is priced with its own model if and only if, at
each end callback, the model that was named last charges for its tokens what its own model
charges. -/
theorem own_prices_iff (env : LlmEnv U) {events : List (LlmEvent ι)}
    (hevents : Consistent events) :
    OwnPrices env events ↔
      ∀ before i e model promptTokens completionTokens,
        EndedRun env events before i e model promptTokens completionTokens →
          PricedAlike env before e model promptTokens completionTokens := by
  refine forall_congr' fun before => forall_congr' fun i => forall_congr' fun e =>
    forall_congr' fun model => forall_congr' fun promptTokens =>
      forall_congr' fun completionTokens => forall_congr' fun hended => ?_
  rw [hended.trackedUsd_eq hevents, PricedAlike]
  rcases (pricedWith env before e).bind fun last =>
      charge env last promptTokens completionTokens with _ | usd
  · rfl
  · rfl

end Tracked

end Runs

/-! ## Two runs -/

/-- Dictionaries of text and integers. -/
def plainEnv : LlmEnv ℚ where
  str := fun
    | .str s => some s
    | _ => none
  int := fun
    | .int n => some n
    | _ => none
  hiddenTools := some ∅
  unknownModelFallback := none

def startOf (model : String) : LlmStart :=
  ⟨false, .dict [(.str "name", .str model)], .dict []⟩

/-- A thousand tokens of the prompt. -/
def thousandTokens : LlmEnd :=
  ⟨some (.dict [(.str "token_usage", .dict
    [(.str "prompt_tokens", .int 1000), (.str "completion_tokens", .int 0),
      (.str "total_tokens", .int 1000)])])⟩

def oneAfterTheOther : List (LlmEvent Bool) :=
  [.llmStart false (startOf "gpt-4o"), .llmEnd false thousandTokens,
    .llmStart true (startOf "gpt-4"), .llmEnd true thousandTokens]

def overlapping : List (LlmEvent Bool) :=
  [.llmStart false (startOf "gpt-4o"), .llmStart true (startOf "gpt-4"),
    .llmEnd false thousandTokens, .llmEnd true thousandTokens]

/-- The places of the events in a run of four. -/
theorem four_eq_append_cons {α : Type} {a b c d e : α} {before after : List α}
    (h : [a, b, c, d] = before ++ e :: after) :
    (before = [] ∧ a = e) ∨ (before = [a] ∧ b = e) ∨ (before = [a, b] ∧ c = e) ∨
      (before = [a, b, c] ∧ d = e) := by
  rcases before with _ | ⟨e₁, _ | ⟨e₂, _ | ⟨e₃, _ | ⟨e₄, before⟩⟩⟩⟩
  · cases h
    exact Or.inl ⟨rfl, rfl⟩
  · cases h
    exact Or.inr (Or.inl ⟨rfl, rfl⟩)
  · cases h
    exact Or.inr (Or.inr (Or.inl ⟨rfl, rfl⟩))
  · cases h
    exact Or.inr (Or.inr (Or.inr ⟨rfl, rfl⟩))
  · simp at h

theorem oneAfterTheOther_consistent : Consistent oneAfterTheOther := by
  refine ⟨by decide, by decide, fun before i e after h => ?_⟩
  obtain ⟨-, he⟩ | ⟨rfl, he⟩ | ⟨-, he⟩ | ⟨rfl, he⟩ := four_eq_append_cons h
  · cases he
  · cases he
    exact ⟨_, List.mem_cons_self⟩
  · cases he
  · cases he
    exact ⟨startOf "gpt-4", by simp⟩

theorem overlapping_consistent : Consistent overlapping := by
  refine ⟨by decide, by decide, fun before i e after h => ?_⟩
  obtain ⟨-, he⟩ | ⟨-, he⟩ | ⟨rfl, he⟩ | ⟨rfl, he⟩ := four_eq_append_cons h
  · cases he
  · cases he
  · cases he
    exact ⟨_, List.mem_cons_self⟩
  · cases he
    exact ⟨startOf "gpt-4", by simp⟩

/-- Runs that do not overlap. -/
theorem oneAfterTheOther_own_prices : OwnPrices plainEnv oneAfterTheOther := by
  refine (own_prices_iff plainEnv oneAfterTheOther_consistent).mpr ?_
  rintro before i e model promptTokens completionTokens
    ⟨⟨after, h⟩, ⟨a, ha, hgiven⟩, hprompt, hcompletion⟩
  obtain ⟨-, he⟩ | ⟨rfl, he⟩ | ⟨-, he⟩ | ⟨rfl, he⟩ := four_eq_append_cons h
  · cases he
  · cases he
    obtain rfl : a = startOf "gpt-4o" := by simpa using ha
    obtain rfl := Option.some.inj hgiven
    obtain rfl := Option.some.inj hprompt
    obtain rfl := Option.some.inj hcompletion
    have hcharge : charge plainEnv "gpt-4o" 1000 0 = some (1 / 400) := by decide +kernel
    exact pricedAlike_of_own (by decide +kernel) hcharge
  · cases he
  · cases he
    obtain rfl : a = startOf "gpt-4" := by simpa using ha
    obtain rfl := Option.some.inj hgiven
    obtain rfl := Option.some.inj hprompt
    obtain rfl := Option.some.inj hcompletion
    have hcharge : charge plainEnv "gpt-4" 1000 0 = some (3 / 100) := by decide +kernel
    exact pricedAlike_of_own (by decide +kernel) hcharge

/-- The first run to end is priced with the model of the other. -/
theorem overlapping_swaps_prices :
    ¬ ∀ (env : LlmEnv ℚ) (events : List (LlmEvent Bool)), Consistent events →
      OwnPrices env events := by
  intro h
  have hended : EndedRun plainEnv overlapping
      [.llmStart false (startOf "gpt-4o"), .llmStart true (startOf "gpt-4")] false
      thousandTokens "gpt-4o" 1000 0 :=
    ⟨⟨_, rfl⟩, ⟨_, List.mem_cons_self, rfl⟩, rfl, rfl⟩
  have hprice := h plainEnv overlapping overlapping_consistent _ _ _ _ _ _ hended
  revert hprice
  decide +kernel

end AgenticGovernance.Integrations

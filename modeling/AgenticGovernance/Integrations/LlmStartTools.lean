import AgenticGovernance.Integrations.LlmRuns
import AgenticGovernance.Policies.Persistence

/-!
# Tools at the start of an LLM run

`on_llm_start` takes the hidden tools of its agent out of the invocation parameters before
the model sees them, and all tools of an agent without a policy.  `aon_llm_start` reads the
model from the same parameters and takes nothing out.

`async_hides_iff` says for which tools that makes no difference.
-/

namespace AgenticGovernance.Integrations

open Support Policies

/-- The policies of the scope module, by agent. -/
abbrev ScopeRegistry := Keyed String Policies.ScopePolicy

/-- `ScopeModule.filter_tools`; `none` is `PolicyNotRegistered`. -/
def filterTools (registry : ScopeRegistry) (agentId : String) (tools : List String) :
    Option (List String) :=
  match registry.get? agentId with
  | none => none
  | some policy =>
      if policy.hiddenTools = ∅ then some tools
      else some (tools.filter fun t => t ∉ policy.hiddenTools)

/-- A dictionary with a function of some name, which may be missing and then is empty. -/
structure FunctionTool where
  entries : List (PyKey × PyValue)
  name : String
  named : toolFunctionName (.dict entries) = some (.str name)

def FunctionTool.value (t : FunctionTool) : PyValue := .dict t.entries

/-- The filtering of `on_llm_start`. -/
def startTools (registry : ScopeRegistry) (agentId : String) (tools : List FunctionTool) :
    List FunctionTool :=
  let toolNames := tools.map FunctionTool.name
  match filterTools registry agentId toolNames with
  | none => []
  | some filtered =>
      if filtered.length < toolNames.length then
        let hidden := toolNames.toFinset \ filtered.toFinset
        tools.filter fun t => t.name ∉ hidden
      else tools

/-- What the agent may see: the tools that its policy does not hide, and none without a
policy. -/
def permittedTools (registry : ScopeRegistry) (agentId : String) (tools : List FunctionTool) :
    List FunctionTool :=
  match registry.get? agentId with
  | none => []
  | some policy => tools.filter fun t => t.name ∉ policy.hiddenTools

/-! ## The synchronous callback -/

section

variable {registry : ScopeRegistry} {agentId : String} {tools : List FunctionTool}

theorem filterTools_eq {policy : Policies.ScopePolicy} (h : registry.get? agentId = some policy)
    (names : List String) :
    filterTools registry agentId names = some (names.filter fun t => t ∉ policy.hiddenTools) := by
  rw [filterTools, h]
  dsimp only
  split
  · rename_i hempty
    simp [hempty]
  · rfl

/-- The set difference of the names takes out the hidden tools and nothing else. -/
theorem startTools_eq : startTools registry agentId tools =
    permittedTools registry agentId tools := by
  rw [startTools, permittedTools]
  rcases hpolicy : registry.get? agentId with _ | policy
  · simp only [filterTools, hpolicy]
  · simp only [filterTools_eq hpolicy]
    split
    · apply List.filter_congr
      intro t ht
      have hname : t.name ∈ tools.map FunctionTool.name := List.mem_map_of_mem ht
      simp [hname]
    · rename_i hall
      -- nothing was filtered, so that no tool is hidden
      have hsame : (tools.map FunctionTool.name).filter (fun t => t ∉ policy.hiddenTools) =
          tools.map FunctionTool.name :=
        List.filter_sublist.eq_of_length_le (not_lt.mp hall)
      rw [List.filter_map] at hsame
      have hlength := congrArg List.length hsame
      rw [List.length_map, List.length_map] at hlength
      exact (List.filter_sublist.eq_of_length hlength).symm

theorem mapM_toolFunctionName : (tools.map FunctionTool.value).mapM toolFunctionName =
    some (tools.map fun t => .str t.name) := by
  induction tools with
  | nil => rfl
  | cons t tools ih =>
      rw [List.map_cons, List.mapM_cons, FunctionTool.value, t.named, ih]
      rfl

variable (registry agentId tools) in
/-- On dictionaries the filtering of arbitrary values is this one. -/
theorem visibleTools_eq :
    visibleTools ((registry.get? agentId).map fun policy => policy.hiddenTools)
        (tools.map FunctionTool.value) =
      some ((startTools registry agentId tools).map FunctionTool.value) := by
  rw [startTools_eq, permittedTools, visibleTools, mapM_toolFunctionName]
  rcases registry.get? agentId with _ | policy
  · rfl
  · have hhashable : (tools.map fun t => PyValue.str t.name).all hashable = true := by
      simp [hashable]
    have hhidden : ∀ t : FunctionTool, isHiddenTool policy.hiddenTools t.value =
        decide (t.name ∈ policy.hiddenTools) := by
      intro t
      simp only [FunctionTool.value, isHiddenTool, t.named]
    simp only [Option.map_some, Option.bind_eq_bind, Option.bind_some, hhashable, if_true]
    split
    · rename_i hempty
      simp [hempty]
    · rw [List.filter_map]
      congr 2
      apply List.filter_congr
      intro t _
      simp [hhidden]

end

/-! ## The two callbacks -/

/-- `aon_llm_start`, with the invocation parameters as it leaves them. -/
def LlmEnv.aonLlmStartParams {U : Type} {ι : Type*} (env : LlmEnv U) (s : LlmHandler U ι)
    (a : LlmStart) : LlmHandler U ι × PyValue :=
  match env.given a with
  | some model => ({ s with lastModel := some model }, a.invocationParams)
  | none => (s, a.invocationParams)

/-- `invocation_params.get("tools")` -/
def toolsOf (invocationParams : PyValue) : Option PyValue :=
  match invocationParams with
  | .dict entries => entries.lookup (.str "tools")
  | _ => none

/-- A handler of an agent, and the arguments of a start callback with a list of tools. -/
structure ToolStart (U : Type) (ι : Type*) where
  registry : ScopeRegistry
  agentId : String
  str : PyValue → Option String
  int : PyValue → Option ℤ
  unknownModelFallback : Option U
  handler : LlmHandler U ι
  serialized : PyValue
  params : List (PyKey × PyValue)
  tools : List FunctionTool
  tools_params : params.lookup (.str "tools") = some (.list (tools.map FunctionTool.value))

namespace ToolStart

variable {U : Type} {ι : Type*} (c : ToolStart U ι)

def env : LlmEnv U where
  str := c.str
  int := c.int
  hiddenTools := (c.registry.get? c.agentId).map fun policy => policy.hiddenTools
  unknownModelFallback := c.unknownModelFallback

def call (sync : Bool) : LlmStart := ⟨sync, c.serialized, .dict c.params⟩

/-- The tools that `on_llm_start` leaves in the parameters. -/
def afterSync : Option PyValue := toolsOf (c.env.onLlmStart c.handler (c.call true)).2

/-- The tools that `aon_llm_start` leaves in the parameters. -/
def afterAsync : Option PyValue :=
  toolsOf (c.env.aonLlmStartParams c.handler (c.call false)).2

variable {c}

/-- The asynchronous callback leaves the parameters alone. -/
theorem afterAsync_eq : c.afterAsync = some (.list (c.tools.map FunctionTool.value)) := by
  rw [afterAsync, LlmEnv.aonLlmStartParams, ← c.tools_params]
  rcases c.env.given (c.call false) with _ | model
  · rfl
  · rfl

theorem lookup_map_tools (visible : PyValue) {params : List (PyKey × PyValue)} {v : PyValue}
    (h : params.lookup (.str "tools") = some v) :
    (params.map fun e => if e.1 = .str "tools" then (e.1, visible) else e).lookup
      (.str "tools") = some visible := by
  induction params with
  | nil => simp at h
  | cons e params ih =>
      obtain ⟨key, value⟩ := e
      by_cases hkey : key = .str "tools"
      · simp [hkey]
      · have hne : ((.str "tools" : PyKey) == key) = false := by
          simpa using fun heq => hkey (Eq.symm heq)
        rw [List.lookup_cons, hne] at h
        rw [List.map_cons, if_neg hkey, List.lookup_cons, hne]
        exact ih h

/-- The synchronous callback leaves the permitted tools, unless an exception on the way to
the model comes first. -/
theorem afterSync_eq : c.afterSync =
    if (startModel c.serialized (.dict c.params)).isSome then
      some (.list ((permittedTools c.registry c.agentId c.tools).map FunctionTool.value))
    else some (.list (c.tools.map FunctionTool.value)) := by
  have hfiltered : filteredParams c.env.hiddenTools (.dict c.params) =
      some (.dict (c.params.map fun e => if e.1 = .str "tools" then
        (e.1, .list ((permittedTools c.registry c.agentId c.tools).map FunctionTool.value))
        else e)) := by
    have hvisible := visibleTools_eq c.registry c.agentId c.tools
    rw [startTools_eq] at hvisible
    simp only [filteredParams, c.tools_params, env, hvisible, Option.map_some]
  rw [afterSync, LlmEnv.onLlmStart, call, hfiltered]
  rcases startModel c.serialized (.dict c.params) with _ | value
  · exact c.tools_params
  · dsimp only
    rcases c.env.str value with _ | model
    · exact lookup_map_tools _ c.tools_params
    · exact lookup_map_tools _ c.tools_params

end ToolStart

theorem map_value_inj {tools tools' : List FunctionTool} :
    tools.map FunctionTool.value = tools'.map FunctionTool.value ↔ tools = tools' := by
  apply (List.map_injective_iff.mpr ?_).eq_iff
  intro t t' h
  obtain ⟨entries, name, named⟩ := t
  obtain ⟨entries', name', named'⟩ := t'
  obtain rfl : entries = entries' := PyValue.dict.inj h
  rw [named] at named'
  obtain rfl : name = name' := by simpa using named'
  rfl

/-- The asynchronous callback leaves the tools that the synchronous one leaves, those that
the agent's policy permits, exactly when the policy hides none of them, or there is neither a
policy nor a tool. -/
theorem async_hides_iff {U : Type} {ι : Type*} (c : ToolStart U ι) :
    (c.afterAsync = c.afterSync ∧ c.afterAsync =
      some (.list ((permittedTools c.registry c.agentId c.tools).map FunctionTool.value))) ↔
    match c.registry.get? c.agentId with
    | some policy => ∀ t ∈ c.tools, t.name ∉ policy.hiddenTools
    | none => c.tools = [] := by
  have hpermitted : c.tools = permittedTools c.registry c.agentId c.tools ↔
      match c.registry.get? c.agentId with
      | some policy => ∀ t ∈ c.tools, t.name ∉ policy.hiddenTools
      | none => c.tools = [] := by
    rw [permittedTools]
    rcases c.registry.get? c.agentId with _ | policy
    · rfl
    · rw [eq_comm, List.filter_eq_self]
      simp
  rw [← hpermitted, ToolStart.afterAsync_eq, ToolStart.afterSync_eq]
  constructor
  · intro hleft
    have hvalues := PyValue.list.inj (Option.some.inj hleft.2)
    exact map_value_inj.mp hvalues
  · intro hsame
    rw [← hsame]
    refine ⟨?_, rfl⟩
    split
    · rfl
    · rfl

/-! ## A hidden tool -/

def deleteTool : FunctionTool where
  entries := [(.str "function", .dict [(.str "name", .str "delete_all")])]
  name := "delete_all"
  named := rfl

def hidingPolicy : Policies.ScopePolicy :=
  ⟨⟨"billing-agent", ∅, ∅, {"delete_all"}, ∅⟩, by decide⟩

def hiddenStart : ToolStart ℚ Unit where
  registry := Keyed.empty.set "billing-agent" hidingPolicy
  agentId := "billing-agent"
  str := fun _ => some "gpt-4o"
  int := fun _ => none
  unknownModelFallback := none
  handler := ⟨none, ∅, []⟩
  serialized := .dict [(.str "name", .str "gpt-4o")]
  params := [(.str "tools", .list [deleteTool.value])]
  tools := [deleteTool]
  tools_params := rfl

/-- The hidden tool is gone after the synchronous callback, and there after the other. -/
theorem async_keeps_hidden_tool :
    hiddenStart.afterSync = some (.list []) ∧
      hiddenStart.afterAsync = some (.list [deleteTool.value]) ∧
      "delete_all" ∈ hidingPolicy.hiddenTools ∧ hiddenStart.afterAsync ≠ hiddenStart.afterSync := by
  have hsync : hiddenStart.afterSync = some (.list []) := by
    rw [ToolStart.afterSync_eq]
    rfl
  refine ⟨hsync, ToolStart.afterAsync_eq, by decide, ?_⟩
  rw [hsync, ToolStart.afterAsync_eq]
  intro hsame
  have hnil := PyValue.list.inj (Option.some.inj hsame)
  simp [hiddenStart] at hnil

end AgenticGovernance.Integrations

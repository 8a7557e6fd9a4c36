import Mathlib
import AgenticGovernance.Support.Transition

/-!
# Stream accounting

A streaming call charges its projected tokens when it starts.  The proxy returned in place
of the stream reconciles them with the usage that the provider reports: at the end of an
iteration, when an iteration is torn down, or when the context of the stream exits.  All
proxies of one stream share a dictionary whose flag `reconciled` lets one of these paths
through.  The finalizer of a collected proxy sets the same flag and charges nothing.

The model has the proxies and generators of one stream, and the reconciliations that have
been called and not finished.  The stream itself and the charges are the environment.
-/

namespace AgenticGovernance.Integrations

open Support

/-! ## Usage -/

inductive Vendor where
  | openai
  | anthropic
  deriving DecidableEq, Repr

/-- A usage block; Anthropic says `input` and `output` tokens. -/
structure UsageBlock where
  prompt : Option ℤ
  completion : Option ℤ
  total : Option ℤ
  deriving DecidableEq, Repr

def UsageBlock.sum (u : UsageBlock) : Option ℤ := do
  let prompt ← u.prompt
  let completion ← u.completion
  return prompt + completion

/-- `_extract_chunk_usage` of the usage of a chunk. -/
def extractChunkUsage (usage : Option UsageBlock) : Option UsageBlock := do
  let u ← usage
  let out : UsageBlock := { u with total := u.total <|> u.sum }
  if out = ⟨none, none, none⟩ then none else some out

/-- `_extract_token_usage` of an Anthropic message. -/
def extractTokenUsage (u : UsageBlock) : UsageBlock := { u with total := u.sum }

def streamChunkTokenEstimate : ℤ := 8

/-- The usage that `_reconcile_openai_stream` and `_reconcile_stream_usage_async` charge. -/
def resolveUsage (finalUsage : Option UsageBlock) (projectedTokens : ℤ) (chunksSeen : ℕ)
    (tornDown : Bool) : Option UsageBlock :=
  if (finalUsage.bind fun u => u.total).isSome then finalUsage
  else if tornDown ∧ 0 < chunksSeen then
    let estimatedActual := max projectedTokens (chunksSeen * streamChunkTokenEstimate)
    some ⟨some 0, some estimatedActual, some estimatedActual⟩
  else none

/-! ## Charges -/

section Charges

variable {U : Type} [Zero U] [Sub U] [LinearOrder U]

/-- The call of `track` made by `CostModule.reconcile`. -/
def reconcile (projectedTokens actualTokens : ℤ) (projectedUsd actualUsd : U) :
    Option (ℤ × U) :=
  let tokenDelta := actualTokens - projectedTokens
  let usdDelta := actualUsd - projectedUsd
  let (tokenDelta, usdDelta) :=
    if tokenDelta < 0 ∨ usdDelta < 0 then (max 0 tokenDelta, max 0 usdDelta)
    else (tokenDelta, usdDelta)
  if tokenDelta = 0 ∧ usdDelta = 0 then none else some (tokenDelta, usdDelta)

/-- The call of `track` for the actual usage, with a cost module that has `reconcile` or an
older one. -/
def streamCharge (hasReconcile : Bool) (projectedTokens actualTokens : ℤ) (actualUsd : U) :
    Option (ℤ × U) :=
  if hasReconcile then reconcile projectedTokens actualTokens 0 actualUsd
  else
    let tokenDelta := max 0 (actualTokens - projectedTokens)
    if 0 < tokenDelta ∨ 0 < actualUsd then some (tokenDelta, actualUsd) else none

def chargedTokens : Option (ℤ × U) → ℤ
  | none => 0
  | some charge => charge.1

omit [Zero U] [Sub U] [LinearOrder U] in
@[simp] theorem chargedTokens_none : chargedTokens (none : Option (ℤ × U)) = 0 := rfl

theorem chargedTokens_reconcile (p a : ℤ) (pUsd aUsd : U) :
    chargedTokens (reconcile p a pUsd aUsd) = max 0 (a - p) := by
  simp only [reconcile]
  by_cases hneg : a - p < 0 ∨ aUsd - pUsd < 0
  · simp only [if_pos hneg]
    split_ifs with hzero
    · rw [chargedTokens_none, hzero.1]
    · rfl
  · simp only [if_neg hneg]
    have hpos : 0 ≤ a - p := by
      rw [not_or, not_lt] at hneg
      exact hneg.1
    rw [max_eq_right hpos]
    split_ifs with hzero
    · rw [chargedTokens_none, hzero.1]
    · rfl

/-- Either way the tokens charged are what the actual usage exceeds the projection by. -/
theorem chargedTokens_streamCharge (hasReconcile : Bool) (p a : ℤ) (usd : U) :
    chargedTokens (streamCharge hasReconcile p a usd) = max 0 (a - p) := by
  cases hasReconcile with
  | true => exact chargedTokens_reconcile p a 0 usd
  | false =>
      simp only [streamCharge, Bool.false_eq_true, ↓reduceIte]
      split_ifs with hpos
      · rfl
      · rw [not_or, not_lt] at hpos
        exact le_antisymm (le_max_left _ _) hpos.1

end Charges

/-! ## Proxies of one stream -/

/-- The dictionary shared by the proxies; Anthropic has no `last_usage`. -/
structure StreamDict where
  reconciled : Bool
  chunksSeen : ℕ
  lastUsage : Option UsageBlock

inductive ProxyPhase where
  | absent
  | alive
  | collected

/-- A generator made by `__aiter__` or, when `sync`, by `__iter__` of a proxy. -/
inductive GenPhase where
  | absent
  | fresh (proxy : ℕ) (sync : Bool)
  | started (proxy : ℕ) (sync : Bool)
  | ended

/-- `__iter__` is itself the generator function, so its frame refers to the proxy; the
generator inside `__aiter__` refers to the dictionary only. -/
def GenPhase.RefersTo (i : ℕ) : GenPhase → Prop
  | fresh j sync => sync = true ∧ j = i
  | started j sync => sync = true ∧ j = i
  | _ => False

/-- A call of `_run_reconcile`, awaited or spawned, and the proxy whose method awaits it. -/
inductive ReconcileCall (U : Type) where
  | called (holder : Option ℕ) (tornDown : Bool)
  /-- the flag is set and the charge is being made -/
  | charging (holder : Option ℕ) (charge : Option (ℤ × U))

namespace ReconcileCall

variable {U : Type}

def holder : ReconcileCall U → Option ℕ
  | called holder _ => holder
  | charging holder _ => holder

/-- The tokens that the call is about to charge. -/
def owed : ReconcileCall U → ℤ
  | called _ _ => 0
  | charging _ charge => chargedTokens charge

end ReconcileCall

structure StreamConfig (U : Type) where
  vendor : Vendor
  /-- the result of `_resolve_projected_tokens` -/
  projected : Option ℤ
  hasReconcile : Bool
  /-- `_estimate_usd` for the model of the call -/
  estimateUsd : UsageBlock → U

namespace StreamConfig

variable {U : Type} (cfg : StreamConfig U)

/-- What `_handle_streaming_response` charges at the start and hands to the proxy. -/
def projectedTokens : ℤ :=
  match cfg.projected with
  | none => 0
  | some p => if 0 < p then p else 0

/-- The usage known at a reconciliation: the last chunk usage, or the usage that
`_extract_final_stream_usage` finds on the stream. -/
def finalUsage (dict : StreamDict) (probe : Option UsageBlock) : Option UsageBlock :=
  match cfg.vendor with
  | .openai => dict.lastUsage
  | .anthropic => probe.map extractTokenUsage

/-- The dictionary after a chunk. -/
def seeChunk (dict : StreamDict) (usage : Option UsageBlock) : StreamDict :=
  { dict with
    chunksSeen := dict.chunksSeen + 1
    lastUsage :=
      match cfg.vendor with
      | .openai => extractChunkUsage usage <|> dict.lastUsage
      | .anthropic => dict.lastUsage }

end StreamConfig

/-- One streaming call.  `recorded` sums the tokens of the charges made for it, and
`reconciliations` counts the runs of its reconciliation. -/
structure StreamRun (U : Type) where
  dict : StreamDict
  proxies : ℕ → ProxyPhase
  gens : ℕ → GenPhase
  pending : List (ReconcileCall U)
  recorded : ℤ
  reconciliations : ℕ
  /-- an iteration has ended or the context has exited -/
  finished : Bool

inductive StreamAct where
  | enter (i j : ℕ)
  | iterate (i g : ℕ)
  | chunk (g : ℕ) (usage : Option UsageBlock)
  | exhaust (g : ℕ)
  | tearDown (g : ℕ)
  | discard (g : ℕ)
  | exit (i : ℕ)
  | finalize (i : ℕ)
  | reconcile (probe : Option UsageBlock)
  | charge (ok : Bool)

section Steps

variable {U : Type} [Zero U] [Sub U] [LinearOrder U]

/-- `_handle_streaming_response` has charged the projection, unless `_safe_cost_track` has
swallowed an error, and has returned the proxy. -/
def StreamRun.initial (cfg : StreamConfig U) (ok : Bool) : StreamRun U where
  dict := ⟨false, 0, none⟩
  proxies := Function.update (fun _ => .absent) 0 .alive
  gens _ := .absent
  pending := []
  recorded := if ok then cfg.projectedTokens else 0
  reconciliations := 0
  finished := false

namespace StreamRun

variable (s : StreamRun U)

/-- The generator `g` ends and calls `_run_reconcile`. -/
def endGen (g : ℕ) (holder : Option ℕ) (tornDown : Bool) : StreamRun U :=
  { s with
    gens := Function.update s.gens g .ended
    pending := s.pending ++ [.called holder tornDown]
    finished := true }

/-- The call of `_run_reconcile` between `before` and `after` finds the flag unset. -/
def runReconcile (cfg : StreamConfig U) (before after : List (ReconcileCall U))
    (holder : Option ℕ) (tornDown : Bool) (probe : Option UsageBlock) : StreamRun U :=
  let usage := resolveUsage (cfg.finalUsage s.dict probe) cfg.projectedTokens
    s.dict.chunksSeen tornDown
  { s with
    dict := { s.dict with reconciled := true }
    reconciliations := s.reconciliations + 1
    pending :=
      match usage with
      | none => before ++ after
      | some u =>
          let charge := streamCharge cfg.hasReconcile cfg.projectedTokens (u.total.getD 0)
            (cfg.estimateUsd u)
          before ++ .charging holder charge :: after }

end StreamRun

inductive StreamStep (cfg : StreamConfig U) :
    StreamRun U → StreamAct → StreamRun U → Prop where
  /-- only Anthropic proxies are context managers -/
  | enter {s i j} (hvendor : cfg.vendor = .anthropic) (hi : s.proxies i = .alive)
      (hj : s.proxies j = .absent) :
      StreamStep cfg s (.enter i j) { s with proxies := Function.update s.proxies j .alive }
  | iterate {s i g sync} (hi : s.proxies i = .alive) (hg : s.gens g = .absent) :
      StreamStep cfg s (.iterate i g)
        { s with gens := Function.update s.gens g (.fresh i sync) }
  | chunk {s i g sync usage} (hg : s.gens g = .fresh i sync ∨ s.gens g = .started i sync) :
      StreamStep cfg s (.chunk g usage)
        { s with
          gens := Function.update s.gens g (.started i sync)
          dict := cfg.seeChunk s.dict usage }
  | exhaust {s i g sync holder}
      (hg : s.gens g = .fresh i sync ∨ s.gens g = .started i sync)
      (hholder : holder = none ∨ sync = true ∧ holder = some i) :
      StreamStep cfg s (.exhaust g) (s.endGen g holder false)
  /-- an exception, a cancellation, or the generator is closed -/
  | tearDown {s i g sync holder}
      (hg : s.gens g = .fresh i sync ∨ s.gens g = .started i sync)
      (hholder : holder = none ∨ sync = true ∧ holder = some i) :
      StreamStep cfg s (.tearDown g) (s.endGen g holder true)
  /-- the body of a generator that was never advanced does not run -/
  | discard {s i g sync} (hg : s.gens g = .fresh i sync) :
      StreamStep cfg s (.discard g) { s with gens := Function.update s.gens g .ended }
  | exit {s i holder tornDown} (hvendor : cfg.vendor = .anthropic)
      (hi : s.proxies i = .alive) (hholder : holder = none ∨ holder = some i) :
      StreamStep cfg s (.exit i)
        { s with pending := s.pending ++ [.called holder tornDown], finished := true }
  /-- nothing refers to the proxy any more -/
  | finalize {s i} (hi : s.proxies i = .alive) (hgens : ∀ g, ¬(s.gens g).RefersTo i)
      (hpending : ∀ c ∈ s.pending, c.holder ≠ some i) :
      StreamStep cfg s (.finalize i)
        { s with
          proxies := Function.update s.proxies i .collected
          dict := { s.dict with reconciled := true } }
  | gated {s before after holder tornDown probe}
      (hpending : s.pending = before ++ .called holder tornDown :: after)
      (hflag : s.dict.reconciled = true) :
      StreamStep cfg s (.reconcile probe) { s with pending := before ++ after }
  | reconcile {s before after holder tornDown probe}
      (hpending : s.pending = before ++ .called holder tornDown :: after)
      (hflag : s.dict.reconciled = false) :
      StreamStep cfg s (.reconcile probe)
        (s.runReconcile cfg before after holder tornDown probe)
  /-- the charge is made, or it fails or is cancelled -/
  | charge {s before after holder charge ok}
      (hpending : s.pending = before ++ .charging holder charge :: after) :
      StreamStep cfg s (.charge ok)
        { s with
          pending := before ++ after
          recorded := s.recorded + if ok then chargedTokens charge else 0 }

/-- The runs of one streaming call whose steps all satisfy `C`; `ok` says that the
projection was charged. -/
def streamRuns (cfg : StreamConfig U) (ok : Bool) (C : StreamRun U → StreamAct → Prop) :
    System (StreamRun U) where
  init s := s = .initial cfg ok
  step s t := ∃ a, StreamStep cfg s a t ∧ C s a

/-! ## What a run charges -/

variable {cfg : StreamConfig U} {a : ℤ} {s t : StreamRun U} {act : StreamAct}

/-- A proxy is collected only after the reconciliation, the exit path that reconciles finds
the final usage `a`, and the charge is made. -/
def ReadsFinal (cfg : StreamConfig U) (a : ℤ) (s : StreamRun U) : StreamAct → Prop
  | .finalize _ => s.dict.reconciled = true
  | .reconcile probe => s.dict.reconciled = true ∨
      ((cfg.finalUsage s.dict probe).bind fun u => u.total) = some a
  | .charge ok => ok = true
  | _ => True

/-- What is recorded and what is owed make up the projection, and after the reconciliation
the larger of projection and actual usage. -/
structure Accounted (cfg : StreamConfig U) (a : ℤ) (s : StreamRun U) : Prop where
  balance : s.recorded + (s.pending.map fun c => c.owed).sum =
    if s.dict.reconciled then max cfg.projectedTokens a else cfg.projectedTokens
  once : s.reconciliations = if s.dict.reconciled then 1 else 0
  called : s.finished = true → s.dict.reconciled = true ∨
    ∃ holder tornDown, ReconcileCall.called holder tornDown ∈ s.pending

namespace Accounted

omit [Zero U] [Sub U] [LinearOrder U] in
theorem initial : Accounted cfg a (.initial cfg true) where
  balance := by simp [StreamRun.initial]
  once := rfl
  called := by simp [StreamRun.initial]

omit [Zero U] [Sub U] [LinearOrder U] in
/-- A further call of `_run_reconcile` owes nothing yet. -/
theorem append_called (h : Accounted cfg a s) {holder : Option ℕ} {tornDown : Bool}
    {gens : ℕ → GenPhase} :
    Accounted cfg a
      { s with
        gens := gens
        pending := s.pending ++ [.called holder tornDown]
        finished := true } where
  balance := by
    rw [← h.balance]
    simp [ReconcileCall.owed]
  once := h.once
  called := fun _ => Or.inr ⟨holder, tornDown, by simp⟩

/-- The call that reconciles owes what the final usage exceeds the projection by. -/
theorem runReconcile (h : Accounted cfg a s) {before after : List (ReconcileCall U)}
    {holder : Option ℕ} {tornDown : Bool} {probe : Option UsageBlock}
    (hpending : s.pending = before ++ .called holder tornDown :: after)
    (hflag : s.dict.reconciled = false)
    (husage : ((cfg.finalUsage s.dict probe).bind fun u => u.total) = some a) :
    Accounted cfg a (s.runReconcile cfg before after holder tornDown probe) := by
  obtain ⟨u, hu, htotal⟩ := Option.bind_eq_some_iff.mp husage
  have hresolved : resolveUsage (cfg.finalUsage s.dict probe) cfg.projectedTokens
      s.dict.chunksSeen tornDown = some u := by
    rw [resolveUsage, husage, hu]
    rfl
  refine ⟨?_, ?_, fun _ => Or.inl rfl⟩
  · have hbalance := h.balance
    rw [hpending, hflag] at hbalance
    simp only [StreamRun.runReconcile, hresolved, htotal]
    simp only [List.map_append, List.map_cons, List.sum_append, List.sum_cons,
      ReconcileCall.owed, chargedTokens_streamCharge, Bool.false_eq_true, ↓reduceIte,
      Option.getD_some] at hbalance ⊢
    omega
  · have honce := h.once
    rw [hflag] at honce
    exact congrArg (· + 1) honce

theorem step (h : Accounted cfg a s) (hstep : StreamStep cfg s act t)
    (hreads : ReadsFinal cfg a s act) : Accounted cfg a t := by
  cases hstep with
  | enter | iterate | discard | chunk => exact ⟨h.balance, h.once, h.called⟩
  | exhaust | tearDown | exit => exact h.append_called
  | finalize =>
      have hflag : s.dict.reconciled = true := hreads
      have hbalance := h.balance
      have honce := h.once
      rw [hflag] at hbalance honce
      exact ⟨hbalance, honce, fun _ => Or.inl rfl⟩
  | gated hpending hflag =>
      refine ⟨?_, h.once, fun _ => Or.inl hflag⟩
      rw [← h.balance, hpending]
      simp [ReconcileCall.owed]
  | reconcile hpending hflag =>
      exact h.runReconcile hpending hflag (hreads.resolve_left (by simp [hflag]))
  | @charge before after holder charge ok hpending =>
      obtain rfl : ok = true := hreads
      refine ⟨?_, h.once, ?_⟩
      · rw [← h.balance, hpending]
        simp only [List.map_append, List.map_cons, List.sum_append, List.sum_cons,
          ReconcileCall.owed, ↓reduceIte]
        ring
      · intro hfinished
        refine (h.called hfinished).imp_right ?_
        rintro ⟨holder', tornDown', hmem⟩
        refine ⟨holder', tornDown', ?_⟩
        rw [hpending] at hmem
        simpa using hmem

end Accounted

/-- Once an iteration has ended or the context has exited and every reconciliation is done,
the tokens recorded are the larger of projection and final usage, and the reconciliation ran
once. -/
theorem stream_charged_once (h : (streamRuns cfg true (ReadsFinal cfg a)).Reachable s)
    (hfinished : s.finished = true) (hdone : s.pending = []) :
    s.recorded = max cfg.projectedTokens a ∧ s.reconciliations = 1 := by
  have haccounted : Accounted cfg a s := by
    refine System.invariant (I := Accounted cfg a) ?_ ?_ h
    · rintro s rfl
      exact .initial
    · rintro s t - hs ⟨act, hstep, hreads⟩
      exact hs.step hstep hreads
  have hflag : s.dict.reconciled = true := by
    rcases haccounted.called hfinished with hflag | ⟨holder, tornDown, hmem⟩
    · exact hflag
    · rw [hdone] at hmem
      cases hmem
  have hbalance := haccounted.balance
  have honce := haccounted.once
  rw [hflag] at honce hbalance
  rw [hdone] at hbalance
  simp only [List.map_nil, List.sum_nil, add_zero, ↓reduceIte] at hbalance honce
  exact ⟨hbalance, honce⟩

end Steps

/-! ### An iteration over a temporary -/

/-- A call with `max_tokens=10`. -/
def tenTokens : StreamConfig ℚ := ⟨.openai, some 10, true, fun _ => 0⟩

/-- The last chunk reports 5000 tokens. -/
def finalChunk : UsageBlock := ⟨some 1000, some 4000, none⟩

/-- `async for` has asked the proxy for a generator. -/
theorem iterated_reachable (C : StreamRun ℚ → StreamAct → Prop)
    (hiterate : ∀ s, C s (.iterate 0 0)) :
    (streamRuns tenTokens true C).Reachable
      { StreamRun.initial tenTokens true with
        gens := Function.update (fun _ => .absent) 0 (.fresh 0 false) } := by
  have h₀ : (streamRuns tenTokens true C).Reachable (.initial tenTokens true) := .start rfl
  exact h₀.next ⟨_, .iterate (i := 0) (g := 0) rfl rfl, hiterate _⟩

/-- The generator does not refer to the proxy, which is collected before the first chunk:
only the projection is recorded. -/
theorem collected_proxy_undercounts :
    ∃ s : StreamRun ℚ, (streamRuns tenTokens true fun _ _ => True).Reachable s ∧
      s.finished = true ∧ s.pending = [] ∧
      ((tenTokens.finalUsage s.dict none).bind fun u => u.total) = some 5000 ∧
      ¬(s.recorded = max tenTokens.projectedTokens 5000 ∧ s.reconciliations = 1) := by
  have h₁ := iterated_reachable (fun _ _ => True) fun _ => trivial
  have h₂ := h₁.next ⟨_, .finalize (i := 0) rfl (by
    intro g
    by_cases hg : g = 0
    · subst hg
      exact fun href => Bool.false_ne_true href.1
    · have habsent : Function.update (fun _ => GenPhase.absent) 0 (.fresh 0 false) g = .absent :=
        Function.update_of_ne hg ..
      change ¬(Function.update (fun _ => GenPhase.absent) 0 (.fresh 0 false) g).RefersTo 0
      rw [habsent]
      exact id) (by simp [StreamRun.initial]), trivial⟩
  have h₃ := h₂.next ⟨.chunk 0 (some finalChunk), .chunk (Or.inl rfl), trivial⟩
  have h₄ := h₃.next ⟨.exhaust 0, .exhaust (Or.inr rfl) (Or.inl rfl), trivial⟩
  have h₅ := h₄.next ⟨.reconcile none, .gated (List.nil_append _).symm rfl, trivial⟩
  exact ⟨_, h₅, rfl, rfl, rfl, fun h => absurd h.2 (by decide)⟩

/-- With a reference to the proxy the iteration charges 5000 tokens. -/
theorem referenced_proxy_charges :
    ∃ s : StreamRun ℚ, (streamRuns tenTokens true (ReadsFinal tenTokens 5000)).Reachable s ∧
      s.recorded = max tenTokens.projectedTokens 5000 ∧ s.reconciliations = 1 := by
  have h₁ := iterated_reachable (ReadsFinal tenTokens 5000) fun _ => trivial
  have h₂ := h₁.next ⟨.chunk 0 (some finalChunk), .chunk (Or.inl rfl), trivial⟩
  have h₃ := h₂.next ⟨.exhaust 0, .exhaust (Or.inr rfl) (Or.inl rfl), trivial⟩
  have h₄ := h₃.next ⟨.reconcile none, .reconcile (List.nil_append _).symm rfl, Or.inr rfl⟩
  have h₅ := h₄.next ⟨.charge true, .charge (List.nil_append _).symm, rfl⟩
  exact ⟨_, h₅, stream_charged_once h₅ rfl rfl⟩

end AgenticGovernance.Integrations

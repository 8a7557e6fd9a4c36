import Mathlib
import AgenticGovernance.Audit.MemoryStore
import AgenticGovernance.Audit.JsonlCodec

/-!
# Batches that raise

`AuditStore.write_batch` promises that a batch is written as a whole or not at all, and the
batching writer puts a batch back when the call raises.  `InMemoryAuditStore` and
`JsonlFallbackStore` both write event by event, so what precedes the event that raises stays.
-/

namespace AgenticGovernance.Audit

open Support

namespace MemoryAudit

variable {σ σ' : MemoryAudit} {records : List AuditEventRecord} {r : AuditEventRecord}

/-! ## The in-memory store -/

/-- The events that the store holds under their ids. -/
def held (σ : MemoryAudit) : Set AuditEventRecord := {r | σ.events r.eventId = some r}

/-- A batch that raises leaves the store as it is: with `raise` the store is full before the
call, and with `evict` there is nothing that the eviction loop would pop. -/
def RefusesCleanly (σ : MemoryAudit) : Prop :=
  match σ.onFull with
  | .raise => σ.maxEvents ≤ σ.order.length
  | .evict => ∀ r ∈ σ.held, r.eventId ∉ σ.order

theorem held_append (hnew : σ.events r.eventId = none) :
    (σ.append r.sessionId r).held = insert r σ.held := by
  ext x
  change Function.update σ.events r.eventId (some r) x.eventId = some x ↔
    x = r ∨ σ.events x.eventId = some x
  by_cases heq : x.eventId = r.eventId
  · rw [heq, Function.update_self, hnew, Option.some_inj]
    constructor
    · exact fun h => Or.inl h.symm
    · rintro (rfl | h)
      · rfl
      · cases h
  · rw [Function.update_of_ne heq]
    constructor
    · exact Or.inr
    · rintro (rfl | h)
      · exact absurd rfl heq
      · exact h

theorem not_mem_held (hnew : σ.events r.eventId = none) : r ∉ σ.held := by
  intro h
  have hstored : σ.events r.eventId = some r := h
  rw [hnew] at hstored
  cases hstored

/-- With `raise`, a batch that raises on a store with room has stored an event before. -/
theorem writeBatch_raise (hraise : σ.onFull = .raise) (h : σ.writeBatch records = (σ', false)) :
    σ.held ⊆ σ'.held ∧ (σ'.held = σ.held ↔ σ.maxEvents ≤ σ.order.length) := by
  induction records generalizing σ with
  | nil => cases h
  | cons r records ih =>
      rw [writeBatch] at h
      by_cases hstored : (σ.events r.eventId).isSome
      · rw [if_pos hstored] at h
        exact ih hraise h
      · rw [if_neg hstored, enforceCapBeforeAppend, hraise] at h
        have hnew : σ.events r.eventId = none := by simpa using hstored
        by_cases hroom : σ.order.length < σ.maxEvents
        · rw [if_pos hroom] at h
          obtain ⟨hsubset, -⟩ := ih (σ := σ.append r.sessionId r) hraise h
          rw [held_append hnew, Set.insert_subset_iff] at hsubset
          refine ⟨hsubset.2, ?_⟩
          constructor
          · intro heq
            exact absurd (heq ▸ hsubset.1) (not_mem_held hnew)
          · intro hfull
            exact absurd hroom (not_lt.mpr hfull)
        · rw [if_neg hroom, refused_of_raise hraise] at h
          obtain ⟨rfl, -⟩ := Prod.mk.inj h
          exact ⟨subset_rfl, iff_of_true rfl (not_lt.mp hroom)⟩

theorem evictLoop_eq_none_iff (order : List Uuid) (σ : MemoryAudit) :
    evictLoop order σ = none ↔ σ.maxEvents = 0 := by
  induction order generalizing σ with
  | nil =>
      rw [evictLoop]
      by_cases hzero : σ.maxEvents ≤ 0
      · rw [if_pos hzero]
        simpa using hzero
      · rw [if_neg hzero]
        simp only [reduceCtorEq, false_iff]
        omega
  | cons oldest rest ih =>
      rw [evictLoop]
      by_cases hfull : σ.maxEvents ≤ rest.length + 1
      · rw [if_pos hfull, ih, maxEvents_evictOldest]
      · rw [if_neg hfull]
        simp only [reduceCtorEq, false_iff]
        omega

/-- The cap check keeps the settings of the store. -/
theorem settings_evictLoop {order : List Uuid} (h : evictLoop order σ = some σ') :
    σ'.maxEvents = σ.maxEvents ∧ σ'.onFull = σ.onFull := by
  induction order generalizing σ with
  | nil =>
      rw [evictLoop] at h
      split at h
      · cases h
      · rw [Option.some.inj h]
        exact ⟨rfl, rfl⟩
  | cons oldest rest ih =>
      rw [evictLoop] at h
      split at h
      · exact ih (σ := σ.evictOldest oldest rest) h
      · rw [Option.some.inj h]
        exact ⟨rfl, rfl⟩

theorem enforceCapBeforeAppend_evict (hevict : σ.onFull = .evict) :
    (σ.enforceCapBeforeAppend = none ↔ σ.maxEvents = 0) ∧
      ∀ σ', σ.enforceCapBeforeAppend = some σ' →
        σ'.maxEvents = σ.maxEvents ∧ σ'.onFull = .evict := by
  rw [enforceCapBeforeAppend, hevict]
  by_cases hroom : σ.order.length < σ.maxEvents
  · rw [if_pos hroom]
    refine ⟨?_, ?_⟩
    · simp only [reduceCtorEq, false_iff]
      omega
    · intro σ' h
      rw [← Option.some.inj h]
      exact ⟨rfl, hevict⟩
  · rw [if_neg hroom]
    refine ⟨evictLoop_eq_none_iff σ.order σ, ?_⟩
    intro σ' h
    rw [← hevict]
    exact settings_evictLoop h

/-- With `evict`, only a store for no events raises, and it has popped all its ids. -/
theorem writeBatch_evict (hevict : σ.onFull = .evict)
    (h : σ.writeBatch records = (σ', false)) :
    σ.maxEvents = 0 ∧ σ' = evictAll σ.order σ := by
  induction records generalizing σ with
  | nil => cases h
  | cons r records ih =>
      rw [writeBatch] at h
      by_cases hstored : (σ.events r.eventId).isSome
      · rw [if_pos hstored] at h
        exact ih hevict h
      · rw [if_neg hstored] at h
        obtain ⟨hnone, hsome⟩ := enforceCapBeforeAppend_evict hevict
        rcases hcap : σ.enforceCapBeforeAppend with _ | σ₁
        · rw [hcap, refused, hevict] at h
          obtain ⟨rfl, -⟩ := Prod.mk.inj h
          exact ⟨hnone.mp hcap, rfl⟩
        · rw [hcap] at h
          obtain ⟨hmax, hevict₁⟩ := hsome σ₁ hcap
          obtain ⟨hzero, -⟩ := ih (σ := σ₁.append r.sessionId r) hevict₁ h
          have hzero' : σ.maxEvents = 0 := hmax.symm.trans hzero
          rw [hnone.mpr hzero'] at hcap
          cases hcap

theorem events_evictAll (order : List Uuid) (σ : MemoryAudit) (id : Uuid) :
    (evictAll order σ).events id = if id ∈ order then none else σ.events id := by
  induction order generalizing σ with
  | nil => rw [evictAll, if_neg List.not_mem_nil]
  | cons oldest rest ih =>
      rw [evictAll, ih]
      change (if id ∈ rest then none else Function.update σ.events oldest none id) = _
      by_cases hrest : id ∈ rest
      · rw [if_pos hrest, if_pos (List.mem_cons_of_mem _ hrest)]
      · rw [if_neg hrest]
        by_cases heq : id = oldest
        · rw [heq, Function.update_self, if_pos List.mem_cons_self]
        · rw [Function.update_of_ne heq, if_neg (by simp [heq, hrest])]

/-- A batch that raises leaves the events that were held, and nothing else, exactly if the
store refuses cleanly. -/
theorem writeBatch_held_iff (h : σ.writeBatch records = (σ', false)) :
    σ'.held = σ.held ↔ σ.RefusesCleanly := by
  rw [RefusesCleanly]
  rcases honFull : σ.onFull with _ | _
  · obtain ⟨-, rfl⟩ := writeBatch_evict honFull h
    rw [Set.ext_iff]
    constructor
    · intro heq r hr hmem
      have hstored : (evictAll σ.order σ).events r.eventId = some r := (heq r).mpr hr
      rw [events_evictAll, if_pos hmem] at hstored
      cases hstored
    · intro hclean r
      change (evictAll σ.order σ).events r.eventId = some r ↔ σ.events r.eventId = some r
      rw [events_evictAll]
      by_cases hmem : r.eventId ∈ σ.order
      · rw [if_pos hmem]
        refine iff_of_false (by simp) ?_
        intro hr
        exact hclean r hr hmem
      · rw [if_neg hmem]
  · exact (writeBatch_raise honFull h).2

end MemoryAudit

/-! ## The file -/

/-- The part of `JsonlFallbackStore` that `write_batch` touches.  `file` is `none` when the
path does not exist, and the records are kept as they were logged. -/
structure BatchFile where
  fsAvailable : Bool
  file : Option (List Json)
  memoryBuffer : List LoggedRecord

/-- The answers of the file system during one batch. -/
structure BatchFileOps where
  opened : Bool
  /-- the lines that `fp.write` takes before it raises, if it raises -/
  takes : Option ℕ
  /-- the flush at the end of the `with` block -/
  closed : Bool
  /-- the lines that are on disk after an `OSError` -/
  flushed : ℕ
  chmod : Bool

/-- How the loop over the events ends. -/
inductive LoopEnd where
  | done
  | typeError
  | osError

/-- The loop over the events, with the lines that it writes. -/
def writeLines : Option ℕ → List LoggedRecord → List Json × LoopEnd
  | _, [] => ([], .done)
  | takes, r :: records =>
      match r.serialize with
      | none => ([], .typeError)
      | some line =>
          if takes = some 0 then ([], .osError)
          else
            let rest := writeLines (takes.map (· - 1)) records
            (line :: rest.1, rest.2)

namespace BatchFile

variable {f f' : BatchFile} {ops : BatchFileOps} {records : List LoggedRecord} {R : StampReader}

def lines (f : BatchFile) : List Json := f.file.getD []

/-- The `OSError` handler. -/
def fallBackToMemory (f : BatchFile) (records : List LoggedRecord) : BatchFile :=
  { f with fsAvailable := false, memoryBuffer := f.memoryBuffer ++ records }

/-- `write_batch`; the flag tells whether it returned. -/
def writeBatch (f : BatchFile) (ops : BatchFileOps) (records : List LoggedRecord) :
    BatchFile × Bool :=
  if f.fsAvailable then
    if ops.opened then
      let written := writeLines ops.takes records
      match written.2, ops.closed with
      | .done, true =>
          let f' := { f with file := some (f.lines ++ written.1) }
          if f.file.isNone && !ops.chmod then (f'.fallBackToMemory records, true) else (f', true)
      | .typeError, true =>
          -- the file is closed with the lines before the record that cannot be printed
          ({ f with file := some (f.lines ++ written.1) }, false)
      | _, _ =>
          let f' := { f with file := some (f.lines ++ written.1.take ops.flushed) }
          (f'.fallBackToMemory records, true)
    else (f.fallBackToMemory records, true)
  else ({ f with memoryBuffer := f.memoryBuffer ++ records }, true)

/-- The events that the store holds: those that can be read back from the file, and those in
memory. -/
def held (R : StampReader) (f : BatchFile) : Set LoggedRecord :=
  {r | (∃ line ∈ f.lines, (deserialize R line).map LoggedRecord.ofRecord = some r) ∨
    r ∈ f.memoryBuffer}

end BatchFile

/-- The event that is read back from the line of `r`. -/
def LoggedRecord.reread (R : StampReader) (r : LoggedRecord) : Option LoggedRecord :=
  (r.serialize.bind (deserialize R)).map LoggedRecord.ofRecord

theorem writeLines_typeError {takes : Option ℕ} {records : List LoggedRecord}
    {written : List Json} (h : writeLines takes records = (written, .typeError)) :
    (records.takeWhile fun r => r.serialize.isSome).map LoggedRecord.serialize =
      written.map some := by
  induction records generalizing takes written with
  | nil => cases h
  | cons r records ih =>
      rw [writeLines] at h
      rcases hline : r.serialize with _ | line
      · rw [hline] at h
        obtain ⟨rfl, -⟩ := Prod.mk.inj h
        rw [List.takeWhile_cons_of_neg (by simp [hline])]
        rfl
      · rw [hline] at h
        dsimp only at h
        by_cases hzero : takes = some 0
        · rw [if_pos hzero] at h
          cases h
        · rw [if_neg hzero] at h
          obtain ⟨rfl, hend⟩ := Prod.mk.inj h
          rw [List.takeWhile_cons_of_pos (by simp [hline]), List.map_cons, List.map_cons, hline,
            ih (Prod.ext rfl hend)]

namespace BatchFile

variable {f f' : BatchFile} {ops : BatchFileOps} {records : List LoggedRecord} {R : StampReader}

/-- A batch raises only on a record that cannot be printed, with the lines before it written. -/
theorem writeBatch_false (h : f.writeBatch ops records = (f', false)) :
    ∃ written, writeLines ops.takes records = (written, .typeError) ∧
      f' = { f with file := some (f.lines ++ written) } := by
  rw [writeBatch] at h
  split at h
  · split at h
    · rcases hloop : writeLines ops.takes records with ⟨written, _ | _ | _⟩
      · rw [hloop] at h
        dsimp only at h
        split at h
        · split at h
          · cases h
          · cases h
        · contradiction
        · cases h
      · rw [hloop] at h
        refine ⟨written, rfl, ?_⟩
        dsimp only at h
        split at h
        · contradiction
        · exact (Prod.mk.inj h).1.symm
        · cases h
      · rw [hloop] at h
        cases h
    · cases h
  · cases h

/-- A batch that raises leaves the events that were held, and nothing else, exactly if
everything before the first record that cannot be printed was held already. -/
theorem writeBatch_held_iff (h : f.writeBatch ops records = (f', false)) :
    f'.held R = f.held R ↔
      ∀ r ∈ records.takeWhile (fun r => r.serialize.isSome), ∀ r', r.reread R = some r' →
        r' ∈ f.held R := by
  obtain ⟨written, hloop, rfl⟩ := writeBatch_false h
  have hlines := writeLines_typeError hloop
  have hwritten : ∀ line, line ∈ written ↔
      ∃ r ∈ records.takeWhile (fun r => r.serialize.isSome), r.serialize = some line := by
    intro line
    rw [← List.mem_map (f := LoggedRecord.serialize), hlines, List.mem_map]
    simp
  have hmem : ∀ r', r' ∈ held R { f with file := some (f.lines ++ written) } ↔
      r' ∈ f.held R ∨ ∃ r ∈ records.takeWhile (fun r => r.serialize.isSome),
        r.reread R = some r' := by
    intro r'
    change ((∃ line ∈ f.lines ++ written, _) ∨ _) ↔ ((∃ line ∈ f.lines, _) ∨ _) ∨ _
    constructor
    · rintro (⟨line, hline, hr'⟩ | hbuffer)
      · rcases List.mem_append.mp hline with hline | hline
        · exact Or.inl (Or.inl ⟨line, hline, hr'⟩)
        · obtain ⟨r, hr, hserialize⟩ := (hwritten line).mp hline
          refine Or.inr ⟨r, hr, ?_⟩
          rw [LoggedRecord.reread, hserialize, Option.bind_some]
          exact hr'
      · exact Or.inl (Or.inr hbuffer)
    · rintro ((⟨line, hline, hr'⟩ | hbuffer) | ⟨r, hr, hreread⟩)
      · exact Or.inl ⟨line, List.mem_append_left _ hline, hr'⟩
      · exact Or.inr hbuffer
      · obtain ⟨x, hx, rfl⟩ := Option.map_eq_some_iff.mp hreread
        obtain ⟨line, hserialize, hdecoded⟩ := Option.bind_eq_some_iff.mp hx
        refine Or.inl ⟨line, List.mem_append_right _ ((hwritten line).mpr ⟨r, hr, hserialize⟩), ?_⟩
        rw [hdecoded]
        rfl
  rw [Set.ext_iff]
  constructor
  · intro heq r hr r' hreread
    exact (heq r').mp ((hmem r').mpr (Or.inr ⟨r, hr, hreread⟩))
  · intro hheld r'
    rw [hmem]
    constructor
    · rintro (h | ⟨r, hr, hreread⟩)
      · exact h
      · exact hheld r hr r' hreread
    · exact Or.inl

end BatchFile

/-! ## All or nothing -/

/-- When a batch that raises leaves exactly the events that were held before. -/
theorem write_batch_atomic_iff (σ σ' : MemoryAudit) (records : List AuditEventRecord)
    (R : StampReader) (f f' : BatchFile) (ops : BatchFileOps) (logged : List LoggedRecord) :
    (σ.writeBatch records = (σ', false) → (σ'.held = σ.held ↔ σ.RefusesCleanly)) ∧
      (f.writeBatch ops logged = (f', false) →
        (f'.held R = f.held R ↔
          ∀ r ∈ logged.takeWhile (fun r => r.serialize.isSome), ∀ r', r.reread R = some r' →
            r' ∈ f.held R)) := by
  refine ⟨?_, ?_⟩
  · intro h
    exact MemoryAudit.writeBatch_held_iff h
  · intro h
    exact BatchFile.writeBatch_held_iff h

/-- A record with a value in its metadata that `json.dumps` refuses. -/
def unprintableRecord : LoggedRecord :=
  { LoggedRecord.ofRecord sampleRecord₂ with
    metadata := [("at", .other "2026-04-15 12:00:00")]
    base_metadata := rfl }

/-- A full store refuses a batch as a whole, and a file one that begins with the record that
cannot be printed. -/
theorem refused_batch_leaves_store :
    (∃ σ σ', (MemoryAudit.empty 1 .raise).writeBatch [sampleRecord₁] = (σ, true) ∧
      σ.writeBatch [sampleRecord₂] = (σ', false) ∧ σ'.held = σ.held) ∧
    ∃ f, BatchFile.writeBatch ⟨true, none, []⟩ ⟨true, none, true, 0, true⟩
        [unprintableRecord, .ofRecord sampleRecord₁] = (f, false) ∧
      f.held StampReader.exact = BatchFile.held StampReader.exact ⟨true, none, []⟩ := by
  let full := ((MemoryAudit.empty 1 .raise).writeBatch [sampleRecord₁]).1
  have hfull : full.writeBatch [sampleRecord₂] = (full, false) := rfl
  have hfile : BatchFile.writeBatch ⟨true, none, []⟩ ⟨true, none, true, 0, true⟩
      [unprintableRecord, .ofRecord sampleRecord₁] = (⟨true, some [], []⟩, false) := rfl
  obtain ⟨hmemory, hlines⟩ := write_batch_atomic_iff full full [sampleRecord₂]
    StampReader.exact ⟨true, none, []⟩ ⟨true, some [], []⟩ ⟨true, none, true, 0, true⟩
    [unprintableRecord, .ofRecord sampleRecord₁]
  refine ⟨⟨full, full, rfl, hfull, (hmemory hfull).mpr ?_⟩, ⟨_, hfile, (hlines hfile).mpr ?_⟩⟩
  · exact Nat.le_refl 1
  · intro r hr
    cases hr

/-- Two events for a store with room for one, and two for a file that cannot take the second:
both calls raise, and the first event is held. -/
theorem first_event_stays :
    (∃ σ, (MemoryAudit.empty 1 .raise).writeBatch [sampleRecord₁, sampleRecord₂] = (σ, false) ∧
      σ.held ≠ (MemoryAudit.empty 1 .raise).held) ∧
    ∀ R : StampReader, ∃ f,
      BatchFile.writeBatch ⟨true, none, []⟩ ⟨true, none, true, 0, true⟩
        [.ofRecord sampleRecord₁, unprintableRecord] = (f, false) ∧
      f.held R ≠ BatchFile.held R ⟨true, none, []⟩ := by
  refine ⟨⟨_, rfl, ?_⟩, fun R => ⟨_, rfl, ?_⟩⟩
  · intro h
    have hstored : sampleRecord₁ ∈ (MemoryAudit.empty 1 .raise).held := by
      rw [← h]
      exact (rfl : some sampleRecord₁ = some sampleRecord₁)
    cases hstored
  · intro h
    have hread : ∀ m, LoggedRecord.ofRecord
        (decoded (LoggedRecord.ofRecord sampleRecord₁).base m) ∉
          BatchFile.held R ⟨true, none, []⟩ := by
      rintro m (⟨line, hline, -⟩ | hbuffer)
      · exact List.not_mem_nil hline
      · exact List.not_mem_nil hbuffer
    apply hread sampleFirst.metadata
    rw [← h]
    refine Or.inl ⟨_, List.mem_singleton_self _, ?_⟩
    exact congrArg (Option.map LoggedRecord.ofRecord) (deserialize_jsonlLine R _ _)

end AgenticGovernance.Audit

import Mathlib
import AgenticGovernance.Audit.Backend
import AgenticGovernance.Audit.JsonlCodec

/-!
# The JSONL fallback store

`JsonlFallbackStore` appends records to a file and, once a file operation has
failed, to a buffer in memory.  A file at its size cap is rotated away before the
next append.  `drain_to` replays the buffer and then the file into a target in
batches, and removes the file at the end.

The answers of the file system and of the target are arguments of the operations,
so a run chooses them freely.  `JsonlStore.Holds` describes a store whose file has
taken every append so far, as the list of records in it.
-/

namespace AgenticGovernance.Audit

open Support

/-- The answers of the file system during one call.  `size` is what `stat`
reports, `none` if it raises; an operation whose flag is `false` raises `OSError`. -/
structure FileOps where
  read : Bool
  size : Option ℕ
  rename : Bool
  unlink : Bool
  write : Bool
  chmod : Bool

/-- `file` is `none` when the path does not exist. -/
structure JsonlStore where
  maxFileBytes : ℕ
  fsAvailable : Bool
  file : Option (List Json)
  memoryBuffer : List AuditEventRecord
  lastHmac : Uuid → Option String
  initialized : Finset Uuid

namespace JsonlStore

def empty (maxFileBytes : ℕ) (fsAvailable : Bool) : JsonlStore :=
  ⟨maxFileBytes, fsAvailable, none, [], fun _ => none, ∅⟩

def lines (st : JsonlStore) : List Json := st.file.getD []

/-! ## Appending -/

/-- The file is at its cap. -/
def AtCap (st : JsonlStore) (ops : FileOps) : Prop :=
  st.file.isSome ∧ st.maxFileBytes ≤ ops.size.getD 0

instance (st : JsonlStore) (ops : FileOps) : Decidable (st.AtCap ops) :=
  inferInstanceAs (Decidable (_ ∧ _))

/-- Renames the full file, or deletes it if that fails; `none` if both raise.
Nothing reads the renamed file. -/
def rotate (st : JsonlStore) (ops : FileOps) : Option JsonlStore :=
  if st.AtCap ops then
    if ops.rename || ops.unlink then some { st with file := none } else none
  else some st

/-- The `OSError` handler of `_append`. -/
def fallBackToMemory (st : JsonlStore) (r : AuditEventRecord) : JsonlStore :=
  { st with fsAvailable := false, memoryBuffer := st.memoryBuffer ++ [r] }

def append (st : JsonlStore) (ops : FileOps) (r : AuditEventRecord) : JsonlStore :=
  if st.fsAvailable then
    match st.rotate ops with
    | none => st.fallBackToMemory r
    | some st' =>
        if ops.write then
          let written := { st' with file := some (st'.lines ++ [serialize r]) }
          -- the permissions of a new file are set after the line is written
          if st'.file.isNone && !ops.chmod then written.fallBackToMemory r else written
        else st'.fallBackToMemory r
  else { st with memoryBuffer := st.memoryBuffer ++ [r] }

/-! ## Chained inserts -/

/-- `str(data.get("session_id")) == str(session_id)` -/
def ofSessionLine (sid : Uuid) (line : Json) : Bool :=
  match line.get? "session_id" with
  | some (.str s) => s = sid.str
  | _ => false

def lineHmac (line : Json) : Option String := (line.get? "hmac").bind asText

def scanLastHmac (st : JsonlStore) (sid : Uuid) : Option String :=
  let last :=
    if st.fsAvailable then
      st.lines.foldl (fun last line => if ofSessionLine sid line then lineHmac line else last)
        none
    else none
  st.memoryBuffer.foldl (fun last r => if r.sessionId = sid then some r.hmac else last) last

/-- The lazy hydration of the head of a session; `none` if the scan raises. -/
def hydrate (st : JsonlStore) (ops : FileOps) (sid : Uuid) : Option JsonlStore :=
  if sid ∈ st.initialized then some st
  else if st.fsAvailable && st.file.isSome && !ops.read then none
  else
    some { st with
      lastHmac := Function.update st.lastHmac sid (st.scanLastHmac sid)
      initialized := insert sid st.initialized }

def insertWithChainLock (st : JsonlStore) (ops : FileOps) (sid : Uuid) (build : Build) :
    JsonlStore × Option AuditEventRecord :=
  match st.hydrate ops sid with
  | none => (st, none)
  | some st' =>
      match build (st'.lastHmac sid) with
      | none => (st', none)
      | some r =>
          let appended := st'.append ops r
          ({ appended with lastHmac := Function.update appended.lastHmac sid (some r.hmac) },
            some r)

/-! ## Draining -/

def drainBatchSize : ℕ := 1000

/-- The slices `mem_events[i : i + _DRAIN_BATCH_SIZE]`. -/
def memoryBatches (events : List AuditEventRecord) : List (List AuditEventRecord) :=
  (List.range ((events.length + (drainBatchSize - 1)) / drainBatchSize)).map fun i =>
    (events.drop (drainBatchSize * i)).take drainBatchSize

/-- The batches of the file, with the records collected so far.  A line that
cannot be decoded is skipped. -/
def fileBatches (R : StampReader) :
    List AuditEventRecord → List Json → List (List AuditEventRecord)
  | batch, [] => if batch.isEmpty then [] else [batch]
  | batch, line :: lines =>
      match deserialize R line with
      | none => fileBatches R batch lines
      | some r =>
          if drainBatchSize ≤ (batch ++ [r]).length then
            (batch ++ [r]) :: fileBatches R [] lines
          else fileBatches R (batch ++ [r]) lines

section Drain

variable {T : Type} (write : T → List AuditEventRecord → T × Bool) (up : ℕ → Bool)

/-- The calls of `write_batch` until the first that raises, the next of them being
number `n`.  Call `n` reaches the target if `up n`.  Returns the number of the
call that comes next, and whether all were made. -/
def writeBatches : ℕ → T → List (List AuditEventRecord) → T × ℕ × Bool
  | n, t, [] => (t, n, true)
  | n, t, batch :: batches =>
      match if up n then write t batch else (t, false) with
      | (t', true) => writeBatches (n + 1) t' batches
      | (t', false) => (t', n, false)

/-- The file part of `drain_to`, after the buffer went to the target. -/
def drainFile (R : StampReader) (ops : FileOps) (st : JsonlStore) (n : ℕ) (t : T) :
    JsonlStore × T × Bool :=
  match if st.fsAvailable then st.file else none with
  | none => (st, t, true)
  | some lines =>
      if ops.read then
        let (t', _, ok) := writeBatches write up n t (fileBatches R [] lines)
        if ok && ops.unlink then
          ({ st with file := none, initialized := ∅, lastHmac := fun _ => none }, t', true)
        else (st, t', false)
      else (st, t, false)

/-- `drain_to`; the flag tells whether it returned.  The number of drained events
that it returns is only logged. -/
def drainTo (R : StampReader) (ops : FileOps) (st : JsonlStore) (t : T) :
    JsonlStore × T × Bool :=
  let (t', n, ok) := writeBatches write up 0 t (memoryBatches st.memoryBuffer)
  if ok then drainFile write up R ops { st with memoryBuffer := [] } n t'
  else
    ({ st with memoryBuffer := st.memoryBuffer.drop (drainBatchSize * n) }, t', false)

end Drain

/-! ## Batches -/

theorem flatten_slices {α : Type} (l : List α) (n k : ℕ) :
    ((List.range k).map fun i => (l.drop (n * i)).take n).flatten = l.take (n * k) := by
  induction k with
  | zero => simp
  | succ k ih =>
      rw [List.range_succ, List.map_append, List.flatten_append, ih, Nat.mul_succ,
        List.take_add]
      simp

theorem flatten_memoryBatches (events : List AuditEventRecord) :
    (memoryBatches events).flatten = events := by
  rw [memoryBatches, flatten_slices]
  apply List.take_of_length_le
  simp only [drainBatchSize]
  omega

theorem flatten_fileBatches (R : StampReader) (batch : List AuditEventRecord)
    (lines : List Json) :
    (fileBatches R batch lines).flatten = batch ++ lines.filterMap (deserialize R) := by
  induction lines generalizing batch with
  | nil =>
      rw [fileBatches]
      split
      · simp_all
      · simp
  | cons line lines ih =>
      rw [fileBatches]
      split
      · rename_i hline
        rw [ih, List.filterMap_cons_none hline]
      · rename_i r hline
        rw [List.filterMap_cons_some hline]
        split
        · rw [List.flatten_cons, ih]
          simp
        · rw [ih]
          simp

/-! ## A file that takes every append -/

/-- The file operations of a call succeed, with the file below its cap. -/
structure Accepts (maxFileBytes : ℕ) (ops : FileOps) : Prop where
  read : ops.read = true
  belowCap : ops.size.getD 0 < maxFileBytes
  write : ops.write = true
  chmod : ops.chmod = true

/-- The file holds `records`, the buffer nothing, and the cached heads are those of
the file. -/
structure Holds (maxFileBytes : ℕ) (st : JsonlStore) (records : List AuditEventRecord) :
    Prop where
  cap : st.maxFileBytes = maxFileBytes
  fsAvailable : st.fsAvailable = true
  buffer : st.memoryBuffer = []
  lines : st.lines = records.map serialize
  cached : ∀ sid ∈ st.initialized, st.lastHmac sid = Audit.lastHmac (ofSession sid records)

@[simp] theorem ofSessionLine_serialize (sid : Uuid) (r : AuditEventRecord) :
    ofSessionLine sid (serialize r) = decide (r.sessionId = sid) := by
  have hget : (serialize r).get? "session_id" = some (.str r.sessionId.str) := by
    simp [serialize, jsonlLine, Json.get?, List.lookup]
  rw [ofSessionLine, hget]
  simp [Uuid.str_injective.eq_iff]

@[simp] theorem lineHmac_serialize (r : AuditEventRecord) :
    lineHmac (serialize r) = some r.hmac := by
  simp [lineHmac, serialize, jsonlLine, Json.get?, List.lookup, asText]

theorem foldl_lastHmac (sid : Uuid) (records : List AuditEventRecord) (p : Option String) :
    (records.map serialize).foldl
        (fun last line => if ofSessionLine sid line then lineHmac line else last) p =
      tip (fun r : AuditEventRecord => r.hmac) p (ofSession sid records) := by
  induction records generalizing p with
  | nil => rfl
  | cons r records ih =>
      rw [List.map_cons, List.foldl_cons, ih, ofSession, ofSession, List.filter_cons,
        ofSessionLine_serialize, lineHmac_serialize]
      by_cases hsid : r.sessionId = sid
      · simp [hsid]
      · simp [hsid]

variable {maxFileBytes : ℕ} {st st' : JsonlStore} {records : List AuditEventRecord}
  {ops : FileOps}

theorem Holds.scanLastHmac_eq (h : st.Holds maxFileBytes records) (sid : Uuid) :
    st.scanLastHmac sid = Audit.lastHmac (ofSession sid records) := by
  rw [scanLastHmac, h.fsAvailable, h.buffer, h.lines]
  exact foldl_lastHmac sid records none

theorem Holds.hydrate (h : st.Holds maxFileBytes records) (hops : Accepts maxFileBytes ops)
    (sid : Uuid) :
    ∃ st', st.hydrate ops sid = some st' ∧ st'.Holds maxFileBytes records ∧
      st'.lastHmac sid = Audit.lastHmac (ofSession sid records) := by
  by_cases hinit : sid ∈ st.initialized
  · exact ⟨st, by rw [JsonlStore.hydrate, if_pos hinit], h, h.cached sid hinit⟩
  · have hhydrate : st.hydrate ops sid = some { st with
        lastHmac := Function.update st.lastHmac sid (st.scanLastHmac sid)
        initialized := insert sid st.initialized } := by
      rw [JsonlStore.hydrate, if_neg hinit, hops.read]
      simp
    refine ⟨_, hhydrate, ?_, ?_⟩
    · refine ⟨h.cap, h.fsAvailable, h.buffer, h.lines, ?_⟩
      intro sid' hsid'
      by_cases hsame : sid' = sid
      · subst hsame
        exact (Function.update_self ..).trans (h.scanLastHmac_eq sid')
      · rw [Finset.mem_insert] at hsid'
        exact (Function.update_of_ne hsame ..).trans
          (h.cached sid' (hsid'.resolve_left hsame))
    · exact (Function.update_self ..).trans (h.scanLastHmac_eq sid)

theorem append_of_accepts (hfs : st.fsAvailable = true)
    (hops : Accepts st.maxFileBytes ops) (r : AuditEventRecord) :
    st.append ops r = { st with file := some (st.lines ++ [serialize r]) } := by
  have hcap : ¬st.AtCap ops := fun h => absurd h.2 (Nat.not_le.mpr hops.belowCap)
  simp [append, hfs, rotate, hcap, hops.write, hops.chmod]

/-- An insert links its record to the last record of the session in the file. -/
theorem Holds.insertWithChainLock (h : st.Holds maxFileBytes records)
    (hops : Accepts maxFileBytes ops) {sid : Uuid} {build : Build}
    {res : Option AuditEventRecord}
    (hins : st.insertWithChainLock ops sid build = (st', res)) :
    (res = none → build (Audit.lastHmac (ofSession sid records)) = none ∧
      st'.Holds maxFileBytes records) ∧
    ∀ r, res = some r → build (Audit.lastHmac (ofSession sid records)) = some r ∧
      (r.sessionId = sid → st'.Holds maxFileBytes (records ++ [r])) := by
  obtain ⟨st₁, hhydrate, hholds, hhead⟩ := h.hydrate hops sid
  rw [JsonlStore.insertWithChainLock, hhydrate] at hins
  rcases hbuild : build (Audit.lastHmac (ofSession sid records)) with _ | r
  · simp only [hhead, hbuild, Prod.mk.injEq] at hins
    obtain ⟨rfl, rfl⟩ := hins
    exact ⟨fun _ => ⟨rfl, hholds⟩, by simp⟩
  · simp only [hhead, hbuild, Prod.mk.injEq] at hins
    obtain ⟨rfl, rfl⟩ := hins
    refine ⟨by simp, fun r' hr' => ⟨congrArg some (Option.some.inj hr'), ?_⟩⟩
    obtain rfl := Option.some.inj hr'
    intro hsid
    rw [append_of_accepts hholds.fsAvailable (by rwa [hholds.cap])]
    refine ⟨hholds.cap, hholds.fsAvailable, hholds.buffer, ?_, ?_⟩
    · change st₁.lines ++ [serialize r] = _
      rw [hholds.lines, List.map_append]
      rfl
    · intro sid' hsid'
      rw [ofSession_append]
      by_cases hsame : sid' = sid
      · subst hsame
        rw [← hsid, ofSession_singleton_self, Audit.lastHmac, tip_concat, hsid]
        exact Function.update_self ..
      · rw [ofSession_singleton_of_ne (fun heq => hsame (heq.symm.trans hsid)),
          List.append_nil]
        exact (Function.update_of_ne hsame ..).trans (hholds.cached sid' hsid')

theorem Holds.insert_of_build (h : st.Holds maxFileBytes records)
    (hops : Accepts maxFileBytes ops) {sid : Uuid} {build : Build} {r : AuditEventRecord}
    (hbuild : build (Audit.lastHmac (ofSession sid records)) = some r)
    (hsid : r.sessionId = sid) :
    (st.insertWithChainLock ops sid build).1.Holds maxFileBytes (records ++ [r]) := by
  rcases hins : st.insertWithChainLock ops sid build with ⟨st', res⟩
  obtain ⟨hnone, hsome⟩ := h.insertWithChainLock hops hins
  rcases res with _ | r'
  · rw [(hnone rfl).1] at hbuild
    cases hbuild
  · obtain ⟨hbuild', hholds⟩ := hsome r' rfl
    obtain rfl := Option.some.inj (hbuild'.symm.trans hbuild)
    exact hholds hsid

/-- The events that a drain of the file writes. -/
def replayed (records : List AuditEventRecord) : List AuditEventRecord :=
  records.map fun r => decoded r r.metadata

theorem filterMap_deserialize (R : StampReader) (records : List AuditEventRecord) :
    (records.map serialize).filterMap (deserialize R) = replayed records := by
  rw [List.filterMap_map, replayed, ← List.filterMap_eq_map]
  apply List.filterMap_congr
  intro r _
  exact deserialize_serialize R r

theorem writeBatches_intact (B : AuditBackend) {up : ℕ → Bool} {t t' : B.Store} {n m : ℕ}
    {ok : Bool} {batches : List (List AuditEventRecord)}
    (hwrite : writeBatches B.writeBatch up n t batches = (t', m, ok))
    (hintact : B.Intact t') : B.Intact t := by
  induction batches generalizing t n with
  | nil =>
      obtain ⟨rfl, -⟩ := Prod.mk.inj hwrite
      exact hintact
  | cons batch batches ih =>
      rw [writeBatches] at hwrite
      by_cases hup : up n = true
      · rw [if_pos hup] at hwrite
        split at hwrite
        · rename_i t₁ hfirst
          exact B.writeBatch_intact hfirst (ih hwrite)
        · rename_i t₁ hfirst
          obtain ⟨rfl, -⟩ := Prod.mk.inj hwrite
          exact B.writeBatch_intact hfirst hintact
      · rw [if_neg hup] at hwrite
        obtain ⟨rfl, -⟩ := Prod.mk.inj hwrite
        exact hintact

/-- All batches written: the target has taken their events in order. -/
theorem writeBatches_extends (B : AuditBackend) {up : ℕ → Bool} {t t' : B.Store} {n m : ℕ}
    {batches : List (List AuditEventRecord)} (hok : B.Ok t)
    (hwrite : writeBatches B.writeBatch up n t batches = (t', m, true))
    (hnodup : (batches.flatten.map fun r => r.eventId).Nodup)
    (hnew : ∀ r ∈ batches.flatten, B.Unused t r.eventId) (hintact : B.Intact t') :
    B.Ok t' ∧ B.Extends t batches.flatten t' := by
  induction batches generalizing t n with
  | nil =>
      obtain ⟨rfl, -⟩ := Prod.mk.inj hwrite
      exact ⟨hok, .of_eq rfl⟩
  | cons batch batches ih =>
      rw [List.flatten_cons, List.map_append, List.nodup_append] at hnodup
      rw [List.flatten_cons, List.forall_mem_append] at hnew
      obtain ⟨hbatch, hbatches, hdisjoint⟩ := hnodup
      rw [writeBatches] at hwrite
      split at hwrite
      · rename_i t₁ hfirst
        split at hfirst
        · have hintact₁ : B.Intact t₁ := writeBatches_intact B hwrite hintact
          obtain ⟨hok₁, hext₁⟩ := B.writeBatch_extends hok hfirst hbatch hnew.1 hintact₁
          have hnew₁ : ∀ r ∈ batches.flatten, B.Unused t₁ r.eventId := by
            intro r hr
            refine (hext₁.unused _).mpr ⟨hnew.2 r hr, ?_⟩
            intro x hx
            exact hdisjoint _ (List.mem_map_of_mem hx) _ (List.mem_map_of_mem hr)
          obtain ⟨hok', hext⟩ := ih hok₁ hwrite hbatches hnew₁
          exact ⟨hok', hext₁.trans hext⟩
        · cases (Prod.mk.inj hfirst).2
      · cases (Prod.mk.inj (Prod.mk.inj hwrite).2).2

section DrainTo

variable {B : AuditBackend} {R : StampReader} {up : ℕ → Bool} {t t' : B.Store}

theorem drainFile_intact {n : ℕ} {ok : Bool}
    (hdrain : drainFile B.writeBatch up R ops st n t = (st', t', ok)) (hintact : B.Intact t') :
    B.Intact t := by
  rw [drainFile] at hdrain
  split at hdrain
  · simp only [Prod.mk.injEq] at hdrain
    exact hdrain.2.1 ▸ hintact
  · split at hdrain
    · rename_i fileLines _ _
      rcases hwrite : writeBatches B.writeBatch up n t (fileBatches R [] fileLines) with
        ⟨t₁, m, done⟩
      have ht : t₁ = t' := by
        rw [hwrite] at hdrain
        dsimp only at hdrain
        split at hdrain
        · simpa using congrArg (fun x => x.2.1) hdrain
        · simpa using congrArg (fun x => x.2.1) hdrain
      exact writeBatches_intact B hwrite (ht ▸ hintact)
    · simp only [Prod.mk.injEq] at hdrain
      exact hdrain.2.1 ▸ hintact

theorem drainTo_intact {ok : Bool}
    (hdrain : drainTo B.writeBatch up R ops st t = (st', t', ok)) (hintact : B.Intact t') :
    B.Intact t := by
  rcases hwrite : writeBatches B.writeBatch up 0 t (memoryBatches st.memoryBuffer) with
    ⟨t₁, m, done⟩
  rw [drainTo, hwrite] at hdrain
  dsimp only at hdrain
  split at hdrain
  · exact writeBatches_intact B hwrite (drainFile_intact hdrain hintact)
  · simp only [Prod.mk.injEq] at hdrain
    exact writeBatches_intact B hwrite (hdrain.2.1 ▸ hintact)

/-- A drain that returns has written the batches of the file. -/
theorem Holds.drainTo_eq (h : st.Holds maxFileBytes records)
    (hdrain : drainTo B.writeBatch up R ops st t = (st', t', true)) :
    st'.Holds maxFileBytes [] ∧
      ∃ batches m, batches.flatten = replayed records ∧
        writeBatches B.writeBatch up 0 t batches = (t', m, true) := by
  have hbatches : memoryBatches st.memoryBuffer = [] := by
    rw [h.buffer]
    rfl
  rw [drainTo, hbatches, writeBatches] at hdrain
  simp only [if_true, drainFile, h.fsAvailable] at hdrain
  split at hdrain
  · rename_i hfile
    simp only [Prod.mk.injEq, and_true] at hdrain
    obtain ⟨rfl, rfl⟩ := hdrain
    have hlines : st.lines = [] := by simp [JsonlStore.lines, hfile]
    have hrecords : records = [] := by simpa [hlines] using h.lines
    subst hrecords
    exact ⟨⟨h.cap, rfl, rfl, hlines, h.cached⟩, [], 0, rfl, rfl⟩
  · rename_i fileLines hfile
    have hlines : fileLines = records.map serialize := by
      rw [← h.lines]
      simp [JsonlStore.lines, hfile]
    split at hdrain
    · rcases hwrite : writeBatches B.writeBatch up 0 t (fileBatches R [] fileLines) with
        ⟨t₁, m, ok⟩
      rw [hwrite] at hdrain
      split at hdrain
      · rename_i hdone
        simp only [Prod.mk.injEq, and_true] at hdrain
        obtain ⟨rfl, rfl⟩ := hdrain
        have hok : ok = true := (Bool.and_eq_true_iff.mp hdone).1
        rw [hok] at hwrite
        refine ⟨⟨h.cap, rfl, rfl, rfl, by simp⟩, _, m, ?_, hwrite⟩
        rw [flatten_fileBatches, hlines, List.nil_append, filterMap_deserialize]
      · cases (Prod.mk.inj (Prod.mk.inj hdrain).2).2
    · cases (Prod.mk.inj (Prod.mk.inj hdrain).2).2

end DrainTo

end JsonlStore

end AgenticGovernance.Audit

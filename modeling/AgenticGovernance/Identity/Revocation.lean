import Mathlib
import AgenticGovernance.Audit.Module

/-!
# Revoking an agent key

`RevocationStore` appends revocations to an in-memory mirror and, with an engine, to a
table.  `revoke_with_chain_event` first logs an audit event and then appends a revocation
that names it.  In strict mode the revocation is meant to be appended only with the id of
an event that was stored.

The audit module is the one of `LogOps`, here with stores that hold what was written, so
that a stored event can be told from a placeholder.
-/

namespace AgenticGovernance.Identity

open Support Audit

/-! ## The stores of the audit module -/

/-- What becomes of an insert: it raises before anything is stored, it stores the record
that its callback built and returns it, or it stores the record and raises all the same. -/
inductive StoreFate where
  | raises
  | inserts (eventId : Uuid) (now : Datetime) (prevHash : Option String)
  | lost (eventId : Uuid) (now : Datetime) (prevHash : Option String)

/-- The fate as the caller sees it. -/
def StoreFate.reply : StoreFate → InsertFate
  | .raises => .raises
  | .inserts eventId now prevHash => .inserts eventId now prevHash
  | .lost _ _ _ => .raises

section StoreFate

variable (fate : StoreFate) (build : Uuid → Datetime → Option String → Option LoggedRecord)

def StoreFate.written : Option LoggedRecord :=
  match fate with
  | .raises => none
  | .inserts eventId now prevHash => build eventId now prevHash
  | .lost eventId now prevHash => build eventId now prevHash

def StoreFate.write (stored : List LoggedRecord) : List LoggedRecord × Option LoggedRecord :=
  (stored ++ (fate.written build).toList, fate.reply.run build)

variable {fate build}

/-- A record that an insert returns is in the store. -/
theorem StoreFate.mem_write {stored : List LoggedRecord} {record : LoggedRecord}
    (h : (fate.write build stored).2 = some record) :
    record ∈ (fate.write build stored).1 := by
  cases fate with
  | raises => cases h
  | inserts eventId now prevHash =>
      have hbuilt : build eventId now prevHash = some record := h
      simp [write, written, hbuilt]
  | lost eventId now prevHash => cases h

end StoreFate

/-- An audit module during one call of `log`: its keys, what it reads and draws, and what
becomes of its inserts.  `drain` is whatever the recovery does to the two stores. -/
structure AuditHost where
  nfc : String → String
  canonicalMetadata : List (String × PyValue) → Option Metadata
  keys : ModuleKeys
  sessionId : Uuid
  parentId : Option Uuid
  createdAt : Datetime
  primaryMarker : StoreFate
  primaryRecord : StoreFate
  fallbackMarker : StoreFate
  fallbackRecord : StoreFate
  drain : List LoggedRecord → List LoggedRecord → List LoggedRecord × List LoggedRecord
  draw : PlaceholderDraw

/-- The records that the primary store and the fallback hold, and the flagged sessions. -/
abbrev AuditState := LogState (List LoggedRecord) (List LoggedRecord)

def stored (s : AuditState) : List LoggedRecord := s.primary ++ s.fallback

namespace AuditHost

variable (host : AuditHost) (event : LoggedEvent) (s : AuditState)

def call : LoggedCall := ⟨event, host.sessionId, host.parentId, host.createdAt⟩

/-- `build_record` of the call -/
def buildRecord (eventId : Uuid) (_ : Datetime) (prevHash : Option String) :
    Option LoggedRecord :=
  (host.call event).buildRecord host.canonicalMetadata host.keys eventId prevHash

def ops : LogOps (List LoggedRecord) (List LoggedRecord) LoggedRecord where
  primaryMarker := host.primaryMarker.write ((host.call event).buildMarker host.keys)
  primaryRecord := host.primaryRecord.write (host.buildRecord event)
  drain := host.drain
  fallbackMarker := host.fallbackMarker.write ((host.call event).buildMarker host.keys)
  fallbackRecord := host.fallbackRecord.write (host.buildRecord event)

def logUnsafe : AuditState × Option LoggedRecord :=
  (host.ops event).logUnsafe host.sessionId s

/-- `AuditModule.log` -/
def log : AuditState × Except PyError LoggedRecord :=
  if event.base.kind ∈ permittedKinds then (s, .error .runtimeError)
  else
    match host.logUnsafe event s with
    | (s', some record) => (s', .ok record)
    | (s', none) =>
        match (host.call event).placeholderRecord host.draw with
        | some record => (s', .ok record)
        | none => (s', .error .validationError)

/-- The fates of the inserts as `log` sees them. -/
def fates : LogFates where
  primaryMarker := host.primaryMarker.reply
  primaryRecord := host.primaryRecord.reply
  fallbackMarker := host.fallbackMarker.reply
  fallbackRecord := host.fallbackRecord.reply

section

variable {host event s}

/-- A record that `_log_unsafe` returns was built for the event and is stored. -/
theorem mem_stored_of_logUnsafe {s' : AuditState} {record : LoggedRecord}
    (h : host.logUnsafe event s = (s', some record)) :
    record ∈ stored s' ∧ ∃ eventId prevHash, (host.call event).buildRecord
      host.canonicalMetadata host.keys eventId prevHash = some record := by
  constructor
  · have hreturned := LogOps.logUnsafe_returned (Q := fun p r => r ∈ p)
      (R := fun f r => r ∈ f)
      (fun p p' r hr => by
        have hmem := StoreFate.mem_write (congrArg Prod.snd hr)
        rwa [show ((host.primaryRecord.write (host.buildRecord event) p).1) = p' from
          congrArg Prod.fst hr] at hmem)
      (fun f f' r hr => by
        have hmem := StoreFate.mem_write (congrArg Prod.snd hr)
        rwa [show ((host.fallbackRecord.write (host.buildRecord event) f).1) = f' from
          congrArg Prod.fst hr] at hmem) h
    exact List.mem_append.mpr hreturned
  · refine LogOps.logUnsafe_built (Q := fun r => ∃ eventId prevHash,
      (host.call event).buildRecord host.canonicalMetadata host.keys eventId prevHash =
        some r) ?_ ?_ h
    · intro p p' r hr
      obtain ⟨eventId, now, prevHash, hbuilt⟩ := InsertFate.run_eq_some (Prod.mk.inj hr).2
      exact ⟨eventId, prevHash, hbuilt⟩
    · intro f f' r hr
      obtain ⟨eventId, now, prevHash, hbuilt⟩ := InsertFate.run_eq_some (Prod.mk.inj hr).2
      exact ⟨eventId, prevHash, hbuilt⟩

/-- A primary store that is up takes the record. -/
theorem logUnsafe_of_primary {eventId : Uuid} {now : Datetime} {prevHash : Option String}
    {record : LoggedRecord} (hflag : host.sessionId ∉ s.degradedStarts)
    (hfate : host.primaryRecord = .inserts eventId now prevHash)
    (hbuilt : host.buildRecord event eventId now prevHash = some record) :
    host.logUnsafe event s = ({ s with primary := s.primary ++ [record] }, some record) := by
  have hwrite : (host.ops event).primaryRecord s.primary =
      (s.primary ++ [record], some record) := by
    simp [ops, hfate, StoreFate.write, StoreFate.written, StoreFate.reply, InsertFate.run, hbuilt]
  rw [logUnsafe, LogOps.logUnsafe, LogOps.tryPrimary, if_neg hflag, hwrite]

/-- What the caller gets does not depend on what the stores hold. -/
theorem logUnsafe_snd : (host.logUnsafe event s).2 =
    (((host.call event).ops host.canonicalMetadata host.keys host.fates).logUnsafe
      (host.call event).sessionId ⟨(), (), s.degradedStarts⟩).2 := by
  apply LogOps.logUnsafe_congr
  · intro p p'
    rfl
  · intro p p'
    rfl
  · intro f f'
    rfl
  · rfl

/-- `log` on stores returns what `LoggedCall.log` returns. -/
theorem log_snd : (host.log event s).2 = (host.call event).log host.canonicalMetadata
    host.keys host.fates s.degradedStarts host.draw := by
  rw [log, LoggedCall.log]
  by_cases hreserved : event.base.kind ∈ permittedKinds
  · rw [if_pos hreserved]
    exact (if_pos hreserved).symm
  · rw [if_neg hreserved]
    refine Eq.trans ?_ (if_neg hreserved).symm
    rw [← logUnsafe_snd]
    rcases host.logUnsafe event s with ⟨s', _ | record⟩
    · rcases (host.call event).placeholderRecord host.draw with _ | record
      · rfl
      · rfl
    · rfl

end

end AuditHost

/-! ## The revocation store -/

/-- `RevocationRecord` -/
structure RevocationRecord where
  keyFingerprint : String
  revokedAtChainSeq : ℕ
  reason : String
  operatorId : String
  createdAt : Datetime
  chainEventId : Option Uuid

/-- `_records` with its index `_by_fingerprint`. -/
structure RevocationMirror where
  records : List RevocationRecord
  byFingerprint : String → List RevocationRecord
  indexed : ∀ fingerprint, byFingerprint fingerprint =
    records.filter fun r => r.keyFingerprint = fingerprint

namespace RevocationMirror

def empty : RevocationMirror := ⟨[], fun _ => [], fun _ => rfl⟩

/-- The two appends of `revoke`, under its lock. -/
def append (m : RevocationMirror) (record : RevocationRecord) : RevocationMirror where
  records := m.records ++ [record]
  byFingerprint := Function.update m.byFingerprint record.keyFingerprint
    (m.byFingerprint record.keyFingerprint ++ [record])
  indexed := by
    intro fingerprint
    by_cases h : fingerprint = record.keyFingerprint
    · subst h
      rw [Function.update_self, m.indexed, List.filter_append]
      simp
    · rw [Function.update_of_ne h, m.indexed, List.filter_append]
      simp [Ne.symm h]

def isRevokedAt (m : RevocationMirror) (keyFingerprint : String) (chainSeq : ℕ) : Bool :=
  (m.byFingerprint keyFingerprint).any fun r => r.revokedAtChainSeq ≤ chainSeq

variable {m : RevocationMirror} {fingerprint : String} {chainSeq : ℕ}

theorem isRevokedAt_iff : m.isRevokedAt fingerprint chainSeq = true ↔
    ∃ r ∈ m.records, r.keyFingerprint = fingerprint ∧ r.revokedAtChainSeq ≤ chainSeq := by
  simp [isRevokedAt, m.indexed]

theorem isRevokedAt_append_iff {record : RevocationRecord} :
    (m.append record).isRevokedAt fingerprint chainSeq = true ↔
      m.isRevokedAt fingerprint chainSeq = true ∨
        record.keyFingerprint = fingerprint ∧ record.revokedAtChainSeq ≤ chainSeq := by
  rw [isRevokedAt_iff, isRevokedAt_iff]
  simp [append, or_and_right, exists_or]

end RevocationMirror

/-- A row of `governance_agent_key_revocations`.  Without the column `chain_event_id` the
row has no event, as with a NULL in it. -/
structure RevocationRow where
  keyFingerprint : String
  revokedAtChainSeq : ℕ
  reason : String
  operatorId : String
  chainEventId : Option Uuid

/-- `table` is `none` if there is no engine. -/
structure RevocationStore where
  strictChain : Bool
  mirror : RevocationMirror
  table : Option (List RevocationRow)

/-- What becomes of a statement in its own transaction.  It may raise after the commit;
`msg` is the text of the exception in lower case. -/
inductive StatementFate where
  | commits
  | raises (committed : Bool) (msg : String)

/-- The table has a row with this key and this boundary, which are unique together. -/
def Recorded (table : List RevocationRow) (fingerprint : String) (seq : ℕ) : Prop :=
  ∃ old ∈ table, old.keyFingerprint = fingerprint ∧ old.revokedAtChainSeq = seq

instance (table : List RevocationRow) (fingerprint : String) (seq : ℕ) :
    Decidable (Recorded table fingerprint seq) :=
  inferInstanceAs (Decidable (∃ old ∈ table, _))

/-- `INSERT ... ON CONFLICT (key_fingerprint, revoked_at_chain_seq) DO NOTHING` -/
def insertRow (table : List RevocationRow) (row : RevocationRow) : List RevocationRow :=
  if Recorded table row.keyFingerprint row.revokedAtChainSeq then table else table ++ [row]

/-- The table afterwards, and the exception. -/
def StatementFate.execute (fate : StatementFate) (table : List RevocationRow)
    (row : RevocationRow) : List RevocationRow × Option String :=
  match fate with
  | .commits => (insertRow table row, none)
  | .raises true msg => (insertRow table row, some msg)
  | .raises false msg => (table, some msg)

/-- `part in text` -/
def textContains (text part : String) : Prop := part.toList <:+: text.toList

instance (text part : String) : Decidable (textContains text part) :=
  inferInstanceAs (Decidable (part.toList <:+: text.toList))

/-- `is_missing_column` -/
def isMissingColumn (msg : String) : Prop :=
  (textContains msg "does not exist" ∨ textContains msg "undefined column") ∧
    textContains msg "chain_event_id"

instance (msg : String) : Decidable (isMissingColumn msg) :=
  inferInstanceAs (Decidable (_ ∧ _))

/-- The fates of the two statements of `revoke_async`. -/
structure SqlFates where
  linked : StatementFate
  legacy : StatementFate

namespace RevocationRecord

def row (r : RevocationRecord) : RevocationRow :=
  ⟨r.keyFingerprint, r.revokedAtChainSeq, r.reason, r.operatorId, r.chainEventId⟩

/-- The row of the statement with four columns. -/
def legacyRow (r : RevocationRecord) : RevocationRow := { r.row with chainEventId := none }

end RevocationRecord

namespace RevocationStore

variable (σ : RevocationStore) (sql : SqlFates) (record : RevocationRecord)

def rows : List RevocationRow := σ.table.getD []

/-- `revoke`, which cannot fail -/
def revoke : RevocationStore := { σ with mirror := σ.mirror.append record }

/-- The last statement of `revoke_async`, on a table. -/
def revokeLegacy (table : List RevocationRow) : RevocationStore × Option RevocationRecord :=
  match sql.legacy.execute table record.legacyRow with
  | (table', none) => ({ σ with table := some table' }.revoke record, some record)
  | (table', some _) => ({ σ with table := some table' }, none)

/-- `revoke_async`; `none` stands for an exception. -/
def revokeAsync : RevocationStore × Option RevocationRecord :=
  match σ.table with
  | none => (σ, none)
  | some table =>
      if record.chainEventId = none then σ.revokeLegacy sql record table
      else
        match sql.linked.execute table record.row with
        | (table', none) => ({ σ with table := some table' }.revoke record, some record)
        | (table', some msg) =>
            if isMissingColumn msg then σ.revokeLegacy sql record table'
            else ({ σ with table := some table' }, none)

/-- The end of `revoke_with_chain_event`: the table if there is an engine, and the mirror
alone otherwise or when the table fails. -/
def persist : RevocationStore :=
  match σ.table with
  | none => σ.revoke record
  | some _ =>
      match σ.revokeAsync sql record with
      | (σ', some _) => σ'
      | (σ', none) => σ'.revoke record

end RevocationStore

/-! ## `revoke_with_chain_event` -/

def revocationKind : String := "audit.agent_key_revocation"

structure RevocationCall where
  keyFingerprint : String
  reason : String
  operatorId : String
  revokerAgentId : String
  strictChain : Option Bool

/-- `get_current_chain_seq` of the audit store, which not every store has. -/
inductive SeqLookup where
  | unsupported
  | raises
  | returns (seq : ℕ)

def SeqLookup.revokedSeq : SeqLookup → ℕ
  | .returns seq => seq
  | .unsupported => 0
  | .raises => 0

structure RevocationEnv where
  host : AuditHost
  lookup : SeqLookup
  sql : SqlFates
  now : Datetime

structure RevocationOutcome where
  audit : AuditState
  store : RevocationStore
  result : Except PyError RevocationRecord

namespace RevocationCall

variable (c : RevocationCall) (env : RevocationEnv)

def eventArgs : EventArgs where
  sessionId := none
  agentId := c.revokerAgentId
  parentEventId := none
  kind := revocationKind
  model := none
  inputHash := none
  outputHash := none
  metadata :=
    [("revoked_key_fingerprint", .str c.keyFingerprint),
     ("reason", .str c.reason),
     ("operator_id", .str c.operatorId)]

def effectiveStrict (σ : RevocationStore) : Bool := c.strictChain.getD σ.strictChain

def record (lookup : SeqLookup) (now : Datetime) (chainEventId : Option Uuid) :
    RevocationRecord where
  keyFingerprint := c.keyFingerprint
  revokedAtChainSeq := lookup.revokedSeq
  reason := c.reason
  operatorId := c.operatorId
  createdAt := now
  chainEventId := chainEventId

/-- `revoke_with_chain_event` -/
def revokeWithChainEvent (s : AuditState) (σ : RevocationStore) : RevocationOutcome :=
  match c.eventArgs.construct env.host.nfc with
  | none => ⟨s, σ, .error .validationError⟩
  | some event =>
      match env.host.log event s with
      | (s', .ok logged) =>
          let revocation := c.record env.lookup env.now (some logged.base.eventId)
          ⟨s', σ.persist env.sql revocation, .ok revocation⟩
      | (s', .error e) =>
          if c.effectiveStrict σ then ⟨s', σ, .error e⟩
          else
            let revocation := c.record env.lookup env.now none
            ⟨s', σ.persist env.sql revocation, .ok revocation⟩

end RevocationCall

/-! ## What `persist` appends -/

/-- The statement takes effect. -/
def StatementFate.Lands : StatementFate → Prop
  | .commits => True
  | .raises committed _ => committed = true

/-- What `revoke_async` makes of the table for a record with an event. -/
def SqlFates.tableAfter (sql : SqlFates) (record : RevocationRecord)
    (table : List RevocationRow) : List RevocationRow :=
  match sql.linked.execute table record.row with
  | (table', none) => table'
  | (table', some msg) =>
      if isMissingColumn msg then (sql.legacy.execute table' record.legacyRow).1 else table'

section Table

variable {table : List RevocationRow}

theorem recorded_insertRow (table : List RevocationRow) (row : RevocationRow) :
    Recorded (insertRow table row) row.keyFingerprint row.revokedAtChainSeq := by
  rw [insertRow]
  by_cases hold : Recorded table row.keyFingerprint row.revokedAtChainSeq
  · rwa [if_pos hold]
  · rw [if_neg hold]
    exact ⟨row, by simp, rfl, rfl⟩

theorem insertRow_eq_or (table : List RevocationRow) (row : RevocationRow) :
    insertRow table row = table ∨ insertRow table row = table ++ [row] := by
  rw [insertRow]
  by_cases hold : Recorded table row.keyFingerprint row.revokedAtChainSeq
  · exact Or.inl (if_pos hold)
  · exact Or.inr (if_neg hold)

theorem StatementFate.execute_of_recorded {fate : StatementFate} {row : RevocationRow}
    (hold : Recorded table row.keyFingerprint row.revokedAtChainSeq) :
    (fate.execute table row).1 = table := by
  have hinsert : insertRow table row = table := if_pos hold
  rcases fate with _ | ⟨_ | _, msg⟩
  · exact hinsert
  · rfl
  · exact hinsert

variable {sql : SqlFates} {record : RevocationRecord}

/-- The statement with the event fails for its missing column, and the one without takes
effect. -/
structure SqlFates.UnlinkedLands (sql : SqlFates) (table : List RevocationRow)
    (fingerprint : String) (seq : ℕ) : Prop where
  linked : ∃ msg, sql.linked = .raises false msg ∧ isMissingColumn msg
  legacy : sql.legacy.Lands
  new : ¬Recorded table fingerprint seq

/-- The table gets the row without the event in exactly this case, and otherwise at most
the row with it. -/
theorem SqlFates.tableAfter_cases (sql : SqlFates) (table : List RevocationRow)
    (record : RevocationRecord) :
    (sql.UnlinkedLands table record.keyFingerprint record.revokedAtChainSeq ∧
        sql.tableAfter record table = table ++ [record.legacyRow]) ∨
      (¬sql.UnlinkedLands table record.keyFingerprint record.revokedAtChainSeq ∧
        (sql.tableAfter record table = table ∨
          sql.tableAfter record table = table ++ [record.row])) := by
  rw [tableAfter]
  rcases hlinked : sql.linked with _ | ⟨_ | _, msg⟩
  · right
    constructor
    · intro h
      obtain ⟨msg, hmsg, -⟩ := h.linked
      rw [hlinked] at hmsg
      cases hmsg
    · exact insertRow_eq_or table record.row
  · by_cases hmissing : isMissingColumn msg
    · simp only [StatementFate.execute, hmissing, if_true]
      by_cases hold : Recorded table record.keyFingerprint record.revokedAtChainSeq
      · right
        exact ⟨fun h => h.new hold, Or.inl (StatementFate.execute_of_recorded hold)⟩
      · rcases hlegacy : sql.legacy with _ | ⟨_ | _, msg'⟩
        · left
          exact ⟨⟨⟨msg, hlinked, hmissing⟩, by rw [hlegacy]; trivial, hold⟩, if_neg hold⟩
        · right
          constructor
          · intro h
            have hlands := h.legacy
            rw [hlegacy] at hlands
            cases hlands
          · exact Or.inl rfl
        · left
          exact ⟨⟨⟨msg, hlinked, hmissing⟩, by rw [hlegacy]; rfl, hold⟩, if_neg hold⟩
    · right
      constructor
      · intro h
        obtain ⟨msg', hmsg, hmissing'⟩ := h.linked
        rw [hlinked] at hmsg
        cases hmsg
        exact hmissing hmissing'
      · left
        simp [StatementFate.execute, hmissing]
  · right
    constructor
    · intro h
      obtain ⟨msg', hmsg, -⟩ := h.linked
      rw [hlinked] at hmsg
      cases hmsg
    · have hlegacy : (sql.legacy.execute (insertRow table record.row)
          record.legacyRow).1 = insertRow table record.row :=
        StatementFate.execute_of_recorded (recorded_insertRow table record.row)
      have hexecute : StatementFate.execute (.raises true msg) table record.row =
          (insertRow table record.row, some msg) := rfl
      rw [hexecute]
      by_cases hmissing : isMissingColumn msg
      · simp only [hmissing, if_true, hlegacy]
        exact insertRow_eq_or table record.row
      · simp only [hmissing, if_false]
        exact insertRow_eq_or table record.row

end Table

namespace RevocationStore

variable {σ : RevocationStore} {sql : SqlFates} {record : RevocationRecord}

theorem revokeLegacy_mirror {table : List RevocationRow} :
    (σ.revokeLegacy sql record table).1.mirror =
      if (σ.revokeLegacy sql record table).2.isSome then σ.mirror.append record
      else σ.mirror := by
  rw [revokeLegacy]
  rcases sql.legacy.execute table record.legacyRow with ⟨table', _ | msg⟩
  · rfl
  · rfl

theorem revokeLegacy_table {table : List RevocationRow} :
    (σ.revokeLegacy sql record table).1.table =
      some (sql.legacy.execute table record.legacyRow).1 := by
  rw [revokeLegacy]
  rcases sql.legacy.execute table record.legacyRow with ⟨table', _ | msg⟩
  · rfl
  · rfl

theorem revokeAsync_mirror (σ : RevocationStore) (sql : SqlFates)
    (record : RevocationRecord) : (σ.revokeAsync sql record).1.mirror =
    if (σ.revokeAsync sql record).2.isSome then σ.mirror.append record else σ.mirror := by
  rw [revokeAsync]
  rcases σ.table with _ | table
  · rfl
  · by_cases hevent : record.chainEventId = none
    · simp only [hevent, if_true]
      exact revokeLegacy_mirror
    · simp only [hevent, if_false]
      rcases sql.linked.execute table record.row with ⟨table', _ | msg⟩
      · rfl
      · by_cases hmissing : isMissingColumn msg
        · simp only [hmissing, if_true]
          exact revokeLegacy_mirror
        · simp [hmissing]

/-- However the table fares, the mirror gets the record. -/
theorem persist_mirror : (σ.persist sql record).mirror = σ.mirror.append record := by
  rw [persist]
  rcases σ.table with _ | table
  · rfl
  · have hmirror := revokeAsync_mirror σ sql record
    rcases hasync : σ.revokeAsync sql record with ⟨σ', _ | r⟩
    · rw [hasync] at hmirror
      exact congrArg (·.append record) hmirror
    · rw [hasync] at hmirror
      exact hmirror

theorem persist_table (hevent : record.chainEventId ≠ none) :
    (σ.persist sql record).table = σ.table.map (sql.tableAfter record) := by
  have hasync : ∀ table, σ.table = some table →
      (σ.revokeAsync sql record).1.table = some (sql.tableAfter record table) := by
    intro table htable
    rw [revokeAsync, htable, SqlFates.tableAfter]
    simp only [hevent, if_false]
    rcases sql.linked.execute table record.row with ⟨table', _ | msg⟩
    · rfl
    · by_cases hmissing : isMissingColumn msg
      · simp only [hmissing, if_true]
        exact revokeLegacy_table
      · simp [hmissing]
  rw [persist]
  rcases htable : σ.table with _ | table
  · exact htable
  · have hafter := hasync table htable
    rcases hresult : σ.revokeAsync sql record with ⟨σ', _ | r⟩
    · rw [hresult] at hafter
      exact hafter
    · rw [hresult] at hafter
      exact hafter

/-- `after` has the revocations of `before` and further ones, whose events satisfy `Q`. -/
def Extends (before after : RevocationStore) (Q : Option Uuid → Prop) : Prop :=
  ∃ records rows,
    after.mirror.records = before.mirror.records ++ records ∧
      after.rows = before.rows ++ rows ∧
      (∀ r ∈ records, Q r.chainEventId) ∧ ∀ r ∈ rows, Q r.chainEventId

/-- The table gets a row without an event. -/
def UnlinkedRowLands (σ : RevocationStore) (sql : SqlFates) (fingerprint : String)
    (seq : ℕ) : Prop :=
  ∃ table, σ.table = some table ∧ sql.UnlinkedLands table fingerprint seq

/-- The rows that `persist` adds for a record with an event. -/
theorem persist_rows (sql : SqlFates) (hevent : record.chainEventId ≠ none) :
    (σ.UnlinkedRowLands sql record.keyFingerprint record.revokedAtChainSeq ∧
        (σ.persist sql record).rows = σ.rows ++ [record.legacyRow]) ∨
      (¬σ.UnlinkedRowLands sql record.keyFingerprint record.revokedAtChainSeq ∧
        ((σ.persist sql record).rows = σ.rows ∨
          (σ.persist sql record).rows = σ.rows ++ [record.row])) := by
  rw [rows, rows, persist_table hevent]
  rcases htable : σ.table with _ | table
  · right
    constructor
    · rintro ⟨table, hsome, -⟩
      rw [htable] at hsome
      cases hsome
    · exact Or.inl rfl
  · rcases sql.tableAfter_cases table record with ⟨hlands, hafter⟩ | ⟨hlands, hafter⟩
    · exact Or.inl ⟨⟨table, htable, hlands⟩, hafter⟩
    · right
      constructor
      · rintro ⟨table', hsome, hlands'⟩
        rw [htable] at hsome
        cases hsome
        exact hlands hlands'
      · exact hafter

theorem extends_persist_iff {Q : Option Uuid → Prop} (hnone : ¬Q none)
    (hevent : record.chainEventId ≠ none) :
    σ.Extends (σ.persist sql record) Q ↔ Q record.chainEventId ∧
      ¬σ.UnlinkedRowLands sql record.keyFingerprint record.revokedAtChainSeq := by
  have hrecords : (σ.persist sql record).mirror.records = σ.mirror.records ++ [record] := by
    rw [persist_mirror]
    rfl
  constructor
  · rintro ⟨records, rows, hmirror, hrows, hlinked, hlinkedRows⟩
    constructor
    · rw [hrecords] at hmirror
      have hmem : record ∈ records := by
        rw [← List.append_cancel_left hmirror]
        exact List.mem_singleton_self record
      exact hlinked record hmem
    · intro hlands
      rcases persist_rows sql hevent with ⟨-, hlegacy⟩ | ⟨hnot, -⟩
      · rw [hlegacy] at hrows
        have hmem : record.legacyRow ∈ rows := by
          rw [← List.append_cancel_left hrows]
          exact List.mem_singleton_self _
        exact hnone (hlinkedRows _ hmem)
      · exact hnot hlands
  · rintro ⟨hlinked, hnot⟩
    have hone : ∀ r ∈ [record], Q r.chainEventId := by
      intro r hr
      rwa [List.mem_singleton.mp hr]
    rcases persist_rows sql hevent with ⟨hlands, -⟩ | ⟨-, hsame | hrow⟩
    · exact absurd hlands hnot
    · exact ⟨[record], [], hrecords, by rw [hsame, List.append_nil], hone, by simp⟩
    · refine ⟨[record], [record.row], hrecords, hrow, hone, ?_⟩
      intro r hr
      rw [List.mem_singleton.mp hr]
      exact hlinked

end RevocationStore

/-! ## Strict linkage -/

/-- The event is a stored revocation event. -/
def Linked (s : AuditState) (chainEventId : Option Uuid) : Prop :=
  ∃ r ∈ stored s, r.base.kind = revocationKind ∧ chainEventId = some r.base.eventId

theorem not_linked_none (s : AuditState) : ¬Linked s none := by
  rintro ⟨r, -, -, hid⟩
  cases hid

/-- The call appended linked revocations only, or it raised and left the store alone. -/
def RevocationOutcome.StrictlyLinked (o : RevocationOutcome) (σ : RevocationStore) : Prop :=
  ((∃ record, o.result = .ok record) ∧ σ.Extends o.store (Linked o.audit)) ∨
    ((∃ e, o.result = .error e) ∧ o.store = σ)

/-- The insert returns a record. -/
def StoreFate.Replies (fate : StoreFate)
    (build : Uuid → Datetime → Option String → Option LoggedRecord) : Prop :=
  ∃ record, fate.reply.run build = some record

namespace AuditHost

variable {host : AuditHost} {event : LoggedEvent} {s s' : AuditState}

/-- The primary takes the record, after the recovery marker if the session is flagged, or
the fallback takes it. -/
def ChainWriteLands (host : AuditHost) (event : LoggedEvent)
    (degradedStarts : Finset Uuid) : Prop :=
  ((host.sessionId ∈ degradedStarts →
        host.primaryMarker.Replies ((host.call event).buildMarker host.keys)) ∧
      host.primaryRecord.Replies (host.buildRecord event)) ∨
    host.fallbackRecord.Replies (host.buildRecord event)

theorem logUnsafe_isSome_iff (host : AuditHost) (event : LoggedEvent) (s : AuditState) :
    (∃ record, (host.logUnsafe event s).2 = some record) ↔
      host.ChainWriteLands event s.degradedStarts := by
  have hprimary : (∃ record, ((host.ops event).tryPrimary host.sessionId s).2 = some record) ↔
      (host.sessionId ∈ s.degradedStarts →
          host.primaryMarker.Replies ((host.call event).buildMarker host.keys)) ∧
        host.primaryRecord.Replies (host.buildRecord event) := by
    rw [LogOps.tryPrimary]
    by_cases hflagged : host.sessionId ∈ s.degradedStarts
    · rw [if_pos hflagged]
      rcases hmarker : host.primaryMarker.reply.run
        ((host.call event).buildMarker host.keys) with _ | m
      · simp [ops, StoreFate.write, StoreFate.Replies, hmarker, hflagged]
      · simp [ops, StoreFate.write, StoreFate.Replies, hmarker]
    · rw [if_neg hflagged]
      simp [ops, StoreFate.write, StoreFate.Replies, hflagged]
  rw [ChainWriteLands, ← hprimary, logUnsafe, LogOps.logUnsafe]
  rcases (host.ops event).tryPrimary host.sessionId s with ⟨s₁, _ | record⟩
  · simp [LogOps.fallBack, ops, StoreFate.write, StoreFate.Replies]
  · simp

theorem log_of_logUnsafe {record : LoggedRecord} (hkind : event.base.kind ∉ permittedKinds)
    (h : host.logUnsafe event s = (s', some record)) :
    host.log event s = (s', .ok record) := by
  rw [log, if_neg hkind, h]

/-- With both stores down a placeholder comes back, if it is a valid record. -/
theorem log_of_down {record : LoggedRecord} (hkind : event.base.kind ∉ permittedKinds)
    (h : host.logUnsafe event s = (s', none))
    (hplaceholder : (host.call event).placeholderRecord host.draw = some record) :
    host.log event s = (s', .ok record) := by
  rw [log, if_neg hkind, h]
  simp only [hplaceholder]

end AuditHost

section Strict

variable {c : RevocationCall} {env : RevocationEnv} {s s' : AuditState} {σ : RevocationStore}

theorem sanitize_revocationKind
    (hnfc : ∀ text, isAscii text = true → env.host.nfc text = text) :
    sanitizeString env.host.nfc revocationKind maxKindLen = revocationKind := by
  rw [sanitizeString_of_nfc (hnfc _ (by decide))]
  exact sanitizeString_of_plain (by decide) (by decide)

namespace RevocationCall

theorem construct_eventArgs (haccepted : c.eventArgs.Accepted) :
    c.eventArgs.construct env.host.nfc = some (c.eventArgs.sanitize env.host.nfc) :=
  EventArgs.construct_eq_some_iff.mpr ⟨haccepted, rfl⟩

theorem loggable_iff_valid : c.eventArgs.Loggable env.host.nfc ↔
    (c.eventArgs.sanitize env.host.nfc).base.kind ∉ permittedKinds ∧
      ((env.host.call (c.eventArgs.sanitize env.host.nfc)).placeholderFields
        env.host.draw).Valid :=
  EventArgs.loggable_iff (L := env.host.call (c.eventArgs.sanitize env.host.nfc)) rfl
    env.host.draw

theorem revoke_of_log_ok {logged : LoggedRecord} (haccepted : c.eventArgs.Accepted)
    (hlog : env.host.log (c.eventArgs.sanitize env.host.nfc) s = (s', .ok logged)) :
    c.revokeWithChainEvent env s σ =
      ⟨s', σ.persist env.sql (c.record env.lookup env.now (some logged.base.eventId)),
        .ok (c.record env.lookup env.now (some logged.base.eventId))⟩ := by
  rw [revokeWithChainEvent, construct_eventArgs haccepted]
  simp only [hlog]

theorem revoke_of_log_error {e : PyError} (hstrict : c.effectiveStrict σ = true)
    (haccepted : c.eventArgs.Accepted)
    (hlog : env.host.log (c.eventArgs.sanitize env.host.nfc) s = (s', .error e)) :
    c.revokeWithChainEvent env s σ = ⟨s', σ, .error e⟩ := by
  rw [revokeWithChainEvent, construct_eventArgs haccepted]
  simp only [hlog, hstrict, if_true]

/-- Whether the event is refused by its constructor or by `log`, a strict call raises. -/
theorem revoke_of_not_logged (hstrict : c.effectiveStrict σ = true)
    (h : ¬(c.eventArgs.Accepted ∧ c.eventArgs.Loggable env.host.nfc)) :
    ∃ s' e, c.revokeWithChainEvent env s σ = ⟨s', σ, .error e⟩ := by
  by_cases haccepted : c.eventArgs.Accepted
  · rcases hlog : env.host.log (c.eventArgs.sanitize env.host.nfc) s with ⟨s', e | record⟩
    · exact ⟨s', e, revoke_of_log_error hstrict haccepted hlog⟩
    · have hrecord : (env.host.log (c.eventArgs.sanitize env.host.nfc) s).2 = .ok record :=
        congrArg Prod.snd hlog
      rw [AuditHost.log_snd] at hrecord
      have hvalid := LoggedCall.log_ok_iff.mp ⟨record, hrecord⟩
      exact absurd ⟨haccepted, loggable_iff_valid.mpr hvalid⟩ h
  · refine ⟨s, .validationError, ?_⟩
    have hnone : c.eventArgs.construct env.host.nfc = none := if_neg haccepted
    rw [revokeWithChainEvent, hnone]

/-- The record of the event is stored under its id. -/
theorem linked_of_logUnsafe {record : LoggedRecord}
    (hnfc : ∀ text, isAscii text = true → env.host.nfc text = text)
    (h : env.host.logUnsafe (c.eventArgs.sanitize env.host.nfc) s = (s', some record)) :
    Linked s' (some record.base.eventId) := by
  obtain ⟨hstored, eventId, prevHash, hbuilt⟩ := AuditHost.mem_stored_of_logUnsafe h
  have hkind := (LoggedCall.buildRecord_kind hbuilt).1
  exact ⟨record, hstored, hkind.trans (sanitize_revocationKind hnfc), rfl⟩

/-- The event cannot be logged at all, or one of the two stores takes it and the table
does not get a row without it. -/
def Linkable (c : RevocationCall) (env : RevocationEnv) (s : AuditState)
    (σ : RevocationStore) : Prop :=
  ¬(c.eventArgs.Accepted ∧ c.eventArgs.Loggable env.host.nfc) ∨
    (env.host.ChainWriteLands (c.eventArgs.sanitize env.host.nfc) s.degradedStarts ∧
      ¬σ.UnlinkedRowLands env.sql c.keyFingerprint env.lookup.revokedSeq)

/-- The linkage of a call whose `log` returned. -/
theorem strictlyLinked_iff_of_log_ok {logged : LoggedRecord}
    (haccepted : c.eventArgs.Accepted)
    (hlog : env.host.log (c.eventArgs.sanitize env.host.nfc) s = (s', .ok logged)) :
    (c.revokeWithChainEvent env s σ).StrictlyLinked σ ↔
      Linked s' (some logged.base.eventId) ∧
        ¬σ.UnlinkedRowLands env.sql c.keyFingerprint env.lookup.revokedSeq := by
  rw [revoke_of_log_ok haccepted hlog, RevocationOutcome.StrictlyLinked,
    RevocationStore.extends_persist_iff (not_linked_none s') (by simp [record])]
  simp [record]

end RevocationCall

/-- For all failures of the audit stores, of the sequence lookup and of the table, a strict
call links every revocation that it appends to a stored event, or raises and appends none,
if and only if the event is refused, or one of the audit stores takes it and no row without
it reaches the table. -/
theorem strict_linkage_iff (hstrict : c.effectiveStrict σ = true)
    (hnfc : ∀ text, isAscii text = true → env.host.nfc text = text)
    (hfresh : ∀ r ∈ stored (c.revokeWithChainEvent env s σ).audit,
      r.base.eventId ≠ env.host.draw.eventId) :
    (c.revokeWithChainEvent env s σ).StrictlyLinked σ ↔ c.Linkable env s σ := by
  by_cases hlogged : c.eventArgs.Accepted ∧ c.eventArgs.Loggable env.host.nfc
  · obtain ⟨haccepted, hloggable⟩ := hlogged
    have hlands := AuditHost.logUnsafe_isSome_iff env.host
      (c.eventArgs.sanitize env.host.nfc) s
    have hlinkable : c.Linkable env s σ ↔
        env.host.ChainWriteLands (c.eventArgs.sanitize env.host.nfc) s.degradedStarts ∧
          ¬σ.UnlinkedRowLands env.sql c.keyFingerprint env.lookup.revokedSeq := by
      simp [RevocationCall.Linkable, haccepted, hloggable]
    have hcall := RevocationCall.loggable_iff_valid.mp hloggable
    rw [hlinkable]
    rcases hreply : env.host.logUnsafe (c.eventArgs.sanitize env.host.nfc) s with
      ⟨s', _ | record⟩
    · -- both stores are down: the id is that of a placeholder
      obtain ⟨placeholder, hplaceholder⟩ :=
        LoggedCall.placeholderRecord_isSome_iff.mpr hcall.2
      have hlog := AuditHost.log_of_down hcall.1 hreply hplaceholder
      rw [RevocationCall.strictlyLinked_iff_of_log_ok haccepted hlog]
      rw [hreply] at hlands
      rw [RevocationCall.revoke_of_log_ok haccepted hlog] at hfresh
      constructor
      · rintro ⟨⟨r, hr, -, hid⟩, -⟩
        have hsame : r.base.eventId = env.host.draw.eventId :=
          (Option.some.inj hid).symm.trans (LoggedCall.placeholderRecord_eventId hplaceholder)
        exact absurd hsame (hfresh r hr)
      · rintro ⟨hwrite, -⟩
        obtain ⟨record, hnone⟩ := hlands.mpr hwrite
        cases hnone
    · have hlog := AuditHost.log_of_logUnsafe hcall.1 hreply
      rw [RevocationCall.strictlyLinked_iff_of_log_ok haccepted hlog]
      rw [hreply] at hlands
      have hwrite := hlands.mp ⟨record, rfl⟩
      have hlinked := RevocationCall.linked_of_logUnsafe hnfc hreply
      simp [hwrite, hlinked]
  · obtain ⟨s', e, hraised⟩ := RevocationCall.revoke_of_not_logged hstrict hlogged
    constructor
    · intro _
      exact Or.inl hlogged
    · intro _
      rw [hraised]
      exact Or.inr ⟨⟨e, rfl⟩, rfl⟩

end Strict

/-! ### One revocation -/

def sampleRevocation : RevocationCall where
  keyFingerprint := "deadbeefdeadbeefdeadbeefdeadbeef"
  reason := "suspected compromise"
  operatorId := "security-on-call"
  revokerAgentId := "governance.operator"
  strictChain := none

def revocationContent : EventContent where
  eventId := ⟨1⟩
  sessionId := ⟨100⟩
  agentId := "governance.operator"
  parentEventId := none
  kind := revocationKind
  model := none
  inputHash := none
  outputHash := none
  metadata :=
    [("revoked_key_fingerprint", .str "deadbeefdeadbeefdeadbeefdeadbeef"),
     ("reason", .str "suspected compromise"),
     ("operator_id", .str "security-on-call")]
  prevHash := none
  createdAt := sampleTime

def revocationDigest : BitVec 256 :=
  0x6ccda0a0b3e752a0b67721ea5a61596c9c63e4ef832c803ec34588fd45c7d1a3#256

/-- HMAC-SHA256 under `sampleSecret` on the revocation event. -/
def revocationKeys : ModuleKeys where
  hmac := .ofTable [tableEntry sampleSecret revocationContent revocationDigest]
  secret := sampleSecret
  signer := none

/-- An audit module with the given fate of the insert into its primary store, and a
fallback that is down. -/
def sampleEnv (primaryRecord : StoreFate) : RevocationEnv where
  host :=
    { nfc := id
      canonicalMetadata := reloadedMetadata
      keys := revocationKeys
      sessionId := ⟨100⟩
      parentId := none
      createdAt := sampleTime
      primaryMarker := .raises
      primaryRecord := primaryRecord
      fallbackMarker := .raises
      fallbackRecord := .raises
      drain := fun fallback primary => (fallback, primary)
      draw := ⟨⟨2⟩, ⟨100⟩, sampleTime⟩ }
  lookup := .unsupported
  sql := ⟨.commits, .commits⟩
  now := sampleTime

def noEvents : AuditState := ⟨[], [], ∅⟩

def newRevocations : RevocationStore := ⟨true, .empty, none⟩

theorem sampleRevocation_accepted : sampleRevocation.eventArgs.Accepted := by
  decide +kernel

/-- No value of the event is rewritten. -/
theorem sampleRevocation_sanitize : sampleRevocation.eventArgs.sanitize id =
    ⟨⟨none, "governance.operator", none, revocationKind, none, none, none, []⟩,
      sampleRevocation.eventArgs.metadata, rfl⟩ := by
  have hagent : sanitizeString id "governance.operator" maxAgentIdLen = "governance.operator" :=
    sanitizeString_of_plain (by decide) (by decide)
  have hkind : sanitizeString id revocationKind maxKindLen = revocationKind :=
    sanitizeString_of_plain (by decide) (by decide)
  have hfingerprint : sanitizeString id "deadbeefdeadbeefdeadbeefdeadbeef" defaultMaxStringLen =
      "deadbeefdeadbeefdeadbeefdeadbeef" :=
    sanitizeString_of_plain (by decide) (by decide)
  have hreason : sanitizeString id "suspected compromise" defaultMaxStringLen =
      "suspected compromise" :=
    sanitizeString_of_plain (by decide) (by decide)
  have hoperator : sanitizeString id "security-on-call" defaultMaxStringLen =
      "security-on-call" :=
    sanitizeString_of_plain (by decide) (by decide)
  simp only [EventArgs.sanitize, RevocationCall.eventArgs, sampleRevocation, List.map_cons,
    List.map_nil, sanitizeMetadata, Option.map_none, hagent, hkind, hfingerprint, hreason,
    hoperator]

/-- The event as it is constructed. -/
abbrev sampleEvent (fate : StoreFate) : LoggedEvent :=
  sampleRevocation.eventArgs.sanitize (sampleEnv fate).host.nfc

theorem sampleEvent_kind (fate : StoreFate) :
    (sampleEvent fate).base.kind ∉ permittedKinds := by
  change (sampleRevocation.eventArgs.sanitize id).base.kind ∉ permittedKinds
  rw [sampleRevocation_sanitize]
  decide

theorem revocationContent_valid (d : BitVec 256) :
    RecordFields.Valid ⟨revocationContent, digestText d, none, none, .unsigned⟩ := by
  have hnone : ∀ n, optionalWithin n none := by simp [optionalWithin]
  have hagentLength : "governance.operator".length = 19 := String.length_ofList
  have hagent : 1 ≤ "governance.operator".length ∧
      "governance.operator".length ≤ maxAgentIdLen := by
    rw [hagentLength]
    decide
  have hkindLength : revocationKind.length = 26 := String.length_ofList
  have hkind : 1 ≤ revocationKind.length ∧ revocationKind.length ≤ maxKindLen := by
    rw [hkindLength]
    decide
  refine ⟨hagent, hkind, hnone _, hnone _, hnone _, hnone _, ?_, hnone _⟩
  rw [length_digestText]
  decide

theorem sampleEvent_metadata (fate : StoreFate) :
    reloadedMetadata (sampleEvent fate).metadata = some revocationContent.metadata := by
  change reloadedMetadata (sampleRevocation.eventArgs.sanitize id).metadata = _
  rw [sampleRevocation_sanitize]
  rfl

theorem sampleEvent_content (fate : StoreFate) :
    (((sampleEnv fate).host.call (sampleEvent fate)).toLogCall
      revocationContent.metadata).recordContent ⟨1⟩ none = revocationContent := by
  change (((sampleEnv fate).host.call (sampleRevocation.eventArgs.sanitize id)).toLogCall
      revocationContent.metadata).recordContent ⟨1⟩ none = _
  rw [sampleRevocation_sanitize]
  rfl

/-- The record that the callback builds on an empty session. -/
theorem revocationRecord_built (fate : StoreFate) :
    ∃ record, (sampleEnv fate).host.buildRecord (sampleEvent fate) ⟨1⟩ sampleTime
        none = some record ∧ record.base.eventId = ⟨1⟩ := by
  have hmac : computeEventHmac revocationKeys.hmac sampleSecret revocationContent =
      digestText revocationDigest := computeEventHmac_ofTable_self _ _
  have hfields : (⟨revocationContent, computeEventHmac revocationKeys.hmac sampleSecret
      revocationContent, none, none, .unsigned⟩ : RecordFields).Valid := by
    rw [hmac]
    exact revocationContent_valid revocationDigest
  have hbuilt : (((sampleEnv fate).host.call (sampleEvent fate)).toLogCall
      revocationContent.metadata).buildRecord revocationKeys ⟨1⟩ none = some ⟨_, hfields⟩ := by
    rw [LogCall.buildRecord, sampleEvent_content]
    exact dif_pos hfields
  refine ⟨.withMetadata ⟨_, hfields⟩ (sampleEvent fate).metadata, ?_, rfl⟩
  rw [AuditHost.buildRecord, LoggedCall.buildRecord]
  change (reloadedMetadata (sampleEvent fate).metadata).bind (fun metadata =>
    (LogCall.buildRecord revocationKeys _ _ _).bind _) = _
  rw [sampleEvent_metadata, Option.bind_some, hbuilt]
  rfl

/-- With the primary store up the revocation names the stored event. -/
theorem sample_revocation_linked :
    (sampleRevocation.revokeWithChainEvent (sampleEnv (.inserts ⟨1⟩ sampleTime none)) noEvents
      newRevocations).StrictlyLinked newRevocations := by
  obtain ⟨record, hbuilt, hid⟩ := revocationRecord_built (.inserts ⟨1⟩ sampleTime none)
  have hreply : (sampleEnv (.inserts ⟨1⟩ sampleTime none)).host.logUnsafe
      (sampleEvent (.inserts ⟨1⟩ sampleTime none)) noEvents = (⟨[record], [], ∅⟩, some record) :=
    AuditHost.logUnsafe_of_primary (Finset.notMem_empty _) rfl hbuilt
  have hlog := AuditHost.log_of_logUnsafe (sampleEvent_kind _) hreply
  have hlands := (AuditHost.logUnsafe_isSome_iff _ _ _).mp ⟨record, congrArg Prod.snd hreply⟩
  refine (strict_linkage_iff rfl (fun text _ => rfl) ?_).mpr (Or.inr ⟨hlands, ?_⟩)
  · rw [RevocationCall.revoke_of_log_ok sampleRevocation_accepted hlog]
    intro r hr
    rw [List.mem_singleton.mp hr, hid]
    decide
  · rintro ⟨table, hnone, -⟩
    cases hnone

/-- With both stores down `log` returns a placeholder. -/
theorem outage_log :
    ∃ placeholder : LoggedRecord, placeholder.base.eventId = ⟨2⟩ ∧
      (sampleEnv .raises).host.log (sampleEvent .raises) noEvents =
        (⟨[], [], insert ⟨100⟩ ∅⟩, .ok placeholder) := by
  have hreply : (sampleEnv .raises).host.logUnsafe (sampleEvent .raises) noEvents =
        (⟨[], [], insert ⟨100⟩ ∅⟩, none) := by
    rw [AuditHost.logUnsafe, LogOps.logUnsafe, LogOps.tryPrimary, if_neg (by simp [noEvents])]
    rfl
  obtain ⟨built, hbuilt, -⟩ := revocationRecord_built .raises
  have hvalid : (((sampleEnv .raises).host.call
      (sampleEvent .raises)).placeholderFields (sampleEnv .raises).host.draw).Valid :=
    LoggedCall.placeholderFields_valid_of_built hbuilt
  obtain ⟨placeholder, hplaceholder⟩ := LoggedCall.placeholderRecord_isSome_iff.mpr hvalid
  exact ⟨placeholder, LoggedCall.placeholderRecord_eventId hplaceholder,
    AuditHost.log_of_down (sampleEvent_kind _) hreply hplaceholder⟩

/-- With both stores down a strict call appends a revocation under the id of a placeholder,
which is stored nowhere. -/
theorem outage_revocation_unlinked :
    let o := sampleRevocation.revokeWithChainEvent (sampleEnv .raises) noEvents newRevocations
    sampleRevocation.effectiveStrict newRevocations = true ∧
      (∃ record, o.result = .ok record ∧ o.store = newRevocations.revoke record ∧
        record.chainEventId = some ⟨2⟩) ∧
      stored o.audit = [] ∧ ¬o.StrictlyLinked newRevocations := by
  obtain ⟨placeholder, hid, hlog⟩ := outage_log
  have hunlinked : ¬(sampleRevocation.revokeWithChainEvent (sampleEnv .raises) noEvents
      newRevocations).StrictlyLinked newRevocations := by
    intro hlinked
    have hevent := (RevocationCall.strictlyLinked_iff_of_log_ok sampleRevocation_accepted
      hlog).mp hlinked
    obtain ⟨⟨r, hr, -⟩, -⟩ := hevent
    cases hr
  have hcall := RevocationCall.revoke_of_log_ok (σ := newRevocations) sampleRevocation_accepted
    hlog
  intro o
  have ho : o = _ := hcall
  change ¬o.StrictlyLinked newRevocations at hunlinked
  clear_value o
  subst ho
  exact ⟨rfl, ⟨_, rfl, rfl, congrArg some hid⟩, rfl, hunlinked⟩

end AgenticGovernance.Identity

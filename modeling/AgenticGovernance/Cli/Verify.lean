import Mathlib
import AgenticGovernance.Audit.Verify

/-!
# `governance verify` and `AuditModule.verify_chain`

Both read the rows of a session and verify them as a chain.  The command selects its own
columns and builds its own records: it leaves out the model, which the HMAC covers, and the
columns of the signature, which can keep a record from being built.

`verifiers_agree_iff` says for which sessions the two agree.
-/

namespace AgenticGovernance.Cli

open Audit Support

/-! ## Rows -/

/-- A row of `governance_audit_events` as the driver returns it.  `model` is a
`VARCHAR(128)`. -/
structure StoredRow where
  chainSeq : ℕ
  eventId : Uuid
  sessionId : Uuid
  agentId : String
  parentEventId : Option Uuid
  kind : String
  model : Option String
  inputHash : Option String
  outputHash : Option String
  metadataJson : Json
  prevHash : Option String
  hmacValue : String
  createdAt : Datetime
  signature : Option Bytes
  signingKeyFingerprint : Option String
  signatureStatus : String
  model_within : optionalWithin maxModelLen model

/-- A value that the record takes as its `dict[str, Any]`. -/
def asDict : Json → Option Metadata
  | .obj fields => some fields
  | _ => none

/-- A value of the `Literal` of `signature_status`. -/
def signatureStatusOf : String → Option SignatureStatus
  | "signed" => some .signed
  | "unsigned" => some .unsigned
  | "unsigned_local_failure" => some .unsignedLocalFailure
  | "legacy_unsigned" => some .legacyUnsigned
  | "revoked_key" => some .revokedKey
  | "invalid_signature" => some .invalidSignature
  | "unknown_key" => some .unknownKey
  | _ => none

namespace StoredRow

variable (row : StoredRow)

/-- The authenticated fields of the row, with the given model. -/
def content (model : Option String) (metadata : Metadata) : EventContent where
  eventId := row.eventId
  sessionId := row.sessionId
  agentId := row.agentId
  parentEventId := row.parentEventId
  kind := row.kind
  model := model
  inputHash := row.inputHash
  outputHash := row.outputHash
  metadata := metadata
  prevHash := row.prevHash
  createdAt := row.createdAt

/-- `row.get("signature_status") or "unsigned"` -/
def status : Option SignatureStatus :=
  if row.signatureStatus = "" then some .unsigned else signatureStatusOf row.signatureStatus

/-- `_row_to_record`; `none` is a `ValidationError`. -/
def toRecord : Option AuditEventRecord := do
  let metadata ← asDict row.metadataJson
  let status ← row.status
  AuditEventRecord.construct
    ⟨row.content row.model metadata, row.hmacValue, row.signature, row.signingKeyFingerprint,
      status⟩

/-- The record that `_run_verify` builds. -/
def toVerifyRecord : Option AuditEventRecord := do
  let metadata ← asDict row.metadataJson
  AuditEventRecord.construct
    ⟨row.content none metadata, row.hmacValue, none, none, .unsigned⟩

end StoredRow

/-- `SELECT ... WHERE session_id = :sid ORDER BY chain_seq` -/
def selectSession (table : List StoredRow) (sid : Uuid) : List StoredRow :=
  (table.filter fun row => row.sessionId = sid).insertionSort
    fun a b => a.chainSeq ≤ b.chainSeq

/-! ## The two verifiers -/

/-- What `_run_verify` reports. -/
inductive VerifyReport where
  | secretMissing
  | noEvents
  | headTruncated (event : Uuid)
  | tampered (event : Uuid)
  | gap (event : Uuid)
  | verified (count : ℕ)
  deriving DecidableEq

def VerifyReport.exitCode : VerifyReport → ℕ
  | secretMissing => 2
  | noEvents => 1
  | headTruncated _ => 1
  | tampered _ => 1
  | gap _ => 1
  | verified _ => 0

/-- What escapes from either verifier. -/
inductive VerifyError where
  | validation
  | chain (e : ChainError)
  | raised (e : PyError)

section Verifiers

variable (H : Hmac) (secret : Bytes)

/-- `i > 0 and record.prev_hash != records[i - 1].hmac` -/
def gapAfter (before : Option AuditEventRecord) (r : AuditEventRecord) : Bool :=
  match before with
  | none => false
  | some b => r.prevHash ≠ some b.hmac

/-- The loop of `_run_verify`, with the record before the rest. -/
def verifyLoop : Option AuditEventRecord → List AuditEventRecord →
    Except PyError (Option VerifyReport)
  | _, [] => .ok none
  | before, r :: records =>
      match verifyEvent H r secret with
      | .error e => .error e
      | .ok false => .ok (some (.tampered r.eventId))
      | .ok true =>
          if gapAfter before r then .ok (some (.gap r.eventId))
          else verifyLoop (some r) records

/-- `_run_verify` once it has its records. -/
def verifyRecords : List AuditEventRecord → Except PyError VerifyReport
  | [] => .ok .noEvents
  | r :: records =>
      if r.prevHash ≠ none then .ok (.headTruncated r.eventId)
      else
        match verifyLoop H secret none (r :: records) with
        | .error e => .error e
        | .ok (some report) => .ok report
        | .ok none => .ok (.verified (records.length + 1))

/-- `_run_verify`, with `GOVERNANCE_AUDIT_SECRET` as it stands in the environment. -/
def runVerify (auditSecret : Option String) (table : List StoredRow) (sid : Uuid) :
    Except VerifyError VerifyReport :=
  match auditSecret with
  | none => .ok .secretMissing
  | some text =>
      if text = "" then .ok .secretMissing
      else
        match (selectSession table sid).mapM StoredRow.toVerifyRecord with
        | none => .error .validation
        | some records =>
            match verifyRecords H text.toUTF8.toList records with
            | .error e => .error (.raised e)
            | .ok report => .ok report

/-- `AuditModule.verify_chain(session_id=sid)` over a `PostgresAuditStore`. -/
def verifyChain (table : List StoredRow) (sid : Uuid) : Except VerifyError Bool :=
  match (selectSession table sid).mapM StoredRow.toRecord with
  | none => .error .validation
  | some events =>
      match verifyChainRecords H secret events with
      | .error e => .error (.chain e)
      | .ok verified => .ok verified

end Verifiers

/-! ## What each verifier accepts -/

section Accepts

variable {H : Hmac} {secret : Bytes}

theorem verifyLoop_eq_ok_none_iff {before : Option AuditEventRecord}
    {r : AuditEventRecord} {records : List AuditEventRecord} :
    verifyLoop H secret before (r :: records) = .ok none ↔
      gapAfter before r = false ∧ verifyEvent H r secret = .ok true ∧
        verifyLoop H secret (some r) records = .ok none := by
  rw [verifyLoop]
  split
  next e he => simp [he]
  next he => simp [he]
  next he =>
    by_cases hgap : gapAfter before r
    · simp [hgap]
    · simp [hgap, he]

theorem verifyLoop_some_eq_ok_none_iff {before : AuditEventRecord}
    {records : List AuditEventRecord} :
    verifyLoop H secret (some before) records = .ok none ↔
      ChainFrom (some before.hmac) records ∧
        ∀ r ∈ records, verifyEvent H r secret = .ok true := by
  induction records generalizing before with
  | nil => simp [verifyLoop]
  | cons r records ih =>
      rw [verifyLoop_eq_ok_none_iff, ih, List.forall_mem_cons]
      simp [gapAfter]
      tauto

/-- A report of the loop is a failure. -/
theorem verifyLoop_exitCode {before : Option AuditEventRecord}
    {records : List AuditEventRecord} {report : VerifyReport}
    (h : verifyLoop H secret before records = .ok (some report)) : report.exitCode = 1 := by
  induction records generalizing before with
  | nil => simp [verifyLoop] at h
  | cons r records ih =>
      rw [verifyLoop] at h
      split at h
      · cases h
      · cases h
        rfl
      · split at h
        · cases h
          rfl
        · exact ih h

/-- The command exits with 0 exactly on the authentic linear chains. -/
theorem verifyRecords_exitCode_iff {records : List AuditEventRecord} (hne : records ≠ []) :
    (∃ report, verifyRecords H secret records = .ok report ∧ report.exitCode = 0) ↔
      ChainFrom none records ∧ ∀ r ∈ records, verifyEvent H r secret = .ok true := by
  obtain ⟨r, records, rfl⟩ := List.exists_cons_of_ne_nil hne
  have hloop : verifyLoop H secret none (r :: records) = .ok none ↔
      verifyEvent H r secret = .ok true ∧ ChainFrom (some r.hmac) records ∧
        ∀ x ∈ records, verifyEvent H x secret = .ok true := by
    rw [verifyLoop_eq_ok_none_iff, verifyLoop_some_eq_ok_none_iff]
    simp [gapAfter]
  have hchain : ChainFrom none (r :: records) ↔
      r.prevHash = none ∧ ChainFrom (some r.hmac) records := linkedFrom_cons ..
  rw [verifyRecords, List.forall_mem_cons, hchain]
  by_cases hgenesis : r.prevHash = none
  · rw [if_neg (by simpa using hgenesis)]
    rcases hres : verifyLoop H secret none (r :: records) with e | _ | report
    · have hfail := hloop.not.mp (by simp [hres])
      simp only [reduceCtorEq, false_and, exists_false, false_iff]
      tauto
    · have hpass := hloop.mp hres
      simp only [Except.ok.injEq, exists_eq_left', VerifyReport.exitCode, true_iff]
      tauto
    · have hfail := hloop.not.mp (by simp [hres])
      simp only [Except.ok.injEq, exists_eq_left', verifyLoop_exitCode hres, false_iff,
        one_ne_zero]
      tauto
  · simp [hgenesis, VerifyReport.exitCode]

end Accepts

/-! ## From rows to records -/

/-- The chain of the columns. -/
abbrev RowsLinked (p : Option String) (rows : List StoredRow) : Prop :=
  LinkedFrom (fun row : StoredRow => row.prevHash) (fun row => row.hmacValue) p rows

namespace StoredRow

/-- The column holds the HMAC of the row with the given model. -/
def Authentic (H : Hmac) (secret : Bytes) (row : StoredRow) (model : Option String) : Prop :=
  ∃ metadata, asDict row.metadataJson = some metadata ∧
    row.hmacValue = computeEventHmac H secret (row.content model metadata)

/-- The columns that both verifiers read fit a record. -/
def Fits (row : StoredRow) : Prop :=
  ∃ metadata, asDict row.metadataJson = some metadata ∧
    RecordFields.Valid ⟨row.content none metadata, row.hmacValue, none, none, .unsigned⟩

/-- The columns of the signature fit a record. -/
def SignatureReadable (row : StoredRow) : Prop :=
  optionalWithin maxHashLen row.signingKeyFingerprint ∧ row.status.isSome

variable {H : Hmac} {secret : Bytes} {row : StoredRow} {r : AuditEventRecord}

theorem toVerifyRecord_eq_some_iff :
    row.toVerifyRecord = some r ↔ ∃ metadata, asDict row.metadataJson = some metadata ∧
      r.toRecordFields = ⟨row.content none metadata, row.hmacValue, none, none, .unsigned⟩ := by
  simp only [toVerifyRecord, Option.bind_eq_bind, Option.bind_eq_some_iff,
    AuditEventRecord.construct_eq_some_iff]

theorem toRecord_eq_some_iff :
    row.toRecord = some r ↔ ∃ metadata, asDict row.metadataJson = some metadata ∧
      ∃ status, row.status = some status ∧
        r.toRecordFields = ⟨row.content row.model metadata, row.hmacValue, row.signature,
          row.signingKeyFingerprint, status⟩ := by
  simp only [toRecord, Option.bind_eq_bind, Option.bind_eq_some_iff,
    AuditEventRecord.construct_eq_some_iff]

theorem verifyEvent_of_fields {c : EventContent} {hmac : String} {signature : Option Bytes}
    {fingerprint : Option String} {status : SignatureStatus}
    (hfields : r.toRecordFields = ⟨c, hmac, signature, fingerprint, status⟩) :
    verifyEvent H r secret = .ok true ↔ hmac = computeEventHmac H secret c := by
  rw [verifyEvent_eq_ok_true_iff, hfields]

theorem toVerifyRecord_verifies_iff :
    (∃ r, row.toVerifyRecord = some r ∧ verifyEvent H r secret = .ok true) ↔
      row.Fits ∧ row.Authentic H secret none := by
  constructor
  · rintro ⟨r, hread, hverify⟩
    obtain ⟨metadata, hdict, hfields⟩ := toVerifyRecord_eq_some_iff.mp hread
    refine ⟨⟨metadata, hdict, hfields ▸ r.valid⟩, metadata, hdict, ?_⟩
    exact (verifyEvent_of_fields hfields).mp hverify
  · rintro ⟨⟨metadata, hdict, hvalid⟩, metadata', hdict', hmac⟩
    obtain rfl : metadata' = metadata := Option.some.inj (hdict'.symm.trans hdict)
    exact ⟨⟨_, hvalid⟩, toVerifyRecord_eq_some_iff.mpr ⟨_, hdict, rfl⟩,
      (verifyEvent_of_fields rfl).mpr hmac⟩

theorem toRecord_isSome_iff : row.toRecord.isSome ↔ row.Fits ∧ row.SignatureReadable := by
  rw [Option.isSome_iff_exists]
  constructor
  · rintro ⟨r, hread⟩
    obtain ⟨metadata, hdict, status, hstatus, hfields⟩ := toRecord_eq_some_iff.mp hread
    have hvalid := r.valid
    rw [hfields] at hvalid
    refine ⟨⟨metadata, hdict, ?_⟩, hvalid.signingKeyFingerprint, ?_⟩
    · exact ⟨hvalid.agentId, hvalid.kind, by rintro t ⟨⟩, hvalid.inputHash, hvalid.outputHash,
        hvalid.prevHash, hvalid.hmac, by rintro t ⟨⟩⟩
    · rw [hstatus]
      rfl
  · rintro ⟨⟨metadata, hdict, hvalid⟩, hfingerprint, hstatus⟩
    obtain ⟨status, hstatus⟩ := Option.isSome_iff_exists.mp hstatus
    have hfull : RecordFields.Valid ⟨row.content row.model metadata, row.hmacValue,
        row.signature, row.signingKeyFingerprint, status⟩ :=
      ⟨hvalid.agentId, hvalid.kind, row.model_within, hvalid.inputHash, hvalid.outputHash,
        hvalid.prevHash, hvalid.hmac, hfingerprint⟩
    exact ⟨⟨_, hfull⟩, toRecord_eq_some_iff.mpr ⟨_, hdict, _, hstatus, rfl⟩⟩

theorem toRecord_verifies_iff :
    (∃ r, row.toRecord = some r ∧ verifyEvent H r secret = .ok true) ↔
      row.Fits ∧ row.SignatureReadable ∧ row.Authentic H secret row.model := by
  rw [← and_assoc, ← toRecord_isSome_iff]
  constructor
  · rintro ⟨r, hread, hverify⟩
    obtain ⟨metadata, hdict, status, hstatus, hfields⟩ := toRecord_eq_some_iff.mp hread
    refine ⟨by rw [hread]; rfl, metadata, hdict, ?_⟩
    exact (verifyEvent_of_fields hfields).mp hverify
  · rintro ⟨hsome, metadata, hdict, hmac⟩
    obtain ⟨r, hread⟩ := Option.isSome_iff_exists.mp hsome
    obtain ⟨metadata', hdict', status, hstatus, hfields⟩ := toRecord_eq_some_iff.mp hread
    obtain rfl : metadata' = metadata := Option.some.inj (hdict'.symm.trans hdict)
    exact ⟨r, hread, (verifyEvent_of_fields hfields).mpr hmac⟩

theorem toVerifyRecord_links (h : row.toVerifyRecord = some r) :
    r.prevHash = row.prevHash ∧ r.hmac = row.hmacValue := by
  obtain ⟨metadata, -, hfields⟩ := toVerifyRecord_eq_some_iff.mp h
  rw [hfields]
  exact ⟨rfl, rfl⟩

theorem toRecord_links (h : row.toRecord = some r) :
    r.prevHash = row.prevHash ∧ r.hmac = row.hmacValue := by
  obtain ⟨metadata, -, status, -, hfields⟩ := toRecord_eq_some_iff.mp h
  rw [hfields]
  exact ⟨rfl, rfl⟩

end StoredRow

section Read

variable {H : Hmac} {secret : Bytes} {read : StoredRow → Option AuditEventRecord}

/-- A verifier that keeps the columns of the chain accepts what it reads exactly when the
columns are linked and every row reads as a record that verifies. -/
theorem readAll_accepts_iff {p : Option String} {rows : List StoredRow}
    (hread : ∀ row r, read row = some r → r.prevHash = row.prevHash ∧ r.hmac = row.hmacValue) :
    (∃ records, rows.mapM read = some records ∧ ChainFrom p records ∧
        ∀ r ∈ records, verifyEvent H r secret = .ok true) ↔
      RowsLinked p rows ∧
        ∀ row ∈ rows, ∃ r, read row = some r ∧ verifyEvent H r secret = .ok true := by
  induction rows generalizing p with
  | nil => simp
  | cons row rows ih =>
      rw [List.forall_mem_cons]
      constructor
      · rintro ⟨records, hmap, hchain, hverify⟩
        rw [List.mapM_cons] at hmap
        simp only [Option.bind_eq_bind, Option.bind_eq_some_iff] at hmap
        obtain ⟨r, hr, rest, hrest, hcons⟩ := hmap
        obtain rfl : r :: rest = records := Option.some.inj hcons
        obtain ⟨hprev, hhmac⟩ := hread row r hr
        rw [List.forall_mem_cons] at hverify
        obtain ⟨hlink, hchain⟩ := hchain
        change ChainFrom (some r.hmac) rest at hchain
        rw [hhmac] at hchain
        obtain ⟨hlinked, hall⟩ := ih.mp ⟨rest, hrest, hchain, hverify.2⟩
        exact ⟨⟨hprev.symm.trans hlink, hlinked⟩, ⟨r, hr, hverify.1⟩, hall⟩
      · rintro ⟨⟨hlink, hlinked⟩, ⟨r, hr, hv⟩, hall⟩
        obtain ⟨hprev, hhmac⟩ := hread row r hr
        obtain ⟨rest, hrest, hchain, hverify⟩ := ih.mpr ⟨hlinked, hall⟩
        change ChainFrom (some row.hmacValue) rest at hchain
        rw [← hhmac] at hchain
        refine ⟨r :: rest, ?_, ⟨hprev.trans hlink, hchain⟩, ?_⟩
        · rw [List.mapM_cons, hr, hrest]
          rfl
        · rw [List.forall_mem_cons]
          exact ⟨hv, hverify⟩

end Read

section Agreement

variable {H : Hmac} {text : String} {table : List StoredRow} {sid : Uuid}

/-- The command exits with 0 exactly when the session is linked and every row is authentic
without its model. -/
theorem runVerify_exitCode_iff (htext : text ≠ "") (hne : selectSession table sid ≠ []) :
    (∃ report, runVerify H (some text) table sid = .ok report ∧ report.exitCode = 0) ↔
      RowsLinked none (selectSession table sid) ∧
        ∀ row ∈ selectSession table sid,
          row.Fits ∧ row.Authentic H text.toUTF8.toList none := by
  simp only [← StoredRow.toVerifyRecord_verifies_iff]
  rw [← readAll_accepts_iff fun _ _ => StoredRow.toVerifyRecord_links, runVerify]
  rcases hread : (selectSession table sid).mapM StoredRow.toVerifyRecord with _ | records
  · simp [htext]
  · have hrecords : records ≠ [] := by
      rintro rfl
      obtain ⟨row, rows, hrows⟩ := List.exists_cons_of_ne_nil hne
      rw [hrows, List.mapM_cons] at hread
      simp [Option.bind_eq_some_iff] at hread
    simp only [htext, ↓reduceIte, Option.some.injEq, exists_eq_left']
    rw [← verifyRecords_exitCode_iff hrecords]
    rcases verifyRecords H text.toUTF8.toList records with e | report
    · simp
    · simp

/-- The library accepts exactly when the session is linked and every row is authentic and can
be read. -/
theorem verifyChain_eq_ok_iff {secret : Bytes} :
    verifyChain H secret table sid = .ok true ↔
      RowsLinked none (selectSession table sid) ∧
        ∀ row ∈ selectSession table sid,
          row.Fits ∧ row.SignatureReadable ∧ row.Authentic H secret row.model := by
  simp only [← StoredRow.toRecord_verifies_iff]
  rw [← readAll_accepts_iff fun _ _ => StoredRow.toRecord_links, verifyChain]
  rcases hread : (selectSession table sid).mapM StoredRow.toRecord with _ | records
  · simp
  · simp only [Option.some.injEq, exists_eq_left', ← verifyChainRecords_eq_ok_iff]
    rcases verifyChainRecords H secret records with e | b
    · simp
    · simp

/-- No row has a model or a signature that cannot be read, or both verifiers have a reason to
reject the session. -/
def Indistinct (H : Hmac) (secret : Bytes) (rows : List StoredRow) : Prop :=
  (∀ row ∈ rows, row.model = none ∧ row.SignatureReadable) ∨
    ¬RowsLinked none rows ∨ (∃ row ∈ rows, ¬row.Fits) ∨
      (∃ row ∈ rows, ¬row.Authentic H secret none) ∧
        ∃ row ∈ rows, ¬(row.SignatureReadable ∧ row.Authentic H secret row.model)

/-- The messages that the two verifiers authenticate. -/
def verifiedPayloads (rows : List StoredRow) : Set String :=
  {m | ∃ row ∈ rows, ∃ metadata, asDict row.metadataJson = some metadata ∧
    (m = (eventPayload (row.content row.model metadata)).canonical ∨
      m = (eventPayload (row.content none metadata)).canonical)}

/-- Without collisions the column is the HMAC of the row with its model and of the row without
it only when there is no model. -/
theorem model_eq_none_of_authentic {secret : Bytes} {rows : List StoredRow} {row : StoredRow}
    (hfree : H.CollisionFreeOn secret (verifiedPayloads rows)) (hrow : row ∈ rows)
    (hplain : row.Authentic H secret none) (hmodel : row.Authentic H secret row.model) :
    row.model = none := by
  obtain ⟨metadata, hdict, hplain⟩ := hplain
  obtain ⟨metadata', hdict', hmodel⟩ := hmodel
  obtain rfl : metadata' = metadata := Option.some.inj (hdict'.symm.trans hdict)
  have hcanonical := hfree ⟨row, hrow, metadata', hdict, Or.inl rfl⟩
    ⟨row, hrow, metadata', hdict, Or.inr rfl⟩ (hmodel.symm.trans hplain)
  exact (eventPayload_inj hcanonical).model

/-- Two verdicts that differ in one test agree when the tests do, or when both fail. -/
theorem verdicts_agree_iff {L F A R N : Prop} (hsame : N → (A ↔ R)) (hboth : A → R → N) :
    (L ∧ F ∧ A ↔ L ∧ F ∧ R) ↔ N ∨ ¬L ∨ ¬F ∨ ¬A ∧ ¬R := by
  constructor
  · intro hagree
    by_contra hne
    simp only [not_or, not_not, not_and] at hne
    obtain ⟨hN, hL, hF, hor⟩ := hne
    by_cases hA : A
    · exact hN (hboth hA (hagree.mp ⟨hL, hF, hA⟩).2.2)
    · exact hA (hagree.mpr ⟨hL, hF, hor hA⟩).2.2
  · rintro (hN | hL | hF | ⟨hA, hR⟩)
    · rw [hsame hN]
    · simp [hL]
    · simp [hF]
    · simp [hA, hR]

/-- For every session with rows, the command exits with 0 if and only if the library returns
`True`, exactly when the rows are indistinct. -/
theorem verifiers_agree_iff (htext : text ≠ "") (hne : selectSession table sid ≠ [])
    (hfree : H.CollisionFreeOn text.toUTF8.toList
      (verifiedPayloads (selectSession table sid))) :
    ((∃ report, runVerify H (some text) table sid = .ok report ∧ report.exitCode = 0) ↔
        verifyChain H text.toUTF8.toList table sid = .ok true) ↔
      Indistinct H text.toUTF8.toList (selectSession table sid) := by
  have hplain : (∀ row ∈ selectSession table sid, row.model = none ∧ row.SignatureReadable) →
      ((∀ row ∈ selectSession table sid, row.Authentic H text.toUTF8.toList none) ↔
        ∀ row ∈ selectSession table sid,
          row.SignatureReadable ∧ row.Authentic H text.toUTF8.toList row.model) := by
    intro hnone
    refine forall₂_congr fun row hrow => ?_
    obtain ⟨hmodel, hreadable⟩ := hnone row hrow
    simp [hmodel, hreadable]
  have hboth : (∀ row ∈ selectSession table sid, row.Authentic H text.toUTF8.toList none) →
      (∀ row ∈ selectSession table sid,
        row.SignatureReadable ∧ row.Authentic H text.toUTF8.toList row.model) →
      ∀ row ∈ selectSession table sid, row.model = none ∧ row.SignatureReadable := by
    intro hnone hmodel row hrow
    obtain ⟨hreadable, hauthentic⟩ := hmodel row hrow
    exact ⟨model_eq_none_of_authentic hfree hrow (hnone row hrow) hauthentic, hreadable⟩
  have hexists : ∀ Q : StoredRow → Prop,
      (∃ row ∈ selectSession table sid, ¬Q row) ↔ ¬∀ row ∈ selectSession table sid, Q row := by
    simp
  rw [runVerify_exitCode_iff htext hne, verifyChain_eq_ok_iff, Indistinct, hexists, hexists,
    hexists, forall₂_and, forall₂_and]
  exact verdicts_agree_iff hplain hboth

end Agreement

/-! ### A session of one row -/

def verifySecret : String := "0123456789abcdef0123456789abcdef"

def modelDigest : BitVec 256 :=
  0xee860f1b13859db05c622b7ce87b86282304af80b31cd920d61543a78fc5692e#256

def plainDigest : BitVec 256 :=
  0xa56ae00641236e75749624ae354dae58fad7e3ad24a6ae3b5662092db658f8fd#256

/-- A first row with the given model, signed with the given digest. -/
def sampleRow (model : Option String) (h : optionalWithin maxModelLen model)
    (d : BitVec 256) : StoredRow where
  chainSeq := 1
  eventId := ⟨1⟩
  sessionId := ⟨100⟩
  agentId := "agent-a"
  parentEventId := none
  kind := "llm.call"
  model := model
  inputHash := none
  outputHash := none
  metadataJson := .obj []
  prevHash := none
  hmacValue := digestText d
  createdAt := sampleTime
  signature := none
  signingKeyFingerprint := none
  signatureStatus := "unsigned"
  model_within := h

def modelRow : StoredRow := sampleRow (some "gpt-4") (by decide) modelDigest

def plainRow : StoredRow := sampleRow none (by decide) plainDigest

/-- HMAC-SHA256 under `verifySecret` of the row with its model and without it. -/
def verifyHmac : Hmac :=
  .ofTable
    [tableEntry verifySecret.toUTF8.toList (modelRow.content (some "gpt-4") []) modelDigest,
     tableEntry verifySecret.toUTF8.toList (modelRow.content none []) plainDigest]

theorem plain_digest :
    computeEventHmac verifyHmac verifySecret.toUTF8.toList (modelRow.content none []) =
      digestText plainDigest := by
  rw [verifyHmac, computeEventHmac_ofTable_of_message_ne]
  · exact computeEventHmac_ofTable_self _ _
  · intro heq
    have hmodel := (eventPayload_inj (congrArg Prod.snd heq)).model
    cases hmodel

theorem sampleRow_fits (model : Option String) (h : optionalWithin maxModelLen model)
    (d : BitVec 256) : (sampleRow model h d).Fits :=
  ⟨[], rfl, sample_valid ⟨1⟩ [] none d .unsigned⟩

theorem sampleRow_readable (model : Option String) (h : optionalWithin maxModelLen model)
    (d : BitVec 256) : (sampleRow model h d).SignatureReadable := by
  constructor
  · rintro t ⟨⟩
  · rfl

theorem select_sampleRow (model : Option String) (h : optionalWithin maxModelLen model)
    (d : BitVec 256) : selectSession [sampleRow model h d] ⟨100⟩ = [sampleRow model h d] := rfl

/-- An untampered row with a model: the library accepts the session and the command reports
it as tampered. -/
theorem model_row_disagrees :
    verifyChain verifyHmac verifySecret.toUTF8.toList [modelRow] ⟨100⟩ = .ok true ∧
      ¬∃ report, runVerify verifyHmac (some verifySecret) [modelRow] ⟨100⟩ = .ok report ∧
        report.exitCode = 0 := by
  have hselect : selectSession [modelRow] ⟨100⟩ = [modelRow] := select_sampleRow _ _ _
  constructor
  · rw [verifyChain_eq_ok_iff, hselect]
    refine ⟨⟨rfl, trivial⟩, ?_⟩
    intro row hrow
    rw [List.mem_singleton.mp hrow]
    exact ⟨sampleRow_fits _ _ _, sampleRow_readable _ _ _, [], rfl,
      (computeEventHmac_ofTable_self _ _).symm⟩
  · rw [runVerify_exitCode_iff (by decide) (by rw [hselect]; simp), hselect]
    rintro ⟨-, hrows⟩
    obtain ⟨-, metadata, hdict, hmac⟩ := hrows modelRow (List.mem_singleton_self _)
    cases hdict
    rw [plain_digest] at hmac
    exact absurd (digestText_injective hmac) (by decide)

/-- A row without a model: both accept the session. -/
theorem plain_row_agrees :
    (∃ report, runVerify verifyHmac (some verifySecret) [plainRow] ⟨100⟩ = .ok report ∧
        report.exitCode = 0) ∧
      verifyChain verifyHmac verifySecret.toUTF8.toList [plainRow] ⟨100⟩ = .ok true := by
  have hselect : selectSession [plainRow] ⟨100⟩ = [plainRow] := select_sampleRow _ _ _
  have hne : selectSession [plainRow] ⟨100⟩ ≠ [] := by
    rw [hselect]
    simp
  have hfree : verifyHmac.CollisionFreeOn verifySecret.toUTF8.toList
      (verifiedPayloads (selectSession [plainRow] ⟨100⟩)) := by
    have hone : ∀ m ∈ verifiedPayloads (selectSession [plainRow] ⟨100⟩),
        m = (eventPayload (plainRow.content none [])).canonical := by
      rintro m ⟨row, hrow, metadata, hdict, hm⟩
      rw [hselect, List.mem_singleton] at hrow
      subst hrow
      cases hdict
      exact hm.elim id id
    intro m hm n hn _
    rw [hone m hm, hone n hn]
  have hagree := (verifiers_agree_iff (by decide) hne hfree).mpr (Or.inl (by
    intro row hrow
    rw [hselect, List.mem_singleton] at hrow
    subst hrow
    exact ⟨rfl, sampleRow_readable _ _ _⟩))
  have hverified : verifyChain verifyHmac verifySecret.toUTF8.toList [plainRow] ⟨100⟩ =
      .ok true := by
    rw [verifyChain_eq_ok_iff, hselect]
    refine ⟨⟨rfl, trivial⟩, ?_⟩
    intro row hrow
    rw [List.mem_singleton.mp hrow]
    exact ⟨sampleRow_fits _ _ _, sampleRow_readable _ _ _, [], rfl, plain_digest.symm⟩
  exact ⟨hagree.mpr hverified, hverified⟩

end AgenticGovernance.Cli

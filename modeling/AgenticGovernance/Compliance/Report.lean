import Mathlib
import AgenticGovernance.Audit.Rotation

/-!
# Chain verification in the compliance report

`ReportGenerator._run_chain_verification` checks the most recent window of the
audit log.  An in-memory log is checked under the module's secret.  A Postgres
log is checked under the key versions if it holds a rotation marker, and under
the module's secret otherwise.  In every case the window must also be linked
session by session, and start each session at a genesis row if it starts at
sequence number zero.

`SessionsLinked` is what the linkage check accepts.
-/

namespace AgenticGovernance.Compliance

open Support Audit

def chainVerifyWindow : ℕ := 1000

inductive ChainIntegrityStatus where
  | verified
  | failed
  | unverified
  deriving DecidableEq, Repr

/-- The tuple that `_run_chain_verification` returns. -/
structure ChainVerification where
  status : ChainIntegrityStatus
  fromSeq : Option ℕ
  toSeq : Option ℕ
  rotationAware : Bool
  unresolvedFingerprints : List String
  deriving DecidableEq, Repr

/-- The collaborators of the generator.  `database` is what queries through
`database_url` see, `auditStore` the store with its `_events` if it has any, and
`allRecords` what the audit module's `list_all_records` returns. -/
structure ReportGenerator where
  database : Option ChainTables
  auditStore : Option (Option (List AuditEventRecord))
  secret : Bytes
  allRecords : List AuditEventRecord

namespace ReportGenerator

variable (g : ReportGenerator)

def currentChainHead : Option ℕ :=
  match g.auditStore with
  | some (some events) => if events.length > 0 then some (events.length - 1) else none
  | some none => none
  | none =>
      match g.database with
      | some T => (T.rows.map fun row => row.chainSeq).max?
      | none => none

def hasRotationMarkers : Bool :=
  match g.auditStore with
  | some (some events) => events.any fun r => r.kind = keyRotationKind
  | some none => false
  | none =>
      match g.database with
      | some T => T.rows.any fun row => row.record.kind = keyRotationKind
      | none => false

/-- `SELECT ... FROM governance_audit_chain_keys ORDER BY activated_at_chain_seq` -/
def loadKeyVersions : List KeyVersion :=
  match g.database with
  | none => []
  | some T => sortVersions T.keyVersions

def chainKeyVariable (fingerprint : String) : String :=
  "GOVERNANCE_CHAIN_KEY_" ++ String.ofList (fingerprint.toList.take 16)

def buildUriMap (S : KeySource) (fingerprint : String) : Option String :=
  if fingerprint ∈ g.loadKeyVersions.map fun kv => kv.fingerprint then
    (S.environ (chainKeyVariable fingerprint)).filter fun uri => uri ≠ ""
  else
    none

/-- The rows of `[from_seq, to_seq]`, `ORDER BY chain_seq`. -/
def loadChainRows (fromSeq toSeq : Option ℕ) : List ChainVerifyRow :=
  match g.database with
  | none => []
  | some T =>
      (T.rows.filter fun row =>
        fromSeq.all (· ≤ row.chainSeq) && toSeq.all (row.chainSeq ≤ ·)).insertionSort
          fun a b => a.chainSeq ≤ b.chainSeq

/-- Without bounds, the most recent events up to the head. -/
def window (fromSeq toSeq : Option ℕ) : Option ℕ × Option ℕ :=
  if fromSeq = none ∧ toSeq = none then
    match g.currentChainHead with
    | some head => (some (head - (chainVerifyWindow - 1)), some head)
    | none => (none, none)
  else
    (fromSeq, toSeq)

end ReportGenerator

/-- `all(verify_event(r, self._secret) for r in records)` -/
def verifyEventsHmac (H : Hmac) (secret : Bytes) :
    List AuditEventRecord → Except PyError Bool
  | [] => .ok true
  | r :: records => do
      if ← verifyEvent H r secret then verifyEventsHmac H secret records
      else return false

/-- The records of one session, in the order of the list. -/
def sessionRecords (records : List AuditEventRecord) (sid : Uuid) : List AuditEventRecord :=
  records.filter fun r => r.sessionId = sid

/-- The checks within one session; the error does not name the session. -/
def checkSession (assertGenesis : Bool) (records : List AuditEventRecord) :
    Except ChainError Unit := do
  if assertGenesis then checkGenesis records
  checkLinks records

/-- The first failing session in order of first appearance, with its error. -/
def checkPerSessionLinkage (records : List AuditEventRecord) (assertGenesis : Bool) :
    Option (Uuid × ChainError) :=
  (records.map fun r => r.sessionId).eraseDups.findSome? fun sid =>
    match checkSession assertGenesis (sessionRecords records sid) with
    | .ok () => none
    | .error e => some (sid, e)

/-- The genesis check runs if the window starts at the head of the log. -/
def assertsGenesis (fromSeq : Option ℕ) : Bool := fromSeq = none || fromSeq = some 0

namespace ReportGenerator

variable (H : Hmac) (S : KeySource) (g : ReportGenerator)

/-- HMAC and linkage of a list of records under the module's secret. -/
def verifyRecords (records : List AuditEventRecord) (fromSeq : Option ℕ) :
    Except PyError ChainIntegrityStatus := do
  if records = [] then return .unverified
  if ← verifyEventsHmac H g.secret records then
    if checkPerSessionLinkage records (assertsGenesis fromSeq) = none then return .verified
    else return .failed
  else return .failed

/-- The status of a rotated log, from the result of the row checks. -/
def rotatedStatus (rows : List ChainVerifyRow) (fromSeq : Option ℕ)
    (result : ChainVerifyResult) : ChainIntegrityStatus :=
  if rows = [] then .unverified
  else
    match result.status with
    | .ok =>
        if checkPerSessionLinkage (rows.map fun row => row.record)
            (assertsGenesis fromSeq) = none then .verified
        else .failed
    | .failed => .failed
    | .unverified => .unverified

def runChainVerification (fromSeq toSeq : Option ℕ) : Except PyError ChainVerification :=
  let (fromSeq, toSeq) := g.window fromSeq toSeq
  match g.database with
  | none => do
      let records :=
        if fromSeq = none ∧ toSeq = none then g.allRecords
        else
          (g.allRecords.take ((toSeq.map (· + 1)).getD g.allRecords.length)).drop
            (fromSeq.getD 0)
      return ⟨← g.verifyRecords H records fromSeq, fromSeq, toSeq, false, []⟩
  | some _ =>
      if g.hasRotationMarkers then
        let rows := g.loadChainRows fromSeq toSeq
        match verifyChainWithRotation H S rows g.loadKeyVersions (g.buildUriMap S) with
        | .error _ => .ok ⟨.unverified, fromSeq, toSeq, true, []⟩
        | .ok result =>
            .ok ⟨rotatedStatus rows fromSeq result, fromSeq, toSeq, true,
              result.unresolvedFingerprints⟩
      else
        let records := (g.loadChainRows fromSeq toSeq).map fun row => row.record
        match g.verifyRecords H records fromSeq with
        | .error _ => .ok ⟨.unverified, fromSeq, toSeq, false, []⟩
        | .ok status => .ok ⟨status, fromSeq, toSeq, false, []⟩

end ReportGenerator

/-! ## What the checks accept -/

variable {H : Hmac} {secret : Bytes} {records : List AuditEventRecord} {genesis : Bool}

theorem verifyEventsHmac_eq_ok_true_iff :
    verifyEventsHmac H secret records = .ok true ↔
      ∀ r ∈ records, verifyEvent H r secret = .ok true := by
  induction records with
  | nil => simp [verifyEventsHmac]
  | cons r records ih =>
      rw [verifyEventsHmac, List.forall_mem_cons]
      rcases verifyEvent H r secret with e | b
      · simp [bind, Except.bind]
      · cases b <;> simp [bind, Except.bind, pure, Except.pure, ih]

theorem checkLinks_eq_ok_iff :
    checkLinks records = .ok () ↔ ∃ p, ChainFrom p records := by
  cases records with
  | nil => simp [checkLinks]
  | cons r records =>
      rw [checkLinks, checkLinkage_eq_ok_iff]
      simp

theorem checkSession_eq_ok_iff :
    checkSession genesis records = .ok () ↔
      ∃ p, ChainFrom p records ∧ (genesis = true → p = none) := by
  cases genesis with
  | false =>
      change checkLinks records = .ok () ↔ _
      rw [checkLinks_eq_ok_iff]
      simp
  | true =>
      change (checkGenesis records >>= fun _ => checkLinks records) = .ok () ↔ _
      rw [pass_bind_eq_ok_iff, checkGenesis_checkLinks_iff]
      simp

theorem sessionRecords_eq_nil {sid : Uuid}
    (h : sid ∉ records.map fun r => r.sessionId) : sessionRecords records sid = [] := by
  rw [sessionRecords, List.filter_eq_nil_iff]
  intro r hr hsid
  rw [decide_eq_true_eq] at hsid
  exact h (List.mem_map.mpr ⟨r, hr, hsid⟩)

/-- The linkage check accepts records whose sessions are each linked, from a
genesis record if that is asserted. -/
theorem checkPerSessionLinkage_eq_none_iff :
    checkPerSessionLinkage records genesis = none ↔
      ∀ sid, ∃ p, ChainFrom p (sessionRecords records sid) ∧
        (genesis = true → p = none) := by
  have hmatch : ∀ sid, (match checkSession genesis (sessionRecords records sid) with
      | .ok () => none
      | .error e => some (sid, e)) = none ↔
        ∃ p, ChainFrom p (sessionRecords records sid) ∧ (genesis = true → p = none) := by
    intro sid
    rw [← checkSession_eq_ok_iff]
    rcases checkSession genesis (sessionRecords records sid) with e | u
    · simp
    · simp
  rw [checkPerSessionLinkage, List.findSome?_eq_none_iff]
  constructor
  · intro h sid
    by_cases hsid : sid ∈ records.map fun r => r.sessionId
    · exact (hmatch sid).mp (h sid (List.mem_eraseDups.mpr hsid))
    · rw [sessionRecords_eq_nil hsid]
      exact ⟨none, trivial, fun _ => rfl⟩
  · intro h sid _
    exact (hmatch sid).mpr (h sid)

/-- What the status of a list of records says. -/
theorem verifyRecords_eq_verified_iff {g : ReportGenerator} {fromSeq : Option ℕ} :
    g.verifyRecords H records fromSeq = .ok .verified ↔
      records ≠ [] ∧ (∀ r ∈ records, verifyEvent H r g.secret = .ok true) ∧
        checkPerSessionLinkage records (assertsGenesis fromSeq) = none := by
  rw [ReportGenerator.verifyRecords, ← verifyEventsHmac_eq_ok_true_iff]
  by_cases hnil : records = []
  · simp [hnil, pure, Except.pure]
  · rw [if_neg hnil]
    rcases verifyEventsHmac H g.secret records with e | b
    · simp [bind, Except.bind]
    · cases b with
      | false => simp [bind, Except.bind, pure, Except.pure]
      | true =>
          by_cases hlinks : checkPerSessionLinkage records (assertsGenesis fromSeq) = none
          · simp [bind, Except.bind, pure, Except.pure, hnil, hlinks]
          · simp [bind, Except.bind, pure, Except.pure, hlinks]

/-- A digest can be compared, so that no record is an error. -/
theorem verifyEventsHmac_of_ascii (hascii : ∀ r ∈ records, isAscii r.hmac = true) :
    ∃ b, verifyEventsHmac H secret records = .ok b := by
  induction records with
  | nil => exact ⟨true, rfl⟩
  | cons r records ih =>
      have hdigest : isAscii (computeEventHmac H secret r.toEventContent) = true :=
        isAscii_digestText _
      have hcompared : verifyEvent H r secret =
          .ok (computeEventHmac H secret r.toEventContent == r.hmac) := by
        rw [verifyEvent, compareDigest, hdigest, hascii r List.mem_cons_self]
        rfl
      rw [verifyEventsHmac, hcompared]
      cases computeEventHmac H secret r.toEventContent == r.hmac with
      | false => exact ⟨false, rfl⟩
      | true => exact ih fun r' hr' => hascii r' (List.mem_cons_of_mem r hr')

/-- Records with comparable HMACs are verified or failed. -/
theorem verifyRecords_of_ascii {g : ReportGenerator} {fromSeq : Option ℕ}
    (hne : records ≠ []) (hascii : ∀ r ∈ records, isAscii r.hmac = true) :
    g.verifyRecords H records fromSeq = .ok .verified ∨
      g.verifyRecords H records fromSeq = .ok .failed := by
  obtain ⟨b, hb⟩ : ∃ b, verifyEventsHmac H g.secret records = .ok b :=
    verifyEventsHmac_of_ascii hascii
  rw [ReportGenerator.verifyRecords, if_neg hne, hb]
  cases b with
  | false => exact Or.inr rfl
  | true =>
      by_cases hlinks : checkPerSessionLinkage records (assertsGenesis fromSeq) = none
      · simp [bind, Except.bind, pure, Except.pure, hlinks]
      · simp [bind, Except.bind, pure, Except.pure, hlinks]

/-- A rotated log is verified exactly when its rows and its links are. -/
theorem rotatedStatus_eq_verified_iff {S : KeySource} {rows : List ChainVerifyRow}
    {versions : List KeyVersion} {uriMap : String → Option String} {fromSeq : Option ℕ} :
    (∃ result, verifyChainWithRotation H S rows versions uriMap = .ok result ∧
        ReportGenerator.rotatedStatus rows fromSeq result = .verified) ↔
      rows ≠ [] ∧
        (∀ row ∈ rows, checkRow H S (sortVersions versions) uriMap row = .ok .verified) ∧
        checkPerSessionLinkage (rows.map fun row => row.record)
          (assertsGenesis fromSeq) = none := by
  rw [← verifyChainWithRotation_status_ok_iff]
  constructor
  · rintro ⟨result, hresult, hstatus⟩
    rw [ReportGenerator.rotatedStatus] at hstatus
    split at hstatus
    · cases hstatus
    · rename_i hne
      split at hstatus
      · rename_i hok
        split at hstatus
        · rename_i hlinks
          exact ⟨hne, ⟨result, hresult, hok⟩, hlinks⟩
        · cases hstatus
      · cases hstatus
      · cases hstatus
  · rintro ⟨hne, ⟨result, hresult, hok⟩, hlinks⟩
    refine ⟨result, hresult, ?_⟩
    rw [ReportGenerator.rotatedStatus, if_neg hne, hok]
    exact if_pos hlinks

theorem exists_head {rows : List AuditRow} (hne : rows ≠ []) :
    ∃ head, (rows.map fun row => row.chainSeq).max? = some head ∧
      (∀ row ∈ rows, row.chainSeq ≤ head) ∧ ∃ row ∈ rows, row.chainSeq = head := by
  have hne' : (rows.map fun row => row.chainSeq) ≠ [] := by simpa using hne
  obtain ⟨head, hhead⟩ := Option.ne_none_iff_exists'.mp
    (mt List.max?_eq_none_iff.mp hne')
  obtain ⟨hmem, hle⟩ := (List.max?_eq_some_iff).mp hhead
  refine ⟨head, hhead, ?_, ?_⟩
  · intro row hrow
    exact hle _ (List.mem_map_of_mem hrow)
  · obtain ⟨row, hrow, hseq⟩ := List.mem_map.mp hmem
    exact ⟨row, hrow, hseq⟩

/-- The status of a Postgres log over the rows of its window. -/
theorem status_runChainVerification {S : KeySource} {g : ReportGenerator}
    {T : ChainTables} {fromSeq toSeq lo hi : Option ℕ} (hdatabase : g.database = some T)
    (hwindow : g.window fromSeq toSeq = (lo, hi)) :
    (g.runChainVerification H S fromSeq toSeq).map (fun v => v.status) =
      if g.hasRotationMarkers then
        match verifyChainWithRotation H S (g.loadChainRows lo hi) g.loadKeyVersions
            (g.buildUriMap S) with
        | .error _ => .ok .unverified
        | .ok result =>
            .ok (ReportGenerator.rotatedStatus (g.loadChainRows lo hi) lo result)
      else
        match g.verifyRecords H ((g.loadChainRows lo hi).map fun row => row.record) lo with
        | .error _ => .ok .unverified
        | .ok status => .ok status := by
  simp only [ReportGenerator.runChainVerification, hwindow, hdatabase]
  split
  · split <;> rfl
  · split <;> rfl

/-- The status of a log without rotation rows whose records are checked without an error. -/
theorem status_of_unmarked {S : KeySource} {g : ReportGenerator} {T : ChainTables}
    {fromSeq toSeq lo hi : Option ℕ} (hdatabase : g.database = some T)
    (hwindow : g.window fromSeq toSeq = (lo, hi)) (hmarkers : g.hasRotationMarkers = false)
    {status : ChainIntegrityStatus}
    (hrecords : g.verifyRecords H ((g.loadChainRows lo hi).map fun row => row.record) lo =
      .ok status) :
    (g.runChainVerification H S fromSeq toSeq).map (fun v => v.status) = .ok status := by
  have hnot : ¬ g.hasRotationMarkers = true := by simp [hmarkers]
  rw [status_runChainVerification hdatabase hwindow, if_neg hnot, hrecords]

/-- When a Postgres log is verified. -/
theorem status_eq_verified_iff {S : KeySource} {g : ReportGenerator} {T : ChainTables}
    {fromSeq toSeq lo hi : Option ℕ} (hdatabase : g.database = some T)
    (hwindow : g.window fromSeq toSeq = (lo, hi)) :
    (g.runChainVerification H S fromSeq toSeq).map (fun v => v.status) = .ok .verified ↔
      g.loadChainRows lo hi ≠ [] ∧
        (if g.hasRotationMarkers then
          ∀ row ∈ g.loadChainRows lo hi,
            checkRow H S (sortVersions g.loadKeyVersions) (g.buildUriMap S) row = .ok .verified
        else ∀ row ∈ g.loadChainRows lo hi, verifyEvent H row.record g.secret = .ok true) ∧
        checkPerSessionLinkage ((g.loadChainRows lo hi).map fun row => row.record)
          (assertsGenesis lo) = none := by
  rw [status_runChainVerification hdatabase hwindow]
  by_cases hmarkers : g.hasRotationMarkers = true
  · rw [if_pos hmarkers, if_pos hmarkers, ← rotatedStatus_eq_verified_iff]
    rcases verifyChainWithRotation H S (g.loadChainRows lo hi) g.loadKeyVersions
      (g.buildUriMap S) with e | result
    · simp
    · simp
  · rw [if_neg hmarkers, if_neg hmarkers]
    have hmatch : ∀ status : Except PyError ChainIntegrityStatus,
        (match status with
          | .error _ => (.ok .unverified : Except PyError ChainIntegrityStatus)
          | .ok status => .ok status) = .ok .verified ↔ status = .ok .verified := by
      rintro (e | status)
      · simp
      · simp
    rw [hmatch, verifyRecords_eq_verified_iff, List.forall_mem_map, ne_eq, List.map_eq_nil_iff]

/-- Rows that all verify, with broken links, are failed. -/
theorem status_failed_of_links {S : KeySource} {g : ReportGenerator} {T : ChainTables}
    {fromSeq toSeq lo hi : Option ℕ} (hdatabase : g.database = some T)
    (hwindow : g.window fromSeq toSeq = (lo, hi)) (hmarkers : g.hasRotationMarkers = true)
    (hne : g.loadChainRows lo hi ≠ [])
    (hrows : ∀ row ∈ g.loadChainRows lo hi,
      checkRow H S (sortVersions g.loadKeyVersions) (g.buildUriMap S) row = .ok .verified)
    (hlinks : checkPerSessionLinkage ((g.loadChainRows lo hi).map fun row => row.record)
      (assertsGenesis lo) ≠ none) :
    (g.runChainVerification H S fromSeq toSeq).map (fun v => v.status) = .ok .failed := by
  rw [status_runChainVerification hdatabase hwindow, if_pos hmarkers,
    verifyChainWithRotation_of_verified hrows]
  simp only [ReportGenerator.rotatedStatus, if_neg hne, if_neg hlinks]

/-! ## Windows -/

/-- The row is in the window. -/
def inWindow (lo hi : Option ℕ) (row : AuditRow) : Bool :=
  lo.all (· ≤ row.chainSeq) && hi.all (row.chainSeq ≤ ·)

/-- The rows of a window, in their order. -/
def windowRows (lo hi : Option ℕ) (rows : List AuditRow) : List AuditRow :=
  (rows.filter (inWindow lo hi)).insertionSort fun a b => a.chainSeq ≤ b.chainSeq

theorem mem_windowRows {lo hi : Option ℕ} {rows : List AuditRow} {row : AuditRow} :
    row ∈ windowRows lo hi rows ↔ row ∈ rows ∧ inWindow lo hi row = true :=
  (List.perm_insertionSort _ _).mem_iff.trans List.mem_filter

/-- The rows that a window from `start` on shows. -/
def shown (start : ℕ) (rows : List AuditRow) : List AuditRow :=
  rows.filter fun row => start ≤ row.chainSeq

/-- `from_seq` of the default window. -/
def windowStart (rows : List AuditRow) : ℕ :=
  ((rows.map fun row => row.chainSeq).max?.getD 0) - (chainVerifyWindow - 1)

end AgenticGovernance.Compliance

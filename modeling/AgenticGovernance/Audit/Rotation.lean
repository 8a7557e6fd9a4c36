import Mathlib
import AgenticGovernance.Audit.RotationVerify

/-!
# Rotating the chain key

`rotateChainKey` is the whole transaction of `rotate_chain_key`: it looks up the
outgoing version, links a dual-signed marker to the last row of the table,
registers the incoming key from the next sequence number on and retires the
outgoing key there.

A history starts from one registered key and an empty table.  Its steps append
an ordinary row under the current key, burn a sequence number, or rotate.  The
invariant `HistoryOk` compares the two tables with `keyAt`, the key that was
current at each sequence number.
-/

namespace AgenticGovernance.Audit

open Support

/-- `governance_audit_events` and `governance_audit_chain_keys`, each with the
next value of its sequence. -/
structure ChainTables where
  rows : List AuditRow
  nextSeq : ℕ
  keyVersions : List KeyVersion
  nextKeyVersion : ℕ

/-- The arguments of `rotate_chain_key`.  The agent id is not empty: the table
takes the empty text, and no `AuditEventRecord` can hold the row. -/
structure RotationRequest where
  outgoingSecret : Bytes
  incomingSecret : Bytes
  operatorId : String
  rotationReason : String := "scheduled"
  sessionId : Option Uuid := none
  agentId : String := "governance.system"
  agentId_ne : agentId ≠ "" := by decide

structure RotationResult where
  outgoingFingerprint : String
  incomingFingerprint : String
  markerEventId : Uuid
  markerChainSeq : ℕ
  outgoingKeyVersion : ℕ
  incomingKeyVersion : ℕ

inductive RotationError where
  | valueError
  | runtimeError
  | databaseError
  deriving DecidableEq, Repr

/-- `SELECT key_version ... WHERE fingerprint = :fp AND retired_at_chain_seq IS
NULL ORDER BY key_version DESC LIMIT 1` -/
def selectActiveVersion (keyVersions : List KeyVersion) (fingerprint : String) :
    Option ℕ :=
  ((keyVersions.filter fun kv =>
    kv.fingerprint = fingerprint && kv.retiredAtChainSeq = none).argmax
      fun kv => kv.keyVersion).map fun kv => kv.keyVersion

/-- `SELECT chain_seq, hmac_value ... ORDER BY chain_seq DESC LIMIT 1` -/
def headHmac (rows : List AuditRow) : Option String :=
  (rows.argmax fun row => row.chainSeq).map fun row => row.record.hmac

def systemSessionId : Uuid := ⟨1⟩

namespace RotationRequest

variable (H : Hmac) (req : RotationRequest)

def session : Uuid := req.sessionId.getD systemSessionId

def metadata (outgoingVersion : ℕ) : Metadata :=
  [("outgoing_fingerprint", .str (fingerprintKey H req.outgoingSecret)),
   ("incoming_fingerprint", .str (fingerprintKey H req.incomingSecret)),
   ("outgoing_key_version", .int outgoingVersion),
   ("rotation_reason", .str req.rotationReason),
   ("operator_id", .str req.operatorId)]

/-- The authenticated fields of the marker. -/
def markerContent (eventId : Uuid) (createdAt : Datetime) (outgoingVersion : ℕ)
    (prevHash : Option String) : EventContent :=
  rotationContent eventId req.session req.agentId none (req.metadata H outgoingVersion)
    prevHash createdAt

/-- The inserted columns of the marker, but for `hmac_next`. -/
def markerFields (eventId : Uuid) (createdAt : Datetime) (outgoingVersion : ℕ)
    (prevHash : Option String) : RecordFields where
  toEventContent := req.markerContent H eventId createdAt outgoingVersion prevHash
  hmac := computeEventHmac H req.outgoingSecret
    (req.markerContent H eventId createdAt outgoingVersion prevHash)
  signature := none
  signingKeyFingerprint := none
  signatureStatus := .unsigned

end RotationRequest

/-- `UPDATE ... SET retired_at_chain_seq = :seq WHERE key_version = :kv AND
retired_at_chain_seq IS NULL` -/
def retireVersion (keyVersion seq : ℕ) (keyVersions : List KeyVersion) : List KeyVersion :=
  keyVersions.map fun kv =>
    if kv.keyVersion = keyVersion ∧ kv.retiredAtChainSeq = none then
      { kv with retiredAtChainSeq := some seq }
    else kv

def rotateChainKey (H : Hmac) (T : ChainTables) (req : RotationRequest) (eventId : Uuid)
    (createdAt : Datetime) : Except RotationError (ChainTables × RotationResult) :=
  if req.outgoingSecret = req.incomingSecret then .error .valueError
  else
    match selectActiveVersion T.keyVersions (fingerprintKey H req.outgoingSecret) with
    | none => .error .runtimeError
    | some outgoingVersion =>
        let prevHash := headHmac T.rows
        let incomingMac := computeEventHmac H req.incomingSecret
          (req.markerContent H eventId createdAt outgoingVersion prevHash)
        -- agent_id is a VARCHAR(256), event_id the primary key
        match AuditEventRecord.construct
            (req.markerFields H eventId createdAt outgoingVersion prevHash) with
        | none => .error .databaseError
        | some marker =>
            if eventId ∈ T.rows.map fun row => row.record.eventId then
              .error .databaseError
            -- fingerprint is UNIQUE
            else if fingerprintKey H req.incomingSecret ∈
                T.keyVersions.map fun kv => kv.fingerprint then
              .error .databaseError
            else
              let markerSeq := T.nextSeq
              .ok
                ({ rows := T.rows ++ [⟨markerSeq, marker, some incomingMac⟩]
                   nextSeq := markerSeq + 1
                   keyVersions := retireVersion outgoingVersion (markerSeq + 1)
                     (T.keyVersions ++ [⟨T.nextKeyVersion,
                       fingerprintKey H req.incomingSecret, markerSeq + 1, none⟩])
                   nextKeyVersion := T.nextKeyVersion + 1 },
                 { outgoingFingerprint := fingerprintKey H req.outgoingSecret
                   incomingFingerprint := fingerprintKey H req.incomingSecret
                   markerEventId := eventId
                   markerChainSeq := markerSeq
                   outgoingKeyVersion := outgoingVersion
                   incomingKeyVersion := T.nextKeyVersion })

variable {H : Hmac}

/-- What a rotation did whose marker continues `prevHash`. -/
structure Rotated (H : Hmac) (T : ChainTables) (req : RotationRequest)
    (T' : ChainTables) (result : RotationResult) (eventId : Uuid) (createdAt : Datetime)
    (prevHash : Option String) (marker : AuditEventRecord) : Prop where
  secrets_ne : req.outgoingSecret ≠ req.incomingSecret
  selected : selectActiveVersion T.keyVersions (fingerprintKey H req.outgoingSecret) =
    some result.outgoingKeyVersion
  fields : marker.toRecordFields =
    req.markerFields H eventId createdAt result.outgoingKeyVersion prevHash
  fresh : eventId ∉ T.rows.map fun row => row.record.eventId
  unregistered : fingerprintKey H req.incomingSecret ∉
    T.keyVersions.map fun kv => kv.fingerprint
  markerSeq : result.markerChainSeq = T.nextSeq
  rows : T'.rows = T.rows ++ [⟨T.nextSeq, marker,
    some (computeEventHmac H req.incomingSecret marker.toEventContent)⟩]
  nextSeq : T'.nextSeq = T.nextSeq + 1
  keyVersions : T'.keyVersions = retireVersion result.outgoingKeyVersion (T.nextSeq + 1)
    (T.keyVersions ++ [⟨T.nextKeyVersion, fingerprintKey H req.incomingSecret,
      T.nextSeq + 1, none⟩])
  nextKeyVersion : T'.nextKeyVersion = T.nextKeyVersion + 1

theorem rotateChainKey_eq_ok {T T' : ChainTables} {req : RotationRequest}
    {eventId : Uuid} {createdAt : Datetime} {result : RotationResult}
    (h : rotateChainKey H T req eventId createdAt = .ok (T', result)) :
    ∃ marker, Rotated H T req T' result eventId createdAt (headHmac T.rows) marker := by
  unfold rotateChainKey at h
  split at h
  · cases h
  · rename_i hne
    split at h
    · cases h
    · rename_i outgoingVersion hselect
      dsimp only at h
      split at h
      · cases h
      · rename_i marker hmarker
        split at h
        · cases h
        · rename_i hfresh
          split at h
          · cases h
          · rename_i hunregistered
            cases h
            have hfields := AuditEventRecord.construct_eq_some_iff.mp hmarker
            refine ⟨marker, hne, hselect, hfields, hfresh, hunregistered, rfl, ?_, rfl,
              rfl, rfl⟩
            rw [hfields]
            rfl

/-- A rotation goes through if its lookup succeeds and its two inserts do. -/
theorem rotateChainKey_of (T : ChainTables) (req : RotationRequest) (eventId : Uuid)
    (createdAt : Datetime) (outgoingVersion : ℕ) (marker : AuditEventRecord)
    (hne : req.outgoingSecret ≠ req.incomingSecret)
    (hselect : selectActiveVersion T.keyVersions
      (fingerprintKey H req.outgoingSecret) = some outgoingVersion)
    (hmarker : marker.toRecordFields =
      req.markerFields H eventId createdAt outgoingVersion (headHmac T.rows))
    (hfresh : eventId ∉ T.rows.map fun row => row.record.eventId)
    (hunregistered : fingerprintKey H req.incomingSecret ∉
      T.keyVersions.map fun kv => kv.fingerprint) :
    rotateChainKey H T req eventId createdAt =
      .ok
        ({ rows := T.rows ++ [⟨T.nextSeq, marker,
             some (computeEventHmac H req.incomingSecret marker.toEventContent)⟩]
           nextSeq := T.nextSeq + 1
           keyVersions := retireVersion outgoingVersion (T.nextSeq + 1)
             (T.keyVersions ++ [⟨T.nextKeyVersion,
               fingerprintKey H req.incomingSecret, T.nextSeq + 1, none⟩])
           nextKeyVersion := T.nextKeyVersion + 1 },
         { outgoingFingerprint := fingerprintKey H req.outgoingSecret
           incomingFingerprint := fingerprintKey H req.incomingSecret
           markerEventId := eventId
           markerChainSeq := T.nextSeq
           outgoingKeyVersion := outgoingVersion
           incomingKeyVersion := T.nextKeyVersion }) := by
  have hcontent : marker.toEventContent =
      req.markerContent H eventId createdAt outgoingVersion (headHmac T.rows) := by
    rw [hmarker]
    rfl
  have hconstruct := AuditEventRecord.construct_eq_some_iff.mpr hmarker
  rw [rotateChainKey, if_neg hne, hselect]
  simp only [hconstruct]
  rw [if_neg hfresh, if_neg hunregistered, hcontent]

/-! ## Histories -/

/-- The registered key that a history starts from, active from the first row. -/
structure Bootstrap where
  key : Bytes
  keyVersion : ℕ
  activation : ℕ
  firstSeq : ℕ
  active : activation ≤ firstSeq

/-- The tables, with the key that rows of each sequence number are signed with.
From `nextSeq` on that is the current key. -/
structure History where
  tables : ChainTables
  keyAt : ℕ → Bytes

namespace History

def current (s : History) : Bytes := s.keyAt s.tables.nextSeq

def start (H : Hmac) (B : Bootstrap) : History where
  tables :=
    { rows := []
      nextSeq := B.firstSeq
      keyVersions := [⟨B.keyVersion, fingerprintKey H B.key, B.activation, none⟩]
      nextKeyVersion := B.keyVersion + 1 }
  keyAt := fun _ => B.key

/-- The insert of an ordinary row, which leaves `hmac_next` null. -/
def append (s : History) (record : AuditEventRecord) : History :=
  { s with
    tables :=
      { s.tables with
        rows := s.tables.rows ++ [⟨s.tables.nextSeq, record, none⟩]
        nextSeq := s.tables.nextSeq + 1 } }

/-- A transaction that drew sequence values and rolled back. -/
def burn (s : History) (seqs versions : ℕ) : History :=
  { s with
    tables :=
      { s.tables with
        nextSeq := s.tables.nextSeq + seqs
        nextKeyVersion := s.tables.nextKeyVersion + versions } }

/-- The tables after a rotation, whose incoming key is current from the row after
the marker on. -/
def rotate (s : History) (T : ChainTables) (markerSeq : ℕ) (incoming : Bytes) : History where
  tables := T
  keyAt := fun n => if n ≤ markerSeq then s.keyAt n else incoming

end History

inductive HistoryStep (H : Hmac) : History → History → Prop
  | append (s : History) (record : AuditEventRecord)
      (hsigned : record.hmac = computeEventHmac H s.current record.toEventContent)
      (hfresh : record.eventId ∉ s.tables.rows.map fun row => row.record.eventId) :
      HistoryStep H s (s.append record)
  | burn (s : History) (seqs versions : ℕ) : HistoryStep H s (s.burn seqs versions)
  | rotate (s : History) (req : RotationRequest) (eventId : Uuid) (createdAt : Datetime)
      (T : ChainTables) (result : RotationResult)
      (hcurrent : req.outgoingSecret = s.current)
      (hrotate : rotateChainKey H s.tables req eventId createdAt = .ok (T, result)) :
      HistoryStep H s (s.rotate T result.markerChainSeq req.incomingSecret)

def rotationHistory (H : Hmac) (B : Bootstrap) : System History where
  init s := s = .start H B
  step := HistoryStep H

/-! ## The invariant -/

/-- The row carries the MAC of the key of its sequence number.  If it has a
second MAC it is a marker between two keys, and names them. -/
structure RowOk (H : Hmac) (keyAt : ℕ → Bytes) (row : AuditRow) : Prop where
  hmac : row.record.hmac =
    computeEventHmac H (keyAt row.chainSeq) row.record.toEventContent
  marker : ∀ mac, row.hmacNext = some mac →
    row.record.asMarker = row.record.toEventContent ∧
    mac = computeEventHmac H (keyAt (row.chainSeq + 1)) row.record.toEventContent ∧
    fingerprintKey H (keyAt (row.chainSeq + 1)) ≠ fingerprintKey H (keyAt row.chainSeq) ∧
    row.record.metadata.lookup "outgoing_fingerprint" =
      some (.str (fingerprintKey H (keyAt row.chainSeq))) ∧
    row.record.metadata.lookup "incoming_fingerprint" =
      some (.str (fingerprintKey H (keyAt (row.chainSeq + 1))))

/-- Only the keys up to the number after the row matter. -/
theorem RowOk.congr {keyAt keyAt' : ℕ → Bytes} {row : AuditRow} (h : RowOk H keyAt row)
    (hsame : keyAt' row.chainSeq = keyAt row.chainSeq)
    (hnext : keyAt' (row.chainSeq + 1) = keyAt (row.chainSeq + 1)) :
    RowOk H keyAt' row := by
  obtain ⟨hmac, hmarker⟩ := h
  constructor
  · rw [hsame]
    exact hmac
  · rw [hsame, hnext]
    exact hmarker

/-- Every number from the first activation on has one active version, that of the
key current there, and every row is signed accordingly. -/
structure HistoryOk (H : Hmac) (activation : ℕ) (s : History) : Prop where
  bounds : ∀ row ∈ s.tables.rows,
    activation ≤ row.chainSeq ∧ row.chainSeq < s.tables.nextSeq
  started : activation ≤ s.tables.nextSeq
  numbered : ∀ kv ∈ s.tables.keyVersions, kv.keyVersion < s.tables.nextKeyVersion
  activated : ∀ kv ∈ s.tables.keyVersions, kv.activatedAtChainSeq ≤ s.tables.nextSeq
  active : ∀ n, activation ≤ n → ∃ kv,
    activeKeyCandidates n s.tables.keyVersions = [kv] ∧
      kv.fingerprint = fingerprintKey H (s.keyAt n)
  current : ∀ n, s.tables.nextSeq ≤ n → s.keyAt n = s.current
  rows : ∀ row ∈ s.tables.rows, RowOk H s.keyAt row

namespace HistoryOk

variable {s : History} {activation : ℕ}

theorem start (H : Hmac) (B : Bootstrap) : HistoryOk H B.activation (.start H B) where
  bounds := by simp [History.start]
  started := B.active
  numbered := by simp [History.start]
  activated := by simpa [History.start] using B.active
  active := by
    intro n hn
    refine ⟨⟨B.keyVersion, fingerprintKey H B.key, B.activation, none⟩, ?_, rfl⟩
    simp [History.start, activeKeyCandidates, hn]
  current := fun _ _ => rfl
  rows := by simp [History.start]

theorem append (h : HistoryOk H activation s) {record : AuditEventRecord}
    (hsigned : record.hmac = computeEventHmac H s.current record.toEventContent) :
    HistoryOk H activation (s.append record) where
  bounds := by
    intro row hrow
    rcases List.mem_append.mp hrow with hrow | hrow
    · obtain ⟨hlow, hhigh⟩ := h.bounds row hrow
      exact ⟨hlow, Nat.lt_succ_of_lt hhigh⟩
    · rw [List.mem_singleton.mp hrow]
      exact ⟨h.started, Nat.lt_succ_self _⟩
  started := Nat.le_succ_of_le h.started
  numbered := h.numbered
  activated := fun kv hkv => Nat.le_succ_of_le (h.activated kv hkv)
  active := h.active
  current := by
    intro n hn
    have hnext : s.keyAt (s.tables.nextSeq + 1) = s.current := h.current _ (by omega)
    exact (h.current n (Nat.le_of_succ_le hn)).trans hnext.symm
  rows := by
    intro row hrow
    rcases List.mem_append.mp hrow with hrow | hrow
    · exact h.rows row hrow
    · rw [List.mem_singleton.mp hrow]
      refine ⟨hsigned, ?_⟩
      intro mac hmac
      cases hmac

theorem burn (h : HistoryOk H activation s) (seqs versions : ℕ) :
    HistoryOk H activation (s.burn seqs versions) where
  bounds := by
    intro row hrow
    obtain ⟨hlow, hhigh⟩ := h.bounds row hrow
    exact ⟨hlow, Nat.lt_add_right seqs hhigh⟩
  started := Nat.le_add_right_of_le h.started
  numbered := fun kv hkv => Nat.lt_add_right versions (h.numbered kv hkv)
  activated := fun kv hkv => Nat.le_add_right_of_le (h.activated kv hkv)
  active := h.active
  current := by
    intro n hn
    have hnext : s.keyAt (s.tables.nextSeq + seqs) = s.current := h.current _ (by omega)
    have hle : s.tables.nextSeq ≤ n := le_trans (Nat.le_add_right _ seqs) hn
    exact (h.current n hle).trans hnext.symm
  rows := h.rows

/-- An unretired version is the one of the current key. -/
theorem eq_of_unretired (h : HistoryOk H activation s) {kv kv' : KeyVersion} {n : ℕ}
    (hn : s.tables.nextSeq ≤ n)
    (hactive : activeKeyCandidates n s.tables.keyVersions = [kv'])
    (hkv : kv ∈ s.tables.keyVersions) (hretired : kv.retiredAtChainSeq = none) :
    kv = kv' := by
  have hmem : kv ∈ activeKeyCandidates n s.tables.keyVersions := by
    rw [activeKeyCandidates_eq_coveringAt, mem_coveringAt]
    exact ⟨hkv, (Window.covers_open hretired).mpr ((h.activated kv hkv).trans hn)⟩
  rw [hactive] at hmem
  exact List.mem_singleton.mp hmem

end HistoryOk

theorem exists_of_selectActiveVersion {keyVersions : List KeyVersion}
    {fingerprint : String} {version : ℕ}
    (h : selectActiveVersion keyVersions fingerprint = some version) :
    ∃ kv ∈ keyVersions, kv.fingerprint = fingerprint ∧ kv.retiredAtChainSeq = none ∧
      kv.keyVersion = version := by
  obtain ⟨kv, hmax, hversion⟩ := Option.map_eq_some_iff.mp h
  have hmem := List.argmax_mem hmax
  simp only [List.mem_filter, Bool.and_eq_true, decide_eq_true_eq] at hmem
  exact ⟨kv, hmem.1, hmem.2.1, hmem.2.2, hversion⟩

/-- The marker has the lengths of a record, if its agent id and its link do. -/
theorem RotationRequest.markerFields_valid {req : RotationRequest} {eventId : Uuid}
    {createdAt : Datetime} {outgoingVersion : ℕ} {prevHash : Option String}
    (hagent : req.agentId.length ≤ maxAgentIdLen)
    (hprev : optionalWithin maxHashLen prevHash) :
    (req.markerFields H eventId createdAt outgoingVersion prevHash).Valid where
  agentId := by
    refine ⟨?_, hagent⟩
    rw [Nat.one_le_iff_ne_zero]
    exact fun h => req.agentId_ne (String.length_eq_zero_iff.mp h)
  kind := by
    change 1 ≤ keyRotationKind.length ∧ keyRotationKind.length ≤ maxKindLen
    decide
  model := by rintro t ⟨⟩
  inputHash := by rintro t ⟨⟩
  outputHash := by rintro t ⟨⟩
  prevHash := hprev
  hmac := by
    simp only [markerFields, length_computeEventHmac]
    decide
  signingKeyFingerprint := by rintro t ⟨⟩

/-- The condition of the retiring update. -/
abbrev retires (version : ℕ) (kv : KeyVersion) : Prop :=
  kv.keyVersion = version ∧ kv.retiredAtChainSeq = none

def retireAt (seq : ℕ) (kv : KeyVersion) : KeyVersion :=
  { kv with retiredAtChainSeq := some seq }

theorem retireVersion_concat {version seq : ℕ} {keyVersions : List KeyVersion}
    {fresh : KeyVersion} (h : fresh.keyVersion ≠ version) :
    retireVersion version seq (keyVersions ++ [fresh]) =
      handoff (retires version) (retireAt seq) fresh keyVersions := by
  simp [retireVersion, handoff, retireAt, h]

theorem fingerprint_retire (version seq : ℕ) (kv : KeyVersion) :
    (if retires version kv then retireAt seq kv else kv).fingerprint = kv.fingerprint := by
  split <;> rfl

namespace Rotated

variable {s : History} {activation : ℕ} {T : ChainTables} {req : RotationRequest}
  {result : RotationResult} {eventId : Uuid} {createdAt : Datetime}
  {prevHash : Option String} {marker : AuditEventRecord}

theorem keyVersions_eq (hr : Rotated H s.tables req T result eventId createdAt prevHash marker)
    (h : HistoryOk H activation s) :
    T.keyVersions = handoff (retires result.outgoingKeyVersion)
      (retireAt (s.tables.nextSeq + 1))
      ⟨s.tables.nextKeyVersion, fingerprintKey H req.incomingSecret,
        s.tables.nextSeq + 1, none⟩ s.tables.keyVersions := by
  rw [hr.keyVersions]
  apply retireVersion_concat
  obtain ⟨kv, hkv, -, -, hversion⟩ := exists_of_selectActiveVersion hr.selected
  rw [← hversion]
  exact ne_of_gt (h.numbered kv hkv)

/-- Up to the marker the active version stays, now with an end. -/
theorem active_before (hr : Rotated H s.tables req T result eventId createdAt prevHash marker)
    (h : HistoryOk H activation s) {n : ℕ} {kv : KeyVersion}
    (hn : n ≤ s.tables.nextSeq)
    (hactive : activeKeyCandidates n s.tables.keyVersions = [kv]) :
    activeKeyCandidates n T.keyVersions =
      [if retires result.outgoingKeyVersion kv then retireAt (s.tables.nextSeq + 1) kv
        else kv] := by
  rw [activeKeyCandidates_eq_coveringAt] at hactive ⊢
  rw [hr.keyVersions_eq h, coveringAt_handoff_before (e := s.tables.nextSeq + 1), hactive]
  · rfl
  · exact fun _ _ hsel => hsel.2
  · exact fun _ _ _ => rfl
  · rfl
  · exact Nat.lt_succ_of_le hn

/-- After the marker the incoming version is alone. -/
theorem active_after (hr : Rotated H s.tables req T result eventId createdAt prevHash marker)
    (h : HistoryOk H activation s) {n : ℕ} (hn : s.tables.nextSeq < n) :
    activeKeyCandidates n T.keyVersions =
      [⟨s.tables.nextKeyVersion, fingerprintKey H req.incomingSecret,
        s.tables.nextSeq + 1, none⟩] := by
  obtain ⟨kv, hactive, -⟩ := h.active n (h.started.trans (le_of_lt hn))
  obtain ⟨out, hout, -, hretired, hversion⟩ := exists_of_selectActiveVersion hr.selected
  have hkv : out = kv := h.eq_of_unretired (le_of_lt hn) hactive hout hretired
  rw [activeKeyCandidates_eq_coveringAt] at hactive ⊢
  rw [hr.keyVersions_eq h]
  apply coveringAt_handoff_after (e := s.tables.nextSeq + 1)
  · exact fun _ _ _ => rfl
  · rfl
  · exact hn
  · intro x hx
    rw [hactive, List.mem_singleton] at hx
    rw [hx, ← hkv]
    exact ⟨hversion, hretired⟩

/-- The fingerprints on the two sides of the marker differ, since the incoming one
was not registered. -/
theorem fingerprint_ne (hr : Rotated H s.tables req T result eventId createdAt prevHash marker) :
    fingerprintKey H req.incomingSecret ≠ fingerprintKey H req.outgoingSecret := by
  obtain ⟨kv, hkv, hfingerprint, -, -⟩ := exists_of_selectActiveVersion hr.selected
  intro heq
  apply hr.unregistered
  rw [heq, ← hfingerprint]
  exact List.mem_map_of_mem hkv

theorem toEventContent_eq (hr : Rotated H s.tables req T result eventId createdAt prevHash marker) :
    marker.toEventContent = req.markerContent H eventId createdAt
      result.outgoingKeyVersion prevHash := by
  rw [hr.fields]
  rfl

/-- The inserted marker is signed by the key before it and the key after it. -/
theorem rowOk (hr : Rotated H s.tables req T result eventId createdAt prevHash marker)
    (hcurrent : req.outgoingSecret = s.current) :
    RowOk H (s.rotate T result.markerChainSeq req.incomingSecret).keyAt
      ⟨s.tables.nextSeq, marker,
        some (computeEventHmac H req.incomingSecret marker.toEventContent)⟩ := by
  have hhere : (s.rotate T result.markerChainSeq req.incomingSecret).keyAt
      s.tables.nextSeq = req.outgoingSecret := by
    rw [hcurrent, History.rotate, hr.markerSeq]
    exact if_pos le_rfl
  have hthere : (s.rotate T result.markerChainSeq req.incomingSecret).keyAt
      (s.tables.nextSeq + 1) = req.incomingSecret := by
    rw [History.rotate, hr.markerSeq]
    exact if_neg (by omega)
  constructor
  · change marker.hmac = _
    rw [hhere, hr.fields]
    rfl
  · intro mac hmac
    cases hmac
    change marker.asMarker = marker.toEventContent ∧ _ = _ ∧ _ ∧
      marker.metadata.lookup _ = _ ∧ marker.metadata.lookup _ = _
    rw [hhere, hthere, hr.toEventContent_eq]
    refine ⟨rfl, rfl, hr.fingerprint_ne, rfl, ?_⟩
    simp [RotationRequest.markerContent, rotationContent, RotationRequest.metadata,
      List.lookup_cons]

end Rotated

namespace HistoryOk

variable {s : History} {activation : ℕ}

theorem rotate (h : HistoryOk H activation s) {T : ChainTables} {req : RotationRequest}
    {result : RotationResult} {eventId : Uuid} {createdAt : Datetime}
    {prevHash : Option String} {marker : AuditEventRecord}
    (hr : Rotated H s.tables req T result eventId createdAt prevHash marker)
    (hcurrent : req.outgoingSecret = s.current) :
    HistoryOk H activation (s.rotate T result.markerChainSeq req.incomingSecret) where
  bounds := by
    intro row hrow
    change row ∈ T.rows at hrow
    change _ ∧ _ < T.nextSeq
    rw [hr.rows] at hrow
    rw [hr.nextSeq]
    rcases List.mem_append.mp hrow with hrow | hrow
    · obtain ⟨hlow, hhigh⟩ := h.bounds row hrow
      exact ⟨hlow, Nat.lt_succ_of_lt hhigh⟩
    · rw [List.mem_singleton.mp hrow]
      exact ⟨h.started, Nat.lt_succ_self _⟩
  started := by
    change _ ≤ T.nextSeq
    rw [hr.nextSeq]
    exact Nat.le_succ_of_le h.started
  numbered := by
    intro kv hkv
    change kv ∈ T.keyVersions at hkv
    change _ < T.nextKeyVersion
    rw [hr.keyVersions_eq h, handoff] at hkv
    rw [hr.nextKeyVersion]
    rcases List.mem_append.mp hkv with hkv | hkv
    · obtain ⟨old, hold, rfl⟩ := List.mem_map.mp hkv
      have hlt := h.numbered old hold
      split
      · exact Nat.lt_succ_of_lt hlt
      · exact Nat.lt_succ_of_lt hlt
    · rw [List.mem_singleton.mp hkv]
      exact Nat.lt_succ_self _
  activated := by
    intro kv hkv
    change kv ∈ T.keyVersions at hkv
    change _ ≤ T.nextSeq
    rw [hr.keyVersions_eq h, handoff] at hkv
    rw [hr.nextSeq]
    rcases List.mem_append.mp hkv with hkv | hkv
    · obtain ⟨old, hold, rfl⟩ := List.mem_map.mp hkv
      have hle := h.activated old hold
      split
      · exact Nat.le_succ_of_le hle
      · exact Nat.le_succ_of_le hle
    · rw [List.mem_singleton.mp hkv]
  active := by
    intro n hn
    change ∃ kv, activeKeyCandidates n T.keyVersions = [kv] ∧
      _ = fingerprintKey H (if n ≤ result.markerChainSeq then _ else _)
    rw [hr.markerSeq]
    by_cases hbefore : n ≤ s.tables.nextSeq
    · obtain ⟨kv, hactive, hkey⟩ := h.active n hn
      refine ⟨_, hr.active_before h hbefore hactive, ?_⟩
      rw [if_pos hbefore, fingerprint_retire]
      exact hkey
    · refine ⟨_, hr.active_after h (not_le.mp hbefore), ?_⟩
      rw [if_neg hbefore]
  current := by
    intro n hn
    change T.nextSeq ≤ n at hn
    rw [hr.nextSeq] at hn
    change (if n ≤ result.markerChainSeq then _ else _) =
      if T.nextSeq ≤ result.markerChainSeq then _ else _
    rw [hr.markerSeq, hr.nextSeq, if_neg (by omega), if_neg (by omega)]
  rows := by
    intro row hrow
    change row ∈ T.rows at hrow
    rw [hr.rows] at hrow
    rcases List.mem_append.mp hrow with hrow | hrow
    · have hlt := (h.bounds row hrow).2
      apply (h.rows row hrow).congr
      · rw [History.rotate, hr.markerSeq]
        exact if_pos (by omega)
      · rw [History.rotate, hr.markerSeq]
        exact if_pos (by omega)
    · rw [List.mem_singleton.mp hrow]
      exact hr.rowOk hcurrent

theorem step {t : History} (h : HistoryOk H activation s) (hstep : HistoryStep H s t) :
    HistoryOk H activation t := by
  cases hstep with
  | append record hsigned hfresh => exact h.append hsigned
  | burn seqs versions => exact h.burn seqs versions
  | rotate req eventId createdAt T result hcurrent hrotate =>
      obtain ⟨marker, hr⟩ := rotateChainKey_eq_ok hrotate
      exact h.rotate hr hcurrent

theorem of_reachable {B : Bootstrap} (h : (rotationHistory H B).Reachable s) :
    HistoryOk H B.activation s := by
  refine System.invariant (I := HistoryOk H B.activation) ?_ ?_ h
  · rintro s rfl
    exact .start H B
  · intro s t _ hs hstep
    exact hs.step hstep

variable {S : KeySource} {uriMap : String → Option String} {versions : List KeyVersion}

theorem findActiveKeyAtSeq_eq (h : HistoryOk H activation s)
    (hperm : versions.Perm s.tables.keyVersions) {n : ℕ} (hn : activation ≤ n) :
    ∃ kv, findActiveKeyAtSeq n versions = some kv ∧
      kv.fingerprint = fingerprintKey H (s.keyAt n) := by
  obtain ⟨kv, hactive, hkey⟩ := h.active n hn
  exact ⟨kv, findActiveKeyAtSeq_of_perm hperm hactive, hkey⟩

/-- Every row of a history is verified, once every key resolves. -/
theorem checkRow_eq (h : HistoryOk H activation s)
    (hres : ∀ n, activation ≤ n → Resolves H S uriMap (s.keyAt n))
    (hperm : versions.Perm s.tables.keyVersions) {row : AuditRow}
    (hrow : row ∈ s.tables.rows) :
    checkRow H S versions uriMap row = .ok .verified := by
  have hlow : activation ≤ row.chainSeq := (h.bounds row hrow).1
  have hok := h.rows row hrow
  obtain ⟨active, hactive, hkey⟩ := h.findActiveKeyAtSeq_eq hperm hlow
  have hout := hres row.chainSeq hlow
  rw [Resolves, ← hkey] at hout
  rw [checkRow_eq_verified_iff]
  refine ⟨active, s.keyAt row.chainSeq, hactive, hout, ?_⟩
  by_cases hmarker : isMarker row = true
  · rw [if_pos hmarker, checkMarker_eq_verified_iff]
    obtain ⟨mac, hmac⟩ := Option.isSome_iff_exists.mp (by
      simpa [isMarker] using (Bool.and_eq_true_iff.mp hmarker).2)
    obtain ⟨hcontent, hnext, hne, -, -⟩ := hok.marker mac hmac
    obtain ⟨incoming, hincoming, hkey'⟩ :=
      h.findActiveKeyAtSeq_eq hperm (Nat.le_succ_of_le hlow)
    have hin := hres (row.chainSeq + 1) (Nat.le_succ_of_le hlow)
    rw [Resolves, ← hkey'] at hin
    refine ⟨incoming, _, _, hincoming, ?_, hout, hin, ?_, ?_⟩
    · rw [hkey, hkey']
      exact hne
    · rw [hcontent]
      exact hok.hmac
    · rw [hcontent, hmac]
      exact hnext
  · rw [if_neg hmarker]
    exact hok.hmac

end HistoryOk

/-- Sequential rotations keep every row verifiable.  At each sequence number from
the first activation on exactly one version is a candidate, and it is that of the
key current there; a marker lies in the window of the key it retires, and the next
number in that of the key it introduces; and once every fingerprint resolves to
its key, all rows verify. -/
theorem sequential_rotations_verify {B : Bootstrap} {s : History}
    (h : (rotationHistory H B).Reachable s) :
    (∀ n, B.activation ≤ n → ∃ kv,
      activeKeyCandidates n s.tables.keyVersions = [kv] ∧
        kv.fingerprint = fingerprintKey H (s.keyAt n)) ∧
    (∀ row ∈ s.tables.rows, row.hmacNext ≠ none → ∃ outgoing incoming,
      activeKeyCandidates row.chainSeq s.tables.keyVersions = [outgoing] ∧
        activeKeyCandidates (row.chainSeq + 1) s.tables.keyVersions = [incoming] ∧
        outgoing.fingerprint ≠ incoming.fingerprint ∧
        row.record.metadata.lookup "outgoing_fingerprint" =
          some (.str outgoing.fingerprint) ∧
        row.record.metadata.lookup "incoming_fingerprint" =
          some (.str incoming.fingerprint)) ∧
    ∀ (S : KeySource) (uriMap : String → Option String),
      (∀ n, B.activation ≤ n → Resolves H S uriMap (s.keyAt n)) →
        verifyChainWithRotation H S s.tables.rows s.tables.keyVersions uriMap =
          .ok ⟨s.tables.rows.length, 0, 0, .ok, []⟩ := by
  have hok := HistoryOk.of_reachable h
  refine ⟨hok.active, ?_, ?_⟩
  · intro row hrow hmarker
    obtain ⟨mac, hmac⟩ := Option.ne_none_iff_exists'.mp hmarker
    obtain ⟨-, -, hne, hfrom, hto⟩ := (hok.rows row hrow).marker mac hmac
    have hlow := (hok.bounds row hrow).1
    obtain ⟨outgoing, hactive, hkey⟩ := hok.active row.chainSeq hlow
    obtain ⟨incoming, hactive', hkey'⟩ :=
      hok.active (row.chainSeq + 1) (Nat.le_succ_of_le hlow)
    refine ⟨outgoing, incoming, hactive, hactive', ?_, ?_, ?_⟩
    · rw [hkey, hkey']
      exact hne.symm
    · rw [hkey]
      exact hfrom
    · rw [hkey']
      exact hto
  · intro S uriMap hres
    apply verifyChainWithRotation_of_verified
    intro row hrow
    exact hok.checkRow_eq hres (perm_sortVersions _) hrow

/-! ### One rotation between two rows -/

def sampleIncoming : Bytes := (List.range' 32 32).map UInt8.ofNat

def sampleFingerprint₁ : BitVec 256 :=
  0x80d19d2037cec746a42b849e3991abb20df9b2715f89bcfcab789201c2347acd#256

def sampleFingerprint₂ : BitVec 256 :=
  0xbea569602f25b68271c651bd959cae24fd129997e36795752fcfb07ea5775bde#256

/-- The marker goes to the session of the row before it, or to the default one. -/
def sampleRequest (own : Bool) : RotationRequest where
  outgoingSecret := sampleSecret
  incomingSecret := sampleIncoming
  operatorId := "ops"
  sessionId := if own then some ⟨100⟩ else none

def sampleMarkerId : Bool → Uuid
  | false => ⟨2⟩
  | true => ⟨4⟩

def sampleMarker (own : Bool) : EventContent :=
  rotationContent (sampleMarkerId own) (sampleRequest own).session "governance.system" none
    [("outgoing_fingerprint", .str (digestText sampleFingerprint₁)),
     ("incoming_fingerprint", .str (digestText sampleFingerprint₂)),
     ("outgoing_key_version", .int 1),
     ("rotation_reason", .str "scheduled"),
     ("operator_id", .str "ops")]
    (some (digestText sampleDigest₁)) sampleTime

def markerDigest : Bool → BitVec 256
  | false => 0x648c3131a2ca6d501fa11ee8f759503db11ca670409ad9564533ac03dc6f40a0#256
  | true => 0x9448147d41f1b6db0749424d807669afbe60365ba8d0d59f55862cbb04ce0e43#256

def sampleAfter : EventContent := sampleContent ⟨3⟩ [] (some (digestText sampleDigest₁))

def afterDigest : BitVec 256 :=
  0x836f1f4e33ce7b4e64c837c7e50aa0faf8d21cd56de4ef8eae06258d7562eb4b#256

/-- HMAC-SHA256 on the messages of the sample rotations. -/
def rotationHmac : Hmac :=
  (Hmac.ofTable
    [tableEntry sampleSecret sampleFirst sampleDigest₁,
     tableEntry sampleIncoming sampleAfter afterDigest,
     tableEntry sampleSecret (sampleMarker false) (markerDigest false),
     tableEntry sampleSecret (sampleMarker true) (markerDigest true),
     tableEntry sampleIncoming (sampleMarker false)
       0x8cdc25e3d644b9463ac1cd08ab6c02cae9233ff10c47974e828c6f8679340f77#256,
     tableEntry sampleIncoming (sampleMarker true)
       0x9674b2403d19e82b9ced927f26d63a262628fe664f7b1ae740bbb8a8e4b93e25#256
    ]).withFingerprints
    [(sampleSecret, sampleFingerprint₁), (sampleIncoming, sampleFingerprint₂)]

def sampleBootstrap : Bootstrap := ⟨sampleSecret, 1, 0, 1, by decide⟩

/-- Both keys are files. -/
def sampleKeySource : KeySource where
  environ := fun _ => none
  readBytes := fun path =>
    if path = "/keys/1" then some sampleSecret
    else if path = "/keys/2" then some sampleIncoming else none

def sampleUriMap (fingerprint : String) : Option String :=
  if fingerprint = digestText sampleFingerprint₁ then some "file:///keys/1"
  else if fingerprint = digestText sampleFingerprint₂ then some "file:///keys/2" else none

theorem rotation_fingerprint₁ :
    fingerprintKey rotationHmac sampleSecret = digestText sampleFingerprint₁ :=
  fingerprintKey_withFingerprints _ (by decide)

theorem rotation_fingerprint₂ :
    fingerprintKey rotationHmac sampleIncoming = digestText sampleFingerprint₂ :=
  fingerprintKey_withFingerprints _ (by decide)

theorem sampleFingerprint_ne :
    digestText sampleFingerprint₂ ≠ digestText sampleFingerprint₁ :=
  fun h => absurd (digestText_injective h) (by decide)

theorem sample_resolves₁ :
    Resolves rotationHmac sampleKeySource sampleUriMap sampleSecret := by
  refine Resolves.of_uri (?_ : _ = some "file:///keys/1") (by decide) (by decide)
  rw [rotation_fingerprint₁]
  exact if_pos rfl

theorem sample_resolves₂ :
    Resolves rotationHmac sampleKeySource sampleUriMap sampleIncoming := by
  refine Resolves.of_uri (?_ : _ = some "file:///keys/2") (by decide) (by decide)
  rw [rotation_fingerprint₂, sampleUriMap, if_neg sampleFingerprint_ne]
  exact if_pos rfl

theorem rotation_hmac_first :
    computeEventHmac rotationHmac sampleSecret sampleFirst = digestText sampleDigest₁ := by
  rw [rotationHmac, computeEventHmac_withFingerprints]
  exact computeEventHmac_ofTable_self _ _

theorem rotation_hmac_after :
    computeEventHmac rotationHmac sampleIncoming sampleAfter = digestText afterDigest := by
  rw [rotationHmac, computeEventHmac_withFingerprints,
    computeEventHmac_ofTable_of_ne (Or.inl (by decide))]
  exact computeEventHmac_ofTable_self _ _

theorem rotation_hmac_marker (own : Bool) :
    computeEventHmac rotationHmac sampleSecret (sampleMarker own) =
      digestText (markerDigest own) := by
  cases own with
  | false =>
      rw [rotationHmac, computeEventHmac_withFingerprints,
        computeEventHmac_ofTable_of_ne (Or.inl (by decide)),
        computeEventHmac_ofTable_of_ne (Or.inl (by decide))]
      exact computeEventHmac_ofTable_self _ _
  | true =>
      rw [rotationHmac, computeEventHmac_withFingerprints,
        computeEventHmac_ofTable_of_ne (Or.inl (by decide)),
        computeEventHmac_ofTable_of_ne (Or.inl (by decide)),
        computeEventHmac_ofTable_of_ne (Or.inl (by decide))]
      exact computeEventHmac_ofTable_self _ _

theorem sampleMarker_eq (own : Bool) :
    (sampleRequest own).markerContent rotationHmac (sampleMarkerId own) sampleTime 1
      (some (digestText sampleDigest₁)) = sampleMarker own := by
  rw [RotationRequest.markerContent, RotationRequest.metadata]
  change rotationContent _ _ _ _ [("outgoing_fingerprint",
    .str (fingerprintKey rotationHmac sampleSecret)), ("incoming_fingerprint",
    .str (fingerprintKey rotationHmac sampleIncoming)), _, _, _] _ _ = _
  rw [rotation_fingerprint₁, rotation_fingerprint₂]
  rfl

theorem sampleMarker_fields (own : Bool) :
    (sampleRequest own).markerFields rotationHmac (sampleMarkerId own) sampleTime 1
        (some (digestText sampleDigest₁)) =
      ⟨sampleMarker own, digestText (markerDigest own), none, none, .unsigned⟩ := by
  rw [RotationRequest.markerFields, sampleMarker_eq]
  exact congrArg (RecordFields.mk (sampleMarker own) · none none .unsigned)
    (rotation_hmac_marker own)

def sampleMarkerRecord (own : Bool) : AuditEventRecord where
  toRecordFields :=
    ⟨sampleMarker own, digestText (markerDigest own), none, none, .unsigned⟩
  valid := by
    rw [← sampleMarker_fields]
    refine RotationRequest.markerFields_valid (by cases own <;> decide) ?_
    rintro t ⟨⟩
    rw [length_digestText]
    decide

/-- The tables before the rotation, with one row. -/
def sampleBefore : History :=
  (History.start rotationHmac sampleBootstrap).append sampleRecord₁

/-- The tables after it. -/
def sampleRotated (own : Bool) : ChainTables where
  rows :=
    [⟨1, sampleRecord₁, none⟩,
     ⟨2, sampleMarkerRecord own,
       some (computeEventHmac rotationHmac sampleIncoming (sampleMarker own))⟩]
  nextSeq := 3
  keyVersions :=
    [⟨1, fingerprintKey rotationHmac sampleSecret, 0, some 3⟩,
     ⟨2, fingerprintKey rotationHmac sampleIncoming, 3, none⟩]
  nextKeyVersion := 3

theorem sample_rotate (own : Bool) :
    rotateChainKey rotationHmac sampleBefore.tables (sampleRequest own)
        (sampleMarkerId own) sampleTime =
      .ok (sampleRotated own,
        ⟨fingerprintKey rotationHmac sampleSecret,
          fingerprintKey rotationHmac sampleIncoming, sampleMarkerId own, 2, 1, 2⟩) := by
  have hselect : selectActiveVersion sampleBefore.tables.keyVersions
      (fingerprintKey rotationHmac sampleSecret) = some 1 := by
    simp [selectActiveVersion, sampleBefore, History.append, History.start,
      sampleBootstrap]
  have hunregistered : fingerprintKey rotationHmac sampleIncoming ∉
      sampleBefore.tables.keyVersions.map fun kv => kv.fingerprint := by
    change fingerprintKey rotationHmac sampleIncoming ∉
      [fingerprintKey rotationHmac sampleSecret]
    rw [List.mem_singleton, rotation_fingerprint₁, rotation_fingerprint₂]
    exact sampleFingerprint_ne
  have hfresh : sampleMarkerId own ∉
      sampleBefore.tables.rows.map fun row => row.record.eventId := by
    cases own <;> decide
  have hne : sampleSecret ≠ sampleIncoming := by decide
  exact rotateChainKey_of sampleBefore.tables (sampleRequest own) (sampleMarkerId own)
    sampleTime 1 (sampleMarkerRecord own) hne hselect (sampleMarker_fields own).symm
    hfresh hunregistered

def sampleAfterRotation (own : Bool) : History :=
  sampleBefore.rotate (sampleRotated own) 2 sampleIncoming

theorem sample_keyAt_resolves (own : Bool) (n : ℕ) :
    Resolves rotationHmac sampleKeySource sampleUriMap
      ((sampleAfterRotation own).keyAt n) := by
  change Resolves _ _ _ (if n ≤ 2 then sampleSecret else sampleIncoming)
  split
  · exact sample_resolves₁
  · exact sample_resolves₂

/-- A row, a rotation and a row under the incoming key verify. -/
theorem sample_rotation_verifies :
    ∃ s, (rotationHistory rotationHmac sampleBootstrap).Reachable s ∧
      s.tables.rows.map (fun row => row.record.eventId) = [⟨1⟩, ⟨2⟩, ⟨3⟩] ∧
      verifyChainWithRotation rotationHmac sampleKeySource s.tables.rows
        s.tables.keyVersions sampleUriMap = .ok ⟨3, 0, 0, .ok, []⟩ := by
  have h₀ : (rotationHistory rotationHmac sampleBootstrap).Reachable
      (.start rotationHmac sampleBootstrap) := .start rfl
  have h₁ : (rotationHistory rotationHmac sampleBootstrap).Reachable sampleBefore :=
    h₀.next (.append _ sampleRecord₁ rotation_hmac_first.symm List.not_mem_nil)
  have h₂ : (rotationHistory rotationHmac sampleBootstrap).Reachable
      (sampleAfterRotation false) :=
    h₁.next (.rotate _ _ _ sampleTime _ _ rfl (sample_rotate false))
  have h₃ := h₂.next (.append _
    (sampleRecord ⟨3⟩ [] (some sampleDigest₁) afterDigest .unsigned)
    rotation_hmac_after.symm (by decide))
  exact ⟨_, h₃, rfl, (sequential_rotations_verify h₃).2.2 sampleKeySource sampleUriMap
    fun n _ => sample_keyAt_resolves false n⟩

end AgenticGovernance.Audit

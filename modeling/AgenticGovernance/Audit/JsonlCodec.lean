import Mathlib
import AgenticGovernance.Audit.Builder
import AgenticGovernance.Support.PyValue

/-!
# The lines of the JSONL fallback

`_serialize` writes a record as one JSON object and `_deserialize` reads it back
from the parsed line.  The two list the fields of a record by hand: the model and
the three signature fields are in neither list, and `json.dumps` runs without a
`default`, so it refuses metadata that the audit event accepted.

A line is modelled by the value that `json.loads` returns for it, and its texts have
no surrogates.  A record with none of the lost fields comes back unchanged.
-/

namespace AgenticGovernance.Audit

open Support

/-- A record as `_log_unsafe` builds it, with the metadata that the caller gave.
All other fields are in `base`. -/
structure LoggedRecord where
  base : AuditEventRecord
  metadata : List (String × PyValue)
  base_metadata : base.metadata = []

/-- The object that `_serialize` prints, for metadata that reloads as `metadata`. -/
def jsonlLine (r : AuditEventRecord) (metadata : Json) : Json :=
  .obj
    [("event_id", .str r.eventId.str),
     ("session_id", .str r.sessionId.str),
     ("agent_id", .str r.agentId),
     ("parent_event_id", optionalUuid r.parentEventId),
     ("kind", .str r.kind),
     ("input_hash", optionalText r.inputHash),
     ("output_hash", optionalText r.outputHash),
     ("metadata", metadata),
     ("prev_hash", optionalText r.prevHash),
     ("hmac", .str r.hmac),
     ("created_at", .str r.createdAt.isoformat)]

/-- `_serialize`, on a record whose metadata is JSON. -/
def serialize (r : AuditEventRecord) : Json := jsonlLine r (.obj r.metadata)

/-- The dictionary `record.metadata`. -/
def LoggedRecord.dict (r : LoggedRecord) : PyValue :=
  .dict (r.metadata.map fun e => (.str e.1, e.2))

/-- `_serialize`; `none` is the `TypeError` of `json.dumps`. -/
def LoggedRecord.serialize (r : LoggedRecord) : Option Json :=
  r.dict.reload.map (jsonlLine r.base)

/-- A value where the record model wants a string. -/
def asText : Json → Option String
  | .str s => some s
  | _ => none

/-- A value where the record model wants a string or `None`. -/
def asOptionalText : Json → Option (Option String)
  | .null => some none
  | .str s => some (some s)
  | _ => none

/-- `data.get(key)` -/
def getOrNull (data : Json) (key : String) : Json := (data.get? key).getD .null

/-- `bool(value)` -/
def truthy : Json → Bool
  | .null => false
  | .bool b => b
  | .int n => n ≠ 0
  | .float x => ¬x.IsZero
  | .str s => s ≠ ""
  | .arr items => ¬items.isEmpty
  | .obj fields => ¬fields.isEmpty

/-- `UUID(data["parent_event_id"]) if data.get("parent_event_id") else None` -/
def readParent (R : StampReader) (v : Json) : Option (Option Uuid) :=
  if truthy v then (asText v).bind fun s => (R.uuid s).map some else some none

/-- `data.get("metadata") or {}`; the record model refuses what is no object. -/
def readMetadata (v : Json) : Option Metadata :=
  if truthy v then
    match v with
    | .obj m => some m
    | _ => none
  else some []

/-- `_deserialize`; `none` stands for any exception. -/
def deserialize (R : StampReader) (data : Json) : Option AuditEventRecord := do
  let eventId ← R.uuid (← asText (← data.get? "event_id"))
  let sessionId ← R.uuid (← asText (← data.get? "session_id"))
  let agentId ← asText (← data.get? "agent_id")
  let parentEventId ← readParent R (getOrNull data "parent_event_id")
  let kind ← asText (← data.get? "kind")
  let inputHash ← asOptionalText (getOrNull data "input_hash")
  let outputHash ← asOptionalText (getOrNull data "output_hash")
  let metadata ← readMetadata (getOrNull data "metadata")
  let prevHash ← asOptionalText (getOrNull data "prev_hash")
  let hmac ← asText (← data.get? "hmac")
  let createdAt ← R.fromisoformat (← asText (← data.get? "created_at"))
  AuditEventRecord.construct
    { eventId, sessionId, agentId, parentEventId, kind, model := none, inputHash,
      outputHash, metadata, prevHash, createdAt, hmac, signature := none,
      signingKeyFingerprint := none, signatureStatus := .unsigned }

/-! ## Decoding a line -/

/-- What `_deserialize` makes of a line of `r` with the given metadata. -/
def decoded (r : AuditEventRecord) (metadata : Metadata) : AuditEventRecord where
  toRecordFields :=
    { r.toRecordFields with
      metadata := metadata
      model := none
      signature := none
      signingKeyFingerprint := none
      signatureStatus := .unsigned }
  valid :=
    { agentId := r.valid.agentId
      kind := r.valid.kind
      model := by intro t ht; cases ht
      inputHash := r.valid.inputHash
      outputHash := r.valid.outputHash
      prevHash := r.valid.prevHash
      hmac := r.valid.hmac
      signingKeyFingerprint := by intro t ht; cases ht }

@[simp] theorem asOptionalText_optionalText (s : Option String) :
    asOptionalText (optionalText s) = some s := by
  cases s <;> rfl

theorem Uuid.str_ne_empty (u : Uuid) : u.str ≠ "" := by
  intro h
  have hlist := congrArg String.toList h
  simp [Uuid.str, Uuid.dashed] at hlist

@[simp] theorem readParent_optionalUuid (R : StampReader) (u : Option Uuid) :
    readParent R (optionalUuid u) = some u := by
  cases u with
  | none => rfl
  | some u => simp [optionalUuid, readParent, truthy, asText, Uuid.str_ne_empty]

@[simp] theorem readMetadata_obj (m : Metadata) : readMetadata (.obj m) = some m := by
  cases m <;> rfl

theorem deserialize_jsonlLine (R : StampReader) (r : AuditEventRecord) (m : Metadata) :
    deserialize R (jsonlLine r (.obj m)) = some (decoded r m) := by
  rw [← AuditEventRecord.construct_eq_some_iff.mpr
    (rfl : (decoded r m).toRecordFields = (decoded r m).toRecordFields)]
  simp [deserialize, jsonlLine, Json.get?, getOrNull, List.lookup, asText, decoded]

theorem deserialize_serialize (R : StampReader) (r : AuditEventRecord) :
    deserialize R (serialize r) = some (decoded r r.metadata) :=
  deserialize_jsonlLine R r r.metadata

/-! ## Which records come back unchanged -/

/-- A stored record as a `LoggedRecord`. -/
def LoggedRecord.ofRecord (r : AuditEventRecord) : LoggedRecord where
  base := ⟨{ r.toRecordFields with metadata := [] }, { r.valid with }⟩
  metadata := r.metadata.map fun e => (e.1, PyValue.ofJson e.2)
  base_metadata := rfl

namespace LoggedRecord

variable {R : StampReader} {r : LoggedRecord}

/-- The metadata consists of JSON values: string keys, no tuples, no objects of
other types. -/
def PlainMetadata (r : LoggedRecord) : Prop :=
  ∃ m : Metadata, (Json.obj m).DistinctKeys ∧
    r.metadata = m.map fun e => (e.1, PyValue.ofJson e.2)

/-- The fields that `_serialize` leaves out have their default. -/
structure DefaultsOnly (r : AuditEventRecord) : Prop where
  model : r.model = none
  signature : r.signature = none
  signingKeyFingerprint : r.signingKeyFingerprint = none
  signatureStatus : r.signatureStatus = .unsigned

/-- Then nothing is lost on the way through a line. -/
theorem DefaultsOnly.decoded_eq {r : AuditEventRecord} (h : DefaultsOnly r) :
    decoded r r.metadata = r := by
  obtain ⟨⟨content, hmac, signature, fingerprint, status⟩, valid⟩ := r
  obtain ⟨hmodel, hsignature, hfingerprint, hstatus⟩ := h
  cases content
  dsimp only at hmodel hsignature hfingerprint hstatus
  subst hmodel hsignature hfingerprint hstatus
  rfl

theorem ofFields_eq_map (m : Metadata) :
    PyValue.ofFields m = m.map fun e => (.str e.1, PyValue.ofJson e.2) := by
  induction m with
  | nil => rfl
  | cons e m ih => rw [PyValue.ofFields, ih, List.map_cons]

theorem dict_eq_ofJson {m : Metadata}
    (h : r.metadata = m.map fun e => (e.1, PyValue.ofJson e.2)) :
    r.dict = PyValue.ofJson (.obj m) := by
  rw [dict, h, PyValue.ofJson, ofFields_eq_map, List.map_map]
  rfl

end LoggedRecord

/-! ## Verifying a decoded record -/

theorem verifyEvent_decoded {r : AuditEventRecord} (hmodel : r.model = none) (H : Hmac)
    (secret : Bytes) :
    verifyEvent H (decoded r r.metadata) secret = verifyEvent H r secret := by
  have hcontent : (decoded r r.metadata).toEventContent = r.toEventContent := by
    change { r.toEventContent with model := none } = _
    rw [← hmodel]
  change compareDigest (computeEventHmac H secret (decoded r r.metadata).toEventContent)
    r.hmac = _
  rw [hcontent]
  rfl

/-! ### A record with a model -/

def modelContent : EventContent := { sampleFirst with model := some "gpt-4o" }

def modelDigest : BitVec 256 :=
  0xb6fa19c0f753620aa5dea679e8352cb3bb6fefe1c34dcd9edf3a222f0cd7e5c0#256

/-- HMAC-SHA256 on the record with its model and without it. -/
def modelHmac : Hmac :=
  .ofTable
    [tableEntry sampleSecret modelContent modelDigest,
     tableEntry sampleSecret sampleFirst sampleDigest₁]

def modelRecord : AuditEventRecord where
  toRecordFields := ⟨modelContent, digestText modelDigest, none, none, .unsigned⟩
  valid :=
    { sample_valid ⟨1⟩ sampleFirst.metadata none modelDigest .unsigned with
      model := by
        intro t ht
        obtain rfl := Option.some.inj ht
        decide }

theorem modelRecord_verifies :
    verifyEvent modelHmac modelRecord sampleSecret = .ok true :=
  verifyEvent_eq_ok_true_iff.mpr (computeEventHmac_ofTable_self _ _).symm

end AgenticGovernance.Audit

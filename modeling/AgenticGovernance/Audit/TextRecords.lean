import Mathlib
import AgenticGovernance.Audit.JsonlCodec
import AgenticGovernance.Support.PyObject

/-!
# Lines of records with any texts

The texts and keys in the metadata of a record may have surrogates, at every depth: the other
texts may not, since their fields are bounded and the record model reads them as UTF-8.  Here
`_serialize`, `_deserialize` and `verify_event` are those of such a record.

`TextRecord.roundTrips_iff` says which records come back unchanged.  On Unicode texts the two
functions are those of the module before.
-/

namespace AgenticGovernance.Audit

open Support

/-- A record as `_log_unsafe` builds it, with its metadata as Python holds it.  All other fields
are in `base`. -/
structure TextRecord where
  base : AuditEventRecord
  metadata : List (PyText × PyObject)
  base_metadata : base.metadata = []

/-- The value of a field that is a Unicode text. -/
def textObject (s : String) : PyObject := .str (.ofString s)

def optionalObject (s : Option String) : PyObject := s.elim .none textObject

/-- The dictionary that `_serialize` prints. -/
def linePayload (r : AuditEventRecord) (metadata : PyObject) : PyObject :=
  .display
    [("event_id", textObject r.eventId.str),
     ("session_id", textObject r.sessionId.str),
     ("agent_id", textObject r.agentId),
     ("parent_event_id", optionalObject (r.parentEventId.map Uuid.str)),
     ("kind", textObject r.kind),
     ("input_hash", optionalObject r.inputHash),
     ("output_hash", optionalObject r.outputHash),
     ("metadata", metadata),
     ("prev_hash", optionalObject r.prevHash),
     ("hmac", textObject r.hmac),
     ("created_at", textObject r.createdAt.isoformat)]

namespace TextRecord

def dict (r : TextRecord) : PyObject := .ofPairs r.metadata

/-- `_serialize`, as the value that `json.loads` reads from the line; `none` is the `TypeError`
of `json.dumps`. -/
def serialize (r : TextRecord) : Option PyObject := (linePayload r.base r.dict).reload

/-- A record of the model, with the given metadata in place of its own. -/
def withMetadata (r : AuditEventRecord) (metadata : List (PyText × PyObject)) : TextRecord where
  base := (LoggedRecord.ofRecord r).base
  metadata := metadata
  base_metadata := (LoggedRecord.ofRecord r).base_metadata

end TextRecord

/-! ## Reading a line -/

/-- A value where the record model wants a string. -/
def objectText : PyObject → Option String
  | .str s => s.encodeUtf8
  | _ => none

/-- A value where the record model wants a string or `None`. -/
def objectOptionalText : PyObject → Option (Option String)
  | .none => some none
  | .str s => s.encodeUtf8.map some
  | _ => none

/-- `data[key]` -/
def lineField (data : PyObject) (key : String) : Option PyObject := data.get? (.ofString key)

/-- `data.get(key)` -/
def lineFieldOrNone (data : PyObject) (key : String) : PyObject :=
  (lineField data key).getD .none

/-- `UUID(data["parent_event_id"]) if data.get("parent_event_id") else None` -/
def objectParent (R : StampReader) (v : PyObject) : Option (Option Uuid) :=
  if v.truthy then (objectText v).bind fun s => (R.uuid s).map some else some none

/-- A key where the record model wants a string. -/
def textKey : ObjectKey × PyObject → Option (PyText × PyObject)
  | (.str s, v) => some (s, v)
  | _ => none

/-- `data.get("metadata") or {}`; the record model refuses what is no dictionary of
strings. -/
def objectMetadata (v : PyObject) : Option (List (PyText × PyObject)) :=
  if v.truthy then
    match v with
    | .dict entries => entries.mapM textKey
    | _ => none
  else some []

namespace TextRecord

/-- `_deserialize`; `none` stands for any exception. -/
def deserialize (R : StampReader) (data : PyObject) : Option TextRecord := do
  let eventId ← R.uuid (← objectText (← lineField data "event_id"))
  let sessionId ← R.uuid (← objectText (← lineField data "session_id"))
  let agentId ← objectText (← lineField data "agent_id")
  let parentEventId ← objectParent R (lineFieldOrNone data "parent_event_id")
  let kind ← objectText (← lineField data "kind")
  let inputHash ← objectOptionalText (lineFieldOrNone data "input_hash")
  let outputHash ← objectOptionalText (lineFieldOrNone data "output_hash")
  let metadata ← objectMetadata (lineFieldOrNone data "metadata")
  let prevHash ← objectOptionalText (lineFieldOrNone data "prev_hash")
  let hmac ← objectText (← lineField data "hmac")
  let createdAt ← R.fromisoformat (← objectText (← lineField data "created_at"))
  let base ← AuditEventRecord.construct
    { eventId, sessionId, agentId, parentEventId, kind, model := none, inputHash,
      outputHash, metadata := [], prevHash, createdAt, hmac, signature := none,
      signingKeyFingerprint := none, signatureStatus := .unsigned }
  return .withMetadata base metadata

/-! ## Verifying -/

/-- The dictionary that `compute_event_hmac` serializes. -/
def hmacPayload (r : TextRecord) : PyObject :=
  .display
    [("event_id", textObject r.base.eventId.str),
     ("session_id", textObject r.base.sessionId.str),
     ("agent_id", textObject r.base.agentId),
     ("parent_event_id", optionalObject (r.base.parentEventId.map Uuid.str)),
     ("kind", textObject r.base.kind),
     ("model", optionalObject r.base.model),
     ("input_hash", optionalObject r.base.inputHash),
     ("output_hash", optionalObject r.base.outputHash),
     ("metadata", r.dict),
     ("prev_hash", optionalObject r.base.prevHash),
     ("created_at", textObject r.base.createdAt.isoformat)]

-- the text that `canonical_json` prints, `none` if it raises
variable (canonicalJson : PyObject → Option String) (H : Hmac) (secret : Bytes)

/-- `verify_event`; `none` if `canonical_json` raises. -/
def verifyEvent (r : TextRecord) : Option (Except PyError Bool) :=
  (canonicalJson r.hmacPayload).map fun payload =>
    compareDigest (H.hexdigest secret payload) r.base.hmac

/-- A stored record, whose texts are all Unicode. -/
def ofLogged (r : LoggedRecord) : TextRecord where
  base := r.base
  metadata := r.metadata.map fun e => (.ofString e.1, .ofValue e.2)
  base_metadata := r.base_metadata

end TextRecord

/-! ## The two on a line -/

section Line

variable {R : StampReader} {r : AuditEventRecord}

@[simp] theorem reload_textObject (s : String) :
    (textObject s).reload = some (textObject s) := by
  rw [textObject, PyObject.reload, PyText.reload_ofString]

@[simp] theorem reload_optionalObject (s : Option String) :
    (optionalObject s).reload = some (optionalObject s) := by
  cases s with
  | none => rfl
  | some s => exact reload_textObject s

/-- Only the metadata can change on the way through `json`. -/
theorem reload_linePayload (r : AuditEventRecord) (metadata : PyObject) :
    (linePayload r metadata).reload = metadata.reload.map (linePayload r) := by
  rw [linePayload, PyObject.reload_display (by simp)]
  simp only [PyObject.reloadValues, List.mapM_cons, List.mapM_nil, reload_textObject,
    reload_optionalObject, Option.map_some]
  cases metadata.reload <;> rfl

@[simp] theorem objectText_textObject (s : String) : objectText (textObject s) = some s :=
  PyText.encodeUtf8_ofString s

@[simp] theorem objectOptionalText_optionalObject (s : Option String) :
    objectOptionalText (optionalObject s) = some s := by
  cases s with
  | none => rfl
  | some s => exact congrArg (Option.map some) (PyText.encodeUtf8_ofString s)

@[simp] theorem objectParent_optionalObject (R : StampReader) (u : Option Uuid) :
    objectParent R (optionalObject (u.map Uuid.str)) = some u := by
  cases u with
  | none => rfl
  | some u =>
      have htruthy : (textObject u.str).truthy = true := by
        have hne : u.str.toList ≠ [] := by simpa using Uuid.str_ne_empty u
        simpa [textObject, PyObject.truthy, PyText.ofString] using hne
      simp [optionalObject, objectParent, htruthy]

@[simp] theorem objectMetadata_ofPairs (pairs : List (PyText × PyObject)) :
    objectMetadata (.ofPairs pairs) = some pairs := by
  have hkeys : ∀ pairs : List (PyText × PyObject),
      (pairs.map fun e => (ObjectKey.str e.1, e.2)).mapM textKey = some pairs := by
    intro pairs
    induction pairs with
    | nil => rfl
    | cons e pairs ih => simp [textKey, ih]
  cases pairs with
  | nil => rfl
  | cons e pairs => exact hkeys (e :: pairs)

theorem deserialize_linePayload (R : StampReader) (r : AuditEventRecord)
    (metadata : List (PyText × PyObject)) :
    TextRecord.deserialize R (linePayload r (.ofPairs metadata)) =
      some (.withMetadata (decoded r []) metadata) := by
  have hconstruct := AuditEventRecord.construct_eq_some_iff.mpr
    (rfl : (decoded r []).toRecordFields = (decoded r []).toRecordFields)
  simp only [TextRecord.deserialize, lineField, lineFieldOrNone, linePayload,
    PyObject.get?_display]
  simp [List.lookup]
  change (AuditEventRecord.construct (decoded r []).toRecordFields).bind _ = _
  rw [hconstruct, Option.bind_some]

end Line

/-! ## Which records come back unchanged -/

namespace TextRecord

variable {R : StampReader} {r : TextRecord}

/-- `_serialize` succeeds, and `_deserialize` of the parsed line is a record equal to `r`, on
which `verify_event` decides as on `r`. -/
def RoundTrips (R : StampReader) (r : TextRecord) : Prop :=
  ∃ line r', r.serialize = some line ∧ deserialize R line = some r' ∧ r' = r ∧
    ∀ canonicalJson H secret,
      verifyEvent canonicalJson H secret r' = verifyEvent canonicalJson H secret r

/-- The metadata is JSON, and no text or key in it has a high surrogate before a low one. -/
def PlainMetadata (r : TextRecord) : Prop := r.dict.Plain

/-- What is read back has none of the fields that `_serialize` leaves out. -/
theorem defaultsOnly_decoded (r : AuditEventRecord) (metadata : List (PyText × PyObject)) :
    LoggedRecord.DefaultsOnly (withMetadata (decoded r []) metadata).base :=
  ⟨rfl, rfl, rfl, rfl⟩

theorem withMetadata_decoded (h : LoggedRecord.DefaultsOnly r.base) :
    withMetadata (decoded r.base []) r.metadata = r := by
  obtain ⟨⟨⟨content, hmac, signature, fingerprint, status⟩, valid⟩, metadata, hbase⟩ := r
  obtain ⟨hmodel, hsignature, hfingerprint, hstatus⟩ := h
  cases content
  dsimp only at hbase hmodel hsignature hfingerprint hstatus
  subst hbase hmodel hsignature hfingerprint hstatus
  rfl

/-- A record round-trips exactly if it has no model and no signature, and its metadata is JSON
in whose texts no high surrogate stands before a low one. -/
theorem roundTrips_iff :
    r.RoundTrips R ↔ LoggedRecord.DefaultsOnly r.base ∧ r.PlainMetadata := by
  constructor
  · intro ⟨line, r', hline, hread, hsame, _⟩
    rw [serialize, reload_linePayload] at hline
    obtain ⟨v, hv, rfl⟩ := Option.map_eq_some_iff.mp hline
    obtain ⟨metadata, rfl⟩ := PyObject.exists_of_reload_ofPairs hv
    rw [deserialize_linePayload] at hread
    obtain rfl := Option.some.inj hread
    have hdict : r.dict = .ofPairs metadata := by
      rw [← hsame]
      rfl
    refine ⟨?_, ?_⟩
    · rw [← hsame]
      exact defaultsOnly_decoded _ _
    · rw [PlainMetadata, hdict]
      exact PyObject.plain_of_reload _ hv
  · intro ⟨hfields, hplain⟩
    have hdict : r.dict.reload = some r.dict := PyObject.reload_eq_some_self_iff.mpr hplain
    have hsame := withMetadata_decoded hfields
    refine ⟨_, _, ?_, deserialize_linePayload R r.base r.metadata, hsame, ?_⟩
    · rw [serialize, reload_linePayload, hdict]
      rfl
    · intro canonicalJson H secret
      rw [hsame]

end TextRecord

/-! ## Unicode texts -/

section Unicode

variable {R : StampReader} {r : LoggedRecord}

theorem dict_ofLogged (r : LoggedRecord) : (TextRecord.ofLogged r).dict = .ofValue r.dict := by
  have hentries : ∀ entries : List (String × PyValue),
      PyObject.ofEntries (entries.map fun e => (.str e.1, e.2)) =
        (entries.map fun e => (PyText.ofString e.1, PyObject.ofValue e.2)).map
          fun e => (ObjectKey.str e.1, e.2) := by
    intro entries
    induction entries with
    | nil => rfl
    | cons e entries ih =>
        rw [List.map_cons, PyObject.ofEntries, ih]
        rfl
  rw [LoggedRecord.dict, PyObject.ofValue, hentries]
  rfl

@[simp] theorem ofJson_str (s : String) : PyObject.ofJson (.str s) = textObject s := rfl

@[simp] theorem ofJson_optionalText (s : Option String) :
    PyObject.ofJson (optionalText s) = optionalObject s := by
  cases s <;> rfl

@[simp] theorem ofJson_optionalUuid (u : Option Uuid) :
    PyObject.ofJson (optionalUuid u) = optionalObject (u.map Uuid.str) := by
  cases u <;> rfl

theorem ofJson_jsonlLine (r : AuditEventRecord) (metadata : Json) :
    PyObject.ofJson (jsonlLine r metadata) = linePayload r (.ofJson metadata) := by
  rw [jsonlLine, PyObject.ofJson_obj]
  simp [linePayload, PyObject.display, PyObject.ofFields]

/-- On a record of Unicode texts the line is the one that `LoggedRecord.serialize` writes. -/
theorem serialize_ofLogged (r : LoggedRecord) :
    (TextRecord.ofLogged r).serialize = r.serialize.map PyObject.ofJson := by
  rw [TextRecord.serialize, reload_linePayload, dict_ofLogged, PyObject.reload_ofValue,
    LoggedRecord.serialize, Option.map_map, Option.map_map]
  congr 1
  funext metadata
  exact (ofJson_jsonlLine r.base metadata).symm

theorem lineField_ofJson (line : Json) (key : String) :
    lineField (.ofJson line) key = (line.get? key).map PyObject.ofJson := by
  cases line with
  | obj fields =>
      have hdisplay : PyObject.ofPairs (PyObject.ofFields fields) =
          .display (fields.map fun e => (e.1, PyObject.ofJson e.2)) := by
        rw [PyObject.display, List.map_map]
        rfl
      rw [PyObject.ofJson_obj, hdisplay, lineField, PyObject.get?_display, Json.get?]
      exact lookup_map_snd _ key fields
  | _ => rfl

theorem lineFieldOrNone_ofJson (line : Json) (key : String) :
    lineFieldOrNone (.ofJson line) key = .ofJson (getOrNull line key) := by
  rw [lineFieldOrNone, lineField_ofJson, getOrNull]
  cases line.get? key <;> rfl

theorem truthy_ofJson (v : Json) : (PyObject.ofJson v).truthy = truthy v := by
  cases v with
  | str s => simp [textObject, PyObject.truthy, truthy, PyText.ofString]
  | arr items => cases items <;> rfl
  | obj fields => cases fields <;> rfl
  | _ => rfl

theorem objectText_ofJson (v : Json) : objectText (.ofJson v) = asText v := by
  cases v with
  | str s => exact objectText_textObject s
  | _ => rfl

theorem objectOptionalText_ofJson (v : Json) :
    objectOptionalText (.ofJson v) = asOptionalText v := by
  cases v with
  | str s => exact objectOptionalText_optionalObject (some s)
  | _ => rfl

theorem objectParent_ofJson (R : StampReader) (v : Json) :
    objectParent R (.ofJson v) = readParent R v := by
  rw [objectParent, readParent, truthy_ofJson, objectText_ofJson]

theorem objectMetadata_ofJson (v : Json) :
    objectMetadata (.ofJson v) = (readMetadata v).map PyObject.ofFields := by
  cases v with
  | obj fields =>
      rw [PyObject.ofJson_obj, objectMetadata_ofPairs, readMetadata_obj, Option.map_some]
  | _ =>
      unfold objectMetadata readMetadata
      rw [truthy_ofJson]
      split <;> rfl

/-- Whether the record model takes the fields does not depend on the metadata. -/
theorem construct_withMetadata (f : RecordFields) (m : Metadata) :
    ((AuditEventRecord.construct f).bind fun base =>
        some (TextRecord.withMetadata base (PyObject.ofFields m))) =
      (AuditEventRecord.construct { f with metadata := m }).map fun r =>
        .ofLogged (.ofRecord r) := by
  have hvalid : ({ f with metadata := m } : RecordFields).Valid ↔ f.Valid :=
    ⟨fun h => { h with }, fun h => { h with }⟩
  by_cases hf : f.Valid
  · rw [AuditEventRecord.construct, AuditEventRecord.construct, dif_pos hf,
      dif_pos (hvalid.mpr hf), Option.bind_some, Option.map_some, Option.some.injEq,
      TextRecord.withMetadata, TextRecord.ofLogged, TextRecord.mk.injEq]
    refine ⟨rfl, ?_⟩
    rw [LoggedRecord.ofRecord, List.map_map]
    rfl
  · rw [AuditEventRecord.construct, AuditEventRecord.construct, dif_neg hf,
      dif_neg (hvalid.not.mpr hf)]
    rfl

section Bind

variable {α β γ δ : Type} {f : γ → β}

/-- Two readers in step: the second reads what the first reads, before `g`. -/
theorem bind_map_eq (x : Option α) (g : α → δ) {F : δ → Option β} {G : α → Option γ}
    (h : ∀ a, F (g a) = (G a).map f) : (x.map g).bind F = (x.bind G).map f := by
  cases x with
  | none => rfl
  | some a => exact h a

theorem bind_eq_map (x : Option α) {F : α → Option β} {G : α → Option γ}
    (h : ∀ a, F a = (G a).map f) : x.bind F = (x.bind G).map f := by
  rw [← bind_map_eq x id h, Option.map_id, id]

theorem bind_text_eq (x : Option Json) {F : String → Option β} {G : String → Option γ}
    (h : ∀ s, F s = (G s).map f) :
    ((x.map PyObject.ofJson).bind fun v => (objectText v).bind F) =
      (x.bind fun v => (asText v).bind G).map f := by
  refine bind_map_eq x PyObject.ofJson fun v => ?_
  rw [objectText_ofJson]
  exact bind_eq_map (asText v) h

end Bind

/-- On a line of Unicode texts `TextRecord.deserialize` reads the record that `deserialize`
does. -/
theorem deserialize_ofJson (R : StampReader) (line : Json) :
    TextRecord.deserialize R (.ofJson line) =
      (deserialize R line).map fun r => .ofLogged (.ofRecord r) := by
  rw [TextRecord.deserialize, deserialize]
  simp only [lineField_ofJson, lineFieldOrNone_ofJson, objectParent_ofJson, objectMetadata_ofJson,
    objectOptionalText_ofJson]
  -- field by field, in the order in which the two functions read them
  repeat'
    first
    | refine bind_text_eq _ fun _ => ?_
    | refine bind_eq_map _ fun _ => ?_
    | refine bind_map_eq _ _ fun _ => ?_
  exact construct_withMetadata _ _

theorem hmacPayload_ofRecord (r : AuditEventRecord) :
    (TextRecord.ofLogged (.ofRecord r)).hmacPayload =
      .ofJson (eventPayload r.toEventContent) := by
  have hdict : (TextRecord.ofLogged (.ofRecord r)).dict = .ofJson (.obj r.metadata) := by
    rw [dict_ofLogged, PyObject.ofJson, LoggedRecord.dict_eq_ofJson rfl]
  rw [eventPayload, PyObject.ofJson_obj]
  simp [TextRecord.hmacPayload, hdict, PyObject.display, PyObject.ofFields]
  rfl

/-- `verify_event` of a record of Unicode texts is that of the chain, if `canonical_json` prints
JSON as there. -/
theorem verifyEvent_ofRecord {canonicalJson : PyObject → Option String}
    (hcanonical : ∀ j : Json, canonicalJson (.ofJson j) = some j.canonical) (H : Hmac)
    (secret : Bytes) (r : AuditEventRecord) :
    TextRecord.verifyEvent canonicalJson H secret (.ofLogged (.ofRecord r)) =
      some (verifyEvent H r secret) := by
  rw [TextRecord.verifyEvent, hmacPayload_ofRecord, hcanonical]
  rfl

end Unicode

/-- The record with a model is read back without it, and no longer verifies. -/
theorem model_record_not_roundTrips :
    verifyEvent modelHmac modelRecord sampleSecret = .ok true ∧
    ∀ R : StampReader, ¬(TextRecord.ofLogged (.ofRecord modelRecord)).RoundTrips R ∧
      ∃ line r, (TextRecord.ofLogged (.ofRecord modelRecord)).serialize = some (.ofJson line) ∧
        TextRecord.deserialize R (.ofJson line) = some (.ofLogged (.ofRecord r)) ∧
        verifyEvent modelHmac r sampleSecret ≠ .ok true := by
  refine ⟨modelRecord_verifies, fun R =>
    ⟨?_, serialize modelRecord, decoded modelRecord modelRecord.metadata, ?_, ?_, ?_⟩⟩
  · rw [TextRecord.roundTrips_iff]
    intro ⟨hfields, _⟩
    cases hfields.model
  · rw [serialize_ofLogged]
    rfl
  · rw [deserialize_ofJson, deserialize_serialize]
    rfl
  · have hne : (sampleSecret, (eventPayload sampleFirst).canonical) ≠
        (sampleSecret, (eventPayload modelContent).canonical) := by
      intro h
      cases (eventPayload_inj (congrArg Prod.snd h)).model
    have hmac : computeEventHmac modelHmac sampleSecret sampleFirst =
        digestText sampleDigest₁ := by
      rw [modelHmac, computeEventHmac_ofTable_of_message_ne hne]
      exact computeEventHmac_ofTable_self _ _
    rw [Ne, verifyEvent_eq_ok_true_iff]
    change ¬digestText modelDigest = computeEventHmac modelHmac sampleSecret sampleFirst
    rw [hmac]
    exact fun h => absurd (digestText_injective h) (by decide)

end AgenticGovernance.Audit

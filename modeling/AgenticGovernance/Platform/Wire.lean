import AgenticGovernance.Audit.Module
import AgenticGovernance.Identity.Verdict
import AgenticGovernance.Support.Keyed

/-!
# The wire format of the platform

`_event_to_wire` spreads a record over a dictionary and its payload, leaves out the optional
fields that are `None`, and folds a `prev_hash` of `None` into the empty string.  `decodeWire`
reads the inputs of the HMAC and the HMAC back.

The only records that the format confuses are those with a `prev_hash` of `None` and of `""`,
and a record of `AuditModule.log` never has the second: its `prev_hash` is the HMAC of a
stored record.
-/

namespace AgenticGovernance.Platform

open Support Audit

/-! ## The wire body -/

/-- `key: value`, unless the value is `None`. -/
def optionalEntry (key : String) (value : Option PyValue) : List (PyKey × PyValue) :=
  value.toList.map fun v => (.str key, v)

/-- `signature.hex()` -/
def hexText (bytes : Bytes) : String :=
  String.ofList (bytes.flatMap fun b => fixedDigits 16 2 b.toNat)

def denySegments : List String := ["denied", "violation", "exceeded", "halted"]

def allowSegments : List String := ["granted", "allowed"]

/-- `_infer_decision` -/
def inferDecision (kind : String) : Option String :=
  let segments := kind.splitOn "."
  if segments.any fun s => s ∈ denySegments then some "deny"
  else if segments.any fun s => s ∈ allowSegments then some "allow"
  else none

/-- The payload of `_event_to_wire`. -/
def wirePayload (r : LoggedRecord) : List (PyKey × PyValue) :=
  (.str "session_id", .str r.base.sessionId.str) ::
    (.str "kind", .str r.base.kind) ::
    (.str "created_at", .str r.base.createdAt.isoformat) ::
    (.str "metadata", r.dict) ::
    (optionalEntry "parent_event_id" (r.base.parentEventId.map fun id => .str id.str) ++
      (optionalEntry "model" (r.base.model.map .str) ++
      (optionalEntry "input_hash" (r.base.inputHash.map .str) ++
      (optionalEntry "output_hash" (r.base.outputHash.map .str) ++
      (optionalEntry "signing_key_fingerprint" (r.base.signingKeyFingerprint.map .str) ++
      (.str "signature_status", .str (Identity.statusValue r.base.signatureStatus)) ::
      optionalEntry "signature_hex" (r.base.signature.map fun s => .str (hexText s)))))))

/-- The entries of `_event_to_wire`. -/
def wireEntries (sdkVersion : String) (r : LoggedRecord) (seq : ℤ) : List (PyKey × PyValue) :=
  (.str "event_id", .str r.base.eventId.str) ::
    (.str "event_type", .str r.base.kind) ::
    (.str "agent_id", .str r.base.agentId) ::
    (.str "seq", .int seq) ::
    (.str "payload", .dict (wirePayload r)) ::
    (.str "prev_hash", .str (r.base.prevHash.getD "")) ::
    (.str "client_hmac", .str r.base.hmac) ::
    (.str "sdk_version", .str sdkVersion) ::
    optionalEntry "decision" ((inferDecision r.base.kind).map .str)

/-- `_event_to_wire` -/
def eventToWire (sdkVersion : String) (r : LoggedRecord) (seq : ℤ) : PyValue :=
  .dict (wireEntries sdkVersion r seq)

/-! ## Reading it back -/

/-- The arguments of `compute_event_hmac`, with the metadata apart as the caller gave it. -/
structure HmacInputs where
  content : EventContent
  metadata : List (String × PyValue)

def hmacInputs (r : LoggedRecord) : HmacInputs := ⟨r.base.toEventContent, r.metadata⟩

/-- `value.get(key)`, with `none` also for a value that is no dictionary. -/
def item? (value : PyValue) (key : String) : Option PyValue :=
  match value with
  | .dict entries => entries.lookup (.str key)
  | _ => none

def readText : PyValue → Option String
  | .str s => some s
  | _ => none

def readUuid (R : StampReader) (value : PyValue) : Option Uuid :=
  (readText value).bind R.uuid

/-- A field that may be absent; an absent field is `None`. -/
def readOptional {α : Type} (read : PyValue → Option α) : Option PyValue → Option (Option α)
  | none => some none
  | some value => (read value).map some

/-- A dictionary whose keys are strings. -/
def readStringKeyed : List (PyKey × PyValue) → Option (List (String × PyValue))
  | [] => some []
  | (.str key, value) :: entries => (readStringKeyed entries).map ((key, value) :: ·)
  | _ => none

def readDict : PyValue → Option (List (String × PyValue))
  | .dict entries => readStringKeyed entries
  | _ => none

/-- The empty string is the `prev_hash` of a root. -/
def readPrevHash (text : String) : Option String := if text = "" then none else some text

/-- The inputs of the HMAC, and the HMAC. -/
def decodeWire (R : StampReader) (body : PyValue) : Option (HmacInputs × String) := do
  let payload ← item? body "payload"
  let eventId ← readUuid R (← item? body "event_id")
  let agentId ← readText (← item? body "agent_id")
  let prevHash ← readText (← item? body "prev_hash")
  let hmac ← readText (← item? body "client_hmac")
  let sessionId ← readUuid R (← item? payload "session_id")
  let kind ← readText (← item? payload "kind")
  let createdAt ← R.fromisoformat (← readText (← item? payload "created_at"))
  let metadata ← readDict (← item? payload "metadata")
  let parentEventId ← readOptional (readUuid R) (item? payload "parent_event_id")
  let model ← readOptional readText (item? payload "model")
  let inputHash ← readOptional readText (item? payload "input_hash")
  let outputHash ← readOptional readText (item? payload "output_hash")
  let content : EventContent :=
    { eventId, sessionId, agentId, parentEventId, kind, model, inputHash, outputHash,
      metadata := [], prevHash := readPrevHash prevHash, createdAt }
  some (⟨content, metadata⟩, hmac)

/-! ## What each field reads -/

section Entries

variable {key key' : String} {value : Option PyValue} {rest : List (PyKey × PyValue)}

theorem lookup_cons_str {v : PyValue} (hne : key' ≠ key) :
    ((PyKey.str key, v) :: rest).lookup (.str key') = rest.lookup (.str key') := by
  have hkey : PyKey.str key' ≠ PyKey.str key := by
    intro h
    exact hne (PyKey.str.inj h)
  exact Keyed.lookup_cons_of_ne hkey v rest

theorem lookup_optionalEntry_self (habsent : rest.lookup (.str key) = none) :
    (optionalEntry key value ++ rest).lookup (.str key) = value := by
  cases value with
  | none => exact habsent
  | some v => exact Keyed.lookup_cons_self v rest

theorem lookup_optionalEntry_of_ne (hne : key' ≠ key) :
    (optionalEntry key value ++ rest).lookup (.str key') = rest.lookup (.str key') := by
  cases value with
  | none => rfl
  | some v => exact lookup_cons_str hne

theorem lookup_optionalEntry (hne : key' ≠ key) :
    (optionalEntry key value).lookup (.str key') = none := by
  rw [← List.append_nil (optionalEntry key value), lookup_optionalEntry_of_ne hne]
  rfl

end Entries

theorem bind_of_eq {α β : Type} {x : Option α} {a : α} {f : α → Option β} (h : x = some a) :
    x >>= f = f a := by
  rw [h]
  rfl

@[simp] theorem readText_str (s : String) : readText (.str s) = some s := rfl

@[simp] theorem readUuid_str (R : StampReader) (u : Uuid) :
    readUuid R (.str u.str) = some u :=
  R.uuid_str u

/-- An optional field that is written and read in inverse ways comes back. -/
theorem readOptional_map {α : Type} {read : PyValue → Option α} {write : α → PyValue}
    (h : ∀ a, read (write a) = some a) (o : Option α) :
    readOptional read (o.map write) = some o := by
  cases o with
  | none => rfl
  | some a =>
      rw [Option.map_some, readOptional, h]
      rfl

theorem readStringKeyed_map (metadata : List (String × PyValue)) :
    readStringKeyed (metadata.map fun e => (.str e.1, e.2)) = some metadata := by
  induction metadata with
  | nil => rfl
  | cons e metadata ih =>
      rw [List.map_cons, readStringKeyed, ih]
      rfl

@[simp] theorem readDict_dict (r : LoggedRecord) : readDict r.dict = some r.metadata :=
  readStringKeyed_map r.metadata

/-- Only the empty string is lost. -/
theorem readPrevHash_getD {prevHash : Option String} (h : prevHash ≠ some "") :
    readPrevHash (prevHash.getD "") = prevHash := by
  cases prevHash with
  | none => rfl
  | some text =>
      rw [Option.getD_some, readPrevHash, if_neg]
      intro hempty
      exact h (congrArg some hempty)

/-! ## The decoder inverts the encoder -/

section Decode

variable (sdkVersion : String) (r : LoggedRecord) (seq : ℤ)

/-- The optional fields of the payload, each in its own entry. -/
theorem item?_wirePayload :
    let payload := PyValue.dict (wirePayload r)
    item? payload "parent_event_id" = r.base.parentEventId.map (fun id => .str id.str) ∧
      item? payload "model" = r.base.model.map .str ∧
      item? payload "input_hash" = r.base.inputHash.map .str ∧
      item? payload "output_hash" = r.base.outputHash.map .str := by
  refine ⟨?_, ?_, ?_, ?_⟩
  all_goals
    simp +decide only [item?, wirePayload, lookup_cons_str, ne_eq, lookup_optionalEntry_of_ne]
    apply lookup_optionalEntry_self
    simp +decide only [lookup_cons_str, ne_eq, lookup_optionalEntry_of_ne, lookup_optionalEntry]

/-- `decodeWire` inverts `_event_to_wire`, unless the record has an empty `prev_hash`. -/
theorem decodeWire_eventToWire (R : StampReader) (hprev : r.base.prevHash ≠ some "") :
    decodeWire R (eventToWire sdkVersion r seq) = some (hmacInputs r, r.base.hmac) := by
  obtain ⟨hparent, hmodel, hinput, houtput⟩ := item?_wirePayload r
  have hcontent : { r.base.toEventContent with metadata := [] } = r.base.toEventContent := by
    rw [← r.base_metadata]
  have hpayload : item? (eventToWire sdkVersion r seq) "payload" =
      some (.dict (wirePayload r)) := rfl
  have hevent : item? (eventToWire sdkVersion r seq) "event_id" =
      some (.str r.base.eventId.str) := rfl
  have hagent : item? (eventToWire sdkVersion r seq) "agent_id" = some (.str r.base.agentId) :=
    rfl
  have hprevHash : item? (eventToWire sdkVersion r seq) "prev_hash" =
      some (.str (r.base.prevHash.getD "")) := rfl
  have hhmac : item? (eventToWire sdkVersion r seq) "client_hmac" = some (.str r.base.hmac) :=
    rfl
  have hsession : item? (.dict (wirePayload r)) "session_id" =
      some (.str r.base.sessionId.str) := rfl
  have hkind : item? (.dict (wirePayload r)) "kind" = some (.str r.base.kind) := rfl
  have hcreated : item? (.dict (wirePayload r)) "created_at" =
      some (.str r.base.createdAt.isoformat) := rfl
  have hmetadata : item? (.dict (wirePayload r)) "metadata" = some r.dict := rfl
  have hparentRead := readOptional_map (readUuid_str R) r.base.parentEventId
  have htextRead := readOptional_map readText_str
  rw [decodeWire, bind_of_eq hpayload, bind_of_eq hevent, bind_of_eq (readUuid_str R _),
    bind_of_eq hagent, bind_of_eq (readText_str _), bind_of_eq hprevHash,
    bind_of_eq (readText_str _), bind_of_eq hhmac, bind_of_eq (readText_str _),
    bind_of_eq hsession, bind_of_eq (readUuid_str R _), bind_of_eq hkind,
    bind_of_eq (readText_str _), bind_of_eq hcreated, bind_of_eq (readText_str _),
    bind_of_eq (R.fromisoformat_isoformat _), bind_of_eq hmetadata, bind_of_eq (readDict_dict r),
    hparent, hmodel, hinput, houtput, bind_of_eq hparentRead, bind_of_eq (htextRead _),
    bind_of_eq (htextRead _), bind_of_eq (htextRead _), readPrevHash_getD hprev, hmacInputs,
    ← hcontent]

end Decode

/-! ## The transport

The body is sent as JSON.  On JSON metadata it arrives as it is; the HMAC of other metadata is
that of the value before the transport. -/

/-- A value that `json.loads` can return. -/
def IsJson (v : PyValue) : Prop := ∃ j : Json, j.DistinctKeys ∧ PyValue.ofJson j = v

theorem isJson_str (s : String) : IsJson (.str s) := ⟨.str s, trivial, rfl⟩

theorem IsJson.reload {v : PyValue} (h : IsJson v) :
    ∃ j, v.reload = some j ∧ PyValue.ofJson j = v := by
  obtain ⟨j, hdistinct, rfl⟩ := h
  exact ⟨j, PyValue.reload_ofJson j hdistinct, rfl⟩

/-- Entries with string keys, each holding a JSON value. -/
def JsonEntries (entries : List (PyKey × PyValue)) : Prop :=
  ∀ e ∈ entries, (∃ key, e.1 = .str key) ∧ IsJson e.2

theorem isJson_dict {entries : List (PyKey × PyValue)} (hentries : JsonEntries entries)
    (hnodup : (entries.map Prod.fst).Nodup) : IsJson (.dict entries) := by
  have hfields : ∃ fields : List (String × Json), PyValue.ofFields fields = entries ∧
      Json.DistinctFields fields := by
    clear hnodup
    induction entries with
    | nil => exact ⟨[], rfl, trivial⟩
    | cons e entries ih =>
        obtain ⟨fields, hfields, hdistinct⟩ := ih fun e he => hentries e (List.mem_cons_of_mem _ he)
        obtain ⟨⟨key, hkey⟩, j, hj, hvalue⟩ := hentries e List.mem_cons_self
        refine ⟨(key, j) :: fields, ?_, hj, hdistinct⟩
        rw [PyValue.ofFields, hfields, hvalue, ← hkey]
  obtain ⟨fields, rfl, hdistinct⟩ := hfields
  refine ⟨.obj fields, ⟨?_, hdistinct⟩, rfl⟩
  rw [LoggedRecord.ofFields_eq_map, List.map_map] at hnodup
  apply List.Nodup.of_map PyKey.str
  rw [List.map_map]
  exact hnodup

theorem jsonEntries_cons {key : String} {v : PyValue} {rest : List (PyKey × PyValue)}
    (hv : IsJson v) (hrest : JsonEntries rest) : JsonEntries ((.str key, v) :: rest) := by
  intro e he
  rcases List.mem_cons.mp he with rfl | he
  · exact ⟨⟨key, rfl⟩, hv⟩
  · exact hrest e he

theorem jsonEntries_optionalEntry {α : Type} {key : String} {o : Option α} {write : α → PyValue}
    (hwrite : ∀ a, IsJson (write a)) : JsonEntries (optionalEntry key (o.map write)) := by
  cases o with
  | none => exact fun e he => absurd he List.not_mem_nil
  | some a => exact jsonEntries_cons (hwrite a) fun e he => absurd he List.not_mem_nil

theorem JsonEntries.append {l l' : List (PyKey × PyValue)} (h : JsonEntries l)
    (h' : JsonEntries l') : JsonEntries (l ++ l') := by
  intro e he
  rcases List.mem_append.mp he with he | he
  · exact h e he
  · exact h' e he

theorem map_fst_optionalEntry_sublist (key : String) (value : Option PyValue) :
    ((optionalEntry key value).map Prod.fst).Sublist [.str key] := by
  cases value with
  | none => exact List.nil_sublist _
  | some v => exact List.Sublist.refl _

theorem map_fst_optionalEntry_append_sublist (key : String) (value : Option PyValue)
    {rest keys : List PyKey} (h : rest.Sublist keys) :
    ((optionalEntry key value).map Prod.fst ++ rest).Sublist (.str key :: keys) :=
  (map_fst_optionalEntry_sublist key value).append h

theorem nodup_wirePayload (r : LoggedRecord) : ((wirePayload r).map Prod.fst).Nodup := by
  have hkeys : ((wirePayload r).map Prod.fst).Sublist
      (["session_id", "kind", "created_at", "metadata", "parent_event_id", "model", "input_hash",
        "output_hash", "signing_key_fingerprint", "signature_status", "signature_hex"].map
          PyKey.str) := by
    simp only [wirePayload, List.map_cons, List.map_append]
    repeat' apply List.Sublist.cons_cons
    repeat
      apply map_fst_optionalEntry_append_sublist
    exact List.Sublist.cons_cons _ (map_fst_optionalEntry_sublist _ _)
  exact List.Nodup.sublist hkeys (by decide)

theorem isJson_wirePayload {r : LoggedRecord} (h : r.PlainMetadata) :
    IsJson (.dict (wirePayload r)) := by
  apply isJson_dict _ (nodup_wirePayload r)
  obtain ⟨m, hdistinct, hmetadata⟩ := h
  have hdict : IsJson r.dict := ⟨.obj m, hdistinct, (LoggedRecord.dict_eq_ofJson hmetadata).symm⟩
  apply jsonEntries_cons (isJson_str _)
  apply jsonEntries_cons (isJson_str _)
  apply jsonEntries_cons (isJson_str _)
  apply jsonEntries_cons hdict
  apply (jsonEntries_optionalEntry fun _ => isJson_str _).append
  apply (jsonEntries_optionalEntry isJson_str).append
  apply (jsonEntries_optionalEntry isJson_str).append
  apply (jsonEntries_optionalEntry isJson_str).append
  apply (jsonEntries_optionalEntry isJson_str).append
  apply jsonEntries_cons (isJson_str _)
  exact jsonEntries_optionalEntry fun _ => isJson_str _

/-- A body with JSON metadata is the same after the transport. -/
theorem eventToWire_reload {r : LoggedRecord} (h : r.PlainMetadata) (sdkVersion : String)
    (seq : ℤ) :
    ∃ j, (eventToWire sdkVersion r seq).reload = some j ∧
      PyValue.ofJson j = eventToWire sdkVersion r seq := by
  apply IsJson.reload
  apply isJson_dict
  · apply jsonEntries_cons (isJson_str _)
    apply jsonEntries_cons (isJson_str _)
    apply jsonEntries_cons (isJson_str _)
    apply jsonEntries_cons ⟨.int seq, trivial, rfl⟩
    apply jsonEntries_cons (isJson_wirePayload h)
    apply jsonEntries_cons (isJson_str _)
    apply jsonEntries_cons (isJson_str _)
    apply jsonEntries_cons (isJson_str _)
    exact jsonEntries_optionalEntry isJson_str
  · have hkeys : ((wireEntries sdkVersion r seq).map Prod.fst).Sublist
        (["event_id", "event_type", "agent_id", "seq", "payload", "prev_hash", "client_hmac",
          "sdk_version", "decision"].map PyKey.str) := by
      simp only [wireEntries, List.map_cons]
      repeat' apply List.Sublist.cons_cons
      exact map_fst_optionalEntry_sublist _ _
    exact List.Nodup.sublist hkeys (by decide)

/-! ## Recomputing the HMAC -/

section Verify

-- the JSON object that `canonical_json` prints for the metadata, `none` if it raises
variable (canonicalMetadata : List (String × PyValue) → Option Metadata) (H : Hmac)
  (secret : Bytes)

/-- `compute_event_hmac`; `none` if `canonical_json` raises. -/
def HmacInputs.compute (inputs : HmacInputs) : Option String :=
  (canonicalMetadata inputs.metadata).map fun metadata =>
    computeEventHmac H secret { inputs.content with metadata := metadata }

/-- `verify_event`, on any metadata. -/
def verifyLogged (r : LoggedRecord) : Option (Except PyError Bool) :=
  ((hmacInputs r).compute canonicalMetadata H secret).map fun expected =>
    compareDigest expected r.base.hmac

/-- The platform reads the body, recomputes the HMAC and compares. -/
def platformAccepts (R : StampReader) (body : PyValue) : Bool :=
  match decodeWire R body with
  | none => false
  | some (inputs, hmac) => inputs.compute canonicalMetadata H secret == some hmac

variable {canonicalMetadata H secret}

theorem verifyLogged_iff {r : LoggedRecord} :
    verifyLogged canonicalMetadata H secret r = some (.ok true) ↔
      (hmacInputs r).compute canonicalMetadata H secret = some r.base.hmac := by
  rw [verifyLogged, Option.map_eq_some_iff]
  constructor
  · intro ⟨expected, hexpected, hcompare⟩
    obtain ⟨metadata, -, rfl⟩ := Option.map_eq_some_iff.mp hexpected
    rw [hexpected, compareDigest_eq_ok_true_iff.mp hcompare]
  · intro hcompute
    obtain ⟨metadata, hmetadata, hmac⟩ := Option.map_eq_some_iff.mp hcompute
    exact ⟨_, hcompute, hmac ▸ compareDigest_eq_ok_true_iff.mpr rfl⟩

end Verify

/-! ## The records of `log` -/

/-- What becomes of an insert.  A store hands its callback the HMAC of the last record of the
session. -/
inductive HeadFate where
  | raises
  | inserts (eventId : Uuid) (now : Datetime) (head : Option AuditEventRecord)

def HeadFate.toInsertFate : HeadFate → InsertFate
  | .raises => .raises
  | .inserts eventId now head => .inserts eventId now (head.map fun r => r.hmac)

/-- The fates of the four inserts that a call may make. -/
structure HeadFates where
  primaryMarker : HeadFate
  primaryRecord : HeadFate
  fallbackMarker : HeadFate
  fallbackRecord : HeadFate

def HeadFates.toLogFates (fates : HeadFates) : LogFates where
  primaryMarker := fates.primaryMarker.toInsertFate
  primaryRecord := fates.primaryRecord.toInsertFate
  fallbackMarker := fates.fallbackMarker.toInsertFate
  fallbackRecord := fates.fallbackRecord.toInsertFate

section Log

variable (canonicalMetadata : List (String × PyValue) → Option Metadata) (K : ModuleKeys)

/-- `log`.  The event is sanctioned if `log_validated_correction` has built it. -/
def logGuarded (sanctioned : Bool) (L : LoggedCall) (fates : HeadFates)
    (degradedStarts : Finset Uuid) (draw : PlaceholderDraw) : Except PyError LoggedRecord :=
  if L.event.base.kind ∈ permittedKinds ∧ ¬sanctioned then .error .runtimeError
  else
    match ((L.ops canonicalMetadata K fates.toLogFates).logUnsafe L.sessionId
      ⟨(), (), degradedStarts⟩).2 with
    | some record => .ok record
    | none =>
        match L.placeholderRecord draw with
        | some record => .ok record
        | none => .error .validationError

variable {canonicalMetadata K}
variable {L : LoggedCall} {fates : HeadFates} {degradedStarts : Finset Uuid}
  {draw : PlaceholderDraw} {record : LoggedRecord}

theorem logGuarded_unsanctioned :
    logGuarded canonicalMetadata K false L fates degradedStarts draw =
      L.log canonicalMetadata K fates.toLogFates degradedStarts draw := by
  by_cases hreserved : L.event.base.kind ∈ permittedKinds
  · rw [logGuarded, LoggedCall.log, if_pos hreserved, if_pos ⟨hreserved, Bool.false_ne_true⟩]
  · rw [logGuarded, LoggedCall.log, if_neg hreserved]
    exact if_neg fun h => hreserved h.1

/-- A stored HMAC has at least 64 characters. -/
theorem hmac_ne_empty (head : Option AuditEventRecord) :
    head.map (fun r => r.hmac) ≠ some "" := by
  intro h
  obtain ⟨r, -, hempty⟩ := Option.map_eq_some_iff.mp h
  have hlength : minHmacLen ≤ r.hmac.length := r.valid.hmac.1
  rw [hempty] at hlength
  exact absurd hlength (by decide)

theorem buildRecord_prevHash {eventId : Uuid} {prevHash : Option String}
    (h : L.buildRecord canonicalMetadata K eventId prevHash = some record) :
    record.base.prevHash = prevHash := by
  rw [LoggedCall.buildRecord] at h
  obtain ⟨metadata, -, h⟩ := Option.bind_eq_some_iff.mp h
  obtain ⟨r, hr, h⟩ := Option.bind_eq_some_iff.mp h
  obtain ⟨hcontent, -⟩ := LogCall.buildRecord_spec hr
  rw [← Option.some.inj h]
  exact congrArg EventContent.prevHash hcontent

/-- A record that `log` built for a store verifies. -/
theorem verifyLogged_buildRecord {eventId : Uuid} {prevHash : Option String}
    (h : L.buildRecord canonicalMetadata K eventId prevHash = some record) :
    verifyLogged canonicalMetadata K.hmac K.secret record = some (.ok true) := by
  rw [LoggedCall.buildRecord] at h
  obtain ⟨metadata, hmetadata, h⟩ := Option.bind_eq_some_iff.mp h
  obtain ⟨r, hr, h⟩ := Option.bind_eq_some_iff.mp h
  obtain ⟨hcontent, hmac⟩ := LogCall.buildRecord_spec hr
  have hsame : { (LoggedRecord.ofRecord r).base.toEventContent with metadata := metadata } =
      r.toEventContent := by
    have hown : r.metadata = metadata := congrArg EventContent.metadata hcontent
    subst hown
    rfl
  rw [verifyLogged_iff, ← Option.some.inj h, HmacInputs.compute, hmacInputs,
    LoggedRecord.withMetadata, hmetadata, Option.map_some, hsame, ← hmac]
  rfl

theorem placeholderRecord_prevHash (h : L.placeholderRecord draw = some record) :
    record.base.prevHash = none := by
  rw [LoggedCall.placeholderRecord] at h
  obtain ⟨r, hr, h⟩ := Option.bind_eq_some_iff.mp h
  have hfields := AuditEventRecord.construct_eq_some_iff.mp hr
  rw [← Option.some.inj h]
  exact congrArg (fun f => f.prevHash) hfields

theorem prevHash_ne_empty_of_run {fate : HeadFate}
    (h : fate.toInsertFate.run (fun eventId _ => L.buildRecord canonicalMetadata K eventId) =
      some record) : record.base.prevHash ≠ some "" := by
  cases fate with
  | raises => cases h
  | inserts eventId now head =>
      rw [buildRecord_prevHash h]
      exact hmac_ne_empty head

/-- No record of `log` has an empty `prev_hash`. -/
theorem prevHash_ne_empty_of_log {sanctioned : Bool}
    (h : logGuarded canonicalMetadata K sanctioned L fates degradedStarts draw = .ok record) :
    record.base.prevHash ≠ some "" := by
  rw [logGuarded] at h
  split at h
  · cases h
  · split at h
    · rename_i r hr
      rw [← Except.ok.inj h]
      refine LogOps.logUnsafe_built (Q := fun r => r.base.prevHash ≠ some "") ?_ ?_
        (Prod.ext rfl hr)
      · intro p p' r hrun
        exact prevHash_ne_empty_of_run (Prod.mk.inj hrun).2
      · intro f f' r hrun
        exact prevHash_ne_empty_of_run (Prod.mk.inj hrun).2
    · split at h
      · rename_i r hr
        rw [← Except.ok.inj h, placeholderRecord_prevHash hr]
        exact Option.some_ne_none "" ∘ Eq.symm
      · cases h

/-- The body of every record of `log` gives back the inputs of the HMAC and the HMAC itself,
and the platform accepts it if and only if `verify_event` accepts the record. -/
theorem platformAccepts_iff_verifyLogged {sanctioned : Bool}
    (hlog : logGuarded canonicalMetadata K sanctioned L fates degradedStarts draw = .ok record)
    (R : StampReader) (sdkVersion : String) (seq : ℤ) :
    decodeWire R (eventToWire sdkVersion record seq) =
        some (hmacInputs record, record.base.hmac) ∧
      ∀ H secret,
        platformAccepts canonicalMetadata H secret R (eventToWire sdkVersion record seq) = true ↔
          verifyLogged canonicalMetadata H secret record = some (.ok true) := by
  have hdecode := decodeWire_eventToWire sdkVersion record seq R (prevHash_ne_empty_of_log hlog)
  refine ⟨hdecode, ?_⟩
  intro H secret
  rw [verifyLogged_iff, platformAccepts, hdecode]
  exact beq_iff_eq

end Log

/-- A plain event, on dead stores and on a store that takes it: the platform reads back the
placeholder, and accepts the stored record under the secret of the module. -/
theorem plain_event_platformAccepts :
    let L : LoggedCall :=
      ⟨(toolCallArgs "worker").sanitize id, ⟨1⟩, none, ⟨2025, 1, 2, 3, 4, 5, 0, some .utc⟩⟩
    let K : ModuleKeys := ⟨.ofTable [], List.replicate 32 7, none⟩
    let now : Datetime := ⟨2025, 1, 2, 3, 4, 6, 0, some .utc⟩
    (∃ placeholder,
      logGuarded reloadedMetadata K false L ⟨.raises, .raises, .raises, .raises⟩ ∅
          ⟨⟨2⟩, ⟨1⟩, now⟩ = .ok placeholder ∧
        ∀ R : StampReader,
          decodeWire R (eventToWire "0.7.1" placeholder 1) =
              some (hmacInputs placeholder, placeholder.base.hmac) ∧
            ∀ H secret,
              platformAccepts reloadedMetadata H secret R (eventToWire "0.7.1" placeholder 1) =
                  true ↔
                verifyLogged reloadedMetadata H secret placeholder = some (.ok true)) ∧
      ∃ record,
        logGuarded reloadedMetadata K false L
            ⟨.raises, .inserts ⟨2⟩ now none, .raises, .raises⟩ ∅ ⟨⟨3⟩, ⟨1⟩, now⟩ =
          .ok record ∧
          ∀ R : StampReader,
            platformAccepts reloadedMetadata K.hmac K.secret R
              (eventToWire "0.7.1" record 1) = true := by
  intro L K now
  have hloggable : (toolCallArgs "worker").Loggable id :=
    ⟨by decide, by decide, by decide, by decide, by decide⟩
  constructor
  · have hvalid : (L.placeholderFields ⟨⟨2⟩, ⟨1⟩, now⟩).Valid :=
      ⟨by decide, by decide, by decide, by decide, by decide, by decide,
        by rw [LoggedCall.placeholderFields, length_placeholderHmac]; decide, by decide⟩
    have hreturns : ∃ record, L.log reloadedMetadata K
        (HeadFates.toLogFates ⟨.raises, .raises, .raises, .raises⟩) ∅ ⟨⟨2⟩, ⟨1⟩, now⟩ =
          .ok record :=
      LoggedCall.log_ok_iff.mpr ⟨by decide, hvalid⟩
    obtain ⟨placeholder, hlog⟩ := hreturns
    rw [← logGuarded_unsanctioned] at hlog
    exact ⟨placeholder, hlog, fun R => platformAccepts_iff_verifyLogged hlog R "0.7.1" 1⟩
  · have hmetadata : reloadedMetadata L.event.metadata = some [] := rfl
    obtain ⟨record, hbuilt⟩ :=
      exists_buildRecord (L := L) (K := K) ⟨2⟩ rfl hloggable rfl hmetadata rfl
    have hlog : logGuarded reloadedMetadata K false L
        ⟨.raises, .inserts ⟨2⟩ now none, .raises, .raises⟩ ∅ ⟨⟨3⟩, ⟨1⟩, now⟩ = .ok record := by
      rw [logGuarded_unsanctioned]
      exact LoggedCall.log_of_inserted hbuilt rfl (Finset.notMem_empty _) hloggable.unreserved
    refine ⟨record, hlog, fun R => ?_⟩
    exact ((platformAccepts_iff_verifyLogged hlog R "0.7.1" 1).2 K.hmac K.secret).mpr
      (verifyLogged_buildRecord hbuilt)

end AgenticGovernance.Platform

import Mathlib
import AgenticGovernance.Audit.Sanitization

/-!
# Logging an event

`AuditModule.log` tries the primary store, then the fallback, and at last returns a
placeholder record that is in no store.  A session whose primary has failed is flagged;
the next call on it writes a recovery marker to the primary and drains the fallback
before it writes its own record.

`LogOps` holds the store operations of one call, with their failures decided, so that
`logUnsafe` is the control flow alone.  `log_returns_iff` says for which events a record
comes back, whatever the stores do.
-/

namespace AgenticGovernance.Audit

open Support

/-! ## The control flow -/

/-- The store operations of one call on stores `P` and `F`, each with its callback.  A
result `none` is an exception. -/
structure LogOps (P F Rec : Type) where
  primaryMarker : P → P × Option Rec
  primaryRecord : P → P × Option Rec
  /-- `_maybe_drain_fallback`, which swallows its errors -/
  drain : F → P → F × P
  fallbackMarker : F → F × Option Rec
  fallbackRecord : F → F × Option Rec

structure LogState (P F : Type) where
  primary : P
  fallback : F
  degradedStarts : Finset Uuid

variable {P F Rec : Type}

/-- The `try` block of `_log_unsafe`. -/
def LogOps.tryPrimary (ops : LogOps P F Rec) (sid : Uuid) (s : LogState P F) :
    LogState P F × Option Rec :=
  if sid ∈ s.degradedStarts then
    match ops.primaryMarker s.primary with
    | (primary, none) => ({ s with primary := primary }, none)
    | (primary, some _) =>
        let (fallback, drained) := ops.drain s.fallback primary
        let (primary', record) := ops.primaryRecord drained
        (⟨primary', fallback, s.degradedStarts.erase sid⟩, record)
  else
    let (primary, record) := ops.primaryRecord s.primary
    ({ s with primary := primary }, record)

/-- Its `except` block. -/
def LogOps.fallBack (ops : LogOps P F Rec) (sid : Uuid) (s : LogState P F) :
    LogState P F × Option Rec :=
  let marked :=
    if sid ∈ s.degradedStarts then s.fallback else (ops.fallbackMarker s.fallback).1
  let (fallback, record) := ops.fallbackRecord marked
  ({ s with fallback := fallback, degradedStarts := insert sid s.degradedStarts }, record)

/-- `_log_unsafe`.  What it does with the record afterwards, forwarding it to the
platform and to subscribers, cannot raise and does not change it. -/
def LogOps.logUnsafe (ops : LogOps P F Rec) (sid : Uuid) (s : LogState P F) :
    LogState P F × Option Rec :=
  match ops.tryPrimary sid s with
  | (s', some record) => (s', some record)
  | (s', none) => ops.fallBack sid s'

/-- Either block returns what its last insert returned, in the store that the insert left
behind. -/
theorem LogOps.logUnsafe_returned {ops : LogOps P F Rec} {sid : Uuid} {s s' : LogState P F}
    {record : Rec} {Q : P → Rec → Prop} {R : F → Rec → Prop}
    (hprimary : ∀ p p' r, ops.primaryRecord p = (p', some r) → Q p' r)
    (hfallback : ∀ f f' r, ops.fallbackRecord f = (f', some r) → R f' r)
    (h : ops.logUnsafe sid s = (s', some record)) :
    Q s'.primary record ∨ R s'.fallback record := by
  rw [logUnsafe] at h
  split at h
  · rename_i s₁ r htry
    obtain ⟨hs, hr⟩ := Prod.mk.inj h
    left
    rw [tryPrimary] at htry
    split at htry
    · split at htry
      · cases (Prod.mk.inj htry).2
      · rename_i p m hmarker
        obtain ⟨hstate, hrecord⟩ := Prod.mk.inj htry
        rw [← hs, ← hstate]
        exact hprimary _ _ _ (Prod.ext rfl (hrecord.trans hr))
    · obtain ⟨hstate, hrecord⟩ := Prod.mk.inj htry
      rw [← hs, ← hstate]
      exact hprimary _ _ _ (Prod.ext rfl (hrecord.trans hr))
  · obtain ⟨hs, hr⟩ := Prod.mk.inj h
    right
    rw [← hs]
    exact hfallback _ _ _ (Prod.ext rfl hr)

/-- Either block returns a record that the callback built. -/
theorem LogOps.logUnsafe_built {ops : LogOps P F Rec} {sid : Uuid} {s s' : LogState P F}
    {record : Rec} {Q : Rec → Prop}
    (hprimary : ∀ p p' r, ops.primaryRecord p = (p', some r) → Q r)
    (hfallback : ∀ f f' r, ops.fallbackRecord f = (f', some r) → Q r)
    (h : ops.logUnsafe sid s = (s', some record)) : Q record :=
  (logUnsafe_returned (Q := fun _ => Q) (R := fun _ => Q) hprimary hfallback h).elim id id

/-- What is returned depends on the stores only through what the inserts return. -/
theorem LogOps.logUnsafe_congr {P' F' : Type} {ops : LogOps P F Rec}
    {ops' : LogOps P' F' Rec} {sid : Uuid} {s : LogState P F} {s' : LogState P' F'}
    (hprimaryMarker : ∀ p p', (ops.primaryMarker p).2 = (ops'.primaryMarker p').2)
    (hprimaryRecord : ∀ p p', (ops.primaryRecord p).2 = (ops'.primaryRecord p').2)
    (hfallbackRecord : ∀ f f', (ops.fallbackRecord f).2 = (ops'.fallbackRecord f').2)
    (hdegraded : s.degradedStarts = s'.degradedStarts) :
    (ops.logUnsafe sid s).2 = (ops'.logUnsafe sid s').2 := by
  have htry : (ops.tryPrimary sid s).2 = (ops'.tryPrimary sid s').2 := by
    rw [tryPrimary, tryPrimary, hdegraded]
    by_cases hflagged : sid ∈ s'.degradedStarts
    · rw [if_pos hflagged, if_pos hflagged]
      have hmarker := hprimaryMarker s.primary s'.primary
      rcases hm : ops.primaryMarker s.primary with ⟨p, _ | m⟩
      · rcases hm' : ops'.primaryMarker s'.primary with ⟨p', _ | m'⟩
        · rfl
        · rw [hm, hm'] at hmarker
          cases hmarker
      · rcases hm' : ops'.primaryMarker s'.primary with ⟨p', _ | m'⟩
        · rw [hm, hm'] at hmarker
          cases hmarker
        · exact hprimaryRecord _ _
    · rw [if_neg hflagged, if_neg hflagged]
      exact hprimaryRecord _ _
  rw [logUnsafe, logUnsafe]
  rcases ht : ops.tryPrimary sid s with ⟨s₁, _ | r⟩
  · rcases ht' : ops'.tryPrimary sid s' with ⟨s₁', _ | r'⟩
    · exact hfallbackRecord _ _
    · rw [ht, ht'] at htry
      cases htry
  · rcases ht' : ops'.tryPrimary sid s' with ⟨s₁', _ | r'⟩
    · rw [ht, ht'] at htry
      cases htry
    · rw [ht, ht'] at htry
      exact htry

/-! ## Records of any metadata -/

/-- A record of the model, with the metadata of the event in place of its own. -/
def LoggedRecord.withMetadata (r : AuditEventRecord) (metadata : List (String × PyValue)) :
    LoggedRecord :=
  { LoggedRecord.ofRecord r with metadata := metadata }

/-- The call of `log`, with identifiers and time chosen. -/
structure LoggedCall where
  event : LoggedEvent
  sessionId : Uuid
  parentId : Option Uuid
  createdAt : Datetime

/-- The call on the event with metadata that prints like `metadata`. -/
def LoggedCall.toLogCall (L : LoggedCall) (metadata : Metadata) : LogCall where
  event := { L.event.base with metadata := metadata }
  sessionId := L.sessionId
  parentId := L.parentId
  createdAt := L.createdAt

section Build

-- the JSON object that `canonical_json` prints for the metadata, `none` if it raises
variable (canonicalMetadata : List (String × PyValue) → Option Metadata) (K : ModuleKeys)
  (L : LoggedCall)

/-- `build_record` -/
def LoggedCall.buildRecord (eventId : Uuid) (prevHash : Option String) :
    Option LoggedRecord := do
  let metadata ← canonicalMetadata L.event.metadata
  let record ← (L.toLogCall metadata).buildRecord K eventId prevHash
  some (.withMetadata record L.event.metadata)

/-- `build_marker` -/
def LoggedCall.buildMarker (markerId : Uuid) (markerTs : Datetime)
    (prevHash : Option String) : Option LoggedRecord := do
  let record ← (L.toLogCall []).buildMarker K markerId markerTs prevHash
  some (.ofRecord record)

end Build

/-- What `_placeholder_record` draws.  Its session is that of the call, unless neither
the event nor the context has one. -/
structure PlaceholderDraw where
  eventId : Uuid
  sessionId : Uuid
  now : Datetime

/-- The keyword arguments of the placeholder, without its metadata.  The model of the
event is not passed on. -/
def LoggedCall.placeholderFields (L : LoggedCall) (draw : PlaceholderDraw) : RecordFields where
  eventId := draw.eventId
  sessionId := draw.sessionId
  agentId := L.event.base.agentId
  parentEventId := L.parentId
  kind := L.event.base.kind
  model := none
  inputHash := L.event.base.inputHash
  outputHash := L.event.base.outputHash
  metadata := []
  prevHash := none
  createdAt := draw.now
  hmac := placeholderHmac
  signature := none
  signingKeyFingerprint := none
  signatureStatus := .unsigned

/-- `_placeholder_record`; `none` stands for the `ValidationError`. -/
def LoggedCall.placeholderRecord (L : LoggedCall) (draw : PlaceholderDraw) :
    Option LoggedRecord := do
  let record ← AuditEventRecord.construct (L.placeholderFields draw)
  some (.withMetadata record (setKey L.event.metadata placeholderMetadataKey (.bool true)))

/-! ## `log` -/

/-- What becomes of an insert.  A store raises, or it returns what its callback built on
the head it read, with the id and time that the callback drew. -/
inductive InsertFate where
  | raises
  | inserts (eventId : Uuid) (now : Datetime) (prevHash : Option String)

def InsertFate.run (fate : InsertFate)
    (build : Uuid → Datetime → Option String → Option LoggedRecord) : Option LoggedRecord :=
  match fate with
  | .raises => none
  | .inserts eventId now prevHash => build eventId now prevHash

/-- The fates of the four inserts that a call may make. -/
structure LogFates where
  primaryMarker : InsertFate
  primaryRecord : InsertFate
  fallbackMarker : InsertFate
  fallbackRecord : InsertFate

/-- `PERMITTED_KINDS` of the corrections module. -/
def permittedKinds : List String := ["audit.correction"]

section Log

variable (canonicalMetadata : List (String × PyValue) → Option Metadata) (K : ModuleKeys)

/-- The stores of a call with the given fates. -/
def LoggedCall.ops (L : LoggedCall) (fates : LogFates) : LogOps Unit Unit LoggedRecord where
  primaryMarker _ := ((), fates.primaryMarker.run (L.buildMarker K))
  primaryRecord _ :=
    ((), fates.primaryRecord.run fun eventId _ => L.buildRecord canonicalMetadata K eventId)
  drain _ _ := ((), ())
  fallbackMarker _ := ((), fates.fallbackMarker.run (L.buildMarker K))
  fallbackRecord _ :=
    ((), fates.fallbackRecord.run fun eventId _ => L.buildRecord canonicalMetadata K eventId)

/-- `log`, for an event that was not handed out by `log_validated_correction`. -/
def LoggedCall.log (L : LoggedCall) (fates : LogFates) (degradedStarts : Finset Uuid)
    (draw : PlaceholderDraw) : Except PyError LoggedRecord :=
  if L.event.base.kind ∈ permittedKinds then .error .runtimeError
  else
    match ((L.ops canonicalMetadata K fates).logUnsafe L.sessionId
      ⟨(), (), degradedStarts⟩).2 with
    | some record => .ok record
    | none =>
        match L.placeholderRecord draw with
        | some record => .ok record
        | none => .error .validationError

end Log

/-! ## When a record comes back -/

/-- The sanitized strings of the event are within the limits of a record, and its kind is
not reserved. -/
structure EventArgs.Loggable (nfc : String → String) (a : EventArgs) : Prop where
  agentId : 1 ≤ (sanitizeString nfc a.agentId maxAgentIdLen).length ∧
    (sanitizeString nfc a.agentId maxAgentIdLen).length ≤ maxAgentIdLen
  kind : 1 ≤ (sanitizeString nfc a.kind maxKindLen).length ∧
    (sanitizeString nfc a.kind maxKindLen).length ≤ maxKindLen
  unreserved : sanitizeString nfc a.kind maxKindLen ∉ permittedKinds
  inputHash : optionalWithin maxHashLen
    (a.inputHash.map fun s => sanitizeString nfc s maxHashLen)
  outputHash : optionalWithin maxHashLen
    (a.outputHash.map fun s => sanitizeString nfc s maxHashLen)

/-- What is left to check on an event of the SDK's own whose kind is plain: the agent id is
within its limits before and after sanitizing, and the metadata is not too large. -/
structure EventArgs.AgentLoggable (nfc : String → String) (a : EventArgs) : Prop where
  raw : 1 ≤ a.agentId.length ∧ a.agentId.length ≤ maxAgentIdLen
  sanitized : 1 ≤ (sanitizeString nfc a.agentId maxAgentIdLen).length ∧
    (sanitizeString nfc a.agentId maxAgentIdLen).length ≤ maxAgentIdLen
  size : (metadataDict a.metadata).dumpsDefault.length ≤ maxMetadataTotalBytes

theorem EventArgs.agentLoggable_iff {nfc : String → String} {a : EventArgs}
    (hlength : 1 ≤ a.kind.length ∧ a.kind.length ≤ maxKindLen)
    (hplain : sanitizeString nfc a.kind maxKindLen = a.kind) (hfree : a.kind ∉ permittedKinds)
    (hmodel : a.model = none) (hinput : a.inputHash = none) (houtput : a.outputHash = none)
    (hkeys : a.metadata.length ≤ maxMetadataKeys) :
    a.Accepted ∧ a.Loggable nfc ↔ a.AgentLoggable nfc := by
  have hnone : ∀ n, optionalWithin n none := by rintro n s ⟨⟩
  constructor
  · intro ⟨haccepted, hloggable⟩
    exact ⟨haccepted.agentId, hloggable.agentId, haccepted.size⟩
  · intro h
    refine ⟨⟨h.raw, hlength, ?_, ?_, ?_, hkeys, h.size⟩, ⟨h.sanitized, ?_, ?_, ?_, ?_⟩⟩
    · rw [hmodel]
      exact hnone maxModelLen
    · rw [hinput]
      exact hnone maxHashLen
    · rw [houtput]
      exact hnone maxHashLen
    · rw [hplain]
      exact hlength
    · rw [hplain]
      exact hfree
    · rw [hinput]
      exact hnone maxHashLen
    · rw [houtput]
      exact hnone maxHashLen

section Returns

variable {canonicalMetadata : List (String × PyValue) → Option Metadata} {K : ModuleKeys}
  {L : LoggedCall} {fates : LogFates} {degradedStarts : Finset Uuid} {draw : PlaceholderDraw}

theorem length_placeholderHmac : placeholderHmac.length = 64 :=
  String.length_ofList.trans List.length_replicate

/-- A record built for the call shows that its placeholder is valid. -/
theorem LoggedCall.placeholderFields_valid_of_built {eventId : Uuid} {prevHash : Option String}
    {record : LoggedRecord}
    (h : L.buildRecord canonicalMetadata K eventId prevHash = some record) :
    (L.placeholderFields draw).Valid := by
  rw [buildRecord] at h
  obtain ⟨metadata, -, h⟩ := Option.bind_eq_some_iff.mp h
  obtain ⟨r, hr, -⟩ := Option.bind_eq_some_iff.mp h
  obtain ⟨hcontent, -⟩ := LogCall.buildRecord_spec hr
  have hagent : (L.placeholderFields draw).agentId = r.agentId :=
    (congrArg EventContent.agentId hcontent).symm
  have hkind : (L.placeholderFields draw).kind = r.kind :=
    (congrArg EventContent.kind hcontent).symm
  have hinput : (L.placeholderFields draw).inputHash = r.inputHash :=
    (congrArg EventContent.inputHash hcontent).symm
  have houtput : (L.placeholderFields draw).outputHash = r.outputHash :=
    (congrArg EventContent.outputHash hcontent).symm
  constructor
  · rw [hagent]
    exact r.valid.agentId
  · rw [hkind]
    exact r.valid.kind
  · rintro t ⟨⟩
  · rw [hinput]
    exact r.valid.inputHash
  · rw [houtput]
    exact r.valid.outputHash
  · rintro t ⟨⟩
  · rw [placeholderFields, length_placeholderHmac]
    decide
  · rintro t ⟨⟩

theorem LoggedCall.buildRecord_kind {L : LoggedCall} {eventId : Uuid} {prevHash : Option String}
    {record : LoggedRecord}
    (h : L.buildRecord canonicalMetadata K eventId prevHash = some record) :
    record.base.kind = L.event.base.kind ∧ record.metadata = L.event.metadata := by
  rw [buildRecord] at h
  obtain ⟨metadata, -, h⟩ := Option.bind_eq_some_iff.mp h
  obtain ⟨r, hr, h⟩ := Option.bind_eq_some_iff.mp h
  obtain ⟨hcontent, -⟩ := LogCall.buildRecord_spec hr
  rw [← Option.some.inj h]
  exact ⟨congrArg EventContent.kind hcontent, rfl⟩

theorem LoggedCall.buildMarker_kind {L : LoggedCall} {markerId : Uuid} {now : Datetime}
    {prevHash : Option String} {record : LoggedRecord}
    (h : L.buildMarker K markerId now prevHash = some record) :
    record.base.kind = LogCall.degradedStartKind := by
  rw [buildMarker] at h
  obtain ⟨r, hr, h⟩ := Option.bind_eq_some_iff.mp h
  obtain ⟨hcontent, -⟩ := LogCall.buildMarker_spec hr
  rw [← Option.some.inj h]
  exact congrArg EventContent.kind hcontent

theorem LoggedCall.placeholderRecord_isSome_iff :
    (∃ record, L.placeholderRecord draw = some record) ↔ (L.placeholderFields draw).Valid := by
  rw [placeholderRecord, AuditEventRecord.construct]
  by_cases hvalid : (L.placeholderFields draw).Valid
  · simp [hvalid]
  · simp [hvalid]

/-- A placeholder has the id that was drawn for it. -/
theorem LoggedCall.placeholderRecord_eventId {record : LoggedRecord}
    (h : L.placeholderRecord draw = some record) : record.base.eventId = draw.eventId := by
  rw [placeholderRecord] at h
  obtain ⟨r, hr, h⟩ := Option.bind_eq_some_iff.mp h
  have hfields := AuditEventRecord.construct_eq_some_iff.mp hr
  rw [← Option.some.inj h]
  exact congrArg (fun f => f.eventId) hfields

theorem InsertFate.run_eq_some {fate : InsertFate}
    {build : Uuid → Datetime → Option String → Option LoggedRecord} {record : LoggedRecord}
    (h : fate.run build = some record) :
    ∃ eventId now prevHash, build eventId now prevHash = some record := by
  cases fate with
  | raises => cases h
  | inserts eventId now prevHash => exact ⟨eventId, now, prevHash, h⟩

/-- What `_log_unsafe` returns was built by `build_record`. -/
theorem LoggedCall.logUnsafe_built {s : LogState Unit Unit} {record : LoggedRecord}
    (h : ((L.ops canonicalMetadata K fates).logUnsafe L.sessionId s).2 = some record) :
    ∃ eventId prevHash, L.buildRecord canonicalMetadata K eventId prevHash = some record := by
  refine LogOps.logUnsafe_built (Q := fun r => ∃ eventId prevHash,
    L.buildRecord canonicalMetadata K eventId prevHash = some r) ?_ ?_ (Prod.ext rfl h)
  · intro p p' r hr
    obtain ⟨eventId, now, prevHash, hbuilt⟩ := InsertFate.run_eq_some (Prod.mk.inj hr).2
    exact ⟨eventId, prevHash, hbuilt⟩
  · intro f f' r hr
    obtain ⟨eventId, now, prevHash, hbuilt⟩ := InsertFate.run_eq_some (Prod.mk.inj hr).2
    exact ⟨eventId, prevHash, hbuilt⟩

/-- `log` returns a record exactly when a placeholder would be valid. -/
theorem LoggedCall.log_ok_iff :
    (∃ record, L.log canonicalMetadata K fates degradedStarts draw = .ok record) ↔
      L.event.base.kind ∉ permittedKinds ∧ (L.placeholderFields draw).Valid := by
  rw [log]
  by_cases hreserved : L.event.base.kind ∈ permittedKinds
  · simp [hreserved]
  · rw [if_neg hreserved]
    rcases hunsafe : ((L.ops canonicalMetadata K fates).logUnsafe L.sessionId
      ⟨(), (), degradedStarts⟩).2 with _ | record
    · rw [← placeholderRecord_isSome_iff]
      rcases L.placeholderRecord draw with _ | record
      · simp
      · simp [hreserved]
    · obtain ⟨eventId, prevHash, hbuilt⟩ := logUnsafe_built hunsafe
      simp [hreserved, placeholderFields_valid_of_built hbuilt]

theorem LoggedCall.log_of_invalid (hkind : L.event.base.kind ∉ permittedKinds)
    (hinvalid : ¬(L.placeholderFields draw).Valid) :
    L.log canonicalMetadata K fates degradedStarts draw = .error .validationError := by
  have hraised : ((L.ops canonicalMetadata K fates).logUnsafe L.sessionId
      ⟨(), (), degradedStarts⟩).2 = none := by
    rw [Option.eq_none_iff_forall_not_mem]
    intro record hrecord
    obtain ⟨eventId, prevHash, hbuilt⟩ := logUnsafe_built hrecord
    exact hinvalid (placeholderFields_valid_of_built hbuilt)
  have hplaceholder : L.placeholderRecord draw = none := by
    rw [Option.eq_none_iff_forall_not_mem]
    intro record hrecord
    exact hinvalid (placeholderRecord_isSome_iff.mp ⟨record, hrecord⟩)
  rw [log, if_neg hkind, hraised, hplaceholder]

theorem EventArgs.loggable_iff {nfc : String → String} {a : EventArgs}
    (hevent : a.sanitize nfc = L.event) (draw : PlaceholderDraw) :
    a.Loggable nfc ↔ L.event.base.kind ∉ permittedKinds ∧ (L.placeholderFields draw).Valid := by
  have hmac : minHmacLen ≤ placeholderHmac.length ∧ placeholderHmac.length ≤ maxHashLen := by
    rw [length_placeholderHmac]
    decide
  rw [LoggedCall.placeholderFields, ← hevent]
  constructor
  · intro h
    exact ⟨h.unreserved, h.agentId, h.kind, by rintro t ⟨⟩, h.inputHash, h.outputHash,
      by rintro t ⟨⟩, hmac, by rintro t ⟨⟩⟩
  · intro ⟨hkind, hvalid⟩
    exact ⟨hvalid.agentId, hvalid.kind, hkind, hvalid.inputHash, hvalid.outputHash⟩

/-- The audit module as a caller meets it: what its stores do during the call, and what
the call draws. -/
structure AuditEnv where
  nfc : String → String
  canonicalMetadata : List (String × PyValue) → Option Metadata
  keys : ModuleKeys
  sessionId : Uuid
  parentId : Option Uuid
  createdAt : Datetime
  fates : LogFates
  degradedStarts : Finset Uuid
  draw : PlaceholderDraw

/-- `await audit.log(AuditEvent(**args))` -/
def AuditEnv.log (env : AuditEnv) (a : EventArgs) : Except PyError LoggedRecord :=
  match a.construct env.nfc with
  | none => .error .validationError
  | some event =>
      (LoggedCall.mk event env.sessionId env.parentId env.createdAt).log
        env.canonicalMetadata env.keys env.fates env.degradedStarts env.draw

theorem AuditEnv.log_ok_iff (env : AuditEnv) (a : EventArgs) :
    (∃ record, env.log a = .ok record) ↔ a.Accepted ∧ a.Loggable env.nfc := by
  rw [AuditEnv.log, EventArgs.construct]
  by_cases haccepted : a.Accepted
  · have hlog : (∃ record, (LoggedCall.mk (a.sanitize env.nfc) env.sessionId env.parentId
        env.createdAt).log env.canonicalMetadata env.keys env.fates env.degradedStarts
          env.draw = .ok record) ↔ a.Loggable env.nfc :=
      LoggedCall.log_ok_iff.trans (EventArgs.loggable_iff rfl env.draw).symm
    rw [if_pos haccepted, hlog]
    simp [haccepted]
  · rw [if_neg haccepted]
    simp [haccepted]

/-- For every constructed event and whatever the stores do, `log` returns a record, stored
or a placeholder, if and only if the sanitized strings are within the limits of a record
and the sanitized kind is not reserved. -/
theorem log_returns_iff {nfc : String → String} {a : EventArgs} {event : LoggedEvent}
    (hevent : a.construct nfc = some event)
    (canonicalMetadata : List (String × PyValue) → Option Metadata) (K : ModuleKeys)
    (sessionId : Uuid) (parentId : Option Uuid) (createdAt : Datetime) (fates : LogFates)
    (degradedStarts : Finset Uuid) (draw : PlaceholderDraw) :
    let L : LoggedCall := ⟨event, sessionId, parentId, createdAt⟩
    (∃ record, L.log canonicalMetadata K fates degradedStarts draw = .ok record ∧
      ((∃ eventId prevHash, L.buildRecord canonicalMetadata K eventId prevHash = some record) ∨
        L.placeholderRecord draw = some record)) ↔ a.Loggable nfc := by
  intro L
  obtain ⟨-, hsanitized⟩ := EventArgs.construct_eq_some_iff.mp hevent
  rw [EventArgs.loggable_iff (L := L) hsanitized draw, ← LoggedCall.log_ok_iff]
  constructor
  · rintro ⟨record, hlog, -⟩
    exact ⟨record, hlog⟩
  · rintro ⟨record, hlog⟩
    refine ⟨record, hlog, ?_⟩
    rw [LoggedCall.log] at hlog
    split at hlog
    · cases hlog
    · split at hlog
      · rename_i hunsafe
        rw [Except.ok.inj hlog] at hunsafe
        exact Or.inl (LoggedCall.logUnsafe_built hunsafe)
      · split at hlog
        · rename_i hplaceholder
          rw [Except.ok.inj hlog] at hplaceholder
          exact Or.inr hplaceholder
        · cases hlog

end Returns

/-- An unsigned first record of a loggable event is valid. -/
theorem valid_of_loggable {a : EventArgs} {nfc : String → String} {f : RecordFields}
    (hloggable : a.Loggable nfc) (hagent : f.agentId = (a.sanitize nfc).base.agentId)
    (hkind : f.kind = (a.sanitize nfc).base.kind) (hmodel : f.model = none)
    (hinput : f.inputHash = (a.sanitize nfc).base.inputHash)
    (houtput : f.outputHash = (a.sanitize nfc).base.outputHash) (hprev : f.prevHash = none)
    (hmac : f.hmac.length = 64) (hfingerprint : f.signingKeyFingerprint = none) : f.Valid := by
  have hnone : ∀ n, optionalWithin n none := by rintro n t ⟨⟩
  constructor
  · rw [hagent]
    exact hloggable.agentId
  · rw [hkind]
    exact hloggable.kind
  · rw [hmodel]
    exact hnone _
  · rw [hinput]
    exact hloggable.inputHash
  · rw [houtput]
    exact hloggable.outputHash
  · rw [hprev]
    exact hnone _
  · rw [hmac]
    decide
  · rw [hfingerprint]
    exact hnone _

theorem construct_of_valid {f : RecordFields} (hvalid : f.Valid) :
    AuditEventRecord.construct f = some ⟨f, hvalid⟩ :=
  dif_pos hvalid

/-- The record of an accepted event can be built where no signer is configured. -/
theorem exists_buildRecord {L : LoggedCall} {K : ModuleKeys} {a : EventArgs}
    {nfc : String → String} {metadata : Metadata} (eventId : Uuid)
    {canonicalMetadata : List (String × PyValue) → Option Metadata}
    (hevent : L.event = a.sanitize nfc) (hloggable : a.Loggable nfc) (hmodel : a.model = none)
    (hmetadata : canonicalMetadata L.event.metadata = some metadata)
    (hsigner : K.signer = none) :
    ∃ r, L.buildRecord canonicalMetadata K eventId none = some r := by
  have hmodel' : L.event.base.model = none := by
    rw [hevent, EventArgs.sanitize, hmodel]
    rfl
  rw [LoggedCall.buildRecord, hmetadata, Option.bind_eq_bind, Option.bind_some,
    LogCall.buildRecord, hsigner, signAuditRow]
  simp only
  rw [construct_of_valid (valid_of_loggable hloggable (congrArg (fun e => e.base.agentId) hevent)
    (congrArg (fun e => e.base.kind) hevent) hmodel'
    (congrArg (fun e => e.base.inputHash) hevent) (congrArg (fun e => e.base.outputHash) hevent)
    rfl (length_computeEventHmac ..) rfl)]
  exact ⟨_, rfl⟩

/-- A call whose first insert goes through returns what it inserts. -/
theorem LoggedCall.log_of_inserted {L : LoggedCall} {K : ModuleKeys} {fates : LogFates}
    {canonicalMetadata : List (String × PyValue) → Option Metadata} {eventId : Uuid}
    {now : Datetime} {prevHash : Option String} {record : LoggedRecord}
    {degradedStarts : Finset Uuid} {draw : PlaceholderDraw}
    (hbuilt : L.buildRecord canonicalMetadata K eventId prevHash = some record)
    (hfate : fates.primaryRecord = .inserts eventId now prevHash)
    (hflag : L.sessionId ∉ degradedStarts) (hunreserved : L.event.base.kind ∉ permittedKinds) :
    L.log canonicalMetadata K fates degradedStarts draw = .ok record := by
  have htry : (L.ops canonicalMetadata K fates).tryPrimary L.sessionId
      ⟨(), (), degradedStarts⟩ = (⟨(), (), degradedStarts⟩, some record) := by
    rw [LogOps.tryPrimary, if_neg hflag, ops, hfate, InsertFate.run, hbuilt]
  rw [log, if_neg hunreserved, LogOps.logUnsafe, htry]

/-- A tool call of the given agent, with nothing else to record. -/
def toolCallArgs (agentId : String) : EventArgs :=
  ⟨none, agentId, none, "tool.call", none, none, none, []⟩

/-- A plain event on dead stores: the caller gets a placeholder. -/
theorem plain_event_logged :
    let L : LoggedCall :=
      ⟨(toolCallArgs "worker").sanitize id, ⟨1⟩, none, ⟨2025, 1, 2, 3, 4, 5, 0, some .utc⟩⟩
    let K : ModuleKeys := ⟨.ofTable [], List.replicate 32 7, none⟩
    let draw : PlaceholderDraw := ⟨⟨2⟩, ⟨1⟩, ⟨2025, 1, 2, 3, 4, 6, 0, some .utc⟩⟩
    ∃ record, L.log (fun _ => some []) K ⟨.raises, .raises, .raises, .raises⟩ ∅ draw =
        .ok record ∧
      ((∃ eventId prevHash, L.buildRecord (fun _ => some []) K eventId prevHash =
          some record) ∨ L.placeholderRecord draw = some record) := by
  intro L K draw
  have hargs : (toolCallArgs "worker").construct id =
      some ((toolCallArgs "worker").sanitize id) :=
    EventArgs.construct_eq_some_iff.mpr ⟨by decide, rfl⟩
  have hloggable : (toolCallArgs "worker").Loggable id :=
    ⟨by decide, by decide, by decide, by decide, by decide⟩
  exact (log_returns_iff hargs _ K ⟨1⟩ none _ _ ∅ draw).mpr hloggable

/-- An agent id that is one escape character is accepted and sanitized away, and `log`
raises although its placeholder is meant to stand in for everything. -/
theorem escape_agent_log_raises :
    ∃ event, (toolCallArgs "\x1b").construct id = some event ∧
      ∀ canonicalMetadata K sessionId parentId createdAt fates degradedStarts draw,
        (LoggedCall.mk event sessionId parentId createdAt).log canonicalMetadata K fates
          degradedStarts draw = .error .validationError := by
  refine ⟨_, EventArgs.construct_eq_some_iff.mpr ⟨by decide, rfl⟩, ?_⟩
  intro canonicalMetadata K sessionId parentId createdAt fates degradedStarts draw
  have hempty : (sanitizeString id "\x1b" maxAgentIdLen).length = 0 := by decide
  apply LoggedCall.log_of_invalid
  · change sanitizeString id "tool.call" maxKindLen ∉ permittedKinds
    decide
  · intro hvalid
    have hagent : 1 ≤ (sanitizeString id "\x1b" maxAgentIdLen).length := hvalid.agentId.1
    omega

end AgenticGovernance.Audit

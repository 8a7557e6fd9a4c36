import Mathlib
import AgenticGovernance.Audit.Verify

/-!
# Building the records of a log call

`AuditModule._log_unsafe` hands its store a callback that turns the current
chain head into a record: `build_record` for the caller's event and
`build_marker` for the `chain.degraded_start` marker.  Each invocation draws a
new event id, and the marker also reads the clock.

Both callbacks authenticate what they build, and nothing else about them is
used by the stores.
-/

namespace AgenticGovernance.Audit

open Support

/-- An Ed25519 signer: the signature of the given bytes together with the
fingerprint, or `none` when signing raises. -/
abbrev Signer := String → Option (Bytes × String)

/-- What an `AuditModule` holds besides its stores. -/
structure ModuleKeys where
  hmac : Hmac
  secret : Bytes
  signer : Option Signer

/-- The state that `_log_unsafe` closes its two callbacks over. -/
structure LogCall where
  event : AuditEvent
  sessionId : Uuid
  parentId : Option Uuid
  createdAt : Datetime

/-- The first lines of `_log_unsafe`: identifiers come from the event, then from
the context, and a session is made up when there is none. -/
def LogCall.begin (event : AuditEvent) (currentSession currentParent : Option Uuid)
    (fresh : Uuid) (now : Datetime) : LogCall where
  event := event
  sessionId := (event.sessionId.or currentSession).getD fresh
  parentId := event.parentEventId.or currentParent
  createdAt := now

def canonicalRowForSigning (c : EventContent) (hmacHex : String) : Json :=
  .obj
    [("event_id", .str c.eventId.str),
     ("session_id", .str c.sessionId.str),
     ("agent_id", .str c.agentId),
     ("parent_event_id", optionalUuid c.parentEventId),
     ("kind", .str c.kind),
     ("model", optionalText c.model),
     ("input_hash", optionalText c.inputHash),
     ("output_hash", optionalText c.outputHash),
     ("metadata", .obj c.metadata),
     ("prev_hash", optionalText c.prevHash),
     ("created_at", .str c.createdAt.isoformat),
     ("hmac", .str hmacHex)]

def signAuditRow (c : EventContent) (hmacHex : String) :
    Option Signer → Option Bytes × Option String × SignatureStatus
  | none => (none, none, .unsigned)
  | some sign =>
      match sign (canonicalRowForSigning c hmacHex).canonical with
      | some (signature, fingerprint) => (some signature, some fingerprint, .signed)
      | none => (none, none, .unsignedLocalFailure)

namespace LogCall

variable (K : ModuleKeys) (L : LogCall)

def recordContent (eventId : Uuid) (prevHash : Option String) : EventContent where
  eventId := eventId
  sessionId := L.sessionId
  agentId := L.event.agentId
  parentEventId := L.parentId
  kind := L.event.kind
  model := L.event.model
  inputHash := L.event.inputHash
  outputHash := L.event.outputHash
  metadata := L.event.metadata
  prevHash := prevHash
  createdAt := L.createdAt

def buildRecord (eventId : Uuid) (prevHash : Option String) :
    Option AuditEventRecord :=
  let content := L.recordContent eventId prevHash
  let mac := computeEventHmac K.hmac K.secret content
  let (signature, fingerprint, status) := signAuditRow content mac K.signer
  AuditEventRecord.construct ⟨content, mac, signature, fingerprint, status⟩

def degradedStartKind : String := "chain.degraded_start"

def markerMetadata : Metadata :=
  [("reason", .str "store unreachable at session start")]

def markerContent (markerId : Uuid) (markerTs : Datetime)
    (prevHash : Option String) : EventContent where
  eventId := markerId
  sessionId := L.sessionId
  agentId := L.event.agentId
  parentEventId := none
  kind := degradedStartKind
  model := none
  inputHash := none
  outputHash := none
  metadata := markerMetadata
  prevHash := prevHash
  createdAt := markerTs

def buildMarker (markerId : Uuid) (markerTs : Datetime)
    (prevHash : Option String) : Option AuditEventRecord :=
  let content := L.markerContent markerId markerTs prevHash
  AuditEventRecord.construct
    ⟨content, computeEventHmac K.hmac K.secret content, none, none, .unsigned⟩

end LogCall

/-- The callback passed to `insert_with_chain_lock`. -/
inductive ChainBuilder where
  | record (L : LogCall)
  | marker (L : LogCall)

namespace ChainBuilder

def logCall : ChainBuilder → LogCall
  | record L => L
  | marker L => L

/-- One invocation of the callback, with the id it draws and the time it reads. -/
def build (K : ModuleKeys) (b : ChainBuilder) (eventId : Uuid) (now : Datetime)
    (prevHash : Option String) : Option AuditEventRecord :=
  match b with
  | record L => L.buildRecord K eventId prevHash
  | marker L => L.buildMarker K eventId now prevHash

end ChainBuilder

/-! ## What a built record is -/

/-- `r` continues the chain of session `sid` after the digest `p`, and carries
its own HMAC. -/
structure BuiltOn (K : ModuleKeys) (sid : Uuid) (p : Option String)
    (r : AuditEventRecord) : Prop where
  sessionId : r.sessionId = sid
  prevHash : r.prevHash = p
  hmac : r.hmac = computeEventHmac K.hmac K.secret r.toEventContent

theorem BuiltOn.verifyEvent {K : ModuleKeys} {sid : Uuid} {p : Option String}
    {r : AuditEventRecord} (h : BuiltOn K sid p r) :
    verifyEvent K.hmac r K.secret = .ok true :=
  verifyEvent_eq_ok_true_iff.mpr h.hmac

theorem LogCall.buildRecord_spec {K : ModuleKeys} {L : LogCall} {eventId : Uuid}
    {p : Option String} {r : AuditEventRecord}
    (h : L.buildRecord K eventId p = some r) :
    r.toEventContent = L.recordContent eventId p ∧
      r.hmac = computeEventHmac K.hmac K.secret r.toEventContent := by
  have hfields := AuditEventRecord.construct_eq_some_iff.mp h
  rw [hfields]
  exact ⟨rfl, rfl⟩

theorem LogCall.buildMarker_spec {K : ModuleKeys} {L : LogCall} {markerId : Uuid}
    {markerTs : Datetime} {p : Option String} {r : AuditEventRecord}
    (h : L.buildMarker K markerId markerTs p = some r) :
    r.toEventContent = L.markerContent markerId markerTs p ∧
      r.hmac = computeEventHmac K.hmac K.secret r.toEventContent := by
  have hfields := AuditEventRecord.construct_eq_some_iff.mp h
  rw [hfields]
  exact ⟨rfl, rfl⟩

/-- Whatever a callback builds on `p` continues its session's chain after `p`. -/
theorem ChainBuilder.build_builtOn {K : ModuleKeys} {b : ChainBuilder}
    {eventId : Uuid} {now : Datetime} {p : Option String} {r : AuditEventRecord}
    (h : b.build K eventId now p = some r) : BuiltOn K b.logCall.sessionId p r := by
  cases b with
  | record L =>
      obtain ⟨hcontent, hmac⟩ := LogCall.buildRecord_spec h
      refine ⟨?_, ?_, hmac⟩ <;> rw [hcontent] <;> rfl
  | marker L =>
      obtain ⟨hcontent, hmac⟩ := LogCall.buildMarker_spec h
      refine ⟨?_, ?_, hmac⟩ <;> rw [hcontent] <;> rfl

end AgenticGovernance.Audit

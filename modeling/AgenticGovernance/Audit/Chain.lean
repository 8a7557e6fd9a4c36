import Mathlib
import AgenticGovernance.Audit.Models

/-!
# The HMAC of an audit event

`compute_event_hmac` authenticates the canonical JSON of eleven fields of an
event.  HMAC-SHA256 itself is a parameter: `Hmac` is a keyed function from
payload text to 256 bits, and nothing else is assumed of it here.

`eventPayload_inj` shows that the payload is unambiguous: equal canonical texts
come from equal fields, with metadata compared as dictionaries.
-/

namespace AgenticGovernance.Audit

open Support

/-- HMAC-SHA256, as a keyed function to 256 bits. -/
structure Hmac where
  digest : Bytes → String → BitVec 256

@[irreducible] def digestText (d : BitVec 256) : String :=
  String.ofList (fixedDigits 16 64 d.toNat)

/-- `hmac.new(key, message, hashlib.sha256).hexdigest()`. -/
def Hmac.hexdigest (H : Hmac) (key : Bytes) (message : String) : String :=
  digestText (H.digest key message)

/-- No two of the messages have the same digest under `key`. -/
def Hmac.CollisionFreeOn (H : Hmac) (key : Bytes) (messages : Set String) : Prop :=
  messages.InjOn (H.hexdigest key)

def optionalText : Option String → Json
  | none => .null
  | some s => .str s

def optionalUuid : Option Uuid → Json
  | none => .null
  | some u => .str u.str

/-- The dictionary that `compute_event_hmac` serializes. -/
def eventPayload (c : EventContent) : Json :=
  .obj
    [("event_id", .str c.eventId.str),
     ("session_id", .str c.sessionId.str),
     ("agent_id", .str c.agentId),
     ("parent_event_id", optionalUuid c.parentEventId),
     ("kind", .str c.kind),
     ("model", optionalText c.model),
     ("input_hash", optionalText c.inputHash),
     ("output_hash", optionalText c.outputHash),
     ("metadata", .obj c.metadata),
     ("prev_hash", optionalText c.prevHash),
     ("created_at", .str c.createdAt.isoformat)]

def computeEventHmac (H : Hmac) (secret : Bytes) (c : EventContent) : String :=
  H.hexdigest secret (eventPayload c).canonical

/-- Python errors that are not part of the audit error hierarchy. -/
inductive PyError where
  | typeError
  | runtimeError
  | validationError
  deriving DecidableEq, Repr

def isAscii (s : String) : Bool := s.toList.all fun c => c.toNat < 128

/-- `hmac.compare_digest` on two strings. -/
def compareDigest (a b : String) : Except PyError Bool :=
  if isAscii a && isAscii b then .ok (a == b) else .error .typeError

def verifyEvent (H : Hmac) (r : AuditEventRecord) (secret : Bytes) :
    Except PyError Bool :=
  compareDigest (computeEventHmac H secret r.toEventContent) r.hmac

/-! ## Reading the comparison -/

theorem toList_digestText (d : BitVec 256) :
    (digestText d).toList = fixedDigits 16 64 d.toNat := by
  rw [digestText, String.toList_ofList]

@[simp] theorem length_digestText (d : BitVec 256) : (digestText d).length = 64 := by
  rw [← String.length_toList, toList_digestText, length_fixedDigits]

theorem digestText_injective : Function.Injective digestText := by
  intro d e h
  apply BitVec.eq_of_toNat_eq
  apply fixedDigits_inj (b := 16) (w := 64) (by decide) (by decide)
  · simpa using d.isLt
  · simpa using e.isLt
  · rw [← toList_digestText, ← toList_digestText, h]

theorem isAscii_digestText (d : BitVec 256) : isAscii (digestText d) = true := by
  rw [isAscii, List.all_eq_true]
  intro c hc
  rw [toList_digestText] at hc
  obtain ⟨i, hi, rfl⟩ := isHexChar_of_mem_fixedDigits (by decide) (by decide) hc
  have hall : ∀ i : Fin 16, (Nat.digitChar i.val).toNat < 128 := by decide
  simpa using hall ⟨i, hi⟩

@[simp] theorem length_computeEventHmac (H : Hmac) (secret : Bytes)
    (c : EventContent) : (computeEventHmac H secret c).length = 64 :=
  length_digestText _

/-- A digest compares equal to exactly its own text. -/
theorem compareDigest_hexdigest_eq_ok_true_iff {H : Hmac} {key : Bytes}
    {message mac : String} :
    compareDigest (H.hexdigest key message) mac = .ok true ↔
      mac = H.hexdigest key message := by
  have hascii : isAscii (H.hexdigest key message) = true := isAscii_digestText _
  rw [compareDigest, hascii, Bool.true_and]
  constructor
  · intro h
    split at h
    · exact (beq_iff_eq.mp (Except.ok.inj h)).symm
    · cases h
  · intro h
    rw [if_pos (h ▸ hascii), beq_iff_eq.mpr h.symm]

theorem compareDigest_eq_ok_true_iff {H : Hmac} {key : Bytes} {c : EventContent}
    {mac : String} :
    compareDigest (computeEventHmac H key c) mac = .ok true ↔
      mac = computeEventHmac H key c :=
  compareDigest_hexdigest_eq_ok_true_iff

/-- `verify_event` accepts exactly the records that carry their own HMAC. -/
theorem verifyEvent_eq_ok_true_iff {H : Hmac} {r : AuditEventRecord}
    {secret : Bytes} :
    verifyEvent H r secret = .ok true ↔
      r.hmac = computeEventHmac H secret r.toEventContent :=
  compareDigest_eq_ok_true_iff

/-! ## The payload is unambiguous -/

/-- Agreement on every authenticated field, with metadata compared as JSON
values, that is up to the order of object entries. -/
structure SameContent (c d : EventContent) : Prop where
  eventId : c.eventId = d.eventId
  sessionId : c.sessionId = d.sessionId
  agentId : c.agentId = d.agentId
  parentEventId : c.parentEventId = d.parentEventId
  kind : c.kind = d.kind
  model : c.model = d.model
  inputHash : c.inputHash = d.inputHash
  outputHash : c.outputHash = d.outputHash
  metadata : (Json.obj c.metadata).sortKeys = (Json.obj d.metadata).sortKeys
  prevHash : c.prevHash = d.prevHash
  createdAt : c.createdAt = d.createdAt

@[simp] theorem sortKeys_optionalText (s : Option String) :
    (optionalText s).sortKeys = optionalText s := by
  cases s <;> rfl

@[simp] theorem sortKeys_optionalUuid (u : Option Uuid) :
    (optionalUuid u).sortKeys = optionalUuid u := by
  cases u <;> rfl

theorem optionalText_inj {s t : Option String}
    (h : optionalText s = optionalText t) : s = t := by
  cases s <;> cases t <;> simp_all [optionalText]

theorem optionalUuid_inj {u v : Option Uuid}
    (h : optionalUuid u = optionalUuid v) : u = v := by
  cases u with
  | none => cases v <;> simp_all [optionalUuid]
  | some u =>
      cases v with
      | none => simp [optionalUuid] at h
      | some v => exact congrArg some (Uuid.str_injective (Json.str.inj h))

/-- The payload as printed, with its keys in sorted order. -/
theorem sortKeys_eventPayload (c : EventContent) :
    (eventPayload c).sortKeys =
      .obj
        [("agent_id", .str c.agentId),
         ("created_at", .str c.createdAt.isoformat),
         ("event_id", .str c.eventId.str),
         ("input_hash", optionalText c.inputHash),
         ("kind", .str c.kind),
         ("metadata", (Json.obj c.metadata).sortKeys),
         ("model", optionalText c.model),
         ("output_hash", optionalText c.outputHash),
         ("parent_event_id", optionalUuid c.parentEventId),
         ("prev_hash", optionalText c.prevHash),
         ("session_id", .str c.sessionId.str)] := by
  simp only [eventPayload, Json.sortKeys, Json.sortFields, sortKeys_optionalText,
    sortKeys_optionalUuid]
  simp +decide [List.insertionSort, List.orderedInsert]

theorem eventPayload_inj {c d : EventContent}
    (h : (eventPayload c).canonical = (eventPayload d).canonical) :
    SameContent c d := by
  have hsorted := Json.canonical_inj h
  rw [sortKeys_eventPayload, sortKeys_eventPayload] at hsorted
  simp only [Json.obj.injEq, List.cons.injEq, Prod.mk.injEq, true_and, and_true,
    Json.str.injEq] at hsorted
  obtain ⟨hagent, hcreated, hevent, hinput, hkind, hmeta, hmodel, houtput,
    hparent, hprev, hsession⟩ := hsorted
  exact {
    eventId := Uuid.str_injective hevent
    sessionId := Uuid.str_injective hsession
    agentId := hagent
    parentEventId := optionalUuid_inj hparent
    kind := hkind
    model := optionalText_inj hmodel
    inputHash := optionalText_inj hinput
    outputHash := optionalText_inj houtput
    metadata := hmeta
    prevHash := optionalText_inj hprev
    createdAt := Datetime.isoformat_injective hcreated }

theorem canonical_ne_of_eventId_ne {c d : EventContent}
    (h : c.eventId ≠ d.eventId) :
    (eventPayload c).canonical ≠ (eventPayload d).canonical :=
  fun heq => h (eventPayload_inj heq).eventId

/-! ## HMACs with listed values -/

/-- The HMAC that takes the listed values and is zero elsewhere. -/
def Hmac.ofTable (table : List ((Bytes × String) × BitVec 256)) : Hmac where
  digest key message := (table.lookup (key, message)).getD 0

/-- The table entry of an event payload. -/
def tableEntry (key : Bytes) (c : EventContent) (d : BitVec 256) :
    (Bytes × String) × BitVec 256 :=
  ((key, (eventPayload c).canonical), d)

variable {key : Bytes} {c : EventContent}

theorem computeEventHmac_ofTable_self (d : BitVec 256)
    (table : List ((Bytes × String) × BitVec 256)) :
    computeEventHmac (Hmac.ofTable (tableEntry key c d :: table)) key c =
      digestText d := by
  simp [computeEventHmac, Hmac.hexdigest, Hmac.ofTable, tableEntry]

theorem computeEventHmac_ofTable_of_message_ne {key' : Bytes} {c' : EventContent}
    (h : (key, (eventPayload c).canonical) ≠ (key', (eventPayload c').canonical))
    (d : BitVec 256) (table : List ((Bytes × String) × BitVec 256)) :
    computeEventHmac (Hmac.ofTable (tableEntry key' c' d :: table)) key c =
      computeEventHmac (Hmac.ofTable table) key c := by
  simp only [computeEventHmac, Hmac.hexdigest, Hmac.ofTable, tableEntry,
    List.lookup_cons, beq_eq_false_iff_ne.mpr h]

theorem computeEventHmac_ofTable_of_ne {key' : Bytes} {c' : EventContent}
    (h : c.eventId ≠ c'.eventId ∨ key ≠ key') (d : BitVec 256)
    (table : List ((Bytes × String) × BitVec 256)) :
    computeEventHmac (Hmac.ofTable (tableEntry key' c' d :: table)) key c =
      computeEventHmac (Hmac.ofTable table) key c := by
  apply computeEventHmac_ofTable_of_message_ne
  intro heq
  rcases h with hid | hkey
  · exact canonical_ne_of_eventId_ne hid (congrArg Prod.snd heq)
  · exact hkey (congrArg Prod.fst heq)

end AgenticGovernance.Audit

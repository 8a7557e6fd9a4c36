import Mathlib
import AgenticGovernance.Audit.JsonlCodec

/-!
# Constructing an audit event

The constructor of `AuditEvent` checks the lengths of its strings and the size of its
metadata, and then rewrites every string: Unicode normalisation, a cut to the maximal
length, escapes for the backslash and three control characters, and removal of the other
control characters.  The rewritten values are not checked again, so they may be longer
than the limits, or empty.

`unicodedata.normalize("NFC", ·)` is the argument `nfc`.
-/

namespace AgenticGovernance.Audit

open Support

/-! ## Sanitizing -/

/-- `value.replace(c, by)` for a single character. -/
def replaceChar (c : Char) (by_ : List Char) (value : List Char) : List Char :=
  value.flatMap fun x => if x = c then by_ else [x]

/-- `[\x00-\x08\x0b\x0c\x0e-\x1f\x7f]` -/
def isC0Control (c : Char) : Bool :=
  c.toNat ≤ 8 || c.toNat = 11 || c.toNat = 12 || (14 ≤ c.toNat && c.toNat ≤ 31) ||
    c.toNat = 127

def defaultMaxStringLen : ℕ := 2048

def sanitizeString (nfc : String → String) (value : String) (maxLen : ℕ) : String :=
  let capped := (nfc value).toList.take maxLen
  let escaped :=
    replaceChar '\t' ['\\', 't'] (replaceChar '\r' ['\\', 'r']
      (replaceChar '\n' ['\\', 'n'] (replaceChar '\\' ['\\', '\\'] capped)))
  String.ofList (escaped.filter fun c => !isC0Control c)

theorem sanitizeString_of_nfc {nfc : String → String} {value : String}
    (hnfc : nfc value = value) (maxLen : ℕ) :
    sanitizeString nfc value maxLen = sanitizeString id value maxLen := by
  rw [sanitizeString, sanitizeString, hnfc]
  rfl

/-! ### Texts that are left alone -/

theorem replaceChar_of_not_mem {c : Char} {by_ s : List Char} (h : c ∉ s) :
    replaceChar c by_ s = s := by
  have hkept : ∀ x ∈ s, (if x = c then by_ else [x]) = [x] := by
    intro x hx
    apply if_neg
    rintro rfl
    exact h hx
  rw [replaceChar, List.flatMap_congr hkept, List.flatMap_singleton']

/-- A character that is neither escaped nor removed. -/
def isPlain (c : Char) : Bool :=
  c != '\\' && c != '\n' && c != '\r' && c != '\t' && !isC0Control c

/-- A short text of plain characters is left alone. -/
theorem sanitizeString_of_plain {s : List Char} {maxLen : ℕ} (hlength : s.length ≤ maxLen)
    (hplain : s.all isPlain = true) :
    sanitizeString id (String.ofList s) maxLen = String.ofList s := by
  have hcut : (String.ofList s).toList.take maxLen = s := by
    rw [String.toList_ofList, List.take_of_length_le hlength]
  have hkept : ∀ c ∈ s,
      c ≠ '\\' ∧ c ≠ '\n' ∧ c ≠ '\r' ∧ c ≠ '\t' ∧ isC0Control c = false := by
    intro c hc
    simpa [isPlain, and_assoc] using List.all_eq_true.mp hplain c hc
  rw [sanitizeString, id, hcut, replaceChar_of_not_mem (fun h => (hkept _ h).1 rfl),
    replaceChar_of_not_mem (fun h => (hkept _ h).2.1 rfl),
    replaceChar_of_not_mem (fun h => (hkept _ h).2.2.1 rfl),
    replaceChar_of_not_mem (fun h => (hkept _ h).2.2.2.1 rfl), List.filter_eq_self.mpr]
  intro c hc
  simp [(hkept c hc).2.2.2.2]

mutual

/-- `sanitize_metadata`: every string leaf, but no key. -/
def sanitizeMetadata (nfc : String → String) : PyValue → PyValue
  | .str s => .str (sanitizeString nfc s defaultMaxStringLen)
  | .list items => .list (sanitizeItems nfc items)
  | .tuple items => .tuple (sanitizeItems nfc items)
  | .dict entries => .dict (sanitizeEntries nfc entries)
  | .none => .none
  | .bool b => .bool b
  | .int n => .int n
  | .float x => .float x
  | .other text => .other text

def sanitizeItems (nfc : String → String) : List PyValue → List PyValue
  | [] => []
  | v :: items => sanitizeMetadata nfc v :: sanitizeItems nfc items

def sanitizeEntries (nfc : String → String) :
    List (PyKey × PyValue) → List (PyKey × PyValue)
  | [] => []
  | (k, v) :: entries => (k, sanitizeMetadata nfc v) :: sanitizeEntries nfc entries

end

/-! ## The constructor -/

/-- The keyword arguments of `AuditEvent`. -/
structure EventArgs where
  sessionId : Option Uuid
  agentId : String
  parentEventId : Option Uuid
  kind : String
  model : Option String
  inputHash : Option String
  outputHash : Option String
  metadata : List (String × PyValue)

def maxMetadataKeys : ℕ := 64

def maxMetadataTotalBytes : ℕ := 64 * 1024

/-- A metadata dictionary as a value. -/
def metadataDict (metadata : List (String × PyValue)) : PyValue :=
  .dict (metadata.map fun e => (.str e.1, e.2))

/-- `canonical_json` of metadata, read back. -/
def reloadedMetadata (metadata : List (String × PyValue)) : Option Metadata :=
  match (metadataDict metadata).reload with
  | some (.obj fields) => some fields
  | _ => none

/-- The length checks on the arguments and `_validate_metadata`.  The encoded metadata
is ASCII, so its bytes are its characters. -/
structure EventArgs.Accepted (a : EventArgs) : Prop where
  agentId : 1 ≤ a.agentId.length ∧ a.agentId.length ≤ maxAgentIdLen
  kind : 1 ≤ a.kind.length ∧ a.kind.length ≤ maxKindLen
  model : optionalWithin maxModelLen a.model
  inputHash : optionalWithin maxHashLen a.inputHash
  outputHash : optionalWithin maxHashLen a.outputHash
  keys : a.metadata.length ≤ maxMetadataKeys
  size : (metadataDict a.metadata).dumpsDefault.length ≤ maxMetadataTotalBytes

/-- A constructed event, with the metadata that the caller gave.  All other fields are
in `base`. -/
structure LoggedEvent where
  base : AuditEvent
  metadata : List (String × PyValue)
  base_metadata : base.metadata = []

/-- `model_post_init`, after the checks. -/
def EventArgs.sanitize (nfc : String → String) (a : EventArgs) : LoggedEvent where
  base :=
    { sessionId := a.sessionId
      agentId := sanitizeString nfc a.agentId maxAgentIdLen
      parentEventId := a.parentEventId
      kind := sanitizeString nfc a.kind maxKindLen
      model := a.model.map fun s => sanitizeString nfc s maxModelLen
      inputHash := a.inputHash.map fun s => sanitizeString nfc s maxHashLen
      outputHash := a.outputHash.map fun s => sanitizeString nfc s maxHashLen
      metadata := [] }
  metadata := a.metadata.map fun e => (e.1, sanitizeMetadata nfc e.2)
  base_metadata := rfl

instance (a : EventArgs) : Decidable a.Accepted :=
  decidable_of_iff
    ((1 ≤ a.agentId.length ∧ a.agentId.length ≤ maxAgentIdLen) ∧
      (1 ≤ a.kind.length ∧ a.kind.length ≤ maxKindLen) ∧
      optionalWithin maxModelLen a.model ∧
      optionalWithin maxHashLen a.inputHash ∧
      optionalWithin maxHashLen a.outputHash ∧
      a.metadata.length ≤ maxMetadataKeys ∧
      (metadataDict a.metadata).dumpsDefault.length ≤ maxMetadataTotalBytes)
    ⟨fun ⟨h₁, h₂, h₃, h₄, h₅, h₆, h₇⟩ => ⟨h₁, h₂, h₃, h₄, h₅, h₆, h₇⟩,
      fun ⟨h₁, h₂, h₃, h₄, h₅, h₆, h₇⟩ => ⟨h₁, h₂, h₃, h₄, h₅, h₆, h₇⟩⟩

/-- `AuditEvent(**args)`; `none` stands for the `ValidationError`. -/
def EventArgs.construct (nfc : String → String) (a : EventArgs) : Option LoggedEvent :=
  if a.Accepted then some (a.sanitize nfc) else none

theorem EventArgs.construct_eq_some_iff {nfc : String → String} {a : EventArgs}
    {event : LoggedEvent} :
    a.construct nfc = some event ↔ a.Accepted ∧ a.sanitize nfc = event := by
  rw [EventArgs.construct]
  by_cases haccepted : a.Accepted
  · simp [haccepted]
  · simp [haccepted]

end AgenticGovernance.Audit

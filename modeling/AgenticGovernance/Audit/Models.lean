import Mathlib
import AgenticGovernance.Support.Json
import AgenticGovernance.Support.Stamp

/-!
# Audit events and stored records

`AuditEvent` is what a caller hands to `AuditModule.log`, after its validators
have run.  `AuditEventRecord` is the stored form.  The record model is strict
and frozen: a value exists only if it passed the length checks of its fields,
which is the field `valid` below.  `AuditEventRecord.construct` is the
constructor call, which fails with a validation error otherwise.
-/

namespace AgenticGovernance.Audit

open Support

abbrev Bytes := List UInt8

/-- A `dict[str, Any]` of JSON values, in insertion order. -/
abbrev Metadata := List (String × Json)

def maxKindLen : ℕ := 128

def maxHashLen : ℕ := 128

def maxAgentIdLen : ℕ := 256

def maxModelLen : ℕ := 128

def minHmacLen : ℕ := 64

structure AuditEvent where
  sessionId : Option Uuid
  agentId : String
  parentEventId : Option Uuid
  kind : String
  model : Option String
  inputHash : Option String
  outputHash : Option String
  metadata : Metadata

/-- The fields that `compute_event_hmac` authenticates. -/
structure EventContent where
  eventId : Uuid
  sessionId : Uuid
  agentId : String
  parentEventId : Option Uuid
  kind : String
  model : Option String
  inputHash : Option String
  outputHash : Option String
  metadata : Metadata
  prevHash : Option String
  createdAt : Datetime

inductive SignatureStatus where
  | signed
  | unsigned
  | unsignedLocalFailure
  | legacyUnsigned
  | revokedKey
  | invalidSignature
  | unknownKey
  deriving DecidableEq, Repr

/-- The keyword arguments of `AuditEventRecord`. -/
structure RecordFields extends EventContent where
  hmac : String
  signature : Option Bytes
  signingKeyFingerprint : Option String
  signatureStatus : SignatureStatus

/-- An optional string of at most `n` code points. -/
def optionalWithin (n : ℕ) (s : Option String) : Prop :=
  ∀ t, s = some t → t.length ≤ n

instance (n : ℕ) (s : Option String) : Decidable (optionalWithin n s) :=
  match s with
  | none => isTrue (by rintro t ⟨⟩)
  | some t =>
      decidable_of_iff (t.length ≤ n)
        ⟨by rintro h _ ⟨⟩; exact h, fun h => h t rfl⟩

/-- The length constraints declared on the fields of `AuditEventRecord`. -/
structure RecordFields.Valid (f : RecordFields) : Prop where
  agentId : 1 ≤ f.agentId.length ∧ f.agentId.length ≤ maxAgentIdLen
  kind : 1 ≤ f.kind.length ∧ f.kind.length ≤ maxKindLen
  model : optionalWithin maxModelLen f.model
  inputHash : optionalWithin maxHashLen f.inputHash
  outputHash : optionalWithin maxHashLen f.outputHash
  prevHash : optionalWithin maxHashLen f.prevHash
  hmac : minHmacLen ≤ f.hmac.length ∧ f.hmac.length ≤ maxHashLen
  signingKeyFingerprint : optionalWithin maxHashLen f.signingKeyFingerprint

instance (f : RecordFields) : Decidable f.Valid :=
  decidable_of_iff
    ((1 ≤ f.agentId.length ∧ f.agentId.length ≤ maxAgentIdLen) ∧
      (1 ≤ f.kind.length ∧ f.kind.length ≤ maxKindLen) ∧
      optionalWithin maxModelLen f.model ∧
      optionalWithin maxHashLen f.inputHash ∧
      optionalWithin maxHashLen f.outputHash ∧
      optionalWithin maxHashLen f.prevHash ∧
      (minHmacLen ≤ f.hmac.length ∧ f.hmac.length ≤ maxHashLen) ∧
      optionalWithin maxHashLen f.signingKeyFingerprint)
    ⟨fun ⟨h₁, h₂, h₃, h₄, h₅, h₆, h₇, h₈⟩ => ⟨h₁, h₂, h₃, h₄, h₅, h₆, h₇, h₈⟩,
      fun ⟨h₁, h₂, h₃, h₄, h₅, h₆, h₇, h₈⟩ => ⟨h₁, h₂, h₃, h₄, h₅, h₆, h₇, h₈⟩⟩

structure AuditEventRecord extends RecordFields where
  valid : toRecordFields.Valid

/-- `AuditEventRecord(**fields)`; `none` stands for the `ValidationError`. -/
def AuditEventRecord.construct (f : RecordFields) : Option AuditEventRecord :=
  if h : f.Valid then some ⟨f, h⟩ else none

theorem AuditEventRecord.construct_eq_some_iff {f : RecordFields}
    {r : AuditEventRecord} :
    AuditEventRecord.construct f = some r ↔ r.toRecordFields = f := by
  unfold AuditEventRecord.construct
  constructor
  · intro h
    split at h
    · cases h
      rfl
    · cases h
  · rintro rfl
    rw [dif_pos r.valid]

/-- `hmac` of a placeholder record. -/
def placeholderHmac : String := String.ofList (List.replicate 64 '0')

def placeholderMetadataKey : String := "audit.unavailable"

end AgenticGovernance.Audit

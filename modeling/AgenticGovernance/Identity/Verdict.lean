import Mathlib
import AgenticGovernance.Audit.JsonlCodec
import AgenticGovernance.Identity.Registry
import AgenticGovernance.Identity.Revocation

/-!
# The verdict on the signature of a row

`verify_audit_row_signature` is given a row dictionary from outside, which need not be one
that this package wrote: a key may be missing and a value may be any object.  The verdict
goes through a ladder of early exits, of which the first returns a string that the row
itself carries.

`signed_sound_iff` says for which inputs the verdict `"signed"` can be relied on, and
`verify_signed_record` that the rows the package signs get it.
-/

namespace AgenticGovernance.Identity

open Audit Support

/-! ## The objects in a row -/

/-- What the verifier does with the objects of a row: the built-in operations of Python,
which raise on some of them (`none`). -/
structure PyObjects (V : Type) where
  pyNone : V
  ofString : String → V
  ofInt : ℤ → V
  /-- a dictionary display -/
  dict : List (String × V) → V
  /-- `bool(value)` -/
  truthy : V → Option Bool
  /-- `str(value)` -/
  str : V → Option String
  /-- `value.isoformat()` -/
  isoformat : V → Option V
  /-- `n <= value` -/
  atMost : ℕ → V → Option Bool
  /-- `json.dumps(value, sort_keys=True, separators=(",", ":"), default=str)` -/
  canonicalJson : V → Option String
  ofString_injective : Function.Injective ofString
  truthy_pyNone : truthy pyNone = some false
  truthy_ofString : ∀ s, truthy (ofString s) = some (decide (s ≠ ""))

/-- A dictionary with string keys. -/
abbrev RowDict (V : Type) := String → Option V

/-- The string of a `SignatureStatus`. -/
def statusValue : SignatureStatus → String
  | .signed => "signed"
  | .unsigned => "unsigned"
  | .unsignedLocalFailure => "unsigned_local_failure"
  | .legacyUnsigned => "legacy_unsigned"
  | .revokedKey => "revoked_key"
  | .invalidSignature => "invalid_signature"
  | .unknownKey => "unknown_key"

section

variable {V Key : Type} (P : PyObjects V)

/-- `value or default` -/
def PyObjects.orElse (value default : V) : Option V := do
  if ← P.truthy value then return value else return default

/-- `row.get(key)` -/
def RowDict.get (row : RowDict V) (key : String) : V := (row key).getD P.pyNone

/-- `str(parent_event_id) if parent_event_id else None` -/
def parentText (parentEventId : V) : Option V := do
  if ← P.truthy parentEventId then return P.ofString (← P.str parentEventId)
  else return P.pyNone

/-- `canonical_row_bytes_for_signing` of the fields of a row, as `sign_audit_row` and
`verify_audit_row_signature` call it.  A missing key raises. -/
def canonicalRowBytesForSigning (row : RowDict V) : Option String := do
  let eventId ← row "event_id"
  let sessionId ← row "session_id"
  let agentId ← row "agent_id"
  let kind ← row "kind"
  let metadata ← P.orElse (row.get P "metadata") (P.dict [])
  let createdAt ← row "created_at"
  let hmacHex ← row "hmac"
  P.canonicalJson (P.dict
    [("event_id", P.ofString (← P.str eventId)),
     ("session_id", P.ofString (← P.str sessionId)),
     ("agent_id", agentId),
     ("parent_event_id", ← parentText P (row.get P "parent_event_id")),
     ("kind", kind),
     ("model", row.get P "model"),
     ("input_hash", row.get P "input_hash"),
     ("output_hash", row.get P "output_hash"),
     ("metadata", metadata),
     ("prev_hash", row.get P "prev_hash"),
     ("created_at", ← P.isoformat createdAt),
     ("hmac", hmacHex)])

/-- What the calls into the `cryptography` package raise. -/
inductive CryptoError where
  | invalidSignature
  | valueError
  | typeError
  | unsupportedAlgorithm

/-- The public-key operations of the `cryptography` package. -/
structure Ed25519 (Key : Type) where
  loadPemPublicKey : String → Except CryptoError Key
  isEd25519PublicKey : Key → Bool
  verify : Key → Bytes → String → Except CryptoError Unit

/-- `Ed25519Signer.verify`; only an error that it does not catch is raised (`none`). -/
def Ed25519.signerVerify (E : Ed25519 Key) (canonicalRowBytes : String) (signature : Bytes)
    (publicKeyPem : String) : Option Bool :=
  match E.loadPemPublicKey publicKeyPem with
  | .error .unsupportedAlgorithm => none
  | .error _ => some false
  | .ok pub =>
      if E.isEd25519PublicKey pub then
        match E.verify pub signature canonicalRowBytes with
        | .ok () => some true
        | .error .unsupportedAlgorithm => none
        | .error _ => some false
      else some false

/-- `is_revoked_at` for an object from a row: the first revocation that is not after it
decides, and so does the first one that cannot be compared with it. -/
def RevocationMirror.revokedAtObject (m : RevocationMirror) (keyFingerprint : String)
    (chainSeq : V) : Option Bool :=
  (m.byFingerprint keyFingerprint).anyM fun r => P.atMost r.revokedAtChainSeq chainSeq

/-- `row_dict.get("chain_seq", 0)` -/
def chainSeqOf (row : RowDict V) : V := (row "chain_seq").getD (P.ofInt 0)

/-- `revocations is not None and revocations.is_revoked_at(...)` -/
def revokedAtRow (row : RowDict V) (fingerprint : String) :
    Option RevocationMirror → Option Bool
  | none => some false
  | some mirror => mirror.revokedAtObject P fingerprint (chainSeqOf P row)

/-- The first two questions about a fingerprint: revoked, and registered? -/
def lookupSigningKey (row : RowDict V) (fingerprint : String)
    (registry : Option AgentKeyRegistry) (revocations : Option RevocationMirror) :
    Option (Except SignatureStatus AgentKeyRecord) := do
  if ← revokedAtRow P row fingerprint revocations then return .error .revokedKey
  else
    match registry.bind fun g => g.getByFingerprint fingerprint with
    | none => return .error .unknownKey
    | some record => return .ok record

/-- `verify_audit_row_signature` -/
def verifyAuditRowSignature (E : Ed25519 Key) (row : RowDict V) (signature : Option Bytes)
    (fingerprint : Option String) (registry : Option AgentKeyRegistry)
    (revocations : Option RevocationMirror) : Option V :=
  match signature, fingerprint with
  | none, none =>
      P.orElse (row.get P "signature_status")
        (P.ofString (statusValue .legacyUnsigned))
  | some signature, some fingerprint => do
      match ← lookupSigningKey P row fingerprint registry revocations with
      | .error status => return P.ofString (statusValue status)
      | .ok record => do
          let canonical ← canonicalRowBytesForSigning P row
          let ok ← E.signerVerify canonical signature record.publicKeyPem
          return P.ofString (statusValue (if ok then .signed else .invalidSignature))
  | _, _ => return P.ofString (statusValue .invalidSignature)

/-! ## What a verdict stands for -/

/-- The signature verifies under the public key over the canonical bytes of the row. -/
def Ed25519.Verifies (E : Ed25519 Key) (publicKeyPem : String) (signature : Bytes)
    (row : RowDict V) : Prop :=
  ∃ pub canonical, E.loadPemPublicKey publicKeyPem = .ok pub ∧
    E.isEd25519PublicKey pub = true ∧ canonicalRowBytesForSigning P row = some canonical ∧
    E.verify pub signature canonical = .ok ()

/-- No revocation of the key is at or before the sequence number of the row. -/
def NotRevokedAt (row : RowDict V) (fingerprint : String)
    (revocations : Option RevocationMirror) : Prop :=
  ∀ mirror, revocations = some mirror → ∀ r ∈ mirror.records,
    r.keyFingerprint = fingerprint → P.atMost r.revokedAtChainSeq (chainSeqOf P row) = some false

/-- The key is registered and not revoked at the row, and the signature is its. -/
def SoundlySigned (E : Ed25519 Key) (row : RowDict V) (signature : Option Bytes)
    (fingerprint : Option String) (registry : Option AgentKeyRegistry)
    (revocations : Option RevocationMirror) : Prop :=
  ∃ sig fp g record, signature = some sig ∧ fingerprint = some fp ∧ registry = some g ∧
    g.getByFingerprint fp = some record ∧ NotRevokedAt P row fp revocations ∧
    E.Verifies P record.publicKeyPem sig row

/-- The row says of itself that it is signed, and comes with neither a signature nor a
fingerprint. -/
def SelfDeclared (row : RowDict V) (signature : Option Bytes) (fingerprint : Option String) :
    Prop :=
  signature = none ∧ fingerprint = none ∧
    row "signature_status" = some (P.ofString (statusValue .signed))

end

section

variable {V Key : Type} {P : PyObjects V} {E : Ed25519 Key} {row : RowDict V}
  {signature : Option Bytes} {fingerprint : Option String}
  {registry : Option AgentKeyRegistry} {revocations : Option RevocationMirror}

/-! ## The steps of the ladder -/

theorem statusValue_injective : Function.Injective statusValue := by
  intro a b h
  cases a <;> cases b <;> first | rfl | exact absurd h (by decide)

theorem ofString_statusValue_inj {a b : SignatureStatus}
    (h : P.ofString (statusValue a) = P.ofString (statusValue b)) : a = b :=
  statusValue_injective (P.ofString_injective h)

/-- A string default does not become another string. -/
theorem orElse_eq_ofString_iff {x : V} {s d : String} (hs : s ≠ "") (hne : d ≠ s) :
    P.orElse x (P.ofString d) = some (P.ofString s) ↔ x = P.ofString s := by
  rw [PyObjects.orElse]
  constructor
  · intro h
    rcases htruthy : P.truthy x with _ | b
    · simp [htruthy] at h
    · cases b with
      | true => simpa [htruthy] using h
      | false =>
          have hd : P.ofString d = P.ofString s := by simpa [htruthy] using h
          exact absurd (P.ofString_injective hd) hne
  · rintro rfl
    have htruthy : P.truthy (P.ofString s) = some true := by
      rw [P.truthy_ofString, decide_eq_true hs]
    simp [htruthy]

theorem get_eq_ofString_iff {key s : String} (hs : s ≠ "") :
    row.get P key = P.ofString s ↔ row key = some (P.ofString s) := by
  rw [RowDict.get]
  rcases hrow : row key with _ | v
  · have hne : P.pyNone ≠ P.ofString s := by
      intro h
      have htruthy := P.truthy_ofString s
      rw [← h, P.truthy_pyNone, decide_eq_true hs] at htruthy
      cases htruthy
    simp [hne]
  · simp

theorem anyM_eq_false_iff {α : Type} {f : α → Option Bool} {l : List α} :
    l.anyM f = some false ↔ ∀ a ∈ l, f a = some false := by
  induction l with
  | nil => simp [List.anyM]
  | cons a l ih =>
      rw [List.anyM, List.forall_mem_cons, ← ih]
      rcases f a with _ | b
      · simp
      · cases b with
        | true => simp
        | false => simp

theorem signerVerify_eq_true_iff {canonical pem : String} {sig : Bytes} :
    E.signerVerify canonical sig pem = some true ↔
      ∃ pub, E.loadPemPublicKey pem = .ok pub ∧ E.isEd25519PublicKey pub = true ∧
        E.verify pub sig canonical = .ok () := by
  rw [Ed25519.signerVerify]
  rcases hload : E.loadPemPublicKey pem with err | pub
  · cases err <;> simp
  · by_cases hkind : E.isEd25519PublicKey pub = true
    · rcases hverify : E.verify pub sig canonical with err | ⟨⟨⟩⟩
      · cases err <;> simp [hkind, hverify]
      · simp [hkind, hverify]
    · simp [hkind]

theorem revokedAtObject_eq_false_iff {mirror : RevocationMirror} {fp : String} {v : V} :
    mirror.revokedAtObject P fp v = some false ↔
      ∀ r ∈ mirror.records, r.keyFingerprint = fp →
        P.atMost r.revokedAtChainSeq v = some false := by
  rw [RevocationMirror.revokedAtObject, anyM_eq_false_iff, mirror.indexed]
  simp

theorem revokedAtRow_eq_false_iff {fp : String} :
    revokedAtRow P row fp revocations = some false ↔ NotRevokedAt P row fp revocations := by
  rcases revocations with _ | mirror
  · simp [revokedAtRow, NotRevokedAt]
  · simp [revokedAtRow, NotRevokedAt, revokedAtObject_eq_false_iff]

/-- The ladder reaches a public key exactly when its fingerprint is not revoked at the row
and is registered. -/
theorem lookupSigningKey_eq_ok_iff {fp : String} {record : AgentKeyRecord} :
    lookupSigningKey P row fp registry revocations = some (.ok record) ↔
      NotRevokedAt P row fp revocations ∧
        ∃ g, registry = some g ∧ g.getByFingerprint fp = some record := by
  rw [← revokedAtRow_eq_false_iff, ← Option.bind_eq_some_iff, lookupSigningKey]
  rcases revokedAtRow P row fp revocations with _ | b
  · simp
  · cases b with
    | true => simp
    | false =>
        rcases registry.bind fun g => g.getByFingerprint fp with _ | found
        · simp
        · simp

/-- A status that ends the ladder early is not `signed`. -/
theorem ne_signed_of_lookupSigningKey {fp : String} {status : SignatureStatus}
    (h : lookupSigningKey P row fp registry revocations = some (.error status)) :
    status ≠ .signed := by
  obtain ⟨revoked, -, h⟩ := Option.bind_eq_some_iff.mp h
  cases revoked with
  | true =>
      have hstatus : SignatureStatus.revokedKey = status := by simpa using h
      rw [← hstatus]
      decide
  | false =>
      rcases hfound : registry.bind fun g => g.getByFingerprint fp with _ | found
      · have hstatus : SignatureStatus.unknownKey = status := by simpa [hfound] using h
        rw [← hstatus]
        decide
      · simp [hfound] at h

/-! ## Soundness -/

/-- What the verdict `"signed"` means: the signature is sound, or the row declared it. -/
theorem verify_eq_signed_iff :
    verifyAuditRowSignature P E row signature fingerprint registry revocations =
        some (P.ofString (statusValue .signed)) ↔
      SoundlySigned P E row signature fingerprint registry revocations ∨
        SelfDeclared P row signature fingerprint := by
  rcases signature with _ | sig
  · rcases fingerprint with _ | fp
    · have hladder : verifyAuditRowSignature P E row none none registry revocations =
          P.orElse (row.get P "signature_status")
            (P.ofString (statusValue .legacyUnsigned)) := rfl
      rw [hladder, orElse_eq_ofString_iff (by decide) (by decide),
        get_eq_ofString_iff (by decide)]
      simp [SoundlySigned, SelfDeclared]
    · have hne : P.ofString (statusValue .invalidSignature) ≠
          P.ofString (statusValue .signed) :=
        fun h => absurd (ofString_statusValue_inj h) (by decide)
      simp [verifyAuditRowSignature, SoundlySigned, SelfDeclared, hne]
  · rcases fingerprint with _ | fp
    · have hne : P.ofString (statusValue .invalidSignature) ≠
          P.ofString (statusValue .signed) :=
        fun h => absurd (ofString_statusValue_inj h) (by decide)
      simp [verifyAuditRowSignature, SoundlySigned, SelfDeclared, hne]
    · rw [or_iff_left (by simp [SelfDeclared])]
      constructor
      · intro h
        obtain ⟨found, hfound, h⟩ := Option.bind_eq_some_iff.mp h
        rcases found with status | record
        · exact absurd (ofString_statusValue_inj (Option.some.inj h))
            (ne_signed_of_lookupSigningKey hfound)
        · obtain ⟨hrevoked, g, hg, hrecord⟩ := lookupSigningKey_eq_ok_iff.mp hfound
          obtain ⟨canonical, hcanonical, h⟩ := Option.bind_eq_some_iff.mp h
          obtain ⟨ok, hok, h⟩ := Option.bind_eq_some_iff.mp h
          cases ok with
          | true =>
              obtain ⟨pub, hload, hkind, hverify⟩ := signerVerify_eq_true_iff.mp hok
              exact ⟨sig, fp, g, record, rfl, rfl, hg, hrecord, hrevoked,
                pub, canonical, hload, hkind, hcanonical, hverify⟩
          | false =>
              exact absurd (ofString_statusValue_inj (Option.some.inj h)) (by decide)
      · intro ⟨sig', fp', g, record, hsig, hfp, hg, hrecord, hrevoked, pub, canonical,
          hload, hkind, hcanonical, hverify⟩
        cases hsig
        cases hfp
        have hfound := lookupSigningKey_eq_ok_iff.mpr ⟨hrevoked, g, hg, hrecord⟩
        have hok := signerVerify_eq_true_iff.mpr ⟨pub, hload, hkind, hverify⟩
        simp [verifyAuditRowSignature, hfound, hcanonical, hok]

/-- The verdict `"signed"` is sound exactly for the inputs that do not declare it. -/
theorem signed_sound_iff (P : PyObjects V) (E : Ed25519 Key) (row : RowDict V)
    (signature : Option Bytes) (fingerprint : Option String)
    (registry : Option AgentKeyRegistry) (revocations : Option RevocationMirror) :
    (verifyAuditRowSignature P E row signature fingerprint registry revocations =
        some (P.ofString (statusValue .signed)) →
      SoundlySigned P E row signature fingerprint registry revocations) ↔
      ¬SelfDeclared P row signature fingerprint := by
  rw [verify_eq_signed_iff]
  constructor
  · intro hsound hdeclared
    obtain ⟨sig, -, -, -, hsig, -⟩ := hsound (Or.inr hdeclared)
    rw [hdeclared.1] at hsig
    cases hsig
  · intro hnot h
    exact h.resolve_right hnot

end

/-! ## The rows that this package signs -/

/-- A value of a row dictionary that `sign_audit_row` is given. -/
inductive RowValue where
  | json (j : Json)
  | uuid (u : Uuid)
  | datetime (t : Datetime)

namespace RowValue

/-- What `json.dumps(value, default=str)` prints. -/
def toJson : RowValue → Json
  | json j => j
  | uuid u => .str u.str
  | datetime t => .str (String.ofList (t.isoText.map fun c => if c = 'T' then ' ' else c))

def truthy : RowValue → Bool
  | json j => Audit.truthy j
  | uuid _ => true
  | datetime _ => true

/-- `n <= value`, which raises on what is no number. -/
def atMost (leFloat : ℕ → PyFloat → Bool) (n : ℕ) : RowValue → Option Bool
  | json (.int m) => some ((n : ℤ) ≤ m)
  | json (.bool b) => some (n ≤ b.toNat)
  | json (.float x) => some (leFloat n x)
  | _ => none

/-- `str(value)`; `repr` is what it prints for a JSON value that is no string. -/
def str (repr : Json → String) : RowValue → String
  | json (.str s) => s
  | json j => repr j
  | uuid u => u.str
  | datetime t => String.ofList (t.isoText.map fun c => if c = 'T' then ' ' else c)

end RowValue

def rowObjects (repr : Json → String) (leFloat : ℕ → PyFloat → Bool) :
    PyObjects RowValue where
  pyNone := .json .null
  ofString s := .json (.str s)
  ofInt n := .json (.int n)
  dict entries := .json (.obj (entries.map fun e => (e.1, e.2.toJson)))
  truthy v := some v.truthy
  str v := some (v.str repr)
  isoformat
    | .datetime t => some (.json (.str t.isoformat))
    | _ => none
  atMost := RowValue.atMost leFloat
  canonicalJson v := some v.toJson.canonical
  ofString_injective := by
    rintro s t ⟨⟩
    rfl
  truthy_pyNone := rfl
  truthy_ofString _ := rfl

/-- The row dictionary of a record at a sequence number. -/
def recordRow (r : AuditEventRecord) (chainSeq : ℕ) : RowDict RowValue := fun key =>
  [("event_id", .uuid r.eventId),
   ("session_id", .uuid r.sessionId),
   ("agent_id", .json (.str r.agentId)),
   ("parent_event_id", (r.parentEventId.map .uuid).getD (.json .null)),
   ("kind", .json (.str r.kind)),
   ("model", .json (optionalText r.model)),
   ("input_hash", .json (optionalText r.inputHash)),
   ("output_hash", .json (optionalText r.outputHash)),
   ("metadata", .json (.obj r.metadata)),
   ("prev_hash", .json (optionalText r.prevHash)),
   ("created_at", .datetime r.createdAt),
   ("hmac", .json (.str r.hmac)),
   ("signature_status", .json (.str (statusValue r.signatureStatus))),
   ("chain_seq", RowValue.json (.int chainSeq))].lookup key

section

variable {repr : Json → String} {leFloat : ℕ → PyFloat → Bool} {r : AuditEventRecord}
  {chainSeq : ℕ}

/-- The verifier recomputes the bytes that were signed. -/
theorem canonicalRowBytes_recordRow :
    canonicalRowBytesForSigning (rowObjects repr leFloat) (recordRow r chainSeq) =
      some (canonicalRowForSigning r.toEventContent r.hmac).canonical := by
  have hmetadata : (rowObjects repr leFloat).orElse (.json (.obj r.metadata))
      ((rowObjects repr leFloat).dict []) = some (.json (.obj r.metadata)) := by
    rcases hm : r.metadata with _ | ⟨e, m⟩
    · rfl
    · rfl
  have hparent : parentText (rowObjects repr leFloat)
      ((r.parentEventId.map RowValue.uuid).getD (.json .null)) =
        some (.json (optionalUuid r.parentEventId)) := by
    rcases r.parentEventId with _ | u
    · rfl
    · rfl
  have hvalues : canonicalRowBytesForSigning (rowObjects repr leFloat) (recordRow r chainSeq) =
      (do
        let metadata ← (rowObjects repr leFloat).orElse (.json (.obj r.metadata))
          ((rowObjects repr leFloat).dict [])
        let parent ← parentText (rowObjects repr leFloat)
          ((r.parentEventId.map RowValue.uuid).getD (.json .null))
        (rowObjects repr leFloat).canonicalJson ((rowObjects repr leFloat).dict
          [("event_id", .json (.str r.eventId.str)),
           ("session_id", .json (.str r.sessionId.str)),
           ("agent_id", .json (.str r.agentId)),
           ("parent_event_id", parent),
           ("kind", .json (.str r.kind)),
           ("model", .json (optionalText r.model)),
           ("input_hash", .json (optionalText r.inputHash)),
           ("output_hash", .json (optionalText r.outputHash)),
           ("metadata", metadata),
           ("prev_hash", .json (optionalText r.prevHash)),
           ("created_at", .json (.str r.createdAt.isoformat)),
           ("hmac", .json (.str r.hmac))])) := rfl
  rw [hvalues, hmetadata, hparent]
  rfl

/-- A public key of the library accepts what the signer makes. -/
def Ed25519.Accepts {Key : Type} (E : Ed25519 Key) (sign : Signer) (publicKeyPem : String) :
    Prop :=
  ∀ message sig fp, sign message = some (sig, fp) →
    ∃ pub, E.loadPemPublicKey publicKeyPem = .ok pub ∧ E.isEd25519PublicKey pub = true ∧
      E.verify pub sig message = .ok ()

/-- A record that was signed has a signature and fingerprint of its own canonical bytes. -/
theorem signed_of_buildRecord {K : ModuleKeys} {L : LogCall} {eventId : Uuid}
    {prevHash : Option String} (hbuilt : L.buildRecord K eventId prevHash = some r)
    (hstatus : r.signatureStatus = .signed) :
    ∃ sign sig fp, K.signer = some sign ∧ r.signature = some sig ∧
      r.signingKeyFingerprint = some fp ∧
      sign (canonicalRowForSigning r.toEventContent r.hmac).canonical = some (sig, fp) := by
  have hfields := AuditEventRecord.construct_eq_some_iff.mp hbuilt
  obtain ⟨hcontent, hmac⟩ := LogCall.buildRecord_spec hbuilt
  rw [hmac, hcontent]
  rcases hsigner : K.signer with _ | sign
  · rw [hfields, hsigner] at hstatus
    cases hstatus
  · rcases hsign : sign (canonicalRowForSigning (L.recordContent eventId prevHash)
      (computeEventHmac K.hmac K.secret (L.recordContent eventId prevHash))).canonical with
      _ | ⟨sig, fp⟩
    · rw [hfields] at hstatus
      simp [hsigner, hsign] at hstatus
    · refine ⟨sign, sig, fp, rfl, ?_, ?_, hsign⟩
      · rw [hfields]
        simp [hsigner, hsign]
      · rw [hfields]
        simp [hsigner, hsign]

/-- A row that was signed by a registered key which accepts its signatures verifies, until
the key is revoked at or before the row. -/
theorem verify_signed_record {Key : Type} {E : Ed25519 Key} {K : ModuleKeys} {L : LogCall}
    {eventId : Uuid} {prevHash : Option String} {g : AgentKeyRegistry}
    {mirror : RevocationMirror} {fp : String} {record : AgentKeyRecord}
    (hbuilt : L.buildRecord K eventId prevHash = some r)
    (hstatus : r.signatureStatus = .signed) (hfp : r.signingKeyFingerprint = some fp)
    (hregistered : g.getByFingerprint fp = some record)
    (haccepts : ∀ sign, K.signer = some sign → E.Accepts sign record.publicKeyPem)
    (hrevoked : mirror.isRevokedAt fp chainSeq = false) :
    verifyAuditRowSignature (rowObjects repr leFloat) E (recordRow r chainSeq) r.signature
        r.signingKeyFingerprint (some g) (some mirror) =
      some ((rowObjects repr leFloat).ofString (statusValue .signed)) := by
  obtain ⟨sign, sig, fp', hsigner, hsig, hfp', hsign⟩ := signed_of_buildRecord hbuilt hstatus
  have heq : fp' = fp := Option.some.inj (hfp'.symm.trans hfp)
  subst heq
  obtain ⟨pub, hload, hkind, hverify⟩ := haccepts sign hsigner _ _ _ hsign
  apply verify_eq_signed_iff.mpr
  refine Or.inl ⟨sig, fp', g, record, hsig, hfp, rfl, hregistered, ?_, pub, _, hload, hkind,
    canonicalRowBytes_recordRow, hverify⟩
  rintro m hm r' hr' hkey
  cases hm
  have hnot : ¬r'.revokedAtChainSeq ≤ chainSeq := by
    intro hle
    rw [RevocationMirror.isRevokedAt_iff.mpr ⟨r', hr', hkey, hle⟩] at hrevoked
    cases hrevoked
  change some (decide ((r'.revokedAtChainSeq : ℤ) ≤ (chainSeq : ℤ))) = some false
  rw [decide_eq_false (by exact_mod_cast hnot)]

end

/-- A row with nothing in it but a status. -/
def declaredRow : RowDict RowValue := fun key =>
  [("signature_status", RowValue.json (.str "signed"))].lookup key

/-- A library to which no text is a public key. -/
def noKeys : Ed25519 Unit where
  loadPemPublicKey _ := .error .valueError
  isEd25519PublicKey _ := false
  verify _ _ _ := .error .invalidSignature

/-- The row is reported as signed, although no key is registered and none would verify. -/
theorem declared_row_signed :
    verifyAuditRowSignature (rowObjects (fun _ => "") fun _ _ => false) noKeys declaredRow
        none none (some .empty) (some .empty) = some (.json (.str "signed")) ∧
      ¬SoundlySigned (rowObjects (fun _ => "") fun _ _ => false) noKeys declaredRow
        none none (some .empty) (some .empty) := by
  refine ⟨rfl, ?_⟩
  rintro ⟨sig, -, -, -, hsig, -⟩
  cases hsig

end AgenticGovernance.Identity

import Mathlib
import AgenticGovernance.Audit.Keys
import AgenticGovernance.Support.Segments

/-!
# Approval tokens

A token is a colon-separated body followed by the HMAC of the body.  The body holds a
request id, the hash of the approved action and an expiry, whose ISO text contains
colons itself.  The format `v2` puts a version tag and the first sixteen characters of
the signing key's fingerprint in front, so that a token outlives a rotation of the key
as long as `GOVERNANCE_CHAIN_KEY_<prefix>` still leads to the old one.

`TokenBody` is a body cut into its fields.  `TokenBody.text_injective` says that a text
can be cut in one way only, across both formats.
-/

namespace AgenticGovernance.Gates

open Support Audit

def tokenVersionV2 : String := "v2"

def keyPrefixLen : ℕ := 16

/-- `_key_prefix` -/
def keyPrefix (H : Hmac) (secret : Bytes) : String :=
  String.ofList ((fingerprintKey H secret).toList.take keyPrefixLen)

def chainKeyEnv (tag : String) : String := "GOVERNANCE_CHAIN_KEY_" ++ tag

def resolveSecretForPrefix (H : Hmac) (S : KeySource) (tag : String)
    (currentSecret : Bytes) : Option Bytes :=
  if keyPrefix H currentSecret = tag then some currentSecret
  else
    match S.environ (chainKeyEnv tag) with
    | none => none
    | some uri =>
        if uri = "" then none
        else
          match resolveUri S uri with
          | none => none
          | some material => if keyPrefix H material ≠ tag then none else some material

/-- `ApprovalTokenError`, `TokenVersionTooOldError`, and the `TypeError` of comparing a
digest with text that is not ASCII, or a naive time with an aware one. -/
inductive TokenError where
  | approvalToken (message : String)
  | tokenVersionTooOld (message : String)
  | typeError
  deriving DecidableEq, Repr

def sunsetMessage (acceptV1Until : Datetime) : String :=
  "approval token: legacy v1 format rejected — this " ++
  "deployment stopped accepting pre-v0.6.2 tokens on " ++
  acceptV1Until.isoformat ++ ". Set " ++
  "GOVERNANCE_GATES_ACCEPT_V1_UNTIL=<ISO date> for a " ++
  "grace-window override (logged as " ++
  "gates.v1_sunset_overridden). Re-mint the approval " ++
  "request under v0.6.2+ to get a v2 token."

def makeToken (H : Hmac) (secret : Bytes) (requestId : Uuid) (actionHash : String)
    (expiresAt : Datetime) (useV2 : Bool) : String :=
  let body :=
    if useV2 then
      tokenVersionV2 ++ ":" ++ keyPrefix H secret ++ ":" ++ requestId.str ++ ":" ++
        actionHash ++ ":" ++ expiresAt.isoformat
    else requestId.str ++ ":" ++ actionHash ++ ":" ++ expiresAt.isoformat
  body ++ ":" ++ H.hexdigest secret body

/-- The key that verifies a body, and the index of its request id.  A warning for a
legacy token is only a warning. -/
def selectKey (H : Hmac) (S : KeySource) (secret : Bytes) (bodyParts : List String)
    (acceptV1Until : Option Datetime) (now : Datetime) : Except TokenError (Bytes × ℕ) :=
  match bodyParts with
  | version :: tag :: _ =>
      if version = tokenVersionV2 then
        if tag.length ≠ keyPrefixLen then
          .error (.approvalToken "approval token: malformed key prefix")
        else
          match resolveSecretForPrefix H S tag secret with
          | none => .error (.approvalToken "approval token: historical key unavailable")
          | some resolved => .ok (resolved, 2)
      else legacy
  | _ => legacy
where
  legacy : Except TokenError (Bytes × ℕ) :=
    match acceptV1Until with
    | none => .ok (secret, 0)
    | some cutoff =>
        match now.gt? cutoff with
        | none => .error .typeError
        | some true => .error (.tokenVersionTooOld (sunsetMessage cutoff))
        | some false => .ok (secret, 0)

/-- `if expires_at.tzinfo is None: expires_at.replace(tzinfo=timezone.utc)` -/
def awareExpiry (t : Datetime) : Datetime :=
  if t.utcoffset = none then { t with utcoffset := some .utc } else t

/-- The part of `parse_token` after the signature check. -/
def readFields (R : StampReader) (now : Datetime) (fields : List String) :
    Except TokenError (Uuid × String × Datetime) :=
  match fields with
  | requestIdText :: actionHash :: expiry₀ :: expiry =>
      match R.uuid requestIdText with
      | none => .error (.approvalToken "approval token: bad request_id")
      | some requestId =>
          match R.fromisoformat (joinWith ':' (expiry₀ :: expiry)) with
          | none => .error (.approvalToken "approval token: bad expiration")
          | some expiresAt =>
              match now.gt? (awareExpiry expiresAt) with
              | none => .error .typeError
              | some true => .error (.approvalToken "approval token: expired")
              | some false => .ok (requestId, actionHash, awareExpiry expiresAt)
  | _ => .error (.approvalToken "approval token: malformed body")

/-- `parse_token`.  It reads the clock once for the sunset of the legacy format and
once for the expiry. -/
def parseToken (H : Hmac) (R : StampReader) (S : KeySource) (secret : Bytes)
    (token : String) (acceptV1Until : Option Datetime) (sunsetNow now : Datetime) :
    Except TokenError (Uuid × String × Datetime) :=
  let parts := segments ':' token
  if parts.length < 4 then .error (.approvalToken "approval token: malformed")
  else
    let body := joinWith ':' parts.dropLast
    let providedMac := parts.getLast (segments_ne_nil token)
    let bodyParts := segments ':' body
    match selectKey H S secret bodyParts acceptV1Until sunsetNow with
    | .error e => .error e
    | .ok (verifySecret, start) =>
        match compareDigest (H.hexdigest verifySecret body) providedMac with
        | .error _ => .error .typeError
        | .ok false => .error (.approvalToken "approval token: signature mismatch")
        | .ok true => readFields R now (bodyParts.drop start)

/-! ## Bodies -/

inductive TokenFormat where
  | v1
  | v2 (tag : String)
  deriving DecidableEq, Repr

/-- The segments in front of the request id. -/
def TokenFormat.header : TokenFormat → List String
  | .v1 => []
  | .v2 tag => [tokenVersionV2, tag]

/-- A body in its fields.  Only the text of the expiry may contain colons, and a legacy
body does not start like a `v2` body. -/
structure TokenBody where
  format : TokenFormat
  requestIdText : String
  actionHash : String
  expiryText : String
  header_colonFree : ∀ part ∈ format.header, ':' ∉ part.toList
  requestId_colonFree : ':' ∉ requestIdText.toList
  actionHash_colonFree : ':' ∉ actionHash.toList
  legacy_untagged : format = .v1 → requestIdText ≠ tokenVersionV2

namespace TokenBody

def parts (b : TokenBody) : List String :=
  b.format.header ++ b.requestIdText :: b.actionHash :: segments ':' b.expiryText

def text (b : TokenBody) : String := joinWith ':' b.parts

/-- The triple that the fields stand for. -/
def read (b : TokenBody) (R : StampReader) : Option (Uuid × String × Datetime) := do
  let requestId ← R.uuid b.requestIdText
  let expiresAt ← R.fromisoformat b.expiryText
  some (requestId, b.actionHash, awareExpiry expiresAt)

/-- The keys that may have signed a body: the current secret, or for `v2` a key whose
fingerprint starts with the sixteen characters of the tag. -/
def SignedBy (b : TokenBody) (H : Hmac) (secret key : Bytes) : Prop :=
  match b.format with
  | .v1 => key = secret
  | .v2 tag => tag.length = keyPrefixLen ∧ keyPrefix H key = tag

theorem parts_ne_nil (b : TokenBody) : b.parts ≠ [] := by
  simp [parts]

theorem parts_colonFree (b : TokenBody) : ∀ part ∈ b.parts, ':' ∉ part.toList := by
  intro part hpart
  rcases List.mem_append.mp hpart with hheader | hfields
  · exact b.header_colonFree part hheader
  · rcases List.mem_cons.mp hfields with rfl | hfields
    · exact b.requestId_colonFree
    · rcases List.mem_cons.mp hfields with rfl | hexpiry
      · exact b.actionHash_colonFree
      · exact not_mem_of_mem_segments hexpiry

@[simp] theorem segments_text (b : TokenBody) : segments ':' b.text = b.parts :=
  segments_joinWith b.parts_ne_nil b.parts_colonFree

/-- A text can be cut into the fields of a body in one way. -/
theorem text_injective : Function.Injective text := by
  intro b b' h
  have hparts : b.parts = b'.parts := by
    rw [← segments_text b, h, segments_text b']
  obtain ⟨format, rid, hash, expiry, hheader, hrid, hhash, hlegacy⟩ := b
  obtain ⟨format', rid', hash', expiry', hheader', hrid', hhash', hlegacy'⟩ := b'
  rcases format with _ | tag <;> rcases format' with _ | tag'
  · simp only [parts, TokenFormat.header, List.nil_append, List.cons.injEq] at hparts
    obtain ⟨rfl, rfl, hexpiry⟩ := hparts
    obtain rfl := segments_injective hexpiry
    rfl
  · simp only [parts, TokenFormat.header, List.nil_append, List.cons_append,
      List.cons.injEq] at hparts
    exact absurd hparts.1 (hlegacy rfl)
  · simp only [parts, TokenFormat.header, List.nil_append, List.cons_append,
      List.cons.injEq] at hparts
    exact absurd hparts.1.symm (hlegacy' rfl)
  · simp only [parts, TokenFormat.header, List.nil_append, List.cons_append,
      List.cons.injEq, true_and] at hparts
    obtain ⟨rfl, rfl, rfl, hexpiry⟩ := hparts
    obtain rfl := segments_injective hexpiry
    rfl

end TokenBody

/-! ## Colon-free texts -/

theorem ne_colon_of_isHexChar {c : Char} (h : IsHexChar c) : c ≠ ':' := by
  obtain ⟨d, hd, rfl⟩ := h
  have hall : ∀ i : Fin 16, Nat.digitChar i.val ≠ ':' := by decide
  exact hall ⟨d, hd⟩

theorem colonFree_hexdigest (H : Hmac) (key : Bytes) (message : String) :
    ':' ∉ (H.hexdigest key message).toList := by
  intro hmem
  rw [Hmac.hexdigest, toList_digestText] at hmem
  exact ne_colon_of_isHexChar (isHexChar_of_mem_fixedDigits (by decide) (by decide) hmem) rfl

theorem colonFree_keyPrefix (H : Hmac) (secret : Bytes) :
    ':' ∉ (keyPrefix H secret).toList := by
  intro hmem
  rw [keyPrefix, String.toList_ofList] at hmem
  exact colonFree_hexdigest H secret _ (List.mem_of_mem_take hmem)

@[simp] theorem length_keyPrefix (H : Hmac) (secret : Bytes) :
    (keyPrefix H secret).length = keyPrefixLen := by
  have hlength : (fingerprintKey H secret).toList.length = 64 := length_fingerprintKey H secret
  simp [keyPrefix, hlength, keyPrefixLen]

theorem colonFree_str (u : Uuid) : ':' ∉ u.str.toList := by
  intro hmem
  have hdashed : ':' ∈ u.dashed.filter (· ≠ '-') := by
    rw [List.mem_filter]
    exact ⟨by simpa [Uuid.str] using hmem, by decide⟩
  rw [u.filter_dashed] at hdashed
  exact ne_colon_of_isHexChar
    (isHexChar_of_mem_fixedDigits (by decide) (by decide) hdashed) rfl

theorem str_ne_tokenVersionV2 (u : Uuid) : u.str ≠ tokenVersionV2 := by
  intro h
  have hlength : u.dashed.length = tokenVersionV2.toList.length := by
    rw [← h, Uuid.str, String.toList_ofList]
  have hlong : 32 ≤ u.dashed.length := by
    have hhex : u.hex.length = 32 := by simp [Uuid.hex]
    rw [← hhex, ← u.filter_dashed]
    exact List.length_filter_le ..
  rw [show tokenVersionV2.toList.length = 2 from rfl] at hlength
  omega

/-- The body that `make_token` signs. -/
def mintedBody (format : TokenFormat) (hformat : ∀ part ∈ format.header, ':' ∉ part.toList)
    (requestId : Uuid) (actionHash : String) (hhash : ':' ∉ actionHash.toList)
    (expiresAt : Datetime) : TokenBody where
  format := format
  requestIdText := requestId.str
  actionHash := actionHash
  expiryText := expiresAt.isoformat
  header_colonFree := hformat
  requestId_colonFree := colonFree_str requestId
  actionHash_colonFree := hhash
  legacy_untagged := fun _ => str_ne_tokenVersionV2 requestId

theorem segments_colon (s t : String) :
    segments ':' (s ++ ":" ++ t) = segments ':' s ++ segments ':' t :=
  segments_append s t

theorem header_v1_colonFree : ∀ part ∈ TokenFormat.v1.header, ':' ∉ part.toList := by
  simp [TokenFormat.header]

theorem header_v2_colonFree (H : Hmac) (secret : Bytes) :
    ∀ part ∈ (TokenFormat.v2 (keyPrefix H secret)).header, ':' ∉ part.toList := by
  intro part hpart
  rcases List.mem_cons.mp hpart with rfl | hpart
  · decide
  · rw [List.mem_singleton.mp hpart]
    exact colonFree_keyPrefix H secret

section Mint

variable {H : Hmac} {secret : Bytes} {requestId : Uuid} {actionHash : String}
  {expiresAt : Datetime}

theorem makeToken_v1 (hhash : ':' ∉ actionHash.toList) :
    makeToken H secret requestId actionHash expiresAt false =
      let body := (mintedBody .v1 header_v1_colonFree requestId actionHash hhash expiresAt).text
      body ++ ":" ++ H.hexdigest secret body := by
  have hbody : requestId.str ++ ":" ++ actionHash ++ ":" ++ expiresAt.isoformat =
      (mintedBody .v1 header_v1_colonFree requestId actionHash hhash expiresAt).text := by
    apply segments_injective (c := ':')
    rw [TokenBody.segments_text, segments_colon, segments_colon,
      segments_eq_singleton (colonFree_str requestId), segments_eq_singleton hhash]
    simp only [TokenBody.parts, mintedBody, TokenFormat.header, List.nil_append,
      List.cons_append]
  rw [makeToken, ← hbody, if_neg Bool.false_ne_true]

theorem makeToken_v2 (hhash : ':' ∉ actionHash.toList) :
    makeToken H secret requestId actionHash expiresAt true =
      let body := (mintedBody (.v2 (keyPrefix H secret)) (header_v2_colonFree H secret)
        requestId actionHash hhash expiresAt).text
      body ++ ":" ++ H.hexdigest secret body := by
  have hbody : tokenVersionV2 ++ ":" ++ keyPrefix H secret ++ ":" ++ requestId.str ++ ":" ++
      actionHash ++ ":" ++ expiresAt.isoformat =
      (mintedBody (.v2 (keyPrefix H secret)) (header_v2_colonFree H secret)
        requestId actionHash hhash expiresAt).text := by
    apply segments_injective (c := ':')
    rw [TokenBody.segments_text, segments_colon, segments_colon, segments_colon,
      segments_colon, segments_eq_singleton (colonFree_str requestId),
      segments_eq_singleton hhash, segments_eq_singleton (colonFree_keyPrefix H secret),
      segments_eq_singleton (by decide)]
    simp only [TokenBody.parts, mintedBody, TokenFormat.header, List.nil_append,
      List.cons_append]
  rw [makeToken, ← hbody, if_pos rfl]

end Mint

/-! ## Minted tokens are accepted -/

section Parse

variable {H : Hmac} {R : StampReader} {S : KeySource} {secret key : Bytes}
  {acceptV1Until : Option Datetime} {sunsetNow now : Datetime}

/-- A token over a body with enough fields, signed with the key that its header
selects, is read as its fields. -/
theorem parseToken_signed (b : TokenBody) {start : ℕ}
    (hkey : selectKey H S secret b.parts acceptV1Until sunsetNow = .ok (key, start)) :
    parseToken H R S secret (b.text ++ ":" ++ H.hexdigest key b.text) acceptV1Until
      sunsetNow now = readFields R now (b.parts.drop start) := by
  have hparts : segments ':' (b.text ++ ":" ++ H.hexdigest key b.text) =
      b.parts ++ [H.hexdigest key b.text] := by
    rw [segments_colon, TokenBody.segments_text,
      segments_eq_singleton (colonFree_hexdigest H key b.text)]
  have hlength : 3 ≤ b.parts.length := by
    have hexpiry := List.length_pos_iff.mpr (segments_ne_nil (c := ':') b.expiryText)
    simp only [TokenBody.parts, List.length_append, List.length_cons]
    omega
  have hmac : compareDigest (H.hexdigest key b.text) (H.hexdigest key b.text) = .ok true :=
    compareDigest_hexdigest_eq_ok_true_iff.mpr rfl
  have hbody : joinWith ':' b.parts = b.text := rfl
  rw [parseToken]
  simp only [hparts, List.dropLast_concat, List.getLast_append_singleton, hbody,
    TokenBody.segments_text, hkey, hmac]
  rw [if_neg]
  simp only [List.length_append, List.length_singleton]
  omega

theorem readFields_parts (b : TokenBody) {requestId : Uuid} {expiresAt : Datetime}
    (hid : R.uuid b.requestIdText = some requestId)
    (hexpiry : R.fromisoformat b.expiryText = some expiresAt)
    (hunexpired : now.gt? (awareExpiry expiresAt) = some false) :
    readFields R now (b.requestIdText :: b.actionHash :: segments ':' b.expiryText) =
      .ok (requestId, b.actionHash, awareExpiry expiresAt) := by
  obtain ⟨first, rest, hsegments⟩ :=
    List.exists_cons_of_ne_nil (segments_ne_nil (c := ':') b.expiryText)
  rw [hsegments, readFields, hid]
  simp only [← hsegments, joinWith_segments, hexpiry, hunexpired]

/-- An aware expiry that has not passed. -/
structure Unexpired (now expiresAt : Datetime) : Prop where
  aware : expiresAt.utcoffset.isSome
  notPassed : now.instant ≤ expiresAt.instant

theorem Unexpired.awareExpiry_eq {expiresAt : Datetime} (h : Unexpired now expiresAt) :
    awareExpiry expiresAt = expiresAt := by
  rw [awareExpiry, if_neg (Option.isSome_iff_ne_none.mp h.aware)]

theorem Unexpired.gt?_eq {expiresAt : Datetime} (hnow : now.utcoffset.isSome)
    (h : Unexpired now expiresAt) : now.gt? expiresAt = some false := by
  rw [Datetime.gt?, if_pos (by rw [hnow, h.aware])]
  simpa using h.notPassed

theorem readFields_minted (hnow : now.utcoffset.isSome) {format : TokenFormat}
    (hformat : ∀ part ∈ format.header, ':' ∉ part.toList) {requestId : Uuid}
    {actionHash : String} (hhash : ':' ∉ actionHash.toList) {expiresAt : Datetime}
    (hexpiry : Unexpired now expiresAt) :
    let b := mintedBody format hformat requestId actionHash hhash expiresAt
    readFields R now (b.parts.drop format.header.length) =
      .ok (requestId, actionHash, expiresAt) := by
  intro b
  have haware := hexpiry.awareExpiry_eq
  have hgt : now.gt? (awareExpiry expiresAt) = some false := by
    rw [haware]
    exact hexpiry.gt?_eq hnow
  have hread := readFields_parts (R := R) b (R.uuid_str requestId)
    (R.fromisoformat_isoformat expiresAt) hgt
  rw [haware] at hread
  have hdrop : b.parts.drop format.header.length =
      b.requestIdText :: b.actionHash :: segments ':' b.expiryText := List.drop_left ..
  rw [hdrop]
  exact hread

theorem selectKey_v2 {tag : String} {rest : List String} (hlength : tag.length = keyPrefixLen)
    (hresolve : resolveSecretForPrefix H S tag secret = some key) :
    selectKey H S secret (tokenVersionV2 :: tag :: rest) acceptV1Until sunsetNow =
      .ok (key, 2) := by
  simp [selectKey, hlength, hresolve]

theorem selectKey_legacy {version tag : String} {rest : List String}
    (hversion : version ≠ tokenVersionV2)
    (hsunset : ∀ cutoff, acceptV1Until = some cutoff → sunsetNow.gt? cutoff = some false) :
    selectKey H S secret (version :: tag :: rest) acceptV1Until sunsetNow =
      .ok (secret, 0) := by
  rw [selectKey, if_neg hversion]
  rcases acceptV1Until with _ | cutoff
  · rfl
  · simp [selectKey.legacy, hsunset cutoff rfl]

theorem resolveUri_empty : resolveUri S "" = none := rfl

/-- The minting key is found: as the current secret, or through the environment. -/
theorem resolveSecretForPrefix_eq (htag : Set.InjOn (keyPrefix H) {secret, key})
    (h : key = secret ∨ ∃ uri, S.environ (chainKeyEnv (keyPrefix H key)) = some uri ∧
      resolveUri S uri = some key) :
    resolveSecretForPrefix H S (keyPrefix H key) secret = some key := by
  rw [resolveSecretForPrefix]
  by_cases hsame : keyPrefix H secret = keyPrefix H key
  · rw [if_pos hsame, htag (by simp) (by simp) hsame]
  · rw [if_neg hsame]
    rcases h with rfl | ⟨uri, henv, huri⟩
    · exact absurd rfl hsame
    · have hne : uri ≠ "" := by
        rintro rfl
        rw [resolveUri_empty] at huri
        cases huri
      simp [henv, hne, huri]

theorem parseToken_makeToken_v2 (hnow : now.utcoffset.isSome)
    (htag : Set.InjOn (keyPrefix H) {secret, key})
    (hkey : key = secret ∨ ∃ uri, S.environ (chainKeyEnv (keyPrefix H key)) = some uri ∧
      resolveUri S uri = some key) (requestId : Uuid) {actionHash : String}
    (hhash : ':' ∉ actionHash.toList) {expiresAt : Datetime}
    (hexpiry : Unexpired now expiresAt) :
    parseToken H R S secret (makeToken H key requestId actionHash expiresAt true)
      acceptV1Until sunsetNow now = .ok (requestId, actionHash, expiresAt) := by
  rw [makeToken_v2 hhash]
  have hselect : selectKey H S secret
      (mintedBody (.v2 (keyPrefix H key)) (header_v2_colonFree H key) requestId actionHash
        hhash expiresAt).parts acceptV1Until sunsetNow = .ok (key, 2) :=
    selectKey_v2 (length_keyPrefix H key) (resolveSecretForPrefix_eq htag hkey)
  rw [parseToken_signed _ hselect]
  exact readFields_minted hnow (header_v2_colonFree H key) hhash hexpiry

theorem parseToken_makeToken_v1 (hnow : now.utcoffset.isSome)
    (hsunset : ∀ cutoff, acceptV1Until = some cutoff → sunsetNow.gt? cutoff = some false)
    (requestId : Uuid) {actionHash : String} (hhash : ':' ∉ actionHash.toList)
    {expiresAt : Datetime} (hexpiry : Unexpired now expiresAt) :
    parseToken H R S secret (makeToken H secret requestId actionHash expiresAt false)
      acceptV1Until sunsetNow now = .ok (requestId, actionHash, expiresAt) := by
  rw [makeToken_v1 hhash]
  have hselect : selectKey H S secret
      (mintedBody .v1 header_v1_colonFree requestId actionHash hhash expiresAt).parts
        acceptV1Until sunsetNow = .ok (secret, 0) :=
    selectKey_legacy (str_ne_tokenVersionV2 requestId) hsunset
  rw [parseToken_signed _ hselect]
  exact readFields_minted hnow header_v1_colonFree hhash hexpiry

/-! ## Accepted tokens are signed -/

theorem keyPrefix_of_resolve {tag : String}
    (h : resolveSecretForPrefix H S tag secret = some key) : keyPrefix H key = tag := by
  rw [resolveSecretForPrefix] at h
  split at h
  · rename_i hsame
    rwa [← Option.some.inj h]
  · split at h
    · cases h
    · split at h
      · cases h
      · split at h
        · cases h
        · split at h
          · cases h
          · rename_i hmaterial
            rw [← Option.some.inj h]
            exact not_not.mp hmaterial

theorem legacy_ok {start : ℕ}
    (h : selectKey.legacy secret acceptV1Until sunsetNow = .ok (key, start)) :
    key = secret ∧ start = 0 := by
  rw [selectKey.legacy.eq_def] at h
  split at h
  · simp only [Except.ok.injEq, Prod.mk.injEq] at h
    exact ⟨h.1.symm, h.2.symm⟩
  · split at h
    · cases h
    · cases h
    · simp only [Except.ok.injEq, Prod.mk.injEq] at h
      exact ⟨h.1.symm, h.2.symm⟩

theorem selectKey_ok {bodyParts : List String} {start : ℕ}
    (h : selectKey H S secret bodyParts acceptV1Until sunsetNow = .ok (key, start)) :
    (∃ tag rest, bodyParts = tokenVersionV2 :: tag :: rest ∧ tag.length = keyPrefixLen ∧
      keyPrefix H key = tag ∧ start = 2) ∨
    (key = secret ∧ start = 0 ∧
      ∀ tag rest, bodyParts ≠ tokenVersionV2 :: tag :: rest) := by
  rw [selectKey.eq_def] at h
  split at h
  · rename_i version tag rest
    by_cases hversion : version = tokenVersionV2
    · rw [if_pos hversion] at h
      split at h
      · cases h
      · rename_i hlength
        split at h
        · cases h
        · rename_i resolved hresolve
          simp only [Except.ok.injEq, Prod.mk.injEq] at h
          obtain ⟨rfl, rfl⟩ := h
          exact Or.inl ⟨tag, rest, by rw [hversion], not_not.mp hlength,
            keyPrefix_of_resolve hresolve, rfl⟩
    · rw [if_neg hversion] at h
      obtain ⟨hkey, hstart⟩ := legacy_ok h
      refine Or.inr ⟨hkey, hstart, ?_⟩
      intro tag' rest' heq
      exact hversion (List.cons.inj heq).1
  · rename_i hshort
    obtain ⟨hkey, hstart⟩ := legacy_ok h
    exact Or.inr ⟨hkey, hstart, fun tag rest heq => hshort _ tag rest heq⟩

theorem readFields_ok {fields : List String} {requestId : Uuid} {actionHash : String}
    {expiresAt : Datetime}
    (h : readFields R now fields = .ok (requestId, actionHash, expiresAt)) :
    ∃ requestIdText expiry₀ expiry t, fields = requestIdText :: actionHash :: expiry₀ :: expiry ∧
      R.uuid requestIdText = some requestId ∧
      R.fromisoformat (joinWith ':' (expiry₀ :: expiry)) = some t ∧
      expiresAt = awareExpiry t := by
  rw [readFields.eq_def] at h
  split at h
  · rename_i requestIdText hash expiry₀ expiry
    split at h
    · cases h
    · rename_i u hid
      split at h
      · cases h
      · rename_i t hiso
        split at h
        · cases h
        · cases h
        · simp only [Except.ok.injEq, Prod.mk.injEq] at h
          obtain ⟨rfl, rfl, rfl⟩ := h
          exact ⟨requestIdText, expiry₀, expiry, t, rfl, hid, hiso, rfl⟩
  · cases h

/-- The parts of an accepted token: those of its body, and the digest of the body under
the selected key. -/
theorem parseToken_ok {token : String} {requestId : Uuid} {actionHash : String}
    {expiresAt : Datetime}
    (h : parseToken H R S secret token acceptV1Until sunsetNow now =
      .ok (requestId, actionHash, expiresAt)) :
    ∃ bodyParts key start,
      bodyParts ≠ [] ∧ (∀ part ∈ bodyParts, ':' ∉ part.toList) ∧
      token = joinWith ':' bodyParts ++ ":" ++ H.hexdigest key (joinWith ':' bodyParts) ∧
      selectKey H S secret bodyParts acceptV1Until sunsetNow = .ok (key, start) ∧
      readFields R now (bodyParts.drop start) = .ok (requestId, actionHash, expiresAt) := by
  rw [parseToken] at h
  simp only at h
  split at h
  · cases h
  · rename_i hlong
    have hne : (segments ':' token).dropLast ≠ [] := by
      intro hnil
      have hlength := congrArg List.length hnil
      simp only [List.length_dropLast, List.length_nil] at hlength
      omega
    have hfree : ∀ part ∈ (segments ':' token).dropLast, ':' ∉ part.toList :=
      fun part hpart => not_mem_of_mem_segments (List.dropLast_subset _ hpart)
    have hsplit : (segments ':' token).dropLast ++
        [(segments ':' token).getLast (segments_ne_nil token)] = segments ':' token :=
      List.dropLast_append_getLast _
    rw [segments_joinWith hne hfree] at h
    split at h
    · cases h
    · rename_i key start hselect
      split at h
      · cases h
      · cases h
      · rename_i hmac
        refine ⟨_, key, start, hne, hfree, ?_, hselect, h⟩
        have hjoined : joinWith ':' ((segments ':' token).dropLast ++
            [(segments ':' token).getLast (segments_ne_nil token)]) =
            joinWith ':' (segments ':' token).dropLast ++ ":" ++
              joinWith ':' [(segments ':' token).getLast (segments_ne_nil token)] := by
          apply joinWith_append hne (by simp)
          rw [hsplit]
          exact fun part hpart => not_mem_of_mem_segments hpart
        rw [hsplit, joinWith_segments] at hjoined
        have hlast : joinWith ':' [(segments ':' token).getLast (segments_ne_nil token)] =
            H.hexdigest key (joinWith ':' (segments ':' token).dropLast) := by
          rw [← compareDigest_hexdigest_eq_ok_true_iff.mp hmac]
          simp [joinWith]
        rw [hlast] at hjoined
        exact hjoined

theorem mem_drop_colonFree {bodyParts fields : List String} {start : ℕ}
    (hfree : ∀ part ∈ bodyParts, ':' ∉ part.toList) (hdrop : bodyParts.drop start = fields) :
    ∀ part ∈ fields, ':' ∉ part.toList := by
  intro part hpart
  rw [← hdrop] at hpart
  exact hfree part (List.mem_of_mem_drop hpart)

/-- The body of an accepted token, cut into its fields. -/
theorem exists_body_of_parseToken {token : String} {requestId : Uuid} {actionHash : String}
    {expiresAt : Datetime}
    (h : parseToken H R S secret token acceptV1Until sunsetNow now =
      .ok (requestId, actionHash, expiresAt)) :
    ∃ (b : TokenBody) (key : Bytes), b.SignedBy H secret key ∧
      token = b.text ++ ":" ++ H.hexdigest key b.text ∧
      b.read R = some (requestId, actionHash, expiresAt) := by
  obtain ⟨bodyParts, key, start, hne, hfree, htoken, hselect, hread⟩ := parseToken_ok h
  obtain ⟨requestIdText, expiry₀, expiry, t, hfields, hid, hiso, rfl⟩ := readFields_ok hread
  have hcolon := mem_drop_colonFree hfree hfields
  have hexpiry : segments ':' (joinWith ':' (expiry₀ :: expiry)) = expiry₀ :: expiry :=
    segments_joinWith (by simp) fun part hpart =>
      hcolon part (List.mem_cons_of_mem _ (List.mem_cons_of_mem _ hpart))
  rcases selectKey_ok hselect with ⟨tag, rest, hparts, hlength, htag, rfl⟩ |
    ⟨rfl, rfl, huntagged⟩
  · let b : TokenBody :=
      { format := .v2 tag
        requestIdText := requestIdText
        actionHash := actionHash
        expiryText := joinWith ':' (expiry₀ :: expiry)
        header_colonFree := fun part hpart => hfree part (by
          rw [hparts]
          exact List.mem_append_left rest hpart)
        requestId_colonFree := hcolon _ List.mem_cons_self
        actionHash_colonFree := hcolon _ (List.mem_cons_of_mem _ List.mem_cons_self)
        legacy_untagged := by simp }
    have hbody : b.parts = bodyParts := by
      rw [hparts, List.drop_succ_cons, List.drop_succ_cons, List.drop_zero] at hfields
      rw [hparts, hfields, TokenBody.parts, hexpiry]
      rfl
    refine ⟨b, key, ⟨hlength, htag⟩, ?_, ?_⟩
    · rw [TokenBody.text, hbody]
      exact htoken
    · simp [TokenBody.read, b, hid, hiso]
  · let b : TokenBody :=
      { format := .v1
        requestIdText := requestIdText
        actionHash := actionHash
        expiryText := joinWith ':' (expiry₀ :: expiry)
        header_colonFree := header_v1_colonFree
        requestId_colonFree := hcolon _ List.mem_cons_self
        actionHash_colonFree := hcolon _ (List.mem_cons_of_mem _ List.mem_cons_self)
        legacy_untagged := by
          rintro - rfl
          exact huntagged _ _ hfields }
    have hbody : b.parts = bodyParts := by
      rw [List.drop_zero] at hfields
      rw [hfields, TokenBody.parts, hexpiry]
      rfl
    refine ⟨b, key, rfl, ?_, ?_⟩
    · rw [TokenBody.text, hbody]
      exact htoken
    · simp [TokenBody.read, b, hid, hiso]

end Parse

/-! ## The codec -/

/-- What `make_token` mints is parsed back: `v2` tokens under the minting key or under
any other secret while the environment leads from the tag to the minting key, legacy
tokens under the minting key before their sunset.  What `parse_token` accepts is a body
with its HMAC under the current secret or a key that the tag names, and the body can be
cut into fields in no other way. -/
theorem gate_token_codec (H : Hmac) (R : StampReader) (S : KeySource) (secret : Bytes)
    (acceptV1Until : Option Datetime) (sunsetNow now : Datetime)
    (hnow : now.utcoffset = some .utc) (hsunsetNow : sunsetNow.utcoffset = some .utc) :
    (∀ key requestId actionHash expiresAt, ':' ∉ actionHash.toList →
      Unexpired now expiresAt → Set.InjOn (keyPrefix H) {secret, key} →
      (key = secret ∨ ∃ uri, S.environ (chainKeyEnv (keyPrefix H key)) = some uri ∧
        resolveUri S uri = some key) →
      parseToken H R S secret (makeToken H key requestId actionHash expiresAt true)
        acceptV1Until sunsetNow now = .ok (requestId, actionHash, expiresAt)) ∧
    (∀ requestId actionHash expiresAt, ':' ∉ actionHash.toList → Unexpired now expiresAt →
      (∀ cutoff, acceptV1Until = some cutoff → Unexpired sunsetNow cutoff) →
      parseToken H R S secret (makeToken H secret requestId actionHash expiresAt false)
        acceptV1Until sunsetNow now = .ok (requestId, actionHash, expiresAt)) ∧
    (∀ token triple,
      parseToken H R S secret token acceptV1Until sunsetNow now = .ok triple →
      ∃ (b : TokenBody) (key : Bytes), b.SignedBy H secret key ∧
        token = b.text ++ ":" ++ H.hexdigest key b.text ∧ b.read R = some triple ∧
        ∀ b' : TokenBody, b'.text = b.text → b' = b) := by
  have haware : now.utcoffset.isSome := by simp [hnow]
  refine ⟨?_, ?_, ?_⟩
  · intro key requestId actionHash expiresAt hhash hexpiry htag hkey
    exact parseToken_makeToken_v2 haware htag hkey requestId hhash hexpiry
  · intro requestId actionHash expiresAt hhash hexpiry hsunset
    refine parseToken_makeToken_v1 haware ?_ requestId hhash hexpiry
    intro cutoff hcutoff
    exact (hsunset cutoff hcutoff).gt?_eq (by simp [hsunsetNow])
  · rintro token ⟨requestId, actionHash, expiresAt⟩ h
    obtain ⟨b, key, hsigned, htoken, hread⟩ := exists_body_of_parseToken h
    exact ⟨b, key, hsigned, htoken, hread, fun b' hb' => TokenBody.text_injective hb'⟩

/-! ## A token that outlives a rotation -/

def mintingKey : Bytes := List.replicate 32 0

def rotatedKey : Bytes := List.replicate 32 1

def mintingFingerprint : BitVec 256 :=
  0xa3792a42666f4419b66e858f7067b85c7eb9839c5fd0aafa2c342ea9d9b9a116#256

def rotatedFingerprint : BitVec 256 :=
  0xbbc36bc27c9323859a3422125a74144715a41c46719d5fc41ee8c7117b311cae#256

def deployExpiry : Datetime := ⟨2025, 1, 2, 3, 4, 5, 0, some .utc⟩

/-- HMAC-SHA256 on the messages of the sample token. -/
def tokenHmac : Hmac :=
  .ofTable
    [((mintingKey, fingerprintContext), mintingFingerprint),
     ((rotatedKey, fingerprintContext), rotatedFingerprint),
     ((mintingKey, "v2:a3792a42666f4419:00000000-0000-0000-0000-000000000007:" ++
        "deploy:2025-01-02T03:04:05+00:00"),
      0xad08a2f2dedd2bb55fdb7da3e3d0ca360a95f49e1e72f146236ae15bfc7c2fa0#256)]

def tokenKeySource : KeySource where
  environ := fun name =>
    if name = "GOVERNANCE_CHAIN_KEY_a3792a42666f4419" then some "file:///keys/old" else none
  readBytes := fun path => if path = "/keys/old" then some mintingKey else none

theorem keyPrefix_mintingKey : keyPrefix tokenHmac mintingKey = "a3792a42666f4419" := by
  have hfingerprint : fingerprintKey tokenHmac mintingKey = digestText mintingFingerprint := rfl
  rw [keyPrefix, hfingerprint, toList_digestText]
  decide

theorem keyPrefix_rotatedKey : keyPrefix tokenHmac rotatedKey = "bbc36bc27c932385" := by
  have hfingerprint : fingerprintKey tokenHmac rotatedKey = digestText rotatedFingerprint := rfl
  rw [keyPrefix, hfingerprint, toList_digestText]
  decide

/-- Minted before a rotation and parsed after it, a second before its expiry. -/
theorem rotated_token_parsed :
    parseToken tokenHmac .exact tokenKeySource rotatedKey
        (makeToken tokenHmac mintingKey ⟨7⟩ "deploy" deployExpiry true) none
        { deployExpiry with second := 4 } { deployExpiry with second := 4 } =
      .ok (⟨7⟩, "deploy", deployExpiry) := by
  have hunexpired : Unexpired { deployExpiry with second := 4 } deployExpiry :=
    ⟨by decide, by decide⟩
  have htag : Set.InjOn (keyPrefix tokenHmac) {rotatedKey, mintingKey} := by
    have hne : keyPrefix tokenHmac rotatedKey ≠ keyPrefix tokenHmac mintingKey := by
      rw [keyPrefix_rotatedKey, keyPrefix_mintingKey]
      decide
    rw [Set.injOn_pair]
    exact fun heq => absurd heq hne
  have henv : tokenKeySource.environ (chainKeyEnv (keyPrefix tokenHmac mintingKey)) =
      some "file:///keys/old" := by
    rw [keyPrefix_mintingKey]
    decide
  exact (gate_token_codec tokenHmac .exact tokenKeySource rotatedKey none _ _ rfl rfl).1
    mintingKey ⟨7⟩ "deploy" deployExpiry (by decide) hunexpired htag
    (Or.inr ⟨_, henv, by decide⟩)

end AgenticGovernance.Gates

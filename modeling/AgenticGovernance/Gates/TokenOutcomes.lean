import Mathlib
import AgenticGovernance.Gates.Tokens
import AgenticGovernance.Support.PyText

/-!
# The outcomes of parsing a token

A token comes from outside, as any Python string.  `parse_token` is meant to return a triple or
to raise `ApprovalTokenError`, and checks the signature before it reads a field.  On the way it
looks up an environment variable named after the token, encodes the body and compares the last
segment with a digest, and each of these refuses some texts with an exception of its own.

`parseTokenText_documented_iff` says for which tokens the outcome is the documented one.
`parseTokenText_ofString` says that on texts without surrogates this is `parseToken`.
-/

namespace AgenticGovernance.Gates

open Support Audit

/-! ## Key lookup -/

/-- The process environment and the files.  `environ` is asked for names that can be encoded
only, `exists?` is `none` where `stat` raises, and `readBytes` where the file cannot be read. -/
structure TokenKeySource where
  environ : PyText → Option PyText
  exists? : PyText → Option Bool
  readBytes : PyText → Option Bytes

/-- The exceptions of `parse_token`.  The warning for a legacy token is one under a filter that
turns it into an error. -/
inductive TokenFailure where
  | token (e : TokenError)
  | unicodeEncodeError
  | osError
  | deprecationWarning

/-- A value of `datetime.now(timezone.utc)`. -/
structure UtcNow where
  time : Datetime
  utc : time.utcoffset = some .utc

/-- `text[len(scheme):]` if the text starts with the scheme. -/
def afterSchemeText (scheme : String) (text : PyText) : Option PyText :=
  if (PyText.ofString scheme).isPrefixOf text then some (text.drop scheme.length) else none

section Lookup

variable (H : Hmac) (E : TokenKeySource)

/-- `os.environ.get(name)` -/
def TokenKeySource.get (name : PyText) : Except TokenFailure (Option PyText) :=
  if name.FsEncodable then .ok (E.environ name) else .error .unicodeEncodeError

/-- The `env://` branch of `_resolve_uri`. -/
def envMaterial (varName : PyText) : Except TokenFailure (Option Bytes) :=
  match E.get varName with
  | .error e => .error e
  | .ok none => .ok none
  | .ok (some raw) =>
      if raw = [] then .ok none
      else
        -- a value that is not ASCII is no base64, and is encoded instead
        match raw.encodeUtf8 with
        | none => .error .unicodeEncodeError
        | some value => .ok (some ((b64decode value.toList).getD value.toUTF8.toList))

/-- Its `file://` branch. -/
def fileMaterial (path : PyText) : Except TokenFailure (Option Bytes) :=
  match E.exists? path with
  | none => .error .osError
  | some false => .ok none
  | some true => .ok (E.readBytes path)

/-- `_resolve_uri` -/
def resolveUriText (uri : PyText) : Except TokenFailure (Option Bytes) :=
  match afterSchemeText envScheme uri with
  | some varName => envMaterial E varName
  | none =>
      match afterSchemeText fileScheme uri with
      | some path => fileMaterial E path
      | none => .ok none

/-- The name of the environment variable of a key tag. -/
def chainKeyEnvText (tag : PyText) : PyText := PyText.ofString "GOVERNANCE_CHAIN_KEY_" ++ tag

/-- `_resolve_secret_for_prefix` -/
def resolveSecretForPrefixText (tag : PyText) (currentSecret : Bytes) :
    Except TokenFailure (Option Bytes) :=
  if PyText.ofString (keyPrefix H currentSecret) = tag then .ok (some currentSecret)
  else
    match E.get (chainKeyEnvText tag) with
    | .error e => .error e
    | .ok none => .ok none
    | .ok (some uri) =>
        if uri = [] then .ok none
        else
          match resolveUriText E uri with
          | .error e => .error e
          | .ok none => .ok none
          | .ok (some material) =>
              if PyText.ofString (keyPrefix H material) ≠ tag then .ok none
              else .ok (some material)

end Lookup

/-! ## `parse_token` -/

/-- The key tag of a body in the format `v2`. -/
def keyTag : List PyText → Option PyText
  | version :: tag :: _ => if version = .ofString tokenVersionV2 then some tag else none
  | _ => none

/-- `hmac.compare_digest` of a digest and a text. -/
def compareDigestText (digest : String) (text : PyText) : Except PyError Bool :=
  if isAscii digest ∧ text.IsAscii then .ok (PyText.ofString digest == text)
  else .error .typeError

section Parse

variable (H : Hmac) (R : StampReader) (E : TokenKeySource) (warningsAsErrors : Bool)
  (secret : Bytes) (acceptV1Until : Option Datetime) (sunsetNow now : UtcNow)

/-- `warnings.warn`, and on with the current secret. -/
def legacyWarning : Except TokenFailure (Bytes × ℕ) :=
  if warningsAsErrors then .error .deprecationWarning else .ok (secret, 0)

/-- The legacy path. -/
def legacyKey : Except TokenFailure (Bytes × ℕ) :=
  match acceptV1Until with
  | none => legacyWarning warningsAsErrors secret
  | some cutoff =>
      match sunsetNow.time.gt? cutoff with
      | none => .error (.token .typeError)
      | some true => .error (.token (.tokenVersionTooOld (sunsetMessage cutoff)))
      | some false => legacyWarning warningsAsErrors secret

/-- The key that verifies a body, and the index of its request id. -/
def selectKeyText (bodyParts : List PyText) : Except TokenFailure (Bytes × ℕ) :=
  match keyTag bodyParts with
  | none => legacyKey warningsAsErrors secret acceptV1Until sunsetNow
  | some tag =>
      if tag.length ≠ keyPrefixLen then
        .error (.token (.approvalToken "approval token: malformed key prefix"))
      else
        match resolveSecretForPrefixText H E tag secret with
        | .error e => .error e
        | .ok none =>
            .error (.token (.approvalToken "approval token: historical key unavailable"))
        | .ok (some resolved) => .ok (resolved, 2)

/-- Everything before the last colon. -/
def tokenBody (token : PyText) : PyText := PyText.join ':' (PyText.split ':' token).dropLast

/-- The last segment. -/
def providedMac (token : PyText) : PyText :=
  (PyText.split ':' token).getLast (PyText.split_ne_nil token)

/-- `parse_token` -/
def parseTokenText (token : PyText) : Except TokenFailure (Uuid × String × Datetime) :=
  if (PyText.split ':' token).length < 4 then
    .error (.token (.approvalToken "approval token: malformed"))
  else
    match selectKeyText H E warningsAsErrors secret acceptV1Until sunsetNow
      (PyText.split ':' (tokenBody token)) with
    | .error e => .error e
    | .ok (verifySecret, start) =>
        match (tokenBody token).encodeUtf8 with
        | none => .error .unicodeEncodeError
        | some body =>
            match compareDigestText (H.hexdigest verifySecret body) (providedMac token) with
            | .error _ => .error (.token .typeError)
            | .ok false => .error (.token (.approvalToken "approval token: signature mismatch"))
            | .ok true =>
                (readFields R now.time ((segments ':' body).drop start)).mapError .token

end Parse

/-! ## Which exceptions escape -/

/-- `ApprovalTokenError` or its subclass. -/
def TokenFailure.IsApprovalTokenError (e : TokenFailure) : Prop :=
  ∃ message, e = .token (.approvalToken message) ∨ e = .token (.tokenVersionTooOld message)

/-- A result, or the documented error. -/
def Documented {α : Type} (r : Except TokenFailure α) : Prop :=
  ∀ e, r = .error e → e.IsApprovalTokenError

theorem documented_ok {α : Type} (a : α) : Documented (.ok a) := by
  intro e h
  cases h

theorem documented_error_iff {α : Type} {e : TokenFailure} :
    Documented (.error e : Except TokenFailure α) ↔ e.IsApprovalTokenError := by
  constructor
  · intro h
    exact h e rfl
  · intro h e' he'
    rwa [← Except.error.inj he']

theorem documented_approvalToken {α : Type} (message : String) :
    Documented (.error (.token (.approvalToken message)) : Except TokenFailure α) :=
  documented_error_iff.mpr ⟨message, Or.inl rfl⟩

section Raises

variable {H : Hmac} {E : TokenKeySource} {tag : PyText} {secret : Bytes}

/-- A variable cannot be asked for, or holds a text that cannot be encoded. -/
def EnvRaises (E : TokenKeySource) (varName : PyText) : Prop :=
  varName.FsEncodable → ∃ raw, E.environ varName = some raw ∧ ¬raw.Encodable

/-- The URI of a key names such a variable, or a file that cannot be looked for. -/
def UriRaises (E : TokenKeySource) (uri : PyText) : Prop :=
  match afterSchemeText envScheme uri with
  | some varName => EnvRaises E varName
  | none => ∃ path, afterSchemeText fileScheme uri = some path ∧ E.exists? path = none

/-- The lookup of a key tag raises: it is not the tag of the current secret, and its variable
cannot be asked for or holds a URI that raises. -/
def LookupRaises (H : Hmac) (E : TokenKeySource) (tag : PyText) (secret : Bytes) : Prop :=
  PyText.ofString (keyPrefix H secret) ≠ tag ∧
    ((chainKeyEnvText tag).FsEncodable →
      ∃ uri, E.environ (chainKeyEnvText tag) = some uri ∧ uri ≠ [] ∧ UriRaises E uri)

theorem encodeUtf8_eq_none_iff {text : PyText} : text.encodeUtf8 = none ↔ ¬text.Encodable := by
  rw [← PyText.encodeUtf8_isSome_iff, Option.eq_none_iff_forall_ne_some]
  simp

/-- An answer, or an undocumented exception exactly in the given case. -/
def AnswersUnless {α : Type} (r : Except TokenFailure α) (raises : Prop) : Prop :=
  (∃ a, r = .ok a) ∧ ¬raises ∨ raises ∧ ∃ e, r = .error e ∧ ¬e.IsApprovalTokenError

theorem unicodeEncodeError_escapes : ¬TokenFailure.unicodeEncodeError.IsApprovalTokenError := by
  rintro ⟨message, h | h⟩
  · cases h
  · cases h

theorem osError_escapes : ¬TokenFailure.osError.IsApprovalTokenError := by
  rintro ⟨message, h | h⟩
  · cases h
  · cases h

theorem envMaterial_answersUnless (varName : PyText) :
    AnswersUnless (envMaterial E varName) (EnvRaises E varName) := by
  rw [envMaterial, EnvRaises, TokenKeySource.get]
  by_cases hname : varName.FsEncodable
  · rw [if_pos hname]
    cases hvalue : E.environ varName with
    | none =>
        left
        exact ⟨⟨none, rfl⟩, fun h => Option.some_ne_none _ (h hname).choose_spec.1.symm⟩
    | some raw =>
        cases hraw : raw.encodeUtf8 with
        | none =>
            have hnot := encodeUtf8_eq_none_iff.mp hraw
            have hne : raw ≠ [] := by
              rintro rfl
              exact hnot fun p hp => absurd hp List.not_mem_nil
            right
            refine ⟨fun _ => ⟨raw, rfl, hnot⟩, _, ?_, unicodeEncodeError_escapes⟩
            simp only [if_neg hne, hraw]
        | some value =>
            have hyes := PyText.encodeUtf8_isSome_iff.mp ⟨value, hraw⟩
            left
            constructor
            · by_cases hempty : raw = []
              · exact ⟨none, by simp only [if_pos hempty]⟩
              · exact ⟨_, by simp only [if_neg hempty, hraw]; rfl⟩
            · intro h
              obtain ⟨raw', hraw', hnot⟩ := h hname
              exact hnot (Option.some.inj hraw' ▸ hyes)
  · rw [if_neg hname]
    exact Or.inr ⟨fun h => absurd h hname, _, rfl, unicodeEncodeError_escapes⟩

theorem resolveUriText_answersUnless (uri : PyText) :
    AnswersUnless (resolveUriText E uri) (UriRaises E uri) := by
  rw [resolveUriText, UriRaises]
  cases afterSchemeText envScheme uri with
  | some varName => exact envMaterial_answersUnless varName
  | none =>
      cases hfile : afterSchemeText fileScheme uri with
      | none => exact Or.inl ⟨⟨none, rfl⟩, by simp⟩
      | some path =>
          simp only [fileMaterial]
          cases hexists : E.exists? path with
          | none => exact Or.inr ⟨⟨path, rfl, hexists⟩, _, rfl, osError_escapes⟩
          | some found =>
              left
              constructor
              · cases found with
                | true => exact ⟨_, rfl⟩
                | false => exact ⟨_, rfl⟩
              · rintro ⟨path', hpath', hnone⟩
                rw [← Option.some.inj hpath', hexists] at hnone
                cases hnone

theorem resolveSecretForPrefixText_answersUnless (tag : PyText) (secret : Bytes) :
    AnswersUnless (resolveSecretForPrefixText H E tag secret) (LookupRaises H E tag secret) := by
  rw [resolveSecretForPrefixText, LookupRaises, TokenKeySource.get]
  by_cases hown : PyText.ofString (keyPrefix H secret) = tag
  · rw [if_pos hown]
    exact Or.inl ⟨⟨_, rfl⟩, fun h => h.1 hown⟩
  rw [if_neg hown]
  by_cases hname : (chainKeyEnvText tag).FsEncodable
  · rw [if_pos hname]
    cases huri : E.environ (chainKeyEnvText tag) with
    | none =>
        left
        refine ⟨⟨none, rfl⟩, ?_⟩
        rintro ⟨-, h⟩
        obtain ⟨uri, hnone, -⟩ := h hname
        cases hnone
    | some uri =>
        by_cases hempty : uri = []
        · left
          refine ⟨⟨none, by simp only [if_pos hempty]⟩, ?_⟩
          rintro ⟨-, h⟩
          obtain ⟨uri', heq, hne, -⟩ := h hname
          exact hne (Option.some.inj heq ▸ hempty)
        · simp only [if_neg hempty]
          rcases resolveUriText_answersUnless (E := E) uri with ⟨⟨m, hm⟩, hnot⟩ | ⟨hraises, e, he⟩
          · left
            constructor
            · rw [hm]
              cases m with
              | none => exact ⟨none, rfl⟩
              | some material =>
                  by_cases htag : PyText.ofString (keyPrefix H material) ≠ tag
                  · exact ⟨none, by simp only [if_pos htag]⟩
                  · exact ⟨some material, by simp only [if_neg htag]⟩
            · rintro ⟨-, h⟩
              obtain ⟨uri', heq, -, hraises⟩ := h hname
              exact hnot (Option.some.inj heq ▸ hraises)
          · right
            refine ⟨⟨hown, fun _ => ⟨uri, rfl, hempty, hraises⟩⟩, e, ?_, he.2⟩
            rw [he.1]
  · rw [if_neg hname]
    exact Or.inr ⟨⟨hown, fun h => absurd h hname⟩, _, rfl, unicodeEncodeError_escapes⟩

end Raises

/-! ## The outcome of a token -/

section Outcome

variable {H : Hmac} {R : StampReader} {E : TokenKeySource} {warningsAsErrors : Bool}
  {secret : Bytes} {acceptV1Until : Option Datetime} {sunsetNow now : UtcNow}
  {token : PyText}

theorem compareDigestText_cases (key : Bytes) (message : String) (text : PyText) :
    (∃ same, compareDigestText (H.hexdigest key message) text = .ok same) ∧ text.IsAscii ∨
      compareDigestText (H.hexdigest key message) text = .error .typeError ∧ ¬text.IsAscii := by
  have hdigest : isAscii (H.hexdigest key message) = true := isAscii_digestText _
  rw [compareDigestText]
  by_cases htext : text.IsAscii
  · rw [if_pos ⟨hdigest, htext⟩]
    exact Or.inl ⟨⟨_, rfl⟩, htext⟩
  · rw [if_neg fun h => htext h.2]
    exact Or.inr ⟨rfl, htext⟩

theorem gt?_of_utc {t : Datetime} (ht : t.utcoffset ≠ none) (now : UtcNow) :
    now.time.gt? t = some (decide (t.instant < now.time.instant)) := by
  have haware : now.time.utcoffset.isSome = t.utcoffset.isSome := by
    rw [now.utc, Option.isSome_iff_ne_none.mpr ht]
    rfl
  exact if_pos haware

theorem utcoffset_awareExpiry (t : Datetime) : (awareExpiry t).utcoffset ≠ none := by
  rw [awareExpiry]
  split
  · exact Option.some_ne_none _
  · assumption

/-- Reading the fields of a signed body raises the documented error only. -/
theorem documented_readFields (now : UtcNow) (fields : List String) :
    Documented ((readFields R now.time fields).mapError TokenFailure.token) := by
  rw [readFields.eq_def]
  split
  · split
    · exact documented_approvalToken _
    · split
      · exact documented_approvalToken _
      · rename_i expiresAt _
        rw [gt?_of_utc (utcoffset_awareExpiry expiresAt)]
        split
        · rename_i h
          cases h
        · exact documented_approvalToken _
        · exact documented_ok _
  · exact documented_approvalToken _

/-- The body has a UTF-8 form, and the last segment is ASCII. -/
def Readable (token : PyText) : Prop := (tokenBody token).Encodable ∧ (providedMac token).IsAscii

/-- What is left once the key is known. -/
def verifyAndRead (H : Hmac) (R : StampReader) (now : UtcNow) (token : PyText)
    (selected : Bytes × ℕ) : Except TokenFailure (Uuid × String × Datetime) :=
  match (tokenBody token).encodeUtf8 with
  | none => .error .unicodeEncodeError
  | some body =>
      match compareDigestText (H.hexdigest selected.1 body) (providedMac token) with
      | .error _ => .error (.token .typeError)
      | .ok false => .error (.token (.approvalToken "approval token: signature mismatch"))
      | .ok true => (readFields R now.time ((segments ':' body).drop selected.2)).mapError .token

theorem typeError_escapes : ¬(TokenFailure.token .typeError).IsApprovalTokenError := by
  rintro ⟨message, h | h⟩
  · cases h
  · cases h

theorem documented_verifyAndRead_iff {selected : Bytes × ℕ} :
    Documented (verifyAndRead H R now token selected) ↔ Readable token := by
  rw [verifyAndRead, Readable, ← PyText.encodeUtf8_isSome_iff]
  cases hbody : (tokenBody token).encodeUtf8 with
  | none => simp [documented_error_iff, unicodeEncodeError_escapes]
  | some body =>
      rcases compareDigestText_cases (H := H) selected.1 body (providedMac token) with
        ⟨⟨same, hsame⟩, hascii⟩ | ⟨herror, hnot⟩
      · have hdocumented : Documented (match (Except.ok same : Except PyError Bool) with
            | .error _ => .error (.token .typeError)
            | .ok false => .error (.token (.approvalToken "approval token: signature mismatch"))
            | .ok true => (readFields R now.time
                ((segments ':' body).drop selected.2)).mapError TokenFailure.token) := by
          cases same with
          | false => exact documented_approvalToken _
          | true => exact documented_readFields now _
        simp only [hsame]
        exact iff_of_true hdocumented ⟨⟨body, rfl⟩, hascii⟩
      · simp only [herror, documented_error_iff]
        exact iff_of_false typeError_escapes fun h => hnot h.2

theorem parseTokenText_eq :
    parseTokenText H R E warningsAsErrors secret acceptV1Until sunsetNow now token =
      if (PyText.split ':' token).length < 4 then
        .error (.token (.approvalToken "approval token: malformed"))
      else
        selectKeyText H E warningsAsErrors secret acceptV1Until sunsetNow
          (PyText.split ':' (tokenBody token)) >>= verifyAndRead H R now token := by
  rw [parseTokenText]
  cases selectKeyText H E warningsAsErrors secret acceptV1Until sunsetNow
      (PyText.split ':' (tokenBody token)) with
  | error e => rfl
  | ok selected => rfl

/-- A token in the format `v2` has a documented outcome: its tag has a wrong length, or the
lookup of the tag answers, and with a key only if the token is readable. -/
def TaggedOutcome (H : Hmac) (E : TokenKeySource) (secret : Bytes) (token tag : PyText) : Prop :=
  tag.length = keyPrefixLen →
    ¬LookupRaises H E tag secret ∧
      ∀ key, resolveSecretForPrefixText H E tag secret = .ok (some key) → Readable token

/-- A legacy token has one: the sunset is aware and over, or, without an aware sunset that is
over, the warning is no error and the token is readable. -/
def LegacyOutcome (warningsAsErrors : Bool) (acceptV1Until : Option Datetime)
    (sunsetNow : UtcNow) (token : PyText) : Prop :=
  match acceptV1Until with
  | none => warningsAsErrors = false ∧ Readable token
  | some cutoff =>
      cutoff.utcoffset ≠ none ∧
        (cutoff.instant < sunsetNow.time.instant ∨ warningsAsErrors = false ∧ Readable token)

theorem documented_bind_ok_iff {α β : Type} {a : α} {f : α → Except TokenFailure β} :
    Documented (Except.ok a >>= f) ↔ Documented (f a) :=
  Iff.rfl

theorem documented_bind_error_iff {α β : Type} {e : TokenFailure}
    {f : α → Except TokenFailure β} :
    Documented (Except.error e >>= f) ↔ e.IsApprovalTokenError :=
  documented_error_iff

theorem documented_tagged_iff {tag : PyText}
    (htag : keyTag (PyText.split ':' (tokenBody token)) = some tag) :
    Documented (selectKeyText H E warningsAsErrors secret acceptV1Until sunsetNow
        (PyText.split ':' (tokenBody token)) >>= verifyAndRead H R now token) ↔
      TaggedOutcome H E secret token tag := by
  rw [selectKeyText, htag, TaggedOutcome]
  by_cases hlength : tag.length = keyPrefixLen
  · simp only [hlength, ne_eq, not_true_eq_false, if_false, true_implies]
    rcases resolveSecretForPrefixText_answersUnless (H := H) (E := E) tag secret with
      ⟨⟨found, hfound⟩, hanswers⟩ | ⟨hraises, e, he, hescapes⟩
    · cases found with
      | none =>
          simp only [hfound]
          exact iff_of_true (documented_approvalToken _) ⟨hanswers, by simp⟩
      | some key =>
          simp only [hfound, documented_bind_ok_iff, documented_verifyAndRead_iff]
          constructor
          · intro hreadable
            exact ⟨hanswers, fun _ _ => hreadable⟩
          · intro h
            exact h.2 key rfl
    · simp only [he, documented_bind_error_iff]
      exact iff_of_false hescapes fun h => h.1 hraises
  · simp only [ne_eq, hlength, not_false_eq_true, if_true]
    exact iff_of_true (documented_approvalToken _) fun h => h.elim

theorem deprecationWarning_escapes : ¬TokenFailure.deprecationWarning.IsApprovalTokenError := by
  rintro ⟨message, h | h⟩
  · cases h
  · cases h

theorem documented_legacyWarning_iff :
    Documented (legacyWarning warningsAsErrors secret >>= verifyAndRead H R now token) ↔
      warningsAsErrors = false ∧ Readable token := by
  rw [legacyWarning]
  cases warningsAsErrors with
  | true =>
      rw [if_pos rfl, documented_bind_error_iff]
      exact iff_of_false deprecationWarning_escapes fun h => Bool.noConfusion h.1
  | false =>
      rw [if_neg Bool.false_ne_true, documented_bind_ok_iff, documented_verifyAndRead_iff]
      exact (and_iff_right rfl).symm

theorem documented_legacy_iff
    (htag : keyTag (PyText.split ':' (tokenBody token)) = none) :
    Documented (selectKeyText H E warningsAsErrors secret acceptV1Until sunsetNow
        (PyText.split ':' (tokenBody token)) >>= verifyAndRead H R now token) ↔
      LegacyOutcome warningsAsErrors acceptV1Until sunsetNow token := by
  rw [selectKeyText, htag]
  simp only [legacyKey, LegacyOutcome]
  cases acceptV1Until with
  | none => exact documented_legacyWarning_iff
  | some cutoff =>
      by_cases haware : cutoff.utcoffset = none
      · have hnaive : sunsetNow.time.gt? cutoff = none := by
          rw [Datetime.gt?, sunsetNow.utc, haware]
          rfl
        simp only [hnaive, documented_bind_error_iff]
        exact iff_of_false typeError_escapes fun h => h.1 haware
      · simp only [gt?_of_utc haware]
        by_cases hover : cutoff.instant < sunsetNow.time.instant
        · simp only [hover, decide_true, documented_bind_error_iff]
          exact iff_of_true ⟨_, Or.inr rfl⟩ ⟨haware, Or.inl trivial⟩
        · simp only [hover, decide_false, documented_legacyWarning_iff]
          exact ⟨fun h => ⟨haware, Or.inr h⟩, fun h => h.2.resolve_left id⟩

/-- The condition for a documented outcome. -/
def TokenOutcome (H : Hmac) (E : TokenKeySource) (warningsAsErrors : Bool) (secret : Bytes)
    (acceptV1Until : Option Datetime) (sunsetNow : UtcNow) (token : PyText) : Prop :=
  (PyText.split ':' token).length < 4 ∨
    match keyTag (PyText.split ':' (tokenBody token)) with
    | some tag => TaggedOutcome H E secret token tag
    | none => LegacyOutcome warningsAsErrors acceptV1Until sunsetNow token

end Outcome

/-- `parse_token` returns a triple or raises `ApprovalTokenError` exactly on the tokens that are
too short, whose key is refused, or whose key is found and which have a body that can be encoded
and a last segment in ASCII. -/
theorem parseTokenText_documented_iff (H : Hmac) (R : StampReader) (E : TokenKeySource)
    (warningsAsErrors : Bool) (secret : Bytes) (acceptV1Until : Option Datetime)
    (sunsetNow now : UtcNow) (token : PyText) :
    Documented
        (parseTokenText H R E warningsAsErrors secret acceptV1Until sunsetNow now token) ↔
      TokenOutcome H E warningsAsErrors secret acceptV1Until sunsetNow token := by
  rw [parseTokenText_eq, TokenOutcome]
  by_cases hshort : (PyText.split ':' token).length < 4
  · rw [if_pos hshort]
    exact iff_of_true (documented_approvalToken _) (Or.inl hshort)
  · rw [if_neg hshort, or_iff_right hshort]
    cases htag : keyTag (PyText.split ':' (tokenBody token)) with
    | some tag => exact documented_tagged_iff htag
    | none => exact documented_legacy_iff htag

/-! ## Texts without surrogates -/

section Plain

variable {H : Hmac} {R : StampReader} {S : KeySource} {secret : Bytes}
  {acceptV1Until : Option Datetime} {sunsetNow now : UtcNow}

/-- The environment and files of a model without surrogates; every file can be looked for. -/
def ofKeySource (S : KeySource) : TokenKeySource where
  environ name := name.encodeUtf8.bind fun name => (S.environ name).map .ofString
  exists? path := some (path.encodeUtf8.bind S.readBytes).isSome
  readBytes path := path.encodeUtf8.bind S.readBytes

theorem afterSchemeText_ofString (scheme uri : String) :
    afterSchemeText scheme (PyText.ofString uri) =
      (afterScheme scheme uri).map PyText.ofString := by
  have hprefix : (PyText.ofString scheme).isPrefixOf (PyText.ofString uri) =
      scheme.toList.isPrefixOf uri.toList := by
    rw [Bool.eq_iff_iff, List.isPrefixOf_iff_prefix, List.isPrefixOf_iff_prefix]
    exact PyText.ofString_prefix_iff
  rw [afterSchemeText, afterScheme, hprefix]
  split
  · rw [Option.map_some, ← String.length_toList, PyText.ofString, PyText.ofString,
      String.toList_ofList, List.map_drop]
  · rfl

theorem get_ofKeySource (name : String) :
    (ofKeySource S).get (.ofString name) = .ok ((S.environ name).map PyText.ofString) := by
  rw [TokenKeySource.get, if_pos (PyText.fsEncodable_ofString name), ofKeySource]
  simp

theorem ofString_eq_nil_iff {s : String} : PyText.ofString s = [] ↔ s = "" := by
  simp [PyText.ofString]

theorem envMaterial_ofKeySource (varName : String) :
    envMaterial (ofKeySource S) (.ofString varName) =
      .ok (match S.environ varName with
        | none => none
        | some raw =>
            if raw = "" then none
            else some ((b64decode raw.toList).getD raw.toUTF8.toList)) := by
  rw [envMaterial, get_ofKeySource]
  cases S.environ varName with
  | none => rfl
  | some raw =>
      by_cases hempty : raw = ""
      · simp [hempty, PyText.ofString]
      · simp [hempty, ofString_eq_nil_iff]

theorem resolveUriText_ofKeySource (uri : String) :
    resolveUriText (ofKeySource S) (.ofString uri) = .ok (resolveUri S uri) := by
  rw [resolveUriText, resolveUri, afterSchemeText_ofString]
  cases afterScheme envScheme uri with
  | some varName => exact envMaterial_ofKeySource varName
  | none =>
      simp only [Option.map_none, afterSchemeText_ofString]
      cases afterScheme fileScheme uri with
      | none => rfl
      | some path =>
          simp only [Option.map_some, fileMaterial, ofKeySource, PyText.encodeUtf8_ofString,
            Option.bind_some]
          cases S.readBytes path with
          | none => rfl
          | some material => rfl

theorem resolveSecretForPrefixText_ofKeySource (tag : String) :
    resolveSecretForPrefixText H (ofKeySource S) (.ofString tag) secret =
      .ok (resolveSecretForPrefix H S tag secret) := by
  have htext : ∀ s t : String, PyText.ofString s = .ofString t ↔ s = t :=
    fun s t => PyText.ofString_injective.eq_iff
  have hname : chainKeyEnvText (.ofString tag) = .ofString (chainKeyEnv tag) :=
    (PyText.ofString_append _ _).symm
  rw [resolveSecretForPrefixText, resolveSecretForPrefix, hname, get_ofKeySource]
  by_cases hown : keyPrefix H secret = tag
  · rw [if_pos ((htext _ _).mpr hown), if_pos hown]
  · rw [if_neg fun h => hown ((htext _ _).mp h), if_neg hown]
    cases S.environ (chainKeyEnv tag) with
    | none => rfl
    | some uri =>
        by_cases hempty : uri = ""
        · simp [hempty, PyText.ofString]
        · simp only [Option.map_some, ofString_eq_nil_iff, hempty, if_false,
            resolveUriText_ofKeySource]
          cases resolveUri S uri with
          | none => rfl
          | some material =>
              by_cases htag : keyPrefix H material = tag
              · simp [htag]
              · simp [htag, htext]

theorem legacyKey_eq :
    legacyKey false secret acceptV1Until sunsetNow =
      (selectKey.legacy secret acceptV1Until sunsetNow.time).mapError .token := by
  rw [legacyKey.eq_def, selectKey.legacy.eq_def]
  cases acceptV1Until with
  | none => rfl
  | some cutoff =>
      simp only
      cases sunsetNow.time.gt? cutoff with
      | none => rfl
      | some isOver =>
          cases isOver with
          | true => rfl
          | false => rfl

theorem selectKeyText_ofKeySource (parts : List String) :
    selectKeyText H (ofKeySource S) false secret acceptV1Until sunsetNow
        (parts.map PyText.ofString) =
      (selectKey H S secret parts acceptV1Until sunsetNow.time).mapError .token := by
  match parts with
  | [] => exact legacyKey_eq
  | [_] => exact legacyKey_eq
  | version :: tag :: rest =>
      rw [selectKey, selectKeyText]
      by_cases hversion : version = tokenVersionV2
      · have htag : keyTag ((version :: tag :: rest).map PyText.ofString) =
            some (.ofString tag) :=
          if_pos (congrArg PyText.ofString hversion)
        rw [htag, if_pos hversion]
        simp only [PyText.length_ofString, resolveSecretForPrefixText_ofKeySource]
        by_cases hlength : tag.length = keyPrefixLen
        · simp only [hlength, ne_eq, not_true_eq_false, if_false]
          cases resolveSecretForPrefix H S tag secret with
          | none => rfl
          | some resolved => rfl
        · simp only [hlength, ne_eq, not_false_eq_true, if_true]
          rfl
      · have htag : keyTag ((version :: tag :: rest).map PyText.ofString) = none :=
          if_neg fun h => hversion (PyText.ofString_injective h)
        rw [htag, if_neg hversion]
        exact legacyKey_eq

theorem compareDigestText_ofString (digest text : String) :
    compareDigestText digest (.ofString text) = compareDigest digest text := by
  have hascii : (PyText.ofString text).IsAscii ↔ isAscii text = true := by
    rw [PyText.isAscii_ofString_iff, isAscii, List.all_eq_true]
    simp
  have hsame : (PyText.ofString digest == PyText.ofString text) = (digest == text) := by
    rw [Bool.eq_iff_iff, beq_iff_eq, beq_iff_eq, PyText.ofString_injective.eq_iff]
  rw [compareDigestText, compareDigest, hsame]
  by_cases h : isAscii digest = true ∧ isAscii text = true
  · rw [if_pos ⟨h.1, hascii.mpr h.2⟩, if_pos (by rw [h.1, h.2]; rfl)]
  · rw [if_neg fun h' => h ⟨h'.1, hascii.mp h'.2⟩, if_neg fun h' => h (by simpa using h')]

/-- On a text without surrogates this is `parse_token` of the model of strings. -/
theorem parseTokenText_ofString (token : String) :
    parseTokenText H R (ofKeySource S) false secret acceptV1Until sunsetNow now
        (.ofString token) =
      (parseToken H R S secret token acceptV1Until sunsetNow.time now.time).mapError .token := by
  have hsplit : PyText.split ':' (.ofString token) = (segments ':' token).map PyText.ofString :=
    PyText.split_ofString token
  have hbody : tokenBody (.ofString token) =
      .ofString (joinWith ':' (segments ':' token).dropLast) := by
    rw [tokenBody, hsplit, ← List.map_dropLast, PyText.join_map_ofString]
  have hmac : providedMac (.ofString token) =
      .ofString ((segments ':' token).getLast (segments_ne_nil token)) := by
    simp only [providedMac, hsplit, List.getLast_map]
  rw [parseTokenText, parseToken, hsplit, List.length_map, hbody, PyText.split_ofString,
    selectKeyText_ofKeySource]
  by_cases hshort : (segments ':' token).length < 4
  · simp only [hshort, if_true]
    rfl
  · simp only [hshort, if_false]
    cases selectKey H S secret
        (segments ':' (joinWith ':' (segments ':' token).dropLast)) acceptV1Until
          sunsetNow.time with
    | error e => rfl
    | ok selected =>
        simp only [Except.mapError, PyText.encodeUtf8_ofString, hmac, compareDigestText_ofString]
        cases compareDigest (H.hexdigest selected.1 (joinWith ':' (segments ':' token).dropLast))
            ((segments ':' token).getLast (segments_ne_nil token)) with
        | error e => rfl
        | ok same =>
            cases same with
            | false => rfl
            | true => rfl

end Plain

/-- A legacy token whose last segment has an accent. -/
def accentToken : PyText := .ofString "a:b:c:é"

theorem split_accentToken :
    PyText.split ':' accentToken = ["a", "b", "c", "é"].map PyText.ofString := by
  have hsegments : segments ':' "a:b:c:é" = ["a", "b", "c", "é"] := by decide
  rw [accentToken, PyText.split_ofString, hsegments]

theorem tokenBody_accentToken : tokenBody accentToken = .ofString "a:b:c" := by
  have hjoin : joinWith ':' ["a", "b", "c"] = "a:b:c" := by decide
  rw [tokenBody, split_accentToken, ← hjoin, ← PyText.join_map_ofString]
  rfl

theorem providedMac_accentToken : providedMac accentToken = .ofString "é" := by
  simp only [providedMac, split_accentToken]
  rfl

/-- The accent is a `TypeError`, under every secret and with the defaults of the caller. -/
theorem parseTokenText_accentToken (H : Hmac) (R : StampReader) (E : TokenKeySource)
    (secret : Bytes) (sunsetNow now : UtcNow) :
    parseTokenText H R E false secret none sunsetNow now accentToken =
      .error (.token .typeError) := by
  have hlength : ¬(PyText.split ':' accentToken).length < 4 := by
    rw [split_accentToken]
    decide
  have htag : keyTag (PyText.split ':' (tokenBody accentToken)) = none := by
    have hsegments : segments ':' "a:b:c" = ["a", "b", "c"] := by decide
    rw [tokenBody_accentToken, PyText.split_ofString, hsegments]
    decide
  have hselect : selectKeyText H E false secret none sunsetNow
      (PyText.split ':' (tokenBody accentToken)) = .ok (secret, 0) := by
    rw [selectKeyText, htag]
    rfl
  have hmac : ¬(providedMac accentToken).IsAscii := by
    rw [providedMac_accentToken]
    decide
  have hcompare : compareDigestText (H.hexdigest secret "a:b:c") (providedMac accentToken) =
      .error .typeError :=
    if_neg fun h => hmac h.2
  rw [parseTokenText, if_neg hlength, hselect, tokenBody_accentToken]
  simp only [PyText.encodeUtf8_ofString, hcompare]

/-- A second before `deployExpiry`. -/
def sampleNow : UtcNow := ⟨{ deployExpiry with second := 4 }, rfl⟩

theorem accent_token_escapes :
    parseTokenText tokenHmac .exact (ofKeySource tokenKeySource) false rotatedKey none sampleNow
          sampleNow accentToken = .error (.token .typeError) ∧
      ¬Documented (parseTokenText tokenHmac .exact (ofKeySource tokenKeySource) false rotatedKey
        none sampleNow sampleNow accentToken) := by
  have hraised := parseTokenText_accentToken tokenHmac .exact (ofKeySource tokenKeySource)
    rotatedKey sampleNow sampleNow
  refine ⟨hraised, ?_⟩
  rw [hraised, documented_error_iff]
  exact typeError_escapes

end AgenticGovernance.Gates

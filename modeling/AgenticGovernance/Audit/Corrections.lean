import Mathlib
import AgenticGovernance.Audit.Module
import AgenticGovernance.Support.Regex

/-!
# Correction events

`validate_correction_payload` checks the dictionary of an operator field by field, and the
note against a list of forbidden patterns.  `log_validated_correction` validates again and
logs an event with what is left.

The patterns are searched in the NFKC form of the note.  The constructor of the event
rewrites the note afterwards: it drops control characters, doubles backslashes and spells
out tabs (`visible`).
-/

namespace AgenticGovernance.Audit

open Support

/-! ## Forbidden patterns -/

/-- A pattern with the text that error messages quote. -/
structure NotePattern where
  text : String
  regex : Regex

namespace NotePattern

open Regex

def hexDigit : Regex := chars fun c => c.isDigit || c ∈ "abcdefABCDEF".toList

/-- `[^A-Za-z0-9]` with `re.IGNORECASE` -/
def nonAlphanumeric : Regex :=
  chars fun c => !(c.isAlphanum || c ∈ "\u017f\u212a\u0130\u0131".toList)

/-- `word\b` at a file extension. -/
def extension (s : String) : Regex := .seq (litIgnoringCase s) .boundary

/-- `\bword\b` -/
def wholeWord (r : Regex) : Regex := sequence [.boundary, r, .boundary]

/-- `(?<!(?:^|\b)word-)` -/
def notBehindToken (s : String) : Regex :=
  .notBehind s.length (.seq (.alt .start .boundary) (lit s))

end NotePattern

open Regex NotePattern in
/-- `FORBIDDEN_NOTE_PATTERNS` -/
def forbiddenNotePatterns : List NotePattern :=
  [⟨"/Users/", litIgnoringCase "/Users/"⟩,
   ⟨"/srv/", litIgnoringCase "/srv/"⟩,
   ⟨"(?:^|[^A-Za-z0-9])/?home/",
    sequence [.alt .start nonAlphanumeric, optional (char '/'), litIgnoringCase "home/"]⟩,
   ⟨"/var/", litIgnoringCase "/var/"⟩,
   ⟨"/tmp/", litIgnoringCase "/tmp/"⟩,
   ⟨"/opt/", litIgnoringCase "/opt/"⟩,
   ⟨"%2[Ff](?:Users|srv|home|var|tmp|opt)%2[Ff]",
    sequence [litIgnoringCase "%2f", oneOf ["Users", "srv", "home", "var", "tmp", "opt"],
      litIgnoringCase "%2f"]⟩,
   ⟨"%5[Cc]", litIgnoringCase "%5c"⟩,
   ⟨"\\b[A-Za-z]:\\\\", sequence [.boundary, chars Char.isAlpha, lit ":\\"]⟩,
   ⟨"\\\\\\\\[A-Za-z0-9._-]+\\\\",
    sequence [lit "\\\\",
      .repeats (chars fun c => c.isAlphanum || c ∈ "._-".toList) 1 none, lit "\\"]⟩,
   ⟨"\\.py\\b", extension ".py"⟩,
   ⟨"\\.sh\\b", extension ".sh"⟩,
   ⟨"\\.sql\\b", extension ".sql"⟩,
   ⟨"\\bcron(?:job)?\\b",
    wholeWord (.seq (litIgnoringCase "cron") (optional (litIgnoringCase "job")))⟩,
   ⟨"\\bbranch\\b", wholeWord (litIgnoringCase "branch")⟩,
   ⟨"console-redesign", litIgnoringCase "console-redesign"⟩,
   ⟨"\\b(?:ops|db|web|api|gw|lb)-\\d\x7b1,3\x7d\\b",
    wholeWord (sequence [oneOf ["ops", "db", "web", "api", "gw", "lb"], char '-',
      .repeats digit 1 (some 3)])⟩,
   ⟨"(?<![0-9a-fA-F])(?<!(?:^|\\b)sha256-)(?<!(?:^|\\b)SHA256-)" ++
      "[0-9a-fA-F]\x7b7,40\x7d(?![0-9a-fA-F])",
    sequence [.notBehind 1 hexDigit, notBehindToken "sha256-", notBehindToken "SHA256-",
      .repeats hexDigit 7 (some 40), .notAhead hexDigit]⟩,
   ⟨"\\b(?:\\d\x7b1,3\x7d\\.)\x7b3\x7d\\d\x7b1,3\x7d\\b",
    wholeWord (.seq (.repeats (.seq (.repeats digit 1 (some 3)) (char '.')) 3 (some 3))
      (.repeats digit 1 (some 3)))⟩,
   ⟨"\\b(?:[0-9a-fA-F]\x7b1,4\x7d:)\x7b3,\x7d[0-9a-fA-F]\x7b0,4\x7d\\b",
    wholeWord (.seq (.repeats (.seq (.repeats hexDigit 1 (some 4)) (char ':')) 3 none)
      (.repeats hexDigit 0 (some 4)))⟩,
   ⟨"::[0-9a-fA-F]\x7b1,4\x7d", .seq (lit "::") (.repeats hexDigit 1 (some 4))⟩,
   ⟨"[\\r\\n]", chars fun c => c = '\r' || c = '\n'⟩,
   ⟨"\\x00", char '\x00'⟩,
   ⟨"<[^>]+>", sequence [char '<', .repeats (chars fun c => c ≠ '>') 1 none, char '>']⟩]

/-! ## The validator -/

/-- The parts of Python's runtime and Unicode data that the correction path uses. -/
structure CorrectionRuntime where
  classes : CharClasses
  nfc : String → String
  nfkc : String → String
  /-- `str.strip` -/
  strip : String → String
  /-- `repr` of a string -/
  reprStr : String → String
  /-- `type(value).__name__` -/
  typeName : PyValue → String
  fromisoformat : String → Option Datetime
  /-- `t.astimezone(timezone.utc)`; `none` is the `OverflowError` -/
  astimezoneUtc : Datetime → Option Datetime
  nfc_ascii : ∀ s : String, (∀ c ∈ s.toList, c.toNat < 128) → nfc s = s
  nfc_length : ∀ s : String, (nfc s).length ≤ 3 * s.length
  nfkc_nfc : ∀ s : String, nfkc (nfc s) = nfkc s
  /-- No normal form joins these characters with a neighbour. -/
  nfkc_split : ∀ (s t : String) (c : Char), c ∈ ['\\', '\t', '\n', '\r'] →
    nfkc (s ++ String.singleton c ++ t) = nfkc s ++ String.singleton c ++ nfkc t
  classes_ascii : classes.Ascii
  digits_ascii : ∀ c : Char, c.toNat < 128 → classes.isDigit c = c.isDigit

/-- A value in the dictionary of an operator. -/
inductive PayloadValue where
  | py (v : PyValue)
  | datetime (t : Datetime)
  /-- A datetime whose `tzinfo` raises from `utcoffset`, or answers with what is neither `None`
  nor an offset. -/
  | unreadableTime

abbrev CorrectionPayload := List (String × PayloadValue)

/-- `CorrectionValidationError` -/
structure CorrectionError where
  field : String
  reason : String
  operatorHint : String
  deriving DecidableEq

/-- What escapes from the correction path before anything is logged. -/
inductive CorrectionFailure where
  | invalid (e : CorrectionError)
  | overflow
  /-- what comes out of the `tzinfo` of a datetime -/
  | tzinfo
  | typeError
  | runtimeError
  /-- the `ValidationError` of `AuditEvent` -/
  | eventInvalid
  deriving DecidableEq

def noteMaxChars : ℕ := 256

def minHmacKeyUniqueBytes : ℕ := 8

def allowedFields : List String :=
  ["kind", "ref_chain_seq_start", "ref_chain_seq_end", "reason", "operator_id", "note",
    "created_at"]

def allowedReasons : List String :=
  ["operator_marked_erroneous", "agent_theater_retraction", "manual_audit_hygiene"]

def allowedFieldsText : String :=
  "created_at, kind, note, operator_id, reason, ref_chain_seq_end, ref_chain_seq_start"

def allowedReasonsText : String :=
  "agent_theater_retraction, manual_audit_hygiene, operator_marked_erroneous"

/-- `_REQUIRED_FIELDS`, sorted. -/
def requiredFields : List String :=
  ["kind", "operator_id", "reason", "ref_chain_seq_end", "ref_chain_seq_start"]

/-- The dictionary that the validator returns. -/
structure ValidatedCorrection where
  kind : String
  reason : String
  operatorId : String
  refChainSeqStart : ℤ
  refChainSeqEnd : ℤ
  note : String
  createdAt : Option Datetime

/-- `raise CorrectionValidationError(...)` -/
def refuse {α : Type} (field reason operatorHint : String) : Except CorrectionFailure α :=
  .error (.invalid ⟨field, reason, operatorHint⟩)

def checkHmacKeyStrength (hmacKey : Bytes) : Except CorrectionFailure Unit :=
  if hmacKey.length < 16 then
    refuse "hmac_key" "key_too_short" "Pass the audit HMAC key (>= 16 bytes)."
  else if hmacKey.dedup.length < minHmacKeyUniqueBytes then
    refuse "hmac_key" "key_low_entropy"
      ("HMAC key has < 8 distinct bytes. This usually means a placeholder like b'k' * 32 " ++
        "leaked into production. Generate a real key with secrets.token_bytes(32).")
  else .ok ()

/-- The loop over the keys, which stops at the first unknown one. -/
def checkFields (payload : CorrectionPayload) : Except CorrectionFailure Unit :=
  match payload.find? fun e => e.1 ∉ allowedFields with
  | some e =>
      refuse e.1 "field_not_in_allowlist" ("Remove this field. Allowed: " ++ allowedFieldsText)
  | none => .ok ()

section Validate

variable (rt : CorrectionRuntime) (payload : CorrectionPayload)

/-- The first pattern that is found in the NFKC form of a text. -/
def forbiddenIn (text : String) : Option NotePattern :=
  forbiddenNotePatterns.find? fun p => p.regex.search rt.classes (rt.nfkc text)

def validateNoteText (note : String) : Except CorrectionFailure String :=
  if noteMaxChars < note.length then
    refuse "note" "over_256_chars" "Truncate note to <= 256 characters."
  else
    match forbiddenIn rt note with
    | some p =>
        refuse "note" ("forbidden_pattern:" ++ p.text)
          ("Remove filesystem paths (POSIX, Windows, URL-encoded), source file names, " ++
            "cron/branch references, raw git SHAs, IP addresses (v4/v6), internal " ++
            "hostnames, CRLF or null bytes, and HTML tags. Use hash_commit_sha() for " ++
            "commit references.")
    | none => .ok note

def validateNote : Except CorrectionFailure String :=
  match payload.lookup "note" with
  | none => validateNoteText rt ""
  | some (.py .none) => validateNoteText rt ""
  | some (.py (.str note)) => validateNoteText rt note
  | some _ => refuse "note" "non_string" "note must be a string (max 256 chars)."

def checkRequired : Except CorrectionFailure Unit :=
  match requiredFields.find? fun name => name ∉ payload.map Prod.fst with
  | some name => refuse name "required_field_missing" ("Add " ++ name ++ " to the payload.")
  | none => .ok ()

def validateKind : Except CorrectionFailure String :=
  match payload.lookup "kind" with
  | some (.py (.str kind)) =>
      if kind ∈ permittedKinds then .ok kind
      else
        refuse "kind" ("kind_" ++ rt.reprStr kind ++ "_not_in_allowlist")
          "Only 'audit.correction' is permitted on this path."
  | _ => refuse "kind" "missing_or_non_string" "Set kind='audit.correction'."

def validateReason : Except CorrectionFailure String :=
  match payload.lookup "reason" with
  | some (.py (.str reason)) =>
      if reason ∈ allowedReasons then .ok reason
      else
        refuse "reason" "free_text_reason_rejected"
          ("Free-text reasons are blocked. Use one of: " ++ allowedReasonsText)
  | _ => refuse "reason" "missing_or_non_string" ("Pick one of: " ++ allowedReasonsText)

def validateOperatorId : Except CorrectionFailure String :=
  match payload.lookup "operator_id" with
  | some (.py (.str op)) =>
      if rt.strip op = "" then
        refuse "operator_id" "missing_or_empty"
          "Pass a non-empty operator_id (UUID or user login)."
      else .ok op
  | _ =>
      refuse "operator_id" "missing_or_empty"
        "Pass a non-empty operator_id (UUID or user login)."

/-- One round of the loop in `_validate_seq_bounds`. -/
def validateSeq (name : String) : Except CorrectionFailure ℤ :=
  match payload.lookup name with
  | some (.py (.int n)) =>
      if n < 0 then refuse name "negative" (name ++ " must be >= 0.") else .ok n
  | _ => refuse name "missing_or_non_int" (name ++ " must be a non-negative int.")

def validateSeqBounds : Except CorrectionFailure (ℤ × ℤ) := do
  let first ← validateSeq payload "ref_chain_seq_start"
  let last ← validateSeq payload "ref_chain_seq_end"
  if last < first then
    refuse "ref_chain_seq_end" "end_before_start"
      "ref_chain_seq_end must be >= ref_chain_seq_start."
  else .ok (first, last)

def toUtc (t : Datetime) : Except CorrectionFailure Datetime :=
  match rt.astimezoneUtc t with
  | some utc => .ok utc
  | none => .error .overflow

/-- `candidate[:-1] + "+00:00"` if it ends with `Z` -/
def utcCandidate (s : String) : String :=
  if s.toList.getLast? = some 'Z' then String.ofList (s.toList.dropLast ++ "+00:00".toList)
  else s

def validateCreatedAt : PayloadValue → Except CorrectionFailure Datetime
  | .datetime t =>
      if t.utcoffset = none then
        refuse "created_at" "naive_datetime"
          ("created_at must be timezone-aware. Use datetime.now(timezone.utc) or an " ++
            "ISO-8601 UTC string.")
      else toUtc rt t
  | .unreadableTime => .error .tzinfo
  | .py (.str value) =>
      match rt.fromisoformat (utcCandidate (rt.strip value)) with
      | none =>
          refuse "created_at" "invalid_iso8601"
            "created_at must be an ISO-8601 UTC string (e.g. '2026-04-15T12:00:00Z')."
      | some parsed =>
          if parsed.utcoffset = none then
            refuse "created_at" "naive_datetime"
              ("created_at string must include a timezone offset (e.g. trailing 'Z' or " ++
                "'+00:00').")
          else toUtc rt parsed
  | .py v =>
      refuse "created_at" "invalid_type"
        ("created_at must be a timezone-aware datetime or an ISO-8601 UTC string; got type " ++
          rt.typeName v ++ ".")

def checkNonempty : Except CorrectionFailure Unit :=
  if payload.isEmpty then
    refuse "payload" "empty"
      ("payload must include kind, reason, operator_id, ref_chain_seq_start, " ++
        "ref_chain_seq_end.")
  else .ok ()

def validateOptionalCreatedAt : Except CorrectionFailure (Option Datetime) :=
  match payload.lookup "created_at" with
  | none => .ok none
  | some value => some <$> validateCreatedAt rt value

/-- `validate_correction_payload`, on a dictionary. -/
def validateCorrectionPayload (hmacKey : Bytes) :
    Except CorrectionFailure ValidatedCorrection := do
  checkNonempty payload
  checkHmacKeyStrength hmacKey
  checkFields payload
  let note ← validateNote rt payload
  checkRequired payload
  let kind ← validateKind rt payload
  let reason ← validateReason payload
  let operatorId ← validateOperatorId rt payload
  let (first, last) ← validateSeqBounds payload
  let createdAt ← validateOptionalCreatedAt rt payload
  return ⟨kind, reason, operatorId, first, last, note, createdAt⟩

end Validate

/-! ## The event -/

/-- `validated_payload.get("kind") not in PERMITTED_KINDS`; a list or a dictionary cannot be
looked up in a frozen set. -/
def checkPayloadKind (payload : CorrectionPayload) : Except CorrectionFailure Unit :=
  match payload.lookup "kind" with
  | some (.py (.str kind)) => if kind ∈ permittedKinds then .ok () else .error .runtimeError
  | some (.py (.list _)) => .error .typeError
  | some (.py (.dict _)) => .error .typeError
  | _ => .error .runtimeError

def ValidatedCorrection.metadata (v : ValidatedCorrection) : List (String × PyValue) :=
  [("reason", .str v.reason),
   ("operator_id", .str v.operatorId),
   ("ref_chain_seq_start", .int v.refChainSeqStart),
   ("ref_chain_seq_end", .int v.refChainSeqEnd),
   ("note", .str v.note)]

def ValidatedCorrection.eventArgs (v : ValidatedCorrection) : EventArgs where
  sessionId := none
  agentId := "governance.operator"
  parentEventId := none
  kind := v.kind
  model := none
  inputHash := none
  outputHash := none
  metadata := v.metadata

/-- `log_validated_correction` up to the event that it hands to `log`. -/
def correctionEvent (rt : CorrectionRuntime) (payload : CorrectionPayload) (hmacKey : Bytes) :
    Except CorrectionFailure LoggedEvent := do
  checkPayloadKind payload
  let v ← validateCorrectionPayload rt payload hmacKey
  match v.eventArgs.construct rt.nfc with
  | none => .error .eventInvalid
  | some event => .ok event

/-! ## What the sanitizer makes of a note -/

/-- What is left of a character. -/
def visibleChar (c : Char) : List Char :=
  if c = '\\' then ['\\', '\\']
  else if c = '\n' then ['\\', 'n']
  else if c = '\r' then ['\\', 'r']
  else if c = '\t' then ['\\', 't']
  else if isC0Control c then []
  else [c]

def visible (s : String) : String := String.ofList (s.toList.flatMap visibleChar)

theorem replaceChar_flatMap (c : Char) (by_ : List Char) (f : Char → List Char)
    (s : List Char) :
    replaceChar c by_ (s.flatMap f) = s.flatMap fun x => replaceChar c by_ (f x) := by
  rw [replaceChar, List.flatMap_assoc]
  rfl

/-- A text that is not cut is rewritten one character at a time. -/
theorem sanitizeString_eq_visible {nfc : String → String} {value : String} {maxLen : ℕ}
    (h : (nfc value).length ≤ maxLen) : sanitizeString nfc value maxLen = visible (nfc value) := by
  have hchar : ∀ c : Char,
      (replaceChar '\t' ['\\', 't'] (replaceChar '\r' ['\\', 'r'] (replaceChar '\n' ['\\', 'n']
        (if c = '\\' then ['\\', '\\'] else [c])))).filter (fun c => !isC0Control c) =
          visibleChar c := by
    intro c
    rw [visibleChar]
    by_cases hslash : c = '\\'
    · subst hslash
      decide
    by_cases hnewline : c = '\n'
    · subst hnewline
      decide
    by_cases hreturn : c = '\r'
    · subst hreturn
      decide
    by_cases htab : c = '\t'
    · subst htab
      decide
    by_cases hcontrol : isC0Control c
    · simp [hslash, hnewline, hreturn, htab, replaceChar, hcontrol]
    · simp [hslash, hnewline, hreturn, htab, replaceChar, hcontrol]
  have hcapped : (nfc value).toList.take maxLen = (nfc value).toList :=
    List.take_of_length_le (by rwa [String.length_toList])
  rw [sanitizeString, hcapped, visible]
  change String.ofList ((replaceChar '\t' _ (replaceChar '\r' _ (replaceChar '\n' _
    ((nfc value).toList.flatMap fun x => if x = '\\' then ['\\', '\\'] else [x])))).filter _) = _
  rw [replaceChar_flatMap, replaceChar_flatMap, replaceChar_flatMap, List.filter_flatMap]
  simp only [hchar]

/-- A text without backslashes and control characters is left alone. -/
theorem visible_of_forall {s : String} (h : ∀ c ∈ s.toList, visibleChar c = [c]) :
    visible s = s := by
  rw [visible, List.flatMap_congr (g := fun c => [c]) h, List.flatMap_singleton']
  exact String.ofList_toList

/-! ## What an accepted payload satisfies -/

section Accepted

variable {rt : CorrectionRuntime} {payload : CorrectionPayload} {hmacKey : Bytes}

/-- The text of the note; a missing note is empty. -/
def noteText (payload : CorrectionPayload) : String :=
  match payload.lookup "note" with
  | some (.py (.str note)) => note
  | _ => ""

theorem bind_eq_ok {α β : Type} {x : Except CorrectionFailure α}
    {f : α → Except CorrectionFailure β} {b : β} (h : (x >>= f) = .ok b) :
    ∃ a, x = .ok a ∧ f a = .ok b := by
  cases x with
  | error e => cases h
  | ok a => exact ⟨a, rfl, h⟩

theorem validateNoteText_eq_ok {note note' : String}
    (h : validateNoteText rt note = .ok note') :
    note' = note ∧ note.length ≤ noteMaxChars ∧ forbiddenIn rt note = none := by
  rw [validateNoteText] at h
  split at h
  · cases h
  · rename_i hlength
    split at h
    · cases h
    · rename_i hclean
      cases h
      exact ⟨rfl, not_lt.mp hlength, hclean⟩

theorem validateNote_eq_ok {note : String} (h : validateNote rt payload = .ok note) :
    note = noteText payload ∧ note.length ≤ noteMaxChars ∧ forbiddenIn rt note = none := by
  rw [validateNote] at h
  rw [noteText]
  split at h
  · rename_i hnone
    obtain ⟨rfl, hlength, hclean⟩ := validateNoteText_eq_ok h
    rw [hnone]
    exact ⟨rfl, hlength, hclean⟩
  · rename_i hnone
    obtain ⟨rfl, hlength, hclean⟩ := validateNoteText_eq_ok h
    rw [hnone]
    exact ⟨rfl, hlength, hclean⟩
  · rename_i text htext
    obtain ⟨rfl, hlength, hclean⟩ := validateNoteText_eq_ok h
    rw [htext]
    exact ⟨rfl, hlength, hclean⟩
  · cases h

theorem validateKind_eq_ok {kind : String} (h : validateKind rt payload = .ok kind) :
    kind ∈ permittedKinds := by
  rw [validateKind] at h
  split at h
  · split at h
    · rename_i hkind
      cases h
      exact hkind
    · cases h
  · cases h

/-- An accepted payload has the permitted kind and a clean note. -/
theorem validateCorrectionPayload_eq_ok {v : ValidatedCorrection}
    (h : validateCorrectionPayload rt payload hmacKey = .ok v) :
    v.kind ∈ permittedKinds ∧ v.note = noteText payload ∧ v.note.length ≤ noteMaxChars ∧
      forbiddenIn rt v.note = none := by
  rw [validateCorrectionPayload] at h
  obtain ⟨-, -, h⟩ := bind_eq_ok h
  obtain ⟨-, -, h⟩ := bind_eq_ok h
  obtain ⟨-, -, h⟩ := bind_eq_ok h
  obtain ⟨note, hnote, h⟩ := bind_eq_ok h
  obtain ⟨-, -, h⟩ := bind_eq_ok h
  obtain ⟨kind, hkind, h⟩ := bind_eq_ok h
  obtain ⟨reason, -, h⟩ := bind_eq_ok h
  obtain ⟨operatorId, -, h⟩ := bind_eq_ok h
  obtain ⟨⟨first, last⟩, -, h⟩ := bind_eq_ok h
  obtain ⟨createdAt, -, h⟩ := bind_eq_ok h
  cases h
  obtain ⟨htext, hlength, hclean⟩ := validateNote_eq_ok hnote
  exact ⟨validateKind_eq_ok hkind, htext, hlength, hclean⟩

/-- The event of an accepted payload. -/
theorem correctionEvent_eq_ok_iff {event : LoggedEvent} :
    correctionEvent rt payload hmacKey = .ok event ↔
      checkPayloadKind payload = .ok () ∧
        ∃ v, validateCorrectionPayload rt payload hmacKey = .ok v ∧ v.eventArgs.Accepted ∧
          v.eventArgs.sanitize rt.nfc = event := by
  rw [correctionEvent]
  constructor
  · intro h
    obtain ⟨⟨⟩, hkind, h⟩ := bind_eq_ok h
    obtain ⟨v, hv, h⟩ := bind_eq_ok h
    refine ⟨hkind, v, hv, ?_⟩
    split at h
    · cases h
    · rename_i event' hevent
      cases h
      exact EventArgs.construct_eq_some_iff.mp hevent
  · rintro ⟨hkind, v, hv, haccepted, rfl⟩
    rw [hkind, hv]
    change (match v.eventArgs.construct rt.nfc with
      | none => .error .eventInvalid
      | some event => .ok event : Except CorrectionFailure LoggedEvent) = _
    rw [EventArgs.construct, if_pos haccepted]

end Accepted

/-! ## The stored note -/

/-- A store keeps what `build_record` makes of the event on the head it read. -/
def StoresCorrection (rt : CorrectionRuntime)
    (canonicalMetadata : List (String × PyValue) → Option Metadata)
    (payload : CorrectionPayload) (hmacKey : Bytes) (record : LoggedRecord) : Prop :=
  ∃ event, correctionEvent rt payload hmacKey = .ok event ∧
    ∃ K sessionId parentId createdAt eventId prevHash,
      (LoggedCall.mk event sessionId parentId createdAt).buildRecord canonicalMetadata K
        eventId prevHash = some record

/-- No forbidden pattern is found in the note of a record. -/
def NoteClean (rt : CorrectionRuntime) (record : LoggedRecord) : Prop :=
  ∀ note, record.metadata.lookup "note" = some (.str note) → forbiddenIn rt note = none

section Stored

variable {rt : CorrectionRuntime} {payload : CorrectionPayload} {hmacKey : Bytes}
  {canonicalMetadata : List (String × PyValue) → Option Metadata}

theorem sanitizeString_of_ascii {s : String} {maxLen : ℕ}
    (hascii : ∀ c ∈ s.toList, c.toNat < 128) (hvisible : ∀ c ∈ s.toList, visibleChar c = [c])
    (hlength : s.length ≤ maxLen) : sanitizeString rt.nfc s maxLen = s := by
  have hnfc : rt.nfc s = s := rt.nfc_ascii s hascii
  rw [sanitizeString_eq_visible (by rwa [hnfc]), hnfc]
  exact visible_of_forall hvisible

/-- The event carries the rewritten note of the payload. -/
theorem correctionEvent_note {event : LoggedEvent}
    (h : correctionEvent rt payload hmacKey = .ok event) :
    event.metadata.lookup "note" = some (.str (visible (rt.nfc (noteText payload)))) ∧
      forbiddenIn rt (noteText payload) = none := by
  obtain ⟨-, v, hv, -, rfl⟩ := correctionEvent_eq_ok_iff.mp h
  obtain ⟨-, hnote, hlength, hclean⟩ := validateCorrectionPayload_eq_ok hv
  have hshort : (rt.nfc v.note).length ≤ defaultMaxStringLen := by
    refine (rt.nfc_length v.note).trans ?_
    rw [noteMaxChars] at hlength
    rw [defaultMaxStringLen]
    omega
  rw [← hnote]
  refine ⟨?_, hclean⟩
  change some (PyValue.str (sanitizeString rt.nfc v.note defaultMaxStringLen)) = _
  rw [sanitizeString_eq_visible hshort]

/-- Only the metadata of a correction depends on the operator. -/
theorem correctionEvent_base {event : LoggedEvent}
    (h : correctionEvent rt payload hmacKey = .ok event) :
    event.base = ⟨none, "governance.operator", none, "audit.correction", none, none, none, []⟩ := by
  obtain ⟨-, v, hv, -, rfl⟩ := correctionEvent_eq_ok_iff.mp h
  have hkind : v.kind = "audit.correction" :=
    List.mem_singleton.mp (validateCorrectionPayload_eq_ok hv).1
  have hagent : sanitizeString rt.nfc "governance.operator" maxAgentIdLen =
      "governance.operator" :=
    sanitizeString_of_ascii (by simp) (by simp [visibleChar, isC0Control]) (by decide)
  have hkept : sanitizeString rt.nfc v.kind maxKindLen = "audit.correction" := by
    rw [hkind]
    exact sanitizeString_of_ascii (by simp) (by simp [visibleChar, isC0Control]) (by decide)
  rw [EventArgs.sanitize, AuditEvent.mk.injEq]
  exact ⟨rfl, hagent, rfl, hkept, rfl, rfl, rfl, rfl⟩

theorem StoresCorrection.metadata {record : LoggedRecord}
    (h : StoresCorrection rt canonicalMetadata payload hmacKey record) :
    ∃ event, correctionEvent rt payload hmacKey = .ok event ∧
      record.metadata = event.metadata := by
  obtain ⟨event, hevent, K, sessionId, parentId, createdAt, eventId, prevHash, hbuilt⟩ := h
  rw [LoggedCall.buildRecord] at hbuilt
  obtain ⟨metadata, -, hbuilt⟩ := Option.bind_eq_some_iff.mp hbuilt
  obtain ⟨r, -, hbuilt⟩ := Option.bind_eq_some_iff.mp hbuilt
  rw [← Option.some.inj hbuilt]
  exact ⟨event, hevent, rfl⟩

/-- A module that does not sign can store every correction it accepts. -/
theorem exists_storesCorrection {event : LoggedEvent} {metadata : Metadata}
    (hevent : correctionEvent rt payload hmacKey = .ok event)
    (hprints : canonicalMetadata event.metadata = some metadata) :
    ∃ record, StoresCorrection rt canonicalMetadata payload hmacKey record := by
  let K : ModuleKeys := ⟨.ofTable [], [], none⟩
  let L : LoggedCall := ⟨event, ⟨1⟩, none, ⟨2025, 1, 2, 3, 4, 5, 0, some .utc⟩⟩
  have hbase := correctionEvent_base hevent
  have hvalid : RecordFields.Valid
      ⟨(L.toLogCall metadata).recordContent ⟨2⟩ none,
        computeEventHmac K.hmac K.secret ((L.toLogCall metadata).recordContent ⟨2⟩ none),
        none, none, .unsigned⟩ := by
    constructor
    · change 1 ≤ event.base.agentId.length ∧ event.base.agentId.length ≤ maxAgentIdLen
      rw [hbase]
      decide
    · change 1 ≤ event.base.kind.length ∧ event.base.kind.length ≤ maxKindLen
      rw [hbase]
      decide
    · change optionalWithin maxModelLen event.base.model
      rw [hbase]
      rintro t ⟨⟩
    · change optionalWithin maxHashLen event.base.inputHash
      rw [hbase]
      rintro t ⟨⟩
    · change optionalWithin maxHashLen event.base.outputHash
      rw [hbase]
      rintro t ⟨⟩
    · rintro t ⟨⟩
    · rw [length_computeEventHmac]
      decide
    · rintro t ⟨⟩
  refine ⟨.withMetadata ⟨_, hvalid⟩ event.metadata, event, hevent, K, ⟨1⟩, none,
    ⟨2025, 1, 2, 3, 4, 5, 0, some .utc⟩, ⟨2⟩, none, ?_⟩
  rw [LoggedCall.buildRecord, hprints]
  change ((L.toLogCall metadata).buildRecord K ⟨2⟩ none).bind
    (fun r => some (LoggedRecord.withMetadata r event.metadata)) = _
  have hbuilt : (L.toLogCall metadata).buildRecord K ⟨2⟩ none = some ⟨_, hvalid⟩ :=
    AuditEventRecord.construct_eq_some_iff.mpr rfl
  rw [hbuilt]
  rfl

end Stored

/-! ## A payload for each note -/

/-- A runtime on ASCII text, where both normal forms of a text are the text. -/
def asciiRuntime : CorrectionRuntime where
  classes := ⟨Char.isDigit, fun c => c.isAlphanum || c = '_'⟩
  nfc := id
  nfkc := id
  strip s := String.ofList (((s.toList.dropWhile (· = ' ')).reverse.dropWhile (· = ' ')).reverse)
  reprStr s := "'" ++ s ++ "'"
  typeName _ := "object"
  fromisoformat _ := none
  astimezoneUtc := some
  nfc_ascii _ _ := rfl
  nfc_length s := Nat.le_mul_of_pos_left s.length (by decide)
  nfkc_nfc _ := rfl
  nfkc_split _ _ _ _ := rfl
  classes_ascii _ _ := rfl
  digits_ascii _ _ := rfl

def sampleHmacKey : Bytes := (List.range 16).map UInt8.ofNat

def sampleCorrection (note : String) : CorrectionPayload :=
  [("kind", .py (.str "audit.correction")),
   ("ref_chain_seq_start", .py (.int 3)),
   ("ref_chain_seq_end", .py (.int 5)),
   ("reason", .py (.str "manual_audit_hygiene")),
   ("operator_id", .py (.str "operator")),
   ("note", .py (.str note))]

def sampleValidated (note : String) : ValidatedCorrection where
  kind := "audit.correction"
  reason := "manual_audit_hygiene"
  operatorId := "operator"
  refChainSeqStart := 3
  refChainSeqEnd := 5
  note := note
  createdAt := none

theorem sampleCorrection_event {note : String}
    (hnote : validateNoteText asciiRuntime note = .ok note)
    (haccepted : (sampleValidated note).eventArgs.Accepted) :
    correctionEvent asciiRuntime (sampleCorrection note) sampleHmacKey =
      .ok ((sampleValidated note).eventArgs.sanitize id) := by
  have hkey : checkHmacKeyStrength sampleHmacKey = .ok () := by decide
  refine correctionEvent_eq_ok_iff.mpr ⟨rfl, sampleValidated note, ?_, haccepted, rfl⟩
  have hvalidated : validateNote asciiRuntime (sampleCorrection note) = .ok note := hnote
  rw [validateCorrectionPayload, hkey, hvalidated]
  rfl

theorem sampleCorrection_prints {note : String} {event : LoggedEvent}
    (h : correctionEvent asciiRuntime (sampleCorrection note) sampleHmacKey = .ok event) :
    ∃ metadata, reloadedMetadata event.metadata = some metadata := by
  obtain ⟨-, v, -, -, rfl⟩ := correctionEvent_eq_ok_iff.mp h
  exact ⟨_, rfl⟩

end AgenticGovernance.Audit

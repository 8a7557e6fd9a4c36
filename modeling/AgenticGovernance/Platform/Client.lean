import Mathlib
import AgenticGovernance.Support.Json

/-!
# The retry loop of the platform client

`PlatformClient` forwards audit events and gate requests to the platform, one POST at a
time for each of them.  What a POST means for the event is decided by its response alone,
together with how often the event was sent: it is delivered, dropped, sent again under
the sequence number that the platform expects, or sent again after a pause.

Only the parts of a response that the client reads are modelled.
-/

namespace AgenticGovernance.Platform

open Support

/-! ## Configuration and counters -/

/-- `MAX_CUMULATIVE_RETRY_SECONDS` -/
def maxCumulativeRetrySeconds : ℚ := 15

/-- The part of the configuration that forwarding depends on. -/
structure PlatformConfig where
  maxQueueSize : ℕ
  maxRetries : ℕ
  one_le_maxQueueSize : 1 ≤ maxQueueSize

/-- The counters of the audit forwards. -/
structure Stats where
  sent : ℕ
  droppedQueueFull : ℕ
  dropped4xx : ℕ
  dropped5xx : ℕ
  droppedSeqConflict : ℕ
  retries : ℕ
  deriving DecidableEq

def Stats.zero : Stats := ⟨0, 0, 0, 0, 0, 0⟩

/-- How an event leaves the client. -/
inductive Disposal where
  | sent
  | queueFull
  | fourXx
  | fiveXx
  | seqConflict
  deriving DecidableEq, Repr

def Stats.record (s : Stats) : Disposal → Stats
  | .sent => { s with sent := s.sent + 1 }
  | .queueFull => { s with droppedQueueFull := s.droppedQueueFull + 1 }
  | .fourXx => { s with dropped4xx := s.dropped4xx + 1 }
  | .fiveXx => { s with dropped5xx := s.dropped5xx + 1 }
  | .seqConflict => { s with droppedSeqConflict := s.droppedSeqConflict + 1 }

def Stats.retry (s : Stats) : Stats := { s with retries := s.retries + 1 }

/-- The events that have left the client. -/
def Stats.total (s : Stats) : ℕ :=
  s.sent + s.droppedQueueFull + s.dropped4xx + s.dropped5xx + s.droppedSeqConflict

/-- The events that were dropped by the retry loop. -/
def Stats.dropped (s : Stats) : ℕ := s.dropped4xx + s.dropped5xx + s.droppedSeqConflict

@[simp] theorem Stats.total_record (s : Stats) (d : Disposal) :
    (s.record d).total = s.total + 1 := by
  cases d with
  | sent => simp only [record, total]; omega
  | queueFull => simp only [record, total]; omega
  | fourXx => simp only [record, total]; omega
  | fiveXx => simp only [record, total]; omega
  | seqConflict => simp only [record, total]; omega

/-! ## Responses -/

/-- A number of seconds, as `float` reads it from a header. -/
inductive Seconds where
  | finite (s : ℚ)
  | infinite (neg : Bool)
  | notANumber

/-- `retryAfter` is `float` of the header, and `none` if the header is absent or not a
number; `json` is the parsed body, and `none` if parsing raises. -/
structure PlatformResponse where
  status : ℕ
  retryAfter : Option Seconds
  json : Option Json

/-- What the await of a POST ends in. -/
inductive PostFate where
  | response (r : PlatformResponse)
  | connectionError

/-- The fate of a log line that shows text of a response.  It raises where the console
cannot print the text, as with a lone surrogate. -/
inductive LogFate where
  | printed
  | raised
  deriving DecidableEq

/-- A negative delay is ignored. -/
def parseRetryAfter (r : PlatformResponse) : Option Seconds :=
  match r.retryAfter with
  | some (.finite s) => if s < 0 then none else some (.finite s)
  | some (.infinite true) => none
  | other => other

/-- `sys.get_int_max_str_digits()` -/
def maxStrDigits : ℕ := 4300

/-- The ASCII part of the class `\d`, with the values that `int` gives it. -/
def asciiDigit (c : Char) : Option ℕ :=
  if c.isDigit then some (c.toNat - '0'.toNat) else none

section Digits

-- the value of a character of the class `\d`
variable (digit : Char → Option ℕ)

/-- The value of the longest run of digits at the start of the text, if there is one that
`int` accepts. -/
def leadingInt (text : List Char) : Option ℕ :=
  let digits := (text.takeWhile fun c => (digit c).isSome).filterMap digit
  if digits = [] ∨ maxStrDigits < digits.length then none
  else some (digits.foldl (fun n d => 10 * n + d) 0)

def expectedSeqPrefix : List Char := "expected seq=".toList

/-- The text starts with a match of `expected seq=(\d+)`. -/
def startsExpectedSeq (text : List Char) : Bool :=
  expectedSeqPrefix.isPrefixOf text &&
    (((text.drop expectedSeqPrefix.length).head?).bind digit).isSome

/-- The number in the leftmost match. -/
def searchExpectedSeq : List Char → Option ℕ
  | [] => none
  | c :: text =>
      if startsExpectedSeq digit (c :: text) then
        leadingInt digit ((c :: text).drop expectedSeqPrefix.length)
      else searchExpectedSeq text

/-- `_parse_expected_seq` -/
def parseExpectedSeq (r : PlatformResponse) : Option ℕ :=
  match r.json with
  | some (.obj fields) =>
      match (Json.obj fields).get? "error", ((Json.obj fields).get? "message").getD (.str "") with
      | some (.str error), .str message =>
          if error = "seq_out_of_order" then searchExpectedSeq digit message.toList else none
      | _, _ => none
  | _ => none

/-! ## One pass of the loop -/

/-- The variables of the retry loop. -/
structure Attempt where
  seq : ℕ
  attempt : ℕ
  backoff : ℚ
  seqHealed : Bool

def Attempt.first (seq : ℕ) : Attempt := ⟨seq, 0, 1, false⟩

/-- What a pass of the loop comes to, once its POST has ended. -/
inductive Verdict where
  | delivered
  | authFailure
  | tierNotEntitled
  | clientError
  | seqConflict
  | heal (expectedSeq : ℕ)
  /-- a pause, after which the backoff doubles or stays -/
  | pause (delay : Seconds) (doubles : Bool)

/-- The branches of `_forward_one` on the status. -/
def Attempt.verdict (a : Attempt) (maxRetries : ℕ) : PostFate → Verdict
  | .connectionError => .pause (.finite a.backoff) true
  | .response r =>
      if 200 ≤ r.status ∧ r.status < 300 then .delivered
      else if r.status = 401 then .authFailure
      else if r.status = 402 then .tierNotEntitled
      else if r.status = 409 then
        match parseExpectedSeq digit r with
        | some expectedSeq =>
            if a.seqHealed = false ∧ a.attempt ≤ maxRetries then .heal expectedSeq
            else .seqConflict
        | none => .seqConflict
      else if r.status = 413 then .clientError
      else if 400 ≤ r.status ∧ r.status < 500 ∧ r.status ≠ 429 then .clientError
      else if r.status = 429 then
        match parseRetryAfter r with
        | some delay => .pause delay false
        | none => .pause (.finite a.backoff) true
      else .pause (.finite a.backoff) true

end Digits

/-- The next pass, under the expected number. -/
def Attempt.heal (a : Attempt) (expectedSeq : ℕ) : Attempt :=
  { a with seq := expectedSeq, attempt := a.attempt + 1, seqHealed := true }

/-- The next pass, after a pause. -/
def Attempt.again (a : Attempt) (doubles : Bool) : Attempt :=
  { a with
    backoff := if doubles then 2 * a.backoff else a.backoff
    attempt := a.attempt + 1 }

end AgenticGovernance.Platform

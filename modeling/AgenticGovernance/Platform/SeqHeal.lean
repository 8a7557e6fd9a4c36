import Mathlib
import AgenticGovernance.Platform.AuditForward

/-!
# Sequence numbers of the forwarded events

Every event is sent under the next number of the client's counter, and the platform
accepts it only under the number after the last one that it has accepted.  Otherwise it
answers with the number it expects, under which the client sends the same event again.
The counter then jumps forward, but never back.  An event that was dropped has used up a
number that the platform still expects, so the counter stays ahead of the platform.

Below, a client and its platform pass through the POSTs of one event after another.
-/

namespace AgenticGovernance.Platform

open Support

/-! ## The answers of the platform -/

/-- The ASCII characters of the class `\d` are the digits. -/
def ReadsAscii (digit : Char → Option ℕ) : Prop :=
  ∀ c : Char, c.toNat < 128 → digit c = asciiDigit c

/-- The answer to an event that is accepted. -/
def acceptedResponse : PlatformResponse := ⟨200, none, some (.obj [("ok", .bool true)])⟩

def seqMessage (expected got : ℕ) : String :=
  "expected seq=" ++ expected.repr ++ ", got " ++ got.repr

/-- The answer to an event that has another number than the expected one. -/
def seqOutOfOrder (expected got : ℕ) : PlatformResponse where
  status := 409
  retryAfter := none
  json := some (.obj
    [("ok", .bool false), ("error", .str "seq_out_of_order"),
      ("message", .str (seqMessage expected got))])

section Parse

variable {digit : Char → Option ℕ}

theorem isDigit_ascii {c : Char} (hc : c.isDigit) : c.toNat < 128 := by
  simp only [Char.isDigit, Bool.and_eq_true, decide_eq_true_eq] at hc
  have hle := UInt32.le_iff_toNat_le.mp hc.2
  change c.toNat ≤ 57 at hle
  omega

theorem ReadsAscii.of_isDigit (hdigit : ReadsAscii digit) {c : Char} (hc : c.isDigit) :
    digit c = some (c.toNat - '0'.toNat) := by
  rw [hdigit c (isDigit_ascii hc), asciiDigit, if_pos hc]

/-- A text that starts with a match is read from there. -/
theorem searchExpectedSeq_prefix {text : List Char} {c : Char} (hc : (digit c).isSome) :
    searchExpectedSeq digit (expectedSeqPrefix ++ c :: text) = leadingInt digit (c :: text) := by
  have hstarts : startsExpectedSeq digit (expectedSeqPrefix ++ c :: text) = true := by
    rw [startsExpectedSeq, List.drop_left]
    simp [hc]
  have hsplit : expectedSeqPrefix ++ c :: text =
      'e' :: ("xpected seq=".toList ++ c :: text) := rfl
  rw [hsplit] at hstarts ⊢
  rw [searchExpectedSeq, if_pos hstarts, ← hsplit, List.drop_left]

/-- A run of digits that is followed by a comma is read up to the comma. -/
theorem leadingInt_digits (hdigit : ReadsAscii digit) {digits : List Char}
    (hdigits : ∀ c ∈ digits, c.isDigit) (hne : digits ≠ []) (rest : List Char) :
    leadingInt digit (digits ++ ',' :: rest) =
      if digits.length ≤ maxStrDigits then some (Nat.ofDigitChars 10 digits 0) else none := by
  have htake : (digits ++ ',' :: rest).takeWhile (fun c => (digit c).isSome) = digits := by
    have hcomma : digit ',' = none := by
      rw [hdigit ',' (by decide)]
      rfl
    rw [List.takeWhile_append_of_pos]
    · rw [List.takeWhile_cons_of_neg, List.append_nil]
      rw [hcomma]
      simp
    · intro c hc
      rw [hdigit.of_isDigit (hdigits c hc)]
      rfl
  have hvalues : digits.filterMap digit = digits.map fun c => c.toNat - '0'.toNat := by
    rw [← List.filterMap_eq_map]
    apply List.filterMap_congr
    intro c hc
    exact hdigit.of_isDigit (hdigits c hc)
  rw [leadingInt, htake, hvalues]
  simp only [List.map_eq_nil_iff, List.length_map, List.foldl_map]
  by_cases hlength : digits.length ≤ maxStrDigits
  · rw [if_neg (by simp [hne, hlength]), if_pos hlength, Nat.ofDigitChars_eq_foldl]
  · rw [if_pos (Or.inr (not_le.mp hlength)), if_neg hlength]

theorem seqMessage_toList (expected got : ℕ) :
    (seqMessage expected got).toList =
      expectedSeqPrefix ++ (Nat.toDigits 10 expected ++ (", got ".toList ++ got.repr.toList)) := by
  change ("expected seq=" ++ expected.repr ++ ", got " ++ got.repr).toList =
    "expected seq=".toList ++
      (Nat.toDigits 10 expected ++ (", got ".toList ++ got.repr.toList))
  rw [String.toList_append, String.toList_append, String.toList_append, Nat.toList_repr,
    List.append_assoc, List.append_assoc]

/-- The client reads the expected number from the answer, unless it has too many digits
for `int`. -/
theorem parseExpectedSeq_seqOutOfOrder (hdigit : ReadsAscii digit) (expected got : ℕ) :
    parseExpectedSeq digit (seqOutOfOrder expected got) =
      if expected < 10 ^ maxStrDigits then some expected else none := by
  have hcomma : ", got ".toList = ',' :: [' ', 'g', 'o', 't', ' '] := by decide
  have hdigits : ∀ c ∈ Nat.toDigits 10 expected, c.isDigit := by
    intro c hc
    exact Nat.isDigit_of_mem_toDigits (by omega) le_rfl hc
  have hlength : (Nat.toDigits 10 expected).length ≤ maxStrDigits ↔
      expected < 10 ^ maxStrDigits :=
    Nat.length_toDigits_le_iff (by omega) (by decide)
  have hread := leadingInt_digits hdigit hdigits Nat.toDigits_ne_nil
    ([' ', 'g', 'o', 't', ' '] ++ got.repr.toList)
  rw [Nat.ofDigitChars_ten_toDigits, ← List.cons_append, ← hcomma] at hread
  simp only [hlength] at hread
  have hsearch : searchExpectedSeq digit (seqMessage expected got).toList =
      if expected < 10 ^ maxStrDigits then some expected else none := by
    have hne : Nat.toDigits 10 expected ≠ [] := Nat.toDigits_ne_nil
    obtain ⟨c, digits, hcons⟩ := List.exists_cons_of_ne_nil hne
    have hc := hdigit.of_isDigit (hdigits c (by rw [hcons]; exact List.mem_cons_self))
    rw [seqMessage_toList, ← hread, hcons, List.cons_append, searchExpectedSeq_prefix]
    rw [hc]
    rfl
  rw [← hsearch]
  simp [parseExpectedSeq, seqOutOfOrder, Json.get?, List.lookup]

end Parse

/-! ## A client and its platform -/

/-- A response that is not the platform's answer to the number of the event. -/
def PlatformResponse.IsRejection (r : PlatformResponse) : Prop :=
  ¬(200 ≤ r.status ∧ r.status < 300) ∧ r.status ≠ 409

/-- What becomes of a POST: the platform answers it, something rejects it before the
platform sees its number, or no response arrives. -/
inductive PostOutcome where
  | answered
  | rejected (r : PlatformResponse) (hr : r.IsRejection)
  | lost (processed : Bool)

namespace PostOutcome

/-- The fate of an event that is sent under the number `seq`, when the platform has
accepted everything up to `last`. -/
def fate (o : PostOutcome) (seq last : ℕ) : PostFate :=
  match o with
  | .answered =>
      .response (if seq = last + 1 then acceptedResponse else seqOutOfOrder (last + 1) seq)
  | .rejected r _ => .response r
  | .lost _ => .connectionError

/-- The platform sees the number of the event. -/
def Reaches : PostOutcome → Prop
  | .answered => True
  | .rejected _ _ => False
  | .lost processed => processed = true

instance : DecidablePred Reaches
  | .answered => isTrue trivial
  | .rejected _ _ => isFalse id
  | .lost processed => inferInstanceAs (Decidable (processed = true))

/-- The client sends the event again after a pause. -/
def Pauses : PostOutcome → Prop
  | .answered => False
  | .rejected r _ => ¬(400 ≤ r.status ∧ r.status < 500 ∧ r.status ≠ 429)
  | .lost _ => True

end PostOutcome

/-- A pass of the retry loop.  `ended` and `resumed` are the seconds since the start of
the loop at which the POST ends and at which the pause after it does. -/
structure Pass where
  outcome : PostOutcome
  ended : ℚ
  resumed : ℚ

/-- The passes that an event would make, if it were never done with. -/
abbrev EventPasses := ℕ → Pass

/-- The client, and the number that the platform has accepted last. -/
structure Linked where
  client : ForwardState
  last : ℕ

/-- The pause of the worker is over. -/
def ForwardState.resume (cfg : PlatformConfig) (s : ForwardState) (resumed : ℚ) : ForwardState :=
  match s.worker with
  | .sleeping call a start _ doubles =>
      { s with clock := start + resumed }.loopHead cfg call (a.again doubles) start
  | _ => s

/-- An idle worker takes the next event. -/
def ForwardState.takeNext (cfg : PlatformConfig) (s : ForwardState) : ForwardState :=
  match s.queue with
  | [] => s
  | call :: rest => s.take cfg call rest

namespace Linked

section Passes

variable (digit : Char → Option ℕ) (cfg : PlatformConfig)

/-- A pass of the event in the hands of the worker. -/
def pass (L : Linked) (p : Pass) : Linked :=
  match L.client.worker with
  | .posting call a start =>
      let client := { L.client with clock := start + p.ended }.respond digit cfg call a start
        (p.outcome.fate a.seq L.last)
      { client := client.resume cfg p.resumed
        last := if p.outcome.Reaches ∧ a.seq = L.last + 1 then a.seq else L.last }
  | _ => L

/-- The first `k` passes of an event. -/
def passes (ev : EventPasses) (L : Linked) : ℕ → Linked
  | 0 => L
  | k + 1 => (passes ev L k).pass digit cfg (ev k)

/-- An event is handed to `forward`, and the worker takes it. -/
def begin (L : Linked) : Linked :=
  { L with client := (L.client.forward cfg).takeNext cfg }

/-- The event `ev` is forwarded. -/
def forwardEvent (L : Linked) (ev : EventPasses) : Linked :=
  (L.begin cfg).passes digit cfg ev (cfg.maxRetries + 1)

def forwardEvents (L : Linked) (evs : List EventPasses) : Linked :=
  evs.foldl (forwardEvent digit cfg) L

/-- A client that has been started, and a platform that has accepted `last` events. -/
def start (last : ℕ) : Linked := ⟨ForwardState.init.startClient, last⟩

end Passes

end Linked

/-- The POST of the pass is answered within the budget. -/
def Pass.Answered (p : Pass) : Prop :=
  p.outcome = .answered ∧ p.ended < maxCumulativeRetrySeconds

/-- The event is sent again after the pass, if it may be. -/
def Pass.Retried (p : Pass) : Prop :=
  p.outcome.Pauses ∧ p.ended < maxCumulativeRetrySeconds ∧ p.resumed < maxCumulativeRetrySeconds

/-- The client can read the number that the platform expects. -/
def Readable (expected : ℕ) : Prop := expected < 10 ^ maxStrDigits

instance : DecidablePred Readable :=
  fun expected => inferInstanceAs (Decidable (expected < 10 ^ maxStrDigits))

/-- The events that the retry loop dropped for want of a number or of a retry. -/
def Stats.gaveUp (s : Stats) : ℕ := s.dropped5xx + s.droppedSeqConflict

/-- The passes let the event through to the platform once more after a conflict. -/
def AcceptedAfterConflict (maxRetries : ℕ) (ev : EventPasses) : Prop :=
  ∃ i j, i < j ∧ j ≤ maxRetries ∧ (ev i).Answered ∧ (∀ k < j, k ≠ i → (ev k).Retried) ∧
    (ev j).outcome.Reaches

/-- Nothing but its number keeps the event from being accepted: each of the two POSTs that
it makes at most is answered in time. -/
def Undisturbed (maxRetries : ℕ) (ev : EventPasses) : Prop :=
  ∀ k ≤ min 1 maxRetries, (ev k).Answered

namespace Linked

/-- The counter is beyond the number that the platform expects. -/
def Ahead (L : Linked) : Prop := L.last + 1 < L.client.nextSeq

section Properties

variable (digit : Char → Option ℕ) (cfg : PlatformConfig) (L : Linked) (ev : EventPasses)

/-- Immediately after each POST of the event that the platform accepts, the counter is at
the number that the platform expects next. -/
def Synced : Prop :=
  ∀ k, ((L.begin cfg).passes digit cfg ev (k + 1)).last ≠
      ((L.begin cfg).passes digit cfg ev k).last →
    ((L.begin cfg).passes digit cfg ev (k + 1)).client.nextSeq =
      ((L.begin cfg).passes digit cfg ev (k + 1)).last + 1

/-- The event is dropped as a conflict or as exhausted, for no other reason than that
earlier dropped events used up numbers. -/
def DroppedForEarlier : Prop :=
  0 < L.client.stats.dropped ∧ L.Ahead ∧ Undisturbed cfg.maxRetries ev ∧
    L.client.stats.gaveUp < (L.forwardEvent digit cfg ev).client.stats.gaveUp

end Properties

end Linked

/-! ## What a pass does -/

section PassResult

variable {digit : Char → Option ℕ} {cfg : PlatformConfig} {L : Linked} {s : ForwardState}
  {call : ℕ} {a : Attempt} {start : ℚ} {p : Pass}

theorem ForwardState.loopHead_of_pos (hbudget : s.clock - start < maxCumulativeRetrySeconds)
    (hattempt : a.attempt ≤ cfg.maxRetries) :
    s.loopHead cfg call a start =
      { s with
        posts := Function.update s.posts call (s.posts call + 1)
        worker := .posting call a start } := by
  rw [ForwardState.loopHead, if_neg (not_le.mpr hbudget), if_neg (not_lt.mpr hattempt)]

theorem ForwardState.loopHead_of_neg
    (hcut : ¬(s.clock - start < maxCumulativeRetrySeconds ∧ a.attempt ≤ cfg.maxRetries)) :
    s.loopHead cfg call a start = s.settle .fiveXx := by
  rw [ForwardState.loopHead]
  by_cases hbudget : maxCumulativeRetrySeconds ≤ s.clock - start
  · rw [if_pos hbudget]
  · rw [if_neg hbudget, if_pos]
    by_contra hattempt
    exact hcut ⟨not_le.mp hbudget, not_lt.mp hattempt⟩

theorem verdict_accepted (m : ℕ) :
    a.verdict digit m (.response acceptedResponse) = .delivered := by
  simp [Attempt.verdict, acceptedResponse]

theorem verdict_seqOutOfOrder (hdigit : ReadsAscii digit) {m : ℕ} (hattempt : a.attempt ≤ m)
    (expected got : ℕ) :
    a.verdict digit m (.response (seqOutOfOrder expected got)) =
      if a.seqHealed = false ∧ Readable expected then .heal expected else .seqConflict := by
  have hparse := parseExpectedSeq_seqOutOfOrder hdigit expected got
  have hstatus : (seqOutOfOrder expected got).status = 409 := rfl
  simp only [Attempt.verdict, hstatus, hparse, Readable]
  by_cases hread : expected < 10 ^ maxStrDigits
  · simp [hread, hattempt]
  · simp [hread]

theorem verdict_pauses (digit : Char → Option ℕ) (a : Attempt) {r : PlatformResponse}
    (hr : r.IsRejection) (m : ℕ)
    (hpauses : ¬(400 ≤ r.status ∧ r.status < 500 ∧ r.status ≠ 429)) :
    ∃ delay doubles, a.verdict digit m (.response r) = .pause delay doubles := by
  obtain ⟨haccepted, hconflict⟩ := hr
  have hauth : r.status ≠ 401 := by omega
  have htier : r.status ≠ 402 := by omega
  have hlarge : r.status ≠ 413 := by omega
  simp only [Attempt.verdict, if_neg haccepted, if_neg hauth, if_neg htier, if_neg hconflict,
    if_neg hlarge, if_neg hpauses]
  split
  · split
    · exact ⟨_, _, rfl⟩
    · exact ⟨_, _, rfl⟩
  · exact ⟨_, _, rfl⟩

theorem verdict_refuses (digit : Char → Option ℕ) (a : Attempt) {r : PlatformResponse}
    (hr : r.IsRejection) (m : ℕ)
    (hrefuses : 400 ≤ r.status ∧ r.status < 500 ∧ r.status ≠ 429) :
    a.verdict digit m (.response r) = .authFailure ∨
      a.verdict digit m (.response r) = .tierNotEntitled ∨
      a.verdict digit m (.response r) = .clientError := by
  obtain ⟨haccepted, hconflict⟩ := hr
  simp only [Attempt.verdict, if_neg haccepted, if_neg hconflict, if_pos hrefuses]
  by_cases hauth : r.status = 401
  · exact Or.inl (if_pos hauth)
  · rw [if_neg hauth]
    by_cases htier : r.status = 402
    · exact Or.inr (Or.inl (if_pos htier))
    · rw [if_neg htier, ite_self]
      exact Or.inr (Or.inr rfl)

/-- What the pass of an event ends in, for the number of the event, the counter, the
platform and the counts. -/
inductive PassResult (cfg : PlatformConfig) (L : Linked) (call : ℕ) (a : Attempt) (start : ℚ)
    (p : Pass) (L' : Linked) : Prop
  | accepted (houtcome : p.outcome = .answered) (hseq : a.seq = L.last + 1)
      (hworker : L'.client.worker = .idle) (hnext : L'.client.nextSeq = L.client.nextSeq)
      (hlast : L'.last = a.seq) (hstats : L'.client.stats = L.client.stats.record .sent)
  | healed (hanswered : p.Answered) (hseq : a.seq ≠ L.last + 1) (hfresh : a.seqHealed = false)
      (hread : Readable (L.last + 1)) (hattempt : a.attempt < cfg.maxRetries)
      (hworker : L'.client.worker = .posting call (a.heal (L.last + 1)) start)
      (hnext : L'.client.nextSeq = max L.client.nextSeq (L.last + 2))
      (hlast : L'.last = L.last) (hstats : L'.client.stats = L.client.stats.retry)
  /-- the number is healed, but the event may not be sent again -/
  | cut (houtcome : p.outcome = .answered) (hseq : a.seq ≠ L.last + 1)
      (hcut : ¬(p.ended < maxCumulativeRetrySeconds ∧ a.attempt < cfg.maxRetries))
      (hworker : L'.client.worker = .idle)
      (hnext : L'.client.nextSeq = max L.client.nextSeq (L.last + 2))
      (hlast : L'.last = L.last)
      (hstats : L'.client.stats = L.client.stats.retry.record .fiveXx)
  | conflict (houtcome : p.outcome = .answered) (hseq : a.seq ≠ L.last + 1)
      (hstuck : a.seqHealed = true ∨ ¬Readable (L.last + 1))
      (hworker : L'.client.worker = .idle) (hnext : L'.client.nextSeq = L.client.nextSeq)
      (hlast : L'.last = L.last) (hstats : L'.client.stats = L.client.stats.record .seqConflict)
  | retried (hretried : p.Retried) (hattempt : a.attempt < cfg.maxRetries) (doubles : Bool)
      (hworker : L'.client.worker = .posting call (a.again doubles) start)
      (hnext : L'.client.nextSeq = L.client.nextSeq)
      (hlast : L'.last = if p.outcome.Reaches ∧ a.seq = L.last + 1 then a.seq else L.last)
      (hstats : L'.client.stats = L.client.stats.retry)
  | gaveUp (hpauses : p.outcome.Pauses) (hcut : ¬(p.Retried ∧ a.attempt < cfg.maxRetries))
      (hworker : L'.client.worker = .idle) (hnext : L'.client.nextSeq = L.client.nextSeq)
      (hlast : L'.last = if p.outcome.Reaches ∧ a.seq = L.last + 1 then a.seq else L.last)
      (hstats : L'.client.stats = L.client.stats.retry.record .fiveXx)
  | refused (hanswered : p.outcome ≠ .answered) (hpauses : ¬p.outcome.Pauses)
      (hworker : L'.client.worker = .idle) (hnext : L'.client.nextSeq = L.client.nextSeq)
      (hlast : L'.last = L.last) (hstats : L'.client.stats = L.client.stats.record .fourXx)

/-- The pause after a POST, and the head of the loop after the pause. -/
theorem pause_resume (hclock : s.clock = start + p.ended) (delay : Seconds) (doubles : Bool) :
    let t := (s.pause call a start delay doubles).resume cfg p.resumed
    (p.ended < maxCumulativeRetrySeconds ∧ p.resumed < maxCumulativeRetrySeconds ∧
        a.attempt < cfg.maxRetries ∧ t.worker = .posting call (a.again doubles) start ∧
        t.nextSeq = s.nextSeq ∧ t.stats = s.stats) ∨
      (¬(p.ended < maxCumulativeRetrySeconds ∧ p.resumed < maxCumulativeRetrySeconds ∧
        a.attempt < cfg.maxRetries) ∧ t.worker = .idle ∧ t.nextSeq = s.nextSeq ∧
        t.stats = s.stats.record .fiveXx) := by
  intro t
  have helapsed : s.clock - start = p.ended := by
    rw [hclock]
    ring
  by_cases hended : p.ended < maxCumulativeRetrySeconds
  · have hpause : s.pause call a start delay doubles =
        { s with worker := .sleeping call a start delay doubles } := by
      rw [ForwardState.pause, if_neg]
      rw [helapsed]
      linarith
    let u : ForwardState := { s with
      worker := .sleeping call a start delay doubles
      clock := start + p.resumed }
    have ht : t = u.loopHead cfg call (a.again doubles) start := by
      change (s.pause call a start delay doubles).resume cfg p.resumed = _
      rw [hpause]
      rfl
    have hresumed : u.clock - start = p.resumed := add_sub_cancel_left start p.resumed
    by_cases hnext : p.resumed < maxCumulativeRetrySeconds ∧ a.attempt < cfg.maxRetries
    · refine Or.inl ⟨hended, hnext.1, hnext.2, ?_⟩
      have hbudget : u.clock - start < maxCumulativeRetrySeconds := hresumed.trans_lt hnext.1
      have hpass : (a.again doubles).attempt ≤ cfg.maxRetries := hnext.2
      rw [ht, ForwardState.loopHead_of_pos hbudget hpass]
      exact ⟨rfl, rfl, rfl⟩
    · refine Or.inr ⟨fun h => hnext h.2, ?_⟩
      rw [ht, ForwardState.loopHead_of_neg]
      · exact ⟨rfl, rfl, rfl⟩
      · rintro ⟨hbudget, hle⟩
        rw [hresumed] at hbudget
        exact hnext ⟨hbudget, hle⟩
  · have ht : t = s.settle .fiveXx := by
      change (s.pause call a start delay doubles).resume cfg p.resumed = _
      rw [ForwardState.pause, if_pos]
      · rfl
      · rw [helapsed]
        linarith
    refine Or.inr ⟨fun h => hended h.1, ?_⟩
    rw [ht]
    exact ⟨rfl, rfl, rfl⟩

/-- A pass whose POST is followed by a pause. -/
theorem pass_pauses (hworker : L.client.worker = .posting call a start)
    (hpauses : p.outcome.Pauses) {delay : Seconds} {doubles : Bool}
    (hverdict : a.verdict digit cfg.maxRetries (p.outcome.fate a.seq L.last) =
      .pause delay doubles) :
    PassResult cfg L call a start p (L.pass digit cfg p) := by
  rw [Linked.pass, hworker]
  simp only [ForwardState.respond, hverdict]
  rcases pause_resume (s := ForwardState.countRetry { L.client with clock := start + p.ended })
    rfl delay doubles with
    ⟨hended, hresumed, hnext, hw, hseq, hstats⟩ | ⟨hcut, hw, hseq, hstats⟩
  · exact .retried ⟨hpauses, hended, hresumed⟩ hnext doubles hw hseq rfl hstats
  · refine .gaveUp hpauses ?_ hw hseq rfl hstats
    rintro ⟨⟨-, hended, hresumed⟩, hnext⟩
    exact hcut ⟨hended, hresumed, hnext⟩

/-- A pass whose POST is answered by the platform. -/
theorem pass_answered (hdigit : ReadsAscii digit)
    (hworker : L.client.worker = .posting call a start) (hattempt : a.attempt ≤ cfg.maxRetries)
    (houtcome : p.outcome = .answered) :
    PassResult cfg L call a start p (L.pass digit cfg p) := by
  have hclock : start + p.ended - start = p.ended := by ring
  rw [Linked.pass, hworker]
  simp only [ForwardState.respond, houtcome, PostOutcome.fate, PostOutcome.Reaches, true_and]
  by_cases hseq : a.seq = L.last + 1
  · simp only [if_pos hseq, verdict_accepted]
    exact .accepted houtcome hseq rfl rfl rfl rfl
  · simp only [if_neg hseq, verdict_seqOutOfOrder hdigit hattempt]
    by_cases hheal : a.seqHealed = false ∧ Readable (L.last + 1)
    · simp only [if_pos hheal]
      by_cases hnext : p.ended < maxCumulativeRetrySeconds ∧ a.attempt < cfg.maxRetries
      · rw [ForwardState.loopHead_of_pos]
        · exact .healed ⟨houtcome, hnext.1⟩ hseq hheal.1 hheal.2 hnext.2 rfl rfl rfl rfl
        · change start + p.ended - start < maxCumulativeRetrySeconds
          rw [hclock]
          exact hnext.1
        · exact hnext.2
      · rw [ForwardState.loopHead_of_neg]
        · exact .cut houtcome hseq hnext rfl rfl rfl rfl
        · rintro ⟨hbudget, hle⟩
          change start + p.ended - start < maxCumulativeRetrySeconds at hbudget
          rw [hclock] at hbudget
          exact hnext ⟨hbudget, hle⟩
    · simp only [if_neg hheal]
      refine .conflict houtcome hseq ?_ rfl rfl rfl rfl
      by_cases hfresh : a.seqHealed = false
      · exact Or.inr fun hread => hheal ⟨hfresh, hread⟩
      · exact Or.inl (by simpa using hfresh)

theorem pass_result (hdigit : ReadsAscii digit) (hworker : L.client.worker = .posting call a start)
    (hattempt : a.attempt ≤ cfg.maxRetries) :
    PassResult cfg L call a start p (L.pass digit cfg p) := by
  rcases houtcome : p.outcome with _ | ⟨r, hr⟩ | processed
  · exact pass_answered hdigit hworker hattempt houtcome
  · by_cases hrefuses : 400 ≤ r.status ∧ r.status < 500 ∧ r.status ≠ 429
    · have hpauses : ¬p.outcome.Pauses := by
        rw [houtcome]
        exact fun h => h hrefuses
      have hanswered : p.outcome ≠ .answered := by
        rw [houtcome]
        simp
      rw [Linked.pass, hworker]
      simp only [ForwardState.respond, houtcome, PostOutcome.fate, PostOutcome.Reaches, false_and,
        if_false]
      rcases verdict_refuses digit a hr cfg.maxRetries hrefuses with
        hverdict | hverdict | hverdict
      · rw [hverdict]
        exact .refused hanswered hpauses rfl rfl rfl rfl
      · rw [hverdict]
        exact .refused hanswered hpauses rfl rfl rfl rfl
      · rw [hverdict]
        exact .refused hanswered hpauses rfl rfl rfl rfl
    · obtain ⟨delay, doubles, hverdict⟩ :=
        verdict_pauses digit a hr cfg.maxRetries hrefuses
      have hpauses : p.outcome.Pauses := by
        rw [houtcome]
        exact hrefuses
      rw [← show p.outcome.fate a.seq L.last = .response r by rw [houtcome]; rfl] at hverdict
      exact pass_pauses hworker hpauses hverdict
  · have hpauses : p.outcome.Pauses := by
      rw [houtcome]
      trivial
    have hverdict : a.verdict digit cfg.maxRetries (p.outcome.fate a.seq L.last) =
        .pause (.finite a.backoff) true := by
      rw [houtcome]
      rfl
    exact pass_pauses hworker hpauses hverdict

/-- The platform accepts an event only under the number after its last one. -/
theorem PassResult.accepts {L' : Linked} (h : PassResult cfg L call a start p L')
    (hlast : L'.last ≠ L.last) :
    p.outcome.Reaches ∧ a.seq = L.last + 1 ∧ L'.last = a.seq ∧
      L'.client.nextSeq = L.client.nextSeq := by
  have hlost : L'.last = (if p.outcome.Reaches ∧ a.seq = L.last + 1 then a.seq else L.last) →
      p.outcome.Reaches ∧ a.seq = L.last + 1 ∧ L'.last = a.seq := by
    intro heq
    by_cases hreaches : p.outcome.Reaches ∧ a.seq = L.last + 1
    · rw [if_pos hreaches] at heq
      exact ⟨hreaches.1, hreaches.2, heq⟩
    · rw [if_neg hreaches] at heq
      exact absurd heq hlast
  cases h with
  | accepted houtcome hseq hworker hnext hlast' hstats =>
      refine ⟨?_, hseq, hlast', hnext⟩
      rw [houtcome]
      trivial
  | healed hanswered hseq hfresh hread hattempt hworker hnext hsame hstats =>
      exact absurd hsame hlast
  | cut houtcome hseq hcut hworker hnext hsame hstats => exact absurd hsame hlast
  | conflict houtcome hseq hstuck hworker hnext hsame hstats => exact absurd hsame hlast
  | retried hretried hattempt doubles hworker hnext heq hstats =>
      obtain ⟨hreaches, hseq, hself⟩ := hlost heq
      exact ⟨hreaches, hseq, hself, hnext⟩
  | gaveUp hpauses hcut hworker hnext heq hstats =>
      obtain ⟨hreaches, hseq, hself⟩ := hlost heq
      exact ⟨hreaches, hseq, hself, hnext⟩
  | refused hanswered hpauses hworker hnext hsame hstats => exact absurd hsame hlast

theorem PassResult.last_le {L' : Linked} (h : PassResult cfg L call a start p L') :
    L.last ≤ L'.last := by
  by_cases hlast : L'.last = L.last
  · rw [hlast]
  · obtain ⟨-, hseq, hself, -⟩ := h.accepts hlast
    omega

/-- An event that is in the hands of the worker after the pass was sent again. -/
theorem PassResult.posting {L' : Linked} {call' : ℕ} {a' : Attempt} {start' : ℚ}
    (h : PassResult cfg L call a start p L')
    (hworker' : L'.client.worker = .posting call' a' start') :
    a.attempt < cfg.maxRetries ∧ call' = call ∧ start' = start ∧
      ((p.Answered ∧ a.seq ≠ L.last + 1 ∧ a.seqHealed = false ∧ Readable (L.last + 1) ∧
          a' = a.heal (L.last + 1) ∧ L'.client.nextSeq = max L.client.nextSeq (L.last + 2) ∧
          L'.last = L.last) ∨
        (p.Retried ∧ (∃ doubles, a' = a.again doubles) ∧
          L'.client.nextSeq = L.client.nextSeq)) := by
  have hidle : ∀ {P : Prop}, L'.client.worker = .idle → P := by
    intro P hidle
    rw [hidle] at hworker'
    cases hworker'
  cases h with
  | accepted houtcome hseq hworker hnext hlast' hstats => exact hidle hworker
  | healed hanswered hseq hfresh hread hattempt hworker hnext hlast hstats =>
      rw [hworker] at hworker'
      cases hworker'
      exact ⟨hattempt, rfl, rfl, Or.inl ⟨hanswered, hseq, hfresh, hread, rfl, hnext, hlast⟩⟩
  | cut houtcome hseq hcut hworker hnext hlast hstats => exact hidle hworker
  | conflict houtcome hseq hstuck hworker hnext hlast hstats => exact hidle hworker
  | retried hretried hattempt doubles hworker hnext hlast hstats =>
      rw [hworker] at hworker'
      cases hworker'
      exact ⟨hattempt, rfl, rfl, Or.inr ⟨hretried, ⟨doubles, rfl⟩, hnext⟩⟩
  | gaveUp hpauses hcut hworker hnext hlast hstats => exact hidle hworker
  | refused hanswered hpauses hworker hnext hlast hstats => exact hidle hworker

/-- The slack of the counter is the number of dropped events, and the event in the hands of
the worker. -/
theorem PassResult.slack {L' : Linked} (h : PassResult cfg L call a start p L')
    (hslack : L.client.nextSeq ≤ L.last + 2 + L.client.stats.dropped) :
    L'.client.nextSeq ≤ L'.last + 2 + L'.client.stats.dropped ∧
      (L'.client.worker = .idle →
        L'.client.nextSeq ≤ L'.last + 1 + L'.client.stats.dropped) := by
  have hle := h.last_le
  cases h with
  | accepted houtcome hseq hworker hnext hlast hstats =>
      have hdropped : L'.client.stats.dropped = L.client.stats.dropped := by
        rw [hstats]
        rfl
      exact ⟨by omega, fun _ => by omega⟩
  | healed hanswered hseq hfresh hread hattempt hworker hnext hlast hstats =>
      have hdropped : L'.client.stats.dropped = L.client.stats.dropped := by
        rw [hstats]
        rfl
      refine ⟨by omega, fun hidle => ?_⟩
      rw [hworker] at hidle
      cases hidle
  | cut houtcome hseq hcut hworker hnext hlast hstats =>
      have hdropped : L'.client.stats.dropped = L.client.stats.dropped + 1 := by
        rw [hstats]
        simp only [Stats.record, Stats.retry, Stats.dropped]
        omega
      exact ⟨by omega, fun _ => by omega⟩
  | conflict houtcome hseq hstuck hworker hnext hlast hstats =>
      have hdropped : L'.client.stats.dropped = L.client.stats.dropped + 1 := by
        rw [hstats]
        rfl
      exact ⟨by omega, fun _ => by omega⟩
  | retried hretried hattempt doubles hworker hnext hlast hstats =>
      have hdropped : L'.client.stats.dropped = L.client.stats.dropped := by
        rw [hstats]
        rfl
      refine ⟨by omega, fun hidle => ?_⟩
      rw [hworker] at hidle
      cases hidle
  | gaveUp hpauses hcut hworker hnext hlast hstats =>
      have hdropped : L'.client.stats.dropped = L.client.stats.dropped + 1 := by
        rw [hstats]
        simp only [Stats.record, Stats.retry, Stats.dropped]
        omega
      exact ⟨by omega, fun _ => by omega⟩
  | refused hanswered hpauses hworker hnext hlast hstats =>
      have hdropped : L'.client.stats.dropped = L.client.stats.dropped + 1 := by
        rw [hstats]
        simp only [Stats.record, Stats.dropped]
        omega
      exact ⟨by omega, fun _ => by omega⟩

theorem PassResult.idle_or_posting {L' : Linked} (h : PassResult cfg L call a start p L') :
    L'.client.worker = .idle ∨ ∃ a', L'.client.worker = .posting call a' start := by
  cases h with
  | accepted houtcome hseq hworker hnext hlast hstats => exact Or.inl hworker
  | healed hanswered hseq hfresh hread hattempt hworker hnext hlast hstats =>
      exact Or.inr ⟨_, hworker⟩
  | cut houtcome hseq hcut hworker hnext hlast hstats => exact Or.inl hworker
  | conflict houtcome hseq hstuck hworker hnext hlast hstats => exact Or.inl hworker
  | retried hretried hattempt doubles hworker hnext hlast hstats => exact Or.inr ⟨_, hworker⟩
  | gaveUp hpauses hcut hworker hnext hlast hstats => exact Or.inl hworker
  | refused hanswered hpauses hworker hnext hlast hstats => exact Or.inl hworker

theorem PostOutcome.Reaches.answered_or_pauses {o : PostOutcome} (h : o.Reaches) :
    o = .answered ∨ o.Pauses := by
  rcases o with _ | ⟨r, hr⟩ | processed
  · exact Or.inl rfl
  · exact absurd h id
  · exact Or.inr trivial

theorem Pass.Retried.not_answered (h : p.Retried) : p.outcome ≠ .answered := by
  intro houtcome
  have hpauses := h.1
  rw [houtcome] at hpauses
  exact hpauses

/-- A pass that may be retried is retried. -/
theorem PassResult.of_retried {L' : Linked} (h : PassResult cfg L call a start p L')
    (hretried : p.Retried) (hattempt : a.attempt < cfg.maxRetries) :
    ∃ doubles, L'.client.worker = .posting call (a.again doubles) start := by
  have hout := hretried.not_answered
  cases h with
  | accepted houtcome hseq hworker hnext hlast hstats => exact absurd houtcome hout
  | healed hanswered hseq hfresh hread hattempt' hworker hnext hlast hstats =>
      exact absurd hanswered.1 hout
  | cut houtcome hseq hcut hworker hnext hlast hstats => exact absurd houtcome hout
  | conflict houtcome hseq hstuck hworker hnext hlast hstats => exact absurd houtcome hout
  | retried hretried' hattempt' doubles hworker hnext hlast hstats => exact ⟨doubles, hworker⟩
  | gaveUp hpauses hcut hworker hnext hlast hstats => exact absurd ⟨hretried, hattempt⟩ hcut
  | refused hanswered hpauses hworker hnext hlast hstats => exact absurd hretried.1 hpauses

/-- The first conflict of an event that has a pass left is healed. -/
theorem PassResult.of_conflict {L' : Linked} (h : PassResult cfg L call a start p L')
    (hanswered : p.Answered) (hseq : a.seq ≠ L.last + 1) (hfresh : a.seqHealed = false)
    (hread : Readable (L.last + 1)) (hattempt : a.attempt < cfg.maxRetries) :
    L'.client.worker = .posting call (a.heal (L.last + 1)) start ∧ L'.last = L.last ∧
      L'.client.stats = L.client.stats.retry := by
  cases h with
  | accepted houtcome hseq' hworker hnext hlast hstats => exact absurd hseq' hseq
  | healed hanswered' hseq' hfresh' hread' hattempt' hworker hnext hlast hstats =>
      exact ⟨hworker, hlast, hstats⟩
  | cut houtcome hseq' hcut hworker hnext hlast hstats =>
      exact absurd ⟨hanswered.2, hattempt⟩ hcut
  | conflict houtcome hseq' hstuck hworker hnext hlast hstats =>
      rcases hstuck with hhealed | hunread
      · rw [hfresh] at hhealed
        cases hhealed
      · exact absurd hread hunread
  | retried hretried hattempt' doubles hworker hnext hlast hstats =>
      exact absurd hanswered.1 hretried.not_answered
  | gaveUp hpauses hcut hworker hnext hlast hstats =>
      rw [hanswered.1] at hpauses
      exact absurd hpauses id
  | refused hout hpauses hworker hnext hlast hstats => exact absurd hanswered.1 hout

/-- Otherwise the event is dropped at its conflict. -/
theorem PassResult.of_stuck {L' : Linked} (h : PassResult cfg L call a start p L')
    (hanswered : p.Answered) (hseq : a.seq ≠ L.last + 1)
    (hstuck : ¬(a.attempt < cfg.maxRetries ∧ Readable (L.last + 1))) :
    L'.client.worker = .idle ∧ L'.client.stats.gaveUp = L.client.stats.gaveUp + 1 := by
  cases h with
  | accepted houtcome hseq' hworker hnext hlast hstats => exact absurd hseq' hseq
  | healed hanswered' hseq' hfresh hread hattempt hworker hnext hlast hstats =>
      exact absurd ⟨hattempt, hread⟩ hstuck
  | cut houtcome hseq' hcut hworker hnext hlast hstats =>
      refine ⟨hworker, ?_⟩
      rw [hstats]
      simp only [Stats.gaveUp, Stats.record, Stats.retry]
      omega
  | conflict houtcome hseq' hstuck' hworker hnext hlast hstats =>
      refine ⟨hworker, ?_⟩
      rw [hstats]
      rfl
  | retried hretried hattempt doubles hworker hnext hlast hstats =>
      exact absurd hanswered.1 hretried.not_answered
  | gaveUp hpauses hcut hworker hnext hlast hstats =>
      rw [hanswered.1] at hpauses
      exact absurd hpauses id
  | refused hout hpauses hworker hnext hlast hstats => exact absurd hanswered.1 hout

/-- An event that reaches the platform under the expected number is accepted. -/
theorem PassResult.of_reaches {L' : Linked} (h : PassResult cfg L call a start p L')
    (hreaches : p.outcome.Reaches) (hseq : a.seq = L.last + 1) : L'.last = L.last + 1 := by
  cases h with
  | accepted houtcome hseq' hworker hnext hlast hstats => exact hlast.trans hseq
  | healed hanswered hseq' hfresh hread hattempt hworker hnext hlast hstats =>
      exact absurd hseq hseq'
  | cut houtcome hseq' hcut hworker hnext hlast hstats => exact absurd hseq hseq'
  | conflict houtcome hseq' hstuck hworker hnext hlast hstats => exact absurd hseq hseq'
  | retried hretried hattempt doubles hworker hnext hlast hstats =>
      rw [hlast, if_pos ⟨hreaches, hseq⟩, hseq]
  | gaveUp hpauses hcut hworker hnext hlast hstats =>
      rw [hlast, if_pos ⟨hreaches, hseq⟩, hseq]
  | refused hanswered hpauses hworker hnext hlast hstats =>
      rcases hreaches.answered_or_pauses with hout | hout
      · exact absurd hout hanswered
      · exact absurd hout hpauses

/-- The platform's answer to the expected number is the end of the event. -/
theorem PassResult.of_accepted {L' : Linked} (h : PassResult cfg L call a start p L')
    (hanswered : p.Answered) (hseq : a.seq = L.last + 1) :
    L'.client.worker = .idle ∧ L'.client.stats = L.client.stats.record .sent := by
  cases h with
  | accepted houtcome hseq' hworker hnext hlast hstats => exact ⟨hworker, hstats⟩
  | healed hanswered' hseq' hfresh hread hattempt hworker hnext hlast hstats =>
      exact absurd hseq hseq'
  | cut houtcome hseq' hcut hworker hnext hlast hstats => exact absurd hseq hseq'
  | conflict houtcome hseq' hstuck hworker hnext hlast hstats => exact absurd hseq hseq'
  | retried hretried hattempt doubles hworker hnext hlast hstats =>
      exact absurd hanswered.1 hretried.not_answered
  | gaveUp hpauses hcut hworker hnext hlast hstats =>
      rw [hanswered.1] at hpauses
      exact absurd hpauses id
  | refused hout hpauses hworker hnext hlast hstats => exact absurd hanswered.1 hout

end PassResult

/-! ## The passes of an event -/

/-- What the passes of an event leave alone. -/
def ForwardState.desk (s : ForwardState) : List ℕ × Bool × Bool × ClosePhase :=
  (s.queue, s.started, s.closed, s.closing)

namespace Linked

variable {digit : Char → Option ℕ} {cfg : PlatformConfig} {L M : Linked} {ev : EventPasses}
  {call n : ℕ} {start : ℚ}

theorem pass_idle (h : L.client.worker = .idle) (p : Pass) : L.pass digit cfg p = L := by
  rw [pass, h]

theorem loopHead_desk (s : ForwardState) (call : ℕ) (a : Attempt) (start : ℚ) :
    (s.loopHead cfg call a start).desk = s.desk := by
  rw [ForwardState.loopHead]
  split
  · rfl
  · split
    · rfl
    · rfl

theorem resume_desk (s : ForwardState) (resumed : ℚ) : (s.resume cfg resumed).desk = s.desk := by
  rw [ForwardState.resume]
  split
  · rw [loopHead_desk]
    rfl
  · rfl

theorem respond_desk (s : ForwardState) (call : ℕ) (a : Attempt) (start : ℚ) (fate : PostFate) :
    (s.respond digit cfg call a start fate).desk = s.desk := by
  rw [ForwardState.respond]
  split
  · rfl
  · rfl
  · rfl
  · rfl
  · rfl
  · rw [loopHead_desk]
    rfl
  · rw [ForwardState.pause]
    split
    · rfl
    · rfl

theorem pass_desk (L : Linked) (p : Pass) : (L.pass digit cfg p).client.desk = L.client.desk := by
  rw [pass]
  split
  · simp only [resume_desk, respond_desk]
    rfl
  · rfl

theorem passes_desk (M : Linked) (ev : EventPasses) (k : ℕ) :
    (M.passes digit cfg ev k).client.desk = M.client.desk := by
  induction k with
  | zero => rfl
  | succ k ih => rw [passes, pass_desk, ih]

/-- Before pass `k` the worker is done with the event, or it has sent it `k` times. -/
theorem passes_attempt (hdigit : ReadsAscii digit)
    (hM : M.client.worker = .posting call (.first n) start) (k : ℕ) :
    (M.passes digit cfg ev k).client.worker = .idle ∨
      ∃ a : Attempt, (M.passes digit cfg ev k).client.worker = .posting call a start ∧
        a.attempt = k ∧ k ≤ cfg.maxRetries := by
  induction k with
  | zero => exact Or.inr ⟨.first n, hM, rfl, Nat.zero_le _⟩
  | succ k ih =>
      rcases ih with hidle | ⟨a, hworker, hk, hle⟩
      · left
        rw [passes, pass_idle hidle]
        exact hidle
      · have hresult := pass_result (p := ev k) hdigit hworker (hk.trans_le hle)
        rcases hresult.idle_or_posting with hidle | ⟨a', hworker'⟩
        · exact Or.inl hidle
        · obtain ⟨hattempt, -, -, hcases⟩ := hresult.posting hworker'
          refine Or.inr ⟨a', hworker', ?_, by omega⟩
          rcases hcases with ⟨-, -, -, -, rfl, -⟩ | ⟨-, ⟨doubles, rfl⟩, -⟩
          · exact congrArg (· + 1) hk
          · exact congrArg (· + 1) hk

/-- An invariant of the passes of an event is shown for the passes it really makes. -/
theorem passes_induction (hdigit : ReadsAscii digit)
    (hM : M.client.worker = .posting call (.first n) start) {I : ℕ → Linked → Prop} (hzero : I 0 M)
    (hidle : ∀ k L, L.client.worker = .idle → I k L → I (k + 1) L)
    (hstep : ∀ k L L' a, L.client.worker = .posting call a start → a.attempt = k →
      PassResult cfg L call a start (ev k) L' → I k L → I (k + 1) L') (k : ℕ) :
    I k (M.passes digit cfg ev k) := by
  induction k with
  | zero => exact hzero
  | succ k ih =>
      rcases passes_attempt hdigit hM k with hdone | ⟨a, hworker, hk, hle⟩
      · rw [passes, pass_idle hdone]
        exact hidle k _ hdone ih
      · exact hstep k _ _ a hworker hk (pass_result hdigit hworker (hk.trans_le hle)) ih

/-- An event is done with after `max_retries + 1` passes. -/
theorem passes_idle (hdigit : ReadsAscii digit)
    (hM : M.client.worker = .posting call (.first n) start) :
    (M.passes digit cfg ev (cfg.maxRetries + 1)).client.worker = .idle := by
  rcases passes_attempt hdigit hM (cfg.maxRetries + 1) with hidle | ⟨a, -, -, hle⟩
  · exact hidle
  · omega

theorem passes_of_idle (k : ℕ) (hidle : (M.passes digit cfg ev k).client.worker = .idle) {m : ℕ}
    (hm : k ≤ m) : M.passes digit cfg ev m = M.passes digit cfg ev k := by
  induction m, hm using Nat.le_induction with
  | base => rfl
  | succ m hm ih => rw [passes, ih, pass_idle hidle]

/-- A pass that the platform accepts is made under the number it expects. -/
theorem passes_accept (hdigit : ReadsAscii digit)
    (hM : M.client.worker = .posting call (.first n) start) {k : ℕ}
    (hchange : (M.passes digit cfg ev (k + 1)).last ≠ (M.passes digit cfg ev k).last) :
    ∃ a : Attempt, (M.passes digit cfg ev k).client.worker = .posting call a start ∧
      k ≤ cfg.maxRetries ∧ (ev k).outcome.Reaches ∧
      a.seq = (M.passes digit cfg ev k).last + 1 ∧
      (M.passes digit cfg ev (k + 1)).last = a.seq ∧
      (M.passes digit cfg ev (k + 1)).client.nextSeq =
        (M.passes digit cfg ev k).client.nextSeq := by
  rcases passes_attempt hdigit hM k with hidle | ⟨a, hworker, hk, hle⟩
  · rw [passes, pass_idle hidle] at hchange
    exact absurd rfl hchange
  · have hresult := pass_result (p := ev k) hdigit hworker (hk.trans_le hle)
    exact ⟨a, hworker, hle, hresult.accepts hchange⟩

/-- The counter stays level with an event that was not ahead of the platform. -/
theorem passes_level (hdigit : ReadsAscii digit)
    (hM : M.client.worker = .posting call (.first n) start) (hnext : M.client.nextSeq = n + 1)
    (hle : n ≤ M.last + 1) (k : ℕ) :
    ∀ a, (M.passes digit cfg ev k).client.worker = .posting call a start →
      (M.passes digit cfg ev k).client.nextSeq = a.seq + 1 ∧
        a.seq ≤ (M.passes digit cfg ev k).last + 1 := by
  refine passes_induction hdigit hM (I := fun _ L => ∀ a, L.client.worker = .posting call a start →
    L.client.nextSeq = a.seq + 1 ∧ a.seq ≤ L.last + 1) ?_ ?_ ?_ k
  · intro a hworker
    rw [hM] at hworker
    cases hworker
    exact ⟨hnext, hle⟩
  · intro k L hidle hlevel
    exact hlevel
  · intro k L L' a hworker hk hresult hlevel a' hworker'
    obtain ⟨hnextL, hleL⟩ := hlevel a hworker
    obtain ⟨-, -, -, hcases⟩ := hresult.posting hworker'
    rcases hcases with ⟨-, hseq, -, -, rfl, hnext', hlast'⟩ | ⟨-, ⟨doubles, rfl⟩, hnext'⟩
    · change L'.client.nextSeq = L.last + 1 + 1 ∧ L.last + 1 ≤ L'.last + 1
      omega
    · have hmono := hresult.last_le
      change L'.client.nextSeq = a.seq + 1 ∧ a.seq ≤ L'.last + 1
      omega

/-- What has happened to an event that was ahead of the platform, as long as it was not
accepted: it was only retried, or it met its conflict. -/
def Waiting (ev : EventPasses) (n l k : ℕ) (a : Attempt) : Prop :=
  (a.seqHealed = false ∧ a.seq = n ∧ ∀ m < k, (ev m).Retried) ∨
    (a.seqHealed = true ∧ Readable (l + 1) ∧
      ∃ i < k, (ev i).Answered ∧ ∀ m < k, m ≠ i → (ev m).Retried)

theorem Waiting.retry {l k : ℕ} {a : Attempt} {doubles : Bool} (h : Waiting ev n l k a)
    (hretried : (ev k).Retried) : Waiting ev n l (k + 1) (a.again doubles) := by
  rcases h with ⟨hfresh, hseq, hall⟩ | ⟨hhealed, hread, i, hi, hanswered, hall⟩
  · refine Or.inl ⟨hfresh, hseq, ?_⟩
    intro m hm
    rcases Nat.lt_succ_iff_lt_or_eq.mp hm with hm | rfl
    · exact hall m hm
    · exact hretried
  · refine Or.inr ⟨hhealed, hread, i, Nat.lt_succ_of_lt hi, hanswered, ?_⟩
    intro m hm hne
    rcases Nat.lt_succ_iff_lt_or_eq.mp hm with hm | rfl
    · exact hall m hm hne
    · exact hretried

theorem Waiting.heal {l k : ℕ} {a : Attempt} (h : Waiting ev n l k a) (hfresh : a.seqHealed = false)
    (hread : Readable (l + 1)) (hanswered : (ev k).Answered) :
    Waiting ev n l (k + 1) (a.heal (l + 1)) := by
  rcases h with ⟨-, -, hall⟩ | ⟨hhealed, -⟩
  · refine Or.inr ⟨rfl, hread, k, Nat.lt_succ_self k, hanswered, ?_⟩
    intro m hm hne
    exact hall m (by omega)
  · rw [hfresh] at hhealed
    cases hhealed

theorem passes_waiting (hdigit : ReadsAscii digit)
    (hM : M.client.worker = .posting call (.first n) start) (hnext : M.client.nextSeq = n + 1)
    (hahead : M.last + 1 < n) (k : ℕ) :
    M.last ≤ (M.passes digit cfg ev k).last ∧
      ((M.passes digit cfg ev k).last = M.last →
        ∀ a, (M.passes digit cfg ev k).client.worker = .posting call a start →
          (M.passes digit cfg ev k).client.nextSeq = n + 1 ∧ Waiting ev n M.last k a) := by
  refine passes_induction hdigit hM (I := fun k L => M.last ≤ L.last ∧ (L.last = M.last →
    ∀ a, L.client.worker = .posting call a start → L.client.nextSeq = n + 1 ∧
      Waiting ev n M.last k a)) ?_ ?_ ?_ k
  · refine ⟨le_rfl, ?_⟩
    intro _ a hworker
    rw [hM] at hworker
    cases hworker
    exact ⟨hnext, Or.inl ⟨rfl, rfl, fun m hm => absurd hm (Nat.not_lt_zero m)⟩⟩
  · rintro k L hidle ⟨hle, -⟩
    refine ⟨hle, ?_⟩
    intro _ a hworker
    rw [hidle] at hworker
    cases hworker
  · rintro k L L' a hworker hk hresult ⟨hle, hwaiting⟩
    have hmono := hresult.last_le
    refine ⟨hle.trans hmono, ?_⟩
    intro hlast a' hworker'
    have hsame : L.last = M.last := by omega
    obtain ⟨hnextL, hwait⟩ := hwaiting hsame a hworker
    obtain ⟨-, -, -, hcases⟩ := hresult.posting hworker'
    rcases hcases with
      ⟨hanswered, -, hfresh, hread, rfl, hnext', -⟩ | ⟨hretried, ⟨doubles, rfl⟩, hnext'⟩
    · rw [hsame] at hread hnext' ⊢
      exact ⟨by omega, hwait.heal hfresh hread hanswered⟩
    · exact ⟨hnext'.trans hnextL, hwait.retry hretried⟩

/-- An event that was ahead of the platform is accepted only after its conflict, and the
counter is then beyond the expected number. -/
theorem passes_accept_ahead (hdigit : ReadsAscii digit)
    (hM : M.client.worker = .posting call (.first n) start) (hnext : M.client.nextSeq = n + 1)
    (hahead : M.last + 1 < n) {k : ℕ} (hsame : (M.passes digit cfg ev k).last = M.last)
    (hchange : (M.passes digit cfg ev (k + 1)).last ≠ (M.passes digit cfg ev k).last) :
    (Readable (M.last + 1) ∧ AcceptedAfterConflict cfg.maxRetries ev) ∧
      (M.passes digit cfg ev (k + 1)).client.nextSeq ≠
        (M.passes digit cfg ev (k + 1)).last + 1 := by
  obtain ⟨a, hworker, hle, hreaches, hseq, hlast, hkeep⟩ := passes_accept hdigit hM hchange
  obtain ⟨hnextL, hwait⟩ := (passes_waiting hdigit hM hnext hahead k).2 hsame a hworker
  refine ⟨?_, by omega⟩
  rcases hwait with ⟨-, hfirst, -⟩ | ⟨-, hread, i, hi, hanswered, hall⟩
  · omega
  · exact ⟨hread, i, k, hi, hle, hanswered, hall, hreaches⟩

/-- An event that is let through to the platform twice is accepted. -/
theorem passes_through (hdigit : ReadsAscii digit)
    (hM : M.client.worker = .posting call (.first n) start) (hahead : M.last + 1 < n)
    (hread : Readable (M.last + 1)) (hthrough : AcceptedAfterConflict cfg.maxRetries ev)
    (hsame : ∀ k, (M.passes digit cfg ev k).last = M.last) : False := by
  obtain ⟨i, j, hij, hj, hanswered, hall, hreaches⟩ := hthrough
  have hfirst : ∀ k ≤ i, ∃ a : Attempt, (M.passes digit cfg ev k).client.worker =
      .posting call a start ∧ a.attempt = k ∧ a.seq = n ∧ a.seqHealed = false := by
    intro k
    induction k with
    | zero =>
        intro _
        exact ⟨.first n, hM, rfl, rfl, rfl⟩
    | succ k ih =>
        intro hk
        obtain ⟨a, hworker, hattempt, hseq, hfresh⟩ := ih (by omega)
        have hresult := pass_result (p := ev k) hdigit hworker
          (hattempt.trans_le (by omega : k ≤ cfg.maxRetries))
        obtain ⟨doubles, hworker'⟩ :=
          hresult.of_retried (hall k (by omega) (by omega)) (by omega)
        exact ⟨a.again doubles, hworker', congrArg (· + 1) hattempt, hseq, hfresh⟩
  have hsecond : ∀ k, i < k → k ≤ j → ∃ a : Attempt, (M.passes digit cfg ev k).client.worker =
      .posting call a start ∧ a.attempt = k ∧ a.seq = M.last + 1 := by
    intro k hik
    induction k, hik using Nat.le_induction with
    | base =>
        intro _
        obtain ⟨a, hworker, hattempt, hseq, hfresh⟩ := hfirst i le_rfl
        have hresult := pass_result (p := ev i) hdigit hworker
          (hattempt.trans_le (by omega : i ≤ cfg.maxRetries))
        have hne : a.seq ≠ (M.passes digit cfg ev i).last + 1 := by
          rw [hsame i]
          omega
        have hreadL : Readable ((M.passes digit cfg ev i).last + 1) := by
          rw [hsame i]
          exact hread
        obtain ⟨hworker', -, -⟩ := hresult.of_conflict hanswered hne hfresh hreadL (by omega)
        rw [hsame i] at hworker'
        exact ⟨a.heal (M.last + 1), hworker', congrArg (· + 1) hattempt, rfl⟩
    | succ k hik ih =>
        intro hk
        obtain ⟨a, hworker, hattempt, hseq⟩ := ih (by omega)
        have hresult := pass_result (p := ev k) hdigit hworker
          (hattempt.trans_le (by omega : k ≤ cfg.maxRetries))
        obtain ⟨doubles, hworker'⟩ :=
          hresult.of_retried (hall k (by omega) (by omega)) (by omega)
        exact ⟨a.again doubles, hworker', congrArg (· + 1) hattempt, hseq⟩
  obtain ⟨a, hworker, hattempt, hseq⟩ := hsecond j hij le_rfl
  have hresult := pass_result (p := ev j) hdigit hworker
    (hattempt.trans_le (by omega : j ≤ cfg.maxRetries))
  have hlast := hresult.of_reaches hreaches (by rw [hsame j]; exact hseq)
  have hnone : (M.passes digit cfg ev (j + 1)).last = M.last := hsame (j + 1)
  rw [hsame j] at hlast
  rw [passes] at hnone
  omega

/-- The counter is at the expected number after every accepted POST, unless the event was
ahead of the platform and is accepted after its conflict. -/
theorem passes_synced_iff (cfg : PlatformConfig) (ev : EventPasses) (hdigit : ReadsAscii digit)
    (hM : M.client.worker = .posting call (.first n) start) (hnext : M.client.nextSeq = n + 1) :
    (∀ k, (M.passes digit cfg ev (k + 1)).last ≠ (M.passes digit cfg ev k).last →
        (M.passes digit cfg ev (k + 1)).client.nextSeq =
          (M.passes digit cfg ev (k + 1)).last + 1) ↔
      (M.last + 1 < n →
        ¬(Readable (M.last + 1) ∧ AcceptedAfterConflict cfg.maxRetries ev)) := by
  by_cases hahead : M.last + 1 < n
  · constructor
    · rintro hsynced - ⟨hread, hthrough⟩
      refine passes_through hdigit hM hahead hread hthrough ?_
      intro k
      induction k with
      | zero => rfl
      | succ k ih =>
          by_contra hne
          have hchange : (M.passes digit cfg ev (k + 1)).last ≠ (M.passes digit cfg ev k).last := by
            rw [ih]
            exact hne
          exact (passes_accept_ahead hdigit hM hnext hahead ih hchange).2 (hsynced k hchange)
    · intro hnot k hchange
      have hsame : ∀ k, (M.passes digit cfg ev k).last = M.last := by
        intro k
        induction k with
        | zero => rfl
        | succ k ih =>
            by_contra hne
            refine hnot hahead (passes_accept_ahead hdigit hM hnext hahead ih ?_).1
            rw [ih]
            exact hne
      rw [hsame, hsame] at hchange
      exact absurd rfl hchange
  · constructor
    · intro _ h
      exact absurd h hahead
    · intro _ k hchange
      obtain ⟨a, hworker, -, -, -, hlast, hkeep⟩ := passes_accept hdigit hM hchange
      obtain ⟨hnextL, -⟩ := passes_level hdigit hM hnext (not_lt.mp hahead) k a hworker
      omega

/-- An event that is ahead of the platform and answered in time is given up on for want of
a retry, or of a number that can be read. -/
theorem passes_gaveUp_iff (hdigit : ReadsAscii digit)
    (hM : M.client.worker = .posting call (.first n) start) (hahead : M.last + 1 < n)
    (hundisturbed : Undisturbed cfg.maxRetries ev) :
    M.client.stats.gaveUp <
        (M.passes digit cfg ev (cfg.maxRetries + 1)).client.stats.gaveUp ↔
      ¬(1 ≤ cfg.maxRetries ∧ Readable (M.last + 1)) := by
  have hfirst := pass_result (p := ev 0) hdigit hM (Nat.zero_le cfg.maxRetries)
  have hanswered : (ev 0).Answered := hundisturbed 0 (Nat.zero_le _)
  have hne : (Attempt.first n).seq ≠ M.last + 1 := ne_of_gt hahead
  by_cases hheals : 1 ≤ cfg.maxRetries ∧ Readable (M.last + 1)
  · obtain ⟨hworker, hlast, hstats⟩ := hfirst.of_conflict hanswered hne rfl hheals.2 hheals.1
    have hsecond := pass_result (p := ev 1) hdigit hworker hheals.1
    obtain ⟨hidle, hstats'⟩ :=
      hsecond.of_accepted (hundisturbed 1 (by omega)) (by rw [hlast]; rfl)
    have hend : M.passes digit cfg ev (cfg.maxRetries + 1) = M.passes digit cfg ev 2 :=
      passes_of_idle 2 hidle (by omega)
    have hsame : (M.passes digit cfg ev 2).client.stats.gaveUp = M.client.stats.gaveUp := by
      change (((M.pass digit cfg (ev 0)).pass digit cfg (ev 1)).client.stats).gaveUp = _
      rw [hstats', hstats]
      rfl
    rw [hend, hsame]
    simp [hheals]
  · obtain ⟨hidle, hmore⟩ := hfirst.of_stuck hanswered hne hheals
    have hend : M.passes digit cfg ev (cfg.maxRetries + 1) = M.passes digit cfg ev 1 :=
      passes_of_idle 1 hidle (by omega)
    have hone : (M.passes digit cfg ev 1).client.stats.gaveUp = M.client.stats.gaveUp + 1 := hmore
    rw [hend, hone]
    exact iff_of_true (Nat.lt_succ_self _) hheals

/-- The slack between the counter and the platform after `k` passes. -/
theorem passes_slack (hdigit : ReadsAscii digit)
    (hM : M.client.worker = .posting call (.first n) start)
    (hslack : M.client.nextSeq ≤ M.last + 2 + M.client.stats.dropped) (k : ℕ) :
    (M.passes digit cfg ev k).client.nextSeq ≤
        (M.passes digit cfg ev k).last + 2 + (M.passes digit cfg ev k).client.stats.dropped ∧
      ((M.passes digit cfg ev k).client.worker = .idle →
        (M.passes digit cfg ev k).client.nextSeq ≤
          (M.passes digit cfg ev k).last + 1 + (M.passes digit cfg ev k).client.stats.dropped) := by
  refine passes_induction hdigit hM (I := fun _ L =>
    L.client.nextSeq ≤ L.last + 2 + L.client.stats.dropped ∧
      (L.client.worker = .idle → L.client.nextSeq ≤ L.last + 1 + L.client.stats.dropped)) ?_ ?_ ?_ k
  · refine ⟨hslack, ?_⟩
    intro hidle
    rw [hM] at hidle
    cases hidle
  · intro k L hidle h
    exact h
  · intro k L L' a hworker hk hresult h
    exact hresult.slack h.1

/-! ## From one event to the next -/

/-- The state between two events: nothing is queued or in flight, and the counter is ahead
of the platform by the dropped events at most. -/
structure Between (L : Linked) : Prop where
  idle : L.client.worker = .idle
  desk : L.client.desk = ([], true, false, .notCalled)
  slack : L.client.nextSeq ≤ L.last + 1 + L.client.stats.dropped

/-- An event is taken unless a terminal response has disabled the client. -/
theorem Between.begin_open (cfg : PlatformConfig) (h : L.Between)
    (hlatched : L.client.latched = false) :
    (L.begin cfg).client.worker =
        .posting L.client.forwards (.first L.client.nextSeq) L.client.clock ∧
      (L.begin cfg).client.nextSeq = L.client.nextSeq + 1 ∧ (L.begin cfg).last = L.last ∧
      (L.begin cfg).client.stats = L.client.stats ∧
      (L.begin cfg).client.desk = ([], true, false, .notCalled) := by
  obtain ⟨hqueue, hstarted, hclosed, hclosing⟩ : L.client.queue = [] ∧
      L.client.started = true ∧ L.client.closed = false ∧ L.client.closing = .notCalled := by
    simpa [ForwardState.desk] using h.desk
  have hroom : L.client.queue.length < cfg.maxQueueSize := by
    rw [hqueue]
    exact cfg.one_le_maxQueueSize
  have hforward : L.client.forward cfg = L.client.enqueue := by
    rw [ForwardState.forward, hlatched, hstarted, hclosed]
    exact if_pos hroom
  have hqueued : (L.client.forward cfg).queue = [L.client.forwards] := by
    rw [hforward, ForwardState.enqueue, hqueue]
    rfl
  have hopen : (L.client.forward cfg).latched = false := by
    rw [hforward]
    exact hlatched
  let u : ForwardState := { L.client.enqueue with queue := [], nextSeq := L.client.nextSeq + 1 }
  have htaken : (L.begin cfg).client =
      u.loopHead cfg L.client.forwards (.first L.client.nextSeq) L.client.clock := by
    change (L.client.forward cfg).takeNext cfg = _
    rw [ForwardState.takeNext, hqueued]
    simp only [ForwardState.take, hopen]
    rw [hforward]
    rfl
  have hbudget : u.clock - L.client.clock < maxCumulativeRetrySeconds := by
    change L.client.clock - L.client.clock < maxCumulativeRetrySeconds
    rw [sub_self, maxCumulativeRetrySeconds]
    norm_num
  have hattempt : (Attempt.first L.client.nextSeq).attempt ≤ cfg.maxRetries := Nat.zero_le _
  rw [htaken, ForwardState.loopHead_of_pos hbudget hattempt]
  refine ⟨rfl, rfl, rfl, rfl, ?_⟩
  change ([], L.client.started, L.client.closed, L.client.closing) = _
  rw [hstarted, hclosed, hclosing]

/-- A disabled client drops the event without a number. -/
theorem Between.begin_latched (cfg : PlatformConfig) (h : L.Between)
    (hlatched : L.client.latched = true) :
    (L.begin cfg).client = L.client.refuse := by
  have hqueue : L.client.queue = [] := congrArg Prod.fst h.desk
  change (L.client.forward cfg).takeNext cfg = _
  have hforward : L.client.forward cfg = L.client.refuse := by
    rw [ForwardState.forward, hlatched]
    rfl
  have hempty : L.client.refuse.queue = [] := hqueue
  rw [hforward, ForwardState.takeNext, hempty]

/-- The passes of an event that a disabled client dropped. -/
theorem Between.passes_latched (h : L.Between) (hlatched : L.client.latched = true) (k : ℕ) :
    (L.begin cfg).passes digit cfg ev k = ⟨L.client.refuse, L.last⟩ := by
  have hbegin : L.begin cfg = ⟨L.client.refuse, L.last⟩ := by
    rw [← h.begin_latched cfg hlatched]
    rfl
  have hidle : ((L.begin cfg).passes digit cfg ev 0).client.worker = .idle := by
    change (L.begin cfg).client.worker = .idle
    rw [hbegin]
    exact h.idle
  exact (passes_of_idle 0 hidle (Nat.zero_le k)).trans hbegin

theorem Between.forwardEvent (hdigit : ReadsAscii digit) (h : L.Between) (ev : EventPasses) :
    (L.forwardEvent digit cfg ev).Between := by
  by_cases hlatched : L.client.latched = true
  · rw [Linked.forwardEvent, h.passes_latched hlatched]
    exact ⟨h.idle, h.desk, h.slack⟩
  · rw [Bool.not_eq_true] at hlatched
    obtain ⟨hworker, hnext, hlast, hstats, hdesk⟩ := h.begin_open cfg hlatched
    have hslack : (L.begin cfg).client.nextSeq ≤
        (L.begin cfg).last + 2 + (L.begin cfg).client.stats.dropped := by
      have hbetween := h.slack
      rw [hnext, hlast, hstats]
      omega
    have hidle : (L.forwardEvent digit cfg ev).client.worker = .idle := passes_idle hdigit hworker
    exact ⟨hidle, (passes_desk _ ev _).trans hdesk, (passes_slack hdigit hworker hslack _).2 hidle⟩

theorem between_start (last : ℕ) : (Linked.start last).Between := by
  refine ⟨rfl, rfl, ?_⟩
  change 1 ≤ last + 1 + 0
  omega

theorem Between.forwardEvents (hdigit : ReadsAscii digit) (h : L.Between)
    (evs : List EventPasses) : (L.forwardEvents digit cfg evs).Between := by
  induction evs generalizing L with
  | nil => exact h
  | cons ev evs ih => exact ih (h.forwardEvent hdigit ev)

/-- A counter that is ahead of the platform has had events dropped. -/
theorem Between.dropped_pos (h : L.Between) (hahead : L.Ahead) : 0 < L.client.stats.dropped := by
  have hslack := h.slack
  rw [Ahead] at hahead
  omega

/-- The condition on the state before an event, and on what becomes of its POSTs: the
client is not ahead of the platform, or the event is neither accepted after its conflict
nor lost for want of the retry that its conflict takes. -/
def Heals (cfg : PlatformConfig) (L : Linked) (ev : EventPasses) : Prop :=
  L.client.latched = false → L.Ahead →
    ¬(Readable (L.last + 1) ∧ AcceptedAfterConflict cfg.maxRetries ev) ∧
      (Undisturbed cfg.maxRetries ev → 1 ≤ cfg.maxRetries ∧ Readable (L.last + 1))

theorem Between.heals_iff (hdigit : ReadsAscii digit) (h : L.Between) (ev : EventPasses) :
    L.Synced digit cfg ev ∧ ¬L.DroppedForEarlier digit cfg ev ↔ L.Heals cfg ev := by
  by_cases hlatched : L.client.latched = true
  · have hsynced : L.Synced digit cfg ev := by
      intro k hchange
      rw [h.passes_latched hlatched, h.passes_latched hlatched] at hchange
      exact absurd rfl hchange
    have hdropped : ¬L.DroppedForEarlier digit cfg ev := by
      rintro ⟨-, -, -, hmore⟩
      rw [Linked.forwardEvent, h.passes_latched hlatched] at hmore
      exact lt_irrefl _ hmore
    refine iff_of_true ⟨hsynced, hdropped⟩ ?_
    intro hopen
    rw [hlatched] at hopen
    cases hopen
  · rw [Bool.not_eq_true] at hlatched
    obtain ⟨hworker, hnext, hlast, hstats, -⟩ := h.begin_open cfg hlatched
    have hsynced : L.Synced digit cfg ev ↔ (L.Ahead →
        ¬(Readable (L.last + 1) ∧ AcceptedAfterConflict cfg.maxRetries ev)) := by
      have hiff := passes_synced_iff cfg ev hdigit hworker hnext
      rw [hlast] at hiff
      exact hiff
    have hdropped : L.DroppedForEarlier digit cfg ev ↔
        L.Ahead ∧ Undisturbed cfg.maxRetries ev ∧
          ¬(1 ≤ cfg.maxRetries ∧ Readable (L.last + 1)) := by
      constructor
      · rintro ⟨-, hahead, hundisturbed, hmore⟩
        refine ⟨hahead, hundisturbed, ?_⟩
        have hgaveUp := passes_gaveUp_iff hdigit hworker (by rw [hlast]; exact hahead) hundisturbed
        rw [hlast, hstats] at hgaveUp
        exact hgaveUp.mp hmore
      · rintro ⟨hahead, hundisturbed, hstuck⟩
        refine ⟨h.dropped_pos hahead, hahead, hundisturbed, ?_⟩
        have hgaveUp := passes_gaveUp_iff hdigit hworker (by rw [hlast]; exact hahead) hundisturbed
        rw [hlast, hstats] at hgaveUp
        exact hgaveUp.mpr hstuck
    rw [hdropped, hsynced, Heals]
    simp only [hlatched, forall_true_left]
    constructor
    · rintro ⟨hthrough, hkept⟩ hahead
      refine ⟨hthrough hahead, ?_⟩
      intro hundisturbed
      by_contra hstuck
      exact hkept ⟨hahead, hundisturbed, hstuck⟩
    · intro hheals
      refine ⟨fun hahead => (hheals hahead).1, ?_⟩
      rintro ⟨hahead, hundisturbed, hstuck⟩
      exact hstuck ((hheals hahead).2 hundisturbed)

end Linked

/-! ## The numbers heal -/

/-- Over every run of forwarded events the counter is at the expected number after each
accepted event, and no event is dropped for earlier ones only, exactly when no event that
finds the counter ahead of the platform is accepted or is lost for its conflict. -/
theorem seq_heals_iff {digit : Char → Option ℕ} (hdigit : ReadsAscii digit)
    (cfg : PlatformConfig) (last : ℕ) (evs : List EventPasses) :
    (∀ before ev rest, evs = before ++ ev :: rest →
        ((Linked.start last).forwardEvents digit cfg before).Synced digit cfg ev ∧
          ¬((Linked.start last).forwardEvents digit cfg before).DroppedForEarlier digit cfg ev) ↔
      ∀ before ev rest, evs = before ++ ev :: rest →
        ((Linked.start last).forwardEvents digit cfg before).Heals cfg ev := by
  have hbetween : ∀ before, ((Linked.start last).forwardEvents digit cfg before).Between :=
    fun before => (Linked.between_start last).forwardEvents hdigit before
  constructor
  · intro hruns before ev rest hevs
    exact ((hbetween before).heals_iff hdigit ev).mp (hruns before ev rest hevs)
  · intro hheals before ev rest hevs
    exact ((hbetween before).heals_iff hdigit ev).mpr (hheals before ev rest hevs)

/-- Every POST is rejected for its payload. -/
def rejectedPasses : EventPasses :=
  fun _ => ⟨.rejected ⟨400, none, none⟩ ⟨by decide, by decide⟩, 1, 1⟩

/-- Every POST is answered in time. -/
def calmPasses : EventPasses := fun _ => ⟨.answered, 1, 1⟩

theorem undisturbed_calmPasses (maxRetries : ℕ) : Undisturbed maxRetries calmPasses := by
  intro k _
  refine ⟨rfl, ?_⟩
  change (1 : ℚ) < maxCumulativeRetrySeconds
  rw [maxCumulativeRetrySeconds]
  norm_num

/-- A cold start against a platform that has accepted forty-one events. -/
theorem cold_start_heals :
    (Linked.start 41).Synced asciiDigit ⟨1000, 4, by decide⟩ calmPasses ∧
      ¬(Linked.start 41).DroppedForEarlier asciiDigit ⟨1000, 4, by decide⟩ calmPasses := by
  refine (seq_heals_iff (fun _ _ => rfl) ⟨1000, 4, by decide⟩ 41 [calmPasses]).mpr ?_
    [] calmPasses [] rfl
  intro before ev rest hevs
  rcases before with _ | ⟨first, before⟩
  · intro _ hahead
    change 41 + 1 < 1 at hahead
    omega
  · simp at hevs

/-- The number of a rejected event is never taken back.  The next event is healed, and
leaves the counter beyond the expected number; without a retry it is dropped. -/
theorem rejected_event_not_healed :
    (¬∀ before ev rest, [rejectedPasses, calmPasses] = before ++ ev :: rest →
      ((Linked.start 0).forwardEvents asciiDigit ⟨1000, 4, by decide⟩ before).Synced
        asciiDigit ⟨1000, 4, by decide⟩ ev) ∧
    ¬∀ before ev rest, [rejectedPasses, calmPasses] = before ++ ev :: rest →
      ¬((Linked.start 0).forwardEvents asciiDigit ⟨1000, 0, by decide⟩ before).DroppedForEarlier
        asciiDigit ⟨1000, 0, by decide⟩ ev := by
  have hbetween : ∀ cfg, ((Linked.start 0).forwardEvents asciiDigit cfg [rejectedPasses]).Between :=
    fun cfg => (Linked.between_start 0).forwardEvents (fun _ _ => rfl) [rejectedPasses]
  have hread : Readable 1 := Nat.one_lt_pow (by decide) (by decide)
  constructor
  · intro hsynced
    have hopen : ((Linked.start 0).forwardEvents asciiDigit ⟨1000, 4, by decide⟩
        [rejectedPasses]).client.latched = false := by with_unfolding_all rfl
    have hlast : ((Linked.start 0).forwardEvents asciiDigit ⟨1000, 4, by decide⟩
        [rejectedPasses]).last = 0 := by with_unfolding_all rfl
    have hnext : ((Linked.start 0).forwardEvents asciiDigit ⟨1000, 4, by decide⟩
        [rejectedPasses]).client.nextSeq = 2 := by with_unfolding_all rfl
    obtain ⟨hworker, hbegun, hsame, -⟩ := (hbetween _).begin_open ⟨1000, 4, by decide⟩ hopen
    rw [hlast] at hsame
    have hiff := Linked.passes_synced_iff ⟨1000, 4, by decide⟩ calmPasses (fun _ _ => rfl)
      hworker hbegun
    rw [hsame, hnext] at hiff
    refine hiff.mp (hsynced [rejectedPasses] calmPasses [] rfl) (by decide)
      ⟨hread, 0, 1, by decide, by decide, undisturbed_calmPasses 4 0 (by decide), ?_, trivial⟩
    intro k hk hne
    omega
  · intro hkept
    have hopen : ((Linked.start 0).forwardEvents asciiDigit ⟨1000, 0, by decide⟩
        [rejectedPasses]).client.latched = false := by with_unfolding_all rfl
    have hahead : ((Linked.start 0).forwardEvents asciiDigit ⟨1000, 0, by decide⟩
        [rejectedPasses]).Ahead := by
      rw [Linked.Ahead]
      with_unfolding_all decide
    have hcalm : Undisturbed (PlatformConfig.maxRetries ⟨1000, 0, by decide⟩) calmPasses :=
      undisturbed_calmPasses 0
    obtain ⟨hworker, -, hsame, hstats, -⟩ := (hbetween _).begin_open ⟨1000, 0, by decide⟩ hopen
    have hiff := Linked.passes_gaveUp_iff (fun _ _ => rfl) hworker
      (by rw [hsame]; exact hahead) hcalm
    rw [hstats] at hiff
    refine hkept [rejectedPasses] calmPasses [] rfl
      ⟨(hbetween _).dropped_pos hahead, hahead, hcalm, hiff.mpr ?_⟩
    rintro ⟨hretries, -⟩
    exact absurd hretries (by decide)

end AgenticGovernance.Platform

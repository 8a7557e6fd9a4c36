import Mathlib
import AgenticGovernance.Audit.Chain
import AgenticGovernance.Support.LinkedChain

/-!
# Verifying a session chain

`verify_chain_records` and `trace_session_chain` walk the records of one session
in chain order.  Both are several passes over the list, and each pass raises at
its first failure; the order of the passes decides which error a caller sees.

The specification of both is `LinkedFrom`: accepted lists start at a genesis
record, link every record to the one before it, and carry the HMAC of their own
content.  From this the commitment of the last HMAC to the whole chain follows.
-/

namespace AgenticGovernance.Audit

open Support

/-- `ChainIntegrityError` with the values its message interpolates, and the
errors that escape from `verify_event` itself. -/
inductive ChainError where
  | headTruncated (event : Uuid) (prevHash : Option String)
  | violationAtIndex (idx : ℕ) (event : Uuid)
  | violationAtEvent (event : Uuid)
  | fork (first second : Uuid) (prevHash : Option String)
  | gap (position : ℕ) (event preceding : Uuid)
  | raised (e : PyError)
  deriving DecidableEq

/-- A session chain, as a hash chain over the stored records. -/
abbrev ChainFrom (p : Option String) (records : List AuditEventRecord) : Prop :=
  LinkedFrom (fun r : AuditEventRecord => r.prevHash) (fun r => r.hmac) p records

/-- The `hmac` of the last record, which the next record has to name. -/
abbrev lastHmac (records : List AuditEventRecord) : Option String :=
  tip (fun r : AuditEventRecord => r.hmac) none records

section Passes

variable (H : Hmac) (secret : Bytes)

def checkGenesis : List AuditEventRecord → Except ChainError Unit
  | [] => .ok ()
  | r :: _ =>
      if r.prevHash ≠ none then .error (.headTruncated r.eventId r.prevHash)
      else .ok ()

/-- The per-event pass; `violation` is the error raised at the given index. -/
def checkEvents (violation : ℕ → Uuid → ChainError) :
    ℕ → List AuditEventRecord → Except ChainError Unit
  | _, [] => .ok ()
  | idx, r :: records =>
      match verifyEvent H r secret with
      | .error e => .error (.raised e)
      | .ok false => .error (violation idx r.eventId)
      | .ok true => checkEvents violation (idx + 1) records

/-- The linkage pass, at position `i` with the record before it. -/
def checkLinkage :
    ℕ → AuditEventRecord → List AuditEventRecord → Except ChainError Unit
  | _, _, [] => .ok ()
  | i, before, r :: records =>
      if r.prevHash ≠ some before.hmac then
        .error (.gap i r.eventId before.eventId)
      else checkLinkage (i + 1) r records

def checkLinks : List AuditEventRecord → Except ChainError Unit
  | [] => .ok ()
  | r :: records => checkLinkage 1 r records

/-- The fork pass, with the `prev_hash` values seen so far. -/
def checkForks (seen : List (Option String × Uuid)) :
    List AuditEventRecord → Except ChainError Unit
  | [] => .ok ()
  | r :: records =>
      match seen.lookup r.prevHash with
      | some first => .error (.fork first r.eventId r.prevHash)
      | none => checkForks ((r.prevHash, r.eventId) :: seen) records

def verifyChainRecords (records : List AuditEventRecord) :
    Except ChainError Bool := do
  checkGenesis records
  checkEvents H secret .violationAtIndex 0 records
  checkLinks records
  return true

/-- `trace_session_chain`, on the events that `get_session_events` returned. -/
def traceSessionChain (events : List AuditEventRecord) :
    Except ChainError (List AuditEventRecord) := do
  checkEvents H secret (fun _ => .violationAtEvent) 0 events
  checkForks [] events
  checkGenesis events
  checkLinks events
  return events

end Passes

/-! ## What each pass establishes -/

section PassSpecs

variable {H : Hmac} {secret : Bytes}

theorem checkGenesis_eq_ok_iff {records : List AuditEventRecord} :
    checkGenesis records = .ok () ↔
      ∀ r, records.head? = some r → r.prevHash = none := by
  cases records with
  | nil => simp [checkGenesis]
  | cons r records => simp [checkGenesis]

theorem checkEvents_eq_ok_iff {violation : ℕ → Uuid → ChainError} {idx : ℕ}
    {records : List AuditEventRecord} :
    checkEvents H secret violation idx records = .ok () ↔
      ∀ r ∈ records, verifyEvent H r secret = .ok true := by
  induction records generalizing idx with
  | nil => simp [checkEvents]
  | cons r records ih =>
      rw [checkEvents, List.forall_mem_cons]
      split
      next e he => simp [he]
      next he => simp [he]
      next he => simp [he, ih]

theorem checkLinkage_eq_ok_iff {i : ℕ} {before : AuditEventRecord}
    {records : List AuditEventRecord} :
    checkLinkage i before records = .ok () ↔
      ChainFrom (some before.hmac) records := by
  induction records generalizing i before with
  | nil => simp [checkLinkage]
  | cons r records ih =>
      by_cases hlink : r.prevHash = some before.hmac
      · simp [checkLinkage, hlink, ih]
      · simp [checkLinkage, hlink]

theorem checkForks_eq_ok_iff {seen : List (Option String × Uuid)}
    {records : List AuditEventRecord} :
    checkForks seen records = .ok () ↔
      (records.map fun r => r.prevHash).Nodup ∧
        ∀ r ∈ records, seen.lookup r.prevHash = none := by
  induction records generalizing seen with
  | nil => simp [checkForks]
  | cons r records ih =>
      rw [checkForks]
      split
      next first hseen =>
        constructor
        · intro h
          cases h
        · rintro ⟨-, hfresh⟩
          have hnone := hfresh r List.mem_cons_self
          rw [hseen] at hnone
          cases hnone
      next hseen =>
        simp only [ih, List.map_cons, List.nodup_cons, List.mem_map,
          List.forall_mem_cons, hseen, true_and, List.lookup_cons]
        constructor
        · rintro ⟨hnodup, hfresh⟩
          refine ⟨⟨?_, hnodup⟩, ?_⟩
          · rintro ⟨x, hx, heq⟩
            simpa [heq] using hfresh x hx
          · intro x hx
            have hx' := hfresh x hx
            split at hx'
            · cases hx'
            · exact hx'
        · rintro ⟨⟨hnew, hnodup⟩, hfresh⟩
          refine ⟨hnodup, ?_⟩
          intro x hx
          have hne : (x.prevHash == r.prevHash) = false := by
            rw [beq_eq_false_iff_ne]
            exact fun heq => hnew ⟨x, hx, heq⟩
          rw [hne]
          exact hfresh x hx

theorem checkGenesis_checkLinks_iff {records : List AuditEventRecord} :
    checkGenesis records = .ok () ∧ checkLinks records = .ok () ↔
      ChainFrom none records := by
  cases records with
  | nil => simp [checkGenesis, checkLinks]
  | cons r records =>
      rw [checkGenesis_eq_ok_iff, checkLinks, checkLinkage_eq_ok_iff]
      simp

/-- A pass followed by the rest of a verification. -/
theorem pass_bind_eq_ok_iff {β : Type} {x : Except ChainError Unit}
    {f : Unit → Except ChainError β} {b : β} :
    (x >>= f) = .ok b ↔ x = .ok () ∧ f () = .ok b := by
  cases x <;> simp [bind, Except.bind]

/-- `verify_chain_records` accepts exactly the authentic linear chains. -/
theorem verifyChainRecords_eq_ok_iff {records : List AuditEventRecord} :
    verifyChainRecords H secret records = .ok true ↔
      ChainFrom none records ∧
        ∀ r ∈ records, verifyEvent H r secret = .ok true := by
  simp only [verifyChainRecords, pass_bind_eq_ok_iff, pure, Except.pure,
    and_true, checkEvents_eq_ok_iff]
  rw [← checkGenesis_checkLinks_iff]
  tauto

theorem verifyChainRecords_ne_ok_false {records : List AuditEventRecord} :
    verifyChainRecords H secret records ≠ .ok false := by
  simp [verifyChainRecords, pass_bind_eq_ok_iff, pure, Except.pure]

/-- `trace_session_chain` returns the stored events, and only if they form an
authentic linear chain in which no predecessor is named twice. -/
theorem traceSessionChain_eq_ok_iff {events result : List AuditEventRecord} :
    traceSessionChain H secret events = .ok result ↔
      result = events ∧ ChainFrom none events ∧
        (events.map fun r => r.prevHash).Nodup ∧
          ∀ r ∈ events, verifyEvent H r secret = .ok true := by
  simp only [traceSessionChain, pass_bind_eq_ok_iff, pure, Except.pure,
    checkEvents_eq_ok_iff, checkForks_eq_ok_iff, List.lookup_nil,
    implies_true, and_true, Except.ok.injEq]
  rw [← checkGenesis_checkLinks_iff, eq_comm]
  tauto

end PassSpecs

/-! ## The last HMAC commits to the chain -/

/-- Agreement on the authenticated fields and on the stored HMAC. -/
def SameRecord (r s : AuditEventRecord) : Prop :=
  SameContent r.toEventContent s.toEventContent ∧ r.hmac = s.hmac

/-- The messages whose HMACs a list of records carries. -/
def payloads (records : List AuditEventRecord) : Set String :=
  {m | ∃ r ∈ records, m = (eventPayload r.toEventContent).canonical}

section Commitment

variable {H : Hmac} {secret : Bytes}

/-- Two authentic records with the same HMAC have the same content. -/
theorem sameRecord_of_hmac_eq {records : List AuditEventRecord}
    (hfree : H.CollisionFreeOn secret (payloads records))
    {r s : AuditEventRecord} (hr : r ∈ records) (hs : s ∈ records)
    (hvr : verifyEvent H r secret = .ok true)
    (hvs : verifyEvent H s secret = .ok true) (h : r.hmac = s.hmac) :
    SameRecord r s := by
  refine ⟨?_, h⟩
  rw [verifyEvent_eq_ok_true_iff] at hvr hvs
  apply eventPayload_inj
  apply hfree ⟨r, hr, rfl⟩ ⟨s, hs, rfl⟩
  rw [hvr, hvs] at h
  exact h

/-- In an authentic chain no two records name the same predecessor. -/
theorem nodup_prevHash_of_chainFrom {records : List AuditEventRecord}
    (hfree : H.CollisionFreeOn secret (payloads records))
    (hchain : ChainFrom none records)
    (hverify : ∀ r ∈ records, verifyEvent H r secret = .ok true) :
    (records.map fun r => r.prevHash).Nodup := by
  apply hchain.nodup_prev
  intro r hr s hs hmac
  have hsame := sameRecord_of_hmac_eq hfree hr hs (hverify r hr) (hverify s hs) hmac
  exact hsame.1.prevHash

/-- The fork check of `trace_session_chain` is redundant: the two verifiers
accept the same lists. -/
theorem traceSessionChain_accepts_iff {records : List AuditEventRecord}
    (hfree : H.CollisionFreeOn secret (payloads records)) :
    (∃ events, traceSessionChain H secret records = .ok events) ↔
      verifyChainRecords H secret records = .ok true := by
  rw [verifyChainRecords_eq_ok_iff]
  constructor
  · intro ⟨events, h⟩
    obtain ⟨-, hchain, -, hverify⟩ := traceSessionChain_eq_ok_iff.mp h
    exact ⟨hchain, hverify⟩
  · intro ⟨hchain, hverify⟩
    refine ⟨records, traceSessionChain_eq_ok_iff.mpr ⟨rfl, hchain, ?_, hverify⟩⟩
    exact nodup_prevHash_of_chainFrom hfree hchain hverify

theorem forall₂_sameRecord_of_lastHmac_eq {L₁ L₂ : List AuditEventRecord}
    (hfree : H.CollisionFreeOn secret (payloads (L₁ ++ L₂)))
    (h₁ : verifyChainRecords H secret L₁ = .ok true)
    (h₂ : verifyChainRecords H secret L₂ = .ok true)
    (hlast : lastHmac L₁ = lastHmac L₂) :
    List.Forall₂ SameRecord L₁ L₂ := by
  rw [verifyChainRecords_eq_ok_iff] at h₁ h₂
  apply forall₂_of_tip_eq h₁.1 h₂.1 _ hlast
  intro r hr s hs hmac
  have hsame := sameRecord_of_hmac_eq hfree (List.mem_append_left _ hr)
    (List.mem_append_right _ hs) (h₁.2 r hr) (h₂.2 s hs) hmac
  exact ⟨hsame, hsame.1.prevHash⟩

/-- Two accepted chains whose last records carry the same HMAC agree record by
record.  Hence a list that keeps the last record of an accepted chain and is not
that chain is rejected. -/
theorem verifyChainRecords_tamper_evident {L₁ L₂ : List AuditEventRecord}
    (hne₁ : L₁ ≠ []) (hne₂ : L₂ ≠ [])
    (hfree : H.CollisionFreeOn secret (payloads (L₁ ++ L₂)))
    (h₁ : verifyChainRecords H secret L₁ = .ok true)
    (hlast : (L₁.getLast hne₁).hmac = (L₂.getLast hne₂).hmac) :
    (verifyChainRecords H secret L₂ = .ok true →
      L₁.length = L₂.length ∧ List.Forall₂ SameRecord L₁ L₂) ∧
    (¬List.Forall₂ SameRecord L₁ L₂ →
      ∃ e, verifyChainRecords H secret L₂ = .error e) := by
  have htip : lastHmac L₁ = lastHmac L₂ := by
    rw [lastHmac, lastHmac, tip_eq_getLast?, tip_eq_getLast?,
      List.getLast?_eq_some_getLast hne₁, List.getLast?_eq_some_getLast hne₂]
    exact congrArg some hlast
  have hsame := fun h₂ => forall₂_sameRecord_of_lastHmac_eq hfree h₁ h₂ htip
  constructor
  · intro h₂
    exact ⟨(hsame h₂).length_eq, hsame h₂⟩
  · intro hdiff
    cases hres : verifyChainRecords H secret L₂ with
    | error e => exact ⟨e, rfl⟩
    | ok b =>
        cases b with
        | false => exact absurd hres verifyChainRecords_ne_ok_false
        | true => exact absurd (hsame hres) hdiff

end Commitment

/-! ### A two-record session -/

def sampleSecret : Bytes := (List.range 32).map UInt8.ofNat

def sampleTime : Datetime := ⟨2025, 1, 2, 3, 4, 5, 0, some .utc⟩

def sampleContent (eventId : Uuid) (metadata : Metadata)
    (prevHash : Option String) : EventContent where
  eventId := eventId
  sessionId := ⟨100⟩
  agentId := "agent-a"
  parentEventId := none
  kind := "llm.call"
  model := none
  inputHash := none
  outputHash := none
  metadata := metadata
  prevHash := prevHash
  createdAt := sampleTime

def sampleDigest₁ : BitVec 256 :=
  0x7034661233f1990de2aa80ed865cbc8ef5c789a0636819a3c708d3201cadd002#256

def sampleDigest₂ : BitVec 256 :=
  0xfb134d77a7b3bf8b71f084619a9182ae989d96e86cce5f4c6d4528b3e0b730ee#256

/-- The first record; its digest does not depend on the order of the entries. -/
def sampleFirst : EventContent :=
  sampleContent ⟨1⟩ [("a", .str "x"), ("b", .int 1)] none

def sampleFirstReordered : EventContent :=
  sampleContent ⟨1⟩ [("b", .int 1), ("a", .str "x")] none

def sampleSecond : EventContent :=
  sampleContent ⟨2⟩ [] (some (digestText sampleDigest₁))

/-- HMAC-SHA256 under `sampleSecret` on the payloads of the sample session. -/
def sampleHmac : Hmac :=
  .ofTable
    [tableEntry sampleSecret sampleFirst sampleDigest₁,
     tableEntry sampleSecret sampleSecond sampleDigest₂]

theorem sample_valid (eventId : Uuid) (metadata : Metadata)
    (prevHash : Option (BitVec 256)) (d : BitVec 256) (status : SignatureStatus) :
    RecordFields.Valid
      ⟨sampleContent eventId metadata (prevHash.map digestText), digestText d,
        none, none, status⟩ where
  agentId := by
    change 1 ≤ "agent-a".length ∧ "agent-a".length ≤ maxAgentIdLen
    decide
  kind := by
    change 1 ≤ "llm.call".length ∧ "llm.call".length ≤ maxKindLen
    decide
  model := by rintro t ⟨⟩
  inputHash := by rintro t ⟨⟩
  outputHash := by rintro t ⟨⟩
  prevHash := by
    intro t ht
    obtain ⟨p, -, rfl⟩ := Option.map_eq_some_iff.mp ht
    rw [length_digestText]
    decide
  hmac := by
    change minHmacLen ≤ (digestText d).length ∧ (digestText d).length ≤ maxHashLen
    rw [length_digestText]
    decide
  signingKeyFingerprint := by rintro t ⟨⟩

def sampleRecord (eventId : Uuid) (metadata : Metadata)
    (prevHash : Option (BitVec 256)) (d : BitVec 256) (status : SignatureStatus) :
    AuditEventRecord :=
  ⟨_, sample_valid eventId metadata prevHash d status⟩

def sampleRecord₁ : AuditEventRecord :=
  sampleRecord ⟨1⟩ sampleFirst.metadata none sampleDigest₁ .unsigned

def sampleRecord₁Reordered : AuditEventRecord :=
  sampleRecord ⟨1⟩ sampleFirstReordered.metadata none sampleDigest₁ .legacyUnsigned

def sampleRecord₂ : AuditEventRecord :=
  sampleRecord ⟨2⟩ [] (some sampleDigest₁) sampleDigest₂ .unsigned

theorem sample_payload_reordered :
    (eventPayload sampleFirstReordered).canonical =
      (eventPayload sampleFirst).canonical := by
  rw [Json.canonical, Json.canonical, sortKeys_eventPayload, sortKeys_eventPayload]
  rfl

theorem sampleHmac_first :
    computeEventHmac sampleHmac sampleSecret sampleFirst =
      digestText sampleDigest₁ :=
  computeEventHmac_ofTable_self _ _

theorem sampleHmac_second :
    computeEventHmac sampleHmac sampleSecret sampleSecond =
      digestText sampleDigest₂ := by
  rw [sampleHmac, computeEventHmac_ofTable_of_ne (Or.inl (by decide))]
  exact computeEventHmac_ofTable_self _ _

theorem sample_verify₁ :
    verifyEvent sampleHmac sampleRecord₁ sampleSecret = .ok true := by
  rw [verifyEvent_eq_ok_true_iff]
  exact sampleHmac_first.symm

theorem sample_verify₁Reordered :
    verifyEvent sampleHmac sampleRecord₁Reordered sampleSecret = .ok true := by
  rw [verifyEvent_eq_ok_true_iff]
  change _ = sampleHmac.hexdigest sampleSecret
    (eventPayload sampleFirstReordered).canonical
  rw [sample_payload_reordered]
  exact sampleHmac_first.symm

theorem sample_verify₂ :
    verifyEvent sampleHmac sampleRecord₂ sampleSecret = .ok true := by
  rw [verifyEvent_eq_ok_true_iff]
  exact sampleHmac_second.symm

theorem sample_chain_accepted (r : AuditEventRecord) (hprev : r.prevHash = none)
    (hhmac : r.hmac = digestText sampleDigest₁)
    (hv : verifyEvent sampleHmac r sampleSecret = .ok true) :
    verifyChainRecords sampleHmac sampleSecret [r, sampleRecord₂] = .ok true := by
  rw [verifyChainRecords_eq_ok_iff]
  refine ⟨⟨hprev, ?_, trivial⟩, ?_⟩
  · exact congrArg some hhmac.symm
  · intro x hx
    rcases List.mem_pair.mp hx with rfl | rfl
    · exact hv
    · exact sample_verify₂

theorem Hmac.CollisionFreeOn.mono {H : Hmac} {key : Bytes} {M N : Set String}
    (h : H.CollisionFreeOn key N) (hMN : M ⊆ N) : H.CollisionFreeOn key M :=
  Set.InjOn.mono hMN h

theorem sample_collisionFree :
    sampleHmac.CollisionFreeOn sampleSecret
      (payloads ([sampleRecord₁, sampleRecord₂] ++
        [sampleRecord₁Reordered, sampleRecord₂])) := by
  have hmem : ∀ m ∈ payloads ([sampleRecord₁, sampleRecord₂] ++
      [sampleRecord₁Reordered, sampleRecord₂]),
      m = (eventPayload sampleFirst).canonical ∨
        m = (eventPayload sampleSecond).canonical := by
    rintro m ⟨r, hr, rfl⟩
    simp only [List.cons_append, List.nil_append, List.mem_cons, List.not_mem_nil,
      or_false] at hr
    rcases hr with rfl | rfl | rfl | rfl
    · exact Or.inl rfl
    · exact Or.inr rfl
    · exact Or.inl sample_payload_reordered
    · exact Or.inr rfl
  have hdigest : computeEventHmac sampleHmac sampleSecret sampleFirst ≠
      computeEventHmac sampleHmac sampleSecret sampleSecond := by
    rw [sampleHmac_first, sampleHmac_second]
    exact fun h => absurd (digestText_injective h) (by decide)
  intro m hm n hn heq
  rcases hmem m hm with rfl | rfl
  · rcases hmem n hn with rfl | rfl
    · rfl
    · exact absurd heq hdigest
  · rcases hmem n hn with rfl | rfl
    · exact absurd heq.symm hdigest
    · rfl

/-- Reordering the keys of the metadata and changing the signature status, which
the HMAC does not cover, keeps the sample chain accepted. -/
theorem sample_chain_tamper_evident :
    List.Forall₂ SameRecord [sampleRecord₁, sampleRecord₂]
      [sampleRecord₁Reordered, sampleRecord₂] :=
  ((verifyChainRecords_tamper_evident (by simp) (by simp) sample_collisionFree
    (sample_chain_accepted sampleRecord₁ rfl rfl sample_verify₁) rfl).1
      (sample_chain_accepted sampleRecord₁Reordered rfl rfl
        sample_verify₁Reordered)).2

/-- Both verifiers accept the sample chain. -/
theorem sample_chain_traced :
    (∃ events, traceSessionChain sampleHmac sampleSecret
      [sampleRecord₁, sampleRecord₂] = .ok events) ∧
    verifyChainRecords sampleHmac sampleSecret [sampleRecord₁, sampleRecord₂] =
      .ok true := by
  have hverified := sample_chain_accepted sampleRecord₁ rfl rfl sample_verify₁
  refine ⟨(traceSessionChain_accepts_iff ?_).mpr hverified, hverified⟩
  apply sample_collisionFree.mono
  intro m hm
  obtain ⟨r, hr, hrm⟩ := hm
  exact ⟨r, List.mem_append_left _ hr, hrm⟩

end AgenticGovernance.Audit

import Mathlib
import AgenticGovernance.Audit.Chain
import AgenticGovernance.Cost.BudgetAlert
import AgenticGovernance.Support.Jsonb

/-!
# Budget alerts on the wire

An alert of `track` becomes a payload, which `send_budget_alert` signs and posts, with one
retry, to a URL that passes the guard.  The signature is in a header and also in the body: it
covers the canonical JSON of the body without its own entry.

`alerts_on_the_wire` is about whole runs of `track` calls with their deliveries.  For each
agent, cap and day at most two requests go out, both the same; they go to a guarded URL, and the
receiver can verify them, and nothing else with the same signature.
-/

namespace AgenticGovernance.Cost

open Support

/-! ## Signatures -/

/-- A dictionary with string keys. -/
abbrev Payload := List (String × Json)

/-- `{k: v for k, v in payload.items() if k != "signature"}` -/
def stripSignature (payload : Payload) : Payload := payload.filter fun e => e.1 ≠ "signature"

/-- `_canonical_json` -/
def canonicalJson (payload : Payload) : String := (Json.obj (stripSignature payload)).canonical

section Signature

variable (H : Audit.Hmac)

def signPayload (payload : Payload) (secret : String) : String :=
  "sha256=" ++ H.hexdigest secret.toUTF8.toList (canonicalJson payload)

def verifySignature (payload : Payload) (secret signature : String) : Except Audit.PyError Bool :=
  Audit.compareDigest (signPayload H payload secret) signature

end Signature

/-! ## The guard of the URL -/

/-- The parts of the standard library that read a URL.  `parse` is `none` where `urlparse`
raises, and `isPrivate` is `none` for a host that is no literal address. -/
structure UrlReader where
  parse : String → Option (String × Option String)
  lower : String → String
  isPrivate : String → Option Bool

def blockedMetadataHosts : List String :=
  ["169.254.169.254", "metadata.google.internal", "metadata", "metadata.azure.com"]

/-- `_host_is_private` -/
def hostIsPrivate (R : UrlReader) (host : String) : Bool := (R.isPrivate host).getD false

inductive UrlError where
  | valueError
  | scheme
  | host
  | metadataHost
  | privateHost

/-- `_assert_url_safe` -/
def assertUrlSafe (R : UrlReader) (url : String) : Except UrlError Unit :=
  match R.parse url with
  | none => .error .valueError
  | some (scheme, hostname) =>
      let host := R.lower (hostname.getD "")
      if scheme ∉ ["http", "https"] then .error .scheme
      else if host = "" then .error .host
      else if host ∈ blockedMetadataHosts then .error .metadataHost
      else if hostIsPrivate R host then .error .privateHost
      else .ok ()

/-! ## The requests -/

/-- How the values of an alert are written.  `bucket` is the date of a day. -/
structure PayloadFormat (U : Type) where
  float : U → PyFloat
  /-- `round(100.0 * used_value / cap_value, 2) if cap_value > 0 else 0.0` -/
  usedPct : U → U → PyFloat
  bucket : ℕ ↪ String
  isoformat : ℕ → String

/-- `build_payload`, with the nonce that it draws. -/
def buildPayload {U : Type} (P : PayloadFormat U) (nonce : String) (a : BudgetAlert U) : Payload :=
  [("schema", .str "governance.cost.budget_alert/v1"),
   ("event", .str "budget.threshold_crossed"),
   ("agent_id", .str a.agentId),
   ("cap_id", .str a.capId),
   ("cap_type", .str a.capType),
   ("cap_value", .float (P.float a.capValue)),
   ("used_value", .float (P.float a.usedValue)),
   ("used_pct", .float (P.usedPct a.usedValue a.capValue)),
   ("threshold_pct", .int a.thresholdPct),
   ("period_bucket", .str (P.bucket a.periodBucket)),
   ("nonce", .str nonce),
   ("timestamp", .str (P.isoformat a.timestamp))]

/-- A `POST`.  The body is the dictionary whose JSON text is sent. -/
structure Post where
  url : String
  signatureHeader : String
  body : Payload

/-- The request that `send_budget_alert` makes, on both attempts. -/
def signedPost (H : Audit.Hmac) (url secret : String) (payload : Payload) : Post where
  url := url
  signatureHeader := signPayload H payload secret
  body := setKey payload "signature" (.str (signPayload H payload secret))

/-- The text of an entry of the body. -/
def Post.entry (p : Post) (key : String) : Option String :=
  match p.body.lookup key with
  | some (.str s) => some s
  | _ => none

/-- What the request is about, as its receiver reads it. -/
def Post.about (p : Post) : Option String × Option String × Option String :=
  (p.entry "agent_id", p.entry "cap_id", p.entry "period_bucket")

/-! ## Delivery -/

inductive DeliveryPhase where
  | pending
  | sleeping
  | returned (ok : Bool)
  | raised
  deriving DecidableEq

/-- What becomes of an attempt.  A failing one may have reached the receiver. -/
inductive AlertFate where
  | delivered
  | rejected
  | failed (arrived : Bool)
  deriving DecidableEq

def AlertFate.arrived : AlertFate → Bool
  | .delivered => true
  | .rejected => true
  | .failed arrived => arrived

/-- One retry, and none after a 2xx. -/
def DeliveryPhase.afterAttempt (phase : DeliveryPhase) (fate : AlertFate) : DeliveryPhase :=
  if fate = .delivered then .returned true
  else if phase = .pending then .sleeping
  else .returned false

/-- How many attempts a delivery can have made. -/
def DeliveryPhase.attempts : DeliveryPhase → ℕ
  | .pending => 0
  | .sleeping => 1
  | .returned _ => 2
  | .raised => 0

/-- The runs of `track`, with the delivery of each alert and the requests that arrived, both by
the place of the alert. -/
structure WebhookState (U : Type) (ι : Type*) where
  track : TrackState U ι
  delivery : ℕ → DeliveryPhase
  posts : List (ℕ × Post)

/-- What the deliveries use: the digest, the guard, the format, the nonces that are drawn, and
whether `httpx` can be imported. -/
structure WebhookEnv (U : Type) where
  hmac : Audit.Hmac
  reader : UrlReader
  format : PayloadFormat U
  nonce : ℕ → String
  httpx : Bool

section System

variable {U : Type} {ι : Type*} [Zero U] [NatCast U] [LE U]

/-- The request for the alert at a place; its policy has a URL and a secret. -/
def alertPost (W : WebhookEnv U) (policies : List (AlertPolicy U)) (alerts : List (BudgetAlert U))
    (k : ℕ) : Option Post := do
  let alert ← alerts[k]?
  let policy ← registerBudgets policies alert.agentId
  let url ← policy.alertWebhookUrl
  let secret ← policy.alertWebhookSecret
  return signedPost W.hmac url secret (buildPayload W.format (W.nonce k) alert)

namespace WebhookState

variable (s : WebhookState U ι)

def deliver (k : ℕ) (phase : DeliveryPhase) : WebhookState U ι :=
  { s with delivery := Function.update s.delivery k phase }

def attempt (k : ℕ) (post : Post) (fate : AlertFate) : WebhookState U ι :=
  { s.deliver k ((s.delivery k).afterAttempt fate) with
    posts := if fate.arrived then s.posts ++ [(k, post)] else s.posts }

end WebhookState

variable [DecidableEq ι] [Add U] [Mul U] [Div U] [LT U] [DecidableLE U] [DecidableLT U]
variable (W : WebhookEnv U) (enabled : Bool) (policies : List (AlertPolicy U))
  (calls : ι → TrackCall U)

inductive WebhookStep : WebhookState U ι → WebhookState U ι → Prop
  | track (s : WebhookState U ι) (t : TrackState U ι)
      (hstep : TrackStep enabled policies calls s.track t) :
      WebhookStep s { s with track := t }
  /-- the guard raises -/
  | refuse (s : WebhookState U ι) (k : ℕ) (post : Post)
      (hpost : alertPost W policies s.track.alerts k = some post)
      (hphase : s.delivery k = .pending) (hrejected : assertUrlSafe W.reader post.url ≠ .ok ()) :
      WebhookStep s (s.deliver k .raised)
  | noHttpx (s : WebhookState U ι) (k : ℕ) (post : Post)
      (hpost : alertPost W policies s.track.alerts k = some post)
      (hphase : s.delivery k = .pending) (hsafe : assertUrlSafe W.reader post.url = .ok ())
      (hmissing : W.httpx = false) : WebhookStep s (s.deliver k (.returned false))
  | attempt (s : WebhookState U ι) (k : ℕ) (post : Post) (fate : AlertFate)
      (hpost : alertPost W policies s.track.alerts k = some post)
      (hphase : s.delivery k = .pending ∨ s.delivery k = .sleeping)
      (hsafe : assertUrlSafe W.reader post.url = .ok ()) (hhttpx : W.httpx = true) :
      WebhookStep s (s.attempt k post fate)

def webhookSystem : System (WebhookState U ι) where
  init s := (trackSystem enabled policies calls).init s.track ∧ s.posts = [] ∧
    ∀ k, s.delivery k = .pending
  step := WebhookStep W enabled policies calls

end System

/-! ## What the receiver checks -/

section Verify

variable {H : Audit.Hmac} {payload r : Payload} {url secret : String}

theorem isAscii_signPayload (payload : Payload) (secret : String) :
    Audit.isAscii (signPayload H payload secret) = true := by
  rw [signPayload, Audit.isAscii, String.toList_append, List.all_append, Bool.and_eq_true]
  exact ⟨by decide, Audit.isAscii_digestText _⟩

/-- A signature verifies exactly where it is the one that is computed. -/
theorem verifySignature_eq_ok_true_iff {signature : String} :
    verifySignature H r secret signature = .ok true ↔ signature = signPayload H r secret := by
  rw [verifySignature, Audit.compareDigest, isAscii_signPayload, Bool.true_and]
  constructor
  · intro h
    by_cases hascii : Audit.isAscii signature
    · rw [if_pos hascii] at h
      exact (beq_iff_eq.mp (Except.ok.inj h)).symm
    · rw [if_neg hascii] at h
      simp at h
  · intro h
    rw [h, if_pos (isAscii_signPayload r secret), beq_self_eq_true]

theorem signPayload_eq_iff : signPayload H payload secret = signPayload H r secret ↔
    H.hexdigest secret.toUTF8.toList (canonicalJson payload) =
      H.hexdigest secret.toUTF8.toList (canonicalJson r) := by
  rw [signPayload, signPayload, String.append_right_inj]

/-- The order of the entries does not matter. -/
theorem canonicalJson_eq_of_perm (h : r.Perm payload) (hkeys : (payload.map Prod.fst).Nodup) :
    canonicalJson r = canonicalJson payload := by
  have hstrip : (stripSignature r).Perm (stripSignature payload) := h.filter _
  have hnodup : ((stripSignature payload).map Prod.fst).Nodup :=
    hkeys.sublist (List.filter_sublist.map _)
  have hsort : (Json.obj (stripSignature r)).sortKeys =
      (Json.obj (stripSignature payload)).sortKeys := by
    rw [Json.sortKeys, Json.sortKeys, Json.sortFields_eq_map, Json.sortFields_eq_map]
    congr 1
    apply insertionSort_eq_of_perm (hstrip.map _)
    rw [List.map_map]
    exact hnodup
  rw [canonicalJson, canonicalJson, Json.canonical, Json.canonical, hsort]

/-- The signature in the body is not signed itself. -/
theorem stripSignature_setKey (value : Json) :
    stripSignature (setKey payload "signature" value) = stripSignature payload := by
  induction payload with
  | nil => simp [setKey, stripSignature]
  | cons e payload ih =>
      obtain ⟨k, v⟩ := e
      rw [setKey]
      by_cases hk : k = "signature"
      · simp [hk, stripSignature]
      · rw [if_neg hk, stripSignature, stripSignature, List.filter_cons, List.filter_cons]
        rw [stripSignature, stripSignature] at ih
        rw [ih]

theorem canonicalJson_setKey (value : Json) :
    canonicalJson (setKey payload "signature" value) = canonicalJson payload := by
  rw [canonicalJson, stripSignature_setKey, canonicalJson]

/-- The dictionaries have the same entries apart from the signature, in any order. -/
def SameContent (r payload : Payload) : Prop :=
  (Json.obj (stripSignature r)).sortKeys = (Json.obj (stripSignature payload)).sortKeys

theorem verify_signedPost (h : r.Perm (signedPost H url secret payload).body)
    (hkeys : (payload.map Prod.fst).Nodup) :
    verifySignature H r secret (signedPost H url secret payload).signatureHeader = .ok true := by
  have hcanonical : canonicalJson r = canonicalJson payload :=
    (canonicalJson_eq_of_perm h (nodup_setKey hkeys)).trans (canonicalJson_setKey _)
  rw [verifySignature_eq_ok_true_iff]
  exact signPayload_eq_iff.mpr (by rw [hcanonical])

/-- Whatever else verifies with the signature has the same content or collides. -/
theorem sameContent_of_verify
    (hfree : H.CollisionFreeOn secret.toUTF8.toList
      {canonicalJson (signedPost H url secret payload).body, canonicalJson r})
    (h : verifySignature H r secret (signedPost H url secret payload).signatureHeader =
      .ok true) :
    SameContent r (signedPost H url secret payload).body := by
  have hbody : canonicalJson (signedPost H url secret payload).body = canonicalJson payload :=
    canonicalJson_setKey _
  have hdigest := signPayload_eq_iff.mp (verifySignature_eq_ok_true_iff.mp h)
  rw [← hbody] at hdigest
  have hcanonical := hfree (Set.mem_insert _ _) (Set.mem_insert_of_mem _ rfl) hdigest
  exact (Json.canonical_inj hcanonical).symm

end Verify

/-! ## One alert for each key -/

/-- The agent, the cap and the day, as `AlertDedup` has them. -/
def BudgetAlert.key {U : Type} (a : BudgetAlert U) : String × String × ℕ :=
  (a.agentId, a.capId, a.periodBucket)

section Keyed

variable {U : Type} {ι : Type*} {s t : TrackState U ι}

/-- Nothing changes, or an alert is added whose key is new. -/
def AddsAlert (s t : TrackState U ι) : Prop :=
  (t.alerts = s.alerts ∧ t.fired = s.fired) ∨
    ∃ a, t.alerts = s.alerts ++ [a] ∧ a.key ∉ s.fired ∧ t.fired = insert a.key s.fired

/-- No two alerts have one key. -/
structure AlertsKeyed (s : TrackState U ι) : Prop where
  nodup : (s.alerts.map BudgetAlert.key).Nodup
  fired : ∀ a ∈ s.alerts, a.key ∈ s.fired

theorem AlertsKeyed.add (h : AlertsKeyed s) (hadds : AddsAlert s t) : AlertsKeyed t := by
  rcases hadds with ⟨halerts, hfired⟩ | ⟨a, halerts, hnew, hfired⟩
  · constructor
    · rw [halerts]
      exact h.nodup
    · rw [halerts, hfired]
      exact h.fired
  · have hfresh : a.key ∉ s.alerts.map BudgetAlert.key := by
      intro hmem
      obtain ⟨b, hb, hkey⟩ := List.mem_map.mp hmem
      exact hnew (hkey ▸ h.fired b hb)
    constructor
    · rw [halerts, List.map_append]
      exact h.nodup.append (List.nodup_singleton _) (by simpa using hfresh)
    · rw [halerts, hfired]
      intro b hb
      rcases List.mem_append.mp hb with hb | hb
      · exact Finset.mem_insert_of_mem (h.fired b hb)
      · rw [List.mem_singleton.mp hb]
        exact Finset.mem_insert_self _ _

/-- Two alerts with one key are the same alert. -/
theorem AlertsKeyed.place_eq (h : AlertsKeyed s) {k j : ℕ} {a b : BudgetAlert U}
    (ha : s.alerts[k]? = some a) (hb : s.alerts[j]? = some b)
    (hkey : a.key = b.key) : k = j := by
  have hk : (s.alerts.map BudgetAlert.key)[k]? = some a.key := by
    rw [List.getElem?_map, ha, Option.map_some]
  have hj : (s.alerts.map BudgetAlert.key)[j]? = some a.key := by
    rw [List.getElem?_map, hb, Option.map_some, hkey]
  have hlt : k < (s.alerts.map BudgetAlert.key).length := (List.getElem?_eq_some_iff.mp hk).1
  exact (List.getElem?_inj hlt h.nodup).mp (hk.trans hj.symm)

end Keyed

section Steps

variable {U : Type} {ι : Type*} [DecidableEq ι]
variable [Zero U] [Add U] [Mul U] [Div U] [NatCast U] [LE U] [LT U] [DecidableLE U]
  [DecidableLT U]
variable {enabled : Bool} {policies : List (AlertPolicy U)} {calls : ι → TrackCall U}
  {s t : TrackState U ι}

omit [DecidableEq ι] [Add U] in
theorem addsAlert_fire (policy : AlertPolicy U) (preUsd postUsd : U) :
    AddsAlert s (fire s policy preUsd postUsd) := by
  rw [fire]
  rcases policy.perAgentUsdDaily with - | cap
  · exact Or.inl ⟨rfl, rfl⟩
  · by_cases hcross : preUsd < policy.threshold cap ∧ policy.threshold cap ≤ postUsd
    · by_cases hfired : (policy.agentId, capUsdDaily, utcDay s.now) ∈ s.fired
      · left
        simp [hcross, markIfUnfired, hfired]
      · right
        simp only [hcross, and_self, if_true, markIfUnfired, hfired, if_false]
        exact ⟨_, rfl, hfired, rfl⟩
    · left
      simp [hcross]

theorem addsAlert_step (hstep : TrackStep enabled policies calls s t) : AddsAlert s t := by
  cases hstep with
  | advance later hlater => exact Or.inl ⟨rfl, rfl⟩
  | resume i =>
      have hview := resumeView enabled policies calls s i
      generalize resume enabled policies calls s i = t at hview ⊢
      cases hview with
      | fired readAt preUsd postUsd policy => exact addsAlert_fire policy preUsd postUsd
      | _ => exact Or.inl ⟨rfl, rfl⟩

end Steps

/-! ## The entries of the body -/

section Body

variable {U : Type} {H : Audit.Hmac} {P : PayloadFormat U} {url secret nonce : String}
  (alert : BudgetAlert U)

theorem nodup_buildPayload : ((buildPayload P nonce alert).map Prod.fst).Nodup := by
  simp [buildPayload]

theorem entry_agentId :
    (signedPost H url secret (buildPayload P nonce alert)).entry "agent_id" =
      some alert.agentId := by
  simp [Post.entry, signedPost, buildPayload, setKey, List.lookup_cons]

theorem entry_signature :
    (signedPost H url secret (buildPayload P nonce alert)).entry "signature" =
      some (signedPost H url secret (buildPayload P nonce alert)).signatureHeader := by
  simp [Post.entry, signedPost, buildPayload, setKey, List.lookup_cons]

/-- The receiver reads the key of the alert. -/
theorem about_signedPost :
    (signedPost H url secret (buildPayload P nonce alert)).about =
      (some alert.agentId, some alert.capId, some (P.bucket alert.periodBucket)) := by
  rw [Post.about, entry_agentId]
  simp [Post.entry, signedPost, buildPayload, setKey, List.lookup_cons]

end Body

/-! ## The requests of a run -/

section Requests

variable {U : Type} {ι : Type*} [Zero U] [NatCast U] [LE U]
variable {W : WebhookEnv U} {policies : List (AlertPolicy U)} {s t : WebhookState U ι}
  {alerts : List (BudgetAlert U)} {k : ℕ} {post : Post}

theorem alertPost_eq_some_iff : alertPost W policies alerts k = some post ↔
    ∃ alert policy url secret, alerts[k]? = some alert ∧
      registerBudgets policies alert.agentId = some policy ∧
      policy.alertWebhookUrl = some url ∧ policy.alertWebhookSecret = some secret ∧
      signedPost W.hmac url secret (buildPayload W.format (W.nonce k) alert) = post := by
  simp only [alertPost, Option.bind_eq_bind, Option.bind_eq_some_iff, Option.pure_def,
    Option.some.injEq]
  constructor
  · intro h
    obtain ⟨alert, halert, policy, hpolicy, url, hurl, secret, hsecret, hpost⟩ := h
    exact ⟨alert, policy, url, secret, halert, hpolicy, hurl, hsecret, hpost⟩
  · intro h
    obtain ⟨alert, policy, url, secret, halert, hpolicy, hurl, hsecret, hpost⟩ := h
    exact ⟨alert, halert, policy, hpolicy, url, hurl, secret, hsecret, hpost⟩

theorem alertPost_append (h : alertPost W policies alerts k = some post)
    (more : List (BudgetAlert U)) : alertPost W policies (alerts ++ more) k = some post := by
  rw [alertPost_eq_some_iff] at h ⊢
  obtain ⟨alert, policy, url, secret, halert, hrest⟩ := h
  have hlt : k < alerts.length := (List.getElem?_eq_some_iff.mp halert).1
  exact ⟨alert, policy, url, secret, by rwa [List.getElem?_append_left hlt], hrest⟩

variable (W policies) in
/-- Every request is that of an alert, and each alert makes at most as many as its delivery has
made attempts. -/
structure WebhookOk (s : WebhookState U ι) : Prop where
  keyed : AlertsKeyed s.track
  sent : ∀ p ∈ s.posts, alertPost W policies s.track.alerts p.1 = some p.2
  guarded : ∀ p ∈ s.posts, assertUrlSafe W.reader p.2.url = .ok ()
  count : ∀ k, (s.posts.countP fun p => p.1 = k) ≤ (s.delivery k).attempts

theorem WebhookOk.track (h : WebhookOk W policies s) {t : TrackState U ι}
    (hadds : AddsAlert s.track t) : WebhookOk W policies { s with track := t } := by
  refine ⟨h.keyed.add hadds, ?_, h.guarded, h.count⟩
  intro p hp
  rcases hadds with ⟨halerts, -⟩ | ⟨a, halerts, -, -⟩
  · rw [halerts]
    exact h.sent p hp
  · rw [halerts]
    exact alertPost_append (h.sent p hp) [a]

/-- A delivery that ends without an attempt. -/
theorem WebhookOk.deliver (h : WebhookOk W policies s) {phase : DeliveryPhase}
    (hphase : (s.delivery k).attempts ≤ phase.attempts) :
    WebhookOk W policies (s.deliver k phase) := by
  refine ⟨h.keyed, h.sent, h.guarded, ?_⟩
  intro j
  by_cases hj : j = k
  · have hself : (s.deliver k phase).delivery j = phase := by
      rw [hj]
      exact Function.update_self ..
    rw [hself, hj]
    exact (h.count k).trans hphase
  · have hother : (s.deliver k phase).delivery j = s.delivery j := Function.update_of_ne hj ..
    rw [hother]
    exact h.count j

theorem attempts_afterAttempt {phase : DeliveryPhase}
    (hphase : phase = .pending ∨ phase = .sleeping)
    (fate : AlertFate) : phase.attempts + 1 ≤ (phase.afterAttempt fate).attempts := by
  by_cases hfate : fate = .delivered
  · rcases hphase with hphase | hphase
    · simp [hphase, hfate, DeliveryPhase.afterAttempt, DeliveryPhase.attempts]
    · simp [hphase, hfate, DeliveryPhase.afterAttempt, DeliveryPhase.attempts]
  · rcases hphase with hphase | hphase
    · simp [hphase, hfate, DeliveryPhase.afterAttempt, DeliveryPhase.attempts]
    · simp [hphase, hfate, DeliveryPhase.afterAttempt, DeliveryPhase.attempts]

theorem WebhookOk.attempt (h : WebhookOk W policies s)
    (hpost : alertPost W policies s.track.alerts k = some post)
    (hphase : s.delivery k = .pending ∨ s.delivery k = .sleeping)
    (hsafe : assertUrlSafe W.reader post.url = .ok ()) (fate : AlertFate) :
    WebhookOk W policies (s.attempt k post fate) := by
  have hmore := attempts_afterAttempt hphase fate
  have hquiet : WebhookOk W policies (s.deliver k ((s.delivery k).afterAttempt fate)) :=
    h.deliver (by omega)
  by_cases harrived : fate.arrived
  · have hposts : (s.attempt k post fate).posts = s.posts ++ [(k, post)] := if_pos harrived
    refine ⟨h.keyed, ?_, ?_, ?_⟩
    · rw [hposts]
      intro p hp
      rcases List.mem_append.mp hp with hp | hp
      · exact h.sent p hp
      · rw [List.mem_singleton.mp hp]
        exact hpost
    · rw [hposts]
      intro p hp
      rcases List.mem_append.mp hp with hp | hp
      · exact h.guarded p hp
      · rw [List.mem_singleton.mp hp]
        exact hsafe
    · intro j
      rw [hposts, List.countP_append]
      by_cases hj : j = k
      · have hone : [(k, post)].countP (fun p => p.1 = j) = 1 := by simp [hj]
        have hdelivery : (s.attempt k post fate).delivery j =
            (s.delivery k).afterAttempt fate := by
          rw [hj]
          exact Function.update_self ..
        rw [hone, hdelivery, hj]
        exact (Nat.add_le_add_right (h.count k) 1).trans hmore
      · have hnone : [(k, post)].countP (fun p => p.1 = j) = 0 := by simp [Ne.symm hj]
        rw [hnone]
        exact hquiet.count j
  · have hposts : (s.attempt k post fate).posts = s.posts := if_neg harrived
    refine ⟨h.keyed, ?_, ?_, ?_⟩
    · rw [hposts]
      exact h.sent
    · rw [hposts]
      exact h.guarded
    · rw [hposts]
      exact hquiet.count

/-- Requests about the same are made for one alert. -/
theorem WebhookOk.place_eq (h : WebhookOk W policies s) {p q : ℕ × Post} (hp : p ∈ s.posts)
    (hq : q ∈ s.posts) (habout : p.2.about = q.2.about) : p.1 = q.1 := by
  obtain ⟨a, -, url, secret, ha, -, -, -, hpost⟩ := alertPost_eq_some_iff.mp (h.sent p hp)
  obtain ⟨b, -, url', secret', hb, -, -, -, hpost'⟩ := alertPost_eq_some_iff.mp (h.sent q hq)
  rw [← hpost, ← hpost', about_signedPost, about_signedPost] at habout
  simp only [Prod.mk.injEq, Option.some.injEq, EmbeddingLike.apply_eq_iff_eq] at habout
  obtain ⟨hagent, hcap, hbucket⟩ := habout
  apply h.keyed.place_eq ha hb
  rw [BudgetAlert.key, BudgetAlert.key, hagent, hcap, hbucket]

theorem WebhookOk.post_eq (h : WebhookOk W policies s) {p q : ℕ × Post} (hp : p ∈ s.posts)
    (hq : q ∈ s.posts) (habout : p.2.about = q.2.about) : p.2 = q.2 := by
  have hplace := h.place_eq hp hq habout
  have hsent := h.sent p hp
  rw [hplace, h.sent q hq] at hsent
  exact (Option.some.inj hsent).symm

theorem attempts_le_two (phase : DeliveryPhase) : phase.attempts ≤ 2 := by
  rcases phase with - | - | ok | -
  · decide
  · decide
  · exact le_rfl
  · decide

theorem WebhookOk.countP_le (h : WebhookOk W policies s)
    (about : Option String × Option String × Option String) :
    (s.posts.countP fun p => p.2.about = about) ≤ 2 := by
  by_cases hsome : ∃ p ∈ s.posts, p.2.about = about
  · obtain ⟨p, hp, habout⟩ := hsome
    calc (s.posts.countP fun q => q.2.about = about)
        ≤ s.posts.countP fun q => q.1 = p.1 := by
          apply List.countP_mono_left
          intro q hq hsame
          have hsame' : q.2.about = about := by simpa using hsame
          simpa using h.place_eq hq hp (hsame'.trans habout.symm)
      _ ≤ (s.delivery p.1).attempts := h.count p.1
      _ ≤ 2 := attempts_le_two _
  · have hzero : (s.posts.countP fun p => p.2.about = about) = 0 := by
      rw [List.countP_eq_zero]
      intro p hp hsame
      exact hsome ⟨p, hp, by simpa using hsame⟩
    omega

variable (W policies) in
/-- What the receiver of a request can rely on. -/
structure PostOk (policy : AlertPolicy U) (secret : String) (p : Post) : Prop where
  registered : registerBudgets policies policy.agentId = some policy
  agent : p.entry "agent_id" = some policy.agentId
  url : policy.alertWebhookUrl = some p.url
  guarded : assertUrlSafe W.reader p.url = .ok ()
  signedWith : policy.alertWebhookSecret = some secret
  header : p.entry "signature" = some p.signatureHeader
  /-- the body verifies, whatever the order in which its entries are read -/
  verifies : ∀ r, r.Perm p.body → verifySignature W.hmac r secret p.signatureHeader = .ok true
  /-- nothing else does, unless it collides -/
  authentic : ∀ r, W.hmac.CollisionFreeOn secret.toUTF8.toList
      {canonicalJson p.body, canonicalJson r} →
    verifySignature W.hmac r secret p.signatureHeader = .ok true → SameContent r p.body

theorem WebhookOk.postOk (h : WebhookOk W policies s) {p : ℕ × Post} (hp : p ∈ s.posts) :
    ∃ policy secret, PostOk W policies policy secret p.2 := by
  obtain ⟨alert, policy, url, secret, -, hpolicy, hurl, hsecret, hpost⟩ :=
    alertPost_eq_some_iff.mp (h.sent p hp)
  have hagent : policy.agentId = alert.agentId := registerBudgets_agentId hpolicy
  have hguarded := h.guarded p hp
  rw [← hpost] at hguarded ⊢
  refine ⟨policy, secret, ?_⟩
  exact
    { registered := by rw [hagent, hpolicy]
      agent := by rw [hagent, entry_agentId]
      url := hurl
      guarded := hguarded
      signedWith := hsecret
      header := entry_signature alert
      verifies := fun r hr => verify_signedPost hr (nodup_buildPayload alert)
      authentic := fun r hfree => sameContent_of_verify hfree }

end Requests

section Runs

variable {U : Type} {ι : Type*} [DecidableEq ι]
variable [Zero U] [Add U] [Mul U] [Div U] [NatCast U] [LE U] [LT U] [DecidableLE U]
  [DecidableLT U]

theorem webhookOk_of_reachable {W : WebhookEnv U} {enabled : Bool}
    {policies : List (AlertPolicy U)} {calls : ι → TrackCall U} {s : WebhookState U ι}
    (h : (webhookSystem W enabled policies calls).Reachable s) :
    WebhookOk W policies s := by
  apply System.invariant (I := WebhookOk W policies) ?_ ?_ h
  · intro s hinit
    obtain ⟨⟨-, hfired, halerts, -⟩, hposts, -⟩ := hinit
    refine ⟨⟨?_, ?_⟩, ?_, ?_, ?_⟩
    · simp [halerts]
    · simp [halerts]
    · simp [hposts]
    · simp [hposts]
    · simp [hposts]
  · intro s t _ hs hstep
    cases hstep with
    | track t htrack => exact hs.track (addsAlert_step htrack)
    | refuse k post hpost hphase hrejected =>
        apply hs.deliver
        simp [hphase, DeliveryPhase.attempts]
    | noHttpx k post hpost hphase hsafe hmissing =>
        apply hs.deliver
        simp [hphase, DeliveryPhase.attempts]
    | attempt k post fate hpost hphase hsafe hhttpx => exact hs.attempt hpost hphase hsafe fate

/-- In every run of `track` calls and deliveries: each request went to the URL of its policy,
which passes the guard, and its receiver can verify it; for each agent, cap and day there are at
most two, and they are the same. -/
theorem alerts_on_the_wire (W : WebhookEnv U) (enabled : Bool) (policies : List (AlertPolicy U))
    (calls : ι → TrackCall U) {s : WebhookState U ι}
    (h : (webhookSystem W enabled policies calls).Reachable s) :
    (∀ p ∈ s.posts, ∃ policy secret, PostOk W policies policy secret p.2) ∧
      (∀ about, (s.posts.countP fun p => p.2.about = about) ≤ 2) ∧
      ∀ p ∈ s.posts, ∀ q ∈ s.posts, p.2.about = q.2.about → p.2 = q.2 := by
  have hok := webhookOk_of_reachable h
  refine ⟨fun p hp => hok.postOk hp, hok.countP_le, ?_⟩
  intro p hp q hq habout
  exact hok.post_eq hp hq habout

end Runs

/-! ### An alert that is delivered -/

/-- HMAC-SHA256 on the sample payload. -/
def webhookHmac : Audit.Hmac :=
  .ofTable
    [(("secret".toUTF8.toList,
      "\x7b\"agent_id\":\"agent-a\",\"cap_id\":\"per_agent_usd_daily\"," ++
      "\"cap_type\":\"per_agent_usd_daily\",\"cap_value\":10.0," ++
      "\"event\":\"budget.threshold_crossed\"," ++
      "\"nonce\":\"00112233445566778899aabbccddeeff\",\"period_bucket\":\"1970-01-01\"," ++
      "\"schema\":\"governance.cost.budget_alert/v1\",\"threshold_pct\":80," ++
      "\"timestamp\":\"1970-01-01T00:00:00+00:00\",\"used_pct\":90.0,\"used_value\":9.0\x7d"),
      0xe9a0e2c0df64caf35cc466dd2da96bb6241b9420b7c06e8b3ab20d41a8e8080b#256)]

/-- Whole dollars, and a clock that stands at the epoch. -/
def wholeDollars : PayloadFormat ℚ where
  float x := .fixed false (decimalDigits x.floor.toNat) [0]
  usedPct used cap := .fixed false (decimalDigits (100 * used / cap).floor.toNat) [0]
  bucket := ⟨fun day => "1970-01-01" ++ String.ofList (List.replicate day '+'), by
    intro day day' h
    have hlength := congrArg String.length h
    simpa using hlength⟩
  isoformat _ := "1970-01-01T00:00:00+00:00"

def webhookEnv : WebhookEnv ℚ where
  hmac := webhookHmac
  reader :=
    { parse := fun url =>
        if url = "https://hooks.example.com/budget" then some ("https", some "hooks.example.com")
        else none
      lower := id
      isPrivate := fun _ => none }
  format := wholeDollars
  nonce _ := "00112233445566778899aabbccddeeff"
  httpx := true

/-- The call has spent nine of ten dollars. -/
def spentState : WebhookState ℚ Unit :=
  ⟨moved (moved (moved (moved freshState))), fun _ => .pending, []⟩

theorem spentState_reachable :
    (webhookSystem webhookEnv true [tenDollars] nineDollars).Reachable spentState := by
  have hstart : (webhookSystem webhookEnv true [tenDollars] nineDollars).Reachable
      ⟨freshState, fun _ => .pending, []⟩ :=
    .start ⟨⟨rfl, rfl, rfl, rfl, fun _ => rfl⟩, rfl, fun _ => rfl⟩
  have hmove : ∀ s : TrackState ℚ Unit,
      (webhookSystem webhookEnv true [tenDollars] nineDollars).Reachable
        ⟨s, fun _ => .pending, []⟩ →
      (webhookSystem webhookEnv true [tenDollars] nineDollars).Reachable
        ⟨moved s, fun _ => .pending, []⟩ :=
    fun s hs => hs.next (.track ⟨s, fun _ => .pending, []⟩ _ (.resume s ()))
  exact hmove _ (hmove _ (hmove _ (hmove _ hstart)))

theorem alertPost_spentState :
    ∃ post, alertPost webhookEnv [tenDollars] spentState.track.alerts 0 = some post ∧
      post.url = "https://hooks.example.com/budget" := by
  have hagents : spentState.track.alerts.map (fun a => a.agentId) = ["agent-a"] := by
    decide +kernel
  obtain ⟨alert, halerts, hagent⟩ := List.map_eq_singleton_iff.mp hagents
  refine ⟨_, alertPost_eq_some_iff.mpr ⟨alert, tenDollars, _, _, ?_, ?_, rfl, rfl, rfl⟩, rfl⟩
  · rw [halerts]
    rfl
  · rw [hagent]
    rfl

/-- The receiver gets one request and can verify it. -/
theorem spent_alert_verifies :
    ∃ s : WebhookState ℚ Unit,
      (webhookSystem webhookEnv true [tenDollars] nineDollars).Reachable s ∧
      s.posts.length = 1 ∧
      (∀ p ∈ s.posts, ∃ policy secret, PostOk webhookEnv [tenDollars] policy secret p.2) ∧
      ∀ about, (s.posts.countP fun p => p.2.about = about) ≤ 2 := by
  obtain ⟨post, hpost, hurl⟩ := alertPost_spentState
  have hsafe : assertUrlSafe webhookEnv.reader post.url = .ok () := by
    rw [hurl]
    rfl
  have hreach := spentState_reachable.next
    (.attempt spentState 0 post .delivered hpost (Or.inl rfl) hsafe rfl)
  obtain ⟨hposts, hcount, -⟩ := alerts_on_the_wire webhookEnv true [tenDollars] nineDollars hreach
  exact ⟨_, hreach, rfl, hposts, hcount⟩

end AgenticGovernance.Cost

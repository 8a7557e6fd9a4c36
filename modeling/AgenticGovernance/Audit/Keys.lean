import Mathlib
import AgenticGovernance.Audit.Chain
import AgenticGovernance.Support.Window

/-!
# Chain keys: fingerprints, resolution and activation windows

The database knows a chain key only by its fingerprint.  A verifier resolves a
fingerprint to key bytes through a URI, and refuses bytes that do not have the
fingerprint it asked for.  The process environment and the files that the URIs
point to are the record `KeySource`; it does not change during a verification,
so the bounded cache in front of `_resolve_uri` does not show.

A key version is active in a half-open window of sequence numbers, and
`findActiveKeyAtSeq` picks the version for a row.
-/

namespace AgenticGovernance.Audit

open Support

def fingerprintContext : String := "codeatelier.fingerprint.v1"

def fingerprintKey (H : Hmac) (keyBytes : Bytes) : String :=
  H.hexdigest keyBytes fingerprintContext

@[simp] theorem length_fingerprintKey (H : Hmac) (key : Bytes) :
    (fingerprintKey H key).length = 64 :=
  length_digestText _

/-! ## Resolution -/

/-- What `_resolve_uri` reads: environment variables, and the files that exist
and can be read. -/
structure KeySource where
  environ : String → Option String
  readBytes : String → Option Bytes

def base64Digit (c : Char) : Option ℕ :=
  if 'A' ≤ c ∧ c ≤ 'Z' then some (c.toNat - 'A'.toNat)
  else if 'a' ≤ c ∧ c ≤ 'z' then some (c.toNat - 'a'.toNat + 26)
  else if '0' ≤ c ∧ c ≤ '9' then some (c.toNat - '0'.toNat + 52)
  else if c = '+' then some 62
  else if c = '/' then some 63
  else none

/-- `base64.b64decode(raw, validate=True)`; `none` stands for the exception. -/
def b64decode : List Char → Option Bytes
  | [] => some []
  | [a, b, '=', '='] => do
      let x ← base64Digit a
      let y ← base64Digit b
      some [.ofNat (x * 4 + y / 16)]
  | [a, b, c, '='] => do
      let x ← base64Digit a
      let y ← base64Digit b
      let z ← base64Digit c
      some [.ofNat (x * 4 + y / 16), .ofNat (y % 16 * 16 + z / 4)]
  | a :: b :: c :: d :: rest => do
      let x ← base64Digit a
      let y ← base64Digit b
      let z ← base64Digit c
      let w ← base64Digit d
      let tail ← b64decode rest
      some (.ofNat (x * 4 + y / 16) :: .ofNat (y % 16 * 16 + z / 4) ::
        .ofNat (z % 4 * 64 + w) :: tail)
  | _ => none

def envScheme : String := "env://"

def fileScheme : String := "file://"

/-- `uri[len(scheme):]` if the URI starts with the scheme. -/
def afterScheme (scheme uri : String) : Option String :=
  if scheme.toList.isPrefixOf uri.toList then
    some (String.ofList (uri.toList.drop scheme.toList.length))
  else
    none

def resolveUri (S : KeySource) (uri : String) : Option Bytes :=
  match afterScheme envScheme uri with
  | some varName =>
      match S.environ varName with
      | none => none
      | some raw =>
          if raw = "" then none
          else some ((b64decode raw.toList).getD raw.toUTF8.toList)
  | none =>
      match afterScheme fileScheme uri with
      | some path => S.readBytes path
      | none => none

/-- `_cached_resolve`: the bytes behind the URI, if they have the fingerprint. -/
def cachedResolve (H : Hmac) (S : KeySource) (fingerprint uri : String) : Option Bytes :=
  match resolveUri S uri with
  | none => none
  | some material =>
      if fingerprintKey H material ≠ fingerprint then none else some material

inductive KeyResolution where
  | resolved
  | unavailable
  deriving DecidableEq, Repr

structure ResolvedKey where
  fingerprint : String
  status : KeyResolution
  material : Option Bytes
  material_isSome : material.isSome ↔ status = .resolved

def resolveKey (H : Hmac) (S : KeySource) (fingerprint : String)
    (uriMap : String → Option String) : ResolvedKey :=
  match uriMap fingerprint with
  | none => ⟨fingerprint, .unavailable, none, by decide⟩
  | some uri =>
      if uri = "" then ⟨fingerprint, .unavailable, none, by decide⟩
      else
        match cachedResolve H S fingerprint uri with
        | none => ⟨fingerprint, .unavailable, none, by decide⟩
        | some material => ⟨fingerprint, .resolved, some material, by simp⟩

/-- The fingerprint of the key resolves to the key. -/
def Resolves (H : Hmac) (S : KeySource) (uriMap : String → Option String)
    (key : Bytes) : Prop :=
  (resolveKey H S (fingerprintKey H key) uriMap).material = some key

theorem Resolves.of_uri {H : Hmac} {S : KeySource} {uriMap : String → Option String}
    {key : Bytes} {uri : String} (hmap : uriMap (fingerprintKey H key) = some uri)
    (huri : uri ≠ "") (hkey : resolveUri S uri = some key) : Resolves H S uriMap key := by
  simp [Resolves, resolveKey, cachedResolve, hmap, huri, hkey]

/-- Resolved bytes have the fingerprint that was asked for. -/
theorem fingerprintKey_of_resolveKey {H : Hmac} {S : KeySource} {fingerprint : String}
    {uriMap : String → Option String} {key : Bytes}
    (h : (resolveKey H S fingerprint uriMap).material = some key) :
    fingerprintKey H key = fingerprint := by
  unfold resolveKey cachedResolve at h
  grind

/-! ## Activation windows -/

/-- A row of `governance_audit_chain_keys`. -/
structure KeyVersion where
  keyVersion : ℕ
  fingerprint : String
  activatedAtChainSeq : ℕ
  retiredAtChainSeq : Option ℕ
  deriving DecidableEq, Repr

def KeyVersion.window (kv : KeyVersion) : Window ℕ :=
  ⟨kv.activatedAtChainSeq, kv.retiredAtChainSeq⟩

/-- The candidates of `find_active_key_at_seq`. -/
def activeKeyCandidates (chainSeq : ℕ) (keyVersions : List KeyVersion) :
    List KeyVersion :=
  keyVersions.filter fun kv =>
    kv.activatedAtChainSeq ≤ chainSeq &&
      (kv.retiredAtChainSeq = none || kv.retiredAtChainSeq.any (chainSeq < ·))

/-- The latest activation wins, and the first of the list among equals. -/
def findActiveKeyAtSeq (chainSeq : ℕ) (keyVersions : List KeyVersion) :
    Option KeyVersion :=
  (activeKeyCandidates chainSeq keyVersions).argmax fun kv => kv.activatedAtChainSeq

theorem activeKeyCandidates_eq_coveringAt (chainSeq : ℕ) (keyVersions : List KeyVersion) :
    activeKeyCandidates chainSeq keyVersions =
      coveringAt KeyVersion.window keyVersions chainSeq := by
  apply List.filter_congr
  intro kv _
  by_cases hstart : kv.activatedAtChainSeq ≤ chainSeq
  · cases hstop : kv.retiredAtChainSeq with
    | none => simp [KeyVersion.window, Window.Covers, hstart, hstop]
    | some e => simp [KeyVersion.window, Window.Covers, hstart, hstop]
  · simp [KeyVersion.window, Window.Covers, hstart]

/-- A single candidate is found in any order of the versions. -/
theorem findActiveKeyAtSeq_of_perm {chainSeq : ℕ} {versions sorted : List KeyVersion}
    {kv : KeyVersion} (hperm : sorted.Perm versions)
    (h : activeKeyCandidates chainSeq versions = [kv]) :
    findActiveKeyAtSeq chainSeq sorted = some kv := by
  have hcand : activeKeyCandidates chainSeq sorted = [kv] := by
    apply List.perm_singleton.mp
    rw [← h]
    exact hperm.filter _
  rw [findActiveKeyAtSeq, hcand, List.argmax_singleton]

/-! ## HMACs with listed fingerprints -/

/-- An event payload is an object, and the fingerprint context is not. -/
theorem canonical_eventPayload_ne_context (c : EventContent) :
    (eventPayload c).canonical ≠ fingerprintContext := by
  intro h
  have hlist := congrArg String.toList h
  rw [Json.canonical, sortKeys_eventPayload, String.toList_ofList, Json.dumps,
    fingerprintContext] at hlist
  have hhead := congrArg List.head? hlist
  simp at hhead

/-- The HMAC with the listed fingerprints, and `H` on every other message. -/
def Hmac.withFingerprints (H : Hmac) (fingerprints : List (Bytes × BitVec 256)) : Hmac where
  digest key message :=
    if message = fingerprintContext then (fingerprints.lookup key).getD 0
    else H.digest key message

theorem fingerprintKey_withFingerprints (H : Hmac) {key : Bytes} {d : BitVec 256}
    {fingerprints : List (Bytes × BitVec 256)} (h : fingerprints.lookup key = some d) :
    fingerprintKey (H.withFingerprints fingerprints) key = digestText d := by
  simp [fingerprintKey, Hmac.hexdigest, Hmac.withFingerprints, h]

theorem computeEventHmac_withFingerprints (H : Hmac)
    (fingerprints : List (Bytes × BitVec 256)) (key : Bytes) (c : EventContent) :
    computeEventHmac (H.withFingerprints fingerprints) key c = computeEventHmac H key c := by
  apply congrArg digestText
  exact if_neg (canonical_eventPayload_ne_context c)

end AgenticGovernance.Audit

import Mathlib
import AgenticGovernance.Audit.Rotation

/-!
# Which rotation rows count as verified

A rotation marker is meant to need two keys: `hmac` under the outgoing one and
`hmac_next` under the incoming one, over one payload.  The loop of
`verify_chain_with_rotation` asks for both only if the row has an `hmac_next`,
and then over the payload of a marker, which leaves out the model and the two
hashes of the row.

`rotation_rows_dual_signed_iff` says on which inputs every rotation row that is
counted as verified carries both MACs of its own content.
-/

namespace AgenticGovernance.Audit

open Support

variable (H : Hmac) (S : KeySource) (versions : List KeyVersion)
  (uriMap : String → Option String)

/-- The loop counts the row in `verified`. -/
def countedVerified (row : ChainVerifyRow) : Bool :=
  match checkRow H S (sortVersions versions) uriMap row with
  | .ok .verified => true
  | _ => false

/-- The key that the verifier uses at a sequence number. -/
def keyActiveAt (chainSeq : ℕ) : Option (KeyVersion × Bytes) := do
  let version ← findActiveKeyAtSeq chainSeq (sortVersions versions)
  let key ← (resolveKey H S version.fingerprint uriMap).material
  return (version, key)

/-- `hmac` is the MAC of the row under the key active at its sequence number, and
`hmac_next` the MAC of the same payload under another key, active at the next. -/
def DualSigned (row : ChainVerifyRow) : Prop :=
  ∃ outgoing incoming : KeyVersion × Bytes,
    keyActiveAt H S versions uriMap row.chainSeq = some outgoing ∧
    keyActiveAt H S versions uriMap (row.chainSeq + 1) = some incoming ∧
    outgoing.2 ≠ incoming.2 ∧
    row.record.hmac = computeEventHmac H outgoing.2 row.record.toEventContent ∧
    row.hmacNext = some (computeEventHmac H incoming.2 row.record.toEventContent)

/-- The fields that the payload of a marker leaves out are empty. -/
def MarkerFieldsOnly (c : EventContent) : Prop :=
  c.model = none ∧ c.inputHash = none ∧ c.outputHash = none

/-- A row without `hmac_next` does not verify as an ordinary row, and a row with
one either has only the fields of a marker or does not verify as a marker. -/
def NoSingleKeyMarker (row : ChainVerifyRow) : Prop :=
  (row.hmacNext = none → ∀ outgoing,
    keyActiveAt H S versions uriMap row.chainSeq = some outgoing →
      verifyEvent H row.record outgoing.2 ≠ .ok true) ∧
  (∀ next, row.hmacNext = some next → MarkerFieldsOnly row.record.toEventContent ∨
    ∀ outgoing incoming,
      keyActiveAt H S versions uriMap row.chainSeq = some outgoing →
      keyActiveAt H S versions uriMap (row.chainSeq + 1) = some incoming →
      outgoing.1.fingerprint ≠ incoming.1.fingerprint →
        verifyRotationMarker H
          ⟨row.record, next, outgoing.1.fingerprint, incoming.1.fingerprint⟩
          outgoing.2 incoming.2 ≠ .ok true)

/-- The messages that the verifier recomputes for a list of rows. -/
def rowMessages (rows : List ChainVerifyRow) : Set String :=
  {m | ∃ row ∈ rows, m = (eventPayload row.record.toEventContent).canonical ∨
    m = (eventPayload row.record.asMarker).canonical}

variable {H S versions uriMap} {row : ChainVerifyRow}

theorem countedVerified_iff :
    countedVerified H S versions uriMap row = true ↔
      checkRow H S (sortVersions versions) uriMap row = .ok .verified := by
  rw [countedVerified]
  split
  · simp_all
  · simp_all

theorem keyActiveAt_eq_some_iff {n : ℕ} {version : KeyVersion} {key : Bytes} :
    keyActiveAt H S versions uriMap n = some (version, key) ↔
      findActiveKeyAtSeq n (sortVersions versions) = some version ∧
        (resolveKey H S version.fingerprint uriMap).material = some key := by
  simp only [keyActiveAt, Option.bind_eq_bind, Option.bind_eq_some_iff, Option.pure_def,
    Option.some.injEq, Prod.mk.injEq]
  constructor
  · rintro ⟨v, hv, k, hk, heq, hkey⟩
    subst heq hkey
    exact ⟨hv, hk⟩
  · rintro ⟨hv, hk⟩
    exact ⟨version, hv, key, hk, rfl, rfl⟩

/-- Keys with different fingerprints are different. -/
theorem key_ne_of_fingerprint_ne {n m : ℕ} {a b : KeyVersion × Bytes}
    (ha : keyActiveAt H S versions uriMap n = some a)
    (hb : keyActiveAt H S versions uriMap m = some b)
    (hne : a.1.fingerprint ≠ b.1.fingerprint) : a.2 ≠ b.2 := by
  intro heq
  have hfa := fingerprintKey_of_resolveKey (keyActiveAt_eq_some_iff.mp ha).2
  have hfb := fingerprintKey_of_resolveKey (keyActiveAt_eq_some_iff.mp hb).2
  exact hne (hfa.symm.trans ((congrArg (fingerprintKey H) heq).trans hfb))

/-! ## The two branches -/

theorem isMarker_of_kind (hkind : row.record.kind = keyRotationKind) :
    isMarker row = row.hmacNext.isSome := by
  simp [isMarker, hkind]

/-- A rotation row without `hmac_next` is checked as an ordinary row. -/
theorem countedVerified_of_hmacNext_none (hnext : row.hmacNext = none) :
    countedVerified H S versions uriMap row = true ↔
      ∃ outgoing, keyActiveAt H S versions uriMap row.chainSeq = some outgoing ∧
        verifyEvent H row.record outgoing.2 = .ok true := by
  have hmarker : isMarker row = false := by simp [isMarker, hnext]
  rw [countedVerified_iff, checkRow_eq_verified_iff]
  constructor
  · rintro ⟨active, secret, hfind, hkey, hcheck⟩
    rw [hmarker, if_neg (by simp)] at hcheck
    exact ⟨(active, secret), keyActiveAt_eq_some_iff.mpr ⟨hfind, hkey⟩,
      verifyEvent_eq_ok_true_iff.mpr hcheck⟩
  · rintro ⟨⟨active, secret⟩, hactive, hverify⟩
    obtain ⟨hfind, hkey⟩ := keyActiveAt_eq_some_iff.mp hactive
    refine ⟨active, secret, hfind, hkey, ?_⟩
    rw [hmarker, if_neg (by simp)]
    exact verifyEvent_eq_ok_true_iff.mp hverify

/-- A rotation row with `hmac_next` is checked as a marker. -/
theorem countedVerified_of_hmacNext_some (hkind : row.record.kind = keyRotationKind)
    {next : String} (hnext : row.hmacNext = some next) :
    countedVerified H S versions uriMap row = true ↔
      ∃ outgoing incoming,
        keyActiveAt H S versions uriMap row.chainSeq = some outgoing ∧
        keyActiveAt H S versions uriMap (row.chainSeq + 1) = some incoming ∧
        outgoing.1.fingerprint ≠ incoming.1.fingerprint ∧
        verifyRotationMarker H
          ⟨row.record, next, outgoing.1.fingerprint, incoming.1.fingerprint⟩
          outgoing.2 incoming.2 = .ok true := by
  have hmarker : isMarker row = true := by rw [isMarker_of_kind hkind, hnext]; rfl
  rw [countedVerified_iff, checkRow_eq_verified_iff]
  constructor
  · intro ⟨active, secret, hfind, hkey, hcheck⟩
    rw [hmarker, if_pos rfl, checkMarker_eq_verified_iff] at hcheck
    obtain ⟨incoming, out, inc, hfind', hne, hout, hinc, hmac, hmacNext⟩ := hcheck
    rw [hnext] at hmacNext
    refine ⟨(active, out), (incoming, inc), keyActiveAt_eq_some_iff.mpr ⟨hfind, hout⟩,
      keyActiveAt_eq_some_iff.mpr ⟨hfind', hinc⟩, Ne.symm hne, ?_⟩
    exact verifyRotationMarker_eq_ok_true_iff.mpr ⟨hmac, hmacNext⟩
  · intro ⟨⟨active, out⟩, ⟨incoming, inc⟩, hout, hinc, hne, hverify⟩
    obtain ⟨hfind, hkey⟩ := keyActiveAt_eq_some_iff.mp hout
    obtain ⟨hfind', hkey'⟩ := keyActiveAt_eq_some_iff.mp hinc
    obtain ⟨hmac, hmacNext⟩ := verifyRotationMarker_eq_ok_true_iff.mp hverify
    refine ⟨active, out, hfind, hkey, ?_⟩
    rw [hmarker, if_pos rfl, checkMarker_eq_verified_iff, hnext]
    exact ⟨incoming, out, inc, hfind', Ne.symm hne, hkey, hkey', hmac, hmacNext⟩

theorem asMarker_eq_self {c : EventContent} (hkind : c.kind = keyRotationKind)
    (h : MarkerFieldsOnly c) : c.asMarker = c := by
  obtain ⟨hmodel, hinput, houtput⟩ := h
  rw [EventContent.asMarker, rotationContent, ← hkind, ← hmodel]
  cases c
  simp_all

/-! ## One row -/

/-- A row that is counted meets the condition exactly if it is dual-signed. -/
theorem dualSigned_iff_of_countedVerified (hkind : row.record.kind = keyRotationKind)
    (hfree : ∀ key, H.CollisionFreeOn key
      {(eventPayload row.record.toEventContent).canonical,
        (eventPayload row.record.asMarker).canonical})
    (hcount : countedVerified H S versions uriMap row = true) :
    DualSigned H S versions uriMap row ↔ NoSingleKeyMarker H S versions uriMap row := by
  rcases hnext : row.hmacNext with _ | next
  · -- the row was accepted as an ordinary one
    obtain ⟨outgoing, hactive, hverify⟩ :=
      (countedVerified_of_hmacNext_none hnext).mp hcount
    constructor
    · intro ⟨_, _, _, _, _, _, hmacNext⟩
      rw [hnext] at hmacNext
      cases hmacNext
    · intro hsafe
      exact absurd hverify (hsafe.1 hnext outgoing hactive)
  · obtain ⟨outgoing, incoming, hout, hinc, hne, hverify⟩ :=
      (countedVerified_of_hmacNext_some hkind hnext).mp hcount
    obtain ⟨hmac, hmacNext⟩ := verifyRotationMarker_eq_ok_true_iff.mp hverify
    constructor
    · intro ⟨outgoing', incoming', hout', _, _, hmac', _⟩
      refine ⟨fun hnone => absurd hnone (by rw [hnext]; simp), ?_⟩
      intro _ _
      left
      rw [hout] at hout'
      obtain rfl := Option.some.inj hout'
      have hsame := hfree outgoing.2 (Set.mem_insert _ _)
        (Set.mem_insert_of_mem _ (Set.mem_singleton _)) (hmac'.symm.trans hmac)
      have hfields := eventPayload_inj hsame
      exact ⟨hfields.model, hfields.inputHash, hfields.outputHash⟩
    · intro hsafe
      rcases hsafe.2 next hnext with hfields | hreject
      · rw [asMarker_eq_self hkind hfields] at hmac hmacNext
        exact ⟨outgoing, incoming, hout, hinc, key_ne_of_fingerprint_ne hout hinc hne,
          hmac, hnext.trans (congrArg some hmacNext)⟩
      · exact absurd hverify (hreject outgoing incoming hout hinc hne)

theorem countedVerified_of_not_safe (hkind : row.record.kind = keyRotationKind)
    (h : ¬NoSingleKeyMarker H S versions uriMap row) :
    countedVerified H S versions uriMap row = true := by
  by_contra hcount
  apply h
  refine ⟨?_, ?_⟩
  · intro hnext outgoing hactive hverify
    exact hcount ((countedVerified_of_hmacNext_none hnext).mpr ⟨outgoing, hactive, hverify⟩)
  · intro next hnext
    right
    intro outgoing incoming hout hinc hne hverify
    exact hcount ((countedVerified_of_hmacNext_some hkind hnext).mpr
      ⟨outgoing, incoming, hout, hinc, hne, hverify⟩)

/-! ## Lists of rows -/

/-- The `verified` counter is the number of rows counted as verified. -/
theorem foldlM_tallyRow_verified {rows : List ChainVerifyRow} {t t' : Tally}
    (h : rows.foldlM (tallyRow H S (sortVersions versions) uriMap) t = .ok t') :
    t'.verified = t.verified + rows.countP (countedVerified H S versions uriMap) := by
  induction rows generalizing t with
  | nil =>
      cases h
      simp
  | cons row rows ih =>
      rw [List.foldlM_cons] at h
      rcases hrow : tallyRow H S (sortVersions versions) uriMap t row with e | next
      · rw [hrow] at h
        cases h
      · rw [hrow] at h
        obtain ⟨o, hcheck, rfl⟩ := tallyRow_eq_ok_iff.mp hrow
        rw [ih h, List.countP_cons, countedVerified, hcheck]
        rcases o with _ | _ | _
        · simp [Tally.add]
          omega
        · simp [Tally.add]
        · simp [Tally.add]

theorem verified_eq_countP {rows : List ChainVerifyRow} {result : ChainVerifyResult}
    (h : verifyChainWithRotation H S rows versions uriMap = .ok result) :
    result.verified = rows.countP (countedVerified H S versions uriMap) := by
  rw [verifyChainWithRotation] at h
  rcases hfold : rows.foldlM (tallyRow H S (sortVersions versions) uriMap) Tally.zero with
    e | tally
  · rw [hfold] at h
    cases h
  · rw [hfold] at h
    cases h
    exact (foldlM_tallyRow_verified hfold).trans (Nat.zero_add _)

/-- `verify_chain_with_rotation` counts rotation rows as verified; each of them is
signed under both keys exactly if no rotation row is of the kind that one key can
produce. -/
theorem rotation_rows_dual_signed_iff {rows : List ChainVerifyRow}
    (hfree : ∀ key, H.CollisionFreeOn key (rowMessages rows)) :
    (∀ result, verifyChainWithRotation H S rows versions uriMap = .ok result →
      result.verified = rows.countP (countedVerified H S versions uriMap)) ∧
    ((∀ row ∈ rows, row.record.kind = keyRotationKind →
        countedVerified H S versions uriMap row = true →
          DualSigned H S versions uriMap row) ↔
      ∀ row ∈ rows, row.record.kind = keyRotationKind →
        NoSingleKeyMarker H S versions uriMap row) := by
  have hrow : ∀ row ∈ rows, ∀ key, H.CollisionFreeOn key
      {(eventPayload row.record.toEventContent).canonical,
        (eventPayload row.record.asMarker).canonical} := by
    intro row hmem key
    apply (hfree key).mono
    intro m hm
    exact ⟨row, hmem, hm⟩
  refine ⟨fun _ hrun => verified_eq_countP hrun, ?_, ?_⟩
  · intro h row hmem hkind
    by_contra hunsafe
    have hcount := countedVerified_of_not_safe hkind hunsafe
    exact hunsafe ((dualSigned_iff_of_countedVerified hkind (hrow row hmem) hcount).mp
      (h row hmem hkind hcount))
  · intro h row hmem hkind hcount
    exact (dualSigned_iff_of_countedVerified hkind (hrow row hmem) hcount).mpr
      (h row hmem hkind)

/-! ### A marker with and without its second MAC -/

/-- The sample marker as a row, with or without `hmac_next`. -/
def sampleMarkerRow (dual : Bool) : ChainVerifyRow where
  chainSeq := 2
  record := sampleMarkerRecord false
  hmacNext :=
    if dual then some (computeEventHmac rotationHmac sampleIncoming (sampleMarker false))
    else none

theorem sampleMarkerRow_outgoing :
    keyActiveAt rotationHmac sampleKeySource (sampleRotated false).keyVersions sampleUriMap
      2 = some (⟨1, fingerprintKey rotationHmac sampleSecret, 0, some 3⟩, sampleSecret) :=
  keyActiveAt_eq_some_iff.mpr
    ⟨findActiveKeyAtSeq_of_perm (perm_sortVersions _) rfl, sample_resolves₁⟩

theorem sampleMarkerRow_incoming :
    keyActiveAt rotationHmac sampleKeySource (sampleRotated false).keyVersions sampleUriMap
      3 = some (⟨2, fingerprintKey rotationHmac sampleIncoming, 3, none⟩, sampleIncoming) :=
  keyActiveAt_eq_some_iff.mpr
    ⟨findActiveKeyAtSeq_of_perm (perm_sortVersions _) rfl, sample_resolves₂⟩

/-- A rotation row that carries one MAC, under the outgoing key, is counted. -/
theorem sample_single_key_marker_counted :
    verifyChainWithRotation rotationHmac sampleKeySource [sampleMarkerRow false]
      (sampleRotated false).keyVersions sampleUriMap = .ok ⟨1, 0, 0, .ok, []⟩ ∧
    (sampleMarkerRow false).record.kind = keyRotationKind ∧
    ¬DualSigned rotationHmac sampleKeySource (sampleRotated false).keyVersions sampleUriMap
      (sampleMarkerRow false) := by
  refine ⟨?_, rfl, ?_⟩
  · apply verifyChainWithRotation_of_verified
    intro row hrow
    rw [List.mem_singleton.mp hrow, ← countedVerified_iff,
      countedVerified_of_hmacNext_none rfl]
    refine ⟨_, sampleMarkerRow_outgoing, verifyEvent_eq_ok_true_iff.mpr ?_⟩
    exact (rotation_hmac_marker false).symm
  · intro ⟨_, _, _, _, _, _, hmacNext⟩
    cases hmacNext

/-- The marker with its second MAC is dual-signed. -/
theorem sample_marker_dual_signed :
    DualSigned rotationHmac sampleKeySource (sampleRotated false).keyVersions sampleUriMap
      (sampleMarkerRow true) := by
  have hkind : (sampleMarkerRow true).record.kind = keyRotationKind := rfl
  have hnext : (sampleMarkerRow true).hmacNext =
      some (computeEventHmac rotationHmac sampleIncoming (sampleMarker false)) := rfl
  have hfree : ∀ key, rotationHmac.CollisionFreeOn key
      (rowMessages [sampleMarkerRow true]) := by
    have hone : ∀ m ∈ rowMessages [sampleMarkerRow true],
        m = (eventPayload (sampleMarker false)).canonical := by
      intro m ⟨row, hrow, hm⟩
      rw [List.mem_singleton.mp hrow] at hm
      exact hm.elim id id
    intro key m hm n hn _
    rw [hone m hm, hone n hn]
  apply ((rotation_rows_dual_signed_iff hfree).2.mpr ?_) (sampleMarkerRow true) (by simp)
    hkind
  · rw [countedVerified_of_hmacNext_some hkind hnext]
    refine ⟨_, _, sampleMarkerRow_outgoing, sampleMarkerRow_incoming, ?_, ?_⟩
    · change fingerprintKey rotationHmac sampleSecret ≠
        fingerprintKey rotationHmac sampleIncoming
      rw [rotation_fingerprint₁, rotation_fingerprint₂]
      exact Ne.symm sampleFingerprint_ne
    · rw [verifyRotationMarker_eq_ok_true_iff]
      exact ⟨(rotation_hmac_marker false).symm, rfl⟩
  · intro row hrow _
    rw [List.mem_singleton.mp hrow]
    refine ⟨fun hnone => absurd hnone (by rw [hnext]; simp), ?_⟩
    intro next _
    exact Or.inl ⟨rfl, rfl, rfl⟩

end AgenticGovernance.Audit

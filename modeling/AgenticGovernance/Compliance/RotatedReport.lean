import Mathlib
import AgenticGovernance.Compliance.ReadRows

/-!
# Reports over rotated histories

A history is extended by ordinary inserts, which continue the chain of their
session, and by rotations, whose marker names the last row of the whole table.
The report checks links session by session.  So a marker passes if the row before
it belongs to its session, or if the window is cut off so that it shows no earlier
row of that session; `MarkersPlaced` is this condition.  The MACs are checked over the
metadata that comes back from JSONB, so that the floats of the shown rows have to be
plain.  `rotated_history_reported` says that the report depends on nothing else.
-/

namespace AgenticGovernance.Compliance

open Support Audit

/-- Ordinary rows are inserted by `insert_with_chain_lock`, on top of the latest
row of their session. -/
def ChainedAppend (s t : History) : Prop :=
  ∀ record, t = s.append record →
    record.prevHash = latestHmac s.tables.rows record.sessionId

/-- Session chains and sequential rotations, from one registered key. -/
def chainedHistory (H : Hmac) (B : Bootstrap) : System History :=
  (rotationHistory H B).along ChainedAppend

/-- The report of a process that reads Postgres and holds the current key. -/
def postgresReport (C : ColumnTypes) (s : History) : ReportGenerator where
  database := some (readTables C s.tables)
  auditStore := none
  secret := s.current
  allRecords := []

/-! ## How the rows are threaded -/

/-- In `chain_seq` order, an ordinary row names the row before it in its session,
and a marker the row before it in the table. -/
structure Threaded (rows : List AuditRow) : Prop where
  increasing : rows.Pairwise fun a b => a.chainSeq < b.chainSeq
  ordinary : ∀ before row after, rows = before ++ row :: after → row.hmacNext = none →
    row.record.prevHash =
      (sessionRows before row.record.sessionId).getLast?.map fun r => r.record.hmac
  marker : ∀ before row after, rows = before ++ row :: after → row.hmacNext ≠ none →
    row.record.prevHash = before.getLast?.map fun r => r.record.hmac

variable {C : ColumnTypes} {H : Hmac} {B : Bootstrap} {s t : History} {rows : List AuditRow}

theorem Threaded.concat (h : Threaded rows) {row : AuditRow}
    (hlater : ∀ old ∈ rows, old.chainSeq < row.chainSeq)
    (hordinary : row.hmacNext = none → row.record.prevHash =
      (sessionRows rows row.record.sessionId).getLast?.map fun r => r.record.hmac)
    (hmarker : row.hmacNext ≠ none →
      row.record.prevHash = rows.getLast?.map fun r => r.record.hmac) :
    Threaded (rows ++ [row]) where
  increasing := by
    rw [List.pairwise_append]
    refine ⟨h.increasing, List.pairwise_singleton _ _, ?_⟩
    intro old hold x hx
    rw [List.mem_singleton.mp hx]
    exact hlater old hold
  ordinary := by
    intro before x after hsplit
    rcases append_singleton_eq_append_cons hsplit with ⟨rfl, rfl, -⟩ | ⟨init, -, hold⟩
    · exact hordinary
    · exact h.ordinary before x init hold
  marker := by
    intro before x after hsplit
    rcases append_singleton_eq_append_cons hsplit with ⟨rfl, rfl, -⟩ | ⟨init, -, hold⟩
    · exact hmarker
    · exact h.marker before x init hold

theorem Threaded.latestHmac_eq (h : Threaded rows) (sid : Uuid) :
    latestHmac rows sid = (sessionRows rows sid).getLast?.map fun r => r.record.hmac := by
  have hsession : (sessionRows rows sid).Pairwise fun a b => a.chainSeq < b.chainSeq :=
    h.increasing.filter _
  rw [latestHmac, argmax_chainSeq_eq_getLast? hsession]

theorem Threaded.headHmac_eq (h : Threaded rows) :
    headHmac rows = rows.getLast?.map fun r => r.record.hmac := by
  rw [headHmac, argmax_chainSeq_eq_getLast? h.increasing]

/-- The state of a chained history: its rows are threaded, and the key has not
changed unless a row says so. -/
structure ChainedOk (H : Hmac) (B : Bootstrap) (s : History) : Prop where
  history : HistoryOk H B.activation s
  threaded : Threaded s.tables.rows
  unrotated : (∀ row ∈ s.tables.rows, row.record.kind ≠ keyRotationKind) →
    ∀ n, s.keyAt n = s.current

theorem ChainedOk.step (h : ChainedOk H B s) (hstep : HistoryStep H s t)
    (hchained : ChainedAppend s t) : ChainedOk H B t := by
  refine ⟨h.history.step hstep, ?_, ?_⟩
  · cases hstep with
    | append record hsigned hfresh =>
        apply h.threaded.concat
        · exact fun old hold => (h.history.bounds old hold).2
        · intro _
          exact (hchained record rfl).trans (h.threaded.latestHmac_eq _)
        · intro hnext
          exact absurd rfl hnext
    | burn seqs versions => exact h.threaded
    | rotate req eventId createdAt T result hcurrent hrotate =>
        obtain ⟨marker, hr⟩ := rotateChainKey_eq_ok hrotate
        change Threaded T.rows
        rw [hr.rows]
        apply h.threaded.concat
        · exact fun old hold => (h.history.bounds old hold).2
        · intro hnext
          cases hnext
        · intro _
          have hprev : marker.prevHash = headHmac s.tables.rows := by
            rw [hr.fields]
            rfl
          exact hprev.trans h.threaded.headHmac_eq
  · intro hkinds
    cases hstep with
    | append record hsigned hfresh =>
        have hold := h.unrotated fun row hrow => hkinds row (List.mem_append_left _ hrow)
        exact fun n => (hold n).trans (hold _).symm
    | burn seqs versions =>
        have hold := h.unrotated hkinds
        exact fun n => (hold n).trans (hold _).symm
    | rotate req eventId createdAt T result hcurrent hrotate =>
        obtain ⟨marker, hr⟩ := rotateChainKey_eq_ok hrotate
        have hkind : marker.kind = keyRotationKind := by
          rw [hr.fields]
          rfl
        have hmem : ⟨s.tables.nextSeq, marker,
            some (computeEventHmac H req.incomingSecret marker.toEventContent)⟩ ∈ T.rows := by
          rw [hr.rows]
          exact List.mem_append_right _ (List.mem_singleton.mpr rfl)
        exact absurd hkind (hkinds _ hmem)

theorem ChainedOk.of_reachable (h : (chainedHistory H B).Reachable s) : ChainedOk H B s := by
  refine System.invariant (I := ChainedOk H B) ?_ ?_ h
  · rintro s rfl
    refine ⟨.start H B, ⟨List.Pairwise.nil, ?_, ?_⟩, fun _ _ => rfl⟩
    · intro before row after hsplit
      simp [History.start] at hsplit
    · intro before row after hsplit
      simp [History.start] at hsplit
  · rintro s t - hs ⟨hstep, hchained⟩
    exact hs.step hstep hchained

/-! ## What the window shows -/

/-- The shown rows of one session. -/
def shownOf (start : ℕ) (rows : List AuditRow) (sid : Uuid) : List AuditRow :=
  rows.filter fun row => row.record.sessionId = sid && start ≤ row.chainSeq

/-- Each shown row names the shown row before it in its session, and the first one
of a session names none if the window starts at zero. -/
def LinksShown (start : ℕ) (rows : List AuditRow) : Prop :=
  ∀ before row after, rows = before ++ row :: after → start ≤ row.chainSeq →
    (shownOf start before row.record.sessionId = [] → start = 0 →
      row.record.prevHash = none) ∧
    ∀ q, (shownOf start before row.record.sessionId).getLast? = some q →
      row.record.prevHash = some q.record.hmac

theorem sessionRecords_shown (start : ℕ) (rows : List AuditRow) (sid : Uuid) :
    sessionRecords ((shown start rows).map fun row => row.record) sid =
      (shownOf start rows sid).map fun row => row.record := by
  rw [sessionRecords, shown, List.filter_map, List.filter_filter]
  rfl

/-- The linkage check of the report, in terms of the rows. -/
theorem checkPerSessionLinkage_shown_iff {start : ℕ} :
    checkPerSessionLinkage ((shown start rows).map fun row => row.record)
        (assertsGenesis (some start)) = none ↔ LinksShown start rows := by
  have hgenesis : assertsGenesis (some start) = true ↔ start = 0 := by
    simp [assertsGenesis]
  have hsession : ∀ sid, (∃ p, ChainFrom p (sessionRecords
      ((shown start rows).map fun row => row.record) sid) ∧
        (assertsGenesis (some start) = true → p = none)) ↔
      ∀ before row after, shownOf start rows sid = before ++ row :: after →
        (before = [] → start = 0 → row.record.prevHash = none) ∧
          ∀ q, before.getLast? = some q → row.record.prevHash = some q.record.hmac := by
    intro sid
    simp only [sessionRecords_shown, ChainFrom, linkedFrom_map, hgenesis]
    exact exists_linkedFrom_iff _
  rw [checkPerSessionLinkage_eq_none_iff]
  simp only [hsession]
  constructor
  · intro h before row after hsplit hstart
    apply h row.record.sessionId _ row (shownOf start after row.record.sessionId)
    rw [hsplit, shownOf, List.filter_append, List.filter_cons_of_pos (by simp [hstart])]
    rfl
  · intro h sid before row after hsplit
    obtain ⟨pre, post, hrows, hrow, rfl, -⟩ := filter_eq_append_cons_iff.mp hsplit
    rw [Bool.and_eq_true, decide_eq_true_eq, decide_eq_true_eq] at hrow
    obtain ⟨rfl, hstart⟩ := hrow
    exact h pre row post hrows hstart

/-- Every shown marker either follows a row of its own session, if any row, or is
the first shown row of its session in a window that does not start at zero. -/
def MarkersPlaced (start : ℕ) (rows : List AuditRow) : Prop :=
  ∀ before row after, rows = before ++ row :: after → row.hmacNext ≠ none →
    start ≤ row.chainSeq →
    (∀ last, before.getLast? = some last →
      last.record.sessionId = row.record.sessionId) ∨
    (0 < start ∧ ∀ x ∈ before, start ≤ x.chainSeq →
      x.record.sessionId ≠ row.record.sessionId)

theorem shownOf_eq_nil_iff {start : ℕ} {before : List AuditRow} {sid : Uuid} :
    shownOf start before sid = [] ↔
      ∀ x ∈ before, start ≤ x.chainSeq → x.record.sessionId ≠ sid := by
  simp only [shownOf, List.filter_eq_nil_iff, Bool.and_eq_true, decide_eq_true_eq, not_and]
  exact forall₂_congr fun x _ => ⟨fun h hx hsid => h hsid hx, fun h hsid hx => h hx hsid⟩

/-- The last shown row of a session is the last row of the session. -/
theorem Threaded.getLast?_sessionRows (h : Threaded rows) {before after : List AuditRow}
    (hrows : rows = before ++ after) {start : ℕ} {sid : Uuid} {q : AuditRow}
    (hq : (shownOf start before sid).getLast? = some q) :
    (sessionRows before sid).getLast? = some q := by
  have hincreasing := h.increasing
  rw [hrows, List.pairwise_append] at hincreasing
  have hsplit : shownOf start before sid =
      (sessionRows before sid).filter fun row => start ≤ row.chainSeq := by
    rw [sessionRows, List.filter_filter, shownOf]
    apply List.filter_congr
    intro x _
    exact Bool.and_comm _ _
  rw [hsplit] at hq
  apply getLast?_of_getLast?_filter _ hq
  apply (hincreasing.1.filter _).imp
  intro a b hab ha
  rw [decide_eq_true_eq] at ha ⊢
  omega

/-- Ordinary rows always pass. -/
theorem Threaded.ordinary_links (h : Threaded rows) {start : ℕ}
    {before after : List AuditRow} {row : AuditRow} (hrows : rows = before ++ row :: after)
    (hordinary : row.hmacNext = none) :
    (shownOf start before row.record.sessionId = [] → start = 0 →
      row.record.prevHash = none) ∧
    ∀ q, (shownOf start before row.record.sessionId).getLast? = some q →
      row.record.prevHash = some q.record.hmac := by
  rw [h.ordinary before row after hrows hordinary]
  constructor
  · rintro hnil rfl
    have hnone : sessionRows before row.record.sessionId = [] := by
      rw [sessionRows, List.filter_eq_nil_iff]
      intro x hx hsid
      exact shownOf_eq_nil_iff.mp hnil x hx (Nat.zero_le _) (by simpa using hsid)
    rw [hnone]
    rfl
  · intro q hq
    rw [h.getLast?_sessionRows hrows hq]
    rfl

/-- A placed marker passes. -/
theorem Threaded.marker_links (h : Threaded rows) {start : ℕ}
    {before after : List AuditRow} {row : AuditRow} (hrows : rows = before ++ row :: after)
    (hmarker : row.hmacNext ≠ none)
    (hplaced : (∀ last, before.getLast? = some last →
        last.record.sessionId = row.record.sessionId) ∨
      (0 < start ∧ ∀ x ∈ before, start ≤ x.chainSeq →
        x.record.sessionId ≠ row.record.sessionId)) :
    (shownOf start before row.record.sessionId = [] → start = 0 →
      row.record.prevHash = none) ∧
    ∀ q, (shownOf start before row.record.sessionId).getLast? = some q →
      row.record.prevHash = some q.record.hmac := by
  rw [h.marker before row after hrows hmarker]
  rcases hplaced with hsame | ⟨hpos, hfirst⟩
  · rcases before.eq_nil_or_concat' with rfl | ⟨init, last, rfl⟩
    · exact ⟨fun _ _ => rfl, by rintro q ⟨⟩⟩
    · have hlast := hsame last (by simp)
      constructor
      · rintro hnil rfl
        exact absurd hlast
          (shownOf_eq_nil_iff.mp hnil last (by simp) (Nat.zero_le _))
      · intro q hq
        have hsession := h.getLast?_sessionRows hrows hq
        rw [sessionRows, List.filter_append, List.filter_singleton,
          decide_eq_true hlast] at hsession
        have heq : last = q := by simpa using hsession
        rw [heq, List.getLast?_concat, Option.map_some]
  · rw [shownOf_eq_nil_iff.mpr hfirst]
    exact ⟨fun _ hzero => absurd hzero (by omega), by rintro q ⟨⟩⟩

theorem Threaded.linksShown_of_placed (h : Threaded rows) {start : ℕ}
    (hplaced : MarkersPlaced start rows) : LinksShown start rows := by
  intro before row after hrows hstart
  by_cases hmarker : row.hmacNext = none
  · exact h.ordinary_links hrows hmarker
  · exact h.marker_links hrows hmarker (hplaced before row after hrows hmarker hstart)

/-- Conversely, if no two rows share an HMAC, a marker passes only if it is placed. -/
theorem Threaded.placed_of_linksShown (h : Threaded rows) {start : ℕ}
    (hdistinct : (rows.map fun row => row.record.hmac).Nodup)
    (hlinks : LinksShown start rows) : MarkersPlaced start rows := by
  intro before row after hrows hmarker hstart
  obtain ⟨hgenesis, hlinked⟩ := hlinks before row after hrows hstart
  rw [h.marker before row after hrows hmarker] at hgenesis hlinked
  rcases before.eq_nil_or_concat' with rfl | ⟨init, last, rfl⟩
  · exact Or.inl (by rintro last ⟨⟩)
  · by_cases hsame : last.record.sessionId = row.record.sessionId
    · refine Or.inl ?_
      intro x hx
      rw [List.getLast?_concat, Option.some.injEq] at hx
      rw [← hx]
      exact hsame
    · refine Or.inr ?_
      have hnil : shownOf start (init ++ [last]) row.record.sessionId = [] := by
        rw [← List.getLast?_eq_none_iff, Option.eq_none_iff_forall_ne_some]
        intro q hq
        have hhmac := hlinked q hq
        rw [List.getLast?_concat, Option.map_some, Option.some.injEq] at hhmac
        have hmem := List.mem_of_getLast? hq
        simp only [shownOf, List.mem_filter, Bool.and_eq_true, decide_eq_true_eq] at hmem
        -- the same HMAC is the same row, which would be of the marker's session
        have heq : last = q := by
          apply List.inj_on_of_nodup_map hdistinct _ _ hhmac
          · rw [hrows]
            simp
          · rw [hrows]
            exact List.mem_append_left _ hmem.1
        exact hsame (heq ▸ hmem.2.1)
      refine ⟨?_, shownOf_eq_nil_iff.mp hnil⟩
      rw [Nat.pos_iff_ne_zero]
      intro hzero
      have hnone := hgenesis hnil hzero
      simp at hnone

/-! ## The report -/

theorem Threaded.loadChainRows_eq (h : Threaded s.tables.rows) {head : ℕ}
    (hle : ∀ row ∈ s.tables.rows, row.chainSeq ≤ head) (start : ℕ) :
    (postgresReport C s).loadChainRows (some start) (some head) =
      (shown start s.tables.rows).map (readRow C) := by
  have hfilter : s.tables.rows.filter (inWindow (some start) (some head)) =
      shown start s.tables.rows := by
    apply List.filter_congr
    intro row hrow
    simp [inWindow, hle row hrow]
  rw [loadChainRows_readTables rfl, windowRows, hfilter, List.Pairwise.insertionSort_eq]
  exact (h.increasing.filter _).imp fun hlt => le_of_lt hlt

variable {S : KeySource}

/-- The status that the report gives with the default window. -/
def reportedStatus (C : ColumnTypes) (H : Hmac) (S : KeySource) (s : History) :
    Except PyError ChainIntegrityStatus :=
  ((postgresReport C s).runChainVerification H S none none).map fun v => v.status

theorem reportedStatus_of_empty (hnil : s.tables.rows = []) :
    reportedStatus C H S s ≠ .ok .verified := by
  have hload : (postgresReport C s).loadChainRows none none = [] := by
    rw [loadChainRows_readTables rfl, hnil]
    rfl
  have hhead : (postgresReport C s).currentChainHead = none := by
    change ((readTables C s.tables).rows.map fun row => row.chainSeq).max? = none
    rw [chainSeqs_readTables, hnil]
    rfl
  have hwindow : (postgresReport C s).window none none = (none, none) := by
    simp [ReportGenerator.window, hhead]
  intro hverified
  exact ((status_eq_verified_iff rfl hwindow).mp hverified).1 hload

/-- The MACs of the shown rows hold for what is read. -/
def MacsHold (C : ColumnTypes) (H : Hmac) (S : KeySource) (s : History)
    (rows : List AuditRow) : Prop :=
  if (postgresReport C s).hasRotationMarkers then
    ∀ row ∈ rows, checkRow H S (sortVersions (postgresReport C s).loadKeyVersions)
      ((postgresReport C s).buildUriMap S) (readRow C row) = .ok .verified
  else ∀ row ∈ rows, verifyEvent H (C.rowToRecord row.record) s.current = .ok true

/-- The default window shows the rows from its start on, one of them at least. -/
theorem ChainedOk.window_eq (h : ChainedOk H B s) (hne : s.tables.rows ≠ []) :
    ∃ head, (postgresReport C s).window none none =
        (some (windowStart s.tables.rows), some head) ∧
      (postgresReport C s).loadChainRows (some (windowStart s.tables.rows)) (some head) =
        (shown (windowStart s.tables.rows) s.tables.rows).map (readRow C) ∧
      shown (windowStart s.tables.rows) s.tables.rows ≠ [] := by
  obtain ⟨head, hhead, hle, last, hlast, hseq⟩ := exists_head hne
  have hcurrent : (postgresReport C s).currentChainHead = some head := by
    change ((readTables C s.tables).rows.map fun row => row.chainSeq).max? = some head
    rw [chainSeqs_readTables, hhead]
  refine ⟨head, ?_, h.threaded.loadChainRows_eq hle _, ?_⟩
  · simp only [ReportGenerator.window, hcurrent, windowStart, hhead]
    rfl
  · apply List.ne_nil_of_mem (a := last)
    rw [shown, List.mem_filter, decide_eq_true_eq, hseq, windowStart, hhead]
    exact ⟨hlast, Nat.sub_le _ _⟩

/-- The report on a history with a row is verified when the MACs of the shown rows hold and
their links do. -/
theorem ChainedOk.reportedStatus_iff (h : ChainedOk H B s) (hne : s.tables.rows ≠ []) :
    reportedStatus C H S s = .ok .verified ↔
      MacsHold C H S s (shown (windowStart s.tables.rows) s.tables.rows) ∧
        checkPerSessionLinkage
          ((shown (windowStart s.tables.rows) s.tables.rows).map fun row => row.record)
          (assertsGenesis (some (windowStart s.tables.rows))) = none := by
  obtain ⟨head, hwindow, hload, hshown⟩ := h.window_eq (C := C) hne
  rw [reportedStatus, status_eq_verified_iff rfl hwindow, hload, records_map_readRow,
    checkPerSessionLinkage_read_iff, List.forall_mem_map, List.forall_mem_map, ne_eq,
    List.map_eq_nil_iff, MacsHold]
  simp only [hshown, not_false_eq_true, true_and]
  rfl

/-- Without a rotation marker the key has not changed. -/
theorem ChainedOk.keyAt_eq (h : ChainedOk H B s)
    (hmarkers : ¬(postgresReport C s).hasRotationMarkers = true) (n : ℕ) :
    s.keyAt n = s.current := by
  apply h.unrotated
  intro row hrow hkind
  apply hmarkers
  change (readTables C s.tables).rows.any _ = true
  rw [any_kind_readTables]
  exact List.any_eq_true.mpr ⟨row, hrow, by simpa using hkind⟩

/-- Every row of a chained history is authentic, and its MACs hold for what is read if its
floats are plain. -/
theorem ChainedOk.macsHold (h : ChainedOk H B s)
    (hpython : ∀ row ∈ s.tables.rows, row.record.FromPython)
    (hres : ∀ n, B.activation ≤ n →
      Resolves H S ((postgresReport C s).buildUriMap S) (s.keyAt n))
    (hsub : rows ⊆ s.tables.rows) (hplain : ∀ row ∈ rows, row.record.PlainFloats) :
    MacsHold C H S s rows := by
  rw [MacsHold]
  split
  · intro row hrow
    apply checkRow_readRow (hpython row (hsub hrow)) (hplain row hrow)
    apply h.history.checkRow_eq hres
    · exact (perm_sortVersions _).trans (perm_sortVersions _)
    · exact hsub hrow
  · rename_i hmarkers
    intro row hrow
    have hmac := (h.history.rows row (hsub hrow)).hmac
    rw [h.keyAt_eq hmarkers] at hmac
    exact verifyEvent_eq_ok_true_iff.mpr (hmac.trans
      (ColumnTypes.computeEventHmac_rowToRecord (hpython row (hsub hrow)) (hplain row hrow)
        H s.current).symm)

/-- A verified row was checked under the key of its sequence number. -/
theorem ChainedOk.hmac_of_checkRow (h : ChainedOk H B s)
    (hpython : ∀ row ∈ s.tables.rows, row.record.FromPython)
    (hres : ∀ n, B.activation ≤ n →
      Resolves H S ((postgresReport C s).buildUriMap S) (s.keyAt n))
    {row : AuditRow} (hrow : row ∈ s.tables.rows)
    (hverified : checkRow H S (sortVersions (postgresReport C s).loadKeyVersions)
      ((postgresReport C s).buildUriMap S) (readRow C row) = .ok .verified) :
    row.record.hmac = computeEventHmac H (s.keyAt row.chainSeq)
      (C.rowToRecord row.record).toEventContent := by
  obtain ⟨active, secret, hactive, hsecret, hmacs⟩ := checkRow_eq_verified_iff.mp hverified
  have hlow := (h.history.bounds row hrow).1
  have hsorted : (sortVersions (postgresReport C s).loadKeyVersions).Perm
      s.tables.keyVersions := (perm_sortVersions _).trans (perm_sortVersions _)
  obtain ⟨active', hactive', hkey⟩ := h.history.findActiveKeyAtSeq_eq hsorted hlow
  have hsame : active = active' := Option.some.inj (hactive.symm.trans hactive')
  have hresolved := hres row.chainSeq hlow
  rw [Resolves, ← hkey, ← hsame] at hresolved
  have hout : secret = s.keyAt row.chainSeq := Option.some.inj (hsecret.symm.trans hresolved)
  rw [hout] at hmacs
  split at hmacs
  · rename_i hmarker
    obtain ⟨-, outSecret, -, -, -, hmaterial, -, hmac, -⟩ := checkMarker_eq_verified_iff.mp hmacs
    have hkeys : outSecret = s.keyAt row.chainSeq :=
      Option.some.inj (hmaterial.symm.trans hresolved)
    obtain ⟨mac, hnext⟩ := Option.isSome_iff_exists.mp (Bool.and_eq_true_iff.mp hmarker).2
    -- a marker has no other fields, and reading it adds none
    have hcontent := ((h.history.rows row hrow).marker mac hnext).1
    have hread : (readRow C row).record.asMarker =
        (C.rowToRecord row.record).toEventContent := by
      change (C.rowToRecord row.record).toEventContent.asMarker = _
      rw [ColumnTypes.toEventContent_rowToRecord (hpython row hrow).utc]
      exact congrArg (fun c : EventContent =>
        { c with metadata := (C.rowToRecord row.record).metadata }) hcontent
    rw [hread, hkeys] at hmac
    exact hmac
  · exact hmacs

/-- MACs that hold for what is read show that the floats are plain. -/
theorem ChainedOk.plain_of_macsHold (h : ChainedOk H B s)
    (hpython : ∀ row ∈ s.tables.rows, row.record.FromPython)
    (hres : ∀ n, B.activation ≤ n →
      Resolves H S ((postgresReport C s).buildUriMap S) (s.keyAt n))
    (hfree : ∀ row ∈ s.tables.rows,
      H.CollisionFreeOn (s.keyAt row.chainSeq) (C.rowPayloads row.record))
    (hsub : rows ⊆ s.tables.rows) (hmacs : MacsHold C H S s rows) :
    ∀ row ∈ rows, row.record.PlainFloats := by
  intro row hrow
  have hstored := hsub hrow
  refine plainFloats_of_macs (hpython row hstored) (hfree row hstored)
    (h.history.rows row hstored).hmac ?_
  rw [MacsHold] at hmacs
  split at hmacs
  · exact h.hmac_of_checkRow hpython hres hstored (hmacs row hrow)
  · rename_i hmarkers
    rw [h.keyAt_eq hmarkers]
    exact verifyEvent_eq_ok_true_iff.mp (hmacs row hrow)

def keyVariable₁ : String := "GOVERNANCE_CHAIN_KEY_80d19d2037cec746"

def keyVariable₂ : String := "GOVERNANCE_CHAIN_KEY_bea569602f25b682"

def reportKeySource : KeySource where
  environ := fun name =>
    if name = keyVariable₁ then some "file:///keys/1"
    else if name = keyVariable₂ then some "file:///keys/2" else none
  readBytes := sampleKeySource.readBytes

theorem chainKeyVariable_eq {fingerprint : String} (start : String)
    (h : fingerprint.toList.take 16 = start.toList) :
    ReportGenerator.chainKeyVariable fingerprint =
      "GOVERNANCE_CHAIN_KEY_" ++ String.ofList start.toList := by
  rw [← h]
  rfl

theorem chainKeyVariable₁ :
    ReportGenerator.chainKeyVariable (digestText sampleFingerprint₁) = keyVariable₁ := by
  refine (chainKeyVariable_eq "80d19d2037cec746" ?_).trans (by decide +kernel)
  rw [toList_digestText]
  decide +kernel

theorem chainKeyVariable₂ :
    ReportGenerator.chainKeyVariable (digestText sampleFingerprint₂) = keyVariable₂ := by
  refine (chainKeyVariable_eq "bea569602f25b682" ?_).trans (by decide +kernel)
  rw [toList_digestText]
  decide +kernel

theorem report_resolves (own : Bool) (n : ℕ) :
    Resolves rotationHmac reportKeySource
      ((postgresReport ColumnTypes.sampleColumns (sampleAfterRotation own)).buildUriMap
        reportKeySource)
      ((sampleAfterRotation own).keyAt n) := by
  have hregistered :
      (postgresReport ColumnTypes.sampleColumns (sampleAfterRotation own)).loadKeyVersions.map
        (fun kv => kv.fingerprint) =
        [fingerprintKey rotationHmac sampleSecret,
         fingerprintKey rotationHmac sampleIncoming] := rfl
  change Resolves _ _ _ (if n ≤ 2 then sampleSecret else sampleIncoming)
  split
  · refine Resolves.of_uri (?_ : _ = some "file:///keys/1") (by decide) (by decide)
    rw [ReportGenerator.buildUriMap, hregistered, if_pos (by simp), rotation_fingerprint₁,
      chainKeyVariable₁]
    decide
  · refine Resolves.of_uri (?_ : _ = some "file:///keys/2") (by decide) (by decide)
    rw [ReportGenerator.buildUriMap, hregistered, if_pos (by simp), rotation_fingerprint₂,
      chainKeyVariable₂]
    decide

/-- A row with a second MAC is not an ordinary insert. -/
theorem chainedAppend_of_marker {row : AuditRow} (hmarker : row.hmacNext ≠ none)
    (hrows : t.tables.rows = s.tables.rows ++ [row]) : ChainedAppend s t := by
  rintro record rfl
  have hrow := List.append_cancel_left hrows
  rw [List.singleton_inj.mp hrow.symm] at hmarker
  exact absurd rfl hmarker

theorem sampleAfterRotation_reachable (own : Bool) :
    (chainedHistory rotationHmac sampleBootstrap).Reachable (sampleAfterRotation own) := by
  have h₀ : (chainedHistory rotationHmac sampleBootstrap).Reachable
      (.start rotationHmac sampleBootstrap) := .start rfl
  have h₁ : (chainedHistory rotationHmac sampleBootstrap).Reachable sampleBefore := by
    refine h₀.next ⟨.append _ sampleRecord₁ rotation_hmac_first.symm List.not_mem_nil, ?_⟩
    intro record hrecord
    have hrows := congrArg (fun s : History => s.tables.rows) hrecord
    have hrow := congrArg AuditRow.record (List.singleton_inj.mp hrows)
    change sampleRecord₁ = record at hrow
    rw [← hrow]
    rfl
  refine h₁.next ⟨.rotate _ _ _ sampleTime _ _ rfl (sample_rotate own), ?_⟩
  exact chainedAppend_of_marker (Option.some_ne_none _) rfl

theorem sampleAfterRotation_plain (own : Bool) :
    ∀ row ∈ (sampleAfterRotation own).tables.rows,
      row.record.FromPython ∧ row.record.PlainFloats := by
  have hrecord : sampleRecord₁.FromPython ∧ sampleRecord₁.PlainFloats :=
    ⟨⟨rfl, ⟨by decide, trivial, trivial, trivial⟩, trivial, trivial, trivial⟩,
      trivial, trivial, trivial⟩
  have hkeys : ((sampleMarkerRecord own).metadata.map Prod.fst).Nodup :=
    (by decide : ["outgoing_fingerprint", "incoming_fingerprint", "outgoing_key_version",
      "rotation_reason", "operator_id"].Nodup)
  have hmarker : (sampleMarkerRecord own).FromPython ∧ (sampleMarkerRecord own).PlainFloats :=
    ⟨⟨rfl, ⟨hkeys, trivial, trivial, trivial, trivial, trivial, trivial⟩,
      trivial, trivial, trivial, trivial, trivial, trivial⟩,
      trivial, trivial, trivial, trivial, trivial, trivial⟩
  intro row hrow
  rcases List.mem_cons.mp hrow with rfl | hrow
  · exact hrecord
  · rw [List.mem_singleton.mp hrow]
    exact hmarker

end AgenticGovernance.Compliance

import Mathlib
import AgenticGovernance.Compliance.ReadRows

/-!
# Deleting the first row of a session

The compliance report asserts that every session starts at a genesis row, but only if its
window starts at sequence number zero.  Postgres numbers the rows from one, and the default
window is computed as if they were numbered from zero.

`genesis_deletion_failed_iff` says for which logs the status is `failed` after the deletion
of a genesis row.  It also is where the metadata of a shown row did not survive JSONB.
-/

namespace AgenticGovernance.Compliance

open Support Audit

/-- The table after `DELETE` of the first row of a session. -/
def withoutGenesis (rows : List AuditRow) (sid : Uuid) : List AuditRow :=
  rows.eraseP fun row => row.record.sessionId = sid

/-- A generator over the tables of a database.  `hasStore` says whether it was also given the
Postgres store, which has no `_events`. -/
def databaseReport (C : ColumnTypes) (K : ModuleKeys) (T : ChainTables) (hasStore : Bool) :
    ReportGenerator where
  database := some (readTables C T)
  auditStore := if hasStore then some none else none
  secret := K.secret
  allRecords := []

/-- The status that the report gives with the default window. -/
def defaultStatus (H : Hmac) (S : KeySource) (g : ReportGenerator) :
    Except PyError ChainIntegrityStatus :=
  (g.runChainVerification H S none none).map fun v => v.status

/-! ## The rows of a window -/

section

variable {C : ColumnTypes} {rows : List AuditRow} {sid : Uuid}

theorem eq_of_chainSeq_eq {l : List AuditRow} (h : l.Pairwise fun a b => a.chainSeq < b.chainSeq)
    {a b : AuditRow} (ha : a ∈ l) (hb : b ∈ l) (heq : a.chainSeq = b.chainSeq) : a = b := by
  have hnodup : (l.map fun row => row.chainSeq).Nodup :=
    List.pairwise_map.mpr (h.imp fun hlt => ne_of_lt hlt)
  exact List.inj_on_of_nodup_map hnodup ha hb heq

/-- A session keeps its order when the rows of a window are sorted. -/
theorem sessionRecords_windowRows
    (hincreasing : (sessionRows rows sid).Pairwise fun a b => a.chainSeq < b.chainSeq)
    (lo hi : Option ℕ) :
    sessionRecords ((windowRows lo hi rows).map fun row => row.record) sid =
      ((sessionRows rows sid).filter (inWindow lo hi)).map fun row => row.record := by
  rw [windowRows, sessionRecords, List.filter_map]
  congr 1
  have hperm : (((rows.filter (inWindow lo hi)).insertionSort
      fun a b => a.chainSeq ≤ b.chainSeq).filter
        ((fun r : AuditEventRecord => decide (r.sessionId = sid)) ∘ fun row => row.record)).Perm
      ((sessionRows rows sid).filter (inWindow lo hi)) := by
    refine ((List.perm_insertionSort _ _).filter _).trans (List.Perm.of_eq ?_)
    rw [sessionRows, List.filter_filter, List.filter_filter]
    apply List.filter_congr
    intro row _
    exact Bool.and_comm _ _
  refine hperm.eq_of_pairwise ?_ ((List.pairwise_insertionSort _ _).filter _)
    ((hincreasing.filter _).imp fun hlt => le_of_lt hlt)
  intro a b ha hb hle hge
  exact eq_of_chainSeq_eq hincreasing (List.mem_of_mem_filter (hperm.subset ha))
    (List.mem_of_mem_filter hb) (le_antisymm hle hge)

/-- What a monotone predicate keeps of a list is a suffix of it. -/
theorem exists_append_filter {α : Type*} {P : α → Bool} {l : List α}
    (hmono : l.Pairwise fun a b => P a = true → P b = true) :
    ∃ before, l = before ++ l.filter P := by
  induction l with
  | nil => exact ⟨[], rfl⟩
  | cons a l ih =>
      rw [List.pairwise_cons] at hmono
      by_cases ha : P a = true
      · refine ⟨[], ?_⟩
        rw [List.nil_append, List.filter_cons_of_pos ha,
          List.filter_eq_self.mpr fun b hb => hmono.1 b hb ha]
      · obtain ⟨before, hbefore⟩ := ih hmono.2
        refine ⟨a :: before, ?_⟩
        rw [List.filter_cons_of_neg ha, List.cons_append, ← hbefore]

/-- The rows of a linked session from some sequence number on are linked. -/
theorem linked_from {l : List AuditRow} {p : Option String}
    (hincreasing : l.Pairwise fun a b => a.chainSeq < b.chainSeq)
    (hlinked : ChainFrom p (l.map fun row => row.record)) {head : ℕ}
    (hhead : ∀ row ∈ l, row.chainSeq ≤ head) (start : ℕ) :
    ∃ q, ChainFrom q ((l.filter (inWindow (some start) (some head))).map
      fun row => row.record) := by
  have hmono : l.Pairwise fun a b => inWindow (some start) (some head) a = true →
      inWindow (some start) (some head) b = true := by
    refine List.Pairwise.imp_of_mem ?_ hincreasing
    intro a b _ hb hlt ha
    simp only [inWindow, Option.all_some, Bool.and_eq_true, decide_eq_true_eq] at ha ⊢
    exact ⟨ha.1.trans (le_of_lt hlt), hhead b hb⟩
  obtain ⟨before, hbefore⟩ := exists_append_filter hmono
  rw [hbefore, List.map_append] at hlinked
  exact ⟨_, ((linkedFrom_append _ _ _).mp hlinked).2⟩

/-! ## The table without the row -/

theorem withoutGenesis_sublist (rows : List AuditRow) (sid : Uuid) :
    (withoutGenesis rows sid).Sublist rows := List.eraseP_sublist

/-- The deletion takes the first row of its session and nothing else. -/
theorem sessionRows_withoutGenesis (rows : List AuditRow) (sid sid' : Uuid) :
    sessionRows (withoutGenesis rows sid) sid' =
      if sid' = sid then (sessionRows rows sid).tail else sessionRows rows sid' := by
  induction rows with
  | nil => simp [withoutGenesis, sessionRows]
  | cons row rows ih =>
      by_cases hrow : row.record.sessionId = sid
      · subst hrow
        by_cases hsid : sid' = row.record.sessionId
        · subst hsid
          simp [withoutGenesis, sessionRows]
        · simp [withoutGenesis, sessionRows, hsid, Ne.symm hsid]
      · have herase : withoutGenesis (row :: rows) sid = row :: withoutGenesis rows sid :=
          List.eraseP_cons_of_neg (by simpa using hrow)
        have htail : sessionRows (row :: rows) sid = sessionRows rows sid := by
          simp [sessionRows, hrow]
        rw [herase, htail]
        by_cases hrow' : row.record.sessionId = sid'
        · have hsid : sid' ≠ sid := fun h => hrow (hrow'.trans h)
          rw [if_neg hsid] at ih ⊢
          have hcons : ∀ l : List AuditRow,
              sessionRows (row :: l) sid' = row :: sessionRows l sid' :=
            fun l => List.filter_cons_of_pos (by simpa using hrow')
          rw [hcons, hcons, ih]
        · have hskip : ∀ l : List AuditRow, sessionRows (row :: l) sid' = sessionRows l sid' :=
            fun l => List.filter_cons_of_neg (by simpa using hrow')
          rw [hskip, hskip, ih]

/-- A chain, the session whose genesis row is deleted from it, and the two rows that the
session has at least. -/
structure GenesisDeletion (K : ModuleKeys) (rows : List AuditRow) (sid : Uuid)
    (first second : AuditRow) (rest : List AuditRow) : Prop where
  table : ∃ n, TableOk K rows n
  unrotated : ∀ row ∈ rows, row.record.kind ≠ keyRotationKind
  session : sessionRows rows sid = first :: second :: rest

namespace GenesisDeletion

variable {K : ModuleKeys} {first second : AuditRow} {rest : List AuditRow}
  {keyVersions : List KeyVersion} {nextSeq nextKeyVersion : ℕ} {hasStore : Bool}

theorem second_mem (h : GenesisDeletion K rows sid first second rest) :
    second ∈ withoutGenesis rows sid := by
  have hmem : second ∈ sessionRows (withoutGenesis rows sid) sid := by
    rw [sessionRows_withoutGenesis, if_pos rfl, h.session]
    exact List.mem_cons_self
  exact List.mem_of_mem_filter hmem

/-- The deleted row does not have the largest sequence number. -/
theorem forall_chainSeq_le_iff (h : GenesisDeletion K rows sid first second rest) (n : ℕ) :
    (∀ row ∈ withoutGenesis rows sid, row.chainSeq ≤ n) ↔ ∀ row ∈ rows, row.chainSeq ≤ n := by
  constructor
  · intro hle row hrow
    by_cases hsid : row.record.sessionId = sid
    · have hmem : row ∈ first :: second :: rest := by
        rw [← h.session]
        exact List.mem_filter.mpr ⟨hrow, by simpa using hsid⟩
      rcases List.mem_cons.mp hmem with rfl | hmem
      · obtain ⟨n', htable⟩ := h.table
        have hpair := htable.increasing sid
        rw [h.session, List.pairwise_cons] at hpair
        exact (le_of_lt (hpair.1 second List.mem_cons_self)).trans (hle _ h.second_mem)
      · have hmem' : row ∈ sessionRows (withoutGenesis rows sid) sid := by
          rw [sessionRows_withoutGenesis, if_pos rfl, h.session]
          exact hmem
        exact hle row (List.mem_of_mem_filter hmem')
    · refine hle row ((List.mem_eraseP_of_neg ?_).mpr hrow)
      simpa using hsid
  · intro hle row hrow
    exact hle row ((withoutGenesis_sublist rows sid).subset hrow)

theorem increasing (h : GenesisDeletion K rows sid first second rest) (sid' : Uuid) :
    (sessionRows (withoutGenesis rows sid) sid').Pairwise
      fun a b => a.chainSeq < b.chainSeq := by
  obtain ⟨n, htable⟩ := h.table
  exact (htable.increasing sid').sublist ((withoutGenesis_sublist rows sid).filter _)

/-- What is left of every session is linked. -/
theorem linked (h : GenesisDeletion K rows sid first second rest) (sid' : Uuid) :
    ∃ p, ChainFrom p ((sessionRows (withoutGenesis rows sid) sid').map
      fun row => row.record) := by
  obtain ⟨n, htable⟩ := h.table
  have hlinked := htable.linked sid'
  rw [sessionRows_withoutGenesis]
  by_cases hsid : sid' = sid
  · subst hsid
    rw [h.session] at hlinked
    rw [if_pos rfl, h.session]
    exact ⟨_, hlinked.2⟩
  · rw [if_neg hsid]
    exact ⟨none, hlinked⟩

theorem unmarked (h : GenesisDeletion K rows sid first second rest) :
    (databaseReport C K ⟨withoutGenesis rows sid, nextSeq, keyVersions, nextKeyVersion⟩
      hasStore).hasRotationMarkers = false := by
  cases hasStore with
  | true => rfl
  | false =>
      change (readTables C _).rows.any _ = false
      rw [any_kind_readTables, List.any_eq_false]
      intro row hrow
      simpa using h.unrotated row ((withoutGenesis_sublist rows sid).subset hrow)

/-- A row that was written verifies as it is read exactly when its floats are plain. -/
theorem verifyEvent_read_iff (h : GenesisDeletion K rows sid first second rest)
    {row : AuditRow} (hrow : row ∈ rows) (hpython : row.record.FromPython)
    (hfree : K.hmac.CollisionFreeOn K.secret (C.rowPayloads row.record)) :
    verifyEvent K.hmac (C.rowToRecord row.record) K.secret = .ok true ↔
      row.record.PlainFloats := by
  obtain ⟨n, htable⟩ := h.table
  exact ColumnTypes.verifyEvent_rowToRecord_iff (htable.authentic row hrow) hpython.utc
    hpython.distinct hpython.printed hfree

section Window

variable {lo hi : Option ℕ}

/-- The rows that are left in a window, as their records are read. -/
abbrev readWindow (C : ColumnTypes) (rows : List AuditRow) (sid : Uuid) (lo hi : Option ℕ) :
    List AuditEventRecord :=
  ((windowRows lo hi (withoutGenesis rows sid)).map fun row => row.record).map C.rowToRecord

theorem stored_of_mem_windowRows {row : AuditRow}
    (hrow : row ∈ windowRows lo hi (withoutGenesis rows sid)) : row ∈ rows :=
  (withoutGenesis_sublist rows sid).subset (mem_windowRows.mp hrow).1

theorem readWindow_ne_nil
    (hshown : ∃ row ∈ withoutGenesis rows sid, inWindow lo hi row = true) :
    readWindow C rows sid lo hi ≠ [] := by
  obtain ⟨row, hrow, hin⟩ := hshown
  have hne := List.ne_nil_of_mem (mem_windowRows.mpr ⟨hrow, hin⟩)
  simpa [readWindow] using hne

/-- The HMACs that are read are digests. -/
theorem isAscii_of_mem_readWindow (h : GenesisDeletion K rows sid first second rest) :
    ∀ r ∈ readWindow C rows sid lo hi, isAscii r.hmac = true := by
  obtain ⟨n, htable⟩ := h.table
  intro r hr
  obtain ⟨written, hwritten, rfl⟩ := List.mem_map.mp hr
  obtain ⟨row, hrow, rfl⟩ := List.mem_map.mp hwritten
  change isAscii row.record.hmac = true
  rw [htable.authentic row (stored_of_mem_windowRows hrow)]
  exact isAscii_digestText _

/-- The records of a window are verified when its floats are plain and its links hold. -/
theorem verifyRecords_readWindow_iff (h : GenesisDeletion K rows sid first second rest)
    {g : ReportGenerator} (hsecret : g.secret = K.secret)
    (hpython : ∀ row ∈ rows, row.record.FromPython)
    (hfree : ∀ row ∈ rows, K.hmac.CollisionFreeOn K.secret (C.rowPayloads row.record))
    (hshown : ∃ row ∈ withoutGenesis rows sid, inWindow lo hi row = true) :
    g.verifyRecords K.hmac (readWindow C rows sid lo hi) lo = .ok .verified ↔
      (∀ row ∈ withoutGenesis rows sid, inWindow lo hi row = true → row.record.PlainFloats) ∧
        checkPerSessionLinkage ((windowRows lo hi (withoutGenesis rows sid)).map
          fun row => row.record) (assertsGenesis lo) = none := by
  rw [verifyRecords_eq_verified_iff, checkPerSessionLinkage_read_iff, List.forall_mem_map,
    List.forall_mem_map, hsecret]
  constructor
  · rintro ⟨-, hall, hlinks⟩
    refine ⟨?_, hlinks⟩
    intro row hrow hin
    have hstored := (withoutGenesis_sublist rows sid).subset hrow
    exact (h.verifyEvent_read_iff hstored (hpython row hstored) (hfree row hstored)).mp
      (hall row (mem_windowRows.mpr ⟨hrow, hin⟩))
  · rintro ⟨hplain, hlinks⟩
    refine ⟨readWindow_ne_nil hshown, ?_, hlinks⟩
    intro row hrow
    have hstored := stored_of_mem_windowRows hrow
    obtain ⟨hleft, hin⟩ := mem_windowRows.mp hrow
    exact (h.verifyEvent_read_iff hstored (hpython row hstored) (hfree row hstored)).mpr
      (hplain row hleft hin)

/-- The status over a window that shows a row is `verified` when the shown floats are plain
and the links hold, and `failed` otherwise. -/
theorem defaultStatus_iff (h : GenesisDeletion K rows sid first second rest) {S : KeySource}
    (hpython : ∀ row ∈ rows, row.record.FromPython)
    (hfree : ∀ row ∈ rows, K.hmac.CollisionFreeOn K.secret (C.rowPayloads row.record))
    (hwindow : (databaseReport C K
      ⟨withoutGenesis rows sid, nextSeq, keyVersions, nextKeyVersion⟩ hasStore).window
        none none = (lo, hi))
    (hshown : ∃ row ∈ withoutGenesis rows sid, inWindow lo hi row = true) :
    (defaultStatus K.hmac S (databaseReport C K
        ⟨withoutGenesis rows sid, nextSeq, keyVersions, nextKeyVersion⟩ hasStore) =
          .ok .verified ↔
      (∀ row ∈ withoutGenesis rows sid, inWindow lo hi row = true → row.record.PlainFloats) ∧
        checkPerSessionLinkage ((windowRows lo hi (withoutGenesis rows sid)).map
          fun row => row.record) (assertsGenesis lo) = none) ∧
    (defaultStatus K.hmac S (databaseReport C K
        ⟨withoutGenesis rows sid, nextSeq, keyVersions, nextKeyVersion⟩ hasStore) =
          .ok .failed ↔
      ¬defaultStatus K.hmac S (databaseReport C K
        ⟨withoutGenesis rows sid, nextSeq, keyVersions, nextKeyVersion⟩ hasStore) =
          .ok .verified) := by
  set g := databaseReport C K ⟨withoutGenesis rows sid, nextSeq, keyVersions, nextKeyVersion⟩
    hasStore with hg
  have hrecords : (g.loadChainRows lo hi).map (fun row => row.record) =
      readWindow C rows sid lo hi := by
    rw [loadChainRows_readTables rfl, records_map_readRow]
  have hstatus : ∀ status,
      g.verifyRecords K.hmac (readWindow C rows sid lo hi) lo = .ok status →
        defaultStatus K.hmac S g = .ok status := by
    intro status hok
    rw [← hrecords] at hok
    exact status_of_unmarked rfl hwindow h.unmarked hok
  rw [← h.verifyRecords_readWindow_iff (g := g) rfl hpython hfree hshown]
  rcases verifyRecords_of_ascii (readWindow_ne_nil hshown) h.isAscii_of_mem_readWindow
    with hok | hfailed
  · rw [hstatus _ hok, hok]
    simp
  · rw [hstatus _ hfailed, hfailed]
    simp

end Window

/-- A window that asserts genesis rows and shows everything finds the broken link. -/
theorem linkage_of_genesis (h : GenesisDeletion K rows sid first second rest)
    {lo hi : Option ℕ} (hshown : ∀ row ∈ withoutGenesis rows sid, inWindow lo hi row = true)
    (hgenesis : assertsGenesis lo = true) :
    checkPerSessionLinkage ((windowRows lo hi (withoutGenesis rows sid)).map
      fun row => row.record) (assertsGenesis lo) ≠ none := by
  intro hlinkage
  obtain ⟨p, hchain, hp⟩ := checkPerSessionLinkage_eq_none_iff.mp hlinkage sid
  rw [sessionRecords_windowRows (h.increasing sid)] at hchain
  have hall : (sessionRows (withoutGenesis rows sid) sid).filter (inWindow lo hi) =
      second :: rest := by
    have hself := List.filter_eq_self.mpr
      fun row (hrow : row ∈ sessionRows (withoutGenesis rows sid) sid) =>
        hshown row (List.mem_of_mem_filter hrow)
    rw [hself, sessionRows_withoutGenesis, if_pos rfl, h.session]
    rfl
  rw [hall] at hchain
  have hgone : second.record.prevHash = p := hchain.1
  obtain ⟨n, htable⟩ := h.table
  have hlinked := htable.linked sid
  rw [h.session] at hlinked
  have hprev : second.record.prevHash = some first.record.hmac := hlinked.2.1
  rw [hgone, hp hgenesis] at hprev
  cases hprev

/-- A window that starts later does not. -/
theorem linkage_of_late (h : GenesisDeletion K rows sid first second rest) {start head : ℕ}
    (hhead : ∀ row ∈ withoutGenesis rows sid, row.chainSeq ≤ head) (hstart : start ≠ 0) :
    checkPerSessionLinkage ((windowRows (some start) (some head)
      (withoutGenesis rows sid)).map fun row => row.record)
        (assertsGenesis (some start)) = none := by
  apply checkPerSessionLinkage_eq_none_iff.mpr
  intro sid'
  obtain ⟨p, hlinked⟩ := h.linked sid'
  obtain ⟨q, hq⟩ := linked_from (h.increasing sid') hlinked
    (fun row hrow => hhead row (List.mem_of_mem_filter hrow)) start
  refine ⟨q, ?_, ?_⟩
  · rw [sessionRecords_windowRows (h.increasing sid')]
    exact hq
  · intro hgenesis
    simp [assertsGenesis, hstart] at hgenesis

end GenesisDeletion

/-! ## Logs that were written by inserts -/

section

variable {ι : Type} [DecidableEq ι] {K : ModuleKeys} {calls : ι → ChainBuilder}
  {s : PostgresStore.State ι} {keyVersions : List KeyVersion} {nextKeyVersion : ℕ}
  {S : KeySource}

theorem genesisDeletion_of_reachable (hreach : (PostgresStore.system K calls).Reachable s)
    (hunrotated : ∀ row ∈ s.rows, row.record.kind ≠ keyRotationKind)
    (hlength : 2 ≤ (sessionRows s.rows sid).length) :
    ∃ first second rest, GenesisDeletion K s.rows sid first second rest := by
  have htable := (PostgresStore.chainOk_of_reachable hreach).table
  rcases hrows : sessionRows s.rows sid with _ | ⟨first, _ | ⟨second, rest⟩⟩
  · simp [hrows] at hlength
  · simp [hrows] at hlength
  · exact ⟨first, second, rest, ⟨_, htable⟩, hunrotated, hrows⟩

/-- The default window of a database without a store. -/
theorem window_of_database {T : ChainTables} {head : ℕ}
    (hhead : (T.rows.map fun row => row.chainSeq).max? = some head) :
    (databaseReport C K T false).window none none =
      (some (windowStart T.rows), some head) := by
  have hcurrent : (databaseReport C K T false).currentChainHead = some head := by
    change ((readTables C T).rows.map fun row => row.chainSeq).max? = some head
    rw [chainSeqs_readTables, hhead]
  rw [ReportGenerator.window, if_pos ⟨rfl, rfl⟩, hcurrent, windowStart, hhead]
  rfl

/-- The window starts at zero exactly when every sequence number is below its size. -/
theorem windowStart_eq_zero_iff {first second : AuditRow} {rest rows : List AuditRow}
    (h : GenesisDeletion K rows sid first second rest) {head : ℕ}
    (hhead : ((withoutGenesis rows sid).map fun row => row.chainSeq).max? = some head)
    (hle : ∀ row ∈ withoutGenesis rows sid, row.chainSeq ≤ head)
    (hlast : ∃ row ∈ withoutGenesis rows sid, row.chainSeq = head) :
    windowStart (withoutGenesis rows sid) = 0 ↔
      ∀ row ∈ rows, row.chainSeq < chainVerifyWindow := by
  have hstart : windowStart (withoutGenesis rows sid) = 0 ↔ head ≤ chainVerifyWindow - 1 := by
    rw [windowStart, hhead]
    change head - (chainVerifyWindow - 1) = 0 ↔ _
    exact Nat.sub_eq_zero_iff_le
  have hall : (∀ row ∈ rows, row.chainSeq < chainVerifyWindow) ↔
      ∀ row ∈ rows, row.chainSeq ≤ chainVerifyWindow - 1 :=
    forall₂_congr fun row _ => Nat.lt_iff_le_pred (by decide)
  rw [hstart, hall, ← h.forall_chainSeq_le_iff]
  constructor
  · intro hsmall row hrow
    exact (hle row hrow).trans hsmall
  · intro hsmall
    obtain ⟨row, hrow, rfl⟩ := hlast
    exact hsmall row hrow

end

end

/-! ## A log of two rows -/

open PostgresStore

/-- One call for the first row of the sample session, and any number for the second. -/
def retriedCalls (i : ℕ) : ChainBuilder :=
  .record (sampleLog (if i = 0 then sampleFirst.metadata else []))

/-- The first row is stored, the calls up to `n` are over, and no lock is held. -/
structure Retried (s : PostgresStore.State ℕ) (n : ℕ) : Prop where
  reachable : (system sampleKeys retriedCalls).Reachable s
  commits : s.commits = [(0, ⟨1, sampleRecord₁, none⟩)]
  nextSeq : s.nextSeq = n + 2
  lock : s.lock = fun _ => none
  idle : ∀ i, n < i → s.phase i = .idle

theorem release_acquired {ι : Type} [DecidableEq ι] {lock : ℤ → Option ι} {k : ℤ} {i : ι}
    (h : lock = fun _ => none) :
    (fun k' => if Function.update lock k (some i) k' = some i then none
      else Function.update lock k (some i) k') = fun _ => none := by
  funext k'
  by_cases hk : k' = k
  · subst hk
    simp
  · simp [Function.update_of_ne hk, h]

theorem retried_start : ∃ s, Retried s 0 := by
  have hbuild := sample_build ⟨1⟩ sampleFirst.metadata none sampleDigest₁
    (computeEventHmac_ofTable_self _ _)
  have h₀ : (system sampleKeys retriedCalls).Reachable State.initial := .start rfl
  have h₁ := h₀.next (.readHead _ 0 [] rfl List.nil_prefix)
  have h₂ := h₁.next (.build _ 0 none ⟨1⟩ sampleTime _ rfl hbuild)
  have h₃ := h₂.next (.acquire _ 0 none _ rfl rfl)
  have h₄ := h₃.next (.headUnchanged _ 0 none _ rfl rfl)
  have h₅ := h₄.next (.insert _ 0 _ rfl (by rintro row ⟨⟩))
  have h₆ := h₅.next (.commit _ 0 _ rfl)
  refine ⟨_, h₆, rfl, rfl, release_acquired rfl, ?_⟩
  intro i hi
  have hne : i ≠ 0 := Nat.ne_of_gt hi
  simp [State.setPhase, State.release, State.initial, Function.update_of_ne hne]

/-- The second row of the session, as the next call inserts it. -/
def retriedRow (n : ℕ) : AuditRow := ⟨n + 2, sampleRecord₂, none⟩

theorem Retried.inserting {s : PostgresStore.State ℕ} {n : ℕ} (h : Retried s n) :
    ∃ t, (system sampleKeys retriedCalls).Reachable t ∧ t.commits = s.commits ∧
      t.nextSeq = n + 3 ∧
      t.lock = Function.update (fun _ => none) (sessionLockKey ⟨100⟩) (some (n + 1)) ∧
      t.phase (n + 1) = .inserted (retriedRow n) ∧
      ∀ i, i ≠ n + 1 → t.phase i = s.phase i := by
  have hcall : retriedCalls (n + 1) = .record (sampleLog []) := by
    rw [retriedCalls, if_neg (Nat.succ_ne_zero n)]
  have hsession : session retriedCalls (n + 1) = ⟨100⟩ := by
    rw [session, hcall]
    rfl
  have hrows : s.rows = [⟨1, sampleRecord₁, none⟩] := by
    rw [State.rows, h.commits]
    rfl
  have hhead : latestHmac s.rows (session retriedCalls (n + 1)) =
      some (digestText sampleDigest₁) := by
    rw [hrows, hsession]
    rfl
  have hbuild : (retriedCalls (n + 1)).build sampleKeys ⟨2⟩ sampleTime
      (some (digestText sampleDigest₁)) = some sampleRecord₂ := by
    rw [hcall]
    apply sample_build ⟨2⟩ [] (some sampleDigest₁) sampleDigest₂
    rw [sampleKeys, computeEventHmac_ofTable_of_ne (Or.inl (by decide))]
    exact computeEventHmac_ofTable_self _ _
  have h₁ := h.reachable.next (.readHead _ (n + 1) s.rows (h.idle _ (Nat.lt_succ_self n))
    (List.prefix_refl _))
  have h₂ := h₁.next (.build _ (n + 1) _ ⟨2⟩ sampleTime _ (setPhase_self ..)
    ((congrArg _ hhead).trans hbuild))
  have h₃ := h₂.next (.acquire _ (n + 1) _ _ (setPhase_self ..) (congrFun h.lock _))
  have h₄ := h₃.next (.headUnchanged _ (n + 1) _ _ (setPhase_self ..) rfl)
  have h₅ := h₄.next (.insert _ (n + 1) _ (setPhase_self ..) (by
    intro row hrow
    have hrow' : row ∈ s.rows := hrow
    rw [hrows, List.mem_singleton] at hrow'
    rw [hrow']
    decide))
  refine ⟨_, h₅, rfl, ?_, ?_, ?_, ?_⟩
  · exact congrArg (· + 1) h.nextSeq
  · change Function.update s.lock (sessionLockKey (session retriedCalls (n + 1))) _ = _
    rw [h.lock, hsession]
  · rw [setPhase_self]
    change Phase.inserted ⟨s.nextSeq, sampleRecord₂, none⟩ = _
    rw [h.nextSeq, retriedRow]
  · intro i hi
    simp only [State.setPhase, Function.update_of_ne hi]

/-- A call may fail after it has drawn a sequence number. -/
theorem Retried.next {s : PostgresStore.State ℕ} {n : ℕ} (h : Retried s n) :
    ∃ t, Retried t (n + 1) := by
  obtain ⟨t, hreach, hcommits, hseq, hlock, hphase, hothers⟩ := h.inserting
  have hrunning : (t.phase (n + 1)).Running := by
    rw [hphase]
    trivial
  refine ⟨_, hreach.next (.fail t (n + 1) hrunning), hcommits.trans h.commits, hseq, ?_, ?_⟩
  · change (fun k => if t.lock k = some (n + 1) then none else t.lock k) = _
    rw [hlock]
    exact release_acquired rfl
  · intro i hi
    have hne : i ≠ n + 1 := Nat.ne_of_gt hi
    rw [setPhase_of_ne hne]
    exact (hothers i hne).trans (h.idle i (Nat.lt_of_succ_lt hi))

theorem exists_retried (n : ℕ) : ∃ s, Retried s n := by
  induction n with
  | zero => exact retried_start
  | succ n ih =>
      obtain ⟨s, hs⟩ := ih
      exact hs.next

/-- The log of the two rows, when `n` calls in between have failed. -/
theorem twoRows_reachable (n : ℕ) :
    ∃ s : PostgresStore.State ℕ, (system sampleKeys retriedCalls).Reachable s ∧
      s.rows = [⟨1, sampleRecord₁, none⟩, retriedRow n] := by
  obtain ⟨s, hs⟩ := exists_retried n
  obtain ⟨t, hreach, hcommits, -, -, hphase, -⟩ := hs.inserting
  refine ⟨_, hreach.next (.commit t (n + 1) _ hphase), ?_⟩
  change (t.commits ++ [_]).map Prod.snd = _
  rw [hcommits, hs.commits]
  rfl

theorem twoRows_unrotated {s : PostgresStore.State ℕ} {n : ℕ}
    (hrows : s.rows = [⟨1, sampleRecord₁, none⟩, retriedRow n]) :
    ∀ row ∈ s.rows, row.record.kind ≠ keyRotationKind := by
  rw [hrows, List.forall_mem_cons, List.forall_mem_singleton]
  have hsecond : sampleRecord₂.kind ≠ keyRotationKind := by decide
  exact ⟨by decide, hsecond⟩

theorem twoRows_session {s : PostgresStore.State ℕ} {n : ℕ}
    (hrows : s.rows = [⟨1, sampleRecord₁, none⟩, retriedRow n]) :
    sessionRows s.rows ⟨100⟩ = [⟨1, sampleRecord₁, none⟩, retriedRow n] := by
  rw [hrows]
  rfl

theorem twoRows_plain {s : PostgresStore.State ℕ} {n : ℕ}
    (hrows : s.rows = [⟨1, sampleRecord₁, none⟩, retriedRow n]) :
    ∀ row ∈ s.rows, row.record.FromPython ∧ row.record.PlainFloats := by
  have hfirst : sampleRecord₁.FromPython ∧ sampleRecord₁.PlainFloats :=
    ⟨⟨rfl, ⟨by decide, trivial, trivial, trivial⟩, trivial, trivial, trivial⟩,
      trivial, trivial, trivial⟩
  have hsecond : sampleRecord₂.FromPython ∧ sampleRecord₂.PlainFloats :=
    ⟨⟨rfl, ⟨List.nodup_nil, trivial⟩, trivial⟩, trivial⟩
  rw [hrows, List.forall_mem_cons, List.forall_mem_singleton]
  exact ⟨hfirst, hsecond⟩

theorem twoRows_free {s : PostgresStore.State ℕ} {n : ℕ}
    (hrows : s.rows = [⟨1, sampleRecord₁, none⟩, retriedRow n]) :
    ∀ row ∈ s.rows, sampleKeys.hmac.CollisionFreeOn sampleKeys.secret
      (ColumnTypes.sampleColumns.rowPayloads row.record) := by
  intro row hrow
  obtain ⟨hpython, hplain⟩ := twoRows_plain hrows row hrow
  exact ColumnTypes.collisionFree_rowPayloads hpython hplain _ _

end AgenticGovernance.Compliance

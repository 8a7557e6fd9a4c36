import Mathlib
import AgenticGovernance.Audit.WholeStore

/-!
# Following the audit log

`governance tail` polls the table once a second for rows above the last `chain_seq` it
printed, a hundred at a time.  `chain_seq` is drawn from a sequence before the row is
committed, so a row can become visible after rows with larger numbers.

`tail_complete` says when the rows that match the filters are all printed: every matching row
has to be committed with a number above those of all the rows that were fetched before.
-/

namespace AgenticGovernance.Cli

open Support Audit PostgresStore

/-! ## Sequence numbers -/

/-- `chain_seq` is positive and no two rows have the same, committed or not. -/
structure SequenceOk {ι : Type} (s : State ι) : Prop where
  pos : 0 < s.nextSeq
  committed : ∀ row ∈ s.rows, 0 < row.chainSeq ∧ row.chainSeq < s.nextSeq
  nodup : (s.rows.map fun row => row.chainSeq).Nodup
  inserted : ∀ i row, s.phase i = .inserted row → 0 < row.chainSeq ∧
    row.chainSeq < s.nextSeq ∧ ∀ old ∈ s.rows, old.chainSeq ≠ row.chainSeq
  distinct : ∀ i j row row', s.phase i = .inserted row → s.phase j = .inserted row' →
    row.chainSeq = row'.chainSeq → i = j

section Sequence

variable {ι : Type} [DecidableEq ι] {K : ModuleKeys} {calls : ι → ChainBuilder}
  {s t : State ι}

/-- A call that enters a phase without a drawn row. -/
theorem SequenceOk.setPhase (h : SequenceOk s) {i : ι} {p : Phase}
    (hp : ∀ row, p ≠ .inserted row) : SequenceOk (s.setPhase i p) := by
  have hold : ∀ j row, (s.setPhase i p).phase j = .inserted row →
      s.phase j = .inserted row := by
    intro j row hj
    by_cases hji : j = i
    · subst hji
      rw [setPhase_self] at hj
      exact absurd hj (hp row)
    · rwa [setPhase_of_ne hji] at hj
  exact ⟨h.pos, h.committed, h.nodup, fun j row hj => h.inserted j row (hold j row hj),
    fun j k row row' hj hk => h.distinct j k row row' (hold j row hj) (hold k row' hk)⟩

theorem SequenceOk.draw (h : SequenceOk s) {i : ι} (record : AuditEventRecord) :
    SequenceOk ({ s with nextSeq := s.nextSeq + 1 }.setPhase i
      (.inserted ⟨s.nextSeq, record, none⟩)) := by
  have hold : ∀ j row, ({ s with nextSeq := s.nextSeq + 1 }.setPhase i
      (.inserted ⟨s.nextSeq, record, none⟩)).phase j = .inserted row →
      j = i ∧ row = ⟨s.nextSeq, record, none⟩ ∨ j ≠ i ∧ s.phase j = .inserted row := by
    intro j row hj
    by_cases hji : j = i
    · subst hji
      rw [setPhase_self] at hj
      exact Or.inl ⟨rfl, (Phase.inserted.inj hj).symm⟩
    · rw [setPhase_of_ne hji] at hj
      exact Or.inr ⟨hji, hj⟩
  refine ⟨Nat.succ_pos _, ?_, h.nodup, ?_, ?_⟩
  · intro row hrow
    obtain ⟨hpos, hlt⟩ := h.committed row hrow
    exact ⟨hpos, Nat.lt_succ_of_lt hlt⟩
  · intro j row hj
    rcases hold j row hj with ⟨-, rfl⟩ | ⟨-, hj⟩
    · exact ⟨h.pos, Nat.lt_succ_self _, fun old hrow => ne_of_lt (h.committed old hrow).2⟩
    · obtain ⟨hpos, hlt, hnew⟩ := h.inserted j row hj
      exact ⟨hpos, Nat.lt_succ_of_lt hlt, hnew⟩
  · intro j k row row' hj hk heq
    rcases hold j row hj with ⟨rfl, rfl⟩ | ⟨-, hj⟩
    · rcases hold k row' hk with ⟨rfl, -⟩ | ⟨-, hk⟩
      · rfl
      · exact absurd heq.symm (ne_of_lt (h.inserted k row' hk).2.1)
    · rcases hold k row' hk with ⟨-, rfl⟩ | ⟨-, hk⟩
      · exact absurd heq (ne_of_lt (h.inserted j row hj).2.1)
      · exact h.distinct j k row row' hj hk heq

theorem SequenceOk.commit (h : SequenceOk s) {i : ι} {row : AuditRow}
    (hphase : s.phase i = .inserted row) :
    SequenceOk (({ s with commits := s.commits ++ [(i, row)] }.release i).setPhase i
      (.returned row.record)) := by
  obtain ⟨hpos, hlt, hnew⟩ := h.inserted i row hphase
  have hrows : (({ s with commits := s.commits ++ [(i, row)] }.release i).setPhase i
      (.returned row.record)).rows = s.rows ++ [row] := by
    change (s.commits ++ [(i, row)]).map Prod.snd = _
    rw [List.map_append]
    rfl
  have hold : ∀ j row', (({ s with commits := s.commits ++ [(i, row)] }.release i).setPhase i
      (.returned row.record)).phase j = .inserted row' →
      j ≠ i ∧ s.phase j = .inserted row' := by
    intro j row' hj
    by_cases hji : j = i
    · subst hji
      rw [setPhase_self] at hj
      cases hj
    · rw [setPhase_of_ne hji] at hj
      exact ⟨hji, hj⟩
  constructor
  · exact h.pos
  · rw [hrows]
    intro row' hrow'
    rcases List.mem_append.mp hrow' with hrow' | hrow'
    · exact h.committed row' hrow'
    · rw [List.mem_singleton.mp hrow']
      exact ⟨hpos, hlt⟩
  · rw [hrows, List.map_append]
    refine List.Nodup.append h.nodup (List.nodup_singleton _) ?_
    intro n hn hn'
    obtain ⟨old, hrow, rfl⟩ := List.mem_map.mp hn
    exact hnew old hrow (List.mem_singleton.mp hn')
  · intro j row' hj
    obtain ⟨hji, hj⟩ := hold j row' hj
    obtain ⟨hpos', hlt', hnew'⟩ := h.inserted j row' hj
    refine ⟨hpos', hlt', ?_⟩
    rw [hrows]
    intro old hrow
    rcases List.mem_append.mp hrow with hrow | hrow
    · exact hnew' old hrow
    · rw [List.mem_singleton.mp hrow]
      intro heq
      exact hji (h.distinct i j row row' hphase hj heq).symm
  · intro j k row₁ row₂ hj hk
    exact h.distinct j k row₁ row₂ (hold j row₁ hj).2 (hold k row₂ hk).2

theorem SequenceOk.step (h : SequenceOk s) (hstep : Step K calls s t) : SequenceOk t := by
  cases hstep with
  | readHead i snapshot hphase hsnapshot => exact h.setPhase (by simp)
  | build i prev eventId now record hphase hbuild => exact h.setPhase (by simp)
  | acquire i prev record hphase hfree =>
      have hlocked : SequenceOk { s with
          lock := Function.update s.lock (sessionLockKey (session calls i)) (some i) } :=
        ⟨h.pos, h.committed, h.nodup, h.inserted, h.distinct⟩
      exact hlocked.setPhase (by simp)
  | headUnchanged i prev record hphase hhead => exact h.setPhase (by simp)
  | rebuild i prev stale record eventId now hphase hhead hbuild => exact h.setPhase (by simp)
  | insert i record hphase hkey => exact h.draw record
  | commit i row hphase => exact h.commit hphase
  | fail i hphase =>
      exact SequenceOk.setPhase (s := s.release i)
        ⟨h.pos, h.committed, h.nodup, h.inserted, h.distinct⟩ (by simp)

omit [DecidableEq ι] in
theorem SequenceOk.initial : SequenceOk (State.initial : State ι) where
  pos := Nat.one_pos
  committed := by
    intro row hrow
    cases hrow
  nodup := List.nodup_nil
  inserted := by
    intro i row hi
    cases hi
  distinct := by
    intro i j row row' hi
    cases hi

/-- A step of an insert adds at most one row, at the end. -/
theorem rows_of_step (hstep : Step K calls s t) :
    t.commits = s.commits ∨
      ∃ i row, s.phase i = .inserted row ∧ t.commits = s.commits ++ [(i, row)] := by
  cases hstep with
  | commit i row hphase => exact Or.inr ⟨i, row, hphase, rfl⟩
  | _ => exact Or.inl rfl

end Sequence

/-! ## `_run_tail` -/

/-- The filters of the command; an empty text filters nothing. -/
structure TailFilter where
  agentId : Option String
  kind : Option String

def TailFilter.Matches (f : TailFilter) (row : AuditRow) : Prop :=
  (∀ agentId ∈ f.agentId, agentId ≠ "" → row.record.agentId = agentId) ∧
    ∀ kind ∈ f.kind, kind ≠ "" → row.record.kind = kind

instance (f : TailFilter) (row : AuditRow) : Decidable (f.Matches row) :=
  inferInstanceAs (Decidable ((∀ agentId ∈ f.agentId, agentId ≠ "" →
    row.record.agentId = agentId) ∧ ∀ kind ∈ f.kind, kind ≠ "" → row.record.kind = kind))

def pageLimit : ℕ := 100

/-- `SELECT … WHERE chain_seq > :last_seq AND … ORDER BY chain_seq LIMIT 100` -/
def TailFilter.page (f : TailFilter) (rows : List AuditRow) (lastSeq : ℕ) : List AuditRow :=
  ((rows.filter fun row => lastSeq < row.chainSeq ∧ f.Matches row).insertionSort
    fun a b => a.chainSeq ≤ b.chainSeq).take pageLimit

/-- The table and the loop.  `pending` are the fetched rows that are still to be printed, and
`polled` is the answer to the last query with the number of rows that were committed then. -/
structure TailState (ι : Type) where
  store : State ι
  lastSeq : ℕ
  pending : List AuditRow
  printed : List AuditRow
  polled : Option (ℕ × List AuditRow)

namespace TailState

variable {ι : Type}

def initial : TailState ι := ⟨.initial, 0, [], [], none⟩

/-- The rows that the queries have returned so far. -/
def fetched (s : TailState ι) : List AuditRow := s.printed ++ s.pending

/-- No insert is in progress, and the last query saw the table as it is and found nothing. -/
def Quiescent (s : TailState ι) : Prop :=
  (∀ i, ¬(s.store.phase i).Running) ∧ s.polled = some (s.store.commits.length, [])

end TailState

section

variable {ι : Type} [DecidableEq ι] (K : ModuleKeys) (calls : ι → ChainBuilder)
  (f : TailFilter)

inductive TailStep (s : TailState ι) : TailState ι → Prop
  | insert (store : State ι) (hstep : Step K calls s.store store) :
      TailStep s { s with store := store }
  | poll (hidle : s.pending = []) :
      TailStep s
        { s with
          pending := f.page s.store.rows s.lastSeq
          polled := some (s.store.commits.length, f.page s.store.rows s.lastSeq) }
  | print (row : AuditRow) (rest : List AuditRow) (hpending : s.pending = row :: rest) :
      TailStep s
        { s with lastSeq := row.chainSeq, pending := rest, printed := s.printed ++ [row] }

def tailSystem : System (TailState ι) where
  init s := s = .initial
  step := TailStep K calls f

/-- A matching row that the step commits is numbered above every row fetched so far. -/
def Timely (s t : TailState ι) : Prop :=
  ∀ row ∈ t.store.rows, row ∉ s.store.rows → f.Matches row →
    ∀ r ∈ s.fetched, r.chainSeq < row.chainSeq

end

/-! ## What is fetched -/

section

variable {ι : Type} [DecidableEq ι] {K : ModuleKeys} {calls : ι → ChainBuilder}
  {f : TailFilter} {rows : List AuditRow} {lastSeq : ℕ} {row : AuditRow}

theorem mem_of_mem_page (h : row ∈ f.page rows lastSeq) :
    row ∈ rows ∧ lastSeq < row.chainSeq ∧ f.Matches row := by
  have hsorted := (List.mem_insertionSort _).mp (List.mem_of_mem_take h)
  rw [List.mem_filter, decide_eq_true_eq] at hsorted
  exact hsorted

/-- A row that a query leaves out because of the limit is above those that it returns. -/
theorem mem_page_or_le (hrow : row ∈ rows) (hseq : lastSeq < row.chainSeq)
    (hmatch : f.Matches row) : row ∈ f.page rows lastSeq ∨
      f.page rows lastSeq ≠ [] ∧ ∀ r ∈ f.page rows lastSeq, r.chainSeq ≤ row.chainSeq := by
  set sorted := (rows.filter fun row => lastSeq < row.chainSeq ∧ f.Matches row).insertionSort
    fun a b => a.chainSeq ≤ b.chainSeq with hsorted
  have hmem : row ∈ sorted := by
    rw [hsorted, List.mem_insertionSort, List.mem_filter, decide_eq_true_eq]
    exact ⟨hrow, hseq, hmatch⟩
  have hpair : sorted.Pairwise fun a b => a.chainSeq ≤ b.chainSeq :=
    List.pairwise_insertionSort _ _
  rw [← List.take_append_drop pageLimit sorted, List.pairwise_append] at hpair
  rw [← List.take_append_drop pageLimit sorted, List.mem_append] at hmem
  rcases hmem with hmem | hmem
  · exact Or.inl hmem
  · refine Or.inr ⟨?_, fun r hr => hpair.2.2 r hr row hmem⟩
    intro hnil
    have hlength := congrArg List.length (show sorted.take pageLimit = [] from hnil)
    have hdrop := List.length_pos_of_mem hmem
    rw [List.length_take] at hlength
    rw [List.length_drop] at hdrop
    simp only [pageLimit, List.length_nil] at hlength hdrop
    omega

theorem page_pairwise (hnodup : (rows.map fun row => row.chainSeq).Nodup) :
    (f.page rows lastSeq).Pairwise fun a b => a.chainSeq < b.chainSeq := by
  have hfilter : ((rows.filter fun row => lastSeq < row.chainSeq ∧ f.Matches row).insertionSort
      fun a b => a.chainSeq ≤ b.chainSeq).Pairwise fun a b => a.chainSeq ≠ b.chainSeq := by
    refine (List.perm_insertionSort _ _).symm.pairwise ?_ fun h => Ne.symm h
    exact (List.pairwise_map.mp hnodup).filter _
  have hsorted := (List.pairwise_insertionSort (fun a b : AuditRow => a.chainSeq ≤ b.chainSeq)
    (rows.filter fun row => lastSeq < row.chainSeq ∧ f.Matches row)).and hfilter
  refine (hsorted.imp ?_).sublist (List.take_sublist _ _)
  intro a b h
  exact lt_of_le_of_ne h.1 h.2

/-- The loop prints committed rows in increasing order. -/
structure TailOk (f : TailFilter) (s : TailState ι) : Prop where
  sequence : SequenceOk s.store
  increasing : s.fetched.Pairwise fun a b => a.chainSeq < b.chainSeq
  stored : ∀ r ∈ s.fetched, r ∈ s.store.rows
  mark : s.printed = [] ∧ s.lastSeq = 0 ∨ ∃ r ∈ s.printed, s.lastSeq = r.chainSeq
  above : ∀ r ∈ s.printed, r.chainSeq ≤ s.lastSeq
  polled : ∀ n, s.polled = some (n, []) → s.pending = [] ∧ n ≤ s.store.commits.length ∧
    f.page ((s.store.commits.take n).map Prod.snd) s.lastSeq = []

omit [DecidableEq ι] in
theorem TailOk.initial : TailOk f (TailState.initial : TailState ι) where
  sequence := .initial
  increasing := List.Pairwise.nil
  stored := by
    intro r hr
    cases hr
  mark := Or.inl ⟨rfl, rfl⟩
  above := by
    intro r hr
    cases hr
  polled := by
    intro n hn
    cases hn

namespace TailOk

variable {s t : TailState ι}

theorem rows_subset {store : State ι} (hstep : Step K calls s.store store) :
    ∀ r ∈ s.store.rows, r ∈ store.rows := by
  intro r hr
  rcases rows_of_step hstep with hsame | ⟨i, row, -, hnew⟩
  · rwa [State.rows, hsame]
  · rw [State.rows, hnew, List.map_append]
    exact List.mem_append_left _ hr

theorem step (h : TailOk f s) (hstep : TailStep K calls f s t) : TailOk f t := by
  cases hstep with
  | insert store hstep =>
      refine ⟨h.sequence.step hstep, h.increasing,
        fun r hr => rows_subset hstep r (h.stored r hr), h.mark, h.above, ?_⟩
      intro n hn
      obtain ⟨hidle, hle, hpage⟩ := h.polled n hn
      rcases rows_of_step hstep with hsame | ⟨i, row, -, hnew⟩
      · rw [hsame]
        exact ⟨hidle, hle, hpage⟩
      · rw [hnew, List.take_append_of_le_length hle, List.length_append]
        exact ⟨hidle, Nat.le_add_right_of_le hle, hpage⟩
  | poll hidle =>
      have hnew : ∀ r ∈ f.page s.store.rows s.lastSeq, ∀ r' ∈ s.printed,
          r'.chainSeq < r.chainSeq := by
        intro r hr r' hr'
        exact lt_of_le_of_lt (h.above r' hr') (mem_of_mem_page hr).2.1
      refine ⟨h.sequence, ?_, ?_, h.mark, h.above, ?_⟩
      · have hprinted := h.increasing
        rw [TailState.fetched, hidle, List.append_nil] at hprinted
        exact List.pairwise_append.mpr ⟨hprinted, page_pairwise h.sequence.nodup,
          fun r' hr' r hr => hnew r hr r' hr'⟩
      · intro r hr
        rcases List.mem_append.mp hr with hr | hr
        · exact h.stored r (List.mem_append_left _ hr)
        · exact (mem_of_mem_page hr).1
      · intro n hn
        obtain ⟨rfl, hpage⟩ := Prod.mk.inj (Option.some.inj hn)
        refine ⟨hpage, le_rfl, ?_⟩
        rw [List.take_length]
        exact hpage
  | print row rest hpending =>
      have hfetched : s.printed ++ [row] ++ rest = s.fetched := by
        rw [TailState.fetched, hpending, List.append_assoc]
        rfl
      have hpair := h.increasing
      rw [TailState.fetched, hpending, List.pairwise_append] at hpair
      refine ⟨h.sequence, ?_, ?_, ?_, ?_, ?_⟩
      · change (s.printed ++ [row] ++ rest).Pairwise _
        rw [hfetched]
        exact h.increasing
      · change ∀ r ∈ s.printed ++ [row] ++ rest, _
        rw [hfetched]
        exact h.stored
      · exact Or.inr ⟨row, by simp, rfl⟩
      · intro r hr
        rcases List.mem_append.mp hr with hr | hr
        · exact le_of_lt (hpair.2.2 r hr row List.mem_cons_self)
        · rw [List.mem_singleton.mp hr]
      · intro n hn
        have hnone := (h.polled n hn).1
        rw [hpending] at hnone
        cases hnone

theorem of_reachable (h : (tailSystem K calls f).Reachable s) : TailOk f s := by
  refine System.invariant ?_ ?_ h
  · rintro s rfl
    exact .initial
  · intro s t _ hok hstep
    exact hok.step hstep

omit [DecidableEq ι] in
/-- Nothing is printed twice. -/
theorem printed_nodup (h : TailOk f s) : s.printed.Nodup := by
  have hpair := (List.pairwise_append.mp h.increasing).1
  exact hpair.imp fun hlt heq => absurd (congrArg AuditRow.chainSeq heq) (ne_of_lt hlt)

end TailOk

/-! ## Rows that are in time -/

/-- Every matching row is fetched, or above all that is fetched. -/
def Pursued (f : TailFilter) (s : TailState ι) : Prop :=
  ∀ row ∈ s.store.rows, f.Matches row →
    row ∈ s.fetched ∨ ∀ r ∈ s.fetched, r.chainSeq < row.chainSeq

variable {s t : TailState ι}

omit [DecidableEq ι] in
/-- The mark is below a row that is above everything fetched. -/
theorem TailOk.lastSeq_lt (h : TailOk f s) (hrow : row ∈ s.store.rows)
    (habove : ∀ r ∈ s.fetched, r.chainSeq < row.chainSeq) : s.lastSeq < row.chainSeq := by
  rcases h.mark with ⟨-, hzero⟩ | ⟨r, hr, hmark⟩
  · rw [hzero]
    exact (h.sequence.committed row hrow).1
  · rw [hmark]
    exact habove r (List.mem_append_left _ hr)

theorem Pursued.step (h : Pursued f s) (hok : TailOk f s) (hstep : TailStep K calls f s t)
    (htimely : Timely f s t) : Pursued f t := by
  cases hstep with
  | insert store hstep =>
      intro row hrow hmatch
      by_cases hold : row ∈ s.store.rows
      · exact h row hold hmatch
      · exact Or.inr (htimely row hrow hold hmatch)
  | poll hidle =>
      intro row hrow hmatch
      have hfetched : s.fetched = s.printed := by
        rw [TailState.fetched, hidle, List.append_nil]
      change row ∈ s.printed ++ f.page s.store.rows s.lastSeq ∨
        ∀ r ∈ s.printed ++ f.page s.store.rows s.lastSeq, r.chainSeq < row.chainSeq
      rcases h row hrow hmatch with hmem | habove
      · rw [hfetched] at hmem
        exact Or.inl (List.mem_append_left _ hmem)
      · have hseq := hok.lastSeq_lt hrow habove
        by_cases hpage : row ∈ f.page s.store.rows s.lastSeq
        · exact Or.inl (List.mem_append_right _ hpage)
        · have hle := ((mem_page_or_le hrow hseq hmatch).resolve_left hpage).2
          refine Or.inr ?_
          intro r hr
          rcases List.mem_append.mp hr with hr | hr
          · exact habove r (hfetched ▸ hr)
          · refine lt_of_le_of_ne (hle r hr) ?_
            intro heq
            have hsame : r = row := List.inj_on_of_nodup_map hok.sequence.nodup
              (mem_of_mem_page hr).1 hrow heq
            exact hpage (hsame ▸ hr)
  | print row rest hpending =>
      have hfetched : s.printed ++ [row] ++ rest = s.fetched := by
        rw [TailState.fetched, hpending, List.append_assoc]
        rfl
      intro row' hrow' hmatch
      change row' ∈ s.printed ++ [row] ++ rest ∨ ∀ r ∈ s.printed ++ [row] ++ rest, _
      rw [hfetched]
      exact h row' hrow' hmatch

theorem pursued_of_reachable
    (h : ((tailSystem K calls f).along (Timely f)).Reachable s) : Pursued f s := by
  refine System.invariant ?_ ?_ h
  · rintro s rfl row hrow
    cases hrow
  · rintro s t hreach hpursued ⟨hstep, htimely⟩
    exact hpursued.step (.of_reachable hreach.of_along) hstep htimely

omit [DecidableEq ι] in
/-- At rest everything that was pursued is printed. -/
theorem printed_of_pursued (h : Pursued f s) (hok : TailOk f s) (hquiet : s.Quiescent)
    (hrow : row ∈ s.store.rows) (hmatch : f.Matches row) : row ∈ s.printed := by
  obtain ⟨hidle, -, hpage⟩ := hok.polled _ hquiet.2
  rw [List.take_length] at hpage
  rcases h row hrow hmatch with hmem | habove
  · rwa [TailState.fetched, hidle, List.append_nil] at hmem
  · exfalso
    rcases mem_page_or_le (f := f) hrow (hok.lastSeq_lt hrow habove) hmatch with
      hmem | ⟨hne, -⟩
    · exact List.not_mem_nil (hpage ▸ hmem)
    · exact hne hpage

/-! ## Rows that come too late -/

/-- The row is not fetched although a row with a number not below it is. -/
def Passed (row : AuditRow) (s : TailState ι) : Prop :=
  row ∉ s.fetched ∧ ∃ r ∈ s.fetched, row.chainSeq ≤ r.chainSeq

theorem Passed.step (h : Passed row s) (hok : TailOk f s) (hstep : TailStep K calls f s t) :
    Passed row t := by
  cases hstep with
  | insert store hstep => exact h
  | poll hidle =>
      obtain ⟨hnot, r, hr, hle⟩ := h
      have hprinted : r ∈ s.printed := by
        rwa [TailState.fetched, hidle, List.append_nil] at hr
      refine ⟨?_, r, List.mem_append_left _ hprinted, hle⟩
      intro hmem
      rcases List.mem_append.mp hmem with hmem | hmem
      · exact hnot (List.mem_append_left _ hmem)
      · exact absurd (hle.trans (hok.above r hprinted)) (not_le.mpr (mem_of_mem_page hmem).2.1)
  | print row' rest hpending =>
      have hfetched : s.printed ++ [row'] ++ rest = s.fetched := by
        rw [TailState.fetched, hpending, List.append_assoc]
        rfl
      change row ∉ s.printed ++ [row'] ++ rest ∧ ∃ r ∈ s.printed ++ [row'] ++ rest, _
      rw [hfetched]
      exact h

/-- A row that was passed is never printed. -/
theorem never_printed (h : Passed row s) (hreach : (tailSystem K calls f).Reachable s)
    (hrun : Relation.ReflTransGen (TailStep K calls f) s t) : row ∉ t.printed := by
  have hpassed : Passed row t ∧ (tailSystem K calls f).Reachable t := by
    induction hrun with
    | refl => exact ⟨h, hreach⟩
    | tail _ hstep ih =>
        exact ⟨ih.1.step (.of_reachable ih.2) hstep, ih.2.next hstep⟩
  exact fun hmem => hpassed.1.1 (List.mem_append_left _ hmem)

/-- Nothing is printed twice; in runs in which every matching row is committed in time all
matching rows are printed at rest; and a row that is not in time is never printed. -/
theorem tail_complete (K : ModuleKeys) (calls : ι → ChainBuilder) (f : TailFilter) :
    (∀ s, (tailSystem K calls f).Reachable s → s.printed.Nodup) ∧
    (∀ s, ((tailSystem K calls f).along (Timely f)).Reachable s → s.Quiescent →
      ∀ row ∈ s.store.rows, f.Matches row → row ∈ s.printed) ∧
    ∀ s t, (tailSystem K calls f).Reachable s → TailStep K calls f s t → ¬Timely f s t →
      ∃ row ∈ t.store.rows, f.Matches row ∧
        ∀ u, Relation.ReflTransGen (TailStep K calls f) t u → row ∉ u.printed := by
  refine ⟨fun s hreach => (TailOk.of_reachable hreach).printed_nodup, ?_, ?_⟩
  · intro s hreach hquiet row hrow hmatch
    exact printed_of_pursued (pursued_of_reachable hreach) (.of_reachable hreach.of_along)
      hquiet hrow hmatch
  · intro s t hreach hstep hlate
    rw [Timely] at hlate
    push Not at hlate
    obtain ⟨row, hrow, hnew, hmatch, r, hr, hle⟩ := hlate
    refine ⟨row, hrow, hmatch, fun u hrun => ?_⟩
    refine never_printed ?_ (hreach.next hstep) hrun
    have hok := TailOk.of_reachable hreach
    have hpassed : Passed row s := ⟨fun hmem => hnew (hok.stored row hmem), r, hr, hle⟩
    exact hpassed.step hok hstep

/-! ## Runs of the table under a loop -/

theorem reachable_insert_run {store : State ι} (hreach : (tailSystem K calls f).Reachable s)
    (hrun : Relation.ReflTransGen (Step K calls) s.store store) :
    (tailSystem K calls f).Reachable { s with store := store } := by
  induction hrun with
  | refl => exact hreach
  | tail _ hstep ih => exact ih.next (.insert _ hstep)

/-- Before anything is fetched every insert is in time. -/
theorem timely_insert_run {store : State ι}
    (hreach : ((tailSystem K calls f).along (Timely f)).Reachable s) (hnone : s.fetched = [])
    (hrun : Relation.ReflTransGen (Step K calls) s.store store) :
    ((tailSystem K calls f).along (Timely f)).Reachable { s with store := store } := by
  induction hrun with
  | refl => exact hreach
  | tail _ hstep ih =>
      refine ih.next ⟨.insert _ hstep, ?_⟩
      intro row _ _ _ r hr
      change r ∈ s.fetched at hr
      rw [hnone] at hr
      cases hr

omit [DecidableEq ι] in
/-- A step of the loop itself commits nothing. -/
theorem timely_of_store_eq (h : t.store = s.store) : Timely f s t := by
  intro row hrow hnew
  rw [h] at hrow
  exact absurd hrow hnew

end

/-! ## Two sessions -/

/-- A call for each of two sessions that do not share a lock. -/
def pairCalls (other : Bool) : ChainBuilder := if other then otherCall else firstCall

def everything : TailFilter := ⟨none, none⟩

def firstRow : AuditRow := ⟨1, sampleRecord₁, none⟩

def otherRow : AuditRow := ⟨2, otherRecord, none⟩

theorem first_inserted : ∃ σ : State Bool,
    Relation.ReflTransGen (Step twoSessionKeys pairCalls) .initial σ ∧ σ.commits = [] ∧
      σ.nextSeq = 2 ∧ σ.phase false = .inserted firstRow ∧ σ.phase true = .idle ∧
      σ.lock (sessionLockKey otherSession) = none := by
  have h₁ : Relation.ReflTransGen (Step twoSessionKeys pairCalls) .initial _ :=
    .single (.readHead _ false [] rfl List.nil_prefix)
  have h₂ := h₁.tail (.build _ false none ⟨1⟩ sampleTime _ rfl firstCall_build)
  have h₃ := h₂.tail (.acquire _ false none _ rfl rfl)
  have h₄ := h₃.tail (.headUnchanged _ false none _ rfl rfl)
  have h₅ := h₄.tail (.insert _ false _ rfl (by rintro row ⟨⟩))
  have hkey : sessionLockKey otherSession ≠ sessionLockKey ⟨100⟩ := by decide
  exact ⟨_, h₅, rfl, rfl, rfl, rfl, Function.update_of_ne hkey (some false) _⟩

/-- The first call is over before the other one starts. -/
theorem first_committed : ∃ σ : State Bool,
    Relation.ReflTransGen (Step twoSessionKeys pairCalls) .initial σ ∧
      σ.commits = [(false, firstRow)] ∧ ∀ i, ¬(σ.phase i).Running := by
  obtain ⟨σ, hrun, hcommits, -, hfirst, hother, -⟩ := first_inserted
  refine ⟨_, hrun.tail (.commit σ false firstRow hfirst), ?_, ?_⟩
  · change σ.commits ++ _ = _
    rw [hcommits]
    rfl
  · rintro (_ | _) hrunning
    · rw [setPhase_self] at hrunning
      exact hrunning
    · rw [setPhase_of_ne (by decide)] at hrunning
      change (σ.phase true).Running at hrunning
      rw [hother] at hrunning
      exact hrunning

/-- The other call overtakes the first one. -/
theorem first_overtaken : ∃ σ : State Bool,
    Relation.ReflTransGen (Step twoSessionKeys pairCalls) .initial σ ∧
      σ.commits = [(true, otherRow)] ∧ σ.phase false = .inserted firstRow ∧
      ¬(σ.phase true).Running := by
  obtain ⟨σ, hrun, hcommits, hseq, hfirst, hother, hlock⟩ := first_inserted
  have hrows : σ.rows = [] := by rw [State.rows, hcommits]; rfl
  have hhead : latestHmac σ.rows (session pairCalls true) = none := by rw [hrows]; rfl
  have h₁ := hrun.tail (.readHead _ true [] hother List.nil_prefix)
  have h₂ := h₁.tail (.build _ true none ⟨2⟩ sampleTime _ (setPhase_self ..) otherCall_build)
  have h₃ := h₂.tail (.acquire _ true none _ (setPhase_self ..) hlock)
  have h₄ := h₃.tail (.headUnchanged _ true none _ (setPhase_self ..) hhead)
  have h₅ := h₄.tail (.insert _ true _ (setPhase_self ..) (by
    intro row hrow
    change row ∈ σ.rows at hrow
    rw [hrows] at hrow
    cases hrow))
  have h₆ := h₅.tail (.commit _ true _ (setPhase_self ..))
  refine ⟨_, h₆, ?_, ?_, ?_⟩
  · change σ.commits ++ [(true, ⟨σ.nextSeq, otherRecord, none⟩)] = _
    rw [hcommits, hseq]
    rfl
  · rw [setPhase_of_ne (by decide)]
    exact hfirst
  · rw [setPhase_self]
    exact not_false

/-- One row, committed before the loop polls, is printed. -/
theorem first_row_printed : ∃ s : TailState Bool,
    ((tailSystem twoSessionKeys pairCalls everything).along (Timely everything)).Reachable s ∧
      s.Quiescent ∧ firstRow ∈ s.printed := by
  obtain ⟨σ, hrun, hcommits, hquiet⟩ := first_committed
  have hrows : σ.rows = [firstRow] := by rw [State.rows, hcommits]; rfl
  have hdone : ∃ s : TailState Bool, ((tailSystem twoSessionKeys pairCalls everything).along
      (Timely everything)).Reachable s ∧ s.Quiescent ∧ s.store = σ := by
    have h₀ : ((tailSystem twoSessionKeys pairCalls everything).along
        (Timely everything)).Reachable _ := timely_insert_run (.start rfl) rfl hrun
    have hpage : everything.page σ.rows 0 = [firstRow] := by rw [hrows]; rfl
    have hempty : everything.page σ.rows 1 = [] := by rw [hrows]; rfl
    have h₁ := h₀.next ⟨.poll rfl, timely_of_store_eq rfl⟩
    have h₂ := h₁.next ⟨.print firstRow [] hpage, timely_of_store_eq rfl⟩
    have h₃ := h₂.next ⟨.poll rfl, timely_of_store_eq rfl⟩
    refine ⟨_, h₃, ⟨hquiet, ?_⟩, rfl⟩
    change some (σ.commits.length, everything.page σ.rows 1) = some (σ.commits.length, [])
    rw [hempty]
  obtain ⟨s, hreach, hquiescent, rfl⟩ := hdone
  exact ⟨s, hreach, hquiescent, (tail_complete _ _ _).2.1 s hreach hquiescent firstRow
    (by simp [hrows]) (by decide)⟩

/-- A row that commits after the loop has printed a later one is lost. -/
theorem overtaken_row_lost : ∃ s : TailState Bool,
    (tailSystem twoSessionKeys pairCalls everything).Reachable s ∧ s.Quiescent ∧
      firstRow ∈ s.store.rows ∧ everything.Matches firstRow ∧ firstRow ∉ s.printed := by
  obtain ⟨σ, hrun, hcommits, hfirst, hother⟩ := first_overtaken
  have hrows : σ.rows = [otherRow] := by rw [State.rows, hcommits]; rfl
  have h₀ : (tailSystem twoSessionKeys pairCalls everything).Reachable _ :=
    reachable_insert_run (.start rfl) hrun
  have hpage : everything.page σ.rows 0 = [otherRow] := by rw [hrows]; rfl
  have h₁ := h₀.next (.poll rfl)
  have h₂ := h₁.next (.print otherRow [] hpage)
  have h₃ := h₂.next (.insert _ (.commit σ false firstRow hfirst))
  have h₄ := h₃.next (.poll rfl)
  have hafter : (({ σ with commits := σ.commits ++ [(false, firstRow)] }.release
      false).setPhase false (.returned firstRow.record)).rows = [otherRow, firstRow] := by
    change (σ.commits ++ [(false, firstRow)]).map Prod.snd = _
    rw [hcommits]
    rfl
  have hempty : everything.page [otherRow, firstRow] 2 = [] := rfl
  refine ⟨_, h₄, ⟨?_, ?_⟩, ?_, by decide, ?_⟩
  · rintro (_ | _) hrunning
    · change ((State.setPhase _ false _).phase false).Running at hrunning
      rw [setPhase_self] at hrunning
      exact hrunning
    · change ((State.setPhase _ false _).phase true).Running at hrunning
      rw [setPhase_of_ne (by decide)] at hrunning
      exact hother hrunning
  · change some (_, everything.page (State.rows _) 2) = some (_, [])
    rw [hafter, hempty]
  · rw [hafter]
    simp
  · change firstRow ∉ [otherRow]
    intro hmem
    have heq := congrArg AuditRow.chainSeq (List.mem_singleton.mp hmem)
    cases heq

end AgenticGovernance.Cli

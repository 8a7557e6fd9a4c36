import Mathlib
import AgenticGovernance.Audit.Builder
import AgenticGovernance.Support.Transition

/-!
# Concurrent chain inserts into Postgres

`PostgresAuditStore.insert_with_chain_lock` runs in any number of workers.  A
call reads the chain head without a lock, builds its record on it, and only then
opens a transaction that takes the session's advisory lock, reads the head again
and rebuilds the record if the head has moved.

The model is a step relation.  `ι` names the calls, each in its own phase, and
Postgres contributes the committed rows, the `chain_seq` sequence and the
advisory locks.  The invariant `Inv` says that at most one call is inside the
lock of a session, and that the record it is about to insert continues the
committed chain.
-/

namespace AgenticGovernance.Audit

open Support

/-- A row of `governance_audit_events`. -/
structure AuditRow where
  chainSeq : ℕ
  record : AuditEventRecord
  hmacNext : Option String

/-- The rows of one session, in the order they are listed in. -/
def sessionRows (rows : List AuditRow) (sid : Uuid) : List AuditRow :=
  rows.filter fun row => row.record.sessionId = sid

/-- `SELECT hmac_value ... WHERE session_id = :sid ORDER BY chain_seq DESC LIMIT 1` -/
def latestHmac (rows : List AuditRow) (sid : Uuid) : Option String :=
  ((sessionRows rows sid).argmax fun row => row.chainSeq).map fun row => row.record.hmac

/-- `SELECT ... WHERE session_id = :sid ORDER BY chain_seq` -/
def getSessionEvents (rows : List AuditRow) (sid : Uuid) : List AuditEventRecord :=
  ((sessionRows rows sid).insertionSort fun a b => a.chainSeq ≤ b.chainSeq).map
    fun row => row.record

/-- The first eight bytes of the UUID, as a signed 64-bit integer. -/
def sessionLockKey (sid : Uuid) : ℤ := (sid.bits.extractLsb' 64 64).toInt

/-! ## Tables whose sessions are chains -/

theorem sessionRows_concat (rows : List AuditRow) (row : AuditRow) (sid : Uuid) :
    sessionRows (rows ++ [row]) sid =
      if row.record.sessionId = sid then sessionRows rows sid ++ [row]
      else sessionRows rows sid := by
  by_cases h : row.record.sessionId = sid
  · simp [sessionRows, h]
  · simp [sessionRows, h]

theorem argmax_chainSeq_eq_getLast? {rows : List AuditRow}
    (h : rows.Pairwise fun a b => a.chainSeq < b.chainSeq) :
    (rows.argmax fun row => row.chainSeq) = rows.getLast? := by
  induction rows using List.reverseRecOn with
  | nil => rfl
  | append_singleton rows row ih =>
      rw [List.pairwise_append] at h
      rw [List.argmax_concat, ih h.1, List.getLast?_concat]
      cases hlast : rows.getLast? with
      | none => rfl
      | some last =>
          have hmem : last ∈ rows := List.mem_of_getLast? hlast
          exact if_pos (h.2.2 last hmem row (by simp))

section Increasing

variable {rows : List AuditRow} {sid : Uuid}

theorem latestHmac_eq_of_increasing
    (h : (sessionRows rows sid).Pairwise fun a b => a.chainSeq < b.chainSeq) :
    latestHmac rows sid = lastHmac ((sessionRows rows sid).map fun row => row.record) := by
  rw [latestHmac, argmax_chainSeq_eq_getLast? h, lastHmac, tip_eq_getLast?,
    List.getLast?_map, Option.map_map]
  rfl

theorem getSessionEvents_eq_of_increasing
    (h : (sessionRows rows sid).Pairwise fun a b => a.chainSeq < b.chainSeq) :
    getSessionEvents rows sid = (sessionRows rows sid).map fun row => row.record := by
  rw [getSessionEvents, List.Pairwise.insertionSort_eq]
  exact h.imp fun hlt => le_of_lt hlt

end Increasing

/-- In every session `chain_seq` follows the order of the rows, the rows are a
linear chain in that order, and each carries its own HMAC.  Sequence values from
`nextSeq` on have not been drawn. -/
structure TableOk (K : ModuleKeys) (rows : List AuditRow) (nextSeq : ℕ) : Prop where
  drawn : ∀ row ∈ rows, row.chainSeq < nextSeq
  increasing : ∀ sid,
    (sessionRows rows sid).Pairwise fun a b => a.chainSeq < b.chainSeq
  linked : ∀ sid, ChainFrom none ((sessionRows rows sid).map fun row => row.record)
  authentic : ∀ row ∈ rows,
    row.record.hmac = computeEventHmac K.hmac K.secret row.record.toEventContent

namespace TableOk

variable {K : ModuleKeys} {rows : List AuditRow} {n : ℕ}

theorem nil : TableOk K [] n where
  drawn := by simp
  increasing := by simp [sessionRows]
  linked := by simp [sessionRows]
  authentic := by simp

theorem mono {m : ℕ} (h : TableOk K rows n) (hnm : n ≤ m) : TableOk K rows m where
  drawn := fun row hrow => lt_of_lt_of_le (h.drawn row hrow) hnm
  increasing := h.increasing
  linked := h.linked
  authentic := h.authentic

/-- The head that `insert_with_chain_lock` reads is the end of the chain. -/
theorem latestHmac_eq (h : TableOk K rows n) (sid : Uuid) :
    latestHmac rows sid = lastHmac ((sessionRows rows sid).map fun row => row.record) :=
  latestHmac_eq_of_increasing (h.increasing sid)

theorem getSessionEvents_eq (h : TableOk K rows n) (sid : Uuid) :
    getSessionEvents rows sid = (sessionRows rows sid).map fun row => row.record :=
  getSessionEvents_eq_of_increasing (h.increasing sid)

/-- A row built on the head of its session, with a later `chain_seq`, extends
the table. -/
theorem concat (h : TableOk K rows n) {sid : Uuid} {row : AuditRow}
    (hbuilt : BuiltOn K sid (latestHmac rows sid) row.record)
    (hdrawn : row.chainSeq < n)
    (hlater : ∀ old ∈ sessionRows rows sid, old.chainSeq < row.chainSeq) :
    TableOk K (rows ++ [row]) n where
  drawn := by
    intro x hx
    rcases List.mem_append.mp hx with hx | hx
    · exact h.drawn x hx
    · rw [List.mem_singleton.mp hx]
      exact hdrawn
  increasing := by
    intro sid'
    rw [sessionRows_concat]
    split
    · rename_i hsid
      rw [hbuilt.sessionId] at hsid
      subst hsid
      rw [List.pairwise_append]
      refine ⟨h.increasing sid, List.pairwise_singleton _ _, ?_⟩
      intro old hold x hx
      rw [List.mem_singleton.mp hx]
      exact hlater old hold
    · exact h.increasing sid'
  linked := by
    intro sid'
    rw [sessionRows_concat]
    split
    · rename_i hsid
      rw [hbuilt.sessionId] at hsid
      subst hsid
      rw [List.map_append, List.map_singleton]
      apply (linkedFrom_concat _ _ _).mpr
      exact ⟨h.linked sid, hbuilt.prevHash.trans (h.latestHmac_eq sid)⟩
    · exact h.linked sid'
  authentic := by
    intro x hx
    rcases List.mem_append.mp hx with hx | hx
    · exact h.authentic x hx
    · rw [List.mem_singleton.mp hx]
      exact hbuilt.hmac

end TableOk

namespace PostgresStore

/-- Where a call of `insert_with_chain_lock` is. -/
inductive Phase where
  | idle
  | optimistic (prev : Option String)
  | built (prev : Option String) (record : AuditEventRecord)
  | locked (prev : Option String) (record : AuditEventRecord)
  | checked (record : AuditEventRecord)
  | inserted (row : AuditRow)
  | returned (record : AuditEventRecord)
  | raised

/-- The transaction is open and holds the advisory lock. -/
def Phase.InLock : Phase → Prop
  | locked _ _ => True
  | checked _ => True
  | inserted _ => True
  | _ => False

/-- The call has started and has not ended. -/
def Phase.Running : Phase → Prop
  | idle => False
  | returned _ => False
  | raised => False
  | _ => True

/-- `commits` lists the committed rows in commit order, each with the call that
inserted it. -/
structure State (ι : Type*) where
  commits : List (ι × AuditRow)
  nextSeq : ℕ
  lock : ℤ → Option ι
  phase : ι → Phase

variable {ι : Type*} [DecidableEq ι]

def State.rows (s : State ι) : List AuditRow := s.commits.map Prod.snd

def State.initial : State ι where
  commits := []
  nextSeq := 1
  lock := fun _ => none
  phase := fun _ => .idle

def State.setPhase (s : State ι) (i : ι) (p : Phase) : State ι :=
  { s with phase := Function.update s.phase i p }

/-- The end of the transaction of call `i`, by commit or rollback. -/
def State.release (s : State ι) (i : ι) : State ι :=
  { s with lock := fun k => if s.lock k = some i then none else s.lock k }

variable (K : ModuleKeys) (calls : ι → ChainBuilder)

/-- The session a call writes to. -/
abbrev session (i : ι) : Uuid := (calls i).logCall.sessionId

inductive Step : State ι → State ι → Prop
  | readHead (s : State ι) (i : ι) (snapshot : List AuditRow)
      (hphase : s.phase i = .idle) (hsnapshot : snapshot <+: s.rows) :
      Step s (s.setPhase i (.optimistic (latestHmac snapshot (session calls i))))
  | build (s : State ι) (i : ι) (prev : Option String) (eventId : Uuid)
      (now : Datetime) (record : AuditEventRecord)
      (hphase : s.phase i = .optimistic prev)
      (hbuild : (calls i).build K eventId now prev = some record) :
      Step s (s.setPhase i (.built prev record))
  | acquire (s : State ι) (i : ι) (prev : Option String)
      (record : AuditEventRecord) (hphase : s.phase i = .built prev record)
      (hfree : s.lock (sessionLockKey (session calls i)) = none) :
      Step s
        ({ s with
            lock := Function.update s.lock (sessionLockKey (session calls i)) (some i)
         }.setPhase i (.locked prev record))
  | headUnchanged (s : State ι) (i : ι) (prev : Option String)
      (record : AuditEventRecord) (hphase : s.phase i = .locked prev record)
      (hhead : latestHmac s.rows (session calls i) = prev) :
      Step s (s.setPhase i (.checked record))
  | rebuild (s : State ι) (i : ι) (prev : Option String)
      (stale record : AuditEventRecord) (eventId : Uuid) (now : Datetime)
      (hphase : s.phase i = .locked prev stale)
      (hhead : latestHmac s.rows (session calls i) ≠ prev)
      (hbuild : (calls i).build K eventId now
        (latestHmac s.rows (session calls i)) = some record) :
      Step s (s.setPhase i (.checked record))
  | insert (s : State ι) (i : ι) (record : AuditEventRecord)
      (hphase : s.phase i = .checked record)
      (hkey : ∀ row ∈ s.rows, row.record.eventId ≠ record.eventId) :
      Step s
        ({ s with nextSeq := s.nextSeq + 1
         }.setPhase i (.inserted ⟨s.nextSeq, record, none⟩))
  | commit (s : State ι) (i : ι) (row : AuditRow)
      (hphase : s.phase i = .inserted row) :
      Step s
        (({ s with commits := s.commits ++ [(i, row)]
          }.release i).setPhase i (.returned row.record))
  -- any statement or builder invocation may raise; the transaction rolls back,
  -- and a sequence value it drew stays used
  | fail (s : State ι) (i : ι) (hphase : (s.phase i).Running) :
      Step s ((s.release i).setPhase i .raised)

def system : System (State ι) where
  init s := s = State.initial
  step := Step K calls

variable {K : ModuleKeys} {calls : ι → ChainBuilder} {s t : State ι}

@[simp] theorem setPhase_self (i : ι) (p : Phase) : (s.setPhase i p).phase i = p :=
  Function.update_self ..

theorem setPhase_of_ne {i j : ι} (h : j ≠ i) (p : Phase) :
    (s.setPhase i p).phase j = s.phase j :=
  Function.update_of_ne h ..

/-! ## Mutual exclusion -/

/-- A call inside its transaction holds the lock of its session. -/
def Exclusive (calls : ι → ChainBuilder) (s : State ι) : Prop :=
  ∀ i, (s.phase i).InLock → s.lock (sessionLockKey (session calls i)) = some i

omit [DecidableEq ι] in
theorem Exclusive.eq_of_session_eq (h : Exclusive calls s) {i j : ι}
    (hi : (s.phase i).InLock) (hj : (s.phase j).InLock)
    (hsession : session calls i = session calls j) : i = j := by
  have hlock := h i hi
  rw [hsession, h j hj] at hlock
  exact (Option.some.inj hlock).symm

theorem Exclusive.setPhase (h : Exclusive calls s) {i : ι} {p : Phase}
    (hp : p.InLock → (s.phase i).InLock) : Exclusive calls (s.setPhase i p) := by
  intro j hj
  by_cases hji : j = i
  · subst hji
    rw [setPhase_self] at hj
    exact h j (hp hj)
  · rw [setPhase_of_ne hji] at hj
    exact h j hj

theorem Exclusive.release (h : Exclusive calls s) {i : ι} {p : Phase}
    (hp : ¬p.InLock) : Exclusive calls ((s.release i).setPhase i p) := by
  intro j hj
  by_cases hji : j = i
  · subst hji
    rw [setPhase_self] at hj
    exact absurd hj hp
  · rw [setPhase_of_ne hji] at hj
    have hlock := h j hj
    change (if s.lock _ = some i then none else s.lock _) = some j
    rw [hlock, if_neg fun heq => hji (Option.some.inj heq)]

theorem exclusive_step (h : Exclusive calls s) (hstep : Step K calls s t) :
    Exclusive calls t := by
  cases hstep with
  | readHead i snapshot hphase hsnapshot => exact h.setPhase False.elim
  | build i prev eventId now record hphase hbuild => exact h.setPhase False.elim
  | acquire i prev record hphase hfree =>
      intro j hj
      by_cases hji : j = i
      · subst hji
        exact Function.update_self ..
      · rw [setPhase_of_ne hji] at hj
        have hlock := h j hj
        have hkey : sessionLockKey (session calls j) ≠
            sessionLockKey (session calls i) := by
          intro heq
          rw [heq, hfree] at hlock
          cases hlock
        exact (Function.update_of_ne hkey ..).trans hlock
  | headUnchanged i prev record hphase hhead =>
      exact h.setPhase fun _ => by rw [hphase]; trivial
  | rebuild i prev stale record eventId now hphase hhead hbuild =>
      exact h.setPhase fun _ => by rw [hphase]; trivial
  | insert i record hphase hkey =>
      refine Exclusive.setPhase (s := { s with nextSeq := s.nextSeq + 1 }) h ?_
      exact fun _ => by rw [hphase]; trivial
  | commit i row hphase =>
      exact Exclusive.release
        (s := { s with commits := s.commits ++ [(i, row)] }) h False.elim
  | fail i hphase => exact h.release False.elim

/-! ## Every call accounts for its rows -/

/-- The rows that call `i` has committed. -/
def State.contributed (s : State ι) (i : ι) : List AuditRow :=
  (s.commits.filter fun c => c.1 = i).map Prod.snd

/-- A call that returned `r` has committed one row, with record `r`; any other
call none. -/
def Accounted (rows : List AuditRow) : Phase → Prop
  | .returned r => ∃ row, rows = [row] ∧ row.record = r
  | _ => rows = []

theorem accounted_setPhase {i : ι} {p : Phase}
    (h : ∀ j, Accounted (s.contributed j) (s.phase j))
    (hp : ∀ rows, Accounted rows (s.phase i) → Accounted rows p) (j : ι) :
    Accounted ((s.setPhase i p).contributed j) ((s.setPhase i p).phase j) := by
  by_cases hji : j = i
  · subst hji
    rw [setPhase_self]
    exact hp _ (h j)
  · rw [setPhase_of_ne hji]
    exact h j

theorem accounted_step (h : ∀ i, Accounted (s.contributed i) (s.phase i))
    (hstep : Step K calls s t) (j : ι) : Accounted (t.contributed j) (t.phase j) := by
  cases hstep with
  | readHead i snapshot hphase hsnapshot =>
      exact accounted_setPhase h (fun rows hi => by rwa [hphase] at hi) j
  | build i prev eventId now record hphase hbuild =>
      exact accounted_setPhase h (fun rows hi => by rwa [hphase] at hi) j
  | acquire i prev record hphase hfree =>
      refine accounted_setPhase (s := { s with lock := _ }) h (fun rows hi => ?_) j
      rwa [hphase] at hi
  | headUnchanged i prev record hphase hhead =>
      exact accounted_setPhase h (fun rows hi => by rwa [hphase] at hi) j
  | rebuild i prev stale record eventId now hphase hhead hbuild =>
      exact accounted_setPhase h (fun rows hi => by rwa [hphase] at hi) j
  | insert i record hphase hkey =>
      refine accounted_setPhase (s := { s with nextSeq := _ }) h (fun rows hi => ?_) j
      rwa [hphase] at hi
  | commit i row hphase =>
      by_cases hji : j = i
      · subst hji
        have hnone := h j
        rw [hphase] at hnone
        rw [setPhase_self]
        refine ⟨row, ?_, rfl⟩
        change ((s.commits ++ [(j, row)]).filter fun c => c.1 = j).map Prod.snd = [row]
        rw [List.filter_append, List.map_append]
        change s.contributed j ++ _ = _
        rw [hnone]
        simp
      · rw [setPhase_of_ne hji]
        have hsame : ((s.commits ++ [(i, row)]).filter fun c => c.1 = j).map Prod.snd =
            s.contributed j := by
          simp [State.contributed, Ne.symm hji]
        change Accounted (((s.commits ++ [(i, row)]).filter fun c => c.1 = j).map
          Prod.snd) (s.phase j)
        rw [hsame]
        exact h j
  | fail i hphase =>
      refine accounted_setPhase (s := s.release i) h (fun rows hi => ?_) j
      change Accounted rows (s.phase i) at hi
      cases hp : s.phase i <;> rw [hp] at hi hphase <;>
        first | exact hi | exact hphase.elim

/-! ## The record in flight continues the committed chain -/

/-- What a call knows about the record it carries.  Before the check under the
lock the record continues some earlier head; after it, the committed head. -/
def PhaseOk (K : ModuleKeys) (sid : Uuid) (rows : List AuditRow) (nextSeq : ℕ) :
    Phase → Prop
  | .built prev record => BuiltOn K sid prev record
  | .locked prev record => BuiltOn K sid prev record
  | .checked record => BuiltOn K sid (latestHmac rows sid) record
  | .inserted row =>
      BuiltOn K sid (latestHmac rows sid) row.record ∧ row.chainSeq < nextSeq ∧
        ∀ old ∈ sessionRows rows sid, old.chainSeq < row.chainSeq
  | _ => True

theorem PhaseOk.mono {sid : Uuid} {rows : List AuditRow} {n m : ℕ} {p : Phase}
    (h : PhaseOk K sid rows n p) (hnm : n ≤ m) : PhaseOk K sid rows m p := by
  cases p with
  | inserted row => exact ⟨h.1, lt_of_lt_of_le h.2.1 hnm, h.2.2⟩
  | _ => exact h

/-- A commit of another call leaves a call's knowledge intact: either that call
is outside the lock, or the commit was to another session. -/
theorem PhaseOk.concat {sid : Uuid} {rows : List AuditRow} {row : AuditRow}
    {n : ℕ} {p : Phase} (h : PhaseOk K sid rows n p)
    (hother : p.InLock → row.record.sessionId ≠ sid) :
    PhaseOk K sid (rows ++ [row]) n p := by
  have hrows : p.InLock → sessionRows (rows ++ [row]) sid = sessionRows rows sid :=
    fun hp => by rw [sessionRows_concat, if_neg (hother hp)]
  cases p with
  | checked record =>
      change BuiltOn K sid (latestHmac (rows ++ [row]) sid) record
      rw [latestHmac, hrows trivial]
      exact h
  | inserted row' =>
      change BuiltOn K sid (latestHmac (rows ++ [row]) sid) row'.record ∧ _ ∧
        ∀ old ∈ sessionRows (rows ++ [row]) sid, _
      rw [latestHmac, hrows trivial]
      exact h
  | _ => exact h

/-- The committed table is a family of chains and every call's record fits it. -/
structure ChainOk (K : ModuleKeys) (calls : ι → ChainBuilder) (s : State ι) :
    Prop where
  table : TableOk K s.rows s.nextSeq
  phases : ∀ i, PhaseOk K (session calls i) s.rows s.nextSeq (s.phase i)

theorem ChainOk.setPhase (h : ChainOk K calls s) {i : ι} {p : Phase}
    (hp : PhaseOk K (session calls i) s.rows s.nextSeq p) :
    ChainOk K calls (s.setPhase i p) where
  table := h.table
  phases := by
    intro j
    by_cases hji : j = i
    · subst hji
      rw [setPhase_self]
      exact hp
    · rw [setPhase_of_ne hji]
      exact h.phases j

theorem ChainOk.commit (h : ChainOk K calls s) (hexcl : Exclusive calls s) {i : ι}
    {row : AuditRow} (hphase : s.phase i = .inserted row) :
    ChainOk K calls
      (({ s with commits := s.commits ++ [(i, row)]
        }.release i).setPhase i (.returned row.record)) := by
  have hi := h.phases i
  rw [hphase] at hi
  obtain ⟨hbuilt, hdrawn, hlater⟩ := hi
  have hrows : ({ s with commits := s.commits ++ [(i, row)] } : State ι).rows =
      s.rows ++ [row] := by
    simp [State.rows]
  constructor
  · change TableOk K ({ s with commits := s.commits ++ [(i, row)] } : State ι).rows _
    rw [hrows]
    exact h.table.concat hbuilt hdrawn hlater
  · intro j
    change PhaseOk K _ ({ s with commits := s.commits ++ [(i, row)] } : State ι).rows _ _
    rw [hrows]
    by_cases hji : j = i
    · subst hji
      rw [setPhase_self]
      trivial
    · rw [setPhase_of_ne hji]
      refine (h.phases j).concat ?_
      intro hlock hsession
      rw [hbuilt.sessionId] at hsession
      have hin : (s.phase i).InLock := by rw [hphase]; trivial
      exact hji (hexcl.eq_of_session_eq hin hlock hsession).symm

theorem chainOk_step (h : ChainOk K calls s) (hexcl : Exclusive calls s)
    (hstep : Step K calls s t) : ChainOk K calls t := by
  cases hstep with
  | readHead i snapshot hphase hsnapshot => exact h.setPhase trivial
  | build i prev eventId now record hphase hbuild =>
      exact h.setPhase (ChainBuilder.build_builtOn hbuild)
  | acquire i prev record hphase hfree =>
      have hi := h.phases i
      rw [hphase] at hi
      have hlocked : ChainOk K calls { s with
          lock := Function.update s.lock (sessionLockKey (session calls i)) (some i) } :=
        ⟨h.table, h.phases⟩
      exact hlocked.setPhase hi
  | headUnchanged i prev record hphase hhead =>
      have hi := h.phases i
      rw [hphase] at hi
      subst hhead
      exact h.setPhase hi
  | rebuild i prev stale record eventId now hphase hhead hbuild =>
      exact h.setPhase (ChainBuilder.build_builtOn hbuild)
  | insert i record hphase hkey =>
      have hi := h.phases i
      rw [hphase] at hi
      refine ChainOk.setPhase (s := { s with nextSeq := s.nextSeq + 1 })
        ⟨h.table.mono (Nat.le_succ _), fun j => (h.phases j).mono (Nat.le_succ _)⟩ ?_
      refine ⟨hi, Nat.lt_succ_self _, ?_⟩
      intro old hold
      exact h.table.drawn old (List.mem_filter.mp hold).1
  | commit i row hphase => exact h.commit hexcl hphase
  | fail i hphase =>
      exact ChainOk.setPhase (s := s.release i) ⟨h.table, h.phases⟩ trivial

theorem exclusive_of_reachable (h : (system K calls).Reachable s) :
    Exclusive calls s := by
  refine System.invariant ?_ ?_ h
  · rintro s rfl i hi
    exact hi.elim
  · intro s t _ hinv hstep
    exact exclusive_step hinv hstep

theorem accounted_of_reachable (h : (system K calls).Reachable s) :
    ∀ i, Accounted (s.contributed i) (s.phase i) := by
  refine System.invariant (I := fun s => ∀ i, Accounted (s.contributed i) (s.phase i))
    ?_ ?_ h
  · rintro s rfl i
    rfl
  · intro s t _ hinv hstep
    exact accounted_step hinv hstep

theorem chainOk_of_reachable (h : (system K calls).Reachable s) :
    ChainOk K calls s := by
  refine System.invariant ?_ ?_ h
  · rintro s rfl
    exact ⟨.nil, fun _ => trivial⟩
  · intro s t hreach hinv hstep
    exact chainOk_step hinv (exclusive_of_reachable hreach) hstep

/-- In every reachable state the events of each session, in `chain_seq` order,
are one linear chain from a genesis event, every stored record verifies, and
every call has contributed one row if it returned and none otherwise. -/
theorem concurrent_inserts_linear (h : (system K calls).Reachable s) (sid : Uuid) :
    ((sessionRows s.rows sid).Pairwise fun a b => a.chainSeq < b.chainSeq) ∧
    ChainFrom none (getSessionEvents s.rows sid) ∧
    (∀ row ∈ s.rows, verifyEvent K.hmac row.record K.secret = .ok true) ∧
    ∀ i, Accounted (s.contributed i) (s.phase i) := by
  have hok := chainOk_of_reachable h
  refine ⟨hok.table.increasing sid, ?_, ?_, accounted_of_reachable h⟩
  · rw [hok.table.getSessionEvents_eq]
    exact hok.table.linked sid
  · intro row hrow
    exact verifyEvent_eq_ok_true_iff.mpr (hok.table.authentic row hrow)

/-! ### Two racing calls -/

def sampleEvent (metadata : Metadata) : AuditEvent where
  sessionId := some ⟨100⟩
  agentId := "agent-a"
  parentEventId := none
  kind := "llm.call"
  model := none
  inputHash := none
  outputHash := none
  metadata := metadata

def sampleLog (metadata : Metadata) : LogCall :=
  .begin (sampleEvent metadata) none none ⟨0⟩ sampleTime

def sampleCalls (second : Bool) : ChainBuilder :=
  .record (sampleLog (if second then [] else sampleFirst.metadata))

def staleDigest : BitVec 256 :=
  0x7c95b6e8bd1e383819a2e04b7064db1763de0e1d3f32729995a07242fac88687#256

/-- HMAC-SHA256 on the payloads of the race: the second call first builds on the
empty chain. -/
def sampleKeys : ModuleKeys where
  hmac := .ofTable
    [tableEntry sampleSecret sampleFirst sampleDigest₁,
     tableEntry sampleSecret sampleSecond sampleDigest₂,
     tableEntry sampleSecret (sampleContent ⟨3⟩ [] none) staleDigest]
  secret := sampleSecret
  signer := none

theorem sample_build (eventId : Uuid) (metadata : Metadata)
    (prev : Option (BitVec 256)) (d : BitVec 256)
    (hmac : computeEventHmac sampleKeys.hmac sampleSecret
      (sampleContent eventId metadata (prev.map digestText)) = digestText d) :
    (sampleLog metadata).buildRecord sampleKeys eventId (prev.map digestText) =
      some (sampleRecord eventId metadata prev d .unsigned) :=
  AuditEventRecord.construct_eq_some_iff.mpr
    (congrArg (RecordFields.mk _ · none none .unsigned) hmac.symm)

/-- Two calls read the empty chain, the first one commits, and the second one
rebuilds under the lock. -/
theorem sample_race_linear :
    ∃ s : State Bool, (system sampleKeys sampleCalls).Reachable s ∧
      s.rows.map (fun row => row.record) = [sampleRecord₁, sampleRecord₂] ∧
      ChainFrom none (getSessionEvents s.rows ⟨100⟩) := by
  have hfirst := sample_build ⟨1⟩ sampleFirst.metadata none sampleDigest₁
    (computeEventHmac_ofTable_self _ _)
  have hstale := sample_build ⟨3⟩ [] none staleDigest (by
    rw [sampleKeys, computeEventHmac_ofTable_of_ne (Or.inl (by decide)),
      computeEventHmac_ofTable_of_ne (Or.inl (by decide))]
    exact computeEventHmac_ofTable_self _ _)
  have hsecond := sample_build ⟨2⟩ [] (some sampleDigest₁) sampleDigest₂ (by
    rw [sampleKeys, computeEventHmac_ofTable_of_ne (Or.inl (by decide))]
    exact computeEventHmac_ofTable_self _ _)
  have h₀ : (system sampleKeys sampleCalls).Reachable State.initial := .start rfl
  have h₁ := h₀.next (.readHead _ false [] rfl (List.nil_prefix))
  have h₂ := h₁.next (.readHead _ true [] rfl (List.nil_prefix))
  have h₃ := h₂.next (.build _ false none ⟨1⟩ sampleTime _ rfl hfirst)
  have h₄ := h₃.next (.build _ true none ⟨3⟩ sampleTime _ rfl hstale)
  have h₅ := h₄.next (.acquire _ false none _ rfl rfl)
  have h₆ := h₅.next (.headUnchanged _ false none _ rfl rfl)
  have h₇ := h₆.next (.insert _ false _ rfl (by rintro row ⟨⟩))
  have h₈ := h₇.next (.commit _ false _ rfl)
  have h₉ := h₈.next (.acquire _ true none _ rfl rfl)
  have h₁₀ := h₉.next (.rebuild _ true none _ _ ⟨2⟩ sampleTime rfl (by rintro ⟨⟩) hsecond)
  have h₁₁ := h₁₀.next (.insert _ true _ rfl (by
    intro row hrow
    rw [List.mem_singleton.mp hrow]
    decide))
  have h₁₂ := h₁₁.next (.commit _ true _ rfl)
  exact ⟨_, h₁₂, rfl, (concurrent_inserts_linear h₁₂ ⟨100⟩).2.1⟩

end PostgresStore

end AgenticGovernance.Audit

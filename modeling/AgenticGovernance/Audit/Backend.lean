import Mathlib
import AgenticGovernance.Audit.PostgresStore

/-!
# Primary stores between calls

A primary store takes chained inserts and batches of records that already carry
their chain fields.  `InMemoryAuditStore` keeps a dictionary of events with an
index of ids for each session, bounded by `max_events`; `PostgresAuditStore`
keeps the table of `PostgresStore`, here between calls rather than inside them.

`AuditBackend` is what the degraded mode of the audit module relies on: both
operations append to the session's events, and an insert hands its callback the
HMAC of the session's last event.
-/

namespace AgenticGovernance.Audit

open Support

/-- A callback of `insert_with_chain_lock`, with the id and time of its
invocation fixed; `none` when it raises. -/
abbrev Build := Option String → Option AuditEventRecord

/-- The operations of a primary store.  An operation that raises returns `none`
or `false` with the state it leaves behind. -/
structure StoreOps where
  Store : Type
  initial : Store
  insertWithChainLock : Store → Uuid → Build → Store × Option AuditEventRecord
  writeBatch : Store → List AuditEventRecord → Store × Bool
  getSessionEvents : Store → Uuid → List AuditEventRecord
  /-- No stored event has this id. -/
  Unused : Store → Uuid → Prop

/-- The records of one session. -/
def ofSession (sid : Uuid) (records : List AuditEventRecord) : List AuditEventRecord :=
  records.filter fun r => r.sessionId = sid

/-- `st'` stores `records` after the events of `st`, and nothing else. -/
structure StoreOps.Extends (P : StoreOps) (st : P.Store) (records : List AuditEventRecord)
    (st' : P.Store) : Prop where
  events : ∀ sid,
    P.getSessionEvents st' sid = P.getSessionEvents st sid ++ ofSession sid records
  unused : ∀ id, P.Unused st' id ↔ P.Unused st id ∧ ∀ r ∈ records, r.eventId ≠ id

/-- A store whose operations append.  `Ok` is its internal consistency, and
`Intact` says that it has dropped nothing. -/
structure AuditBackend extends StoreOps where
  Ok : Store → Prop
  Intact : Store → Prop
  ok_initial : Ok initial
  events_initial : ∀ sid, getSessionEvents initial sid = []
  unused_initial : ∀ id, Unused initial id
  insert_intact : ∀ {st st' sid build res},
    insertWithChainLock st sid build = (st', res) → Intact st' → Intact st
  writeBatch_intact : ∀ {st st' records ok},
    writeBatch st records = (st', ok) → Intact st' → Intact st
  insert_none : ∀ {st st' sid build}, Ok st →
    insertWithChainLock st sid build = (st', none) → Intact st' →
      Ok st' ∧ toStoreOps.Extends st [] st'
  insert_built : ∀ {st st' sid build r}, Ok st →
    insertWithChainLock st sid build = (st', some r) →
      build (lastHmac (getSessionEvents st sid)) = some r
  insert_extends : ∀ {st st' sid build r}, Ok st →
    insertWithChainLock st sid build = (st', some r) → r.sessionId = sid →
      Unused st r.eventId → Intact st' → Ok st' ∧ toStoreOps.Extends st [r] st'
  writeBatch_extends : ∀ {st st' records}, Ok st → writeBatch st records = (st', true) →
    (records.map fun r => r.eventId).Nodup → (∀ r ∈ records, Unused st r.eventId) →
      Intact st' → Ok st' ∧ toStoreOps.Extends st records st'

@[simp] theorem ofSession_nil (sid : Uuid) : ofSession sid [] = [] := rfl

theorem ofSession_append (sid : Uuid) (l m : List AuditEventRecord) :
    ofSession sid (l ++ m) = ofSession sid l ++ ofSession sid m :=
  List.filter_append ..

theorem ofSession_cons (sid : Uuid) (r : AuditEventRecord) (l : List AuditEventRecord) :
    ofSession sid (r :: l) = ofSession sid [r] ++ ofSession sid l :=
  ofSession_append sid [r] l

theorem ofSession_singleton_self (r : AuditEventRecord) :
    ofSession r.sessionId [r] = [r] := by
  simp [ofSession]

theorem ofSession_singleton_of_ne {sid : Uuid} {r : AuditEventRecord}
    (h : r.sessionId ≠ sid) : ofSession sid [r] = [] := by
  simp [ofSession, h]

theorem ofSession_eq_self {sid : Uuid} {l : List AuditEventRecord}
    (h : ∀ r ∈ l, r.sessionId = sid) : ofSession sid l = l :=
  List.filter_eq_self.mpr (by simpa using h)

namespace StoreOps.Extends

variable {P : StoreOps} {st st' st'' : P.Store} {l m : List AuditEventRecord}

theorem of_eq (h : st' = st) : P.Extends st [] st' := by
  subst h
  exact ⟨by simp, by simp⟩

theorem trans (h : P.Extends st l st') (h' : P.Extends st' m st'') :
    P.Extends st (l ++ m) st'' where
  events := by
    intro sid
    rw [h'.events, h.events, ofSession_append, List.append_assoc]
  unused := by
    intro id
    rw [h'.unused, h.unused, List.forall_mem_append, and_assoc]

end StoreOps.Extends

/-! ## The in-memory store -/

inductive OnFull where
  | evict
  | raise
  deriving DecidableEq, Repr

structure MemoryAudit where
  events : Uuid → Option AuditEventRecord
  bySession : Uuid → List Uuid
  order : List Uuid
  maxEvents : ℕ
  onFull : OnFull
  evictedTotal : ℕ

namespace MemoryAudit

def empty (maxEvents : ℕ) (onFull : OnFull) : MemoryAudit :=
  ⟨fun _ => none, fun _ => [], [], maxEvents, onFull, 0⟩

def getSessionEvents (σ : MemoryAudit) (sid : Uuid) : List AuditEventRecord :=
  (σ.bySession sid).filterMap σ.events

/-- One round of the eviction loop, which pops `oldest` and leaves `rest`. -/
def evictOldest (σ : MemoryAudit) (oldest : Uuid) (rest : List Uuid) : MemoryAudit :=
  { σ with
    order := rest
    events := Function.update σ.events oldest none
    bySession :=
      match σ.events oldest with
      | none => σ.bySession
      | some r =>
          Function.update σ.bySession r.sessionId
            ((σ.bySession r.sessionId).erase oldest)
    evictedTotal := σ.evictedTotal + 1 }

/-- The loop of `_enforce_cap_before_append`, over the deque it pops from. -/
def evictLoop : List Uuid → MemoryAudit → Option MemoryAudit
  -- with `max_events = 0` the loop pops from an empty deque and raises
  | [], σ => if σ.maxEvents ≤ 0 then none else some σ
  | oldest :: rest, σ =>
      if σ.maxEvents ≤ rest.length + 1 then evictLoop rest (σ.evictOldest oldest rest)
      else some σ

def enforceCapBeforeAppend (σ : MemoryAudit) : Option MemoryAudit :=
  if σ.order.length < σ.maxEvents then some σ
  else
    match σ.onFull with
    | .raise => none
    | .evict => evictLoop σ.order σ

/-- The loop over a deque that it pops to the end. -/
def evictAll : List Uuid → MemoryAudit → MemoryAudit
  | [], σ => σ
  | oldest :: rest, σ => evictAll rest (σ.evictOldest oldest rest)

/-- What a cap check that raises leaves behind.  `raise` refuses before it touches anything;
`evict` raises only with `max_events = 0`, when the loop has emptied the deque. -/
def refused (σ : MemoryAudit) : MemoryAudit :=
  match σ.onFull with
  | .raise => σ
  | .evict => evictAll σ.order σ

/-- The three writes that follow the cap check. -/
def append (σ : MemoryAudit) (sid : Uuid) (r : AuditEventRecord) : MemoryAudit :=
  { σ with
    events := Function.update σ.events r.eventId (some r)
    bySession := Function.update σ.bySession sid (σ.bySession sid ++ [r.eventId])
    order := σ.order ++ [r.eventId] }

/-- `self._events[ids[-1]].hmac if ids else None`; the outer `none` is the
`KeyError`. -/
def headHmac (σ : MemoryAudit) (sid : Uuid) : Option (Option String) :=
  match (σ.bySession sid).getLast? with
  | none => some none
  | some last => (σ.events last).map fun r => some r.hmac

def insertWithChainLock (σ : MemoryAudit) (sid : Uuid) (build : Build) :
    MemoryAudit × Option AuditEventRecord :=
  match (σ.headHmac sid).bind build with
  | none => (σ, none)
  | some r =>
      match σ.enforceCapBeforeAppend with
      | none => (σ.refused, none)
      | some σ' => (σ'.append sid r, some r)

def writeBatch : MemoryAudit → List AuditEventRecord → MemoryAudit × Bool
  | σ, [] => (σ, true)
  | σ, r :: records =>
      if (σ.events r.eventId).isSome then writeBatch σ records
      else
        match σ.enforceCapBeforeAppend with
        | none => (σ.refused, false)
        | some σ' => writeBatch (σ'.append r.sessionId r) records

/-- `verify_not_truncated`. -/
def verifyNotTruncated (σ : MemoryAudit) : Bool := σ.evictedTotal = 0

def ops (maxEvents : ℕ) (onFull : OnFull) : StoreOps where
  Store := MemoryAudit
  initial := empty maxEvents onFull
  insertWithChainLock := insertWithChainLock
  writeBatch := writeBatch
  getSessionEvents := getSessionEvents
  Unused σ id := σ.events id = none

/-- Every id in the index of a session is an id of a stored event. -/
def Indexed (σ : MemoryAudit) : Prop :=
  ∀ sid, ∀ id ∈ σ.bySession sid, (σ.events id).isSome

variable {σ σ' : MemoryAudit}

theorem evictedTotal_evictLoop {order : List Uuid}
    (h : evictLoop order σ = some σ') : σ.evictedTotal ≤ σ'.evictedTotal := by
  induction order generalizing σ with
  | nil =>
      rw [evictLoop] at h
      split at h
      · cases h
      · rw [Option.some.inj h]
  | cons oldest rest ih =>
      rw [evictLoop] at h
      split at h
      · exact Nat.le_of_succ_le (ih h)
      · rw [Option.some.inj h]

theorem evictedTotal_evictAll (order : List Uuid) (σ : MemoryAudit) :
    (evictAll order σ).evictedTotal = σ.evictedTotal + order.length := by
  induction order generalizing σ with
  | nil => rfl
  | cons oldest rest ih =>
      rw [evictAll, ih, List.length_cons]
      change σ.evictedTotal + 1 + rest.length = _
      omega

theorem refused_of_raise (h : σ.onFull = .raise) : σ.refused = σ := by
  rw [refused, h]

theorem evictedTotal_refused (σ : MemoryAudit) : σ.evictedTotal ≤ σ.refused.evictedTotal := by
  rw [refused]
  split
  · exact le_rfl
  · rw [evictedTotal_evictAll]
    exact Nat.le_add_right _ _

/-- A cap check that raises leaves a store alone unless it evicts. -/
theorem refused_eq (hkept : σ.refused.verifyNotTruncated = true) : σ.refused = σ := by
  rw [refused] at hkept ⊢
  split at hkept
  · rfl
  · have hcount : (evictAll σ.order σ).evictedTotal = 0 := of_decide_eq_true hkept
    rw [evictedTotal_evictAll] at hcount
    obtain horder : σ.order = [] := List.eq_nil_of_length_eq_zero (by omega)
    rw [horder]
    rfl

/-- The cap check leaves a store alone unless it evicts. -/
theorem eq_of_enforceCapBeforeAppend (h : σ.enforceCapBeforeAppend = some σ')
    (hkept : σ'.verifyNotTruncated = true) : σ' = σ := by
  rw [enforceCapBeforeAppend] at h
  split at h
  · exact (Option.some.inj h).symm
  · rename_i hfull
    split at h
    · cases h
    · -- a full deque makes the first round of the loop evict
      exfalso
      have hcount : σ'.evictedTotal = 0 := of_decide_eq_true hkept
      cases horder : σ.order with
      | nil =>
          rw [horder] at h hfull
          rw [evictLoop, if_pos (by simpa using hfull)] at h
          cases h
      | cons oldest rest =>
          rw [horder] at h hfull
          rw [evictLoop, if_pos (by simpa using hfull)] at h
          have hevicted : σ.evictedTotal + 1 ≤ σ'.evictedTotal := evictedTotal_evictLoop h
          omega

theorem headHmac_eq (h : σ.Indexed) (sid : Uuid) :
    σ.headHmac sid = some (lastHmac (σ.getSessionEvents sid)) := by
  rw [headHmac, lastHmac, tip_eq_getLast?]
  rcases (σ.bySession sid).eq_nil_or_concat' with hids | ⟨init, last, hids⟩
  · simp [getSessionEvents, hids]
  · obtain ⟨r, hr⟩ := Option.isSome_iff_exists.mp (h sid last (by simp [hids]))
    simp [getSessionEvents, hids, hr]

theorem Indexed.append (h : σ.Indexed) (sid : Uuid) (r : AuditEventRecord) :
    (σ.append sid r).Indexed := by
  have hstored : ∀ id, (σ.events id).isSome ∨ id = r.eventId →
      ((σ.append sid r).events id).isSome := by
    intro id hid
    change (Function.update σ.events r.eventId (some r) id).isSome
    by_cases hnew : id = r.eventId
    · simp [hnew]
    · rw [Function.update_of_ne hnew]
      exact hid.resolve_right hnew
  intro sid' id hid
  apply hstored
  change id ∈ Function.update σ.bySession sid (σ.bySession sid ++ [r.eventId]) sid' at hid
  by_cases hsid : sid' = sid
  · subst hsid
    rw [Function.update_self, List.mem_append, List.mem_singleton] at hid
    exact hid.imp_left (h sid' id)
  · rw [Function.update_of_ne hsid] at hid
    exact Or.inl (h sid' id hid)

/-- Appending an event with a new id adds it after the events of its session. -/
theorem append_extends (h : σ.Indexed) {r : AuditEventRecord} {maxEvents : ℕ}
    {onFull : OnFull} (hnew : σ.events r.eventId = none) :
    (ops maxEvents onFull).Extends σ [r] (σ.append r.sessionId r) := by
  have hold : ∀ sid, (σ.bySession sid).filterMap (σ.append r.sessionId r).events =
      σ.getSessionEvents sid := by
    intro sid
    apply List.filterMap_congr
    intro id hid
    apply Function.update_of_ne
    rintro rfl
    have hstored := h sid _ hid
    rw [hnew] at hstored
    exact absurd hstored (by simp)
  have hself : (σ.append r.sessionId r).events r.eventId = some r :=
    Function.update_self ..
  constructor
  · intro sid
    change (Function.update σ.bySession r.sessionId _ sid).filterMap _ =
      σ.getSessionEvents sid ++ _
    by_cases hsid : sid = r.sessionId
    · subst hsid
      rw [Function.update_self, List.filterMap_append, hold, ofSession_singleton_self]
      simp [hself]
    · rw [Function.update_of_ne hsid, hold, ofSession_singleton_of_ne (Ne.symm hsid),
        List.append_nil]
  · intro id
    change Function.update σ.events r.eventId (some r) id = none ↔ _
    by_cases hid : id = r.eventId
    · simp [hid]
    · rw [Function.update_of_ne hid]
      simp [ops, Ne.symm hid]

theorem evictedTotal_enforceCapBeforeAppend (h : σ.enforceCapBeforeAppend = some σ') :
    σ.evictedTotal ≤ σ'.evictedTotal := by
  rw [enforceCapBeforeAppend] at h
  split at h
  · rw [Option.some.inj h]
  · split at h
    · cases h
    · exact evictedTotal_evictLoop h

theorem evictedTotal_writeBatch {records : List AuditEventRecord} {ok : Bool}
    (h : writeBatch σ records = (σ', ok)) : σ.evictedTotal ≤ σ'.evictedTotal := by
  induction records generalizing σ with
  | nil =>
      obtain ⟨rfl, -⟩ := Prod.mk.inj h
      exact le_rfl
  | cons r records ih =>
      rw [writeBatch] at h
      split at h
      · exact ih h
      · split at h
        · obtain ⟨rfl, -⟩ := Prod.mk.inj h
          exact evictedTotal_refused σ
        · rename_i σ₁ hcap
          exact (evictedTotal_enforceCapBeforeAppend hcap).trans
            (ih (σ := σ₁.append r.sessionId r) h)

theorem verifyNotTruncated_mono (h : σ.evictedTotal ≤ σ'.evictedTotal)
    (hkept : σ'.verifyNotTruncated = true) : σ.verifyNotTruncated = true := by
  simp only [verifyNotTruncated, decide_eq_true_eq] at hkept ⊢
  omega

theorem writeBatch_extends {maxEvents : ℕ} {onFull : OnFull}
    {records : List AuditEventRecord} (hindexed : σ.Indexed)
    (h : writeBatch σ records = (σ', true))
    (hnodup : (records.map fun r => r.eventId).Nodup)
    (hnew : ∀ r ∈ records, σ.events r.eventId = none)
    (hkept : σ'.verifyNotTruncated = true) :
    σ'.Indexed ∧ (ops maxEvents onFull).Extends σ records σ' := by
  induction records generalizing σ with
  | nil =>
      obtain ⟨rfl, -⟩ := Prod.mk.inj h
      exact ⟨hindexed, .of_eq rfl⟩
  | cons r records ih =>
      rw [List.map_cons, List.nodup_cons] at hnodup
      rw [List.forall_mem_cons] at hnew
      rw [writeBatch, hnew.1] at h
      cases hcap : σ.enforceCapBeforeAppend with
      | none => simp [hcap] at h
      | some σ₁ =>
          simp only [hcap, Option.isSome_none, Bool.false_eq_true, if_false] at h
          have hkept₁ : (σ₁.append r.sessionId r).verifyNotTruncated = true :=
            verifyNotTruncated_mono (evictedTotal_writeBatch h) hkept
          obtain rfl := eq_of_enforceCapBeforeAppend hcap hkept₁
          have hfirst : (ops maxEvents onFull).Extends σ₁ [r] (σ₁.append r.sessionId r) :=
            append_extends hindexed hnew.1
          have hrest : ∀ x ∈ records, (σ₁.append r.sessionId r).events x.eventId = none := by
            intro x hx
            apply (hfirst.unused x.eventId).mpr
            refine ⟨hnew.2 x hx, ?_⟩
            intro y hy heq
            rw [List.mem_singleton.mp hy] at heq
            exact hnodup.1 (List.mem_map.mpr ⟨x, hx, heq.symm⟩)
          obtain ⟨hindexed', hext⟩ := ih (hindexed.append r.sessionId r) h hnodup.2 hrest
          exact ⟨hindexed', hfirst.trans hext⟩

theorem insertWithChainLock_cases {sid : Uuid} {build : Build}
    {res : Option AuditEventRecord} (h : σ.insertWithChainLock sid build = (σ', res)) :
    (res = none ∧ (σ' = σ ∨ σ.enforceCapBeforeAppend = none ∧ σ' = σ.refused)) ∨
      ∃ r σ₁, res = some r ∧ (σ.headHmac sid).bind build = some r ∧
        σ.enforceCapBeforeAppend = some σ₁ ∧ σ' = σ₁.append sid r := by
  rw [insertWithChainLock] at h
  split at h
  · obtain ⟨rfl, rfl⟩ := Prod.mk.inj h
    exact Or.inl ⟨rfl, Or.inl rfl⟩
  · rename_i r hbuild
    split at h
    · rename_i hcap
      obtain ⟨rfl, rfl⟩ := Prod.mk.inj h
      exact Or.inl ⟨rfl, Or.inr ⟨hcap, rfl⟩⟩
    · rename_i σ₁ hcap
      obtain ⟨rfl, rfl⟩ := Prod.mk.inj h
      exact Or.inr ⟨r, σ₁, rfl, hbuild, hcap, rfl⟩

/-- `InMemoryAuditStore` appends as long as nothing has been evicted. -/
def backend (maxEvents : ℕ) (onFull : OnFull) : AuditBackend where
  toStoreOps := ops maxEvents onFull
  Ok := Indexed
  Intact σ := σ.verifyNotTruncated = true
  ok_initial := by
    intro sid id hid
    cases hid
  events_initial := fun _ => rfl
  unused_initial := fun _ => rfl
  insert_intact := by
    intro σ σ' sid build res h hkept
    rcases insertWithChainLock_cases h with ⟨-, rfl | ⟨-, rfl⟩⟩ | ⟨r, σ₁, -, -, hcap, rfl⟩
    · exact hkept
    · exact verifyNotTruncated_mono (evictedTotal_refused σ) hkept
    · exact verifyNotTruncated_mono (evictedTotal_enforceCapBeforeAppend hcap) hkept
  writeBatch_intact := fun h hkept => verifyNotTruncated_mono (evictedTotal_writeBatch h) hkept
  insert_none := by
    intro σ σ' sid build hindexed h hkept
    rcases insertWithChainLock_cases h with ⟨-, rfl | ⟨-, rfl⟩⟩ | ⟨r, σ₁, hres, -⟩
    · exact ⟨hindexed, .of_eq rfl⟩
    · rw [refused_eq hkept]
      exact ⟨hindexed, .of_eq rfl⟩
    · cases hres
  insert_built := by
    intro σ σ' sid build r hindexed h
    rcases insertWithChainLock_cases h with ⟨hres, -⟩ | ⟨r', σ₁, hres, hbuild, -⟩
    · cases hres
    · rw [headHmac_eq hindexed, Option.bind_some] at hbuild
      exact hbuild.trans hres.symm
  insert_extends := by
    intro σ σ' sid build r hindexed h hsid hnew hkept
    rcases insertWithChainLock_cases h with ⟨hres, -⟩ | ⟨r', σ₁, hres, -, hcap, rfl⟩
    · cases hres
    · obtain rfl := Option.some.inj hres
      obtain rfl := eq_of_enforceCapBeforeAppend hcap hkept
      subst hsid
      exact ⟨hindexed.append _ _, append_extends hindexed hnew⟩
  writeBatch_extends := fun hindexed h hnodup hnew hkept =>
    writeBatch_extends hindexed h hnodup hnew hkept

end MemoryAudit

/-! ## The Postgres store -/

/-- The table and its sequence, with no call in progress. -/
structure PostgresAudit where
  rows : List AuditRow
  nextSeq : ℕ

namespace PostgresAudit

def empty : PostgresAudit := ⟨[], 1⟩

/-- `INSERT` of one record.  A duplicate primary key raises, and the sequence
value it drew stays used. -/
def insertRow (τ : PostgresAudit) (r : AuditEventRecord) : PostgresAudit × Bool :=
  if ∃ row ∈ τ.rows, row.record.eventId = r.eventId then
    ({ τ with nextSeq := τ.nextSeq + 1 }, false)
  else (⟨τ.rows ++ [⟨τ.nextSeq, r, none⟩], τ.nextSeq + 1⟩, true)

/-- With no other call in progress the head read under the lock is the one read
before it. -/
def insertWithChainLock (τ : PostgresAudit) (sid : Uuid) (build : Build) :
    PostgresAudit × Option AuditEventRecord :=
  match build (latestHmac τ.rows sid) with
  | none => (τ, none)
  | some r =>
      match τ.insertRow r with
      | (τ', true) => (τ', some r)
      | (τ', false) => (τ', none)

def insertRows : PostgresAudit → List AuditEventRecord → PostgresAudit × Bool
  | τ, [] => (τ, true)
  | τ, r :: records =>
      match τ.insertRow r with
      | (τ', true) => insertRows τ' records
      | (τ', false) => (τ', false)

/-- One transaction, which keeps all rows or none. -/
def writeBatch (τ : PostgresAudit) (records : List AuditEventRecord) :
    PostgresAudit × Bool :=
  match τ.insertRows records with
  | (τ', true) => (τ', true)
  | (τ', false) => ({ τ with nextSeq := τ'.nextSeq }, false)

def ops : StoreOps where
  Store := PostgresAudit
  initial := empty
  insertWithChainLock := insertWithChainLock
  writeBatch := writeBatch
  getSessionEvents τ := Audit.getSessionEvents τ.rows
  Unused τ id := ∀ row ∈ τ.rows, row.record.eventId ≠ id

/-- The rows are listed in `chain_seq` order and the sequence is past them. -/
structure Ordered (τ : PostgresAudit) : Prop where
  drawn : ∀ row ∈ τ.rows, row.chainSeq < τ.nextSeq
  increasing : τ.rows.Pairwise fun a b => a.chainSeq < b.chainSeq

variable {τ τ' : PostgresAudit}

namespace Ordered

theorem sessionRows (h : τ.Ordered) (sid : Uuid) :
    (sessionRows τ.rows sid).Pairwise fun a b => a.chainSeq < b.chainSeq :=
  h.increasing.sublist List.filter_sublist

/-- `ORDER BY chain_seq` returns the records in the order of the rows. -/
theorem getSessionEvents_eq (h : τ.Ordered) (sid : Uuid) :
    ops.getSessionEvents τ sid = ofSession sid (τ.rows.map fun row => row.record) := by
  change Audit.getSessionEvents τ.rows sid = _
  rw [getSessionEvents_eq_of_increasing (h.sessionRows sid), ofSession, List.filter_map]
  rfl

theorem latestHmac_eq (h : τ.Ordered) (sid : Uuid) :
    latestHmac τ.rows sid = lastHmac (ops.getSessionEvents τ sid) := by
  rw [latestHmac_eq_of_increasing (h.sessionRows sid)]
  change _ = lastHmac (Audit.getSessionEvents τ.rows sid)
  rw [getSessionEvents_eq_of_increasing (h.sessionRows sid)]

theorem drawSeq (h : τ.Ordered) : Ordered { τ with nextSeq := τ.nextSeq + 1 } where
  drawn := fun row hrow => Nat.lt_succ_of_lt (h.drawn row hrow)
  increasing := h.increasing

theorem concat (h : τ.Ordered) (r : AuditEventRecord) :
    Ordered ⟨τ.rows ++ [⟨τ.nextSeq, r, none⟩], τ.nextSeq + 1⟩ where
  drawn := by
    intro row hrow
    rcases List.mem_append.mp hrow with hrow | hrow
    · exact Nat.lt_succ_of_lt (h.drawn row hrow)
    · rw [List.mem_singleton.mp hrow]
      exact Nat.lt_succ_self _
  increasing := by
    refine List.pairwise_append.mpr ⟨h.increasing, List.pairwise_singleton _ _, ?_⟩
    intro row hrow x hx
    rw [List.mem_singleton.mp hx]
    exact h.drawn row hrow

end Ordered

/-- An insert either appends its row, or fails and only draws from the sequence. -/
theorem insertRow_cases (h : τ.Ordered) {r : AuditEventRecord} {ok : Bool}
    (hins : τ.insertRow r = (τ', ok)) :
    τ'.Ordered ∧ (ok = false → τ'.rows = τ.rows) ∧
      (ok = true → ops.Extends τ [r] τ') := by
  rw [insertRow] at hins
  split at hins
  · obtain ⟨rfl, rfl⟩ := Prod.mk.inj hins
    exact ⟨h.drawSeq, fun _ => rfl, by simp⟩
  · obtain ⟨rfl, rfl⟩ := Prod.mk.inj hins
    refine ⟨h.concat r, by simp, fun _ => ⟨?_, ?_⟩⟩
    · intro sid
      rw [(h.concat r).getSessionEvents_eq, h.getSessionEvents_eq, List.map_append,
        ofSession_append]
      rfl
    · intro id
      change (∀ row ∈ τ.rows ++ [_], _) ↔ _
      rw [List.forall_mem_append]
      simp [ops]

theorem extends_of_rows_eq (h : τ'.rows = τ.rows) : ops.Extends τ [] τ' where
  events := by
    intro sid
    change Audit.getSessionEvents τ'.rows sid = Audit.getSessionEvents τ.rows sid ++ []
    rw [h, List.append_nil]
  unused := by
    intro id
    change (∀ row ∈ τ'.rows, _) ↔ (∀ row ∈ τ.rows, _) ∧ _
    simp [h]

theorem insertRows_extends (h : τ.Ordered) {records : List AuditEventRecord}
    (hins : τ.insertRows records = (τ', true)) :
    τ'.Ordered ∧ ops.Extends τ records τ' := by
  induction records generalizing τ with
  | nil =>
      obtain ⟨rfl, -⟩ := Prod.mk.inj hins
      exact ⟨h, .of_eq rfl⟩
  | cons r records ih =>
      rw [insertRows] at hins
      split at hins
      · rename_i τ₁ hfirst
        obtain ⟨hordered, -, hext⟩ := insertRow_cases h hfirst
        obtain ⟨hordered', hext'⟩ := ih hordered hins
        exact ⟨hordered', (hext rfl).trans hext'⟩
      · cases (Prod.mk.inj hins).2

theorem writeBatch_extends (h : τ.Ordered) {records : List AuditEventRecord}
    (hins : τ.writeBatch records = (τ', true)) :
    τ'.Ordered ∧ ops.Extends τ records τ' := by
  rw [writeBatch] at hins
  split at hins
  · rename_i τ₁ hrows
    obtain ⟨rfl, -⟩ := Prod.mk.inj hins
    exact insertRows_extends h hrows
  · cases (Prod.mk.inj hins).2

theorem insertWithChainLock_cases {sid : Uuid} {build : Build}
    {res : Option AuditEventRecord} (h : τ.Ordered)
    (hins : τ.insertWithChainLock sid build = (τ', res)) :
    τ'.Ordered ∧ (res = none → τ'.rows = τ.rows) ∧
      ∀ r, res = some r →
        build (lastHmac (ops.getSessionEvents τ sid)) = some r ∧ ops.Extends τ [r] τ' := by
  rw [insertWithChainLock, h.latestHmac_eq] at hins
  split at hins
  · obtain ⟨rfl, rfl⟩ := Prod.mk.inj hins
    exact ⟨h, fun _ => rfl, by simp⟩
  · rename_i r hbuild
    split at hins
    · rename_i τ₁ hrow
      obtain ⟨rfl, rfl⟩ := Prod.mk.inj hins
      obtain ⟨hordered, -, hext⟩ := insertRow_cases h hrow
      refine ⟨hordered, by simp, ?_⟩
      intro r' hr'
      obtain rfl := Option.some.inj hr'
      exact ⟨hbuild, hext rfl⟩
    · rename_i τ₁ hrow
      obtain ⟨rfl, rfl⟩ := Prod.mk.inj hins
      obtain ⟨hordered, hsame, -⟩ := insertRow_cases h hrow
      exact ⟨hordered, fun _ => hsame rfl, by simp⟩

/-- `PostgresAuditStore` appends; its table is append-only. -/
def backend : AuditBackend where
  toStoreOps := ops
  Ok := Ordered
  Intact _ := True
  ok_initial := ⟨by simp [ops, empty], by simp [ops, empty]⟩
  events_initial := fun _ => rfl
  unused_initial := by simp [ops, empty]
  insert_intact := fun _ _ => trivial
  writeBatch_intact := fun _ _ => trivial
  insert_none := by
    intro τ τ' sid build h hins _
    obtain ⟨hordered, hsame, -⟩ := insertWithChainLock_cases h hins
    exact ⟨hordered, extends_of_rows_eq (hsame rfl)⟩
  insert_built := by
    intro τ τ' sid build r h hins
    obtain ⟨-, -, hbuilt⟩ := insertWithChainLock_cases h hins
    exact (hbuilt r rfl).1
  insert_extends := by
    intro τ τ' sid build r h hins _ _ _
    obtain ⟨hordered, -, hbuilt⟩ := insertWithChainLock_cases h hins
    exact ⟨hordered, (hbuilt r rfl).2⟩
  writeBatch_extends := by
    intro τ τ' records h hins _ _ _
    exact writeBatch_extends h hins

end PostgresAudit

end AgenticGovernance.Audit

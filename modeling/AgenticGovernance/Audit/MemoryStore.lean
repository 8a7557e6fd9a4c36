import Mathlib
import AgenticGovernance.Audit.Backend
import AgenticGovernance.Support.Transition

/-!
# The indexes of the in-memory store

`InMemoryAuditStore` keeps a dictionary of its events, a list of ids for each session, a
deque of all ids in insertion order, and a count of the events that it has evicted.  All of
them are determined by the list of the events that it has ever accepted: the count says how
many of those are gone, and the rest is what the dictionary, the lists and the deque hold.
-/

namespace AgenticGovernance.Audit

open Support

namespace MemoryAudit

/-! ## What a store holds -/

/-- The events that are still stored, when `log` was accepted. -/
def surviving (σ : MemoryAudit) (log : List AuditEventRecord) : List AuditEventRecord :=
  log.drop σ.evictedTotal

/-- The store holds the events of `log` that it has not evicted. -/
structure Represents (σ : MemoryAudit) (log : List AuditEventRecord) : Prop where
  evicted : σ.evictedTotal ≤ log.length
  order : σ.order = (σ.surviving log).map fun r => r.eventId
  nodup : σ.order.Nodup
  events : ∀ id r, σ.events id = some r ↔ r ∈ σ.surviving log ∧ r.eventId = id
  buckets : ∀ sid, σ.bySession sid = (ofSession sid (σ.surviving log)).map fun r => r.eventId

variable {σ σ' : MemoryAudit} {log : List AuditEventRecord} {oldest : Uuid} {rest : List Uuid}
  {r : AuditEventRecord}

namespace Represents

theorem empty (maxEvents : ℕ) (onFull : OnFull) : Represents (.empty maxEvents onFull) [] where
  evicted := le_rfl
  order := rfl
  nodup := List.nodup_nil
  events := by simp [MemoryAudit.empty, surviving]
  buckets := fun _ => rfl

theorem length (h : σ.Represents log) : log.length = σ.order.length + σ.evictedTotal := by
  have hevicted := h.evicted
  rw [h.order, List.length_map, surviving, List.length_drop]
  omega

theorem mem_order_iff (h : σ.Represents log) (id : Uuid) :
    id ∈ σ.order ↔ (σ.events id).isSome := by
  rw [h.order, List.mem_map, Option.isSome_iff_exists]
  constructor
  · rintro ⟨r, hr, hid⟩
    exact ⟨r, (h.events id r).mpr ⟨hr, hid⟩⟩
  · rintro ⟨r, hr⟩
    exact ⟨r, (h.events id r).mp hr⟩

/-- The bucket of a session is the part of the deque that belongs to it. -/
theorem bucket_eq (h : σ.Represents log) (sid : Uuid) :
    σ.bySession sid =
      σ.order.filter fun id => (σ.events id).any fun r => r.sessionId = sid := by
  rw [h.buckets sid, h.order, List.filter_map, ofSession]
  congr 1
  apply List.filter_congr
  intro r hr
  have hstored : σ.events r.eventId = some r := (h.events r.eventId r).mpr ⟨hr, rfl⟩
  simp [hstored]

/-- One round of the eviction loop drops the oldest event that survives. -/
theorem evictOldest (h : σ.Represents log) (horder : σ.order = oldest :: rest) :
    (σ.evictOldest oldest rest).Represents log := by
  have hlength := h.length
  rw [horder, List.length_cons] at hlength
  obtain ⟨r, hr, hid⟩ : ∃ r, σ.surviving log = r :: log.drop (σ.evictedTotal + 1) ∧
      r.eventId = oldest := by
    have hlt : σ.evictedTotal < log.length := by omega
    have hcons : σ.surviving log = log[σ.evictedTotal] :: log.drop (σ.evictedTotal + 1) :=
      List.drop_eq_getElem_cons hlt
    refine ⟨log[σ.evictedTotal], hcons, ?_⟩
    have hhead := h.order
    rw [horder, hcons, List.map_cons] at hhead
    exact (List.cons.inj hhead).1.symm
  have hsurviving : (σ.evictOldest oldest rest).surviving log = log.drop (σ.evictedTotal + 1) :=
    rfl
  have hrest : rest = (log.drop (σ.evictedTotal + 1)).map fun r => r.eventId := by
    have hhead := h.order
    rw [horder, hr, List.map_cons] at hhead
    exact (List.cons.inj hhead).2
  have hnodup := h.nodup
  rw [horder, List.nodup_cons] at hnodup
  have hother : ∀ x ∈ log.drop (σ.evictedTotal + 1), x.eventId ≠ oldest := by
    rintro x hx rfl
    apply hnodup.1
    rw [hrest]
    exact List.mem_map_of_mem hx
  have hstored : σ.events oldest = some r := by
    refine (h.events oldest r).mpr ⟨?_, hid⟩
    rw [hr]
    exact List.mem_cons_self
  refine ⟨?_, hrest, hnodup.2, ?_, ?_⟩
  · change σ.evictedTotal + 1 ≤ log.length
    omega
  · intro id x
    rw [hsurviving]
    change Function.update σ.events oldest none id = some x ↔ _
    by_cases heq : id = oldest
    · subst heq
      rw [Function.update_self]
      constructor
      · intro hnone
        cases hnone
      · rintro ⟨hx, hxid⟩
        exact absurd hxid (hother x hx)
    · rw [Function.update_of_ne heq, h.events, hr, List.mem_cons]
      constructor
      · rintro ⟨rfl | hx, hxid⟩
        · exact absurd (hxid.symm.trans hid) heq
        · exact ⟨hx, hxid⟩
      · rintro ⟨hx, hxid⟩
        exact ⟨Or.inr hx, hxid⟩
  · intro sid
    rw [hsurviving]
    have hbuckets : (σ.evictOldest oldest rest).bySession =
        Function.update σ.bySession r.sessionId ((σ.bySession r.sessionId).erase oldest) := by
      rw [MemoryAudit.evictOldest, hstored]
    rw [hbuckets]
    by_cases hsid : sid = r.sessionId
    · subst hsid
      rw [Function.update_self, h.buckets, hr, ofSession_cons, ofSession_singleton_self,
        List.map_append, List.map_singleton, hid, List.singleton_append, List.erase_cons_head]
    · rw [Function.update_of_ne hsid, h.buckets, hr, ofSession_cons,
        ofSession_singleton_of_ne (Ne.symm hsid), List.nil_append]

/-- The three writes add the event to the log, if its id is not stored. -/
theorem append (h : σ.Represents log) (hnew : σ.events r.eventId = none) :
    (σ.append r.sessionId r).Represents (log ++ [r]) := by
  have hsurviving : (σ.append r.sessionId r).surviving (log ++ [r]) = σ.surviving log ++ [r] :=
    List.drop_append_of_le_length h.evicted
  have hother : ∀ x ∈ σ.surviving log, x.eventId ≠ r.eventId := by
    intro x hx heq
    rw [← heq, (h.events x.eventId x).mpr ⟨hx, rfl⟩] at hnew
    cases hnew
  refine ⟨?_, ?_, ?_, ?_, ?_⟩
  · rw [List.length_append]
    exact Nat.le_add_right_of_le h.evicted
  · rw [hsurviving, List.map_append, ← h.order]
    rfl
  · change (σ.order ++ [r.eventId]).Nodup
    rw [List.nodup_append]
    refine ⟨h.nodup, List.nodup_singleton _, ?_⟩
    intro id hid id' hid'
    rw [List.mem_singleton.mp hid', h.order] at *
    obtain ⟨x, hx, rfl⟩ := List.mem_map.mp hid
    exact hother x hx
  · intro id x
    rw [hsurviving, List.mem_append, List.mem_singleton]
    change Function.update σ.events r.eventId (some r) id = some x ↔ _
    by_cases heq : id = r.eventId
    · subst heq
      rw [Function.update_self, Option.some_inj]
      constructor
      · rintro rfl
        exact ⟨Or.inr rfl, rfl⟩
      · rintro ⟨hx | rfl, hxid⟩
        · exact absurd hxid (hother x hx)
        · rfl
    · rw [Function.update_of_ne heq, h.events]
      constructor
      · rintro ⟨hx, hxid⟩
        exact ⟨Or.inl hx, hxid⟩
      · rintro ⟨hx | rfl, hxid⟩
        · exact ⟨hx, hxid⟩
        · exact absurd hxid.symm heq
  · intro sid
    rw [hsurviving, ofSession_append, List.map_append, ← h.buckets sid]
    change Function.update σ.bySession r.sessionId (σ.bySession r.sessionId ++ [r.eventId]) sid = _
    by_cases hsid : sid = r.sessionId
    · subst hsid
      rw [Function.update_self, ofSession_singleton_self]
      rfl
    · rw [Function.update_of_ne hsid, ofSession_singleton_of_ne (Ne.symm hsid)]
      exact (List.append_nil _).symm

end Represents

/-! ## Room for one more -/

@[simp] theorem maxEvents_evictOldest (σ : MemoryAudit) (oldest : Uuid) (rest : List Uuid) :
    (σ.evictOldest oldest rest).maxEvents = σ.maxEvents := rfl

/-- What is left of a store in which the next event has room. -/
structure MakesRoom (σ σ' : MemoryAudit) (log : List AuditEventRecord) : Prop where
  represents : σ'.Represents log
  room : σ'.order.length < σ'.maxEvents
  maxEvents : σ'.maxEvents = σ.maxEvents
  onFull : σ'.onFull = σ.onFull
  /-- the cap check adds nothing -/
  unused : ∀ id, σ.events id = none → σ'.events id = none

theorem evictLoop_makesRoom (hmax : 1 ≤ σ.maxEvents) (h : σ.Represents log) :
    ∃ σ', evictLoop σ.order σ = some σ' ∧ MakesRoom σ σ' log := by
  obtain ⟨order, horder⟩ : ∃ order, σ.order = order := ⟨_, rfl⟩
  rw [horder]
  induction order generalizing σ with
  | nil =>
      refine ⟨σ, ?_, h, ?_, rfl, rfl, fun _ hid => hid⟩
      · rw [evictLoop, if_neg (by omega)]
      · rw [horder]
        exact hmax
  | cons oldest rest ih =>
      rw [evictLoop]
      by_cases hfull : σ.maxEvents ≤ rest.length + 1
      · rw [if_pos hfull]
        obtain ⟨σ', hloop, hroom⟩ :=
          ih (σ := σ.evictOldest oldest rest) hmax (h.evictOldest horder) rfl
        refine ⟨σ', hloop, hroom.represents, hroom.room, hroom.maxEvents, hroom.onFull, ?_⟩
        intro id hid
        apply hroom.unused
        change Function.update σ.events oldest none id = none
        by_cases heq : id = oldest
        · rw [heq, Function.update_self]
        · rw [Function.update_of_ne heq, hid]
      · rw [if_neg hfull]
        refine ⟨σ, rfl, h, ?_, rfl, rfl, fun _ hid => hid⟩
        rw [horder]
        exact not_le.mp hfull

/-- The cap check of a store with a positive cap refuses only in raise mode, and makes room
otherwise. -/
theorem enforceCapBeforeAppend_cases (hmax : 1 ≤ σ.maxEvents) (h : σ.Represents log) :
    (σ.enforceCapBeforeAppend = none ∧ σ.onFull = .raise ∧ σ.maxEvents ≤ σ.order.length) ∨
      ∃ σ', σ.enforceCapBeforeAppend = some σ' ∧ MakesRoom σ σ' log := by
  rw [enforceCapBeforeAppend]
  by_cases hroom : σ.order.length < σ.maxEvents
  · rw [if_pos hroom]
    exact Or.inr ⟨σ, rfl, h, hroom, rfl, rfl, fun _ hid => hid⟩
  · rw [if_neg hroom]
    rcases honfull : σ.onFull with _ | _
    · exact Or.inr (evictLoop_makesRoom hmax h)
    · exact Or.inl ⟨rfl, rfl, not_lt.mp hroom⟩

/-! ## Runs of the two write paths -/

/-- The events of a batch that `write_batch` accepts: those whose id is not stored when
their turn comes, up to the first that is refused. -/
def acceptedOf : MemoryAudit → List AuditEventRecord → List AuditEventRecord
  | _, [] => []
  | σ, r :: records =>
      if (σ.events r.eventId).isSome then acceptedOf σ records
      else
        match σ.enforceCapBeforeAppend with
        | none => []
        | some σ' => r :: acceptedOf (σ'.append r.sessionId r) records

/-- A store within its cap that holds what it has accepted and not evicted. -/
structure Consistent (σ : MemoryAudit) (log : List AuditEventRecord) : Prop where
  represents : σ.Represents log
  bounded : σ.order.length ≤ σ.maxEvents

theorem MakesRoom.append {r : AuditEventRecord} (h : MakesRoom σ σ' log)
    (hnew : σ.events r.eventId = none) :
    (σ'.append r.sessionId r).Consistent (log ++ [r]) := by
  refine ⟨h.represents.append (h.unused _ hnew), ?_⟩
  change (σ'.order ++ [r.eventId]).length ≤ σ'.maxEvents
  rw [List.length_append]
  exact h.room

theorem Consistent.writeBatch (hmax : 1 ≤ σ.maxEvents) (h : σ.Consistent log)
    (records : List AuditEventRecord) :
    (σ.writeBatch records).1.Consistent (log ++ acceptedOf σ records) ∧
      (σ.writeBatch records).1.maxEvents = σ.maxEvents ∧
      (σ.writeBatch records).1.onFull = σ.onFull := by
  induction records generalizing σ log with
  | nil =>
      rw [acceptedOf, List.append_nil]
      exact ⟨h, rfl, rfl⟩
  | cons r records ih =>
      rw [MemoryAudit.writeBatch, acceptedOf]
      by_cases hstored : (σ.events r.eventId).isSome
      · rw [if_pos hstored, if_pos hstored]
        exact ih hmax h
      · rw [if_neg hstored, if_neg hstored]
        rcases enforceCapBeforeAppend_cases hmax h.represents with
          ⟨hcap, hraise, -⟩ | ⟨σ', hcap, hroom⟩
        · rw [hcap, List.append_nil, refused_of_raise hraise]
          exact ⟨h, rfl, rfl⟩
        · rw [hcap]
          have hnew : σ.events r.eventId = none := by simpa using hstored
          obtain ⟨hbatch, hmaxEvents, honFull⟩ :=
            ih (σ := σ'.append r.sessionId r) (hmax.trans_eq hroom.maxEvents.symm)
              (hroom.append hnew)
          rw [List.append_assoc] at hbatch
          exact ⟨hbatch, hmaxEvents.trans hroom.maxEvents, honFull.trans hroom.onFull⟩

/-- A refused insert changes nothing. -/
theorem Consistent.insert_refused (hmax : 1 ≤ σ.maxEvents) (h : σ.Consistent log) {sid : Uuid}
    {build : Build} (hrefused : (σ.insertWithChainLock sid build).2 = none) :
    (σ.insertWithChainLock sid build).1 = σ := by
  rcases hinsert : σ.insertWithChainLock sid build with ⟨σ', res⟩
  rcases insertWithChainLock_cases hinsert with
    ⟨-, rfl | ⟨hcap, rfl⟩⟩ | ⟨r, σ₁, rfl, -⟩
  · rfl
  · rcases enforceCapBeforeAppend_cases hmax h.represents with
      ⟨-, hraise, -⟩ | ⟨σ₂, hsome, -⟩
    · exact refused_of_raise hraise
    · rw [hcap] at hsome
      cases hsome
  · rw [hinsert] at hrefused
    cases hrefused

theorem Consistent.insertWithChainLock (hmax : 1 ≤ σ.maxEvents) (h : σ.Consistent log) {sid : Uuid}
    {build : Build} (hsession : ∀ p r, build p = some r → r.sessionId = sid)
    (hfresh : ∀ p r, build p = some r → σ.events r.eventId = none) :
    (σ.insertWithChainLock sid build).1.Consistent
        (log ++ (σ.insertWithChainLock sid build).2.toList) ∧
      (σ.insertWithChainLock sid build).1.maxEvents = σ.maxEvents ∧
      (σ.insertWithChainLock sid build).1.onFull = σ.onFull := by
  rcases hinsert : σ.insertWithChainLock sid build with ⟨σ', res⟩
  rcases insertWithChainLock_cases hinsert with ⟨rfl, -⟩ | ⟨r, σ₁, rfl, hbuild, hcap, rfl⟩
  · have hsame : (σ.insertWithChainLock sid build).1 = σ := by
      apply h.insert_refused hmax
      rw [hinsert]
    rw [hinsert] at hsame
    rw [Option.toList_none, List.append_nil]
    exact ⟨hsame ▸ h, congrArg MemoryAudit.maxEvents hsame, congrArg MemoryAudit.onFull hsame⟩
  · obtain ⟨p, -, hp⟩ := Option.bind_eq_some_iff.mp hbuild
    obtain rfl := hsession p r hp
    rcases enforceCapBeforeAppend_cases hmax h.represents with
      ⟨hnone, -, -⟩ | ⟨σ₂, hsome, hroom⟩
    · rw [hcap] at hnone
      cases hnone
    · obtain rfl : σ₁ = σ₂ := Option.some.inj (hcap.symm.trans hsome)
      exact ⟨hroom.append (hfresh p r hp), hroom.maxEvents, hroom.onFull⟩

end MemoryAudit

/-- A store with the events that it has accepted so far. -/
structure LoggedMemory where
  store : MemoryAudit
  accepted : List AuditEventRecord

/-- The write operations.  The callback of an insert builds a record of the session that it
is called for, with a fresh id. -/
inductive MemoryWrite (s : LoggedMemory) : LoggedMemory → Prop
  | insert (sid : Uuid) (build : Build)
      (hsession : ∀ p r, build p = some r → r.sessionId = sid)
      (hfresh : ∀ p r, build p = some r → s.store.events r.eventId = none) :
      MemoryWrite s
        ⟨(s.store.insertWithChainLock sid build).1,
          s.accepted ++ (s.store.insertWithChainLock sid build).2.toList⟩
  | writeBatch (records : List AuditEventRecord) :
      MemoryWrite s
        ⟨(s.store.writeBatch records).1, s.accepted ++ s.store.acceptedOf records⟩

def memoryStores (maxEvents : ℕ) (onFull : OnFull) : System LoggedMemory where
  init s := s = ⟨.empty maxEvents onFull, []⟩
  step := MemoryWrite

theorem memoryStores_consistent {maxEvents : ℕ} {onFull : OnFull} (hmax : 1 ≤ maxEvents)
    {s : LoggedMemory} (h : (memoryStores maxEvents onFull).Reachable s) :
    s.store.Consistent s.accepted ∧ s.store.maxEvents = maxEvents ∧ s.store.onFull = onFull := by
  refine System.invariant
    (I := fun s => s.store.Consistent s.accepted ∧ s.store.maxEvents = maxEvents ∧
      s.store.onFull = onFull) ?_ ?_ h
  · rintro s rfl
    exact ⟨⟨.empty maxEvents onFull, Nat.zero_le _⟩, rfl, rfl⟩
  · rintro s t - ⟨hconsistent, rfl, rfl⟩ hstep
    cases hstep with
    | insert sid build hsession hfresh =>
        exact hconsistent.insertWithChainLock hmax hsession hfresh
    | writeBatch records => exact hconsistent.writeBatch hmax records

/-! ## The representation invariant -/

/-- Over every run of inserts and batches: the deque enumerates the keys of the dictionary,
every bucket is the part of the deque of its session, the cap is kept, every accepted event
is stored or counted as evicted, the stored events are the ones accepted last, and a refused
insert changes nothing. -/
theorem memory_store_invariant {maxEvents : ℕ} {onFull : OnFull} (hmax : 1 ≤ maxEvents)
    {s : LoggedMemory} (h : (memoryStores maxEvents onFull).Reachable s) :
    (s.store.order.Nodup ∧ ∀ id, id ∈ s.store.order ↔ (s.store.events id).isSome) ∧
      (∀ sid, s.store.bySession sid =
        s.store.order.filter fun id => (s.store.events id).any fun r => r.sessionId = sid) ∧
      s.store.order.length ≤ maxEvents ∧
      s.accepted.length = s.store.order.length + s.store.evictedTotal ∧
      (s.store.order = (s.accepted.drop s.store.evictedTotal).map (fun r => r.eventId) ∧
        ∀ id r, s.store.events id = some r ↔
          r ∈ s.accepted.drop s.store.evictedTotal ∧ r.eventId = id) ∧
      ∀ sid build, (s.store.insertWithChainLock sid build).2 = none →
        (s.store.insertWithChainLock sid build).1 = s.store := by
  obtain ⟨hconsistent, rfl, -⟩ := memoryStores_consistent hmax h
  have hrep := hconsistent.represents
  refine ⟨⟨hrep.nodup, hrep.mem_order_iff⟩, hrep.bucket_eq, hconsistent.bounded, hrep.length,
    ⟨hrep.order, hrep.events⟩, ?_⟩
  intro sid build hrefused
  exact hconsistent.insert_refused hmax hrefused

/-- A batch of two, and then one of them again, through a store for one event. -/
def smallMemory : LoggedMemory :=
  let σ := ((MemoryAudit.empty 1 .evict).writeBatch [sampleRecord₁, sampleRecord₂]).1
  ⟨(σ.writeBatch [sampleRecord₂, sampleRecord₁]).1,
    [sampleRecord₁, sampleRecord₂, sampleRecord₁]⟩

theorem smallMemory_reachable : (memoryStores 1 .evict).Reachable smallMemory := by
  have hempty : (memoryStores 1 .evict).Reachable ⟨.empty 1 .evict, []⟩ :=
    System.Reachable.start rfl
  have hfirst := System.Reachable.next hempty
    (MemoryWrite.writeBatch [sampleRecord₁, sampleRecord₂])
  exact System.Reachable.next hfirst (MemoryWrite.writeBatch [sampleRecord₂, sampleRecord₁])

theorem small_store_invariant :
    smallMemory.store.order = [⟨1⟩] ∧ smallMemory.store.evictedTotal = 2 ∧
      smallMemory.accepted.length =
        smallMemory.store.order.length + smallMemory.store.evictedTotal := by
  have h := memory_store_invariant (by decide) smallMemory_reachable
  exact ⟨rfl, rfl, h.2.2.2.1⟩

end AgenticGovernance.Audit

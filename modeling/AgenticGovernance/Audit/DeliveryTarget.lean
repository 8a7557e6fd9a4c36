import Mathlib
import AgenticGovernance.Audit.Columns

/-!
# Stores that the fallback drains into

`drain_to` hands the records of the fallback to `write_batch` of a target, in batches.  A
`DeliveryTarget` is what that relies on: a batch adds rows of its own records only, and a
call that returns has a row for each of them.  `InMemoryAuditStore` skips an event that it
has already; `PostgresAuditStore` refuses the batch, and also one with a record that its
columns do not take.
-/

namespace AgenticGovernance.Audit

open Support

/-- A store that `drain_to` writes to, with the records of its rows. -/
structure DeliveryTarget where
  Store : Type
  writeBatch : Store → List AuditEventRecord → Store × Bool
  records : Store → List AuditEventRecord
  /-- The record of the row into which a record is written. -/
  stored : AuditEventRecord → AuditEventRecord
  /-- The store has a row for such a record. -/
  Takes : AuditEventRecord → Prop
  /-- A stored event is skipped, rather than refused, when it is written again. -/
  idempotent : Bool
  Ok : Store → Prop
  /-- The store takes `n` further events. -/
  Room : Store → ℕ → Prop
  stored_eventId : ∀ r, (stored r).eventId = r.eventId
  nodup_ids : ∀ {t}, Ok t → ((records t).map fun x => x.eventId).Nodup
  write_ok : ∀ {t t' batch ok}, Ok t → writeBatch t batch = (t', ok) → Ok t'
  write_subset : ∀ {t t' batch ok}, Ok t → writeBatch t batch = (t', ok) →
    records t ⊆ records t'
  /-- A row that was not there before is one of the batch. -/
  write_source : ∀ {t t' batch ok}, Ok t → writeBatch t batch = (t', ok) →
    ∀ x ∈ records t', x ∈ records t ∨ ∃ r ∈ batch, x = stored r
  write_stored : ∀ {t t' batch}, Ok t → writeBatch t batch = (t', true) →
    ∀ r ∈ batch, ∃ x ∈ records t', x.eventId = r.eventId
  /-- Without idempotence a batch is written as a whole or not at all. -/
  write_refused : ∀ {t t' batch}, Ok t → idempotent = false →
    writeBatch t batch = (t', false) → records t' = records t
  /-- A store without idempotence is not bounded. -/
  room : idempotent = false → ∀ t n, Room t n
  write_accepts : ∀ {t batch n}, Ok t → Room t n → batch.length ≤ n →
    (∀ r ∈ batch, Takes r) →
    (idempotent = false → (batch.map fun r => r.eventId).Nodup ∧
      ∀ r ∈ batch, ∀ x ∈ records t, x.eventId ≠ r.eventId) →
    ∃ t', writeBatch t batch = (t', true) ∧ Room t' (n - batch.length)

def DeliveryTarget.ids (T : DeliveryTarget) (t : T.Store) : List Uuid :=
  (T.records t).map fun x => x.eventId

/-! ## The two targets -/

namespace MemoryAudit

variable {σ σ' : MemoryAudit} {r x : AuditEventRecord}

def records (σ : MemoryAudit) : List AuditEventRecord := σ.order.filterMap σ.events

/-- The deque lists the ids of the stored events, and the store refuses to evict. -/
structure Listed (σ : MemoryAudit) : Prop where
  onFull : σ.onFull = .raise
  nodup : σ.order.Nodup
  stored : ∀ id, id ∈ σ.order ↔ (σ.events id).isSome
  keyed : ∀ id r, σ.events id = some r → r.eventId = id

theorem enforceCapBeforeAppend_raise (h : σ.onFull = .raise) :
    σ.enforceCapBeforeAppend = if σ.order.length < σ.maxEvents then some σ else none := by
  rw [enforceCapBeforeAppend, h]

theorem Listed.mem_records (h : σ.Listed) : x ∈ σ.records ↔ σ.events x.eventId = some x := by
  rw [records, List.mem_filterMap]
  constructor
  · rintro ⟨id, -, hid⟩
    rwa [h.keyed id x hid]
  · intro hx
    refine ⟨x.eventId, (h.stored _).mpr ?_, hx⟩
    rw [hx]
    rfl

theorem Listed.map_eventId (h : σ.Listed) :
    (σ.records.map fun x => x.eventId) = σ.order := by
  have hmap : ∀ ids ⊆ σ.order,
      ((ids.filterMap σ.events).map fun x => x.eventId) = ids := by
    intro ids
    induction ids with
    | nil => exact fun _ => rfl
    | cons id ids ih =>
        intro hsub
        rw [List.cons_subset] at hsub
        obtain ⟨r, hr⟩ := Option.isSome_iff_exists.mp ((h.stored id).mp hsub.1)
        rw [List.filterMap_cons_some hr, List.map_cons, ih hsub.2, h.keyed id r hr]
  exact hmap σ.order (List.Subset.refl _)

theorem Listed.append (h : σ.Listed) (hnew : ¬(σ.events r.eventId).isSome) (sid : Uuid) :
    (σ.append sid r).Listed where
  onFull := h.onFull
  nodup := by
    apply List.Nodup.append h.nodup (List.nodup_singleton _)
    rw [List.disjoint_singleton]
    exact fun hmem => hnew ((h.stored _).mp hmem)
  stored := by
    intro id
    change id ∈ σ.order ++ [r.eventId] ↔
      (Function.update σ.events r.eventId (some r) id).isSome
    rw [List.mem_append, List.mem_singleton, h.stored]
    by_cases hid : id = r.eventId
    · simp [hid]
    · simp [hid]
  keyed := by
    intro id x hx
    change Function.update σ.events r.eventId (some r) id = some x at hx
    by_cases hid : id = r.eventId
    · rw [hid, Function.update_self] at hx
      rw [hid, Option.some.inj hx]
    · rw [Function.update_of_ne hid] at hx
      exact h.keyed id x hx

theorem Listed.mem_records_append (h : σ.Listed) (hnew : ¬(σ.events r.eventId).isSome)
    (sid : Uuid) : x ∈ (σ.append sid r).records ↔ x ∈ σ.records ∨ x = r := by
  rw [(h.append hnew sid).mem_records, h.mem_records]
  change Function.update σ.events r.eventId (some r) x.eventId = some x ↔ _
  by_cases hid : x.eventId = r.eventId
  · have hnone : σ.events r.eventId = none := by simpa using hnew
    rw [hid, Function.update_self, hnone, Option.some.injEq, eq_comm]
    simp
  · rw [Function.update_of_ne hid]
    refine ⟨Or.inl, fun hx => hx.resolve_right ?_⟩
    rintro rfl
    exact hid rfl

/-- What a batch leaves behind: the events before it, and a prefix of its own. -/
structure BatchWritten (σ : MemoryAudit) (records : List AuditEventRecord) (σ' : MemoryAudit)
    (ok : Bool) : Prop where
  listed : σ'.Listed
  subset : σ.records ⊆ σ'.records
  source : ∀ x ∈ σ'.records, x ∈ σ.records ∨ x ∈ records
  stored : ok = true → ∀ r ∈ records, r.eventId ∈ σ'.order

theorem writeBatch_written {records : List AuditEventRecord} {ok : Bool} (h : σ.Listed)
    (hwrite : σ.writeBatch records = (σ', ok)) : BatchWritten σ records σ' ok := by
  induction records generalizing σ with
  | nil =>
      obtain ⟨rfl, -⟩ := Prod.mk.inj hwrite
      exact ⟨h, List.Subset.refl _, fun x hx => Or.inl hx, fun _ r hr => absurd hr (by simp)⟩
  | cons r records ih =>
      rw [writeBatch, enforceCapBeforeAppend_raise h.onFull, refused_of_raise h.onFull] at hwrite
      split at hwrite
      · rename_i hold
        have hrest := ih h hwrite
        refine ⟨hrest.listed, hrest.subset,
          fun x hx => (hrest.source x hx).imp_right (List.mem_cons_of_mem _), ?_⟩
        intro hok x hx
        rcases List.mem_cons.mp hx with rfl | hx
        · obtain ⟨y, hy⟩ := Option.isSome_iff_exists.mp hold
          have hid : y.eventId = x.eventId := h.keyed _ _ hy
          have hmem : y ∈ σ'.records := hrest.subset (h.mem_records.mpr (hid ▸ hy))
          rw [← hrest.listed.map_eventId, ← hid]
          exact List.mem_map_of_mem hmem
        · exact hrest.stored hok x hx
      · rename_i hnew
        split at hwrite
        · obtain ⟨rfl, rfl⟩ := Prod.mk.inj hwrite
          exact ⟨h, List.Subset.refl _, fun x hx => Or.inl hx, by simp⟩
        · rename_i σ₁ hcap
          have hroom : σ₁ = σ := by
            split at hcap
            · exact (Option.some.inj hcap).symm
            · cases hcap
          subst hroom
          have hrest := ih (h.append hnew r.sessionId) hwrite
          have hmem : ∀ x, x ∈ (σ₁.append r.sessionId r).records ↔ x ∈ σ₁.records ∨ x = r :=
            fun x => h.mem_records_append hnew r.sessionId
          refine ⟨hrest.listed, fun x hx => hrest.subset ((hmem x).mpr (Or.inl hx)), ?_, ?_⟩
          · intro x hx
            rw [List.mem_cons, ← or_assoc, ← hmem]
            exact hrest.source x hx
          · intro hok x hx
            rcases List.mem_cons.mp hx with rfl | hx
            · rw [← hrest.listed.map_eventId]
              exact List.mem_map_of_mem (hrest.subset ((hmem x).mpr (Or.inr rfl)))
            · exact hrest.stored hok x hx

theorem writeBatch_accepts {records : List AuditEventRecord} {n : ℕ} (h : σ.Listed)
    (hroom : σ.order.length + n ≤ σ.maxEvents) (hn : records.length ≤ n) :
    ∃ σ', σ.writeBatch records = (σ', true) ∧
      σ'.order.length + (n - records.length) ≤ σ'.maxEvents := by
  induction records generalizing σ n with
  | nil => exact ⟨σ, rfl, hroom⟩
  | cons r records ih =>
      rw [List.length_cons] at hn
      rw [writeBatch, enforceCapBeforeAppend_raise h.onFull]
      by_cases hold : (σ.events r.eventId).isSome
      · obtain ⟨σ', hwrite, hroom'⟩ := ih (n := n - 1) h (by omega) (by omega)
        refine ⟨σ', by rw [if_pos hold, hwrite], ?_⟩
        rw [List.length_cons]
        omega
      · have hlt : σ.order.length < σ.maxEvents := by omega
        have hlength : (σ.append r.sessionId r).order.length = σ.order.length + 1 := by
          simp [MemoryAudit.append]
        obtain ⟨σ', hwrite, hroom'⟩ := ih (n := n - 1) (h.append hold r.sessionId)
          (by rw [hlength]; exact (show σ.order.length + 1 + (n - 1) ≤ σ.maxEvents by omega))
          (by omega)
        refine ⟨σ', ?_, ?_⟩
        · rw [if_neg hold, if_pos hlt]
          exact hwrite
        · rw [List.length_cons]
          omega

/-- `InMemoryAuditStore` as a target, with its default `on_full`. -/
def target : DeliveryTarget where
  Store := MemoryAudit
  writeBatch := writeBatch
  records := records
  stored := id
  Takes _ := True
  idempotent := true
  Ok := Listed
  Room σ n := σ.order.length + n ≤ σ.maxEvents
  stored_eventId := fun _ => rfl
  nodup_ids := fun h => h.map_eventId ▸ h.nodup
  write_ok := fun h hwrite => (writeBatch_written h hwrite).listed
  write_subset := fun h hwrite => (writeBatch_written h hwrite).subset
  write_source := by
    intro σ σ' batch ok h hwrite x hx
    exact ((writeBatch_written h hwrite).source x hx).imp_right fun hx => ⟨x, hx, rfl⟩
  write_stored := by
    intro σ σ' batch h hwrite r hr
    have hwritten := writeBatch_written h hwrite
    have hmem := hwritten.stored rfl r hr
    rw [← hwritten.listed.map_eventId] at hmem
    exact List.mem_map.mp hmem
  write_refused := by simp
  room := by simp
  write_accepts := fun h hroom hn _ _ => writeBatch_accepts h hroom hn

end MemoryAudit

namespace PostgresAudit

def records (τ : PostgresAudit) : List AuditEventRecord := τ.rows.map fun row => row.record

def eventIds (τ : PostgresAudit) : List Uuid := τ.records.map fun x => x.eventId

theorem insertRow_eq (τ : PostgresAudit) (r : AuditEventRecord) :
    τ.insertRow r =
      if r.eventId ∈ τ.eventIds then ({ τ with nextSeq := τ.nextSeq + 1 }, false)
      else (⟨τ.rows ++ [⟨τ.nextSeq, r, none⟩], τ.nextSeq + 1⟩, true) := by
  simp [insertRow, eventIds, records]

end PostgresAudit

namespace ColumnTypes

variable {C : ColumnTypes} {τ τ' : PostgresAudit} {r : AuditEventRecord}

/-- `INSERT` of one record into columns that may refuse it. -/
def insertRow (C : ColumnTypes) (τ : PostgresAudit) (r : AuditEventRecord) :
    PostgresAudit × Bool :=
  if C.accepts r then τ.insertRow (C.rowToRecord r) else (τ, false)

def insertRows (C : ColumnTypes) : PostgresAudit → List AuditEventRecord → PostgresAudit × Bool
  | τ, [] => (τ, true)
  | τ, r :: records =>
      match C.insertRow τ r with
      | (τ', true) => C.insertRows τ' records
      | (τ', false) => (τ', false)

/-- One transaction, which keeps all rows or none. -/
def writeBatch (C : ColumnTypes) (τ : PostgresAudit) (records : List AuditEventRecord) :
    PostgresAudit × Bool :=
  match C.insertRows τ records with
  | (τ', true) => (τ', true)
  | (τ', false) => ({ τ with nextSeq := τ'.nextSeq }, false)

theorem insertRow_true (h : C.insertRow τ r = (τ', true)) :
    r.eventId ∉ τ.eventIds ∧ τ'.records = τ.records ++ [C.rowToRecord r] := by
  rw [insertRow] at h
  split at h
  · rw [PostgresAudit.insertRow_eq] at h
    split at h
    · cases (Prod.mk.inj h).2
    · rename_i hnew
      obtain ⟨rfl, -⟩ := Prod.mk.inj h
      exact ⟨hnew, by simp [PostgresAudit.records]⟩
  · cases (Prod.mk.inj h).2

theorem insertRow_of_new (haccepts : C.accepts r = true) (hnew : r.eventId ∉ τ.eventIds) :
    ∃ τ', C.insertRow τ r = (τ', true) := by
  have hnew' : (C.rowToRecord r).eventId ∉ τ.eventIds := hnew
  exact ⟨_, by rw [insertRow, if_pos haccepts, PostgresAudit.insertRow_eq, if_neg hnew']⟩

theorem insertRows_true {records : List AuditEventRecord} (hnodup : τ.eventIds.Nodup)
    (h : C.insertRows τ records = (τ', true)) :
    τ'.eventIds.Nodup ∧ τ'.records = τ.records ++ records.map C.rowToRecord := by
  induction records generalizing τ with
  | nil =>
      obtain ⟨rfl, -⟩ := Prod.mk.inj h
      exact ⟨hnodup, by simp⟩
  | cons r records ih =>
      rw [insertRows] at h
      split at h
      · rename_i τ₁ hfirst
        obtain ⟨hnew, hrecords⟩ := insertRow_true hfirst
        have hids : τ₁.eventIds = τ.eventIds ++ [r.eventId] := by
          rw [PostgresAudit.eventIds, hrecords, List.map_append]
          rfl
        obtain ⟨hnodup', hall⟩ := ih (by
          rw [hids]
          exact hnodup.append (List.nodup_singleton _) (List.disjoint_singleton.mpr hnew)) h
        exact ⟨hnodup', by rw [hall, hrecords, List.append_assoc, List.map_cons]; rfl⟩
      · cases (Prod.mk.inj h).2

theorem insertRows_accepts {records : List AuditEventRecord}
    (haccepts : ∀ r ∈ records, C.accepts r = true)
    (hnodup : (records.map fun r => r.eventId).Nodup)
    (hnew : ∀ r ∈ records, r.eventId ∉ τ.eventIds) :
    ∃ τ', C.insertRows τ records = (τ', true) := by
  induction records generalizing τ with
  | nil => exact ⟨τ, rfl⟩
  | cons r records ih =>
      rw [List.map_cons, List.nodup_cons] at hnodup
      rw [List.forall_mem_cons] at hnew haccepts
      obtain ⟨τ₁, hfirst⟩ := insertRow_of_new haccepts.1 hnew.1
      rw [insertRows, hfirst]
      apply ih haccepts.2 hnodup.2
      intro x hx hmem
      rw [PostgresAudit.eventIds, (insertRow_true hfirst).2, List.map_append, List.mem_append,
        List.map_singleton, List.mem_singleton] at hmem
      rcases hmem with hmem | hmem
      · exact hnew.2 x hx hmem
      · exact hnodup.1 (List.mem_map.mpr ⟨x, hx, hmem⟩)

theorem writeBatch_records {records : List AuditEventRecord} {ok : Bool}
    (hnodup : τ.eventIds.Nodup) (hwrite : C.writeBatch τ records = (τ', ok)) :
    τ'.eventIds.Nodup ∧
      τ'.records = τ.records ++ if ok then records.map C.rowToRecord else [] := by
  rw [writeBatch] at hwrite
  split at hwrite
  · rename_i τ₁ hins
    obtain ⟨rfl, rfl⟩ := Prod.mk.inj hwrite
    exact insertRows_true hnodup hins
  · obtain ⟨rfl, rfl⟩ := Prod.mk.inj hwrite
    refine ⟨hnodup, ?_⟩
    simp [PostgresAudit.records]

/-- `PostgresAuditStore` as a target. -/
def target (C : ColumnTypes) : DeliveryTarget where
  Store := PostgresAudit
  writeBatch := C.writeBatch
  records := PostgresAudit.records
  stored := C.rowToRecord
  Takes r := C.accepts r = true
  idempotent := false
  Ok τ := τ.eventIds.Nodup
  Room _ _ := True
  stored_eventId := fun _ => rfl
  nodup_ids := id
  write_ok := fun h hwrite => (writeBatch_records h hwrite).1
  write_subset := by
    intro τ τ' records ok h hwrite
    rw [(writeBatch_records h hwrite).2]
    exact List.subset_append_left _ _
  write_source := by
    intro τ τ' records ok h hwrite x hx
    rw [(writeBatch_records h hwrite).2, List.mem_append] at hx
    refine hx.imp_right fun hx => ?_
    cases ok with
    | false => simp at hx
    | true =>
        obtain ⟨r, hr, rfl⟩ := List.mem_map.mp hx
        exact ⟨r, hr, rfl⟩
  write_stored := by
    intro τ τ' records h hwrite r hr
    refine ⟨C.rowToRecord r, ?_, rfl⟩
    rw [(writeBatch_records h hwrite).2]
    exact List.mem_append_right _ (List.mem_map_of_mem hr)
  write_refused := by
    intro τ τ' records h _ hwrite
    rw [(writeBatch_records h hwrite).2]
    simp
  room := fun _ _ _ => trivial
  write_accepts := by
    intro τ records n _ _ _ htakes hnew
    obtain ⟨hnodup, hfresh⟩ := hnew rfl
    have hids : ∀ r ∈ records, r.eventId ∉ τ.eventIds := by
      intro r hr hmem
      obtain ⟨x, hx, hid⟩ := List.mem_map.mp hmem
      exact hfresh r hr x hx hid
    obtain ⟨τ', hins⟩ := insertRows_accepts htakes hnodup hids
    exact ⟨τ', by rw [writeBatch, hins], trivial⟩

end ColumnTypes

end AgenticGovernance.Audit

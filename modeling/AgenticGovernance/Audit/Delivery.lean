import Mathlib
import AgenticGovernance.Audit.DeliveryTarget
import AgenticGovernance.Audit.JsonlStore

/-!
# Delivery of fallback events

Events enter the JSONL fallback through `_append` and leave it through `drain_to`,
in any order and with any failures of the file system and of the target.  An event
is delivered once the target has its row; until then the fallback has to hold the
record where a later `drain_to` reads it.

Five behaviours of the store lose that: a file at its cap is renamed to a name that
nothing reads, a file operation that fails makes `drain_to` skip the file from then
on, a line leaves out the model and the signature of its record, a drain that fails
after a batch of the file is repeated from the start, which `PostgresAuditStore`
refuses, and a row that the columns of Postgres do not take makes every drain fail
at its batch.  `fallback_delivery` says that nothing is lost or stuck in the runs
without them.
-/

namespace AgenticGovernance.Audit

open Support

/-! ## Runs -/

/-- The records that a later `drain_to` reads. -/
def JsonlStore.held (R : StampReader) (st : JsonlStore) : List AuditEventRecord :=
  st.memoryBuffer ++ if st.fsAvailable then st.lines.filterMap (deserialize R) else []

/-- An append leaves its record in the file rather than in the buffer. -/
def JsonlStore.WritesFile (st : JsonlStore) (ops : FileOps) : Prop :=
  st.fsAvailable = true ∧ ops.write = true ∧ (st.file.isSome = true ∨ ops.chmod = true)

/-- `appended` lists the events handed to the fallback so far. -/
structure DeliveryState (T : DeliveryTarget) where
  fallback : JsonlStore
  target : T.Store
  appended : List AuditEventRecord

inductive DeliveryAction where
  | append (r : AuditEventRecord) (ops : FileOps)
  | drain (ops : FileOps) (up : ℕ → Bool)

section Runs

variable (R : StampReader) (T : DeliveryTarget)

def DeliveryState.act (s : DeliveryState T) : DeliveryAction → DeliveryState T
  | .append r ops =>
      { s with fallback := s.fallback.append ops r, appended := s.appended ++ [r] }
  | .drain ops up =>
      let (fallback, target, _) := s.fallback.drainTo T.writeBatch up R ops s.target
      { s with fallback, target }

/-- An appended event has an id of its own. -/
def DeliveryState.Enabled (s : DeliveryState T) : DeliveryAction → Prop
  | .append r _ =>
      r.eventId ∉ s.appended.map (fun x => x.eventId) ∧ r.eventId ∉ T.ids s.target
  | .drain _ _ => True

/-- An appended record is one that the target takes, and one that a line carries if it is
written to the file.  While the file holds events, an append goes to it: it is below its cap
and the write succeeds.  And if the target refuses repeated events, then a drain that gets
to the file either writes no batch of it, or all of them and removes it. -/
def DeliveryState.Safe (s : DeliveryState T) : DeliveryAction → Prop
  | .append r ops =>
      T.Takes r ∧ (s.fallback.WritesFile ops → LoggedRecord.DefaultsOnly r) ∧
        (s.fallback.fsAvailable = true → s.fallback.file.isSome →
          ¬s.fallback.AtCap ops ∧ ops.write = true)
  | .drain ops up =>
      T.idempotent = false → s.fallback.fsAvailable = true → s.fallback.file.isSome →
        let first := (JsonlStore.memoryBatches s.fallback.memoryBuffer).length
        let batches := JsonlStore.fileBatches R [] s.fallback.lines
        (∃ n < first, up n = false) ∨ ops.read = false ∨ up first = false ∨
          (∀ n < first + batches.length, up n = true) ∧ ops.unlink = true

/-- Runs from an empty fallback in which every action satisfies `C`. -/
def deliveryRuns (C : DeliveryState T → DeliveryAction → Prop) :
    System (DeliveryState T) where
  init s :=
    (∃ maxFileBytes fsAvailable, s.fallback = .empty maxFileBytes fsAvailable) ∧
      T.Ok s.target ∧ s.appended = []
  step s t := ∃ a, s.Enabled T a ∧ C s a ∧ t = s.act R T a

end Runs

variable {R : StampReader} {T : DeliveryTarget}

/-! ## What the calls of `write_batch` leave in the target -/

/-- `k` of the batches went to the target, and nothing else that counts. -/
structure Wrote (T : DeliveryTarget) (t : T.Store) (batches : List (List AuditEventRecord))
    (k : ℕ) (t' : T.Store) : Prop where
  ok : T.Ok t'
  subset : T.records t ⊆ T.records t'
  source : ∀ x ∈ T.records t', x ∈ T.records t ∨ ∃ r ∈ batches.flatten, x = T.stored r
  stored : ∀ r ∈ (batches.take k).flatten, r.eventId ∈ T.ids t'
  exact : T.idempotent = false → ∀ x ∈ T.records t',
    x ∈ T.records t ∨ ∃ r ∈ (batches.take k).flatten, x = T.stored r

theorem Wrote.zero {t : T.Store} (h : T.Ok t) (batches : List (List AuditEventRecord)) :
    Wrote T t batches 0 t where
  ok := h
  subset := List.Subset.refl _
  source := fun x hx => Or.inl hx
  stored := by simp
  exact := fun _ x hx => Or.inl hx

/-- The first batch was refused. -/
theorem Wrote.refused {t t' : T.Store} {batch : List AuditEventRecord} (h : T.Ok t)
    (hwrite : T.writeBatch t batch = (t', false)) (batches : List (List AuditEventRecord)) :
    Wrote T t (batch :: batches) 0 t' where
  ok := T.write_ok h hwrite
  subset := T.write_subset h hwrite
  source := by
    intro x hx
    refine (T.write_source h hwrite x hx).imp_right ?_
    rintro ⟨r, hr, rfl⟩
    exact ⟨r, List.mem_append_left _ hr, rfl⟩
  stored := by simp
  exact := by
    intro hstrict x hx
    rw [T.write_refused h hstrict hwrite] at hx
    exact Or.inl hx

theorem Wrote.cons {t t₁ t' : T.Store} {batch : List AuditEventRecord}
    {batches : List (List AuditEventRecord)} {k : ℕ} (h : T.Ok t)
    (hwrite : T.writeBatch t batch = (t₁, true)) (hrest : Wrote T t₁ batches k t') :
    Wrote T t (batch :: batches) (k + 1) t' where
  ok := hrest.ok
  subset := List.Subset.trans (T.write_subset h hwrite) hrest.subset
  source := by
    intro x hx
    rw [List.flatten_cons]
    rcases hrest.source x hx with hx | ⟨r, hr, rfl⟩
    · rcases T.write_source h hwrite x hx with hx | ⟨r, hr, rfl⟩
      · exact Or.inl hx
      · exact Or.inr ⟨r, List.mem_append_left _ hr, rfl⟩
    · exact Or.inr ⟨r, List.mem_append_right _ hr, rfl⟩
  stored := by
    intro r hr
    rw [List.take_succ_cons, List.flatten_cons, List.mem_append] at hr
    rcases hr with hr | hr
    · obtain ⟨x, hx, hid⟩ := T.write_stored h hwrite r hr
      exact List.mem_map.mpr ⟨x, hrest.subset hx, hid⟩
    · exact hrest.stored r hr
  exact := by
    intro hstrict x hx
    rw [List.take_succ_cons, List.flatten_cons]
    rcases hrest.exact hstrict x hx with hx | ⟨r, hr, rfl⟩
    · rcases T.write_source h hwrite x hx with hx | ⟨r, hr, rfl⟩
      · exact Or.inl hx
      · exact Or.inr ⟨r, List.mem_append_left _ hr, rfl⟩
    · exact Or.inr ⟨r, List.mem_append_right _ hr, rfl⟩

theorem writeBatches_wrote {up : ℕ → Bool} {t t' : T.Store} {n m : ℕ} {ok : Bool}
    {batches : List (List AuditEventRecord)} (h : T.Ok t)
    (hwrite : JsonlStore.writeBatches T.writeBatch up n t batches = (t', m, ok)) :
    ∃ k ≤ batches.length, m = n + k ∧ Wrote T t batches k t' ∧
      (ok = true → k = batches.length) := by
  induction batches generalizing n t with
  | nil =>
      obtain ⟨rfl, hm⟩ := Prod.mk.inj hwrite
      obtain ⟨rfl, -⟩ := Prod.mk.inj hm
      exact ⟨0, le_rfl, rfl, .zero h _, fun _ => rfl⟩
  | cons batch batches ih =>
      rw [JsonlStore.writeBatches] at hwrite
      by_cases hup : up n = true
      · rw [if_pos hup] at hwrite
        split at hwrite
        · rename_i t₁ hfirst
          obtain ⟨k, hk, rfl, hwrote, hall⟩ := ih (T.write_ok h hfirst) hwrite
          refine ⟨k + 1, Nat.succ_le_succ hk, by omega, .cons h hfirst hwrote, fun hok => ?_⟩
          rw [hall hok, List.length_cons]
        · rename_i t₁ hfirst
          obtain ⟨rfl, hm⟩ := Prod.mk.inj hwrite
          obtain ⟨rfl, rfl⟩ := Prod.mk.inj hm
          exact ⟨0, Nat.zero_le _, rfl, .refused h hfirst _, by simp⟩
      · rw [if_neg hup] at hwrite
        obtain ⟨rfl, hm⟩ := Prod.mk.inj hwrite
        obtain ⟨rfl, rfl⟩ := Prod.mk.inj hm
        exact ⟨0, Nat.zero_le _, rfl, .zero h _, by simp⟩

/-- All calls reached the target if all were made. -/
theorem up_of_writeBatches {T : Type} {write : T → List AuditEventRecord → T × Bool}
    {up : ℕ → Bool} {t t' : T} {n m : ℕ} {batches : List (List AuditEventRecord)}
    (hwrite : JsonlStore.writeBatches write up n t batches = (t', m, true)) {i : ℕ}
    (hn : n ≤ i) (hi : i < n + batches.length) : up i = true := by
  induction batches generalizing n t with
  | nil =>
      rw [List.length_nil] at hi
      omega
  | cons batch batches ih =>
      rw [JsonlStore.writeBatches] at hwrite
      by_cases hup : up n = true
      · rw [if_pos hup] at hwrite
        split at hwrite
        · by_cases hin : i = n
          · rw [hin]
            exact hup
          · rw [List.length_cons] at hi
            exact ih hwrite (by omega) (by omega)
        · simp at hwrite
      · simp [hup] at hwrite

/-- The target takes the events that are held, and they are new to one that refuses
repeats. -/
structure Fresh (T : DeliveryTarget) (t : T.Store) (events : List AuditEventRecord) :
    Prop where
  takes : ∀ r ∈ events, T.Takes r
  new : T.idempotent = false → (events.map fun r => r.eventId).Nodup ∧
    ∀ r ∈ events, r.eventId ∉ T.ids t

theorem Fresh.left {t : T.Store} {first rest : List AuditEventRecord}
    (h : Fresh T t (first ++ rest)) : Fresh T t first where
  takes := (List.forall_mem_append.mp h.takes).1
  new := by
    intro hstrict
    obtain ⟨hnodup, hnew⟩ := h.new hstrict
    rw [List.map_append] at hnodup
    exact ⟨hnodup.of_append_left, (List.forall_mem_append.mp hnew).1⟩

/-- What comes behind some events is still new when these have been written. -/
theorem Fresh.right {t t' : T.Store} {first rest : List AuditEventRecord}
    (h : Fresh T t (first ++ rest))
    (hsource : T.idempotent = false → ∀ x ∈ T.records t',
      x ∈ T.records t ∨ ∃ r ∈ first, x = T.stored r) : Fresh T t' rest where
  takes := (List.forall_mem_append.mp h.takes).2
  new := by
    intro hstrict
    obtain ⟨hnodup, hnew⟩ := h.new hstrict
    rw [List.map_append] at hnodup
    refine ⟨hnodup.of_append_right, ?_⟩
    intro r hr hmem
    obtain ⟨y, hy, hyr⟩ := List.mem_map.mp hmem
    rcases hsource hstrict y hy with hold | ⟨x, hx, rfl⟩
    · exact hnew r (List.mem_append_right _ hr) (List.mem_map.mpr ⟨y, hold, hyr⟩)
    · rw [T.stored_eventId] at hyr
      exact List.disjoint_of_nodup_append hnodup (List.mem_map.mpr ⟨x, hx, hyr⟩)
        (List.mem_map.mpr ⟨r, hr, rfl⟩)

/-- With the target up and room in it, all batches are written. -/
theorem writeBatches_accepts {up : ℕ → Bool} {t : T.Store} {n room : ℕ}
    {batches : List (List AuditEventRecord)} (h : T.Ok t)
    (hup : ∀ i, n ≤ i → i < n + batches.length → up i = true)
    (hroom : T.Room t room) (hfits : batches.flatten.length ≤ room)
    (hfresh : Fresh T t batches.flatten) :
    ∃ t', JsonlStore.writeBatches T.writeBatch up n t batches =
        (t', n + batches.length, true) ∧ T.Room t' (room - batches.flatten.length) := by
  induction batches generalizing n t room with
  | nil => exact ⟨t, rfl, hroom⟩
  | cons batch batches ih =>
      rw [List.flatten_cons] at hfresh
      rw [List.flatten_cons, List.length_append] at hfits
      rw [List.length_cons] at hup
      obtain ⟨t₁, hfirst, hroom₁⟩ := T.write_accepts h hroom (show batch.length ≤ room by omega)
        hfresh.left.takes (by
          intro hstrict
          obtain ⟨hnodup, hnew⟩ := hfresh.left.new hstrict
          exact ⟨hnodup, fun r hr x hx hid => hnew r hr (List.mem_map.mpr ⟨x, hx, hid⟩)⟩)
      obtain ⟨t', hrest, hroom'⟩ := ih (n := n + 1) (T.write_ok h hfirst)
        (fun i hi hlt => hup i (by omega) (by omega)) hroom₁ (by omega)
        (hfresh.right fun _ => T.write_source h hfirst)
      refine ⟨t', ?_, ?_⟩
      · rw [JsonlStore.writeBatches, if_pos (hup n le_rfl (by omega)), hfirst]
        simp only [hrest, List.length_cons]
        congr 2
        omega
      · rw [List.flatten_cons, List.length_append, ← Nat.sub_sub]
        exact hroom'

/-! ## One append -/

namespace JsonlStore

variable {st : JsonlStore} {ops : FileOps} {r : AuditEventRecord}

/-- A safe append adds the record to those that a later drain reads. -/
theorem held_append (hcarried : st.WritesFile ops → LoggedRecord.DefaultsOnly r)
    (hsafe : st.fsAvailable = true → st.file.isSome → ¬st.AtCap ops ∧ ops.write = true) :
    (st.append ops r).held R = st.held R ++ [r] := by
  have hread : deserialize R (serialize r) = some (decoded r r.metadata) :=
    deserialize_serialize R r
  by_cases hfs : st.fsAvailable = true
  · by_cases hfile : st.file.isSome = true
    · obtain ⟨hcap, hwrite⟩ := hsafe hfs hfile
      have hnone : st.file.isNone = false := by simpa using hfile
      have hself := (hcarried ⟨hfs, hwrite, Or.inl hfile⟩).decoded_eq
      simp [append, hfs, rotate, hcap, hwrite, hnone, held, lines, hread, hself]
    · -- a new file: whatever fails, the record is in the buffer or alone in the file
      have hnone : st.file = none := by simpa using hfile
      have hcap : ¬st.AtCap ops := fun h => hfile h.1
      by_cases hwrite : ops.write = true
      · by_cases hchmod : ops.chmod = true
        · have hself := (hcarried ⟨hfs, hwrite, Or.inr hchmod⟩).decoded_eq
          simp [append, hfs, rotate, hcap, hwrite, hchmod, held, lines, hread, hself, hnone]
        · simp [append, hfs, rotate, hcap, hwrite, hchmod, held, lines, hnone,
            fallBackToMemory]
      · simp [append, hfs, rotate, hcap, hwrite, held, lines, hnone, fallBackToMemory]
  · simp [append, hfs, held]

end JsonlStore

/-! ## One drain -/

/-- What a drain does to the records that the fallback holds. -/
structure Drained (T : DeliveryTarget) (t : T.Store) (before after : List AuditEventRecord)
    (t' : T.Store) : Prop where
  ok : T.Ok t'
  subset : T.records t ⊆ T.records t'
  source : ∀ x ∈ T.records t', x ∈ T.records t ∨ ∃ r ∈ before, x = T.stored r
  moved : ∀ r ∈ before, r ∈ after ∨ r.eventId ∈ T.ids t'
  kept : after ⊆ before
  exact : T.idempotent = false → ∃ written, before = written ++ after ∧
    ∀ x ∈ T.records t', x ∈ T.records t ∨ ∃ r ∈ written, x = T.stored r

/-- A prefix of the batches was written, and the rest is still held. -/
theorem Wrote.drained {t t' : T.Store} {batches : List (List AuditEventRecord)} {k : ℕ}
    (h : Wrote T t batches k t') {before after : List AuditEventRecord}
    (hsplit : before = (batches.take k).flatten ++ after) (hbatches : batches.flatten ⊆ before) :
    Drained T t before after t' where
  ok := h.ok
  subset := h.subset
  source := by
    intro x hx
    refine (h.source x hx).imp_right ?_
    rintro ⟨r, hr, rfl⟩
    exact ⟨r, hbatches hr, rfl⟩
  moved := by
    intro r hr
    rw [hsplit, List.mem_append] at hr
    exact hr.symm.imp_right (h.stored r)
  kept := by
    rw [hsplit]
    exact List.subset_append_right _ _
  exact := fun hstrict => ⟨_, hsplit, h.exact hstrict⟩

theorem Drained.trans {t t₁ t' : T.Store} {a b c : List AuditEventRecord}
    (h : Drained T t a b t₁) (h' : Drained T t₁ b c t') : Drained T t a c t' where
  ok := h'.ok
  subset := List.Subset.trans h.subset h'.subset
  source := by
    intro x hx
    rcases h'.source x hx with hx | ⟨r, hr, rfl⟩
    · exact h.source x hx
    · exact Or.inr ⟨r, h.kept hr, rfl⟩
  moved := by
    intro r hr
    rcases h.moved r hr with hr | hr
    · exact h'.moved r hr
    · exact Or.inr (List.map_subset _ h'.subset hr)
  kept := List.Subset.trans h'.kept h.kept
  exact := by
    intro hstrict
    obtain ⟨w, hw, hexact⟩ := h.exact hstrict
    obtain ⟨w', hw', hexact'⟩ := h'.exact hstrict
    refine ⟨w ++ w', by rw [hw, hw', List.append_assoc], ?_⟩
    intro x hx
    rcases hexact' x hx with hx | ⟨r, hr, rfl⟩
    · exact (hexact x hx).imp_right fun ⟨r, hr, hx⟩ => ⟨r, List.mem_append_left _ hr, hx⟩
    · exact Or.inr ⟨r, List.mem_append_right _ hr, rfl⟩

theorem Drained.fresh {t t' : T.Store} {before after : List AuditEventRecord}
    (h : Drained T t before after t') (hfresh : Fresh T t before) : Fresh T t' after where
  takes := fun r hr => hfresh.takes r (h.kept hr)
  new := by
    intro hstrict
    obtain ⟨written, rfl, hexact⟩ := h.exact hstrict
    exact (hfresh.right fun _ => hexact).new hstrict

theorem Drained.refl {t : T.Store} (h : T.Ok t) (events : List AuditEventRecord) :
    Drained T t events events t :=
  (Wrote.zero h []).drained (by simp) (by simp)

namespace JsonlStore

variable {st st' : JsonlStore} {ops : FileOps} {up : ℕ → Bool} {t t' : T.Store} {n : ℕ}
  {returned : Bool}

theorem writeBatches_of_down (batches : List (List AuditEventRecord)) (h : up n = false) :
    (writeBatches T.writeBatch up n t batches).1 = t := by
  cases batches with
  | nil => rfl
  | cons batch batches => simp [writeBatches, h]

theorem held_of_no_file (hbuffer : st.memoryBuffer = []) (hfile : st.file = none) :
    st.held R = [] := by
  simp [held, hbuffer, lines, hfile]

/-- A drain that leaves the file has written nothing to a target that refuses repeats. -/
theorem wrote_nothing {batches : List (List AuditEventRecord)} {m : ℕ} {ok : Bool}
    (hstrict : T.idempotent = false) (hok : T.Ok t) (hfresh : Fresh T t batches.flatten)
    (hwrite : writeBatches T.writeBatch up n t batches = (t', m, ok))
    (hkept : ¬(ok && ops.unlink) = true)
    (hsafe : up n = false ∨
      (∀ i, n ≤ i → i < n + batches.length → up i = true) ∧ ops.unlink = true) : t' = t := by
  rcases hsafe with hdown | ⟨hup, hunlink⟩
  · have hsame := writeBatches_of_down (T := T) (t := t) batches hdown
    rwa [hwrite] at hsame
  · exfalso
    obtain ⟨t₂, hwrite₂, -⟩ := writeBatches_accepts hok hup (T.room hstrict t _) le_rfl hfresh
    rw [hwrite] at hwrite₂
    have hall : ok = true := congrArg (fun x => x.2.2) hwrite₂
    apply hkept
    rw [hall, hunlink]
    rfl

/-- The file part of a drain that starts with call `n`. -/
theorem drainFile_drained (hok : T.Ok t) (hbuffer : st.memoryBuffer = [])
    (hfresh : Fresh T t (st.held R))
    (hsafe : T.idempotent = false → st.fsAvailable = true → st.file.isSome →
      ops.read = false ∨ up n = false ∨
        (∀ i, n ≤ i → i < n + (fileBatches R [] st.lines).length → up i = true) ∧
          ops.unlink = true)
    (h : drainFile T.writeBatch up R ops st n t = (st', t', returned)) :
    Drained T t (st.held R) (st'.held R) t' ∧ (returned = true → st'.held R = []) := by
  by_cases hfs : st.fsAvailable = true
  · rcases hfile : st.file with _ | fileLines
    · simp only [drainFile, hfs, hfile, if_true] at h
      simp only [Prod.mk.injEq] at h
      obtain ⟨rfl, rfl, rfl⟩ := h
      exact ⟨.refl hok _, fun _ => held_of_no_file hbuffer hfile⟩
    · have hlines : st.lines = fileLines := by simp [lines, hfile]
      have hheld : st.held R = (fileBatches R [] fileLines).flatten := by
        rw [flatten_fileBatches]
        simp [held, hbuffer, hfs, hlines]
      by_cases hread : ops.read = true
      · rcases hwrite : writeBatches T.writeBatch up n t (fileBatches R [] fileLines) with
          ⟨t₁, m, ok⟩
        obtain ⟨k, -, -, hwrote, hall⟩ := writeBatches_wrote hok hwrite
        simp only [drainFile, hfs, hfile, if_true, hread, hwrite] at h
        by_cases hdone : (ok && ops.unlink) = true
        · rw [if_pos hdone] at h
          simp only [Prod.mk.injEq] at h
          obtain ⟨hst, rfl, rfl⟩ := h
          have hempty : st'.held R = [] := by
            rw [← hst]
            exact held_of_no_file hbuffer rfl
          refine ⟨?_, fun _ => hempty⟩
          rw [hempty]
          refine hwrote.drained ?_ (by rw [hheld]; exact List.Subset.refl _)
          rw [hall (Bool.and_eq_true_iff.mp hdone).1, List.take_length, List.append_nil, hheld]
        · rw [if_neg hdone] at h
          simp only [Prod.mk.injEq] at h
          obtain ⟨rfl, rfl, rfl⟩ := h
          refine ⟨⟨hwrote.ok, hwrote.subset, hheld ▸ hwrote.source, fun r hr => Or.inl hr,
            List.Subset.refl _, ?_⟩, by simp⟩
          intro hstrict
          rw [hheld] at hfresh
          have hsafe' := (hsafe hstrict hfs (by simp [hfile])).resolve_left (by simp [hread])
          rw [hlines] at hsafe'
          have hsame := wrote_nothing hstrict hok hfresh hwrite hdone hsafe'
          exact ⟨[], rfl, fun x hx => Or.inl (hsame ▸ hx)⟩
      · simp only [drainFile, hfs, hfile, if_true, if_neg hread, Prod.mk.injEq] at h
        obtain ⟨rfl, rfl, rfl⟩ := h
        exact ⟨.refl hok _, by simp⟩
  · simp only [drainFile, if_neg hfs, Prod.mk.injEq] at h
    obtain ⟨rfl, rfl, rfl⟩ := h
    exact ⟨.refl hok _, fun _ => by simp [held, hbuffer, hfs]⟩

theorem take_memoryBatches {events : List AuditEventRecord} {k : ℕ}
    (hk : k ≤ (memoryBatches events).length) :
    ((memoryBatches events).take k).flatten ++ events.drop (drainBatchSize * k) = events := by
  have hk' : k ≤ (events.length + (drainBatchSize - 1)) / drainBatchSize := by
    simpa [memoryBatches] using hk
  rw [memoryBatches, ← List.map_take, List.take_range, Nat.min_eq_left hk', flatten_slices]
  exact List.take_append_drop _ _

theorem held_eq (st : JsonlStore) :
    st.held R = (memoryBatches st.memoryBuffer).flatten ++
      held R { st with memoryBuffer := [] } := by
  rw [flatten_memoryBatches]
  simp [held, lines]

/-- The buffer went to the target. -/
theorem drained_of_buffer (hwrote : Wrote T t (memoryBatches st.memoryBuffer)
      (memoryBatches st.memoryBuffer).length t') :
    Drained T t (st.held R) (held R { st with memoryBuffer := [] }) t' := by
  apply hwrote.drained
  · rw [List.take_length]
    exact held_eq st
  · rw [held_eq st]
    exact List.subset_append_left _ _

/-- A drain under the conditions of a safe action. -/
theorem drainTo_drained (hok : T.Ok t) (hfresh : Fresh T t (st.held R))
    (hsafe : T.idempotent = false → st.fsAvailable = true → st.file.isSome →
      (∃ i < (memoryBatches st.memoryBuffer).length, up i = false) ∨ ops.read = false ∨
        up (memoryBatches st.memoryBuffer).length = false ∨
        (∀ i < (memoryBatches st.memoryBuffer).length + (fileBatches R [] st.lines).length,
          up i = true) ∧ ops.unlink = true)
    (h : drainTo T.writeBatch up R ops st t = (st', t', returned)) :
    Drained T t (st.held R) (st'.held R) t' ∧ (returned = true → st'.held R = []) := by
  rcases hwrite : writeBatches T.writeBatch up 0 t (memoryBatches st.memoryBuffer) with
    ⟨t₁, m, ok⟩
  obtain ⟨k, hk, rfl, hwrote, hall⟩ := writeBatches_wrote hok hwrite
  rw [Nat.zero_add] at hwrite
  cases ok with
  | false =>
      simp only [drainTo, hwrite, Bool.false_eq_true, if_false, Prod.mk.injEq] at h
      obtain ⟨rfl, rfl, rfl⟩ := h
      refine ⟨hwrote.drained ?_ ?_, by simp⟩
      · simp only [held, lines]
        rw [← List.append_assoc, take_memoryBatches hk]
      · rw [flatten_memoryBatches]
        exact List.subset_append_left _ _
  | true =>
      obtain rfl := hall rfl
      simp only [drainTo, hwrite, if_true] at h
      have hmemory : Drained T t (st.held R) (held R { st with memoryBuffer := [] }) t₁ :=
        drained_of_buffer hwrote
      have hup : ∀ i < (memoryBatches st.memoryBuffer).length, up i = true := by
        intro i hi
        exact up_of_writeBatches hwrite (Nat.zero_le _) (by omega)
      have hrest := drainFile_drained hmemory.ok (rfl : JsonlStore.memoryBuffer _ = [])
        (hmemory.fresh hfresh) ?_ h
      · exact ⟨hmemory.trans hrest.1, hrest.2⟩
      · intro hstrict hfs hsome
        rcases hsafe hstrict hfs hsome with ⟨i, hi, hdown⟩ | hread | hdown | ⟨hall, hunlink⟩
        · rw [hup i hi] at hdown
          cases hdown
        · exact Or.inl hread
        · exact Or.inr (Or.inl hdown)
        · exact Or.inr (Or.inr ⟨fun i _ hi => hall i hi, hunlink⟩)

/-- A drain into a healthy target returns. -/
theorem drainTo_returns (hok : T.Ok t) (hfresh : Fresh T t (st.held R))
    (hup : ∀ i, up i = true) (hread : ops.read = true) (hunlink : ops.unlink = true)
    (hroom : T.Room t (st.held R).length) :
    (drainTo T.writeBatch up R ops st t).2.2 = true := by
  have hsplit : st.held R = (memoryBatches st.memoryBuffer).flatten ++
      held R { st with memoryBuffer := [] } := held_eq st
  have hlength := congrArg List.length hsplit
  rw [List.length_append] at hlength
  have hparts := hfresh
  rw [hsplit] at hparts
  obtain ⟨t₁, hwrite, hroom₁⟩ := writeBatches_accepts (n := 0) hok (fun i _ _ => hup i) hroom
    (show (memoryBatches st.memoryBuffer).flatten.length ≤ _ by omega) hparts.left
  obtain ⟨k, -, -, hwrote, hall⟩ := writeBatches_wrote hok hwrite
  obtain rfl := hall rfl
  have hmemory : Drained T t (st.held R) (held R { st with memoryBuffer := [] }) t₁ :=
    drained_of_buffer hwrote
  have hfresh₁ := hmemory.fresh hfresh
  rw [drainTo, hwrite]
  simp only [if_true, drainFile]
  split
  · rfl
  · rename_i fileLines hfile
    have hfs : st.fsAvailable = true := by
      by_contra hfs
      simp [hfs] at hfile
    rw [if_pos hfs] at hfile
    have hheld : held R { st with memoryBuffer := [] } =
        (fileBatches R [] fileLines).flatten := by
      rw [flatten_fileBatches]
      simp [held, hfs, lines, hfile]
    rw [hheld] at hfresh₁ hlength
    obtain ⟨t₂, hwrite₂, -⟩ := writeBatches_accepts hmemory.ok
      (n := 0 + (memoryBatches st.memoryBuffer).length) (fun i _ _ => hup i) hroom₁
      (by omega) hfresh₁
    rw [if_pos hread, hwrite₂]
    simp [hunlink]

end JsonlStore

/-! ## Whole runs -/

/-- Every appended record is held or has its row in the target, and what is held can still
be written. -/
structure Delivering (R : StampReader) (T : DeliveryTarget) (s : DeliveryState T) : Prop where
  ok : T.Ok s.target
  distinct : (s.appended.map fun r => r.eventId).Nodup
  covered : ∀ r ∈ s.appended, r ∈ s.fallback.held R ∨ T.stored r ∈ T.records s.target
  known : s.fallback.held R ⊆ s.appended
  /-- A row with the id of an appended event is the row of that event. -/
  origin : ∀ x ∈ T.records s.target, ∀ r ∈ s.appended, x.eventId = r.eventId → x = T.stored r
  fresh : Fresh T s.target (s.fallback.held R)

namespace Delivering

variable {s : DeliveryState T}

theorem append (h : Delivering R T s) {r : AuditEventRecord} {ops : FileOps}
    (henabled : s.Enabled T (.append r ops)) (hsafe : s.Safe R T (.append r ops)) :
    Delivering R T (s.act R T (.append r ops)) := by
  obtain ⟨htakes, hcarried, hfile⟩ := hsafe
  have hheld : (s.fallback.append ops r).held R = s.fallback.held R ++ [r] :=
    JsonlStore.held_append hcarried hfile
  obtain ⟨hunused, hnew⟩ := henabled
  refine ⟨h.ok, ?_, ?_, ?_, ?_, ?_, ?_⟩
  · change ((s.appended ++ [r]).map _).Nodup
    rw [List.map_append]
    exact h.distinct.append (List.nodup_singleton _) (List.disjoint_singleton.mpr hunused)
  · intro x hx
    change x ∈ (s.fallback.append ops r).held R ∨ _
    rw [hheld]
    rcases List.mem_append.mp hx with hx | hx
    · exact (h.covered x hx).imp_left (List.mem_append_left _)
    · exact Or.inl (List.mem_append_right _ hx)
  · change (s.fallback.append ops r).held R ⊆ s.appended ++ [r]
    rw [hheld]
    exact List.append_subset.mpr ⟨List.Subset.trans h.known (List.subset_append_left _ _),
      List.subset_append_right _ _⟩
  · intro x hx y hy hid
    rcases List.mem_append.mp hy with hy | hy
    · exact h.origin x hx y hy hid
    · rw [List.mem_singleton.mp hy] at hid
      exact absurd (List.mem_map.mpr ⟨x, hx, hid⟩) hnew
  · change ∀ x ∈ (s.fallback.append ops r).held R, T.Takes x
    rw [hheld, List.forall_mem_append]
    exact ⟨h.fresh.takes, by simpa using htakes⟩
  · intro hstrict
    obtain ⟨hnodup, hfresh⟩ := h.fresh.new hstrict
    change (((s.fallback.append ops r).held R).map _).Nodup ∧
      ∀ x ∈ (s.fallback.append ops r).held R, x.eventId ∉ T.ids s.target
    rw [hheld, List.map_append, List.forall_mem_append]
    refine ⟨?_, hfresh, by simpa using hnew⟩
    apply hnodup.append (List.nodup_singleton _)
    rw [List.disjoint_singleton]
    exact fun hid => hunused (List.map_subset _ h.known hid)

/-- What a drain leaves of the appended records. -/
theorem drained (h : Delivering R T s) {after : List AuditEventRecord} {t : T.Store}
    (hdrained : Drained T s.target (s.fallback.held R) after t) :
    (∀ x ∈ T.records t, ∀ r ∈ s.appended, x.eventId = r.eventId → x = T.stored r) ∧
      ∀ r ∈ s.appended, r ∈ after ∨ T.stored r ∈ T.records t := by
  have horigin : ∀ x ∈ T.records t, ∀ r ∈ s.appended, x.eventId = r.eventId →
      x = T.stored r := by
    intro x hx r hr hid
    rcases hdrained.source x hx with hx | ⟨w, hw, rfl⟩
    · exact h.origin x hx r hr hid
    · rw [T.stored_eventId] at hid
      rw [List.inj_on_of_nodup_map h.distinct (h.known hw) hr hid]
  refine ⟨horigin, ?_⟩
  intro r hr
  rcases h.covered r hr with hheld | hstored
  · refine (hdrained.moved r hheld).imp_right fun hid => ?_
    obtain ⟨x, hx, hxr⟩ := List.mem_map.mp hid
    exact horigin x hx r hr hxr ▸ hx
  · exact Or.inr (hdrained.subset hstored)

theorem drain (h : Delivering R T s) {ops : FileOps} {up : ℕ → Bool}
    (hsafe : s.Safe R T (.drain ops up)) :
    Delivering R T (s.act R T (.drain ops up)) := by
  rcases hrun : s.fallback.drainTo T.writeBatch up R ops s.target with ⟨st, t, returned⟩
  obtain ⟨hdrained, -⟩ := JsonlStore.drainTo_drained h.ok h.fresh hsafe hrun
  have hact : s.act R T (.drain ops up) = ⟨st, t, s.appended⟩ := by
    rw [DeliveryState.act, hrun]
  obtain ⟨horigin, hcovered⟩ := h.drained hdrained
  rw [hact]
  exact ⟨hdrained.ok, h.distinct, hcovered, List.Subset.trans hdrained.kept h.known, horigin,
    hdrained.fresh h.fresh⟩

theorem of_reachable (h : (deliveryRuns R T (fun s => s.Safe R T)).Reachable s) :
    Delivering R T s := by
  refine System.invariant ?_ ?_ h
  · intro s ⟨⟨maxFileBytes, fsAvailable, hfallback⟩, hok, happended⟩
    have hheld : s.fallback.held R = [] := by
      rw [hfallback]
      exact JsonlStore.held_of_no_file rfl rfl
    refine ⟨hok, ?_, ?_, ?_, ?_, ?_, ?_⟩
    · rw [happended]
      exact List.nodup_nil
    · rw [happended]
      simp
    · rw [hheld]
      exact List.nil_subset _
    · rw [happended]
      simp
    · rw [hheld]
      simp
    · rw [hheld]
      exact fun _ => ⟨List.nodup_nil, by simp⟩
  · intro s t _ hinv ⟨a, henabled, hsafe, ht⟩
    rw [ht]
    cases a with
    | append r ops => exact hinv.append henabled hsafe
    | drain ops up => exact hinv.drain hsafe

end Delivering

/-- In a run of safe actions every appended record is at all times held by the
fallback or has its row in the target, and a drain into a healthy target returns and
leaves the row of every appended record in the target as the only one with its id. -/
theorem fallback_delivery {s : DeliveryState T}
    (h : (deliveryRuns R T (fun s => s.Safe R T)).Reachable s) :
    (∀ r ∈ s.appended, r ∈ s.fallback.held R ∨ T.stored r ∈ T.records s.target) ∧
    ∀ ops up, (∀ n, up n = true) → ops.read = true → ops.unlink = true →
      T.Room s.target (s.fallback.held R).length →
      ∃ st t, s.fallback.drainTo T.writeBatch up R ops s.target = (st, t, true) ∧
        ∀ r ∈ s.appended,
          T.stored r ∈ T.records t ∧ (T.ids t).count r.eventId = 1 := by
  have hinv := Delivering.of_reachable h
  refine ⟨hinv.covered, ?_⟩
  intro ops up hup hread hunlink hroom
  have hreturns := JsonlStore.drainTo_returns hinv.ok hinv.fresh hup hread hunlink hroom
  rcases hrun : s.fallback.drainTo T.writeBatch up R ops s.target with ⟨st, t, returned⟩
  rw [hrun] at hreturns
  obtain ⟨hdrained, hempty⟩ := JsonlStore.drainTo_drained hinv.ok hinv.fresh
    (fun _ _ _ => Or.inr (Or.inr (Or.inr ⟨fun i _ => hup i, hunlink⟩))) hrun
  refine ⟨st, t, by rw [show returned = true from hreturns], ?_⟩
  intro r hr
  have hstored : T.stored r ∈ T.records t := by
    refine ((hinv.drained hdrained).2 r hr).resolve_left ?_
    rw [hempty hreturns]
    exact List.not_mem_nil
  refine ⟨hstored, List.count_eq_one_of_mem (T.nodup_ids hdrained.ok) ?_⟩
  exact List.mem_map.mpr ⟨_, hstored, T.stored_eventId r⟩

/-! ### Two events -/

def okOps (size : ℕ) : FileOps := ⟨true, some size, true, true, true, true⟩

/-- A table whose columns take every row. -/
def sampleTarget : DeliveryTarget := ColumnTypes.sampleColumns.target

/-- An empty fallback in front of an empty table. -/
def deliveryStart (maxFileBytes : ℕ) : DeliveryState sampleTarget where
  fallback := .empty maxFileBytes true
  target := PostgresAudit.empty
  appended := []

/-- The two sample records, appended one after the other; `size` is the size of the
file before the second append. -/
def twoAppended (R : StampReader) (maxFileBytes size : ℕ) :
    DeliveryState sampleTarget :=
  ((deliveryStart maxFileBytes).act R _ (.append sampleRecord₁ (okOps 0))).act R _
    (.append sampleRecord₂ (okOps size))

theorem sample_eventId_ne :
    sampleRecord₂.eventId ∉ [sampleRecord₁].map fun x => x.eventId := by decide

theorem twoAppended_reachable (R : StampReader) {maxFileBytes size : ℕ}
    {C : DeliveryState sampleTarget → DeliveryAction → Prop}
    (h₁ : C (deliveryStart maxFileBytes) (.append sampleRecord₁ (okOps 0)))
    (h₂ : C ((deliveryStart maxFileBytes).act R _ (.append sampleRecord₁ (okOps 0)))
      (.append sampleRecord₂ (okOps size))) :
    (deliveryRuns R sampleTarget C).Reachable (twoAppended R maxFileBytes size) := by
  have hstart : (deliveryRuns R sampleTarget C).Reachable
      (deliveryStart maxFileBytes) :=
    .start ⟨⟨maxFileBytes, true, rfl⟩, List.nodup_nil, rfl⟩
  have hfirst := hstart.next ⟨.append sampleRecord₁ (okOps 0),
    ⟨List.not_mem_nil, List.not_mem_nil⟩, h₁, rfl⟩
  exact hfirst.next ⟨.append sampleRecord₂ (okOps size),
    ⟨sample_eventId_ne, List.not_mem_nil⟩, h₂, rfl⟩

theorem held_twoAppended_rotated (R : StampReader) :
    ((twoAppended R 1 400).fallback.held R).map (fun x => x.eventId) =
      [sampleRecord₂.eventId] := by
  have hfallback : (twoAppended R 1 400).fallback =
      ⟨1, true, some [serialize sampleRecord₂], [], fun _ => none, ∅⟩ := rfl
  rw [hfallback]
  simp [JsonlStore.held, JsonlStore.lines, deserialize_serialize, decoded]

/-- With a cap of one byte the second append renames the file with the first event
away: no drain reads it, and it does not reach the target. -/
theorem rotated_event_lost :
    ∃ s, (deliveryRuns .exact sampleTarget (fun _ _ => True)).Reachable s ∧
      sampleRecord₁ ∈ s.appended ∧
      sampleRecord₁.eventId ∉ (s.fallback.held StampReader.exact).map (fun x => x.eventId) ∧
      sampleRecord₁.eventId ∉ sampleTarget.ids (s.fallback.drainTo
        sampleTarget.writeBatch (fun _ => true) StampReader.exact (okOps 0)
        s.target).2.1 := by
  have hids := held_twoAppended_rotated StampReader.exact
  have hne : sampleRecord₁.eventId ∉ [sampleRecord₂.eventId] := by decide
  refine ⟨twoAppended .exact 1 400, twoAppended_reachable .exact trivial trivial,
    List.mem_cons_self, by rwa [hids], ?_⟩
  rcases hrun : (twoAppended .exact 1 400).fallback.drainTo sampleTarget.writeBatch
    (fun _ => true) StampReader.exact (okOps 0) (twoAppended .exact 1 400).target with
    ⟨st, t, returned⟩
  have hfresh : Fresh sampleTarget (twoAppended .exact 1 400).target
      ((twoAppended .exact 1 400).fallback.held StampReader.exact) := by
    refine ⟨fun _ _ => rfl, fun _ => ?_⟩
    rw [hids]
    exact ⟨List.nodup_singleton _, fun r _ => List.not_mem_nil⟩
  have hok : sampleTarget.Ok (twoAppended .exact 1 400).target := List.nodup_nil
  obtain ⟨hdrained, -⟩ := JsonlStore.drainTo_drained hok hfresh
    (fun _ _ _ => Or.inr (Or.inr (Or.inr ⟨fun _ _ => rfl, rfl⟩))) hrun
  intro hmem
  obtain ⟨x, hx, hid⟩ := List.mem_map.mp hmem
  rcases hdrained.source x hx with hx | ⟨r, hr, rfl⟩
  · exact absurd hx List.not_mem_nil
  · apply hne
    rw [← hid, ← hids]
    exact List.mem_map.mpr ⟨r, hr, rfl⟩

theorem sampleRecords_defaultsOnly :
    LoggedRecord.DefaultsOnly sampleRecord₁ ∧ LoggedRecord.DefaultsOnly sampleRecord₂ :=
  ⟨⟨rfl, rfl, rfl, rfl⟩, ⟨rfl, rfl, rfl, rfl⟩⟩

/-- Two events in a file below its cap reach a healthy target. -/
theorem two_events_delivered :
    ∃ st t, (twoAppended .exact 52428800 400).fallback.drainTo
        sampleTarget.writeBatch (fun _ => true) StampReader.exact (okOps 800)
        (twoAppended .exact 52428800 400).target = (st, t, true) ∧
      (sampleTarget.stored sampleRecord₁ ∈ sampleTarget.records t ∧
        (sampleTarget.ids t).count sampleRecord₁.eventId = 1) ∧
      sampleTarget.stored sampleRecord₂ ∈ sampleTarget.records t ∧
        (sampleTarget.ids t).count sampleRecord₂.eventId = 1 := by
  have hreach : (deliveryRuns .exact sampleTarget
      (fun s => s.Safe .exact sampleTarget)).Reachable
      (twoAppended .exact 52428800 400) := by
    apply twoAppended_reachable
    · exact ⟨rfl, fun _ => sampleRecords_defaultsOnly.1, fun _ hsome => by cases hsome⟩
    · exact ⟨rfl, fun _ => sampleRecords_defaultsOnly.2, fun _ _ => ⟨by decide, rfl⟩⟩
  obtain ⟨st, t, hrun, hdelivered⟩ := (fallback_delivery hreach).2 (okOps 800) (fun _ => true)
    (fun _ => rfl) rfl rfl trivial
  exact ⟨st, t, hrun, hdelivered _ List.mem_cons_self,
    hdelivered _ (List.mem_cons_of_mem _ List.mem_cons_self)⟩

end AgenticGovernance.Audit

import AgenticGovernance.Audit.TrackedCalls

/-!
# The chains of tracked calls

The records that a host builds reach a store sooner or later, or not at all, and a store may
drop records again.  Whatever it still has under an id is the record that was built with
that id.  As the parents of built records are the tracked calls around them,
`get_chain` walks up the call stack, as far as the store knows it.
-/

namespace AgenticGovernance.Audit

open Support

/-! ## Stores that gain records -/

/-- Two records agree on what `get_chain` and `get_session_events` look at. -/
structure SameIds (r r' : AuditEventRecord) : Prop where
  eventId : r.eventId = r'.eventId
  sessionId : r.sessionId = r'.sessionId
  parentEventId : r.parentEventId = r'.parentEventId

theorem SameIds.rfl {r : AuditEventRecord} : SameIds r r := ⟨.refl _, .refl _, .refl _⟩

/-- An audit store with its operations and the lookup of its `get_chain`.  An operation
adds at most the records that it was offered. -/
structure ChainStore where
  Content : Type
  initial : Content
  Op : Type
  apply : Op → Content → Content
  Offers : Op → AuditEventRecord → Prop
  stored : Content → Set AuditEventRecord
  getEvent : Content → Uuid → Option AuditEventRecord
  ids : Content → Finset Uuid
  mem_ids : ∀ c id, (getEvent c id).isSome → id ∈ ids c
  ident : ∀ c id r, getEvent c id = some r → r.eventId = id
  mem_stored : ∀ c id r, getEvent c id = some r → r ∈ stored c
  stored_initial : stored initial = ∅
  stored_apply : ∀ op c r, r ∈ stored (apply op c) →
    r ∈ stored c ∨ ∃ r', Offers op r' ∧ SameIds r r'

namespace ChainStore

variable (P : ChainStore)

def table (c : P.Content) : PointerTable Uuid AuditEventRecord :=
  provenance (P.getEvent c) (P.ids c) (P.mem_ids c) (P.ident c)

def getChain (c : P.Content) (eventId : Uuid) : List AuditEventRecord :=
  (P.table c).chainTo eventId

end ChainStore

/-! ## The in-memory store -/

namespace MemoryAudit

variable {σ σ' : MemoryAudit} {r : AuditEventRecord}

def stored (σ : MemoryAudit) : Set AuditEventRecord := {r | ∃ id, σ.events id = some r}

theorem stored_evictOldest {oldest : Uuid} {rest : List Uuid} :
    (σ.evictOldest oldest rest).stored ⊆ σ.stored := by
  intro r hr
  obtain ⟨id, hid⟩ := hr
  have hupdate : Function.update σ.events oldest none id = some r := hid
  by_cases hsame : id = oldest
  · subst hsame
    simp at hupdate
  · rw [Function.update_of_ne hsame] at hupdate
    exact ⟨id, hupdate⟩

theorem stored_evictAll {order : List Uuid} : (evictAll order σ).stored ⊆ σ.stored := by
  induction order generalizing σ with
  | nil => exact Set.Subset.rfl
  | cons oldest rest ih => exact ih.trans stored_evictOldest

theorem stored_evictLoop {order : List Uuid} (h : evictLoop order σ = some σ') :
    σ'.stored ⊆ σ.stored := by
  induction order generalizing σ with
  | nil =>
      rw [evictLoop] at h
      split at h
      · simp at h
      · rw [← Option.some.inj h]
  | cons oldest rest ih =>
      rw [evictLoop] at h
      split at h
      · exact (ih h).trans stored_evictOldest
      · rw [← Option.some.inj h]

theorem stored_enforceCap (h : σ.enforceCapBeforeAppend = some σ') :
    σ'.stored ⊆ σ.stored := by
  rw [enforceCapBeforeAppend] at h
  split at h
  · rw [← Option.some.inj h]
  · split at h
    · simp at h
    · exact stored_evictLoop h

theorem stored_empty (maxEvents : ℕ) (onFull : OnFull) :
    (MemoryAudit.empty maxEvents onFull).stored = ∅ := by
  ext r
  simp [stored, empty]

theorem stored_refused : σ.refused.stored ⊆ σ.stored := by
  rw [refused]
  split
  · exact Set.Subset.rfl
  · exact stored_evictAll

theorem stored_append {sid : Uuid} {x : AuditEventRecord} (hx : x ∈ (σ.append sid r).stored) :
    x ∈ σ.stored ∨ x = r := by
  obtain ⟨id, hid⟩ := hx
  have hupdate : Function.update σ.events r.eventId (some r) id = some x := hid
  by_cases hsame : id = r.eventId
  · subst hsame
    rw [Function.update_self] at hupdate
    exact Or.inr (Option.some.inj hupdate).symm
  · rw [Function.update_of_ne hsame] at hupdate
    exact Or.inl ⟨id, hupdate⟩

theorem stored_insert {sid : Uuid} {build : Build} {x : AuditEventRecord}
    (hx : x ∈ (σ.insertWithChainLock sid build).1.stored) :
    x ∈ σ.stored ∨ ∃ p, build p = some x := by
  rw [insertWithChainLock] at hx
  split at hx
  · exact Or.inl hx
  · rename_i r hbuild
    split at hx
    · exact Or.inl (stored_refused hx)
    · rename_i hcap
      rcases stored_append hx with hold | rfl
      · exact Or.inl (stored_enforceCap hcap hold)
      · obtain ⟨p, -, hp⟩ := Option.bind_eq_some_iff.mp hbuild
        exact Or.inr ⟨p, hp⟩

theorem stored_writeBatch {records : List AuditEventRecord} {x : AuditEventRecord}
    (hx : x ∈ (σ.writeBatch records).1.stored) : x ∈ σ.stored ∨ x ∈ records := by
  induction records generalizing σ with
  | nil => exact Or.inl hx
  | cons r records ih =>
      rw [writeBatch] at hx
      split at hx
      · exact (ih hx).imp_right (List.mem_cons_of_mem r)
      · split at hx
        · exact Or.inl (stored_refused hx)
        · rename_i hcap
          rcases ih hx with hold | hnew
          · rcases stored_append hold with hold | rfl
            · exact Or.inl (stored_enforceCap hcap hold)
            · exact Or.inr List.mem_cons_self
          · exact Or.inr (List.mem_cons_of_mem r hnew)

end MemoryAudit

/-- The two ways into a primary store. -/
inductive StoreOp where
  | insert (sid : Uuid) (build : Build)
  | writeBatch (records : List AuditEventRecord)

def StoreOp.Offers : StoreOp → AuditEventRecord → Prop
  | insert _ build, r => ∃ p, build p = some r
  | writeBatch records, r => r ∈ records

def MemoryEvents.apply : StoreOp → MemoryEvents → MemoryEvents
  | .insert sid build, m =>
      ⟨(m.val.insertWithChainLock sid build).1, m.property.insertWithChainLock sid build⟩
  | .writeBatch records, m => ⟨(m.val.writeBatch records).1, m.property.writeBatch records⟩

theorem MemoryEvents.stored_apply {op : StoreOp} {m : MemoryEvents} {r : AuditEventRecord}
    (hr : r ∈ (m.apply op).val.stored) :
    r ∈ m.val.stored ∨ ∃ r', op.Offers r' ∧ SameIds r r' := by
  cases op with
  | insert sid build =>
      exact (MemoryAudit.stored_insert hr).imp_right fun hp => ⟨r, hp, .rfl⟩
  | writeBatch records =>
      exact (MemoryAudit.stored_writeBatch hr).imp_right fun hmem => ⟨r, hmem, .rfl⟩

def memoryChains (maxEvents : ℕ) (onFull : OnFull) : ChainStore where
  Content := MemoryEvents
  initial := ⟨.empty maxEvents onFull, .empty maxEvents onFull⟩
  Op := StoreOp
  apply := MemoryEvents.apply
  Offers := StoreOp.Offers
  stored m := m.val.stored
  getEvent := MemoryEvents.getEvent
  ids m := m.table.keys
  mem_ids m := m.table.mem_keys
  ident m := m.table.ident_of_get
  mem_stored _ id _ hr := ⟨id, hr⟩
  stored_initial := MemoryAudit.stored_empty maxEvents onFull
  stored_apply _ _ _ := MemoryEvents.stored_apply

/-! ## The Postgres store -/

namespace PostgresAudit

variable {τ τ' : PostgresAudit} {r : AuditEventRecord}

def stored (τ : PostgresAudit) : Set AuditEventRecord := {r | ∃ row ∈ τ.rows, row.record = r}

theorem stored_insertRow {x : AuditEventRecord} (hx : x ∈ (τ.insertRow r).1.stored) :
    x ∈ τ.stored ∨ x = r := by
  rw [insertRow] at hx
  split at hx
  · exact Or.inl hx
  · obtain ⟨row, hrow, hrecord⟩ := hx
    rcases List.mem_append.mp hrow with hold | hnew
    · exact Or.inl ⟨row, hold, hrecord⟩
    · rw [List.mem_singleton.mp hnew] at hrecord
      exact Or.inr hrecord.symm

theorem stored_insert {sid : Uuid} {build : Build} {x : AuditEventRecord}
    (hx : x ∈ (τ.insertWithChainLock sid build).1.stored) :
    x ∈ τ.stored ∨ ∃ p, build p = some x := by
  rw [insertWithChainLock] at hx
  split at hx
  · exact Or.inl hx
  · rename_i r hbuild
    have hrow : x ∈ (τ.insertRow r).1.stored := by
      split at hx <;> rename_i hinsert <;> rwa [hinsert]
    rcases stored_insertRow hrow with hold | rfl
    · exact Or.inl hold
    · exact Or.inr ⟨_, hbuild⟩

theorem stored_insertRows {records : List AuditEventRecord} {x : AuditEventRecord}
    (hx : x ∈ (τ.insertRows records).1.stored) : x ∈ τ.stored ∨ x ∈ records := by
  induction records generalizing τ with
  | nil => exact Or.inl hx
  | cons r records ih =>
      have hrow : ∀ {y}, y ∈ (τ.insertRow r).1.stored → y ∈ τ.stored ∨ y ∈ r :: records := by
        intro y hy
        rcases stored_insertRow hy with hold | rfl
        · exact Or.inl hold
        · exact Or.inr List.mem_cons_self
      rw [insertRows] at hx
      split at hx <;> rename_i hinsert <;> rw [hinsert] at hrow
      · rcases ih hx with hold | hnew
        · exact hrow hold
        · exact Or.inr (List.mem_cons_of_mem r hnew)
      · exact hrow hx

theorem stored_writeBatch {records : List AuditEventRecord} {x : AuditEventRecord}
    (hx : x ∈ (τ.writeBatch records).1.stored) : x ∈ τ.stored ∨ x ∈ records := by
  rw [writeBatch] at hx
  split at hx
  · rename_i τ' hinsert
    apply stored_insertRows
    rw [hinsert]
    exact hx
  · exact Or.inl hx

end PostgresAudit

def PostgresEvents.apply : StoreOp → PostgresEvents → PostgresEvents
  | .insert sid build, p =>
      ⟨(p.val.insertWithChainLock sid build).1, p.property.insertWithChainLock sid build⟩
  | .writeBatch records, p => ⟨(p.val.writeBatch records).1, p.property.writeBatch records⟩

def postgresChains : ChainStore where
  Content := PostgresEvents
  initial := ⟨.empty, PostgresAudit.primaryKey_empty⟩
  Op := StoreOp
  apply := PostgresEvents.apply
  Offers := StoreOp.Offers
  stored p := p.val.stored
  getEvent := PostgresEvents.getEvent
  ids p := p.table.keys
  mem_ids p := p.table.mem_keys
  ident p := p.table.ident_of_get
  mem_stored p _ _ hr := (p.getEvent_eq_some_iff.mp hr).1
  stored_initial := by
    ext r
    simp [PostgresAudit.stored, PostgresAudit.empty]
  stored_apply := by
    intro op p r hr
    cases op with
    | insert sid build =>
        exact (PostgresAudit.stored_insert hr).imp_right fun hp => ⟨r, hp, .rfl⟩
    | writeBatch records =>
        exact (PostgresAudit.stored_writeBatch hr).imp_right fun hmem => ⟨r, hmem, .rfl⟩

/-! ## The JSONL store -/

/-- What happens to a JSONL store: an insert, or a drain to a Postgres store. -/
inductive JsonlOp where
  | insert (ops : FileOps) (sid : Uuid) (build : Build)
  | drain (up : ℕ → Bool) (ops : FileOps) (target : PostgresAudit)

def JsonlOp.Offers : JsonlOp → AuditEventRecord → Prop
  | insert _ _ build, r => ∃ p, build p = some r
  | drain _ _ _, _ => False

namespace JsonlStore

variable {R : StampReader} {ops : FileOps} {st st' : JsonlStore} {r x : AuditEventRecord}

def apply (R : StampReader) : JsonlOp → JsonlStore → JsonlStore
  | .insert ops sid build, st => (st.insertWithChainLock ops sid build).1
  | .drain up ops target, st => (st.drainTo PostgresAudit.writeBatch up R ops target).1

theorem readAll_rotate (h : st.rotate ops = some st') : st'.readAll R ⊆ st.readAll R := by
  rw [rotate] at h
  split at h
  · split at h
    · rw [← Option.some.inj h]
      exact List.nil_subset _
    · simp at h
  · rw [Option.some.inj h]
    exact List.Subset.refl _

theorem mem_readAll_append (hx : x ∈ (st.append ops r).readAll R) :
    x ∈ st.readAll R ∨ x = decoded r r.metadata := by
  rw [append] at hx
  split at hx
  · split at hx
    · exact Or.inl hx
    · rename_i st' hrotate
      have hwritten : ∀ {y}, y ∈ (st'.lines ++ [serialize r]).filterMap (deserialize R) →
          y ∈ st.readAll R ∨ y = decoded r r.metadata := by
        intro y hy
        rw [List.filterMap_append, List.mem_append] at hy
        rcases hy with hold | hnew
        · exact Or.inl (readAll_rotate hrotate hold)
        · rw [List.filterMap_cons, deserialize_serialize, List.filterMap_nil] at hnew
          exact Or.inr (List.mem_singleton.mp hnew)
      split at hx
      · dsimp only at hx
        split at hx
        · exact hwritten hx
        · exact hwritten hx
      · exact Or.inl (readAll_rotate hrotate hx)
  · exact Or.inl hx

theorem readAll_hydrate {sid : Uuid} (h : st.hydrate ops sid = some st') :
    st'.readAll R = st.readAll R := by
  rw [hydrate] at h
  split at h
  · rw [Option.some.inj h]
  · split at h
    · simp at h
    · rw [← Option.some.inj h]
      rfl

theorem mem_readAll_insert {sid : Uuid} {build : Build}
    (hx : x ∈ (st.insertWithChainLock ops sid build).1.readAll R) :
    x ∈ st.readAll R ∨ ∃ r, (∃ p, build p = some r) ∧ x = decoded r r.metadata := by
  rw [insertWithChainLock] at hx
  split at hx
  · exact Or.inl hx
  · rename_i st' hhydrate
    rw [← readAll_hydrate hhydrate]
    split at hx
    · exact Or.inl hx
    · rename_i r hbuild
      exact (mem_readAll_append hx).imp_right fun heq => ⟨r, ⟨_, hbuild⟩, heq⟩

theorem readAll_drainFile {write : PostgresAudit → List AuditEventRecord → PostgresAudit × Bool}
    {up : ℕ → Bool} {n : ℕ} {t : PostgresAudit} :
    (st.drainFile write up R ops n t).1.readAll R ⊆ st.readAll R := by
  rw [drainFile]
  split
  · exact List.Subset.refl _
  · split
    · dsimp only
      split
      · exact List.nil_subset _
      · exact List.Subset.refl _
    · exact List.Subset.refl _

theorem readAll_drainTo {write : PostgresAudit → List AuditEventRecord → PostgresAudit × Bool}
    {up : ℕ → Bool} {t : PostgresAudit} :
    (st.drainTo write up R ops t).1.readAll R ⊆ st.readAll R := by
  rw [drainTo]
  dsimp only
  split
  · exact readAll_drainFile
  · exact List.Subset.refl _

end JsonlStore

def jsonlChains (R : StampReader) (maxFileBytes : ℕ) (fsAvailable : Bool) : ChainStore where
  Content := JsonlStore
  initial := .empty maxFileBytes fsAvailable
  Op := JsonlOp
  apply := JsonlStore.apply R
  Offers := JsonlOp.Offers
  stored st := {r | r ∈ st.readAll R}
  getEvent st := eventsById (st.readAll R)
  ids st := (st.table R).keys
  mem_ids st := (st.table R).mem_keys
  ident st := (st.table R).ident_of_get
  mem_stored _ _ _ hr := (mem_of_eventsById hr).1
  stored_initial := by
    ext r
    simp [JsonlStore.readAll, JsonlStore.lines, JsonlStore.empty]
  stored_apply := by
    intro op st r hr
    cases op with
    | insert ops sid build =>
        refine (JsonlStore.mem_readAll_insert hr).imp_right ?_
        intro hnew
        obtain ⟨r', hbuild, rfl⟩ := hnew
        exact ⟨r', hbuild, rfl, rfl, rfl⟩
    | drain up ops target => exact Or.inl (JsonlStore.readAll_drainTo hr)

/-! ## The host with its store -/

/-- Which of the three stores the host has. -/
inductive StoreKind where
  | memory (maxEvents : ℕ) (onFull : OnFull)
  | jsonl (R : StampReader) (maxFileBytes : ℕ) (fsAvailable : Bool)
  | postgres

def StoreKind.chains : StoreKind → ChainStore
  | memory maxEvents onFull => memoryChains maxEvents onFull
  | jsonl R maxFileBytes fsAvailable => jsonlChains R maxFileBytes fsAvailable
  | postgres => postgresChains

/-- The host, its store, and the ids of events that are not the host's own: markers, and
what other processes log. -/
structure StoredHost (P : ChainStore) where
  host : HostState
  store : P.Content
  foreign : List Uuid

/-- A record that the host built with the given keys, or that is not its own. -/
def StoredHost.Wrote {P : ChainStore} (K : ModuleKeys) (s : StoredHost P)
    (r : AuditEventRecord) : Prop :=
  (∃ e ∈ s.host.built, ∃ p, e.call.buildRecord K e.eventId p = some r) ∨ r.eventId ∈ s.foreign

/-- The store may be told of a record at any time after it was built, more than once, and
through any of its operations. -/
inductive StoredStep (P : ChainStore) (K : ModuleKeys) : StoredHost P → StoredHost P → Prop
  | host {s : StoredHost P} {host'} (hstep : HostStep s.host host')
      (hnew : ∀ e ∈ host'.built, e.eventId ∉ s.foreign) :
      StoredStep P K s { s with host := host' }
  | foreign {s : StoredHost P} (id : Uuid) (hnew : ∀ e ∈ s.host.built, e.eventId ≠ id) :
      StoredStep P K s { s with foreign := id :: s.foreign }
  | store {s : StoredHost P} (op : P.Op) (hoffers : ∀ r, P.Offers op r → s.Wrote K r) :
      StoredStep P K s { s with store := P.apply op s.store }

def storedSystem (P : ChainStore) (K : ModuleKeys) (programs : List Host) :
    System (StoredHost P) where
  init s := s = ⟨⟨programs.map Task.root, []⟩, P.initial, []⟩
  step := StoredStep P K

/-! ## What a store has is what was built -/

/-- The identifiers of `r` are those of the built record. -/
structure BuiltEvent.Identifies (e : BuiltEvent) (r : AuditEventRecord) : Prop where
  eventId : r.eventId = e.eventId
  sessionId : r.sessionId = e.call.sessionId
  parentEventId : r.parentEventId = e.call.parentId

section Stored

variable {P : ChainStore} {K : ModuleKeys} {programs : List Host} {s : StoredHost P}
  {e : BuiltEvent} {r r' : AuditEventRecord}

theorem BuiltEvent.identifies_of_built {p : Option String}
    (h : e.call.buildRecord K e.eventId p = some r) : e.Identifies r := by
  obtain ⟨hcontent, -⟩ := LogCall.buildRecord_spec h
  refine ⟨?_, ?_, ?_⟩ <;> rw [hcontent] <;> rfl

theorem BuiltEvent.Identifies.congr (h : e.Identifies r') (hsame : SameIds r r') :
    e.Identifies r :=
  ⟨hsame.eventId.trans h.eventId, hsame.sessionId.trans h.sessionId,
    hsame.parentEventId.trans h.parentEventId⟩

theorem reachable_host (h : (storedSystem P K programs).Reachable s) :
    (hostSystem programs).Reachable s.host := by
  refine System.invariant (I := fun s => (hostSystem programs).Reachable s.host) ?_ ?_ h
  · rintro s rfl
    exact System.Reachable.start rfl
  · intro s s' _ hreach hstep
    cases hstep with
    | host hstep hnew => exact hreach.next hstep
    | foreign id hnew => exact hreach
    | store op hoffers => exact hreach

/-- No event of the host has the id of a foreign one, and every stored event is the host's
or foreign. -/
structure StoredOk (s : StoredHost P) : Prop where
  apart : ∀ e ∈ s.host.built, e.eventId ∉ s.foreign
  stored : ∀ r ∈ P.stored s.store,
    (∃ e ∈ s.host.built, e.Identifies r) ∨ r.eventId ∈ s.foreign

theorem HostStep.built_subset {host host' : HostState} (h : HostStep host host') :
    host.built ⊆ host'.built := by
  obtain ⟨-, -, -⟩ := h
  exact List.subset_append_left _ _

theorem storedOk (h : (storedSystem P K programs).Reachable s) : StoredOk s := by
  refine System.invariant (I := StoredOk) ?_ ?_ h
  · rintro s rfl
    refine ⟨by simp, ?_⟩
    intro r hr
    rw [P.stored_initial] at hr
    exact absurd hr (Set.notMem_empty r)
  · intro s s' _ hok hstep
    cases hstep with
    | host hstep hnew =>
        refine ⟨hnew, ?_⟩
        intro r hr
        apply (hok.stored r hr).imp_left
        intro hbuilt
        obtain ⟨e, he, hr⟩ := hbuilt
        exact ⟨e, hstep.built_subset he, hr⟩
    | foreign id hnew =>
        refine ⟨?_, ?_⟩
        · intro e he
          rw [List.mem_cons, not_or]
          exact ⟨hnew e he, hok.apart e he⟩
        · intro r hr
          exact (hok.stored r hr).imp_right (List.mem_cons_of_mem id)
    | store op hoffers =>
        refine ⟨hok.apart, ?_⟩
        intro r hr
        rcases P.stored_apply op s.store r hr with hold | ⟨r', hoffered, hsame⟩
        · exact hok.stored r hold
        · rcases hoffers r' hoffered with ⟨e, he, p, hbuild⟩ | hforeign
          · exact Or.inl ⟨e, he, (BuiltEvent.identifies_of_built hbuild).congr hsame⟩
          · exact Or.inr (hsame.eventId ▸ hforeign)

/-- What the store has under the id of a built record is that record. -/
theorem identifies_of_getEvent (h : (storedSystem P K programs).Reachable s)
    (he : e ∈ s.host.built) (hget : P.getEvent s.store e.eventId = some r) :
    e.Identifies r := by
  have hid : r.eventId = e.eventId := P.ident s.store _ r hget
  rcases (storedOk h).stored r (P.mem_stored s.store _ r hget) with ⟨e', he', hr⟩ | hforeign
  · have hsame : e' = e :=
      List.inj_on_of_nodup_map (linesOk (reachable_host h)).distinct he' he
        (hr.eventId.symm.trans hid)
    rw [← hsame]
    exact hr
  · rw [hid] at hforeign
    exact absurd hforeign ((storedOk h).apart e he)

/-! ## Chains are call stacks -/

theorem BuiltEvent.InScope.parentId (h : e.InScope) (hparent : e.call.event.parentEventId = none) :
    e.call.parentId = e.scope.starts.head? := by
  obtain ⟨fresh, now, hcall⟩ := h
  have hbegin := congrArg LogCall.parentId hcall
  rw [LogCall.begin, hparent, Option.none_or] at hbegin
  exact hbegin

theorem BuiltEvent.InScope.sessionId (h : e.InScope) {sid : Uuid}
    (hsession : e.call.event.sessionId.or e.scope.session = some sid) :
    e.call.sessionId = sid := by
  obtain ⟨fresh, now, hcall⟩ := h
  have hbegin := congrArg LogCall.sessionId hcall
  rw [LogCall.begin, hsession] at hbegin
  exact hbegin

theorem parent_of_getEvent (h : (storedSystem P K programs).Reachable s)
    (he : e ∈ s.host.built) (hparent : e.call.event.parentEventId = none)
    (hget : P.getEvent s.store e.eventId = some r) : r.parentEventId = e.scope.starts.head? := by
  rw [(identifies_of_getEvent h he hget).parentEventId]
  exact ((scopesOk (reachable_host h)).built e he).parentId hparent

theorem points_of_startLine (h : (storedSystem P K programs).Reachable s) {line : List Uuid}
    (hline : StartLine s.host.built line) : (P.table s.store).Points line := by
  induction line with
  | nil => trivial
  | cons id rest ih =>
      obtain ⟨⟨e, he, hid, hparent, hstarts⟩, hrest⟩ := hline
      refine ⟨?_, ih hrest⟩
      intro r hget
      rw [← hid] at hget
      rw [← hstarts]
      exact parent_of_getEvent h he hparent hget

end Stored

/-- In every run, the chain of an event without a parent of its own is the stack of tracked
calls that it was logged in, innermost last, up to the first one that the store lacks. -/
theorem getChain_eq_callStack (kind : StoreKind) (K : ModuleKeys) (programs : List Host)
    {s : StoredHost kind.chains} (h : (storedSystem kind.chains K programs).Reachable s)
    {e : BuiltEvent} (he : e ∈ s.host.built) (hparent : e.call.event.parentEventId = none) :
    (kind.chains.getChain s.store e.eventId).map (fun r => r.eventId) =
      ((e.eventId :: e.scope.starts).takeWhile fun id =>
        (kind.chains.getEvent s.store id).isSome).reverse := by
  have hlines := linesOk (reachable_host h)
  have hline := hlines.scopes e he
  refine PointerTable.map_ident_chainTo (T := kind.chains.table s.store) ?_ ?_
  · refine ⟨?_, points_of_startLine h hline.line⟩
    intro r hget
    exact parent_of_getEvent h he hparent hget
  · rw [List.nodup_cons]
    exact ⟨hlines.fresh e he, hline.nodup⟩

/-- In every run, a stored event is in the session that it names, or else in the one of the
innermost session block around it, in its own task or around the creation of that task. -/
theorem stored_in_block_session (kind : StoreKind) (K : ModuleKeys) (programs : List Host)
    {s : StoredHost kind.chains} (h : (storedSystem kind.chains K programs).Reachable s)
    {e : BuiltEvent} (he : e ∈ s.host.built) {r : AuditEventRecord}
    (hget : kind.chains.getEvent s.store e.eventId = some r) {sid : Uuid}
    (hsession : e.call.event.sessionId.or e.scope.session = some sid) : r.sessionId = sid := by
  rw [(identifies_of_getEvent h he hget).sessionId]
  exact ((scopesOk (reachable_host h)).built e he).sessionId hsession

/-! ### A tracked call in a session -/

def lookupTool : TrackedFunction := ⟨"tool", some "agent-a", false, false⟩

def innerEvent : AuditEvent := { PostgresStore.sampleEvent [] with sessionId := none }

/-- A tracked function that logs one event, called in a session block. -/
def trackedHost : Host :=
  .session (some ⟨100⟩)
    (fun _ => .call lookupTool "" (.log innerEvent fun _ => .finish (.returned "")) .finish)
    .finish

def startRecordContent : EventContent := { sampleContent ⟨1⟩ [] none with kind := "tool.start" }

def startDigest : BitVec 256 :=
  0xdfd173530c38c8024654e8fc868ea8063150dafad3f673b2d8dafa8620523474#256

def innerContent : EventContent :=
  { sampleContent ⟨2⟩ [] (some (digestText startDigest)) with parentEventId := some ⟨1⟩ }

def innerDigest : BitVec 256 :=
  0xf7906a1eed3d1af23046328ec3e2439825af19061ab75f9f6cf8a001673a8756#256

def trackedKeys : ModuleKeys where
  hmac := .ofTable
    [tableEntry sampleSecret startRecordContent startDigest,
     tableEntry sampleSecret innerContent innerDigest]
  secret := sampleSecret
  signer := none

theorem startRecord_valid : RecordFields.Valid
    ⟨startRecordContent, digestText startDigest, none, none, .unsigned⟩ :=
  { sample_valid ⟨1⟩ [] none startDigest .unsigned with kind := by decide }

theorem innerRecord_valid : RecordFields.Valid
    ⟨innerContent, digestText innerDigest, none, none, .unsigned⟩ :=
  { sample_valid ⟨2⟩ [] (some startDigest) innerDigest .unsigned with }

def startRecord : AuditEventRecord := ⟨_, startRecord_valid⟩

def innerRecord : AuditEventRecord := ⟨_, innerRecord_valid⟩

def draw (eventId : Uuid) : LogFate := ⟨[⟨eventId, ⟨0⟩, sampleTime⟩], .returned eventId⟩

theorem draw_sound (eventId : Uuid) : (draw eventId).Sound := by
  intro id hid
  rw [draw, LogResult.returned.injEq] at hid
  exact ⟨_, rfl, hid⟩

def startBuilt : BuiltEvent :=
  ⟨⟨1⟩, .begin (lookupTool.startEvent "") (some ⟨100⟩) none ⟨0⟩ sampleTime, ⟨[], some ⟨100⟩⟩⟩

def innerBuilt : BuiltEvent :=
  ⟨⟨2⟩, .begin innerEvent (some ⟨100⟩) (some ⟨1⟩) ⟨0⟩ sampleTime, ⟨[⟨1⟩], some ⟨100⟩⟩⟩

theorem startRecord_build :
    startBuilt.call.buildRecord trackedKeys ⟨1⟩ none = some startRecord :=
  AuditEventRecord.construct_eq_some_iff.mpr
    (congrArg (RecordFields.mk startRecordContent · none none .unsigned)
      (computeEventHmac_ofTable_self _ _).symm)

theorem innerRecord_hmac : computeEventHmac trackedKeys.hmac sampleSecret innerContent =
    digestText innerDigest := by
  rw [trackedKeys, computeEventHmac_ofTable_of_ne (Or.inl (by decide))]
  exact computeEventHmac_ofTable_self _ _

theorem innerRecord_build :
    innerBuilt.call.buildRecord trackedKeys ⟨2⟩ (some (digestText startDigest)) =
      some innerRecord :=
  AuditEventRecord.construct_eq_some_iff.mpr
    (congrArg (RecordFields.mk innerContent · none none .unsigned) innerRecord_hmac.symm)

/-- The host after its two log calls, with both records in a Postgres store. -/
def trackedRun : StoredHost postgresChains where
  host :=
    { tasks :=
        [⟨.finish (.returned ""),
          [.tracked lookupTool ⟨1⟩ none .finish, .session ⟨100⟩ none .finish],
          ⟨some ⟨100⟩, some ⟨1⟩⟩, ⟨[], none⟩⟩]
      built := [startBuilt, innerBuilt] }
  store := postgresChains.apply (StoreOp.writeBatch [startRecord, innerRecord])
    postgresChains.initial
  foreign := []

theorem HostStep.only {built new : List BuiltEvent} {t t' : Task}
    (htask : TaskStep t t' new []) (hfresh : FreshIds built new) :
    HostStep ⟨[t], built⟩ ⟨[t'], built ++ new⟩ :=
  @HostStep.step ⟨[t], built⟩ [] [] t t' new [] rfl htask hfresh

theorem trackedHost_run : (hostSystem [trackedHost]).Reachable trackedRun.host := by
  have hstart : (hostSystem [trackedHost]).Reachable ⟨[Task.root trackedHost], []⟩ :=
    System.Reachable.start rfl
  have hopen := hstart.next (.only (.openSession ⟨0⟩ rfl) ⟨List.nodup_nil, by simp⟩)
  have hcall := hopen.next
    (.only (.call (draw ⟨1⟩) rfl (draw_sound ⟨1⟩)) ⟨List.nodup_singleton _, by simp⟩)
  have hlog := hcall.next
    (.only (.log (draw ⟨2⟩) rfl (draw_sound ⟨2⟩)) ⟨List.nodup_singleton _, by
      intro e he e' he'
      rw [List.mem_singleton.mp he, List.mem_singleton.mp he']
      decide⟩)
  exact hlog

theorem trackedRun_reachable :
    (storedSystem postgresChains trackedKeys [trackedHost]).Reachable trackedRun := by
  have hhost : ∀ host, (hostSystem [trackedHost]).Reachable host →
      (storedSystem postgresChains trackedKeys [trackedHost]).Reachable
        ⟨host, postgresChains.initial, []⟩ := by
    intro host hreach
    refine System.invariant (I := fun host =>
      (storedSystem postgresChains trackedKeys [trackedHost]).Reachable
        ⟨host, postgresChains.initial, []⟩) ?_ ?_ hreach
    · rintro host rfl
      exact System.Reachable.start rfl
    · intro host host' _ hstored hstep
      exact hstored.next (.host hstep (by simp))
  apply (hhost _ trackedHost_run).next
  apply StoredStep.store (P := postgresChains) (K := trackedKeys)
    (s := ⟨trackedRun.host, postgresChains.initial, []⟩)
    (StoreOp.writeBatch [startRecord, innerRecord])
  intro r hr
  rcases List.mem_pair.mp hr with rfl | rfl
  · exact Or.inl ⟨startBuilt, by simp [trackedRun], _, startRecord_build⟩
  · exact Or.inl ⟨innerBuilt, by simp [trackedRun], _, innerRecord_build⟩

/-- The chain of the inner event is the start event of the call and the event itself. -/
theorem inner_event_chain :
    (postgresChains.getChain trackedRun.store ⟨2⟩).map (fun r => r.eventId) = [⟨1⟩, ⟨2⟩] := by
  have h := getChain_eq_callStack .postgres trackedKeys [trackedHost] trackedRun_reachable
    (e := innerBuilt) (by simp [trackedRun]) rfl
  exact h

/-- The inner event, which names no session, is stored in the session of the block. -/
theorem inner_event_session : innerRecord.sessionId = ⟨100⟩ :=
  stored_in_block_session .postgres trackedKeys [trackedHost] trackedRun_reachable
    (e := innerBuilt) (by simp [trackedRun]) rfl rfl

end AgenticGovernance.Audit

import AgenticGovernance.Gates.Tokens
import AgenticGovernance.Gates.Store
import AgenticGovernance.Support.Calendar
import AgenticGovernance.Support.Jsonb
import AgenticGovernance.Support.Keyed
import AgenticGovernance.Support.Transition

/-!
# Approvals

`has_granted_approval` tells whether an agent has a granted request that has not expired.
`InMemoryGatesStore` looks through its dictionaries; `PostgresGatesStore` asks its table,
from which `cleanup_resolved` deletes old decisions.

Both stores refine a ledger of requests and decisions.  The dictionaries hold all of it.
The table holds the requests whose values its columns take, and has lost decisions only of
requests that are over, as long as no request outlives the retention of a cleanup.
-/

namespace AgenticGovernance.Gates

open Support

/-- What the operations of a store raise. -/
inductive GateException where
  | approvalToken (message : String)
  | gateError (message : String)
  | other (typeName : String)

def GateException.alreadyUsed : GateException :=
  .approvalToken "approval token: already used (single-use only)"

def GateException.unknownRequestId : GateException :=
  .approvalToken "approval token: unknown request_id"

/-- `on_commit`, with what it raises; it does not look at the payload of the request. -/
structure OnCommit where
  raises : ApprovalRequest → Option GateException
  payload_free : ∀ req payload, raises { req with payload := payload } = raises req

/-- A request as `GatesModule.request` makes it, with its expiry in UTC. -/
structure NewRequest extends ApprovalRequest where
  utc : expiresAt.utcoffset = some .utc

/-! ## The in-memory store -/

/-- The dictionaries of `InMemoryGatesStore`. -/
structure DictGates where
  pending : Keyed Uuid ApprovalRequest
  resolutions : Keyed Uuid Resolution
  resolvedRequests : Keyed Uuid ApprovalRequest

namespace DictGates

def empty : DictGates := ⟨.empty, .empty, .empty⟩

variable (σ : DictGates)

def insertPending (req : ApprovalRequest) : DictGates :=
  { σ with pending := σ.pending.set req.requestId req }

def getPending (rid : Uuid) : Option ApprovalRequest := σ.pending.get? rid

def getResolution (rid : Uuid) : Option Resolution := σ.resolutions.get? rid

def resolve (rid : Uuid) (resolution : Resolution) (onCommit : OnCommit) :
    DictGates × Except GateException ApprovalRequest :=
  if (σ.resolutions.get? rid).isSome then (σ, .error .alreadyUsed)
  else
    match σ.pending.get? rid with
    | none => (σ, .error .unknownRequestId)
    | some req =>
        match onCommit.raises req with
        | some exc => (σ, .error exc)
        | none =>
            ({ pending := σ.pending.deleteWhere fun k _ => k = rid
               resolutions := σ.resolutions.set rid resolution
               resolvedRequests := σ.resolvedRequests.set rid req }, .ok req)

/-- The loop of `has_granted_approval` at an instant. -/
def hasGrantedApproval (now : ℤ) (agentId : String) : Bool :=
  σ.resolutions.entries.any fun e =>
    e.2 = .granted && (σ.resolvedRequests.get? e.1).any fun req =>
      req.agentId = agentId && now < (awareExpiry req.expiresAt).instant

end DictGates

/-! ## The Postgres store -/

/-- The request as it is read from its row; the payload went through a JSONB column. -/
def ApprovalRequest.stored (O : EntryOrder) (req : ApprovalRequest) : ApprovalRequest :=
  { req with payload := O.arrange (Json.jsonbFields O req.payload) }

/-- The columns of `governance_gates_pending`. -/
structure PendingColumns where
  order : EntryOrder
  /-- The name of the exception with which the server refuses the values of a row. -/
  refusal : ApprovalRequest → Option String

/-- A row of `governance_gates_pending` with `resolved_at` and `resolution`. -/
structure GateTableRow where
  request : ApprovalRequest
  resolved : Option (ℤ × Resolution)

structure GateTable where
  rows : Keyed Uuid GateTableRow

namespace GateTable

def empty : GateTable := ⟨.empty⟩

variable (τ : GateTable)

/-- The exception is that of a refused value, or of a duplicate primary key. -/
def insertPending (C : PendingColumns) (req : ApprovalRequest) :
    GateTable × Option GateException :=
  match C.refusal req with
  | some typeName => (τ, some (.gateError ("postgres gates.insert_pending failed: " ++ typeName)))
  | none =>
      if (τ.rows.get? req.requestId).isSome then
        (τ, some (.gateError "postgres gates.insert_pending failed: IntegrityError"))
      else (⟨τ.rows.set req.requestId ⟨req.stored C.order, none⟩⟩, none)

def getPending (rid : Uuid) : Option ApprovalRequest :=
  match τ.rows.get? rid with
  | some ⟨req, none⟩ => some req
  | _ => none

def getResolution (rid : Uuid) : Option Resolution :=
  (τ.rows.get? rid).bind fun row => row.resolved.map Prod.snd

/-- What `resolve` makes of an exception of the hook. -/
def wrapped : GateException → GateException
  | .approvalToken message => .approvalToken message
  | .gateError _ => .approvalToken "postgres gates.resolve failed: GateError"
  | .other typeName => .approvalToken ("postgres gates.resolve failed: " ++ typeName)

def resolve (now : ℤ) (rid : Uuid) (resolution : Resolution) (onCommit : OnCommit) :
    GateTable × Except GateException ApprovalRequest :=
  match τ.rows.get? rid with
  | none => (τ, .error .unknownRequestId)
  | some ⟨_, some _⟩ => (τ, .error .alreadyUsed)
  | some ⟨req, none⟩ =>
      match onCommit.raises req with
      | some exc => (τ, .error (wrapped exc))
      | none => (⟨τ.rows.set rid ⟨req, some (now, resolution)⟩⟩, .ok req)

/-- `SELECT 1 … WHERE agent_id = :agent_id AND resolution = 'granted' AND expires_at > NOW()` -/
def hasGrantedApproval (now : ℤ) (agentId : String) : Bool :=
  τ.rows.entries.any fun e =>
    e.2.request.agentId = agentId && e.2.resolved.map Prod.snd = some .granted &&
      now < e.2.request.expiresAt.instant

/-- The rows that `cleanup_resolved` deletes, in a database session in UTC. -/
def Stale (now : ℤ) (olderThanDays : ℕ) (row : GateTableRow) : Bool :=
  row.resolved.any fun resolved => resolved.1 < now - olderThanDays * dayMicros

/-- `cleanup_resolved`, with the number of rows that it deleted; `none` is the `ValueError`. -/
def cleanupResolved (now : ℤ) (olderThanDays : ℤ) : Option (GateTable × ℕ) :=
  if olderThanDays < 0 then none
  else
    some (⟨τ.rows.deleteWhere fun _ row => Stale now olderThanDays.toNat row⟩,
      (τ.rows.entries.filter fun e => Stale now olderThanDays.toNat e.2).length)

end GateTable

/-! ## The ledger -/

/-- The requests that were made, with their decisions. -/
abbrev Ledger := Uuid → Option (ApprovalRequest × Option Resolution)

namespace Ledger

def request (L : Ledger) (req : ApprovalRequest) : Ledger :=
  Function.update L req.requestId (some (req, none))

/-- A decision on an open request. -/
def decided (L : Ledger) (rid : Uuid) (resolution : Resolution) (req : ApprovalRequest) :
    Ledger :=
  Function.update L rid (some (req, some resolution))

/-- A granted request of the agent that has not expired. -/
def Granted (L : Ledger) (now : ℤ) (agentId : String) : Prop :=
  ∃ rid req, L rid = some (req, some .granted) ∧ req.agentId = agentId ∧
    now < req.expiresAt.instant

/-- The requests whose values the columns of the table take. -/
def taken (C : PendingColumns) (L : Ledger) : Ledger :=
  fun rid => (L rid).filter fun entry => (C.refusal entry.1).isNone

end Ledger

/-- The requests of the ledger expire in UTC. -/
def Ledger.Utc (L : Ledger) : Prop :=
  ∀ rid req v, L rid = some (req, v) → req.expiresAt.utcoffset = some .utc

theorem Ledger.Utc.update {L : Ledger} (h : L.Utc) (rid : Uuid) {req : ApprovalRequest}
    (hutc : req.expiresAt.utcoffset = some .utc) (v : Option Resolution) :
    Ledger.Utc (Function.update L rid (some (req, v))) := by
  intro rid' req' v' hentry
  by_cases hrid : rid' = rid
  · subst hrid
    rw [Function.update_self] at hentry
    obtain ⟨rfl, -⟩ := Prod.mk.inj (Option.some.inj hentry)
    exact hutc
  · rw [Function.update_of_ne hrid] at hentry
    exact h rid' req' v' hentry

/-! ## The dictionaries hold the ledger -/

/-- The entry of an open request, and the entry of a decided one. -/
def Ledger.open? (L : Ledger) (rid : Uuid) : Option ApprovalRequest :=
  match L rid with
  | some (req, none) => some req
  | _ => none

def Ledger.closed? (L : Ledger) (rid : Uuid) : Option (ApprovalRequest × Resolution) :=
  match L rid with
  | some (req, some v) => some (req, v)
  | _ => none

/-- The dictionaries are the two halves of the ledger. -/
structure DictGates.Represents (σ : DictGates) (L : Ledger) : Prop where
  pending : ∀ rid, σ.pending.get? rid = L.open? rid
  resolutions : ∀ rid, σ.resolutions.get? rid = (L.closed? rid).map Prod.snd
  resolvedRequests : ∀ rid, σ.resolvedRequests.get? rid = (L.closed? rid).map Prod.fst

section Dict

variable {σ : DictGates} {L : Ledger} {rid : Uuid} {req : ApprovalRequest} {v : Resolution}

@[simp] theorem Ledger.open?_request_self :
    (L.request req).open? req.requestId = some req := by
  simp [Ledger.open?, Ledger.request]

theorem Ledger.open?_request_of_ne (h : rid ≠ req.requestId) :
    (L.request req).open? rid = L.open? rid := by
  simp [Ledger.open?, Ledger.request, h]

@[simp] theorem Ledger.closed?_request_self : (L.request req).closed? req.requestId = none := by
  simp [Ledger.closed?, Ledger.request]

theorem Ledger.closed?_request_of_ne (h : rid ≠ req.requestId) :
    (L.request req).closed? rid = L.closed? rid := by
  simp [Ledger.closed?, Ledger.request, h]

@[simp] theorem Ledger.open?_decided_self : (L.decided rid v req).open? rid = none := by
  simp [Ledger.open?, Ledger.decided]

theorem Ledger.open?_decided_of_ne {rid' : Uuid} (h : rid' ≠ rid) :
    (L.decided rid v req).open? rid' = L.open? rid' := by
  simp [Ledger.open?, Ledger.decided, h]

@[simp] theorem Ledger.closed?_decided_self :
    (L.decided rid v req).closed? rid = some (req, v) := by
  simp [Ledger.closed?, Ledger.decided]

theorem Ledger.closed?_decided_of_ne {rid' : Uuid} (h : rid' ≠ rid) :
    (L.decided rid v req).closed? rid' = L.closed? rid' := by
  simp [Ledger.closed?, Ledger.decided, h]

theorem Ledger.open?_eq_some_iff : L.open? rid = some req ↔ L rid = some (req, none) := by
  rw [Ledger.open?]
  rcases L rid with - | ⟨req', - | v⟩ <;> simp

theorem Ledger.closed?_eq_some_iff :
    L.closed? rid = some (req, v) ↔ L rid = some (req, some v) := by
  rw [Ledger.closed?]
  rcases L rid with - | ⟨req', - | v⟩ <;> simp

namespace DictGates

theorem represents_empty : DictGates.empty.Represents fun _ => none :=
  ⟨by simp [empty, Ledger.open?], by simp [empty, Ledger.closed?],
    by simp [empty, Ledger.closed?]⟩

namespace Represents

/-- A request with a new id is only added to the pending ones. -/
theorem insertPending (h : σ.Represents L) (hnew : L req.requestId = none) :
    (σ.insertPending req).Represents (L.request req) := by
  have hclosed : ∀ rid, (L.request req).closed? rid = L.closed? rid := by
    intro rid
    by_cases hrid : rid = req.requestId
    · rw [hrid, Ledger.closed?_request_self, Ledger.closed?, hnew]
    · exact Ledger.closed?_request_of_ne hrid
  refine ⟨?_, ?_, ?_⟩
  · intro rid
    by_cases hrid : rid = req.requestId
    · subst hrid
      simp [DictGates.insertPending]
    · rw [Ledger.open?_request_of_ne hrid, ← h.pending]
      exact Keyed.get?_set_of_ne hrid
  · intro rid
    rw [hclosed]
    exact h.resolutions rid
  · intro rid
    rw [hclosed]
    exact h.resolvedRequests rid

/-- `resolve` decides an open request whose hook returns, and is refused otherwise. -/
theorem resolve_eq (h : σ.Represents L) (rid : Uuid) (v : Resolution) (onCommit : OnCommit) :
    (σ.resolve rid v onCommit).2 =
      match L rid with
      | none => .error .unknownRequestId
      | some (_, some _) => .error .alreadyUsed
      | some (req, none) =>
          match onCommit.raises req with
          | some exc => .error exc
          | none => .ok req := by
  have hpending := h.pending rid
  have hresolution := h.resolutions rid
  rw [Ledger.open?] at hpending
  rw [Ledger.closed?] at hresolution
  rw [resolve, hresolution, hpending]
  rcases L rid with - | ⟨req, - | v'⟩
  · rfl
  · dsimp only [Option.map_none, Option.isSome_none]
    rcases onCommit.raises req with - | exc
    · rfl
    · rfl
  · rfl

theorem resolve_ok (h : σ.Represents L) {onCommit : OnCommit} (hopen : L rid = some (req, none))
    (hhook : onCommit.raises req = none) :
    (σ.resolve rid v onCommit).1.Represents (L.decided rid v req) := by
  have hstate : (σ.resolve rid v onCommit).1 =
      { pending := σ.pending.deleteWhere fun k _ => k = rid
        resolutions := σ.resolutions.set rid v
        resolvedRequests := σ.resolvedRequests.set rid req } := by
    have hresolution : σ.resolutions.get? rid = none := by
      rw [h.resolutions, Ledger.closed?, hopen]
      rfl
    rw [DictGates.resolve, hresolution, h.pending, Ledger.open?_eq_some_iff.mpr hopen]
    simp [hhook]
  rw [hstate]
  refine ⟨?_, ?_, ?_⟩
  · intro rid'
    by_cases hrid : rid' = rid
    · subst hrid
      simp [Keyed.deleteWhere]
    · rw [Ledger.open?_decided_of_ne hrid, ← h.pending]
      simp [Keyed.deleteWhere, hrid]
  · intro rid'
    by_cases hrid : rid' = rid
    · subst hrid
      simp
    · rw [Ledger.closed?_decided_of_ne hrid, ← h.resolutions]
      exact Keyed.get?_set_of_ne hrid
  · intro rid'
    by_cases hrid : rid' = rid
    · subst hrid
      simp
    · rw [Ledger.closed?_decided_of_ne hrid, ← h.resolvedRequests]
      exact Keyed.get?_set_of_ne hrid

end Represents

/-- A `resolve` that raises changes nothing. -/
theorem resolve_error {onCommit : OnCommit} {exc : GateException}
    (h : (σ.resolve rid v onCommit).2 = .error exc) : (σ.resolve rid v onCommit).1 = σ := by
  rw [resolve] at h ⊢
  split
  · rfl
  · rw [if_neg ‹_›] at h
    split
    · rfl
    · rename_i req hreq
      rw [hreq] at h
      dsimp only at h
      split
      · rfl
      · rename_i hhook
        rw [hhook] at h
        simp at h

theorem Represents.hasGrantedApproval_iff (h : σ.Represents L)
    (hutc : L.Utc) {now : ℤ} {agentId : String} :
    σ.hasGrantedApproval now agentId = true ↔ L.Granted now agentId := by
  rw [hasGrantedApproval, List.any_eq_true]
  constructor
  · intro hany
    obtain ⟨⟨rid, v⟩, hmem, hentry⟩ := hany
    simp only [Bool.and_eq_true, decide_eq_true_eq, Option.any_eq_true] at hentry
    obtain ⟨hv, req, hreq, hagent, hnow⟩ := hentry
    rw [Keyed.mem_entries_iff, h.resolutions] at hmem
    rw [h.resolvedRequests] at hreq
    obtain ⟨⟨req', v'⟩, hclosed, hv'⟩ := Option.map_eq_some_iff.mp hmem
    rw [hclosed] at hreq
    have hsame : req' = req := Option.some.inj hreq
    subst hsame hv' hv
    have hL := Ledger.closed?_eq_some_iff.mp hclosed
    refine ⟨rid, req', hL, hagent, ?_⟩
    rwa [awareExpiry, if_neg (by rw [hutc rid req' _ hL]; simp)] at hnow
  · intro hgranted
    obtain ⟨rid, req, hL, hagent, hnow⟩ := hgranted
    have hclosed := Ledger.closed?_eq_some_iff.mpr hL
    refine ⟨(rid, .granted), ?_, ?_⟩
    · rw [Keyed.mem_entries_iff, h.resolutions, hclosed]
      rfl
    · simp only [Bool.and_eq_true, decide_eq_true_eq, Option.any_eq_true]
      refine ⟨trivial, req, ?_, hagent, ?_⟩
      · rw [h.resolvedRequests, hclosed]
        rfl
      · rwa [awareExpiry, if_neg (by rw [hutc rid req _ hL]; simp)]

end DictGates

end Dict

/-! ## The table has lost only what is over -/

/-- The row of a ledger entry.  The row of a decision may be gone once its request is over.
With a retention in days, no request outlives it. -/
def RowOk (O : EntryOrder) (retention : Option ℕ) (clock : ℤ) (row : Option GateTableRow) :
    Option (ApprovalRequest × Option Resolution) → Prop
  | none => row = none
  | some (req, none) =>
      row = some ⟨req.stored O, none⟩ ∧
        ∀ days, retention = some days → req.expiresAt.instant ≤ clock + days * dayMicros
  | some (req, some v) =>
      (∃ resolvedAt ≤ clock, row = some ⟨req.stored O, some (resolvedAt, v)⟩ ∧
        ∀ days, retention = some days →
          req.expiresAt.instant ≤ resolvedAt + days * dayMicros) ∨
      (row = none ∧ retention ≠ none ∧ req.expiresAt.instant ≤ clock)

def GateTable.Represents (O : EntryOrder) (retention : Option ℕ) (clock : ℤ) (τ : GateTable)
    (L : Ledger) : Prop :=
  ∀ rid, RowOk O retention clock (τ.rows.get? rid) (L rid)

section Table

variable {O : EntryOrder} {C : PendingColumns} {retention : Option ℕ} {clock clock' : ℤ}
  {τ : GateTable} {L : Ledger} {rid : Uuid} {req : ApprovalRequest} {v : Resolution}

theorem RowOk.mono {row : Option GateTableRow}
    {entry : Option (ApprovalRequest × Option Resolution)}
    (h : RowOk O retention clock row entry) (hclock : clock ≤ clock') :
    RowOk O retention clock' row entry := by
  match entry with
  | none => exact h
  | some (req, none) =>
      refine ⟨h.1, ?_⟩
      intro days hdays
      exact (h.2 days hdays).trans (by omega)
  | some (req, some v) =>
      rcases h with ⟨resolvedAt, hpast, hrow, hlife⟩ | ⟨hrow, hcleaned, hover⟩
      · exact Or.inl ⟨resolvedAt, hpast.trans hclock, hrow, hlife⟩
      · exact Or.inr ⟨hrow, hcleaned, hover.trans hclock⟩

theorem ApprovalRequest.stored_raises (onCommit : OnCommit) :
    onCommit.raises (req.stored O) = onCommit.raises req :=
  onCommit.payload_free req _

namespace GateTable

theorem represents_empty : Represents O retention clock .empty fun _ => none := by
  intro rid
  simp [GateTable.empty, RowOk]

namespace Represents

theorem mono (h : τ.Represents O retention clock L) (hclock : clock ≤ clock') :
    τ.Represents O retention clock' L := fun rid => (h rid).mono hclock

theorem insertPending (h : τ.Represents C.order retention clock L)
    (htaken : C.refusal req = none) (hnew : L req.requestId = none)
    (hlife : ∀ days, retention = some days → req.expiresAt.instant ≤ clock + days * dayMicros) :
    (τ.insertPending C req).2 = none ∧
      (τ.insertPending C req).1.Represents C.order retention clock (L.request req) := by
  have hrow : τ.rows.get? req.requestId = none := by
    have hok := h req.requestId
    rwa [hnew] at hok
  have hinsert : τ.insertPending C req =
      (⟨τ.rows.set req.requestId ⟨req.stored C.order, none⟩⟩, none) := by
    rw [GateTable.insertPending, htaken, hrow]
    rfl
  rw [hinsert]
  refine ⟨rfl, ?_⟩
  intro rid
  by_cases hrid : rid = req.requestId
  · subst hrid
    simp only [Ledger.request, Function.update_self, Keyed.get?_set_self]
    exact ⟨rfl, hlife⟩
  · simp only [Ledger.request, Function.update_of_ne hrid, Keyed.get?_set_of_ne hrid]
    exact h rid

/-- `resolve` decides an open request whose hook returns.  A decision that was deleted is no
longer told from a request that never was. -/
theorem resolve_eq (h : τ.Represents O retention clock L) (rid : Uuid) (v : Resolution)
    (onCommit : OnCommit) :
    (τ.resolve clock rid v onCommit).2 =
      match L rid with
      | none => .error .unknownRequestId
      | some (_, some _) =>
          .error (if (τ.rows.get? rid).isSome then .alreadyUsed else .unknownRequestId)
      | some (req, none) =>
          match onCommit.raises req with
          | some exc => .error (wrapped exc)
          | none => .ok (req.stored O) := by
  have hok := h rid
  rw [resolve]
  rcases hL : L rid with - | ⟨req, - | v'⟩
  · rw [hL] at hok
    rw [show τ.rows.get? rid = none from hok]
  · rw [hL] at hok
    rw [hok.1]
    dsimp only
    rw [ApprovalRequest.stored_raises]
    rcases onCommit.raises req with - | exc
    · rfl
    · rfl
  · rw [hL] at hok
    rcases hok with ⟨resolvedAt, -, hrow, -⟩ | ⟨hrow, -, -⟩
    · rw [hrow]
      rfl
    · rw [hrow]
      rfl

theorem resolve_ok (h : τ.Represents O retention clock L) {onCommit : OnCommit}
    (hopen : L rid = some (req, none)) (hhook : onCommit.raises req = none) :
    (τ.resolve clock rid v onCommit).1.Represents O retention clock (L.decided rid v req) := by
  have hok := h rid
  rw [hopen] at hok
  have hstate : (τ.resolve clock rid v onCommit).1 =
      ⟨τ.rows.set rid ⟨req.stored O, some (clock, v)⟩⟩ := by
    rw [resolve, hok.1]
    dsimp only
    rw [ApprovalRequest.stored_raises, hhook]
  rw [hstate]
  intro rid'
  by_cases hrid : rid' = rid
  · subst hrid
    simp only [Ledger.decided, Function.update_self, Keyed.get?_set_self]
    exact Or.inl ⟨clock, le_rfl, rfl, hok.2⟩
  · simp only [Ledger.decided, Function.update_of_ne hrid, Keyed.get?_set_of_ne hrid]
    exact h rid'

end Represents

theorem resolve_error {onCommit : OnCommit} {exc : GateException}
    (h : (τ.resolve clock rid v onCommit).2 = .error exc) :
    (τ.resolve clock rid v onCommit).1 = τ := by
  rw [resolve] at h ⊢
  split
  · rfl
  · rfl
  · rename_i req hrow
    rw [hrow] at h
    dsimp only at h
    split
    · rfl
    · rename_i hhook
      rw [hhook] at h
      simp at h

/-- A cleanup that keeps decisions for the retention deletes only what is over. -/
theorem Represents.cleanup {days : ℕ} {olderThanDays : ℤ} {τ' : GateTable} {n : ℕ}
    (h : τ.Represents O (some days) clock L) (hdays : (days : ℤ) ≤ olderThanDays)
    (hclean : τ.cleanupResolved clock olderThanDays = some (τ', n)) :
    τ'.Represents O (some days) clock L := by
  rw [cleanupResolved, if_neg (by omega)] at hclean
  obtain ⟨rfl, -⟩ := Prod.mk.inj (Option.some.inj hclean)
  have hcast : (olderThanDays.toNat : ℤ) = olderThanDays := Int.toNat_of_nonneg (by omega)
  intro rid
  have hok := h rid
  rcases hL : L rid with - | ⟨req, - | v⟩
  · rw [hL] at hok
    have hrow : τ.rows.get? rid = none := hok
    simp [Keyed.deleteWhere, RowOk, hrow]
  · rw [hL] at hok
    refine ⟨?_, hok.2⟩
    simp [Keyed.deleteWhere, hok.1, Stale]
  · rw [hL] at hok
    rcases hok with ⟨resolvedAt, hpast, hrow, hlife⟩ | ⟨hrow, hcleaned, hover⟩
    · by_cases hstale : resolvedAt < clock - olderThanDays * dayMicros
      · right
        refine ⟨?_, by simp, ?_⟩
        · simp [Keyed.deleteWhere, hrow, Stale, hcast, hstale]
        · have hexpiry := hlife days rfl
          have hscale : (days : ℤ) * dayMicros ≤ olderThanDays * dayMicros :=
            mul_le_mul_of_nonneg_right hdays (by decide)
          omega
      · refine Or.inl ⟨resolvedAt, hpast, ?_, hlife⟩
        simp [Keyed.deleteWhere, hrow, Stale, hcast, hstale]
    · refine Or.inr ⟨?_, hcleaned, hover⟩
      simp [Keyed.deleteWhere, hrow]

/-- The pending requests, each with its payload as the JSON column holds it. -/
theorem Represents.getPending_eq (h : τ.Represents O retention clock L) (rid : Uuid) :
    τ.getPending rid = (L.open? rid).map (ApprovalRequest.stored O) := by
  have hrow := h rid
  rw [getPending, Ledger.open?]
  rcases hL : L rid with - | ⟨req, - | v⟩
  · rw [hL] at hrow
    rw [show τ.rows.get? rid = none from hrow]
    rfl
  · rw [hL] at hrow
    rw [hrow.1]
    rfl
  · rw [hL] at hrow
    rcases hrow with ⟨resolvedAt, -, hrow, -⟩ | ⟨hrow, -, -⟩
    · rw [hrow]
      rfl
    · rw [hrow]
      rfl

/-- The decisions, as long as none are cleaned up. -/
theorem Represents.getResolution_eq (h : τ.Represents O none clock L) (rid : Uuid) :
    τ.getResolution rid = (L.closed? rid).map Prod.snd := by
  have hrow := h rid
  rw [getResolution, Ledger.closed?]
  rcases hL : L rid with - | ⟨req, - | v⟩
  · rw [hL] at hrow
    rw [show τ.rows.get? rid = none from hrow]
    rfl
  · rw [hL] at hrow
    rw [hrow.1]
    rfl
  · rw [hL] at hrow
    rcases hrow with ⟨resolvedAt, -, hrow, -⟩ | ⟨-, hcleaned, -⟩
    · rw [hrow]
      rfl
    · exact absurd rfl hcleaned

/-- The answer at the current time or later. -/
theorem Represents.hasGrantedApproval_iff (h : τ.Represents O retention clock L) {now : ℤ}
    (hnow : clock ≤ now) {agentId : String} :
    τ.hasGrantedApproval now agentId = true ↔ L.Granted now agentId := by
  rw [hasGrantedApproval, List.any_eq_true]
  constructor
  · intro hany
    obtain ⟨⟨rid, row⟩, hmem, hentry⟩ := hany
    simp only [Bool.and_eq_true, decide_eq_true_eq] at hentry
    obtain ⟨⟨hagent, hv⟩, hlate⟩ := hentry
    rw [Keyed.mem_entries_iff] at hmem
    have hok := h rid
    rw [hmem] at hok
    rcases hL : L rid with - | ⟨req, - | v⟩
    · rw [hL] at hok
      simp [RowOk] at hok
    · rw [hL] at hok
      rw [Option.some.inj hok.1] at hv
      simp at hv
    · rw [hL] at hok
      rcases hok with ⟨resolvedAt, -, hrow, -⟩ | ⟨hrow, -, -⟩
      · rw [Option.some.inj hrow] at hv hagent hlate
        have hgranted : v = .granted := by simpa using hv
        subst hgranted
        exact ⟨rid, req, hL, hagent, hlate⟩
      · simp at hrow
  · intro hgranted
    obtain ⟨rid, req, hL, hagent, hlate⟩ := hgranted
    have hok := h rid
    rw [hL] at hok
    rcases hok with ⟨resolvedAt, -, hrow, -⟩ | ⟨-, -, hover⟩
    · refine ⟨(rid, _), Keyed.mem_entries_iff.mpr hrow, ?_⟩
      simp only [Bool.and_eq_true, decide_eq_true_eq]
      exact ⟨⟨hagent, rfl⟩, hlate⟩
    · omega

end GateTable

end Table

/-! ## Both stores under the same calls -/

/-- The ledger and the two stores after the same calls. -/
structure StoresState where
  clock : ℤ
  ledger : Ledger
  dict : DictGates
  table : GateTable

/-- A resolution of the ledger. -/
def Ledger.resolve (L : Ledger) (rid : Uuid) (resolution : Resolution) (onCommit : OnCommit) :
    Ledger :=
  match L.open? rid with
  | some req =>
      if onCommit.raises req = none then L.decided rid resolution req else L
  | none => L

/-- The calls.  Request ids are drawn by `uuid4`; with a retention, requests do not live
longer, and only older decisions are cleaned up. -/
inductive StoresStep (C : PendingColumns) (retention : Option ℕ) :
    StoresState → StoresState → Prop
  | advance {s : StoresState} (clock : ℤ) (hlater : s.clock ≤ clock) :
      StoresStep C retention s { s with clock := clock }
  | request {s : StoresState} (req : NewRequest)
      (hnew : s.ledger req.requestId = none)
      (hlife : ∀ days, retention = some days →
        req.expiresAt.instant ≤ s.clock + days * dayMicros) :
      StoresStep C retention s
        { s with
          ledger := s.ledger.request req.toApprovalRequest
          dict := s.dict.insertPending req.toApprovalRequest
          table := (s.table.insertPending C req.toApprovalRequest).1 }
  | resolve {s : StoresState} (rid : Uuid) (resolution : Resolution) (onCommit : OnCommit) :
      StoresStep C retention s
        { s with
          ledger := s.ledger.resolve rid resolution onCommit
          dict := (s.dict.resolve rid resolution onCommit).1
          table := (s.table.resolve s.clock rid resolution onCommit).1 }
  | cleanup {s : StoresState} (days : ℕ) (olderThanDays : ℤ) (table : GateTable) (n : ℕ)
      (hretention : retention = some days) (hdays : (days : ℤ) ≤ olderThanDays)
      (hclean : s.table.cleanupResolved s.clock olderThanDays = some (table, n)) :
      StoresStep C retention s { s with table := table }

def storesSystem (C : PendingColumns) (retention : Option ℕ) : System StoresState where
  init s := ∃ clock, s = ⟨clock, fun _ => none, .empty, .empty⟩
  step := StoresStep C retention

/-- The dictionaries represent the ledger, and the table what it takes of it. -/
structure StoresOk (C : PendingColumns) (retention : Option ℕ) (s : StoresState) : Prop where
  dict : s.dict.Represents s.ledger
  table : s.table.Represents C.order retention s.clock (s.ledger.taken C)
  utc : s.ledger.Utc

section Taken

variable {C : PendingColumns} {L : Ledger} {rid : Uuid} {req : ApprovalRequest}
  {v : Option Resolution}

theorem Ledger.taken_eq_some_iff :
    L.taken C rid = some (req, v) ↔ L rid = some (req, v) ∧ C.refusal req = none := by
  rw [Ledger.taken, Option.filter_eq_some_iff, Option.isNone_iff_eq_none]

theorem Ledger.taken_update_of_taken (htaken : C.refusal req = none) :
    Ledger.taken C (Function.update L rid (some (req, v))) =
      Function.update (L.taken C) rid (some (req, v)) := by
  funext rid'
  by_cases hrid : rid' = rid
  · subst hrid
    simp [Ledger.taken, htaken]
  · simp [Ledger.taken, hrid]

/-- A refused request is not there for the table, nor is a decision on it. -/
theorem Ledger.taken_update_of_refused (hrefused : C.refusal req ≠ none)
    (hrid : L.taken C rid = none) :
    Ledger.taken C (Function.update L rid (some (req, v))) = L.taken C := by
  funext rid'
  by_cases heq : rid' = rid
  · subst heq
    rw [hrid]
    simpa [Ledger.taken, Option.ne_none_iff_isSome] using hrefused
  · simp [Ledger.taken, heq]

theorem Ledger.taken_eq_self (htaken : ∀ rid req v, L rid = some (req, v) → C.refusal req = none) :
    L.taken C = L := by
  funext rid
  rcases hL : L rid with - | ⟨req, v⟩
  · simp [Ledger.taken, hL]
  · exact Ledger.taken_eq_some_iff.mpr ⟨hL, htaken rid req v hL⟩

theorem Ledger.Granted.of_taken {now : ℤ} {agentId : String}
    (h : (L.taken C).Granted now agentId) : L.Granted now agentId := by
  obtain ⟨rid, req, hentry, hagent, hnow⟩ := h
  exact ⟨rid, req, (Ledger.taken_eq_some_iff.mp hentry).1, hagent, hnow⟩

/-- A decision on an open request, as the table sees it. -/
theorem Ledger.taken_decided {resolution : Resolution} (hopen : L rid = some (req, none)) :
    (L.decided rid resolution req).taken C =
      if C.refusal req = none then (L.taken C).decided rid resolution req else L.taken C := by
  split
  · exact Ledger.taken_update_of_taken ‹_›
  · rename_i hrefused
    refine Ledger.taken_update_of_refused hrefused ?_
    simpa [Ledger.taken, hopen, Option.ne_none_iff_isSome] using hrefused

end Taken

section Stores

variable {C : PendingColumns} {retention : Option ℕ} {s t : StoresState}

/-- The table after a decision, or after an exception. -/
theorem GateTable.Represents.resolve {τ : GateTable} {clock : ℤ} {L : Ledger}
    (h : τ.Represents C.order retention clock (L.taken C)) (rid : Uuid) (v : Resolution)
    (onCommit : OnCommit) :
    (τ.resolve clock rid v onCommit).1.Represents C.order retention clock
      ((L.resolve rid v onCommit).taken C) := by
  have hresult := h.resolve_eq rid v onCommit
  have hrefused : ∀ exc, (τ.resolve clock rid v onCommit).2 = .error exc →
      (L.resolve rid v onCommit).taken C = L.taken C →
      (τ.resolve clock rid v onCommit).1.Represents C.order retention clock
        ((L.resolve rid v onCommit).taken C) := by
    intro exc herror hledger
    rw [hledger, GateTable.resolve_error herror]
    exact h
  rcases hL : L rid with - | ⟨req, - | v'⟩
  · have htaken : L.taken C rid = none := by simp [Ledger.taken, hL]
    rw [htaken] at hresult
    exact hrefused _ hresult (by simp [Ledger.resolve, Ledger.open?, hL])
  · by_cases htaken : C.refusal req = none
    · have hopen := Ledger.taken_eq_some_iff.mpr ⟨hL, htaken⟩
      rw [hopen] at hresult
      dsimp only at hresult
      rcases hhook : onCommit.raises req with - | exc
      · have hledger : L.resolve rid v onCommit = L.decided rid v req := by
          simp [Ledger.resolve, Ledger.open?, hL, hhook]
        rw [hledger, Ledger.taken_decided hL, if_pos htaken]
        exact h.resolve_ok hopen hhook
      · rw [hhook] at hresult
        exact hrefused _ hresult (by simp [Ledger.resolve, Ledger.open?, hL, hhook])
    · -- The table has never seen a refused request.
      have hunknown : L.taken C rid = none := by
        simpa [Ledger.taken, hL, Option.ne_none_iff_isSome] using htaken
      rw [hunknown] at hresult
      refine hrefused _ hresult ?_
      rcases hhook : onCommit.raises req with - | exc
      · have hledger : L.resolve rid v onCommit = L.decided rid v req := by
          simp [Ledger.resolve, Ledger.open?, hL, hhook]
        rw [hledger, Ledger.taken_decided hL, if_neg htaken]
      · simp [Ledger.resolve, Ledger.open?, hL, hhook]
  · have hledger : L.resolve rid v onCommit = L := by
      simp [Ledger.resolve, Ledger.open?, hL]
    rcases htaken : L.taken C rid with - | ⟨req', w⟩
    · rw [htaken] at hresult
      exact hrefused _ hresult (by rw [hledger])
    · obtain ⟨hsame, -⟩ := Ledger.taken_eq_some_iff.mp htaken
      obtain ⟨rfl, rfl⟩ := Prod.mk.inj (Option.some.inj (hL.symm.trans hsame))
      rw [htaken] at hresult
      exact hrefused _ hresult (by rw [hledger])

/-- The dictionaries after a decision, or after an exception. -/
theorem DictGates.Represents.resolve {σ : DictGates} {L : Ledger} (h : σ.Represents L)
    (rid : Uuid) (v : Resolution) (onCommit : OnCommit) :
    (σ.resolve rid v onCommit).1.Represents (L.resolve rid v onCommit) := by
  have hresult := h.resolve_eq rid v onCommit
  have hrefused : ∀ exc, (σ.resolve rid v onCommit).2 = .error exc →
      L.resolve rid v onCommit = L →
      (σ.resolve rid v onCommit).1.Represents (L.resolve rid v onCommit) := by
    intro exc herror hledger
    rw [hledger, DictGates.resolve_error herror]
    exact h
  rcases hL : L rid with - | ⟨req, - | v'⟩
  · rw [hL] at hresult
    exact hrefused _ hresult (by simp [Ledger.resolve, Ledger.open?, hL])
  · rw [hL] at hresult
    dsimp only at hresult
    rcases hhook : onCommit.raises req with - | exc
    · have hledger : L.resolve rid v onCommit = L.decided rid v req := by
        simp [Ledger.resolve, Ledger.open?, hL, hhook]
      rw [hledger]
      exact h.resolve_ok hL hhook
    · rw [hhook] at hresult
      exact hrefused _ hresult (by simp [Ledger.resolve, Ledger.open?, hL, hhook])
  · rw [hL] at hresult
    exact hrefused _ hresult (by simp [Ledger.resolve, Ledger.open?, hL])

theorem Ledger.Utc.resolve {L : Ledger} (h : L.Utc) (rid : Uuid) (v : Resolution)
    (onCommit : OnCommit) : (L.resolve rid v onCommit).Utc := by
  rw [Ledger.resolve]
  rcases hopen : L.open? rid with - | req
  · exact h
  · dsimp only
    split
    · exact h.update rid (h rid req none (Ledger.open?_eq_some_iff.mp hopen)) (some v)
    · exact h

theorem StoresOk.step (h : StoresOk C retention s) (hstep : StoresStep C retention s t) :
    StoresOk C retention t := by
  cases hstep with
  | advance clock hlater => exact ⟨h.dict, h.table.mono hlater, h.utc⟩
  | request req hnew hlife =>
      refine ⟨h.dict.insertPending hnew, ?_, h.utc.update req.requestId req.utc none⟩
      have hunknown : s.ledger.taken C req.requestId = none := by simp [Ledger.taken, hnew]
      dsimp only
      rcases htaken : C.refusal req.toApprovalRequest with - | typeName
      · rw [Ledger.request, Ledger.taken_update_of_taken htaken]
        exact (h.table.insertPending htaken hunknown hlife).2
      · rw [Ledger.request, Ledger.taken_update_of_refused (by simp [htaken]) hunknown,
          GateTable.insertPending, htaken]
        exact h.table
  | resolve rid v onCommit =>
      exact ⟨h.dict.resolve rid v onCommit, h.table.resolve rid v onCommit,
        h.utc.resolve rid v onCommit⟩
  | cleanup days olderThanDays table n hretention hdays hclean =>
      subst hretention
      exact ⟨h.dict, h.table.cleanup hdays hclean, h.utc⟩

theorem storesOk (h : (storesSystem C retention).Reachable s) : StoresOk C retention s := by
  refine System.invariant (I := StoresOk C retention) ?_ ?_ h
  · intro s hinit
    obtain ⟨clock, rfl⟩ := hinit
    exact ⟨DictGates.represents_empty, GateTable.represents_empty, by simp [Ledger.Utc]⟩
  · intro s t _ hok hstep
    exact hok.step hstep

end Stores

/-- How `resolve` of the table ends where `resolve` of the dictionaries ends as given: an
exception of the hook is wrapped, and a deleted decision is taken for an unknown id. -/
def SameOutcome (O : EntryOrder) (retention : Option ℕ)
    (table : Except GateException ApprovalRequest) : Except GateException ApprovalRequest → Prop
  | .ok req => table = .ok (req.stored O)
  | .error exc =>
      table = .error (GateTable.wrapped exc) ∨
        (retention ≠ none ∧ exc = .alreadyUsed ∧ table = .error .unknownRequestId)

/-- After the same calls, on requests whose values the columns take, the two stores give the
same answers: on pending requests, on approvals at the current time or later, and on
resolving.  Decisions can be looked up alike as long as none are cleaned up. -/
theorem stores_agree (C : PendingColumns) (retention : Option ℕ) {s : StoresState}
    (h : (storesSystem C retention).Reachable s)
    (htaken : ∀ rid req v, s.ledger rid = some (req, v) → C.refusal req = none) :
    (∀ rid, s.table.getPending rid =
      (s.dict.getPending rid).map (ApprovalRequest.stored C.order)) ∧
    (∀ agentId now, s.clock ≤ now →
      s.table.hasGrantedApproval now agentId = s.dict.hasGrantedApproval now agentId) ∧
    (∀ rid v onCommit, SameOutcome C.order retention
      (s.table.resolve s.clock rid v onCommit).2 (s.dict.resolve rid v onCommit).2) ∧
    (retention = none → ∀ rid, s.table.getResolution rid = s.dict.getResolution rid) := by
  have hok := storesOk h
  have htable := hok.table
  rw [Ledger.taken_eq_self htaken] at htable
  refine ⟨?_, ?_, ?_, ?_⟩
  · intro rid
    rw [htable.getPending_eq, DictGates.getPending, hok.dict.pending]
  · intro agentId now hnow
    rw [Bool.eq_iff_iff, htable.hasGrantedApproval_iff hnow,
      hok.dict.hasGrantedApproval_iff hok.utc]
  · intro rid v onCommit
    have hrow := htable rid
    rw [hok.dict.resolve_eq, htable.resolve_eq]
    rcases hL : s.ledger rid with - | ⟨req, - | v'⟩
    · exact Or.inl rfl
    · dsimp only
      rcases onCommit.raises req with - | exc
      · exact rfl
      · exact Or.inl rfl
    · rw [hL] at hrow
      rcases hrow with ⟨resolvedAt, -, hrow, -⟩ | ⟨hrow, hcleaned, -⟩
      · rw [hrow]
        exact Or.inl rfl
      · rw [hrow]
        exact Or.inr ⟨hcleaned, rfl, rfl⟩
  · intro hretention rid
    subst hretention
    rw [htable.getResolution_eq, DictGates.getResolution, hok.dict.resolutions]

/-! ### A decision that was cleaned up -/

/-- A request for one hour. -/
def hourRequest : NewRequest where
  requestId := ⟨1⟩
  agentId := "agent-a"
  kind := "payment"
  actionHash := ""
  expiresAt := ⟨2025, 1, 2, 4, 4, 5, 0, some .utc⟩
  payload := [("amount", .int 3)]
  token := ""
  utc := rfl

/-- Columns that take every value. -/
def anyColumns : PendingColumns := ⟨.byLength, fun _ => none⟩

def silentCommit : OnCommit := ⟨fun _ => none, fun _ _ => rfl⟩

def requestedAt : ℤ := Datetime.instant ⟨2025, 1, 2, 3, 4, 5, 0, some .utc⟩

def requested : StoresState where
  clock := requestedAt
  ledger := Ledger.request (fun _ => none) hourRequest.toApprovalRequest
  dict := DictGates.empty.insertPending hourRequest.toApprovalRequest
  table := (GateTable.empty.insertPending anyColumns hourRequest.toApprovalRequest).1

/-- The request was granted at once, and two days passed. -/
def grantedLongAgo : StoresState where
  clock := requestedAt + 2 * dayMicros
  ledger := requested.ledger.resolve ⟨1⟩ .granted silentCommit
  dict := (requested.dict.resolve ⟨1⟩ .granted silentCommit).1
  table := (requested.table.resolve requestedAt ⟨1⟩ .granted silentCommit).1

def cleanedUp : StoresState := { grantedLongAgo with table := .empty }

theorem cleanedUp_reachable : (storesSystem anyColumns (some 1)).Reachable cleanedUp := by
  have hstart : (storesSystem anyColumns (some 1)).Reachable
      ⟨requestedAt, fun _ => none, .empty, .empty⟩ := System.Reachable.start ⟨_, rfl⟩
  have hrequest : (storesSystem anyColumns (some 1)).Reachable requested := by
    apply hstart.next
    refine .request hourRequest rfl ?_
    intro days hdays
    rw [← Option.some.inj hdays]
    decide
  have hgrant := hrequest.next (.resolve ⟨1⟩ .granted silentCommit)
  have hlater : (storesSystem anyColumns (some 1)).Reachable grantedLongAgo :=
    hgrant.next (.advance (requestedAt + 2 * dayMicros) (by decide))
  have hclean : grantedLongAgo.table.cleanupResolved grantedLongAgo.clock 1 =
      some (.empty, 1) := rfl
  exact hlater.next (.cleanup 1 1 .empty 1 rfl le_rfl hclean)

/-- The decision is gone from the table, and no answer about approvals changes. -/
theorem cleaned_up_stores_agree :
    cleanedUp.table.getResolution ⟨1⟩ = none ∧
      cleanedUp.dict.getResolution ⟨1⟩ = some .granted ∧
      cleanedUp.table.hasGrantedApproval cleanedUp.clock "agent-a" =
        cleanedUp.dict.hasGrantedApproval cleanedUp.clock "agent-a" := by
  have h := stores_agree anyColumns (some 1) cleanedUp_reachable fun _ _ _ _ => rfl
  exact ⟨rfl, rfl, h.2.1 "agent-a" cleanedUp.clock le_rfl⟩

end AgenticGovernance.Gates

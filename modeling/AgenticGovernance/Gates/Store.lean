import Mathlib
import AgenticGovernance.Support.Json
import AgenticGovernance.Support.Stamp

/-!
# Stores of approval requests

A pending request is resolved once, as granted or denied.  `InMemoryGatesStore`
keeps pending and resolved requests in separate dictionaries behind one lock;
`PostgresGatesStore` keeps one row for each request and locks that row in its
`UPDATE`.

`GatesBackend` is what the resolve protocol relies on: the single-use check, the
write, and how the two act on requests other than their own.
-/

namespace AgenticGovernance.Gates

open Support

inductive Resolution where
  | granted
  | denied
  deriving DecidableEq, Repr

structure ApprovalRequest where
  requestId : Uuid
  agentId : String
  kind : String
  actionHash : String
  expiresAt : Datetime
  payload : List (String × Json)
  token : String

/-- `ApprovalTokenError` as raised by `resolve`. -/
inductive ResolveError where
  | alreadyUsed
  | unknownRequest
  deriving DecidableEq, Repr

/-! ## The in-memory store -/

structure MemoryGates where
  pending : Uuid → Option ApprovalRequest
  resolutions : Uuid → Option Resolution
  resolvedRequests : Uuid → Option ApprovalRequest

namespace MemoryGates

def empty : MemoryGates := ⟨fun _ => none, fun _ => none, fun _ => none⟩

def insertPending (σ : MemoryGates) (req : ApprovalRequest) : MemoryGates :=
  { σ with pending := Function.update σ.pending req.requestId (some req) }

def getPending (σ : MemoryGates) (rid : Uuid) : Option ApprovalRequest := σ.pending rid

def getResolution (σ : MemoryGates) (rid : Uuid) : Option Resolution :=
  σ.resolutions rid

/-- The checks of `resolve` before `on_commit`. -/
def check (σ : MemoryGates) (rid : Uuid) : Except ResolveError ApprovalRequest :=
  if (σ.resolutions rid).isSome then .error .alreadyUsed
  else
    match σ.pending rid with
    | none => .error .unknownRequest
    | some req => .ok req

/-- The writes of `resolve` after `on_commit`. -/
def commit (σ : MemoryGates) (rid : Uuid) (v : Resolution) (req : ApprovalRequest) :
    MemoryGates where
  pending := Function.update σ.pending rid none
  resolutions := Function.update σ.resolutions rid (some v)
  resolvedRequests := Function.update σ.resolvedRequests rid (some req)

end MemoryGates

/-! ## The Postgres store -/

/-- A row of `governance_gates_pending`; `resolution` is set together with
`resolved_at`. -/
structure GateRow where
  request : ApprovalRequest
  resolution : Option Resolution

structure PostgresGates where
  rows : Uuid → Option GateRow

namespace PostgresGates

def empty : PostgresGates := ⟨fun _ => none⟩

def insertPending (σ : PostgresGates) (req : ApprovalRequest) : PostgresGates :=
  ⟨Function.update σ.rows req.requestId (some ⟨req, none⟩)⟩

/-- `SELECT ... WHERE request_id = :rid AND resolved_at IS NULL` -/
def getPending (σ : PostgresGates) (rid : Uuid) : Option ApprovalRequest :=
  match σ.rows rid with
  | some ⟨req, none⟩ => some req
  | _ => none

def getResolution (σ : PostgresGates) (rid : Uuid) : Option Resolution :=
  (σ.rows rid).bind fun row => row.resolution

/-- Whether the `UPDATE ... WHERE resolved_at IS NULL` finds its row, and the
error raised when it does not. -/
def check (σ : PostgresGates) (rid : Uuid) : Except ResolveError ApprovalRequest :=
  match σ.rows rid with
  | none => .error .unknownRequest
  | some ⟨_, some _⟩ => .error .alreadyUsed
  | some ⟨req, none⟩ => .ok req

def commit (σ : PostgresGates) (rid : Uuid) (v : Resolution) (req : ApprovalRequest) :
    PostgresGates :=
  ⟨Function.update σ.rows rid (some ⟨req, some v⟩)⟩

end PostgresGates

/-! ## What the protocol relies on -/

/-- A store of approval requests.  Two requests with the same `lockKey` share a
lock, and `lockReads` says that reads wait for it. -/
structure GatesBackend where
  State : Type
  lockKey : Uuid → Option Uuid
  lockReads : Bool
  empty : State
  insertPending : State → ApprovalRequest → State
  getPending : State → Uuid → Option ApprovalRequest
  getResolution : State → Uuid → Option Resolution
  check : State → Uuid → Except ResolveError ApprovalRequest
  commit : State → Uuid → Resolution → ApprovalRequest → State
  getResolution_empty : ∀ rid, getResolution empty rid = none
  check_empty : ∀ rid, check empty rid = .error .unknownRequest
  getResolution_of_check : ∀ {σ rid req}, check σ rid = .ok req →
    getResolution σ rid = none
  check_of_getPending : ∀ {σ rid req}, getResolution σ rid = none →
    getPending σ rid = some req → check σ rid = .ok req
  getResolution_insert : ∀ {σ} req rid,
    check σ req.requestId = .error .unknownRequest →
    getResolution (insertPending σ req) rid = getResolution σ rid
  check_insert : ∀ {σ} req rid, req.requestId ≠ rid →
    check (insertPending σ req) rid = check σ rid
  getResolution_commit : ∀ σ rid v req rid',
    getResolution (commit σ rid v req) rid' =
      if rid' = rid then some v else getResolution σ rid'
  check_commit : ∀ {σ rid} v req {rid'}, rid' ≠ rid →
    check (commit σ rid v req) rid' = check σ rid'

/-- `InMemoryGatesStore`: one lock for the whole store, taken by reads too. -/
def MemoryGates.backend : GatesBackend where
  State := MemoryGates
  lockKey := fun _ => none
  lockReads := true
  empty := empty
  insertPending := insertPending
  getPending := getPending
  getResolution := getResolution
  check := check
  commit := commit
  getResolution_empty := fun _ => rfl
  check_empty := fun _ => rfl
  getResolution_of_check := by
    intro σ rid req h
    by_cases hres : (σ.resolutions rid).isSome
    · simp [check, hres] at h
    · simpa [getResolution] using hres
  check_of_getPending := by
    intro σ rid req hres hpend
    rw [getResolution] at hres
    rw [getPending] at hpend
    simp [check, hres, hpend]
  getResolution_insert := fun _ _ _ => rfl
  check_insert := by
    intro σ req rid hne
    simp [check, insertPending, Function.update_of_ne hne.symm]
  getResolution_commit := by
    intro σ rid v req rid'
    by_cases h : rid' = rid
    · subst h
      simp [getResolution, commit]
    · simp [getResolution, commit, h]
  check_commit := by
    intro σ rid v req rid' hne
    simp [check, commit, hne]

/-- `PostgresGatesStore`: one lock for each row, and reads that do not wait. -/
def PostgresGates.backend : GatesBackend where
  State := PostgresGates
  lockKey := fun rid => some rid
  lockReads := false
  empty := empty
  insertPending := insertPending
  getPending := getPending
  getResolution := getResolution
  check := check
  commit := commit
  getResolution_empty := fun _ => rfl
  check_empty := fun _ => rfl
  getResolution_of_check := by
    intro σ rid req h
    rcases hrow : σ.rows rid with - | ⟨r, - | v⟩
    · simp [check, hrow] at h
    · simp [getResolution, hrow]
    · simp [check, hrow] at h
  check_of_getPending := by
    intro σ rid req _ hpend
    rcases hrow : σ.rows rid with - | ⟨r, - | v⟩
    · simp [getPending, hrow] at hpend
    · simpa [getPending, check, hrow] using hpend
    · simp [getPending, hrow] at hpend
  getResolution_insert := by
    intro σ req rid hfresh
    by_cases h : rid = req.requestId
    · subst h
      rcases hrow : σ.rows req.requestId with - | ⟨r, - | v⟩
      · simp [getResolution, insertPending, hrow]
      · simp [check, hrow] at hfresh
      · simp [check, hrow] at hfresh
    · simp [getResolution, insertPending, Function.update_of_ne h]
  check_insert := by
    intro σ req rid hne
    simp [check, insertPending, Function.update_of_ne hne.symm]
  getResolution_commit := by
    intro σ rid v req rid'
    by_cases h : rid' = rid
    · subst h
      simp [getResolution, commit]
    · simp [getResolution, commit, h]
  check_commit := by
    intro σ rid v req rid' hne
    simp [check, commit, hne]

inductive StoreKind where
  | inMemory
  | postgres
  deriving DecidableEq, Repr

def StoreKind.backend : StoreKind → GatesBackend
  | inMemory => MemoryGates.backend
  | postgres => PostgresGates.backend

end AgenticGovernance.Gates

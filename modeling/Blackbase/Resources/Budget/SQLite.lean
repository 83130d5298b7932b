import Blackbase.Resources.Budget.Model

/-!
# The SQLite budget authority

`SQLiteBudgetAuthority` on the rows of one namespace and scope.  The two tables
that are only ever addressed by primary key, `resource_leases` and
`resource_budgets`, are functions of the key; `resource_budget_reservations` is
also scanned, so it is a list of rows.

Every call is one `BEGIN IMMEDIATE` transaction: an exception rolls everything
back, the reclamation of stale reservations included, so the outcome of a call
that raises comes with the tables it started from.
-/

namespace Blackbase.Resources

/-- A row of `resource_budgets`. -/
structure BudgetRow where
  limitAmount : ℤ
  committedAmount : ℤ
deriving DecidableEq, Repr

/-- The tables one authority works on, restricted to its namespace and scope. -/
structure BudgetTables where
  scope : String
  leases : String → Option ResourceLease
  budgets : String → Option BudgetRow
  reservations : List BudgetReservation

namespace BudgetTables

/-- No budget, no reservation and no lease. -/
def empty (scope : String) : BudgetTables := ⟨scope, fun _ ↦ none, fun _ ↦ none, []⟩

/-- `_fence_current_locked`. -/
def fenceCurrent (t : BudgetTables) (leaseId : String) (fencingToken : ℤ) (now : Time) : Bool :=
  match t.leases leaseId with
  | none => false
  | some lease => lease.fences fencingToken now

/-- `_reservation_row_locked`. -/
def reservationRow (t : BudgetTables) (id : String) : Option BudgetReservation :=
  Rows.lookup BudgetReservation.reservationId id t.reservations

/-- `_reserved_locked`: `SUM(amount - completed_amount)` over the active
reservations of a budget. -/
def reserved (t : BudgetTables) (budget : String) : ℤ :=
  ((t.reservations.filter fun r ↦ r.budget = budget ∧ r.status = .active).map
    fun r ↦ r.amount - r.completed).sum

/-- An active reservation whose lease fence is no longer current. -/
def stale (t : BudgetTables) (now : Time) (r : BudgetReservation) : Bool :=
  r.status = .active && !t.fenceCurrent r.leaseId r.fencingToken now

/-- What the `UPDATE` of `_reclaim_stale_locked` does to one row. -/
def reclaimRow (t : BudgetTables) (now : Time) (r : BudgetReservation) : BudgetReservation :=
  if t.stale now r then { r with status := .reclaimed, updatedAt := now } else r

/-- `_reclaim_stale_locked`. -/
def reclaimStale (t : BudgetTables) (now : Time) : BudgetTables :=
  { t with reservations := t.reservations.map (t.reclaimRow now) }

/-- The row count `_reclaim_stale_locked` returns. -/
def staleCount (t : BudgetTables) (now : Time) : ℕ := (t.reservations.filter (t.stale now)).length

/-- `UPDATE resource_budgets SET committed_amount = committed_amount + delta`. -/
def addCommitted (t : BudgetTables) (budget : String) (delta : ℤ) : BudgetTables :=
  { t with budgets := Function.update t.budgets budget ((t.budgets budget).map fun row ↦
      { row with committedAmount := row.committedAmount + delta }) }

/-- `UPDATE resource_budget_reservations ... WHERE reservation_id = id`. -/
def updateReservation (t : BudgetTables) (id : String)
    (f : BudgetReservation → BudgetReservation) : BudgetTables :=
  { t with reservations := Rows.update BudgetReservation.reservationId id f t.reservations }

/-! ## The calls -/

/-- `SQLiteBudgetAuthority.configure`. -/
def configure (t : BudgetTables) (budget : String) (limit : ℤ) : BudgetOutcome × BudgetTables :=
  match budgetName budget, budgetLimit limit with
  | .error e, _ => (.error e, t)
  | .ok _, .error e => (.error e, t)
  | .ok name, .ok maximum =>
      match t.budgets name with
      | none => (.ok .done, { t with budgets := Function.update t.budgets name (some ⟨maximum, 0⟩) })
      | some row =>
          if row.limitAmount ≠ maximum then
            (.error (.alreadyConfigured name row.limitAmount maximum), t)
          else (.ok .done, t)

/-- `SQLiteBudgetAuthority.status`. -/
def status (t : BudgetTables) (now : Time) (budget : String) : BudgetOutcome × BudgetTables :=
  match budgetName budget with
  | .error e => (.error e, t)
  | .ok name =>
      let swept := t.reclaimStale now
      match swept.budgets name with
      | none => (.error (.unknownBudget name t.scope), t)
      | some row =>
          (.ok (.snapshot ⟨t.scope, name, row.limitAmount, row.committedAmount,
            swept.reserved name, t.staleCount now⟩), swept)

/-- `SQLiteBudgetAuthority.reservation`. -/
def reservation (t : BudgetTables) (now : Time) (id : String) : BudgetOutcome × BudgetTables :=
  match reservationId id with
  | .error e => (.error e, t)
  | .ok identifier =>
      let swept := t.reclaimStale now
      (.ok (.found (swept.reservationRow identifier)), swept)

/-- `SQLiteBudgetAuthority.reserve`. -/
def reserve (t : BudgetTables) (now : Time) (budget : String) (amount : ℤ) (leaseId : String)
    (fencingToken : ℤ) (given : Option String) (generated : String) :
    BudgetOutcome × BudgetTables :=
  match budgetName budget, reservationAmount amount with
  | .error e, _ => (.error e, t)
  | .ok _, .error e => (.error e, t)
  | .ok name, .ok requested =>
      let identifier := identifierOr given generated
      if !t.fenceCurrent leaseId fencingToken now then
        (.error (.notCurrent leaseId fencingToken), t)
      else
        let swept := t.reclaimStale now
        match swept.reservationRow identifier with
        | some existing =>
            -- idempotent for the same request, whatever became of the reservation
            if existing.budget = name ∧ existing.amount = requested ∧
                existing.leaseId = leaseId ∧ existing.fencingToken = fencingToken then
              (.ok (.reservation existing), swept)
            else (.error (.reused identifier), t)
        | none =>
            match swept.budgets name with
            | none => (.error (.unknownBudget name t.scope), t)
            | some row =>
                let remaining := max 0 (row.limitAmount - row.committedAmount - swept.reserved name)
                if requested > remaining then (.error (.exceeds name requested remaining), t)
                else
                  let issued : BudgetReservation :=
                    { reservationId := identifier, scope := t.scope, budget := name,
                      amount := requested, leaseId := leaseId, fencingToken := fencingToken,
                      status := .active, completed := 0, createdAt := now, updatedAt := now }
                  (.ok (.reservation issued),
                    { swept with reservations := swept.reservations ++ [issued] })

/-- `SQLiteBudgetAuthority.complete`. -/
def complete (t : BudgetTables) (now : Time) (id : String) (completed : ℤ) :
    BudgetOutcome × BudgetTables :=
  match reservationId id with
  | .error e => (.error e, t)
  | .ok identifier =>
      let completedCount := max 0 completed
      match t.reservationRow identifier with
      | none => (.error (.unknownReservation identifier), t)
      | some current =>
          if current.status = .completed ∧ current.completed = completedCount then
            (.ok (.reservation current), t)
          else if current.status ≠ .active then (.error (.inactive identifier), t)
          else if completedCount > current.amount then
            (.error (.value "completed budget units cannot exceed the reservation"), t)
          else if completedCount < current.completed then
            (.error (.value
              "completed budget units cannot be smaller than already consumed units"), t)
          else if !t.fenceCurrent current.leaseId current.fencingToken now then
            (.error (.notCurrent current.leaseId current.fencingToken), t)
          else
            let delta := completedCount - current.completed
            let charged := if delta ≠ 0 then t.addCommitted current.budget delta else t
            let close (r : BudgetReservation) : BudgetReservation :=
              { r with status := .completed, completed := completedCount, updatedAt := now }
            (.ok (.reservation (close current)), charged.updateReservation identifier close)

/-- `SQLiteBudgetAuthority.consume`. -/
def consume (t : BudgetTables) (now : Time) (id : String) (amount : ℤ) :
    BudgetOutcome × BudgetTables :=
  match reservationId id, reservationAmount amount with
  | .error e, _ => (.error e, t)
  | .ok _, .error e => (.error e, t)
  | .ok identifier, .ok delta =>
      match t.reservationRow identifier with
      | none => (.error (.unknownReservation identifier), t)
      | some current =>
          if current.status ≠ .active then (.error (.inactive identifier), t)
          else if current.completed + delta > current.amount then
            (.error (.value "consumed budget units cannot exceed the reservation"), t)
          else if !t.fenceCurrent current.leaseId current.fencingToken now then
            (.error (.notCurrent current.leaseId current.fencingToken), t)
          else
            let consumed := current.completed + delta
            let charge (r : BudgetReservation) : BudgetReservation :=
              { r with completed := consumed, updatedAt := now }
            (.ok (.reservation (charge current)),
              (t.addCommitted current.budget delta).updateReservation identifier charge)

/-- `SQLiteBudgetAuthority.cancel`. -/
def cancel (t : BudgetTables) (now : Time) (id : String) : BudgetOutcome × BudgetTables :=
  match reservationId id with
  | .error e => (.error e, t)
  | .ok identifier =>
      match t.reservationRow identifier with
      | none => (.ok (.flag false), t)
      | some current =>
          if current.status ≠ .active ∨
              t.fenceCurrent current.leaseId current.fencingToken now = false then
            (.ok (.flag false), t)
          else
            (.ok (.flag true), t.updateReservation identifier fun r ↦
              { r with status := .cancelled, updatedAt := now })

/-- A call, executed at a client whose clock reads `now`. -/
def exec (t : BudgetTables) (now : Time) : BudgetCall → BudgetOutcome × BudgetTables
  | .configure budget limit => t.configure budget limit
  | .status budget => t.status now budget
  | .reservation id => t.reservation now id
  | .reserve budget amount leaseId token given generated =>
      t.reserve now budget amount leaseId token given generated
  | .complete id completed => t.complete now id completed
  | .consume id amount => t.consume now id amount
  | .cancel id => t.cancel now id

end BudgetTables

end Blackbase.Resources

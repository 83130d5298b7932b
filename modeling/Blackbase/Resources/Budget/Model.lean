import Blackbase.Core.Quota
import Blackbase.Resources.Model

/-!
# Shared budgets: records, calls and errors

The vocabulary of `resources/budget.py` that both authorities share: the durable
record of a reservation, the usage snapshot, the calls a client can make and what
they answer, and the validation of their arguments.

A call carries every choice its execution leaves open: the reading of the clock,
and the identifier `uuid4` would generate for a reservation made without one.
-/

namespace Blackbase.Resources

/-- The `status` of a reservation. -/
inductive ReservationStatus where
  | active
  | completed
  | cancelled
  | reclaimed
deriving DecidableEq, Repr

/-- `BudgetReservation`: one lease-fenced reservation against a run-scoped budget. -/
@[ext]
structure BudgetReservation where
  reservationId : String
  scope : String
  budget : String
  amount : ℤ
  leaseId : String
  fencingToken : ℤ
  status : ReservationStatus
  completed : ℤ
  createdAt : Time
  updatedAt : Time
deriving DecidableEq, Repr

namespace BudgetReservation

/-- The hold a reservation places on its budget. -/
def hold (r : BudgetReservation) : Quota.Hold where
  amount := r.amount
  used := r.completed
  live := r.status = .active

@[simp] theorem hold_amount (r : BudgetReservation) : r.hold.amount = r.amount := rfl
@[simp] theorem hold_used (r : BudgetReservation) : r.hold.used = r.completed := rfl
@[simp] theorem hold_live (r : BudgetReservation) :
    r.hold.live = decide (r.status = .active) := rfl

/-- `BudgetReservation.from_dict` on a payload written by `as_dict`. -/
def fromDict (r : BudgetReservation) : BudgetReservation where
  reservationId := r.reservationId
  scope := r.scope
  budget := r.budget
  amount := max 0 r.amount
  leaseId := r.leaseId
  fencingToken := max 0 r.fencingToken
  status := r.status
  completed := max 0 r.completed
  createdAt := r.createdAt
  updatedAt := r.updatedAt

/-- A record whose numbers are non-negative reads back as it was written. -/
theorem fromDict_eq {r : BudgetReservation} (ha : 0 ≤ r.amount) (ht : 0 ≤ r.fencingToken)
    (hc : 0 ≤ r.completed) : r.fromDict = r := by
  cases r
  simp_all [fromDict]

/-- What an operation may do to a reservation that is already there: its identity
and its amount stay, its hold evolves, and a closed one is not touched at all. -/
structure Evolves (r r' : BudgetReservation) : Prop where
  reservationId_eq : r'.reservationId = r.reservationId
  budget_eq : r'.budget = r.budget
  leaseId_eq : r'.leaseId = r.leaseId
  fencingToken_eq : r'.fencingToken = r.fencingToken
  hold : r.hold.Evolves r'.hold
  frozen : r.status ≠ .active → r' = r

namespace Evolves

theorem refl {r : BudgetReservation} (hv : r.hold.Valid) : r.Evolves r :=
  ⟨rfl, rfl, rfl, rfl, hv.evolves, fun _ ↦ rfl⟩

theorem trans {r r' r'' : BudgetReservation} (e : r.Evolves r') (e' : r'.Evolves r'') :
    r.Evolves r'' where
  reservationId_eq := e'.reservationId_eq.trans e.reservationId_eq
  budget_eq := e'.budget_eq.trans e.budget_eq
  leaseId_eq := e'.leaseId_eq.trans e.leaseId_eq
  fencingToken_eq := e'.fencingToken_eq.trans e.fencingToken_eq
  hold := e.hold.trans e'.hold
  frozen h := by
    obtain rfl := e.frozen h
    exact e'.frozen h

/-- An active reservation may be charged further and get any status. -/
theorem charge {r : BudgetReservation} (hactive : r.status = .active) {completed : ℤ}
    (hle : r.completed ≤ completed) (hamount : completed ≤ r.amount)
    (status : ReservationStatus) (now : Time) :
    r.Evolves { r with status := status, completed := completed, updatedAt := now } where
  reservationId_eq := rfl
  budget_eq := rfl
  leaseId_eq := rfl
  fencingToken_eq := rfl
  hold := ⟨rfl, hle, hamount, fun _ ↦ by simp [hactive], fun h ↦ by simp [hactive] at h⟩
  frozen h := absurd hactive h

end Evolves

end BudgetReservation

/-- `BudgetSnapshot`: an atomic usage view of one budget. -/
structure BudgetSnapshot where
  scope : String
  budget : String
  limit : ℤ
  committed : ℤ
  reserved : ℤ
  reclaimed : ℕ
deriving DecidableEq, Repr

/-- `BudgetSnapshot.remaining`. -/
def BudgetSnapshot.remaining (s : BudgetSnapshot) : ℤ :=
  max 0 (s.limit - s.committed - s.reserved)

/-- The exceptions an authority raises, by class, each with its message. -/
inductive BudgetError where
  /-- `ValueError`. -/
  | value (message : String)
  /-- `KeyError`. -/
  | key (message : String)
  /-- `SharedBudgetExceeded`. -/
  | exceeded (message : String)
  /-- `SharedBudgetFenceError`. -/
  | fence (message : String)
  /-- `SharedBudgetConfigurationError`. -/
  | configuration (message : String)
deriving DecidableEq, Repr

namespace BudgetError

def alreadyConfigured (name : String) (limit requested : ℤ) : BudgetError :=
  .configuration s!"budget '{name}' already configured with limit={limit}, requested={requested}"

def reused (identifier : String) : BudgetError :=
  .configuration s!"reservation_id '{identifier}' was reused with a different request"

def exceeds (name : String) (requested remaining : ℤ) : BudgetError :=
  .exceeded s!"shared budget '{name}' exceeded: requested={requested}, remaining={remaining}"

def unknownBudget (name scope : String) : BudgetError :=
  .key s!"Unknown shared budget '{name}' in scope '{scope}'"

def unknownReservation (identifier : String) : BudgetError :=
  .key s!"Unknown budget reservation '{identifier}'"

def inactive (identifier : String) : BudgetError :=
  .fence s!"budget reservation '{identifier}' is no longer active"

def notCurrent (leaseId : String) (token : ℤ) : BudgetError :=
  .fence s!"Project L0 lease fence is not current: lease_id='{leaseId}' token={token}"

end BudgetError

/-! ## Arguments -/

/-- `_budget_name`. -/
def budgetName (value : String) : Except BudgetError String :=
  let name := Text.strip value
  if name = "" then .error (.value "budget name must be non-empty") else .ok name

/-- `_budget_limit`. -/
def budgetLimit (value : ℤ) : Except BudgetError ℤ :=
  if value < 0 then .error (.value "budget limit must be non-negative") else .ok value

/-- `_reservation_amount`. -/
def reservationAmount (value : ℤ) : Except BudgetError ℤ :=
  if value ≤ 0 then .error (.value "reservation amount must be positive") else .ok value

/-- `_reservation_id`. -/
def reservationId (value : String) : Except BudgetError String :=
  if value = "" then .error (.value "reservation_id must be non-empty") else .ok value

/-- `str(reservation_id or f"budget-{uuid4().hex}")`. -/
def identifierOr (given : Option String) (generated : String) : String :=
  match given with
  | none => generated
  | some id => if id = "" then generated else id

/-! ## Calls -/

/-- One call on a budget authority. -/
inductive BudgetCall where
  | configure (budget : String) (limit : ℤ)
  | status (budget : String)
  | reservation (id : String)
  | reserve (budget : String) (amount : ℤ) (leaseId : String) (fencingToken : ℤ)
      (reservationId : Option String) (generated : String)
  | complete (id : String) (completed : ℤ)
  | consume (id : String) (amount : ℤ)
  | cancel (id : String)
deriving DecidableEq, Repr

/-- The limit a call configures for budget `name`; `none` for every other call and
for one whose arguments are refused. -/
def BudgetCall.limitFor (name : String) : BudgetCall → Option ℤ
  | .configure budget limit =>
      match budgetName budget, budgetLimit limit with
      | .ok configured, .ok maximum => if configured = name then some maximum else none
      | _, _ => none
  | _ => none

/-- What a call returns. -/
inductive BudgetReply where
  | done
  | snapshot (s : BudgetSnapshot)
  | found (r : Option BudgetReservation)
  | reservation (r : BudgetReservation)
  | flag (b : Bool)
deriving DecidableEq, Repr

/-- The reservation a reply carries. -/
def BudgetReply.reservation? : BudgetReply → Option BudgetReservation
  | .reservation r => some r
  | _ => none

/-- The snapshot a reply carries. -/
def BudgetReply.snapshot? : BudgetReply → Option BudgetSnapshot
  | .snapshot s => some s
  | _ => none

/-- The reservation a lookup has found. -/
def BudgetReply.found? : BudgetReply → Option BudgetReservation
  | .found r => r
  | _ => none

/-- The outcome of a call: what it returns, or the exception it raises. -/
abbrev BudgetOutcome := Except BudgetError BudgetReply

end Blackbase.Resources

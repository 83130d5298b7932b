import Blackbase.Resources.Budget.Authority

/-!
# Budget accounts

`BudgetAccount` of `resources/budget_account.py`: the Case-side client of one
budget.  It keeps its own claims, enforces the limit of the handle it was built
from, and forwards to a shared authority when it has one.

A claim is a mutable object that the account hands out and gets back, so claims
live in a table of objects and are named by their identity `ref`; a `ref` that is
not in the table stands for a claim of another account.  The dictionary `_claims`
maps a claim id to the identity of the claim open under it.
-/

namespace Blackbase.Resources

/-- The status of a claim. -/
inductive ClaimStatus where
  | active
  | completed
  | cancelled
deriving DecidableEq, Repr

/-- `BudgetClaim`: one in-process claim backed by an optional reservation. -/
structure BudgetClaim where
  /-- The identity of the object, for `is`. -/
  ref : ℕ
  claimId : String
  amount : ℤ
  shared : Option BudgetReservation
  consumed : ℤ
  status : ClaimStatus
deriving DecidableEq, Repr

namespace BudgetClaim

/-- `BudgetClaim.remaining`. -/
def remaining (c : BudgetClaim) : ℤ := max 0 (c.amount - c.consumed)

/-- `BudgetClaim.active`. -/
def active (c : BudgetClaim) : Bool := c.status = .active

/-- The hold a claim places on its account. -/
def hold (c : BudgetClaim) : Quota.Hold where
  amount := c.amount
  used := c.consumed
  live := c.active

@[simp] theorem hold_amount (c : BudgetClaim) : c.hold.amount = c.amount := rfl
@[simp] theorem hold_used (c : BudgetClaim) : c.hold.used = c.consumed := rfl
@[simp] theorem hold_live (c : BudgetClaim) : c.hold.live = c.active := rfl

end BudgetClaim

/-- The exceptions an account raises, by class. -/
inductive AccountError where
  /-- `ValueError`. -/
  | value (message : String)
  /-- `RuntimeError`. -/
  | runtime (message : String)
  /-- An exception of the authority, passed on. -/
  | authority (e : BudgetError)
deriving DecidableEq, Repr

/-- What a call on an account returns. -/
inductive AccountReply where
  | done
  | claim (ref : ℕ)
  | flag (b : Bool)
deriving DecidableEq, Repr

abbrev AccountOutcome := Except AccountError AccountReply

/-- `BudgetAccount`, with the store behind its authority. -/
structure BudgetAccount where
  authorityBudget : String
  authority : Option BudgetStore
  leaseId : String
  fencingToken : ℤ
  limit : Option ℤ
  spent : ℤ
  objects : List BudgetClaim
  claims : List (String × ℕ)

namespace BudgetAccount

/-- `BudgetAccount.__init__`. -/
def make (budget : String) (authority : Option BudgetStore) (authorityBudget leaseId : String)
    (fencingToken : ℤ) (limit : Option ℤ) : Except AccountError BudgetAccount :=
  let name := Text.strip budget
  if name = "" then .error (.value "budget must be non-empty")
  else if limit.any (· < 0) then
    .error (.value "budget account limit must be non-negative")
  else if authority.isSome ∧ leaseId = "" then
    .error (.authority (.configuration s!"shared budget '{name}' requires a Project L0 lease"))
  else if authority.isSome ∧ fencingToken ≤ 0 then
    .error (.authority
      (.configuration s!"shared budget '{name}' requires a positive fencing token"))
  else .ok
    { authorityBudget := Text.strip (if authorityBudget = "" then name else authorityBudget)
      authority := authority
      leaseId := leaseId
      fencingToken := fencingToken
      limit := limit
      spent := 0
      objects := []
      claims := [] }

/-- The claim object of identity `ref`. -/
def object (a : BudgetAccount) (ref : ℕ) : Option BudgetClaim :=
  Rows.lookup BudgetClaim.ref ref a.objects

/-- `self._claims.get(claim_id)`, as the identity of the object. -/
def claimAt (a : BudgetAccount) (claimId : String) : Option ℕ :=
  (Rows.lookup Prod.fst claimId a.claims).map Prod.snd

/-- `self._claims.values()`. -/
def values (a : BudgetAccount) : List BudgetClaim := a.claims.filterMap fun e ↦ a.object e.2

/-- `BudgetAccount.active_reserved`. -/
def activeReserved (a : BudgetAccount) : ℤ :=
  ((a.values.filter BudgetClaim.active).map BudgetClaim.remaining).sum

/-- `BudgetAccount.remaining_limit`. -/
def remainingLimit (a : BudgetAccount) : Option ℤ :=
  a.limit.map fun limit ↦ max 0 (limit - a.spent - a.activeReserved)

/-- `BudgetAccount.allowance`. -/
def allowance (a : BudgetAccount) (now : Time) (requested : ℤ) (localLimit : Option ℤ) :
    Except AccountError ℤ × BudgetAccount :=
  if requested < 0 then
    (.error (.value "requested budget units must be non-negative"), a)
  else if localLimit.any (· < 0) then
    (.error (.value "local_limit must be non-negative"), a)
  else
    let allowed := match localLimit with
      | some limit => min requested limit
      | none => requested
    let allowed := match a.remainingLimit with
      | some remaining => min allowed remaining
      | none => allowed
    match a.authority with
    | none => (.ok allowed, a)
    | some store =>
        match store.exec now (.status a.authorityBudget) with
        | (.error e, store) => (.error (.authority e), { a with authority := some store })
        | (.ok reply, store) =>
            (.ok (match reply.snapshot? with
              | some snapshot => min allowed snapshot.remaining
              | none => allowed), { a with authority := some store })

/-- Rewrite the claim object of identity `ref`. -/
def updateObject (a : BudgetAccount) (ref : ℕ) (f : BudgetClaim → BudgetClaim) : BudgetAccount :=
  { a with objects := Rows.update BudgetClaim.ref ref f a.objects }

/-! ## Reserving -/

/-- `BudgetClaim(...)`: a new object, unless its id is refused. -/
def newClaim (a : BudgetAccount) (claimId : String) (amount : ℤ)
    (shared : Option BudgetReservation) (status : ClaimStatus) :
    Except AccountError BudgetClaim :=
  let id := Text.strip claimId
  if id = "" then .error (.value "claim_id must be non-empty")
  else .ok ⟨a.objects.length, id, amount, shared, 0, status⟩

/-- The authority's half of `reserve`: the id of the claim to open and the
reservation behind it. -/
def reserveShared (a : BudgetAccount) (now : Time) (amount : ℤ) (given : Option String)
    (generated : String) :
    Except AccountError (String × Option BudgetReservation) × BudgetAccount :=
  match a.authority with
  | none => (.ok (identifierOr given generated, none), a)
  | some store =>
      match store.exec now
          (.reserve a.authorityBudget amount a.leaseId a.fencingToken given generated) with
      | (.error e, store) => (.error (.authority e), { a with authority := some store })
      | (.ok reply, store) =>
          let shared := reply.reservation?
          let claimId := match shared with
            | some r => r.reservationId
            | none => identifierOr given generated
          (.ok (claimId, shared), { a with authority := some store })

/-- The last part of `reserve`: the claim open under `claimId`, or a new one. -/
def openClaim (a : BudgetAccount) (claimId : String) (amount : ℤ)
    (shared : Option BudgetReservation) : AccountOutcome × BudgetAccount :=
  match a.claimAt claimId with
  | some ref =>
      if ((a.object ref).map (·.amount)) ≠ some amount then
        (.error (.value "budget reservation_id was reused with a different amount"), a)
      else (.ok (.claim ref), a)
  | none =>
      match a.newClaim claimId amount shared .active with
      | .error e => (.error e, a)
      | .ok claim =>
          (.ok (.claim claim.ref), { a with
            objects := a.objects ++ [claim], claims := a.claims ++ [(claimId, claim.ref)] })

/-- `BudgetAccount.reserve`. -/
def reserve (a : BudgetAccount) (now : Time) (amount : ℤ) (given : Option String)
    (generated : String) : AccountOutcome × BudgetAccount :=
  if amount < 0 then (.error (.value "reservation amount must be non-negative"), a)
  else if a.remainingLimit.any (· < amount) then
    (.error (.value "reservation exceeds the delegated budget handle"), a)
  else if amount = 0 then
    match a.newClaim (identifierOr given generated) 0 none .completed with
    | .error e => (.error e, a)
    | .ok claim => (.ok (.claim claim.ref), { a with objects := a.objects ++ [claim] })
  else
    match a.reserveShared now amount given generated with
    | (.error e, a) => (.error e, a)
    | (.ok (claimId, shared), a) => a.openClaim claimId amount shared

/-! ## Using and closing a claim -/

/-- `_require_owned`. -/
def requireOwned (a : BudgetAccount) (ref : ℕ) : Except AccountError BudgetClaim :=
  match a.object ref with
  | none => .error (.value "budget claim belongs to a different account")
  | some claim => .ok claim

/-- `_require_active`. -/
def requireActive (a : BudgetAccount) (ref : ℕ) : Except AccountError BudgetClaim :=
  match a.requireOwned ref with
  | .error e => .error e
  | .ok claim =>
      if a.claimAt claim.claimId ≠ some ref then
        .error (.value "budget claim is not active in this account")
      else if !claim.active then .error (.runtime "budget claim is already closed")
      else .ok claim

/-- The authority's half of `consume`, `complete` and `cancel`: the call `c` on the
reservation behind `claim`, when there is one. -/
def onShared (a : BudgetAccount) (claim : BudgetClaim) (now : Time) (c : String → BudgetCall) :
    Except AccountError (Option BudgetReservation) × BudgetAccount :=
  match claim.shared, a.authority with
  | none, _ => (.ok none, a)
  | some _, none => (.error (.runtime "shared budget authority was detached"), a)
  | some r, some store =>
      match store.exec now (c r.reservationId) with
      | (.error e, store) => (.error (.authority e), { a with authority := some store })
      | (.ok reply, store) => (.ok reply.reservation?, { a with authority := some store })

/-- The last part of `complete` and `cancel`. -/
def close (a : BudgetAccount) (claim : BudgetClaim) (status : ClaimStatus)
    (shared : Option BudgetReservation) : BudgetAccount :=
  { a.updateObject claim.ref fun c ↦ { c with status := status, shared := shared } with
    spent := a.spent + claim.consumed
    claims := a.claims.filter fun e ↦ e.1 ≠ claim.claimId }

/-- `BudgetAccount.consume`. -/
def consume (a : BudgetAccount) (now : Time) (ref : ℕ) (amount : ℤ) :
    AccountOutcome × BudgetAccount :=
  if amount < 0 then (.error (.value "consumed budget units must be non-negative"), a)
  else if amount = 0 then (.ok .done, a)
  else match a.requireActive ref with
    | .error e => (.error e, a)
    | .ok claim =>
        if amount > claim.remaining then
          (.error (.value "consumed budget units cannot exceed the claim"), a)
        else match a.onShared claim now (.consume · amount) with
          | (.error e, a) => (.error e, a)
          | (.ok shared, a) =>
              (.ok .done, a.updateObject ref fun c ↦
                { c with shared := shared, consumed := c.consumed + amount })

/-- `BudgetAccount.complete`. -/
def complete (a : BudgetAccount) (now : Time) (ref : ℕ) : AccountOutcome × BudgetAccount :=
  match a.requireOwned ref with
  | .error e => (.error e, a)
  | .ok claim =>
      if claim.status = .completed then (.ok .done, a)
      else match a.requireActive ref with
        | .error e => (.error e, a)
        | .ok claim =>
            match a.onShared claim now (.complete · claim.consumed) with
            | (.error e, a) => (.error e, a)
            | (.ok shared, a) => (.ok .done, a.close claim .completed shared)

/-- `BudgetAccount.cancel`. -/
def cancel (a : BudgetAccount) (now : Time) (ref : ℕ) : AccountOutcome × BudgetAccount :=
  match a.requireOwned ref with
  | .error e => (.error e, a)
  | .ok claim =>
      if !claim.active then (.ok (.flag false), a)
      else match a.requireActive ref with
        | .error e => (.error e, a)
        | .ok claim =>
            match a.onShared claim now .cancel with
            | (.error e, a) => (.error e, a)
            | (.ok _, a) => (.ok (.flag true), a.close claim .cancelled claim.shared)

/-- The loop of `cancel_all` over the claims that were open when it started. -/
def cancelEach (now : ℕ → Time) : List ℕ → BudgetAccount → AccountOutcome × BudgetAccount
  | [], a => (.ok .done, a)
  | ref :: rest, a =>
      if (a.object ref).any BudgetClaim.active then
        match a.cancel (now ref) ref with
        | (.error e, a) => (.error e, a)
        | (.ok _, a) => cancelEach now rest a
      else cancelEach now rest a

/-- `BudgetAccount.cancel_all`; `now` is what the clock reads at each claim. -/
def cancelAll (a : BudgetAccount) (now : ℕ → Time) : AccountOutcome × BudgetAccount :=
  cancelEach now (a.claims.map Prod.snd) a

end BudgetAccount

/-- One call on an account. -/
inductive AccountCall where
  | reserve (now : Time) (amount : ℤ) (reservationId : Option String) (generated : String)
  | consume (now : Time) (ref : ℕ) (amount : ℤ)
  | complete (now : Time) (ref : ℕ)
  | cancel (now : Time) (ref : ℕ)
  | cancelAll (now : ℕ → Time)

/-- One step of a run: a call on the account, or an event at the shared authority
that the account takes no part in. -/
inductive AccountEvent where
  | call (c : AccountCall)
  | authority (e : BudgetEvent)

namespace BudgetAccount

/-- A call, executed. -/
def exec (a : BudgetAccount) : AccountCall → AccountOutcome × BudgetAccount
  | .reserve now amount given generated => a.reserve now amount given generated
  | .consume now ref amount => a.consume now ref amount
  | .complete now ref => a.complete now ref
  | .cancel now ref => a.cancel now ref
  | .cancelAll now => a.cancelAll now

/-- What one event does to the account and its store. -/
def apply (a : BudgetAccount) : AccountEvent → BudgetAccount
  | .call c => (a.exec c).2
  | .authority e => { a with authority := a.authority.map fun store ↦ store.apply e }

/-- The account after a sequence of events. -/
def run (a : BudgetAccount) (events : List AccountEvent) : BudgetAccount := events.foldl apply a

end BudgetAccount

end Blackbase.Resources

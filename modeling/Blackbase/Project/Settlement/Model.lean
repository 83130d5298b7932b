import Mathlib
import Blackbase.Project.Delegation.Model
import Blackbase.Resources.Account.Holding
import Blackbase.Resources.Budget.Effects
import Blackbase.Resources.SettlementJournal

/-!
# The settlement of delegated budgets

`CaseInvoker._delegate_budgets`, `_finalize_budgets` and `_reconcile_budget_settlements` of
`project/invocation.py` as a protocol of two stores.  An *owner* is the invocation that delegates a
budget, lets the child run and settles; a *pass* is one execution of the reconciliation.  Both work
on the settlement journal and on the authority of the parent's budget, and every call on either of
them is one step: whatever runs beside them runs between the steps.

A pass acts on the copies of the records that were pending when it started.

The parent's budgets live in one shared authority.  An owner stands for one budget of a request; the
order in which an invocation goes through several of them is left open.  Owners and passes may stop
at any step, and a step may raise before or after it has taken effect.
-/

namespace Blackbase.Project.Settlement

open Blackbase.Resources

theorem budgetHandle_ext_iff {D : Type} {h h' : BudgetHandle D} :
    h = h' ↔ h.handleId = h'.handleId ∧ h.budget = h'.budget ∧
      h.authorityBudget = h'.authorityBudget ∧ h.limit = h'.limit ∧ h.authority = h'.authority ∧
      h.leaseId = h'.leaseId ∧ h.fencingToken = h'.fencingToken ∧
      h.parentReservationId = h'.parentReservationId := by
  cases h
  cases h'
  simp

/-- Handles are compared by their fields. -/
instance {D : Type} [DecidableEq D] : DecidableEq (BudgetHandle D) := fun _ _ ↦
  decidable_of_iff' _ budgetHandle_ext_iff

/-- What reaches the handlers of the two sides. -/
inductive SettlementFailure where
  /-- An exception of a handle, an account or an authority. -/
  | raised (e : DelegationError)
  /-- An exception of the journal. -/
  | journal (e : JournalError)
  /-- Any other exception: a store or its connection fails. -/
  | outage (errorType message : String)
  /-- `SharedBudgetFenceError` of the reconciliation itself. -/
  | lost (message : String)
deriving DecidableEq

/-- The exception is a `SharedBudgetFenceError`. -/
def SettlementFailure.isFence : SettlementFailure → Bool
  | .raised (.authority (.fence _)) | .lost _ => true
  | _ => false

/-- The mapping a settlement reports its usage in. -/
structure UsageReport where
  handleId : String
  limit : ℤ
  /-- The counts, if the authority has answered. -/
  usage : Option BudgetUsage
  settlementStatus : Option SettlementStatus
  settlementError : Option SettlementFailure
deriving DecidableEq

namespace UsageReport

/-- What `_budget_usage_for_handle` returns. -/
def measured (u : BudgetUsage) : UsageReport := ⟨u.handleId, u.limit, some u, none, none⟩

/-- With the `settlement_status` of a delegation that is settled. -/
def settled (u : BudgetUsage) : UsageReport := ⟨u.handleId, u.limit, some u, some .settled, none⟩

/-- What `_finalize_budgets` reports of a delegation it could not settle. -/
def retry (h : BudgetHandle Unit) (u : Option BudgetUsage) (e : SettlementFailure) : UsageReport :=
  ⟨h.handleId, h.limit, u, some .retryRequired, some e⟩

end UsageReport

abbrev Record := BudgetSettlementRecord Unit (BudgetHandle Unit) UsageReport SettlementFailure
abbrev Journal := SettlementJournal Unit (BudgetHandle Unit) UsageReport SettlementFailure
abbrev Mark := SettlementMark UsageReport SettlementFailure

/-- The two stores of the protocol. -/
structure Stores where
  journal : Journal
  budgets : BudgetStore

/-! ## Calls that may fail -/

/-- Whether a call on a store raises something of its own, before or after its effect. -/
inductive Fault where
  | none
  | before (errorType message : String)
  | after (errorType message : String)
deriving DecidableEq

/-- A call with its new state, hit by a fault. -/
def Fault.strike {α σ : Type} (fault : Fault) (s : σ) (res : Except SettlementFailure α × σ) :
    Except SettlementFailure α × σ :=
  match fault with
  | .none => res
  | .before errorType message => (.error (.outage errorType message), s)
  | .after errorType message => (.error (.outage errorType message), res.2)

/-- A call on the authority. -/
def callBudgets (s : Stores) (now : Time) (fault : Fault) (c : BudgetCall) :
    Except SettlementFailure BudgetReply × Stores :=
  let res := s.budgets.exec now c
  fault.strike s (res.1.mapError fun e ↦ .raised (.authority e), { s with budgets := res.2 })

/-- `_transition` of a settlement. -/
def callMark (s : Stores) (now : Time) (fault : Fault) (id : String) (m : Mark) :
    Except SettlementFailure Record × Stores :=
  let res := s.journal.transition now id m
  fault.strike s (res.1.mapError .journal, { s with journal := res.2 })

/-- `prepare` of a settlement. -/
def callPrepare (s : Stores) (fault : Fault) (r : Record) :
    Except SettlementFailure Record × Stores :=
  let res := s.journal.prepare r
  fault.strike s (res.1.mapError .journal, { s with journal := res.2 })

/-- A call on the parent's account, which reaches the authority.  The account is left as it is by a
call that raises. -/
def callAccount {α : Type} (s : Stores) (fault : Fault) (a : BudgetAccount)
    (f : BudgetAccount → Except AccountError α × BudgetAccount) :
    Except SettlementFailure (α × BudgetAccount) × Stores :=
  let res := f (a.attach s.budgets)
  fault.strike s
    ((res.1.map fun reply ↦ (reply, res.2)).mapError fun e ↦ .raised (.account e),
      { s with budgets := res.2.authority.getD s.budgets })

/-- `_budget_usage_for_handle`. -/
def measure (s : Stores) (now : Time) (fault : Fault) (h : BudgetHandle Unit) :
    Except SettlementFailure BudgetUsage × Stores :=
  let res := budgetUsageForHandle (fun _ ↦ s.budgets) now h
  fault.strike s (res.1.mapError .raised, { s with budgets := res.2 () })

/-! ## The owner of a delegation -/

/-- Where an owner stands.  The first stages are those of `_delegate_budgets`, and `cancelling` and
`reclaiming` those of its handler; from `measuring` to `retrying` it is in `_finalize_budgets`. -/
inductive OwnerStage where
  | allowing
  | configuring
  | preparing
  | reserving
  | marking
  /-- The budget is delegated; the child runs, or the next budget of the request is delegated. -/
  | running
  | measuring
  | readying (u : BudgetUsage)
  | consuming (u : BudgetUsage)
  | completing (u : BudgetUsage)
  | settling (u : BudgetUsage)
  | retrying (u : Option BudgetUsage) (e : SettlementFailure)
  | cancelling (e : SettlementFailure)
  | reclaiming (e : SettlementFailure)
  | settled
  | failed (e : SettlementFailure)
deriving DecidableEq

/-- The invocation that delegates one budget: the record it writes, and the parent's account with
the one claim it makes there. -/
structure Owner where
  record : Record
  account : BudgetAccount
  stage : OwnerStage

namespace Owner

/-- The settlement an owner works on. -/
def id (o : Owner) : String := o.record.settlementId

/-- `parent_reservation_id`. -/
def reservation (o : Owner) : String := o.record.parentReservationId

/-- The units that are delegated. -/
def amount (o : Owner) : ℤ := o.record.requestedAmount

/-- The owner goes on to another stage. -/
def goes (o : Owner) (stage : OwnerStage) : Owner := { o with stage }

/-- A step that leaves the account alone: `next` what it goes on with, `handler` where it goes when
the call raises. -/
def after {α : Type} (o : Owner) (next : α → OwnerStage) (handler : SettlementFailure → OwnerStage)
    (res : Except SettlementFailure α × Stores) : Owner × Stores :=
  match res with
  | (.ok a, s) => (o.goes (next a), s)
  | (.error e, s) => (o.goes (handler e), s)

/-- A step that is a call on the account. -/
def afterAccount {α : Type} (o : Owner) (next : α → OwnerStage)
    (handler : SettlementFailure → OwnerStage)
    (res : Except SettlementFailure (α × BudgetAccount) × Stores) : Owner × Stores :=
  match res with
  | (.ok (a, account), s) => ({ o with account, stage := next a }, s)
  | (.error e, s) => (o.goes (handler e), s)

/-- The next step of an owner. -/
def step (now : Time) (fault : Fault) (s : Stores) (o : Owner) : Owner × Stores :=
  match o.stage with
  | .allowing =>
      o.afterAccount
        (fun allowed ↦
          if allowed < o.amount then
            .failed (.raised (.configuration ("child Case budget request exceeds parent " ++
              s!"allowance: {o.record.budget}={o.amount}")))
          else .configuring)
        .failed (callAccount s fault o.account (·.allowance now o.amount none))
  | .configuring =>
      o.after (fun _ ↦ .preparing) .failed
        (callBudgets s now fault (.configure o.record.childHandle.authorityBudget o.amount))
  | .preparing => o.after (fun _ ↦ .reserving) .failed (callPrepare s fault o.record)
  | .reserving =>
      o.afterAccount (fun _ ↦ .marking) .reclaiming
        (callAccount s fault o.account (·.reserve now o.amount (some o.reservation) ""))
  | .marking =>
      o.after (fun _ ↦ .running) .cancelling (callMark s now fault o.id .reserved)
  | .running => (o, s)
  | .measuring =>
      o.after .readying (.retrying none) (measure s now fault o.record.childHandle)
  | .readying u =>
      o.after (fun _ ↦ .consuming u) (.retrying (some u))
        (callMark s now fault o.id (.ready (.measured u)))
  | .consuming u =>
      let claim := o.account.object 0
      if claim.any BudgetClaim.active then
        let additional := max 0 (u.chargedToParent - (claim.map (·.consumed)).getD 0)
        if additional = 0 then (o.goes (.completing u), s)
        else
          o.afterAccount (fun _ ↦ .completing u) (.retrying (some u))
            (callAccount s fault o.account (·.consume now 0 additional))
      else (o.goes (.settling u), s)
  | .completing u =>
      o.afterAccount (fun _ ↦ .settling u) (.retrying (some u))
        (callAccount s fault o.account (·.complete now 0))
  | .settling u =>
      o.after (fun _ ↦ .settled) (.retrying (some u))
        (callMark s now fault o.id (.settled (.settled u)))
  | .retrying u e =>
      o.after (fun _ ↦ .failed e) .failed
        (callMark s now fault o.id (.retry e (some (.retry o.record.childHandle u e))))
  | .cancelling e =>
      o.afterAccount (fun _ ↦ .reclaiming e) .failed
        (callAccount s fault o.account (·.cancel now 0))
  | .reclaiming e =>
      o.after (fun _ ↦ .failed e) .failed (callMark s now fault o.id (.reclaimed e none))
  | .settled | .failed _ => (o, s)

end Owner

/-! ## The passes of the reconciliation -/

/-- An entry of `_budget_settlement_reconciliation`. -/
inductive ReconciliationEntry where
  | reclaimed (settlementId : String) (e : SettlementFailure) (attempts : ℕ)
  | settled (settlementId : String) (usage : UsageReport)
  | retryRequired (settlementId : String) (recordStatus : Option SettlementPhase)
      (e : SettlementFailure)
deriving DecidableEq

/-- Where a pass stands with the copy of a record. -/
inductive PassStage where
  /-- Between two records. -/
  | next
  /-- An intent or a prepared settlement: the parent's reservation is looked up. -/
  | looking (r : Record)
  | cancelling (r : Record)
  /-- `mark_reclaimed`, in the body of the `try` or in the handler of a fence error. -/
  | archiving (r : Record) (e : SettlementFailure) (handler : Bool)
  /-- A settlement whose child has ended. -/
  | measuring (r : Record)
  | completing (r : Record) (u : BudgetUsage)
  | settling (r : Record) (u : BudgetUsage)
  | retrying (r : Record) (e : SettlementFailure)
  /-- A handler has raised. -/
  | aborted (e : SettlementFailure)

/-- One execution of `_reconcile_budget_settlements`. -/
structure Pass where
  queue : List Record
  stage : PassStage
  reconciliation : List ReconciliationEntry

namespace Pass

/-- No pass has been made. -/
def idle : Pass := ⟨[], .next, []⟩

/-- `pending = self._budget_settlement_journal.pending()`. -/
def list (j : Journal) (p : Pass) : Pass := { p with queue := j.pending, stage := .next }

def goes (p : Pass) (stage : PassStage) : Pass := { p with stage }

/-- A record is done with. -/
def report (p : Pass) (entry : ReconciliationEntry) : Pass :=
  { p with stage := .next, reconciliation := p.reconciliation ++ [entry] }

/-- The handlers of an intent or a prepared settlement: after any other exception than a fence error
its status is preserved. -/
def preserve (p : Pass) (r : Record) (e : SettlementFailure) : Pass :=
  if e.isFence then p.goes (.archiving r e true)
  else p.report (.retryRequired r.settlementId (some r.status) e)

/-- The handlers of a settlement whose child has ended. -/
def postpone (p : Pass) (r : Record) (e : SettlementFailure) : Pass :=
  p.goes (if e.isFence then .archiving r e true else .retrying r e)

/-- The error of an intent that is given up. -/
def intentLost : SettlementFailure :=
  .lost "write-ahead budget intent did not reach child execution"

/-- The error of a prepared settlement without an active reservation. -/
def reservationLost : SettlementFailure :=
  .lost "prepared budget settlement lost its active parent reservation"

/-- A step of a pass: `next` what it goes on with, `handler` what it does when the call raises. -/
def after {α : Type} (next : α → Pass) (handler : SettlementFailure → Pass)
    (res : Except SettlementFailure α × Stores) : Pass × Stores :=
  match res with
  | (.ok a, s) => (next a, s)
  | (.error e, s) => (handler e, s)

/-- The pass takes the next copy. -/
def take (p : Pass) : Pass :=
  match p.queue with
  | [] => p
  | r :: queue =>
      { p with
        queue := queue
        stage := match r.status with
          | .reserveIntent | .prepared => .looking r
          | .settlementReady | .retryRequired => .measuring r
          | .settled | .reclaimed => .next }

/-- The next step of a pass. -/
def step (now : Time) (fault : Fault) (s : Stores) (p : Pass) : Pass × Stores :=
  match p.stage with
  | .next => (p.take, s)
  | .looking r =>
      after
        (fun reply ↦
          let active := reply.found?.any fun x ↦ x.status = .active
          if r.status = .reserveIntent then
            p.goes (if active then .cancelling r else .archiving r intentLost false)
          -- another live invocation owns a prepared settlement
          else if active then p.goes .next
          else p.goes (.archiving r reservationLost false))
        (p.preserve r) (callBudgets s now fault (.reservation r.parentReservationId))
  | .cancelling r =>
      after (fun _ ↦ p.goes (.archiving r intentLost false)) (p.preserve r)
        (callBudgets s now fault (.cancel r.parentReservationId))
  | .archiving r e handler =>
      after (fun archived ↦ p.report (.reclaimed r.settlementId e archived.attempts))
        (fun e' ↦ if handler then p.goes (.aborted e') else p.preserve r e')
        (callMark s now fault r.settlementId (.reclaimed e r.usage))
  | .measuring r =>
      after (fun u ↦ p.goes (.completing r u)) (p.postpone r) (measure s now fault r.childHandle)
  | .completing r u =>
      after (fun _ ↦ p.goes (.settling r u)) (p.postpone r)
        (callBudgets s now fault (.complete r.parentReservationId u.chargedToParent))
  | .settling r u =>
      after (fun _ ↦ p.report (.settled r.settlementId (.settled u))) (p.postpone r)
        (callMark s now fault r.settlementId (.settled (.settled u)))
  | .retrying r e =>
      after (fun _ ↦ p.report (.retryRequired r.settlementId none e))
        (fun e' ↦ p.goes (.aborted e'))
        (callMark s now fault r.settlementId (.retry e r.usage))
  | .aborted _ => (p, s)

end Pass

/-! ## The system -/

/-- One entry of a child's `budget_request`, with what its delegation takes from the parent's
context and from outside: the account of the budget, the lease, the two `uuid4().hex`. -/
structure Delegation where
  projectRunId : String
  parentCaseRunId : String
  childCaseRunId : String
  semanticName : String
  requested : ℤ
  /-- The `authority_budget` of the parent's handle, or nothing. -/
  parentBudget : String
  /-- The limit of the parent's handle. -/
  parentLimit : Option ℤ
  leaseId : String
  fencingToken : ℤ
  handleHex : String
  reservationHex : String
  now : Time

/-- The owner of a delegation; `none` when its account, its handle or its record is refused. -/
def Delegation.owner? (d : Delegation) (b : BudgetStore) : Option Owner :=
  match BudgetAccount.make d.semanticName (some b) d.parentBudget d.leaseId d.fencingToken
      d.parentLimit,
    BudgetHandle.make s!"budget-handle-{d.handleHex}" d.semanticName
      s!"{d.semanticName}::child::{d.childCaseRunId}" d.requested (some ()) d.leaseId
      d.fencingToken s!"budget-parent-{d.reservationHex}" with
  | .ok account, .ok handle =>
      match BudgetSettlementRecord.make d.now s!"budget-settlement:{handle.handleId}"
          d.projectRunId d.parentCaseRunId d.childCaseRunId d.semanticName
          handle.parentReservationId () handle d.requested with
      | .ok record => some ⟨record, account, .allowing⟩
      | .error _ => none
  | _, _ => none

/-- The stores, the owners and the passes of all invocations. -/
structure SettlementState where
  stores : Stores
  owners : List Owner
  passes : ℕ → Pass

/-- What happens. -/
inductive SettlementEvent where
  /-- A child is invoked and one of its budgets is to be delegated. -/
  | delegate (d : Delegation)
  /-- The owner of a settlement takes its next step. -/
  | own (id : String) (now : Time) (fault : Fault)
  /-- The child has ended. -/
  | finish (id : String)
  /-- Another budget of the same request could not be delegated. -/
  | undo (id : String) (e : SettlementFailure)
  /-- A pass starts. -/
  | list (pass : ℕ)
  /-- A pass takes its next step. -/
  | reconcile (pass : ℕ) (now : Time) (fault : Fault)
  /-- Something else happens at the authority: work of the Cases, or of another program. -/
  | authority (e : BudgetEvent)

namespace SettlementState

/-- Nothing has happened. -/
def empty (backend : BudgetBackend) (scope : String) : SettlementState :=
  ⟨⟨.empty, .empty backend scope⟩, [], fun _ ↦ .idle⟩

/-- The owner of a settlement. -/
def owner? (s : SettlementState) (id : String) : Option Owner := Rows.lookup Owner.id id s.owners

/-- The names `uuid4` has given to the settlement and to the reservation are not in use. -/
def Unused (s : SettlementState) (o : Owner) : Prop :=
  (∀ o' ∈ s.owners, o'.id ≠ o.id ∧ o'.reservation ≠ o.reservation) ∧
    s.stores.budgets.row o.reservation = none

instance (s : SettlementState) (o : Owner) : Decidable (s.Unused o) :=
  inferInstanceAs (Decidable ((∀ o' ∈ s.owners, o'.id ≠ o.id ∧ o'.reservation ≠ o.reservation) ∧
    s.stores.budgets.row o.reservation = none))

/-- The call is on the reservation of an owner; nobody else knows its name. -/
def Names (s : SettlementState) : BudgetEvent → Bool
  | .call _ c => s.owners.any fun o ↦ c.target = some o.reservation
  | .lease _ _ => false

/-- The owner of a settlement is rewritten. -/
def setOwner (s : SettlementState) (id : String) (o : Owner) : SettlementState :=
  { s with owners := Rows.update Owner.id id (fun _ ↦ o) s.owners }

/-- What one event does. -/
def apply (s : SettlementState) : SettlementEvent → SettlementState
  | .delegate d =>
      match d.owner? s.stores.budgets with
      | some o => if s.Unused o then { s with owners := s.owners ++ [o] } else s
      | none => s
  | .own id now fault =>
      match s.owner? id with
      | some o =>
          let res := o.step now fault s.stores
          { s.setOwner id res.1 with stores := res.2 }
      | none => s
  | .finish id =>
      match s.owner? id with
      | some o => if o.stage = .running then s.setOwner id (o.goes .measuring) else s
      | none => s
  | .undo id e =>
      match s.owner? id with
      | some o => if o.stage = .running then s.setOwner id (o.goes (.cancelling e)) else s
      | none => s
  | .list pass =>
      { s with passes := Function.update s.passes pass ((s.passes pass).list s.stores.journal) }
  | .reconcile pass now fault =>
      let res := (s.passes pass).step now fault s.stores
      { s with stores := res.2, passes := Function.update s.passes pass res.1 }
  | .authority e =>
      if s.Names e then s
      else { s with stores := { s.stores with budgets := s.stores.budgets.apply e } }

/-- The state after a sequence of events. -/
def run (s : SettlementState) (events : List SettlementEvent) : SettlementState :=
  events.foldl apply s

end SettlementState

end Blackbase.Project.Settlement

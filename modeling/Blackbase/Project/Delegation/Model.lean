import Blackbase.Resources.Account.Model

/-!
# Delegating budgets to a child Case

`CaseInvoker._delegate_budgets`, `_finalize_budgets` and `_budget_usage_for_handle` of
`project/invocation.py`, with the part of `BudgetHandle` and `BudgetAccount.from_resource_context`
they rest on.

A handle names its authority by a descriptor; `D` is the type of descriptors, and every one of them
can be opened.  The stores behind them are shared, so an account is given the store of its
descriptor at each call and hands it back.  The settlement journal only records what happens, and
all that is left of it here is whether a write to it raises.
-/

namespace Blackbase.Project

open Blackbase.Resources

/-! ## Handles and accounts -/

/-- `BudgetHandle`: a bounded delegation of one semantic budget. -/
structure BudgetHandle (D : Type) where
  handleId : String
  budget : String
  authorityBudget : String
  limit : ℤ
  authority : Option D
  leaseId : String
  fencingToken : ℤ
  parentReservationId : String
  budget_strip : Text.strip budget = budget
  budget_ne : budget ≠ ""
  limit_nonneg : 0 ≤ limit

/-- What a delegation raises, by class. -/
inductive DelegationError where
  /-- `ProjectConfigurationError`. -/
  | configuration (message : String)
  /-- `ValueError` of a handle. -/
  | value (message : String)
  /-- An exception of an account. -/
  | account (e : AccountError)
  /-- An exception of an authority. -/
  | authority (e : BudgetError)
  /-- An exception of the settlement journal. -/
  | journal
deriving DecidableEq, Repr

variable {D : Type}

/-- `BudgetHandle.__post_init__`. -/
def BudgetHandle.make (handleId budget authorityBudget : String) (limit : ℤ) (authority : Option D)
    (leaseId : String) (fencingToken : ℤ) (parentReservationId : String) :
    Except DelegationError (BudgetHandle D) :=
  let authorityBudget := Text.strip (if authorityBudget = "" then Text.strip budget
    else authorityBudget)
  if Text.strip handleId = "" then .error (.value "budget handle_id must be non-empty")
  else if hbudget : Text.strip budget = "" ∨ authorityBudget = "" then
    .error (.value "budget handle names must be non-empty")
  else if hlimit : limit < 0 then .error (.value "budget handle limit must be non-negative")
  else .ok
    { handleId := Text.strip handleId
      budget := Text.strip budget
      authorityBudget := authorityBudget
      limit := limit
      authority := authority
      leaseId := leaseId
      fencingToken := max 0 fencingToken
      parentReservationId := parentReservationId
      budget_strip := Text.strip_strip budget
      budget_ne := fun h ↦ hbudget (.inl h)
      limit_nonneg := not_lt.mp hlimit }

/-- The part of a parent's `ResourceContext` that delegation reads.  Its handles stand under the
names of their budgets, and the names of the declared budgets are stripped. -/
structure ParentContext (D : Type) where
  handles : List (BudgetHandle D)
  /-- `metadata["budget_authority"]`, if there is one. -/
  authority : Option D
  /-- The names in `metadata["budget_authority"]["budgets"]`. -/
  declared : List String
  leaseId : String
  fencingToken : ℤ
  declared_strip : ∀ name ∈ declared, Text.strip name = name

/-- `parent_handles.get(name)`. -/
def ParentContext.handle? (ctx : ParentContext D) (name : String) : Option (BudgetHandle D) :=
  Rows.lookup BudgetHandle.budget name ctx.handles

/-- The stores behind the descriptors. -/
abbrev Authorities (D : Type) := D → BudgetStore

/-- A `BudgetAccount` and the descriptor of its authority. -/
structure ClientAccount (D : Type) where
  account : BudgetAccount
  authority : Option D

/-- The account, with the store of its authority as it stands. -/
def ClientAccount.attached (c : ClientAccount D) (stores : Authorities D) : BudgetAccount :=
  { c.account with authority := c.authority.map stores }

variable [DecidableEq D]

/-- A call on an account, which reaches the store of its authority. -/
def ClientAccount.call {α : Type} (c : ClientAccount D) (stores : Authorities D)
    (f : BudgetAccount → α × BudgetAccount) : α × ClientAccount D × Authorities D :=
  let res := f (c.attached stores)
  (res.1, { c with account := res.2 }, match c.authority, res.2.authority with
    | some d, some store => Function.update stores d store
    | _, _ => stores)

/-- `BudgetAccount.from_handle`. -/
def fromHandle (stores : Authorities D) (h : BudgetHandle D) :
    Except AccountError (ClientAccount D) :=
  match BudgetAccount.make h.budget (h.authority.map stores) h.authorityBudget h.leaseId
      h.fencingToken (some h.limit) with
  | .error e => .error e
  | .ok a => .ok ⟨a, h.authority⟩

/-- `BudgetAccount.from_resource_context`. -/
def fromResourceContext (ctx : ParentContext D) (stores : Authorities D) (budget : String) :
    Except AccountError (ClientAccount D) :=
  let name := Text.strip budget
  match ctx.handle? name with
  | some h => fromHandle stores h
  | none =>
      let authority := if name ∈ ctx.declared then ctx.authority else none
      if name ∈ ctx.declared ∧ ctx.authority.isNone then
        .error (.authority (.configuration
          s!"shared budget '{name}' has no reconstructable authority"))
      else match BudgetAccount.make name (authority.map stores) ""
          (if name ∈ ctx.declared then ctx.leaseId else "")
          (if name ∈ ctx.declared then ctx.fencingToken else 0) none with
        | .error e => .error e
        | .ok a => .ok ⟨a, authority⟩

/-! ## Delegating -/

/-- One entry of a `budget_request`, with what its delegation takes from outside: the clock, two
`uuid4().hex`, and whether the writes to the settlement journal succeed. -/
structure BudgetEntry where
  semanticName : String
  requested : ℤ
  now : Time
  handleHex : String
  reservationHex : String
  prepares : Bool
  marksReserved : Bool

/-- `_BudgetDelegation`. -/
structure BudgetDelegation (D : Type) where
  handle : BudgetHandle D
  parentAccount : ClientAccount D
  parentClaim : ℕ

/-- How a delegation has failed: the exception, the claim that was pending, and whether the
settlement was in the journal. -/
structure DelegationFailure (D : Type) where
  error : DelegationError
  pending : Option (ClientAccount D × ℕ)
  prepared : Bool

/-- The child's budget, configured at the authority of its handle. -/
def configureChild (stores : Authorities D) (now : Time) (descriptor : Option D) (name : String)
    (amount : ℤ) : Option BudgetError × Authorities D :=
  match descriptor with
  | none => (none, stores)
  | some d =>
      match (stores d).exec now (.configure name amount) with
      | (.error e, store) => (some e, Function.update stores d store)
      | (.ok _, store) => (none, Function.update stores d store)

/-- The descriptor the child's handle gets. -/
def childDescriptor (ctx : ParentContext D) (semanticName : String) : Option D :=
  match ctx.handle? semanticName with
  | some h => h.authority
  | none => ctx.authority

/-- The last part of one turn: the journal knows the settlement, and the units are set aside. -/
def reserveChild (stores : Authorities D) (entry : BudgetEntry) (client : ClientAccount D)
    (handle : BudgetHandle D) :
    Except (DelegationFailure D) (BudgetDelegation D) × Authorities D :=
  match client.call stores (·.reserve entry.now entry.requested
      (some handle.parentReservationId) "") with
  | (.error e, _, stores) => (.error ⟨.account e, none, true⟩, stores)
  | (.ok reply, client, stores) =>
      let ref := match reply with
        | .claim ref => ref
        | _ => 0
      if !entry.marksReserved then (.error ⟨.journal, some (client, ref), true⟩, stores)
      else (.ok ⟨handle, client, ref⟩, stores)

/-- One turn of the loop of `_delegate_budgets`. -/
def delegateBudget (ctx : ParentContext D) (childRunId : String) (stores : Authorities D)
    (entry : BudgetEntry) :
    Except (DelegationFailure D) (BudgetDelegation D) × Authorities D :=
  if (ctx.handle? entry.semanticName).isNone ∧ entry.semanticName ∉ ctx.declared then
    (.error ⟨.configuration s!"parent Case was not granted budget '{entry.semanticName}'", none,
      false⟩, stores)
  else match fromResourceContext ctx stores entry.semanticName with
    | .error e => (.error ⟨.account e, none, false⟩, stores)
    | .ok client =>
        match client.call stores (·.allowance entry.now entry.requested none) with
        | (.error e, _, stores) => (.error ⟨.account e, none, false⟩, stores)
        | (.ok allowed, client, stores) =>
            if allowed < entry.requested then
              (.error ⟨.configuration ("child Case budget request exceeds parent allowance: " ++
                s!"{entry.semanticName}={entry.requested}"), none, false⟩, stores)
            else
              let descriptor := childDescriptor ctx entry.semanticName
              let authorityBudget := s!"{entry.semanticName}::child::{childRunId}"
              match configureChild stores entry.now descriptor authorityBudget entry.requested with
              | (some e, stores) => (.error ⟨.authority e, none, false⟩, stores)
              | (none, stores) =>
                  match BudgetHandle.make s!"budget-handle-{entry.handleHex}" entry.semanticName
                      (if descriptor.isSome then authorityBudget else entry.semanticName)
                      entry.requested descriptor ctx.leaseId ctx.fencingToken
                      s!"budget-parent-{entry.reservationHex}" with
                  | .error e => (.error ⟨e, none, false⟩, stores)
                  | .ok handle =>
                      if !entry.prepares then (.error ⟨.journal, none, false⟩, stores)
                      else reserveChild stores entry client handle

/-- The last loop of the handler of `_delegate_budgets`; `reclaims` says which writes to the
journal succeed. -/
def cancelDelegations (now : Time) (reclaims : ℕ → Bool) (stores : Authorities D) :
    ℕ → List (BudgetDelegation D) → Option DelegationError × Authorities D
  | _, [] => (none, stores)
  | n, d :: rest =>
      match d.parentAccount.call stores (·.cancel now d.parentClaim) with
      | (.error e, _, stores) => (some (.account e), stores)
      | (.ok _, _, stores) =>
          if reclaims (n + 1) then cancelDelegations now reclaims stores (n + 1) rest
          else (some .journal, stores)

/-- The handler of `_delegate_budgets`: the exception it leaves with. -/
def undoDelegations (now : Time) (reclaims : ℕ → Bool) (stores : Authorities D)
    (failure : DelegationFailure D) (output : List (BudgetDelegation D)) :
    DelegationError × Authorities D :=
  let cancelled := match failure.pending with
    | none => (none, stores)
    | some (client, ref) =>
        match client.call stores (·.cancel now ref) with
        | (.error e, _, stores) => (some (DelegationError.account e), stores)
        | (.ok _, _, stores) => (none, stores)
  match cancelled with
  | (some e, stores) => (e, stores)
  | (none, stores) =>
      if failure.prepared ∧ !reclaims 0 then (.journal, stores)
      else
        let rest := cancelDelegations now reclaims stores 0 output
        (rest.1.getD failure.error, rest.2)

/-- The loop of `_delegate_budgets`, with what it has delegated so far. -/
def delegateLoop (ctx : ParentContext D) (childRunId : String) (now : Time) (reclaims : ℕ → Bool) :
    Authorities D → List (BudgetDelegation D) → List BudgetEntry →
      Except DelegationError (List (BudgetDelegation D)) × Authorities D
  | stores, output, [] => (.ok output, stores)
  | stores, output, entry :: rest =>
      match delegateBudget ctx childRunId stores entry with
      | (.error failure, stores) =>
          let undone := undoDelegations now reclaims stores failure output
          (.error undone.1, undone.2)
      | (.ok d, stores) => delegateLoop ctx childRunId now reclaims stores (output ++ [d]) rest

/-- `CaseInvoker._delegate_budgets`. -/
def delegateBudgets (ctx : ParentContext D) (childRunId : String) (now : Time)
    (reclaims : ℕ → Bool) (stores : Authorities D) (request : List BudgetEntry) :
    Except DelegationError (List (BudgetDelegation D)) × Authorities D :=
  delegateLoop ctx childRunId now reclaims stores [] request

/-! ## Settling -/

/-- The usage `_budget_usage_for_handle` reports. -/
structure BudgetUsage where
  handleId : String
  limit : ℤ
  committed : ℤ
  outstandingReserved : ℤ
  chargedToParent : ℤ
  returnedToParent : ℤ
deriving DecidableEq, Repr

/-- `CaseInvoker._budget_usage_for_handle`. -/
def budgetUsageForHandle (stores : Authorities D) (now : Time) (handle : BudgetHandle D) :
    Except DelegationError BudgetUsage × Authorities D :=
  let usage := fun committed reserved : ℤ ↦
    let used := min handle.limit (committed + reserved)
    BudgetUsage.mk handle.handleId handle.limit committed reserved used
      (max 0 (handle.limit - used))
  match handle.authority with
  | none => (.ok (usage 0 0), stores)
  | some d =>
      match (stores d).exec now (.status handle.authorityBudget) with
      | (.error e, store) => (.error (.authority e), Function.update stores d store)
      | (.ok reply, store) =>
          (.ok (match reply.snapshot? with
            | some snapshot => usage snapshot.committed snapshot.reserved
            | none => usage 0 0), Function.update stores d store)

/-- The `settlement_status` of a delegation that has been finalised. -/
inductive SettlementStatus where
  | settled
  | retryRequired
deriving DecidableEq, Repr

/-- What is known of a delegation after `_finalize_budgets`: its status, the usage, and the
parent's account. -/
structure BudgetSettlement (D : Type) where
  status : SettlementStatus
  usage : Option BudgetUsage
  parentAccount : ClientAccount D

/-- The writes to the journal that finalising one delegation makes, and the clock. -/
structure SettlementChoices where
  now : Time
  marksReady : Bool
  marksSettled : Bool
  marksRetry : Bool

/-- The parent's claim is charged with `used` units and completed. -/
def chargeParent (stores : Authorities D) (now : Time) (d : BudgetDelegation D) (used : ℤ) :
    Except AccountError Unit × ClientAccount D × Authorities D :=
  let claim := d.parentAccount.account.object d.parentClaim
  if claim.any BudgetClaim.active then
    let additional := max 0 (used - (claim.map (·.consumed)).getD 0)
    match (if additional = 0 then (.ok .done, d.parentAccount, stores)
        else d.parentAccount.call stores (·.consume now d.parentClaim additional)) with
    | (.error e, client, stores) => (.error e, client, stores)
    | (.ok _, client, stores) =>
        match client.call stores (·.complete now d.parentClaim) with
        | (.error e, client, stores) => (.error e, client, stores)
        | (.ok _, client, stores) => (.ok (), client, stores)
  else (.ok (), d.parentAccount, stores)

/-- One turn of the loop of `_finalize_budgets`; `none` when the journal refuses to record that the
settlement has to be tried again. -/
def finalizeBudget (stores : Authorities D) (choices : SettlementChoices) (d : BudgetDelegation D) :
    Option (BudgetSettlement D) × Authorities D :=
  let retry := fun (usage : Option BudgetUsage) (client : ClientAccount D)
      (stores : Authorities D) ↦
    (if choices.marksRetry then some ⟨.retryRequired, usage, client⟩ else none, stores)
  match budgetUsageForHandle stores choices.now d.handle with
  | (.error _, stores) => retry none d.parentAccount stores
  | (.ok usage, stores) =>
      if !choices.marksReady then retry (some usage) d.parentAccount stores
      else match chargeParent stores choices.now d usage.chargedToParent with
        | (.error _, client, stores) => retry (some usage) client stores
        | (.ok _, client, stores) =>
            if !choices.marksSettled then retry (some usage) client stores
            else (some ⟨.settled, some usage, client⟩, stores)

/-- `CaseInvoker._finalize_budgets`: what becomes of each delegation, in order.  The loop stops at
one whose retry cannot be recorded, and the rest are not settled. -/
def finalizeBudgets (choices : ℕ → SettlementChoices) :
    ℕ → Authorities D → List (BudgetDelegation D) →
      List (Option (BudgetSettlement D)) × Authorities D
  | _, stores, [] => ([], stores)
  | n, stores, d :: rest =>
      match finalizeBudget stores (choices n) d with
      | (none, stores) => (none :: rest.map fun _ ↦ none, stores)
      | (some settlement, stores) =>
          let settled := finalizeBudgets choices (n + 1) stores rest
          (some settlement :: settled.1, settled.2)

/-! ## A parent and its children -/

/-- A `budget_request`: its names are the keys of a mapping, and no amount is negative. -/
structure BudgetRequest where
  entries : List BudgetEntry
  names_nodup : (entries.map BudgetEntry.semanticName).Nodup
  nonneg : ∀ entry ∈ entries, 0 ≤ entry.requested

/-- A budget a child was given: the units it has consumed, and what became of the delegation once
the child had finished. -/
structure ChildBudget (D : Type) where
  delegation : BudgetDelegation D
  consumed : ℤ
  finished : Bool
  settlement : Option (BudgetSettlement D)

/-- The units the parent is charged for. -/
def ChildBudget.charged (c : ChildBudget D) : ℤ :=
  ((c.settlement.bind BudgetSettlement.usage).map BudgetUsage.chargedToParent).getD 0

/-- The authorities, and the budgets of each child that was invoked. -/
structure DelegationState (D : Type) where
  stores : Authorities D
  children : List (List (ChildBudget D))

/-- What happens to a parent and its children. -/
inductive DelegationEvent (D : Type) where
  /-- A child is invoked and its budgets are delegated. -/
  | invoke (childRunId : String) (now : Time) (reclaims : ℕ → Bool) (request : BudgetRequest)
  /-- A running child consumes units on one of its own handles, which has no authority. -/
  | consume (child budget : ℕ) (amount : ℤ)
  /-- A child has finished, in whatever way, and its budgets are finalised. -/
  | finish (child : ℕ) (choices : ℕ → SettlementChoices)
  /-- Something happens at an authority: the calls of children with shared budgets are of it. -/
  | authority (d : D) (e : BudgetEvent)

/-- A child consumes `amount` units on its handle, up to the handle's limit. -/
def ChildBudget.consume (amount : ℤ) (c : ChildBudget D) : ChildBudget D :=
  if c.finished = false ∧ c.delegation.handle.authority.isNone ∧ 0 ≤ amount ∧
      c.consumed + amount ≤ c.delegation.handle.limit then
    { c with consumed := c.consumed + amount }
  else c

/-- The budgets of a child are finalised, once. -/
def finishChild (choices : ℕ → SettlementChoices) (stores : Authorities D)
    (budgets : List (ChildBudget D)) : List (ChildBudget D) × Authorities D :=
  if budgets.any ChildBudget.finished then (budgets, stores)
  else
    let settled := finalizeBudgets choices 0 stores (budgets.map ChildBudget.delegation)
    (List.zipWith (fun c settlement ↦ { c with finished := true, settlement := settlement })
      budgets settled.1, settled.2)

namespace DelegationState

/-- What one event does. -/
def apply (ctx : ParentContext D) (s : DelegationState D) : DelegationEvent D → DelegationState D
  | .invoke childRunId now reclaims request =>
      match delegateBudgets ctx childRunId now reclaims s.stores request.entries with
      | (.error _, stores) => { s with stores := stores }
      | (.ok delegations, stores) =>
          { stores := stores
            children := s.children ++ [delegations.map fun d ↦ ⟨d, 0, false, none⟩] }
  | .consume child budget amount =>
      { s with children := s.children.modify child (·.modify budget (ChildBudget.consume amount)) }
  | .finish child choices =>
      { stores := match s.children[child]? with
          | some budgets => (finishChild choices s.stores budgets).2
          | none => s.stores
        children := s.children.modify child fun budgets ↦
          (finishChild choices s.stores budgets).1 }
  | .authority d e => { s with stores := Function.update s.stores d ((s.stores d).apply e) }

/-- The state after a sequence of events. -/
def run (ctx : ParentContext D) (s : DelegationState D) (events : List (DelegationEvent D)) :
    DelegationState D := events.foldl (apply ctx) s

end DelegationState

end Blackbase.Project

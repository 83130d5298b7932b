import Blackbase.Core.Rows
import Blackbase.Resources.Model

/-!
# The budget settlement journal

`resources/budget_settlement.py`: the record of one delegation of a budget, and the journal that
keeps the records of one namespace.

What a record carries of a delegation is only stored and compared here, so the wire forms of the
parent's authority, of the child's handle, of a usage and of an exception are parameters.  An empty
usage and an empty error are `none`.

Every call is one `BEGIN IMMEDIATE` transaction on the row of its settlement.  `Follows` says what
all of them together can do to a record: a settled or reclaimed one is not touched again.
-/

universe u

namespace Blackbase.Resources

/-- The `status` of a settlement. -/
inductive SettlementPhase where
  | reserveIntent
  | prepared
  | settlementReady
  | retryRequired
  | settled
  | reclaimed
deriving DecidableEq, Repr

/-- The statuses `_transition` does not leave and `pending` does not list. -/
def SettlementPhase.terminal : SettlementPhase → Bool
  | .settled | .reclaimed => true
  | .reserveIntent | .prepared | .settlementReady | .retryRequired => false

/-- `BudgetSettlementRecord`. -/
@[ext]
structure BudgetSettlementRecord (A H U E : Type) where
  settlementId : String
  projectRunId : String
  parentCaseRunId : String
  childCaseRunId : String
  budget : String
  parentReservationId : String
  parentAuthorityRef : A
  childHandle : H
  requestedAmount : ℤ
  status : SettlementPhase
  usage : Option U
  attempts : ℕ
  lastError : Option E
  createdAt : Time
  updatedAt : Time
deriving DecidableEq

/-- The exceptions of the journal, by class. -/
inductive JournalError where
  /-- `ValueError`. -/
  | value (message : String)
  /-- `KeyError`. -/
  | key (message : String)
deriving DecidableEq, Repr

namespace BudgetSettlementRecord

variable {A H U E : Type}

/-- One of the names `__post_init__` checks. -/
def named (field value : String) : Except JournalError String :=
  let value := Text.strip value
  if value = "" then .error (.value s!"BudgetSettlementRecord.{field} must not be empty")
  else .ok value

/-- `BudgetSettlementRecord.__post_init__` on a record that has no usage and no error yet. -/
def make (now : Time) (settlementId projectRunId parentCaseRunId childCaseRunId budget
    parentReservationId : String) (parentAuthorityRef : A) (childHandle : H)
    (requestedAmount : ℤ) : Except JournalError (BudgetSettlementRecord A H U E) := do
  let settlementId ← named "settlement_id" settlementId
  let projectRunId ← named "project_run_id" projectRunId
  let parentCaseRunId ← named "parent_case_run_id" parentCaseRunId
  let childCaseRunId ← named "child_case_run_id" childCaseRunId
  let budget ← named "budget" budget
  let parentReservationId ← named "parent_reservation_id" parentReservationId
  if requestedAmount < 0 then
    .error (.value "BudgetSettlementRecord.requested_amount must be non-negative")
  else
    .ok
      { settlementId, projectRunId, parentCaseRunId, childCaseRunId, budget, parentReservationId
        parentAuthorityRef, childHandle, requestedAmount
        status := .reserveIntent
        usage := none
        attempts := 0
        lastError := none
        createdAt := now
        updatedAt := now }

/-- What the calls on the journal may make of a record: what it is about stays, attempts are only
added, and a terminal record stays as it is. -/
structure Follows (r r' : BudgetSettlementRecord A H U E) : Prop where
  settlementId : r'.settlementId = r.settlementId
  projectRunId : r'.projectRunId = r.projectRunId
  parentCaseRunId : r'.parentCaseRunId = r.parentCaseRunId
  childCaseRunId : r'.childCaseRunId = r.childCaseRunId
  budget : r'.budget = r.budget
  parentReservationId : r'.parentReservationId = r.parentReservationId
  parentAuthorityRef : r'.parentAuthorityRef = r.parentAuthorityRef
  childHandle : r'.childHandle = r.childHandle
  requestedAmount : r'.requestedAmount = r.requestedAmount
  createdAt : r'.createdAt = r.createdAt
  attempts : r.attempts ≤ r'.attempts
  frozen : r.status.terminal → r' = r

namespace Follows

variable {r r' r'' : BudgetSettlementRecord A H U E}

theorem refl (r : BudgetSettlementRecord A H U E) : r.Follows r :=
  ⟨rfl, rfl, rfl, rfl, rfl, rfl, rfl, rfl, rfl, rfl, le_refl _, fun _ ↦ rfl⟩

theorem trans (h : r.Follows r') (h' : r'.Follows r'') : r.Follows r'' where
  settlementId := h'.settlementId.trans h.settlementId
  projectRunId := h'.projectRunId.trans h.projectRunId
  parentCaseRunId := h'.parentCaseRunId.trans h.parentCaseRunId
  childCaseRunId := h'.childCaseRunId.trans h.childCaseRunId
  budget := h'.budget.trans h.budget
  parentReservationId := h'.parentReservationId.trans h.parentReservationId
  parentAuthorityRef := h'.parentAuthorityRef.trans h.parentAuthorityRef
  childHandle := h'.childHandle.trans h.childHandle
  requestedAmount := h'.requestedAmount.trans h.requestedAmount
  createdAt := h'.createdAt.trans h.createdAt
  attempts := h.attempts.trans h'.attempts
  frozen hterminal := by
    obtain rfl := h.frozen hterminal
    exact h'.frozen hterminal

end Follows

end BudgetSettlementRecord

/-- One call of `_transition`, with what its caller writes. -/
structure SettlementMark (U E : Type) where
  status : SettlementPhase
  usage : Option U
  error : Option E
  increments : Bool

namespace SettlementMark

variable {U E : Type}

/-- `mark_reserved`. -/
def reserved : SettlementMark U E := ⟨.prepared, none, none, false⟩

/-- `mark_ready`. -/
def ready (usage : U) : SettlementMark U E := ⟨.settlementReady, some usage, none, true⟩

/-- `mark_settled`. -/
def settled (usage : U) : SettlementMark U E := ⟨.settled, some usage, none, true⟩

/-- `mark_retry`. -/
def retry (error : E) (usage : Option U) : SettlementMark U E :=
  ⟨.retryRequired, usage, some error, true⟩

/-- `mark_reclaimed`. -/
def reclaimed (error : E) (usage : Option U) : SettlementMark U E :=
  ⟨.reclaimed, usage, some error, true⟩

/-- The record `_transition` writes over an open one. -/
def write {A H : Type} (m : SettlementMark U E) (now : Time) (r : BudgetSettlementRecord A H U E) :
    BudgetSettlementRecord A H U E :=
  { r with
    status := m.status
    usage := m.usage.or r.usage
    attempts := r.attempts + if m.increments then 1 else 0
    lastError := m.error
    updatedAt := now }

/-- The record that stands after `_transition`. -/
def outcome {A H : Type} (m : SettlementMark U E) (now : Time)
    (r : BudgetSettlementRecord A H U E) : BudgetSettlementRecord A H U E :=
  if r.status.terminal then r else m.write now r

end SettlementMark

open BudgetSettlementRecord (Follows)

/-- The rows of one namespace of `budget_settlement_journal`; its key is the settlement. -/
structure SettlementJournal (A H U E : Type) where
  rows : List (BudgetSettlementRecord A H U E)
  unique : Rows.Unique BudgetSettlementRecord.settlementId rows

namespace SettlementJournal

variable {A H U E : Type}

/-- No record. -/
def empty : SettlementJournal A H U E := ⟨[], List.nodup_nil⟩

/-- `SELECT payload_json ... WHERE namespace=? AND settlement_id=?`. -/
def record? (j : SettlementJournal A H U E) (id : String) :
    Option (BudgetSettlementRecord A H U E) :=
  Rows.lookup BudgetSettlementRecord.settlementId id j.rows

/-- `_upsert_locked` of a record that is not there yet. -/
def insert (j : SettlementJournal A H U E) (r : BudgetSettlementRecord A H U E)
    (h : j.record? r.settlementId = none) : SettlementJournal A H U E :=
  ⟨j.rows ++ [r], j.unique.append h⟩

theorem key_outcome (m : SettlementMark U E) (now : Time) (r : BudgetSettlementRecord A H U E) :
    (m.outcome now r).settlementId = r.settlementId := by
  rw [SettlementMark.outcome]
  split <;> rfl

/-- `_upsert_locked` of a record that is there. -/
def rewrite (j : SettlementJournal A H U E) (id : String) (m : SettlementMark U E) (now : Time) :
    SettlementJournal A H U E :=
  ⟨Rows.update BudgetSettlementRecord.settlementId id (m.outcome now) j.rows,
    j.unique.update fun r hr ↦ (key_outcome m now r).trans hr⟩

/-- `SQLiteBudgetSettlementJournal.prepare`. -/
def prepare [DecidableEq H] (j : SettlementJournal A H U E)
    (r : BudgetSettlementRecord A H U E) :
    Except JournalError (BudgetSettlementRecord A H U E) × SettlementJournal A H U E :=
  match h : j.record? r.settlementId with
  | some current =>
      if current.parentReservationId ≠ r.parentReservationId ∨
          current.childHandle ≠ r.childHandle then
        (.error (.value "budget settlement_id was reused with different authority"), j)
      else (.ok current, j)
  | none => (.ok r, j.insert r h)

/-- `SQLiteBudgetSettlementJournal._transition`. -/
def transition (j : SettlementJournal A H U E) (now : Time) (id : String)
    (m : SettlementMark U E) :
    Except JournalError (BudgetSettlementRecord A H U E) × SettlementJournal A H U E :=
  match j.record? id with
  | none => (.error (.key s!"unknown budget settlement '{id}'"), j)
  | some current => (.ok (m.outcome now current), j.rewrite id m now)

/-- `SQLiteBudgetSettlementJournal.pending` of all project runs. -/
def pending (j : SettlementJournal A H U E) : List (BudgetSettlementRecord A H U E) :=
  (j.rows.filter fun r ↦ !r.status.terminal).mergeSort fun r r' ↦ r.updatedAt ≤ r'.updatedAt

/-- `SQLiteBudgetSettlementJournal.pending` of one project run. -/
def pendingOf (j : SettlementJournal A H U E) (projectRunId : String) :
    List (BudgetSettlementRecord A H U E) :=
  j.pending.filter fun r ↦ projectRunId = "" ∨ r.projectRunId = projectRunId

/-- `SQLiteBudgetSettlementJournal.retryable`. -/
def retryable (j : SettlementJournal A H U E) (projectRunId : String) :
    List (BudgetSettlementRecord A H U E) :=
  (j.pendingOf projectRunId).filter fun r ↦
    r.status = .settlementReady ∨ r.status = .retryRequired

/-! ## What the calls do to one record -/

variable {j : SettlementJournal A H U E} {r : BudgetSettlementRecord A H U E} {id id' : String}

theorem mem_of_record (h : j.record? id = some r) : r ∈ j.rows := Rows.mem_of_lookup h

theorem id_of_record (h : j.record? id = some r) : r.settlementId = id := Rows.key_of_lookup h

theorem record_of_mem (h : r ∈ j.rows) : j.record? r.settlementId = some r :=
  Rows.lookup_of_mem j.unique h

theorem insert_record (h : j.record? r.settlementId = none) (id : String) :
    (j.insert r h).record? id = if r.settlementId = id then some r else j.record? id := by
  rw [record?, insert, Rows.lookup_append]
  split
  · next heq =>
    subst heq
    rw [show Rows.lookup BudgetSettlementRecord.settlementId r.settlementId j.rows = none from h]
    rfl
  · exact Option.or_none

theorem rewrite_record (j : SettlementJournal A H U E) (id id' : String) (m : SettlementMark U E)
    (now : Time) :
    (j.rewrite id m now).record? id' =
      if id' = id then (j.record? id').map (m.outcome now) else j.record? id' :=
  Rows.lookup_update (fun r hr ↦ (key_outcome m now r).trans hr) j.rows

theorem transition_record (j : SettlementJournal A H U E) (now : Time) (id id' : String)
    (m : SettlementMark U E) :
    (j.transition now id m).2.record? id' =
      if id' = id then (j.record? id').map (m.outcome now) else j.record? id' := by
  rw [transition]
  split
  · next hnone =>
    split
    · next heq =>
      subst heq
      rw [hnone]
      rfl
    · rfl
  · exact j.rewrite_record id id' m now

/-- The records after a mark: the one it is on, and the others as they were. -/
theorem mem_transition {m : SettlementMark U E} {now : Time}
    (h : r ∈ (j.transition now id m).2.rows) :
    r ∈ j.rows ∨ ∃ x ∈ j.rows, x.settlementId = id ∧ r = m.outcome now x := by
  have hr := record_of_mem h
  rw [transition_record] at hr
  split at hr
  · next heq =>
    obtain ⟨x, hx, hout⟩ := Option.map_eq_some_iff.mp hr
    exact .inr ⟨x, mem_of_record hx, (id_of_record hx).trans heq, hout.symm⟩
  · exact .inl (mem_of_record hr)

theorem mem_prepare [DecidableEq H] {x : BudgetSettlementRecord A H U E}
    (h : r ∈ (j.prepare x).2.rows) : r ∈ j.rows ∨ r = x := by
  unfold prepare at h
  split at h
  · split at h
    · exact .inl h
    · exact .inl h
  · exact (List.mem_append.mp h).imp_right List.mem_singleton.mp

/-- What `prepare` answers with is then in the journal, and is about the same reservation and the
same handle. -/
theorem prepare_record [DecidableEq H] {r' : BudgetSettlementRecord A H U E}
    (h : (j.prepare r).1 = .ok r') :
    (j.prepare r).2.record? r.settlementId = some r' ∧
      r'.parentReservationId = r.parentReservationId ∧ r'.childHandle = r.childHandle := by
  unfold prepare at h ⊢
  split at h
  · next current hcurrent =>
    by_cases hother : current.parentReservationId ≠ r.parentReservationId ∨
        current.childHandle ≠ r.childHandle
    · rw [if_pos hother] at h
      cases h
    · rw [if_neg hother] at h ⊢
      obtain rfl := Except.ok.inj h
      obtain ⟨hid, hhandle⟩ := not_or.mp hother
      exact ⟨hcurrent, not_not.mp hid, not_not.mp hhandle⟩
  · obtain rfl := Except.ok.inj h
    refine ⟨?_, rfl, rfl⟩
    rw [insert_record, if_pos rfl]

theorem prepare_other [DecidableEq H] (hid : r.settlementId ≠ id) :
    (j.prepare r).2.record? id = j.record? id := by
  unfold prepare
  split
  · split <;> rfl
  · rw [insert_record, if_neg hid]

/-! ## Runs of the journal -/

/-- A record that is there is still there, as a later version of itself. -/
def Keeps (j j' : SettlementJournal A H U E) : Prop :=
  ∀ id r, j.record? id = some r → ∃ r', j'.record? id = some r' ∧ r.Follows r'

theorem Keeps.refl (j : SettlementJournal A H U E) : j.Keeps j := fun _ r h ↦ ⟨r, h, .refl r⟩

theorem Keeps.trans {j j' j'' : SettlementJournal A H U E} (h : j.Keeps j') (h' : j'.Keeps j'') :
    j.Keeps j'' := by
  intro id r hr
  obtain ⟨r', hr', hfollows⟩ := h id r hr
  obtain ⟨r'', hr'', hfollows'⟩ := h' id r' hr'
  exact ⟨r'', hr'', hfollows.trans hfollows'⟩

theorem follows_outcome (m : SettlementMark U E) (now : Time) (r : BudgetSettlementRecord A H U E) :
    r.Follows (m.outcome now r) := by
  rw [SettlementMark.outcome]
  split
  · exact .refl r
  · next hopen =>
    exact ⟨rfl, rfl, rfl, rfl, rfl, rfl, rfl, rfl, rfl, rfl, Nat.le_add_right _ _,
      fun hterminal ↦ absurd hterminal hopen⟩

theorem keeps_transition (j : SettlementJournal A H U E) (now : Time) (id : String)
    (m : SettlementMark U E) : j.Keeps (j.transition now id m).2 := by
  intro id' r hr
  rw [transition_record, hr]
  split
  · exact ⟨_, rfl, follows_outcome m now r⟩
  · exact ⟨r, rfl, .refl r⟩

theorem keeps_prepare [DecidableEq H] (j : SettlementJournal A H U E)
    (r : BudgetSettlementRecord A H U E) : j.Keeps (j.prepare r).2 := by
  intro id r' hr'
  by_cases hid : r.settlementId = id
  · subst hid
    refine ⟨r', ?_, .refl r'⟩
    unfold prepare
    split
    · split
      · exact hr'
      · exact hr'
    · next hnone => cases hnone.symm.trans hr'
  · exact ⟨r', (prepare_other hid).trans hr', .refl r'⟩

theorem mem_pending : r ∈ j.pending ↔ r ∈ j.rows ∧ r.status.terminal = false := by
  rw [pending, List.mem_mergeSort, List.mem_filter, Bool.not_eq_true']

/-- A call on the journal, by whoever has it open. -/
inductive Call (A H U E : Type) where
  | prepare (r : BudgetSettlementRecord A H U E)
  | mark (now : Time) (id : String) (m : SettlementMark U E)

/-- The journal after a call. -/
def apply [DecidableEq H] (j : SettlementJournal A H U E) :
    Call A H U E → SettlementJournal A H U E
  | .prepare r => (j.prepare r).2
  | .mark now id m => (j.transition now id m).2

/-- The journal after a sequence of calls. -/
def run [DecidableEq H] (j : SettlementJournal A H U E) (calls : List (Call A H U E)) :
    SettlementJournal A H U E := calls.foldl apply j

theorem keeps_apply [DecidableEq H] (j : SettlementJournal A H U E) (c : Call A H U E) :
    j.Keeps (j.apply c) := by
  cases c with
  | prepare r => exact j.keeps_prepare r
  | mark now id m => exact j.keeps_transition now id m

theorem keeps_run [DecidableEq H] (j : SettlementJournal A H U E)
    (calls : List (Call A H U E)) : j.Keeps (j.run calls) := by
  induction calls generalizing j with
  | nil => exact .refl j
  | cons c calls ih => exact (j.keeps_apply c).trans (ih (j.apply c))

end SettlementJournal

end Blackbase.Resources

import Blackbase.Core.Machine
import Blackbase.Context.InMemory

/-!
# The late-write fence of a parallel slot

The branches of a parallel slot run in threads of their own and are handed wrapped runtime handles:
before a method of a fixed list, or an item assignment, is forwarded, the handle asks the run
control whether the run still accepts writes.  The run control is cancelled by the deadline, by
the failure of a branch, by an operator or by the pipeline around it, and closed when the slot is
complete.

Asking and writing are separate steps: the control's flag is read under its lock, then its own
event, then the event of its parent, and only then does the method of the store run, section by
section of its own locking.  Any thread may come in between.
-/

universe u v w x

namespace Blackbase.Kernel

open Resources (Time)
open Context

/-! ## Operations of the stores -/

/-- The methods of a `ContextStore` that change it, and its item access. -/
inductive ContextOp (V : Type u)
  | set (key : String) (value : V) (ttl : Option Time)
  | update (values : List (String × V)) (ttl : Option Time)
  | delete (key : String)
  | clear
  | applyPatch (values : List (String × V)) (deleteKeys : List String) (ttl : Option Time)
  | setItem (key : String) (value : V)
  | delItem (key : String)

/-- The methods of a `SnapshotStore` that change it. -/
inductive SnapshotOp (P : Type v)
  | write (call : SnapshotWrite P)
  | delete (key : String)
  | pin (key owner : String)
  | unpin (key owner : String)

/-- An operation on a store of either kind. -/
inductive StoreOp (V : Type u) (P : Type v)
  | context (op : ContextOp V)
  | snapshot (op : SnapshotOp P)

variable {V : Type u} {P : Type v} {C : Type w} {S : Type x}

/-- The name under which the operation is looked up; item access has none. -/
def ContextOp.methodName : ContextOp V → Option String
  | .set .. => some "set"
  | .update .. => some "update"
  | .delete _ => some "delete"
  | .clear => some "clear"
  | .applyPatch .. => some "apply_patch"
  | .setItem .. | .delItem _ => none

def SnapshotOp.methodName : SnapshotOp P → Option String
  | .write _ => some "write"
  | .delete _ => some "delete"
  | .pin .. => some "pin"
  | .unpin .. => some "unpin"

def StoreOp.methodName : StoreOp V P → Option String
  | .context op => op.methodName
  | .snapshot op => op.methodName

/-- A stretch of a method that no other thread can come into; `false` where the method raises or
returns. -/
abbrev Section (D : Type w) := D → D × Bool

/-- What the operations of the stores do, with the clock readings they take. -/
structure Backend (V : Type u) (P : Type v) (C : Type w) (S : Type x) where
  context : ContextOp V → (ℕ → Time) → List (Section C)
  snapshot : SnapshotOp P → (ℕ → Time) → List (Section S)

/-- The stores kept in memory. -/
def inMemory : Backend V P (InMemoryContextStore V) (InMemorySnapshotStore P) where
  context
    | .set key value ttl, clock => [fun s ↦ (s.set key value ttl (clock 0) (clock 1), true)]
    | .update values ttl, clock => [fun s ↦ (s.applyPatch values [] ttl (clock 0) (clock 1), true)]
    | .delete key, _ => [fun s ↦ (s.delete key, true)]
    | .clear, _ => [fun s ↦ (s.clear, true)]
    | .applyPatch values deleteKeys ttl, clock =>
        [fun s ↦ (s.applyPatch values deleteKeys ttl (clock 0) (clock 1), true)]
    | .setItem key value, clock => [fun s ↦ (s.set key value none (clock 0) (clock 1), true)]
    | .delItem key, clock =>
        [fun s ↦ (s.sweepExpired (clock 0), ((s.sweepExpired (clock 0)).data key).isSome),
          fun s ↦ (s.delete key, true)]
  snapshot
    | .write call, clock => [fun s ↦ ((s.write call (clock 0) (clock 1)).1, true)]
    | .delete key, _ => [fun s ↦ ((s.delete key).1, true)]
    | .pin key owner, _ => [fun s ↦ ((s.pin key owner).1, true)]
    | .unpin key owner, _ => [fun s ↦ ((s.unpin key owner).1, true)]

/-! ## Handles -/

/-- An object that the context of a slot leads to. -/
inductive Object
  | contextStore (n : ℕ)
  | snapshotStore (n : ℕ)
  | runtime (n : ℕ)
deriving DecidableEq

/-- What a branch holds of an object: the object, or a `_CancellationFencedHandle` of it. -/
inductive Handle
  | plain (object : Object)
  | fenced (object : Object)
deriving DecidableEq

def Handle.object : Handle → Object
  | .plain object | .fenced object => object

/-- `_CancellationFencedHandle._MUTATING_METHODS` -/
def mutatingMethods : List String :=
  ["set", "update", "delete", "clear", "write", "write_snapshot", "write_population_snapshot",
    "commit_population_snapshot", "set_context_store", "set_snapshot_store"]

/-- `_CancellationFencedHandle._STORE_ATTRIBUTES` -/
def storeAttributes : List String := ["context_store", "snapshot_store"]

/-- `_runtime_handle_keys` -/
def runtimeHandleKeys : List String :=
  ["executor", "parallel_executor", "pool", "pool_scheduler", "resource_pool", "solver", "trainer",
    "control", "plugin_manager", "context_store", "snapshot_store", "pipeline.cancel_event",
    "pipeline.run_token", "pipeline.run_namespace"]

/-- The keys whose objects `_copy_parallel_context` wraps. -/
def fencedKeys : List String :=
  ["context_store", "snapshot_store", "solver", "trainer", "control"]

/-- The keys that `_copy_parallel_context` sets to the run control, its token and namespace. -/
def controlKeys : List String :=
  ["pipeline.cancel_event", "pipeline.run_token", "pipeline.run_namespace"]

/-- The context of the slot and the attributes of the objects it leads to. -/
structure Surroundings where
  context : String → Option Object
  getattr : Object → String → Option Object
  /-- `copy.deepcopy`, or the object's own `copy`, makes a copy of it. -/
  copies : Object → Bool
  strict : Bool

namespace Surroundings

variable (R : Surroundings)

/-- `_copy_parallel_context`, at one key: what the branch is given of the object there.  Of a
copied value it holds nothing; a value that cannot be copied is given as it is, unless the slot
is strict. -/
def copyParallelContext (key : String) : Option Handle :=
  if key ∈ controlKeys then none
  else (R.context key).bind fun object ↦
    if key ∈ runtimeHandleKeys then
      if key ∈ fencedKeys then some (.fenced object) else some (.plain object)
    else if R.copies object || R.strict then none
    else some (.plain object)

/-- `__getattr__`, of a fenced handle or of the object itself. -/
def getAttribute : Handle → String → Option Handle
  | .plain object, name => (R.getattr object name).map .plain
  | .fenced object, name =>
      (R.getattr object name).map (if name ∈ storeAttributes then .fenced else .plain)

/-- The handle that `context[key].first.second…` evaluates to. -/
def handle (key : String) (path : List String) : Option Handle :=
  (R.copyParallelContext key).bind fun handle ↦ path.foldlM R.getAttribute handle

end Surroundings

/-- The handle asks the run control before it forwards the operation. -/
def Handle.checks (op : StoreOp V P) : Handle → Bool
  | .plain _ => false
  | .fenced _ => op.methodName.all (· ∈ mutatingMethods)

/-- The operation exists on the object. -/
def Object.accepts : Object → StoreOp V P → Bool
  | .contextStore _, .context _ | .snapshotStore _, .snapshot _ => true
  | _, _ => false

/-! ## The run -/

/-- `_PipelineRunControl` -/
structure RunControl where
  active : Bool
  event : Bool
  parentEvent : Bool
deriving DecidableEq

namespace RunControl

def isSet (control : RunControl) : Bool := control.event || control.parentEvent

/-- Cancelled or closed. -/
def down (control : RunControl) : Bool := control.isSet || !control.active

end RunControl

/-- How far a call has come: `assert_writable` reads the flag, the event and the parent's event;
then the sections of the method are run. -/
inductive Stage
  | called
  | sawActive
  | sawEvent
  | admitted (sections : ℕ)
deriving DecidableEq

/-- A call of a branch that has not returned. -/
structure Call (V : Type u) (P : Type v) where
  target : Object
  op : StoreOp V P
  clock : ℕ → Time
  stage : Stage

inductive BranchStatus
  | waiting
  | running
  | ended
deriving DecidableEq

structure Slot (V : Type u) (P : Type v) (C : Type w) (S : Type x) where
  control : RunControl
  branches : ℕ → BranchStatus
  calls : ℕ → Option (Call V P)
  contexts : ℕ → C
  snapshots : ℕ → S

/-- A step of the slot. -/
inductive SlotStep (V : Type u) (P : Type v)
  /-- A worker takes up the branch. -/
  | start (branch : ℕ)
  /-- The operator of the branch returns or raises. -/
  | finish (branch : ℕ)
  /-- The branch begins the call `number` of an operation. -/
  | invoke (number branch : ℕ) (key : String) (path : List String) (op : StoreOp V P)
    (clock : ℕ → Time)
  /-- A fenced call reads the next part of the run control. -/
  | check (number : ℕ)
  /-- An admitted call runs its next section. -/
  | apply (number : ℕ)
  /-- Deadline, failure of a branch, or `set` of an operator. -/
  | cancel
  | cancelParent
  /-- The `finally` of `_run_parallel`. -/
  | close

namespace Slot

variable (B : Backend V P C S) (R : Surroundings)

def setStage (s : Slot V P C S) (number : ℕ) (call : Call V P) (stage : Stage) : Slot V P C S :=
  { s with calls := Function.update s.calls number (some { call with stage := stage }) }

/-- The call returns or raises. -/
def endCall (s : Slot V P C S) (number : ℕ) : Slot V P C S :=
  { s with calls := Function.update s.calls number none }

/-- The next part of `assert_writable`. -/
def checkCall (s : Slot V P C S) (number : ℕ) (call : Call V P) : Option (Slot V P C S) :=
  match call.stage with
  | .called =>
      some (if s.control.active then s.setStage number call .sawActive else s.endCall number)
  | .sawActive =>
      some (if s.control.event then s.endCall number else s.setStage number call .sawEvent)
  | .sawEvent =>
      some (if s.control.parentEvent then s.endCall number
        else s.setStage number call (.admitted 0))
  | .admitted _ => none

/-- What is left of a call after its section `index`. -/
def afterSection (s : Slot V P C S) (number : ℕ) (call : Call V P) (index : ℕ) (goesOn : Bool) :
    Slot V P C S :=
  if goesOn then s.setStage number call (.admitted (index + 1)) else s.endCall number

/-- Section `index` of an admitted call; past the last one the call returns. -/
def applySection (s : Slot V P C S) (number : ℕ) (call : Call V P) (index : ℕ) : Slot V P C S :=
  match call.target, call.op with
  | .contextStore n, .context op =>
      match (B.context op call.clock)[index]? with
      | none => s.endCall number
      | some run =>
          let result := run (s.contexts n)
          { s with contexts := Function.update s.contexts n result.1 }.afterSection number call
            index result.2
  | .snapshotStore n, .snapshot op =>
      match (B.snapshot op call.clock)[index]? with
      | none => s.endCall number
      | some run =>
          let result := run (s.snapshots n)
          { s with snapshots := Function.update s.snapshots n result.1 }.afterSection number call
            index result.2
  | _, _ => s.endCall number

/-- One step of the slot. -/
def step (s : Slot V P C S) : SlotStep V P → Option (Slot V P C S)
  | .start branch =>
      if s.branches branch = .waiting then
        some { s with
          branches := Function.update s.branches branch
            (if s.control.isSet then .ended else .running) }
      else none
  | .finish branch =>
      if s.branches branch = .running then
        some { s with branches := Function.update s.branches branch .ended }
      else none
  | .invoke number branch key path op clock =>
      if s.branches branch = .running ∧ (s.calls number).isNone then
        ((R.handle key path).filter fun handle ↦ handle.object.accepts op).map fun handle ↦
          s.setStage number ⟨handle.object, op, clock, .called⟩
            (if handle.checks op then .called else .admitted 0)
      else none
  | .check number => (s.calls number).bind (s.checkCall number)
  | .apply number =>
      (s.calls number).bind fun call ↦
        match call.stage with
        | .admitted index => some (s.applySection B number call index)
        | _ => none
  | .cancel => some { s with control := { s.control with event := true } }
  | .cancelParent => some { s with control := { s.control with parentEvent := true } }
  | .close => some { s with control := { s.control with active := false } }

/-- The slot before its branches are submitted; the parent may have been cancelled already. -/
def initial (parentEvent : Bool) (contexts : ℕ → C) (snapshots : ℕ → S) : Slot V P C S where
  control := ⟨true, false, parentEvent⟩
  branches := fun _ ↦ .waiting
  calls := fun _ ↦ none
  contexts := contexts
  snapshots := snapshots

end Slot

end Blackbase.Kernel

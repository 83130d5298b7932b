import Blackbase.Core.Effect
import Blackbase.Core.OrderedDict
import Blackbase.Core.Selection
import Blackbase.Core.Text
import Blackbase.Project.Envelope.Value

/-!
# Pipeline slots

`call_binding.py`, the specifications of `kernel/spec.py`, and `kernel/orchestrator.py` from
`build_pipeline_kernel` to the call of an operator.

Operators are objects whose calls have effects on a state, which holds the context of the slot.
What the other threads do to that state, a cancellation above all, is part of what reading the
cancel event does to it.  `_run_parallel` is a parameter here; it has a model of its own.
-/

namespace Blackbase.Kernel.Slots

open Project.Envelope (PyFloat)

/-! ## Errors -/

/-- The exceptions that the kernel makes. -/
inductive ErrorKind where
  | keyError
  | typeError
  | valueError
deriving DecidableEq

/-- What can be raised: a `PipelineCancellationError`, an exception of the kernel, an `Exception`
of an operator, or what an operator raises that is no `Exception`. -/
inductive Raised (E : Type) where
  | cancelled (reason : String)
  | kernel (kind : ErrorKind) (text : String)
  | error (e : E)
  | exit (e : E)

/-- `except Exception`, behind `except PipelineCancellationError`. -/
def Raised.caught {E : Type} : Raised E → Bool
  | .kernel .. | .error _ => true
  | .cancelled _ | .exit _ => false

/-- What runs in a slot. -/
abbrev Run (σ E α : Type) := Effect σ (Raised E) α

/-! ## Calls -/

variable {σ V E C Op A : Type}

/-- A callable: its `repr`, what its signature can bind, if it has one that can be inspected, and
what a call does. -/
structure Callable (σ E A V : Type) where
  repr : String
  signature : Option (A → Bool)
  call : A → Run σ E V

/-- `CallCandidate` -/
structure CallCandidate (A : Type) where
  args : A
  label : String

/-- `BoundCallOutcome` -/
structure BoundCallOutcome (V : Type) where
  value : V
  candidateIndex : ℕ
  candidateLabel : String
  signatureAvailable : Bool

/-- The first candidate that can be bound, with its index. -/
def firstBound (binds : A → Bool) : ℕ → List (CallCandidate A) → Option (ℕ × CallCandidate A)
  | _, [] => none
  | index, candidate :: rest =>
      if binds candidate.args then some (index, candidate) else firstBound binds (index + 1) rest

/-- The labels of the candidates. -/
def labels (declared : List (CallCandidate A)) : String :=
  ", ".intercalate (declared.mapIdx fun index candidate ↦
    if candidate.label = "" then s!"candidate[{index}]" else candidate.label)

/-- `invoke_bound_once_with_outcome` -/
def invokeBoundOnceWithOutcome (fn : Callable σ E A V) (declared : List (CallCandidate A)) :
    Run σ E (BoundCallOutcome V) :=
  match declared with
  | [] => throw (.kernel .valueError "at least one call candidate is required")
  | canonical :: rest =>
      match fn.signature with
      | none => do
          let value ← fn.call canonical.args
          return ⟨value, 0, canonical.label, false⟩
      | some binds =>
          match firstBound binds 0 (canonical :: rest) with
          | some (index, candidate) => do
              let value ← fn.call candidate.args
              return ⟨value, index, candidate.label, true⟩
          | none => throw (.kernel .typeError
              s!"{fn.repr} cannot bind any declared call candidate: {labels (canonical :: rest)}")

/-- `invoke_bound_once` -/
def invokeBoundOnce (fn : Callable σ E A V) (declared : List (CallCandidate A)) : Run σ E V :=
  BoundCallOutcome.value <$> invokeBoundOnceWithOutcome fn declared

/-! ## The host -/

/-- The arguments an operator is called with. -/
inductive Args (V : Type) where
  | valueContext (value : V)
  | value (value : V)
  | empty

/-- `int` of a value of the context: a number, a `TypeError` or `ValueError`, or another error. -/
inductive Conversion (E : Type) where
  | number (n : ℤ)
  | rejected
  | raised (e : E)

/-- What the kernel runs on.  `cancelEvent` says whether the cancel event of the context is set,
and for what reason; `get` reads the context, where a key without a value is one that is not there;
`getattr` and `callable` are the callables that an operator has under a name and is itself;
`parallel` is `_run_parallel`, on the operators of the branches, the value, the method, and the
strictness, timeout and cancelling of the policy; `tuple` and `list` make one value of several, and
`stack` does so for the merges that NumPy does. -/
structure Host (σ V E C Op : Type) where
  cancelEvent : σ → Option String × σ
  get : σ → String → Option C
  int : C → Conversion E
  str : C → String
  reprText : String → String
  reprValue : Option C → String
  getattr : Op → String → Option (Callable σ E (Args V) V)
  callable : Op → Option (Callable σ E (Args V) V)
  parallel : List (Option Op) → V → String → Bool → Option PyFloat → Bool → Run σ E (List V)
  tuple : List V → V
  list : List V → V
  stack : String → List V → Run σ E V

variable (H : Host σ V E C Op)

namespace Host

/-- `_raise_if_cancelled` -/
def raiseIfCancelled : Run σ E Unit := fun s ↦
  match H.cancelEvent s with
  | (some reason, s) => (.error (.cancelled reason), s)
  | (none, s) => (.ok (), s)

/-- `context.get(key)` -/
def contextGet (key : String) : Run σ E (Option C) := fun s ↦ (.ok (H.get s key), s)

/-- The `int` of a value of the context, 0 if there is none or it is no number. -/
def intOrZero : Option C → Run σ E ℤ
  | none => pure 0
  | some c =>
      match H.int c with
      | .number n => pure n
      | .rejected => pure 0
      | .raised e => throw (.error e)

/-- `_invoke_operator_callable` -/
def invokeOperatorCallable (fn : Callable σ E (Args V) V) (value : V) : Run σ E V :=
  invokeBoundOnce fn [⟨.valueContext value, "value_context"⟩, ⟨.value value, "value"⟩,
    ⟨.empty, "empty"⟩]

/-- `call_operator` -/
def callOperator (operator : Op) (value : V) (method : String) : Run σ E V :=
  match H.getattr operator method with
  | some fn => invokeOperatorCallable fn value
  | none =>
      match H.callable operator with
      | some fn => invokeOperatorCallable fn value
      | none => pure value

end Host

/-! ## Policies -/

/-- `text or default` -/
def orText (text default : String) : String := if text = "" then default else text

/-- The `merge` of a slot: nothing, a name, or a callable of the outputs, the method and the
input. -/
inductive Merge (σ V E : Type) where
  | none
  | named (strategy : String)
  | callable (fn : List V → String → V → Run σ E V)

/-- `OrchestrationPolicy` -/
structure OrchestrationPolicy (σ V E Op : Type) where
  mode : String
  operators : List (Option Op)
  routes : OrderedDict (Option Op)
  selectorKey : String
  indexKey : String
  defaultOperator : Option Op
  stages : List (ℤ × Option Op)
  strict : Bool
  merge : Merge σ V E
  timeoutSeconds : Option PyFloat
  cancelOnError : Bool

/-- `max(0, min(index, length - 1))` -/
def clampIndex (index : ℤ) (length : ℕ) : ℕ := (max 0 (min index (length - 1))).toNat

/-- `index % length` -/
def wrapIndex (index : ℤ) (length : ℕ) : ℕ := (index % length).toNat

namespace OrchestrationPolicy

/-- The operator of a `switch`. -/
def selectSwitch (p : OrchestrationPolicy σ V E Op) : Run σ E (Option Op) := do
  if p.operators = [] then return none
  let index ← H.intOrZero (← H.contextGet p.indexKey)
  return (p.operators[clampIndex index p.operators.length]?).join

/-- The operator of a `dynamic` slot: that of the last stage, in the order of the thresholds, that
the generation has reached. -/
def selectDynamic (p : OrchestrationPolicy σ V E Op) : Run σ E (Option Op) := do
  let generation ← H.intOrZero (← H.contextGet "generation")
  let selected := (Selection.scan Prod.fst generation none
    (Selection.sorted Prod.fst p.stages)).bind Prod.snd
  return selected.or p.defaultOperator

/-- The operator of a `router` that goes by an index, or the default. -/
def selectIndexed (p : OrchestrationPolicy σ V E Op) : Run σ E (Option Op) := do
  match ← H.contextGet p.indexKey with
  | none => return p.defaultOperator
  | some index =>
      match H.int index with
      | .number n =>
          return (p.routes.entries[wrapIndex n p.routes.entries.length]?).bind Prod.snd
      | .rejected => return p.defaultOperator
      | .raised e => throw (.error e)

/-- The operator of a `router`. -/
def selectRouter (p : OrchestrationPolicy σ V E Op) : Run σ E (Option Op) := do
  if p.routes.entries = [] then return none
  match ← H.contextGet p.selectorKey with
  | none => p.selectIndexed H
  | some selector =>
      match p.routes.get? (H.str selector) with
      | some operator => return operator
      | none => p.selectIndexed H

/-- `select_operator` -/
def selectOperator (p : OrchestrationPolicy σ V E Op) : Run σ E (Option Op) :=
  let mode := Text.lower (Text.strip (orText p.mode "serial"))
  if mode = "switch" then p.selectSwitch H
  else if mode = "dynamic" then p.selectDynamic H
  else if mode = "router" then p.selectRouter H
  else pure none

end OrchestrationPolicy

/-! ## Running a policy -/

namespace Host

/-- An operator is called between two looks at the cancel event; one that is `None` is passed
over. -/
def guardedCall (method : String) (value : V) : Option Op → Run σ E V
  | none => pure value
  | some operator => do
      H.raiseIfCancelled
      let result ← H.callOperator operator value method
      H.raiseIfCancelled
      return result

/-- `_run_serial` -/
def runSerial (operators : List (Option Op)) (value : V) (method : String) (strict : Bool) :
    Run σ E V :=
  Effect.untilError (fun e ↦ e.caught && !strict) (H.guardedCall method) operators value

/-- `_run_router` -/
def runRouter (p : OrchestrationPolicy σ V E Op) (value : V) (method : String) (fallback : V) :
    Run σ E V := do
  H.raiseIfCancelled
  match ← p.selectOperator H with
  | none =>
      if p.strict ∧ Text.lower (Text.strip p.mode) = "router" then do
        let selector ← H.contextGet p.selectorKey
        throw (.kernel .keyError (s!"pipeline route not found: selector_key=" ++
          s!"{H.reprText p.selectorKey}, value={H.reprValue selector}"))
      else return fallback
  | some operator => do
      let result ← H.callOperator operator value method
      H.raiseIfCancelled
      return result

/-- `_merge_parallel_results` -/
def mergeParallelResults (outputs : List V) (strategy : Merge σ V E) (fallback : V)
    (method : String) : Run σ E V :=
  match outputs with
  | [] => pure fallback
  | first :: rest =>
      match strategy with
      | .callable fn => fn (first :: rest) method fallback
      | .none => pure (H.tuple (first :: rest))
      | .named strategy =>
          let merge := Text.lower (Text.strip strategy)
          if merge = "" then pure (H.tuple (first :: rest))
          else if merge ∈ ["last", "override"] then pure (rest.getLastD first)
          else if merge = "first" then pure first
          else if merge ∈ ["list", "collect"] then pure (H.list (first :: rest))
          else if merge ∈ ["sum", "mean", "avg", "concat", "concatenate"] then
            H.stack merge (first :: rest)
          else throw (.kernel .valueError
            s!"unsupported parallel merge strategy: {H.reprText strategy}")

/-- `run_policy` -/
def runPolicy (p : OrchestrationPolicy σ V E Op) (value : V) (method : String) (fallback : V) :
    Run σ E V :=
  let mode := Text.lower (orText p.mode "serial")
  if mode = "serial" then H.runSerial p.operators value method p.strict
  else if mode = "parallel" then do
    let results ← H.parallel p.operators value method p.strict p.timeoutSeconds p.cancelOnError
    H.mergeParallelResults results p.merge fallback method
  else if mode ∈ ["router", "switch", "dynamic"] then H.runRouter p value method fallback
  else if p.strict then
    throw (.kernel .valueError s!"unsupported orchestration mode: {H.reprText mode}")
  else pure fallback

end Host

/-! ## Specifications -/

/-- `PipelineSlotSpec` -/
structure PipelineSlotSpec (σ V E : Type) where
  slot : String
  operators : List String
  mode : String
  method : Option String
  routes : OrderedDict String
  stages : List (ℤ × String)
  selectorKey : String
  indexKey : String
  defaultOperator : Option String
  strict : Option Bool
  merge : Merge σ V E
  timeoutSeconds : Option PyFloat
  cancelOnError : Bool

/-- `_SLOT_METHOD_MAP` -/
def slotMethodMap : List (String × String) := [
  ("init", "initialize"), ("initializer", "initialize"), ("mutate", "mutate"),
  ("repair", "repair"), ("encode", "encode"), ("decode", "decode"), ("transform", "transform"),
  ("codec", "encode"), ("head", "decode")]

/-- `get_method_for_slot` -/
def getMethodForSlot (slot : String) : String := (slotMethodMap.lookup slot).getD "transform"

/-- `normalize_slot_name` -/
def normalizeSlotName (value : String) : String :=
  String.ofList ((Text.lower (Text.strip value)).toList.map fun c ↦
    if c = '-' ∨ c = ' ' then '_' else c)

/-! ## Building -/

/-- A registry of operators. -/
abbrev Registry (Op : Type) := String → Option Op

/-- `_resolve_operator` -/
def resolveOperator (name : Option String) (registry : Registry Op) (strict : Bool) :
    Except (Raised E) (Option Op) :=
  match name with
  | none => .ok none
  | some name =>
      if name = "" then .ok none
      else
        match registry (Text.strip name) with
        | some operator => .ok (some operator)
        | none =>
            if strict then .error (.kernel .keyError
              s!"pipeline operator not found: {H.reprText (Text.strip name)}")
            else .ok none

/-- The strictness of a slot. -/
def PipelineSlotSpec.isStrict (slot : PipelineSlotSpec σ V E) (strict : Bool) : Bool :=
  slot.strict.getD strict

/-- The values of a dictionary, resolved in its order. -/
def resolveRoutes (registry : Registry Op) (strict : Bool) (routes : OrderedDict String) :
    Except (Raised E) (OrderedDict (Option Op)) := do
  let entries ← routes.entries.mapM fun (key, name) ↦ do
    let operator ← resolveOperator H (some name) registry strict
    return (key, operator)
  return OrderedDict.ofList entries

/-- `_build_policy_from_slot` -/
def buildPolicyFromSlot (slot : PipelineSlotSpec σ V E) (registry : Registry Op) (strict : Bool) :
    Except (Raised E) (OrchestrationPolicy σ V E Op) := do
  let localStrict := slot.isStrict strict
  let operators ← slot.operators.mapM fun name ↦
    resolveOperator H (some name) registry localStrict
  let routes ← resolveRoutes H registry localStrict slot.routes
  let stages ← slot.stages.mapM fun (start, name) ↦ do
    let operator ← resolveOperator H (some name) registry localStrict
    return (start, operator)
  let defaultOperator ← resolveOperator H slot.defaultOperator registry false
  return {
    mode := Text.lower (Text.strip (orText slot.mode "serial"))
    operators := operators
    routes := routes
    selectorKey := orText slot.selectorKey "strategy_id"
    indexKey := orText slot.indexKey "vns_k"
    defaultOperator := defaultOperator
    stages := stages
    strict := localStrict
    merge := slot.merge
    timeoutSeconds := slot.timeoutSeconds
    cancelOnError := slot.cancelOnError }

/-- The method of a slot. -/
def methodOf (slot : PipelineSlotSpec σ V E) (slotName : String) : String :=
  Text.strip (orText (slot.method.getD "") (getMethodForSlot slotName))

/-- `PipelineKernelBuild` -/
structure PipelineKernelBuild (σ V E Op : Type) where
  slotRunners : OrderedDict (V → Run σ E V)
  slotPolicies : OrderedDict (OrchestrationPolicy σ V E Op)

/-- The loop of `build_pipeline_kernel`, over the slots of a specification. -/
def buildSlots (registry : Registry Op) (strict : Bool) :
    List (PipelineSlotSpec σ V E) → PipelineKernelBuild σ V E Op →
      Except (Raised E) (PipelineKernelBuild σ V E Op)
  | [], built => .ok built
  | slot :: rest, built =>
      let slotName := normalizeSlotName slot.slot
      if slotName = "" then buildSlots registry strict rest built
      else do
        let policy ← buildPolicyFromSlot H slot registry strict
        buildSlots registry strict rest {
          slotRunners := built.slotRunners.insert slotName fun value ↦
            H.runPolicy policy value (methodOf slot slotName) value
          slotPolicies := built.slotPolicies.insert slotName policy }

/-- `build_pipeline_kernel` -/
def buildPipelineKernel (slots : List (PipelineSlotSpec σ V E)) (registry : Registry Op)
    (strict : Bool) : Except (Raised E) (PipelineKernelBuild σ V E Op) :=
  buildSlots H registry strict slots ⟨∅, ∅⟩

/-- `run_slot` -/
def PipelineKernelBuild.runSlot (built : PipelineKernelBuild σ V E Op) (slot : String) (value : V) :
    Run σ E V :=
  match built.slotRunners.get? (normalizeSlotName slot) with
  | none => pure value
  | some runner => runner value

end Blackbase.Kernel.Slots

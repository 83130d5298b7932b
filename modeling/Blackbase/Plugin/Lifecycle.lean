import Mathlib

/-!
# Plugin lifecycles

`PluginManager` of `plugin/base.py`: the registration of plugins, the two loops that call start
hooks and build a `PluginLifecycleReceipt`, `begin_lifecycle` and `on_solver_init`, and
`finish_lifecycle`, which calls the end hooks of a receipt.

The loops go over the list object that `self.plugins` is when they begin, by its positions.  A hook
may register and unregister plugins, which changes that list in place, or set another execution
order, which makes `self.plugins` another list.  What the hooks do is given by a script.
-/

namespace Blackbase.Plugin.Lifecycle

/-- The names and the priorities of the plugins, which are objects with a number. -/
structure Attributes where
  name : ℕ → String
  priority : ℕ → ℤ

/-- A `PluginManager`, and the flags of the plugins. -/
structure Manager where
  plugins : List ℕ
  pluginMap : String → Option ℕ
  enabled : ℕ → Bool
  attachFailed : ℕ → Bool

/-- What a hook may do to the manager. -/
inductive Op where
  | register (plugin : ℕ)
  | unregister (name : String)
  | enable (name : String)
  | disable (name : String)
  | setExecutionOrder (names : List String)

namespace Manager

variable (A : Attributes) (m : Manager)

/-- `register`, which raises if the name is taken. -/
def register (plugin : ℕ) : Manager :=
  match m.pluginMap (A.name plugin) with
  | some _ => m
  | none =>
      { m with
        plugins := (m.plugins ++ [plugin]).insertionSort fun p q ↦ A.priority p ≤ A.priority q
        pluginMap := Function.update m.pluginMap (A.name plugin) (some plugin) }

/-- `unregister`, which raises if the name is not found. -/
def unregister (name : String) : Manager :=
  match m.pluginMap name with
  | none => m
  | some plugin =>
      if plugin ∈ m.plugins then
        { m with
          plugins := m.plugins.erase plugin
          pluginMap := Function.update m.pluginMap name none }
      else m

/-- `enable` and `disable`. -/
def setEnabled (name : String) (enabled : Bool) : Manager :=
  match m.pluginMap name with
  | none => m
  | some plugin => { m with enabled := Function.update m.enabled plugin enabled }

/-- `set_execution_order`: the named plugins, and then the others. -/
def setExecutionOrder (names : List String) : Manager :=
  let named := names.eraseDups.filterMap fun name ↦
    m.plugins.reverse.find? fun plugin ↦ A.name plugin = name
  { m with plugins := named ++ m.plugins.filter fun plugin ↦ A.name plugin ∉ names }

/-- What an operation leaves.  One that raises leaves the manager as it was. -/
def apply : Op → Manager
  | .register plugin => m.register A plugin
  | .unregister name => m.unregister name
  | .enable name => m.setEnabled name true
  | .disable name => m.setEnabled name false
  | .setExecutionOrder names => m.setExecutionOrder A names

end Manager

/-! ## Start hooks -/

/-- How a start hook ends. -/
inductive Ending where
  | completed
  /-- The hook has completed, but what is done after it raises: writing its profile, or warning
  about its result. -/
  | spoiled
  | raised
  /-- An exception that is no `Exception`. -/
  | escaped
deriving DecidableEq

/-- What happens when the loop comes to a plugin. -/
structure Visit where
  /-- What `attach` does, and whether it raises, if the plugin has not been attached. -/
  attach : Option (List Op × Bool)
  ops : List Op
  ending : Ending
  /-- The plugin has `raise_on_init_error` or `strict_init`. -/
  strictInit : Bool

/-- Which loop it is, and its settings. -/
structure Start where
  /-- The loop is that of `on_solver_init`, which attaches the plugins. -/
  attaches : Bool
  /-- `getattr(plugin, event_name, None)` can be called. -/
  hasHandler : ℕ → Bool
  strict : Bool
  /-- `solver.plugin_strict`. -/
  solverStrict : Bool

/-- The locals of a loop.  `detached` is the list that it goes over, once that is no longer
`self.plugins`, and `completed` are the plugins whose start hook has completed. -/
structure Loop where
  manager : Manager
  detached : Option (List ℕ)
  position : ℕ
  started : List ℕ
  completed : List ℕ

/-- How a loop ends: it returns a receipt, or raises a `PluginLifecycleDispatchError` with one, or
another exception leaves it. -/
inductive Result where
  | returned (receipt : List ℕ)
  | dispatchError (plugin : ℕ) (receipt : List ℕ)
  | escaped

/-- The receipt that is returned or carried by the error. -/
def Result.receipt : Result → Option (List ℕ)
  | returned receipt => some receipt
  | dispatchError _ receipt => some receipt
  | escaped => none

namespace Loop

variable (A : Attributes) (start : Start)

/-- The loop before its first turn. -/
def begin (m : Manager) : Loop := ⟨m, none, 0, [], []⟩

/-- The list that the loop goes over. -/
def iterated (s : Loop) : List ℕ := s.detached.getD s.manager.plugins

/-- An operation of a hook. -/
def apply (s : Loop) (op : Op) : Loop :=
  { s with
    manager := s.manager.apply A op
    detached :=
      match op with
      | .setExecutionOrder _ => some s.iterated
      | _ => s.detached }

/-- The operations of a hook. -/
def applyAll (s : Loop) (ops : List Op) : Loop := ops.foldl (apply A) s

/-- The plugin is not passed over. -/
def eligible (s : Loop) (plugin : ℕ) : Bool :=
  s.manager.enabled plugin && !s.manager.attachFailed plugin && start.hasHandler plugin

/-- The next plugin that is not passed over, and its position. -/
def next (s : Loop) : Option (ℕ × ℕ) :=
  (s.iterated.zipIdx.drop s.position).find? fun e ↦ s.eligible start e.1

/-- The plugin could not be attached. -/
def failAttach (s : Loop) (plugin : ℕ) : Loop :=
  { s with
    manager := { s.manager with
      attachFailed := Function.update s.manager.attachFailed plugin true } }

/-- A failure of the hook is raised. -/
def raises (v : Visit) : Bool :=
  start.strict || start.attaches && (start.solverStrict || v.strictInit)

/-- The start hook of a plugin. -/
def hook (v : Visit) (plugin : ℕ) (s : Loop) : Loop ⊕ Loop × Result :=
  let s := s.applyAll A v.ops
  match v.ending with
  | .completed =>
      .inl { s with started := s.started ++ [plugin], completed := s.completed ++ [plugin] }
  | .spoiled =>
      let s := { s with completed := s.completed ++ [plugin] }
      if raises start v then .inr (s, .dispatchError plugin s.started) else .inl s
  | .raised => if raises start v then .inr (s, .dispatchError plugin s.started) else .inl s
  | .escaped => .inr (s, .escaped)

/-- A turn of the loop, at a plugin that is not passed over. -/
def turn (v : Visit) (plugin : ℕ) (s : Loop) : Loop ⊕ Loop × Result :=
  match start.attaches, v.attach with
  | true, some (ops, fails) =>
      let s := s.applyAll A ops
      if fails then
        let s := s.failAttach plugin
        if start.strict || start.solverStrict then .inr (s, .dispatchError plugin s.started)
        else .inl s
      else s.hook A start v plugin
  | _, _ => s.hook A start v plugin

/-- The turns of the loop.  A script that does not fit gives `none`. -/
def run : List Visit → Loop → Option (Loop × Result)
  | [], s => if (s.next start).isNone then some (s, .returned s.started) else none
  | v :: rest, s =>
      match s.next start with
      | none => none
      | some (plugin, index) =>
          match turn A start v plugin { s with position := index + 1 } with
          | .inl s => run rest s
          | .inr out => if rest.isEmpty then some out else none

end Loop

/-- `begin_lifecycle`. -/
def beginLifecycle (A : Attributes) (strict : Bool) (hasHandler : ℕ → Bool) (m : Manager)
    (script : List Visit) : Option (Loop × Result) :=
  Loop.run A ⟨false, hasHandler, strict, false⟩ script (.begin m)

/-- `on_solver_init`. -/
def onSolverInit (A : Attributes) (strict solverStrict : Bool) (m : Manager)
    (script : List Visit) : Option (Loop × Result) :=
  Loop.run A ⟨true, fun _ ↦ true, strict, solverStrict⟩ script (.begin m)

/-! ## End hooks -/

/-- What comes of the end hook of a participant: there is none, or it ends, or an exception leaves
`_invoke_lifecycle_handler`. -/
inductive EndAnswer where
  | missing
  | ended
  | raised (error : String)

/-- What `finish_lifecycle` has done: the end hooks it called, the errors it collected, and whether
it raises a `PluginLifecycleCleanupError` with them. -/
structure Finished where
  calls : List ℕ
  errors : List (ℕ × String)
  raised : Bool

/-- The loop of `finish_lifecycle`, over what comes of the hooks of the participants in turn. -/
def finishLoop : List (ℕ × EndAnswer) → List ℕ × List (ℕ × String)
  | [] => ([], [])
  | (plugin, answer) :: rest =>
      let (calls, errors) := finishLoop rest
      match answer with
      | .missing => (calls, errors)
      | .ended => (plugin :: calls, errors)
      | .raised error => (plugin :: calls, (plugin, error) :: errors)

/-- `finish_lifecycle`. -/
def finishLifecycle (strict : Bool) (receipt : List ℕ) (answer : ℕ → EndAnswer) : Finished :=
  let (calls, errors) := finishLoop (receipt.zipIdx.map fun e ↦ (e.1, answer e.2))
  ⟨calls, errors, strict && !errors.isEmpty⟩

end Blackbase.Plugin.Lifecycle

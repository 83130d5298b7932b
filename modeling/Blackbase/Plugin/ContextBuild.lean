import Blackbase.Core.OrderedDict

/-!
# Building a context

`PluginManager.dispatch` of `plugin/base.py` for `on_context_build`: every handler is given the
current context, and may change it in place, or return another one.  The keys that it changed are
found by comparing a copy made before with the context after, and they are attributed to it.

A context holds objects, whose contents are in a heap; a content is all that is reachable from an
object.  What `copy.deepcopy` makes of an object and how two objects compare is a parameter.
-/

namespace Blackbase.Plugin.ContextBuild

universe u

/-- A context: the object at every key. -/
abbrev Context := OrderedDict ℕ

/-- What `copy.deepcopy` makes of an object: it raises, or gives the object itself or a new one. -/
inductive Copy (C : Type u) where
  | raises
  | itself
  | fresh (content : C)

/-- How objects are copied, by their content, and how they compare.  `a != b` is `none` where it
raises or is no `bool`. -/
structure Comparison (C : Type u) where
  deepcopy : C → Copy C
  neq : C → C → Option Bool

/-- How a handler ends: it returns a `dict`, or anything else, or raises. -/
inductive Outcome where
  | returned (context : Context)
  | other
  | raised

/-- What a handler leaves: the contents of the objects, the context it was given, and its end. -/
structure Effect (C : Type u) where
  heap : ℕ → C
  context : Context
  outcome : Outcome

/-- A plugin in the loop.  It may have no handler that can be called. -/
structure Visit (C : Type u) where
  name : String
  enabled : Bool
  attachFailed : Bool
  handler : Option (Effect C)

/-- The locals of `dispatch`, and the contents of the objects. -/
structure State (C : Type u) where
  heap : ℕ → C
  currentContext : Context
  contextWriters : OrderedDict String

/-- A value of `before_ctx`: an object of the context, or a copy. -/
inductive Before (C : Type u) where
  | same (object : ℕ)
  | copied (content : C)

section Dispatch

variable {C : Type u} (P : Comparison C)

/-- The copy of an object in `before_ctx`. -/
def Before.ofCopy (object : ℕ) : Copy C → Before C
  | .raises => .same object
  | .itself => .same object
  | .fresh content => .copied content

/-- `copy.deepcopy` of an object raises. -/
def Copy.fails : Copy C → Bool
  | raises => true
  | _ => false

/-- `before_ctx`: a deep copy of the context, or a shallow one where that raises. -/
def State.beforeContext (s : State C) : OrderedDict (Before C) :=
  if s.currentContext.entries.any fun e ↦ (P.deepcopy (s.heap e.2)).fails then
    s.currentContext.map .same
  else s.currentContext.map fun object ↦ .ofCopy object (P.deepcopy (s.heap object))

/-- `_safe_values_differ`, once the handler is done. -/
def safeValuesDiffer (heap : ℕ → C) : Before C → ℕ → Bool
  | .same a, b => if a = b then false else (P.neq (heap a) (heap b)).getD true
  | .copied content, b => (P.neq content (heap b)).getD true

/-- The keys of a dictionary. -/
def keysOf {α : Type u} (d : OrderedDict α) : List String := d.entries.map Prod.fst

/-- `_collect_changed_keys`. -/
def collectChangedKeys (heap : ℕ → C) (before : OrderedDict (Before C)) (after : Context) :
    List String :=
  (keysOf before ++ after.entries.map Prod.fst).filter fun key ↦
    match before.get? key, after.get? key with
    | some a, some b => safeValuesDiffer P heap a b
    | _, _ => true

/-- What a plugin's changes are attributed to. -/
def source (name : String) : String := "plugin." ++ name

/-- The context after a handler that has not raised. -/
def Effect.after (e : Effect C) : Context :=
  match e.outcome with
  | .returned context => context
  | _ => e.context

/-- The handler that is called: the plugin is enabled, and it was attached. -/
def Visit.called (v : Visit C) : Option (Effect C) :=
  if v.enabled && !v.attachFailed then v.handler else none

/-- One turn of the loop; in strict mode an exception leaves it. -/
def visit (strict : Bool) (s : State C) (v : Visit C) : Option (State C) :=
  match v.called with
  | none => some s
  | some e =>
      match e.outcome with
      | .raised =>
          if strict then none
          else some { s with heap := e.heap, currentContext := e.context }
      | _ =>
          let changed := collectChangedKeys P e.heap (s.beforeContext P) e.after
          some {
            heap := e.heap
            currentContext := e.after
            contextWriters := changed.foldl (fun d key ↦ d.insert key (source v.name))
              s.contextWriters }

/-- The loop over the plugins. -/
def visitAll (strict : Bool) : State C → List (Visit C) → Option (State C)
  | s, [] => some s
  | s, v :: rest => (visit P strict s v).bind fun t ↦ visitAll strict t rest

/-- `dispatch("on_context_build", context)`, and what it leaves in `_context_build_writers`. -/
def dispatch (strict : Bool) (heap : ℕ → C) (context : Context) (visits : List (Visit C)) :
    Option (State C) :=
  visitAll P strict ⟨heap, context, ∅⟩ visits

end Dispatch

end Blackbase.Plugin.ContextBuild

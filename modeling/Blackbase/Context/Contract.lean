import Blackbase.Context.ContextKeys
import Blackbase.Core.Selection
import Blackbase.Project.Envelope.Reading

/-!
# Context contracts

The `ContextContract` of `context/context_contracts.py` and the two ways of declaring one: a
component hands out the contract itself, or the mapping that `to_dict` makes of it.

The mapping path of `get_component_contract` reads neither the name nor `optional` nor the metrics,
and it rewrites the notes.
-/

namespace Blackbase.Context.Contracts

open Project.Envelope (PyValue Payload Raised Runtime payload)

/-- The fields of a contract that are lists of keys. -/
inductive Field where
  | requires
  | optional
  | provides
  | mutates
  | cache
  | artifactRequires
  | artifactProvides
  | phaseIn
  | phaseOut
deriving DecidableEq

namespace Field

/-- The name of a field. -/
def name : Field → String
  | requires => "requires"
  | optional => "optional"
  | provides => "provides"
  | mutates => "mutates"
  | cache => "cache"
  | artifactRequires => "artifact_requires"
  | artifactProvides => "artifact_provides"
  | phaseIn => "phase_in"
  | phaseOut => "phase_out"

/-- The fields, in the order in which `to_dict` lists them. -/
def all : List Field :=
  [requires, optional, provides, mutates, cache, artifactRequires, artifactProvides, phaseIn,
    phaseOut]

end Field

/-! ## Normalizing -/

section Normalizing

variable (F : Text.CaseFolding) (R : Runtime)

/-- Texts, as the items of a sequence. -/
def texts (l : List String) : List PyValue := l.map .text

/-- `text or None`. -/
def textOrNone (text : String) : Option String := if text = "" then none else some text

/-- What `_normalize_fields` makes of one item. -/
def normalizeField : PyValue → Option String
  | .none => none
  | item => textOrNone (normalizeContextKey F (R.strOf item))

/-- `sorted(set(l))`. -/
def sortedSet (l : List String) : List String := Selection.sorted id l.dedup

/-- `_normalize_fields`. -/
def normalizeFields (items : List PyValue) : List String :=
  sortedSet (items.filterMap (normalizeField F R))

mutual

/-- `_normalize_notes`. -/
def normalizeNotes : PyValue → Option String
  | .none => none
  | .text s => textOrNone (Text.strip s)
  | .mapping entries => textOrNone ("; ".intercalate (notedEntries entries))
  | .list items => textOrNone ("; ".intercalate (notedItems items))
  | .tuple items => textOrNone ("; ".intercalate (notedItems items))
  | value => textOrNone (Text.strip (R.strOf value))

/-- The parts of the notes of a mapping. -/
def notedEntries : Payload → List String
  | [] => []
  | (key, value) :: rest =>
      let key := Text.strip key.str
      match normalizeNotes value with
      | some note => if key = "" then notedEntries rest else s!"{key}: {note}" :: notedEntries rest
      | none => notedEntries rest

/-- The parts of the notes of a sequence. -/
def notedItems : List PyValue → List String
  | [] => []
  | value :: rest =>
      match normalizeNotes value with
      | some note => note :: notedItems rest
      | none => notedItems rest

end

/-- `_merge_notes`. -/
def mergeNotes (values : List PyValue) : PyValue :=
  match (values.filterMap (normalizeNotes R)).eraseDups with
  | [] => .none
  | uniq => .text (" | ".intercalate uniq)

end Normalizing

/-! ## Contracts -/

/-- `ContextContract`. -/
structure ContextContract where
  name : String
  keys : Field → List PyValue
  notes : PyValue
  requiresMetrics : List String
  metricsFallback : String
  metadata : Payload

namespace ContextContract

variable (F : Text.CaseFolding) (R : Runtime)

/-- The constructor. -/
def make (name : String) (keys : Field → List PyValue) (notes : PyValue)
    (requiresMetrics : List PyValue) (metricsFallback : String) (metadata : Payload) :
    ContextContract where
  name := name
  keys := keys
  notes := notes
  requiresMetrics := requiresMetrics.map R.strOf
  metricsFallback := if metricsFallback = "" then "strict" else metricsFallback
  metadata := metadata

/-- `normalized`. -/
def normalized (c : ContextContract) : ContextContract :=
  make R c.name (fun field ↦ texts (normalizeFields F R (c.keys field))) c.notes
    (texts (normalizeFields F R (texts c.requiresMetrics))) c.metricsFallback c.metadata

/-- `to_dict`. -/
def toDict (c : ContextContract) : Payload :=
  let norm := c.normalized F R
  payload ([("name", .text norm.name)] ++
    Field.all.map (fun field ↦ (field.name, .list (norm.keys field))) ++
    [("notes", norm.notes), ("requires_metrics", .list (texts norm.requiresMetrics)),
      ("metrics_fallback", .text norm.metricsFallback), ("metadata", .mapping norm.metadata)])

/-- `{**a, **b}`. -/
def updated (a b : Payload) : Payload :=
  a.map (fun e ↦ (e.1, (b.lookup e.1).getD e.2)) ++ b.filter fun e ↦ (a.lookup e.1).isNone

/-- `merge`. -/
def merge (self other : ContextContract) : ContextContract :=
  let a := self.normalized F R
  let b := other.normalized F R
  make R (if b.name = "" then a.name else b.name)
    (fun field ↦ texts (sortedSet ((a.keys field).map R.strOf ++ (b.keys field).map R.strOf)))
    (mergeNotes R [a.notes, b.notes])
    (texts (sortedSet (a.requiresMetrics ++ b.requiresMetrics)))
    (if b.metricsFallback = "strict" then a.metricsFallback else b.metricsFallback)
    (updated a.metadata b.metadata)

end ContextContract

/-! ## Components -/

/-- What calling `get_context_contract` of a component gives. -/
inductive Declared where
  /-- The component has no such method. -/
  | absent
  | raised
  | contract (c : ContextContract)
  | mapping (value : Payload)
  | other

/-- A component: what its method gives, and `getattr(obj, name, None)`. -/
structure Component where
  declared : Declared
  getattr : String → PyValue

section Components

variable (F : Text.CaseFolding) (R : Runtime)

/-- `list(value.get(key, ()) or ())`. -/
def listed (value : Payload) (key : String) : Except Raised (List PyValue) :=
  R.itemsOf ((value.get key (.tuple [])).orElse (.tuple []))

/-- `list(value.get(key, ()) or ()) + list(value.get("context_" + key, ()) or ())`. -/
def listedTwice (value : Payload) (key : String) : Except Raised (List PyValue) := do
  let items ← listed R value key
  let more ← listed R value ("context_" ++ key)
  return items ++ more

/-- The contract that is read in a mapping. -/
def contractOfMapping (value : Payload) : Except Raised ContextContract := do
  let notes := mergeNotes R [value.get "notes" .none, value.get "context_notes" .none,
    value.get "recommended_mutators" .none, value.get "recommended_plugins" .none,
    value.get "companions" .none, value.get "recommended_suite" .none]
  let requires ← listedTwice R value "requires"
  let provides ← listedTwice R value "provides"
  let mutates ← listedTwice R value "mutates"
  let cache ← listedTwice R value "cache"
  let artifactRequires ← listed R value "artifact_requires"
  let artifactProvides ← listed R value "artifact_provides"
  let phaseIn ← listed R value "phase_in"
  let phaseOut ← listed R value "phase_out"
  let metadata ← R.dictOrEmpty (value.get "metadata" (.mapping []))
  let keys : Field → List PyValue
    | .requires => requires
    | .optional => []
    | .provides => provides
    | .mutates => mutates
    | .cache => cache
    | .artifactRequires => artifactRequires
    | .artifactProvides => artifactProvides
    | .phaseIn => phaseIn
    | .phaseOut => phaseOut
  return (ContextContract.make R "" keys notes [] "strict" metadata).normalized F R

/-- The attributes that a field is collected from. -/
def Field.attrs : Field → List String
  | .requires => ["context_requires", "requires"]
  | .optional => []
  | .provides => ["context_provides", "provides"]
  | .mutates => ["context_mutates", "mutates"]
  | .cache => ["context_cache", "cache"]
  | .artifactRequires => ["artifact_requires"]
  | .artifactProvides => ["artifact_provides"]
  | .phaseIn => ["phase_in"]
  | .phaseOut => ["phase_out"]

/-- `_NOTES_ATTRS`. -/
def notesAttrs : List String :=
  ["context_notes", "recommended_mutators", "recommended_plugins", "companions",
    "recommended_suite"]

/-- `_collect_attrs`. -/
def collectAttrs (obj : Component) (names : List String) : List PyValue :=
  (names.map obj.getattr).filter fun
    | .none => false
    | _ => true

/-- `_flatten_values`. -/
def flattenValues (values : List PyValue) : List PyValue :=
  values.flatMap fun
    | .none => []
    | .list items => items
    | .tuple items => items
    | value => [value]

/-- The contract that is collected from the attributes of a component. -/
def contractOfAttrs (obj : Component) : Option ContextContract :=
  let values (field : Field) := collectAttrs obj field.attrs
  let notes := mergeNotes R (collectAttrs obj notesAttrs)
  if Field.all.any (fun field ↦ !(values field).isEmpty) || notes.truthy then
    some ((ContextContract.make R "" (fun field ↦ flattenValues (values field)) notes []
      "strict" []).normalized F R)
  else none

/-- `get_component_contract`. -/
def getComponentContract : Option Component → Except Raised (Option ContextContract)
  | none => .ok none
  | some obj =>
      match obj.declared with
      | .contract c => .ok (some (c.normalized F R))
      | .mapping value => (contractOfMapping F R value).map some
      | .absent | .raised | .other => .ok (contractOfAttrs F R obj)

end Components

end Blackbase.Context.Contracts

import Blackbase.Core.Attempt
import Blackbase.Core.OrderedDict
import Blackbase.Core.Text
import Blackbase.Core.Toml.Blocks

/-!
# Catalog entries and their TOML

The records of a catalog, the writer of `[[entry]]` blocks and the loader of the files it writes.
The writer quotes its texts with the rules of JSON; the loader reads TOML and then strips, fills
and resolves what it has read.

Texts are texts of Unicode scalar values.  What Python does with floats, with the case of letters
and with paths is a parameter.
-/

namespace Blackbase.Catalog

open Toml (Value Table)

/-- A value of a contract or of metadata.  The keys of a mapping are given by their texts, and
keys of different types may have the same text. -/
inductive CatalogValue (F : Type) where
  | none
  | text (s : String)
  | bool (b : Bool)
  | int (n : ℤ)
  | float (x : F)
  | list (items : List (CatalogValue F))
  | tuple (items : List (CatalogValue F))
  | mapping (items : List (String × CatalogValue F))
  | other (typeName : String)

/-- The items of a mapping. -/
abbrev Items (F : Type) := List (String × CatalogValue F)

inductive LoadError where
  | decode
  | noRecords
  | notMapping (index : ℕ)
  | required (index : ℕ)
  | emptyKey
  | emptyImportPath
  | conversion
  | path
deriving DecidableEq

inductive RenderError where
  | notUnique
  | cannotEncode (typeName : String)
  | tooManyDigits
deriving DecidableEq

/-- What the catalog takes from Python: floats with their texts, lower-casing, the `str` and the
`dict` of values of a kind that the writer does not put there, and `Path.resolve` in the directory
of the file. -/
structure Runtime (F : Type) where
  isNan : F → Bool
  isInf : F → Bool
  isPositive : F → Bool
  isZero : F → Bool
  repr : F → String
  parseFloat : String → F
  lower : String → String
  strOf : Value F → String
  dictOf : Value F → Except LoadError (Table F)
  resolve : String → Except LoadError String
  /-- `repr` writes digits with a fraction or an exponent. -/
  isFloat_repr : ∀ x, isNan x = false → isInf x = false → Toml.isFloat (repr x).toList
  parseFloat_repr : ∀ x, isNan x = false → isInf x = false → parseFloat (repr x) = x
  parseFloat_nan : ∀ x, isNan x → parseFloat "nan" = x
  parseFloat_inf : ∀ x, isNan x = false → isInf x → isPositive x → parseFloat "+inf" = x
  parseFloat_negInf : ∀ x, isNan x = false → isInf x → isPositive x = false →
    parseFloat "-inf" = x
  /-- Lower case has no white space at its ends that was not there, and stays lower case. -/
  lower_lower : ∀ s, lower (Text.strip (lower (Text.strip s))) = lower (Text.strip s)

/-! ## Entries -/

/-- The fields that hold a tuple of texts. -/
inductive TextField where
  | tags
  | companions
  | contextRequires
  | contextProvides
  | contextMutates
  | contextCache
  | contextNotes
  | artifactRequires
  | artifactProvides
  | phaseIn
  | phaseOut
  | useWhen
  | minimalWiring
  | requiredCompanions
  | configKeys
deriving DecidableEq

def TextField.name : TextField → String
  | tags => "tags"
  | companions => "companions"
  | contextRequires => "context_requires"
  | contextProvides => "context_provides"
  | contextMutates => "context_mutates"
  | contextCache => "context_cache"
  | contextNotes => "context_notes"
  | artifactRequires => "artifact_requires"
  | artifactProvides => "artifact_provides"
  | phaseIn => "phase_in"
  | phaseOut => "phase_out"
  | useWhen => "use_when"
  | minimalWiring => "minimal_wiring"
  | requiredCompanions => "required_companions"
  | configKeys => "config_keys"

/-- What `CatalogEntry` is called with. -/
structure Fields (F : Type) where
  key : String
  title : String
  kind : String
  importPath : String
  summary : String
  exampleEntry : String
  detailRef : String
  texts : TextField → List String
  contract : Items F
  metadata : Items F

variable {F : Type}

/-- An entry of a catalog, with what its constructor checks and normalises. -/
structure CatalogEntry (R : Runtime F) extends Fields F where
  key_strip : Text.strip key = key
  key_ne : key ≠ ""
  title_ne : title ≠ ""
  kind_lower : R.lower (Text.strip kind) = kind
  importPath_strip : Text.strip importPath = importPath
  importPath_ne : importPath ≠ ""

variable (R : Runtime F)

/-- `CatalogEntry(...)`. -/
def CatalogEntry.make (f : Fields F) : Except LoadError (CatalogEntry R) :=
  let key := Text.strip f.key
  let importPath := Text.strip f.importPath
  if hkey : key = "" then .error .emptyKey
  else if hpath : importPath = "" then .error .emptyImportPath
  else .ok {
    f with
    key := key
    title := if f.title = "" then key else f.title
    kind := R.lower (Text.strip (if f.kind = "" then "component" else f.kind))
    importPath := importPath
    key_strip := Text.strip_strip _
    key_ne := hkey
    title_ne := by
      split
      · exact hkey
      · next h => exact h
    kind_lower := R.lower_lower _
    importPath_strip := Text.strip_strip _
    importPath_ne := hpath }

variable {R} in
/-- `as_dict`, in the order in which the fields are written. -/
def CatalogEntry.asDict (e : CatalogEntry R) : Items F :=
  let tuple (f : TextField) : String × CatalogValue F := (f.name, .list ((e.texts f).map .text))
  [("key", .text e.key), ("title", .text e.title), ("kind", .text e.kind),
    ("import_path", .text e.importPath), tuple .tags, ("summary", .text e.summary),
    tuple .companions, tuple .contextRequires, tuple .contextProvides, tuple .contextMutates,
    tuple .contextCache, tuple .contextNotes, tuple .artifactRequires, tuple .artifactProvides,
    tuple .phaseIn, tuple .phaseOut, tuple .useWhen, tuple .minimalWiring,
    tuple .requiredCompanions, tuple .configKeys, ("example_entry", .text e.exampleEntry),
    ("detail_ref", .text e.detailRef), ("contract", .mapping e.contract),
    ("metadata", .mapping e.metadata)]

/-! ## The writer -/

namespace CatalogValue

mutual

/-- `_without_none`. -/
def withoutNone : CatalogValue F → CatalogValue F
  | .mapping items => .mapping (OrderedDict.ofList (withoutNonePairs items)).entries
  | .tuple items => .tuple (withoutNoneItems items)
  | .list items => .list (withoutNoneItems items)
  | v => v

def withoutNoneItems : List (CatalogValue F) → List (CatalogValue F)
  | [] => []
  | .none :: rest => withoutNoneItems rest
  | v :: rest => v.withoutNone :: withoutNoneItems rest

def withoutNonePairs : List (String × CatalogValue F) → List (String × CatalogValue F)
  | [] => []
  | (_, .none) :: rest => withoutNonePairs rest
  | (k, v) :: rest => (k, v.withoutNone) :: withoutNonePairs rest

end

mutual

/-- The value with the items of its mappings in the order of their keys. -/
def sorted : CatalogValue F → CatalogValue F
  | .mapping items => .mapping ((sortedPairs items).mergeSort fun e e' ↦ e.1 ≤ e'.1)
  | .tuple items => .tuple (sortedItems items)
  | .list items => .list (sortedItems items)
  | v => v

def sortedItems : List (CatalogValue F) → List (CatalogValue F)
  | [] => []
  | v :: rest => v.sorted :: sortedItems rest

def sortedPairs : List (String × CatalogValue F) → List (String × CatalogValue F)
  | [] => []
  | (k, v) :: rest => (k, v.sorted) :: sortedPairs rest

end

/-- `not value`, of the values that a field has. -/
def isEmpty : CatalogValue F → Bool
  | .text s => s == ""
  | .list items => items.isEmpty
  | .mapping items => items.isEmpty
  | _ => false

end CatalogValue

/-- `json.dumps(value, ensure_ascii=False)` of a text. -/
def jsonDumps (s : String) : List Char := Toml.quote s

/-- The text of a float. -/
def floatText (x : F) : String :=
  if R.isNan x then "nan"
  else if R.isInf x then if R.isPositive x then "+inf" else "-inf"
  else R.repr x

/-- `str(value)` of an integer, which is refused when it has too many digits. -/
def intText (n : ℤ) : Except RenderError (List Char) :=
  if (Nat.toDigits 10 n.natAbs).length ≤ Toml.digitLimit then .ok (Toml.integerText n)
  else .error .tooManyDigits

mutual

/-- `_toml_value` of a value whose mappings are sorted. -/
def writeValue : CatalogValue F → Except RenderError (List Char)
  | .text s => .ok (jsonDumps s)
  | .bool true => .ok ['t', 'r', 'u', 'e']
  | .bool false => .ok ['f', 'a', 'l', 's', 'e']
  | .int n => intText n
  | .float x => .ok (floatText R x).toList
  | .mapping items => do
      let parts ← writePairs items
      .ok ('{' :: ' ' :: (Toml.joinWith [',', ' '] parts ++ [' ', '}']))
  | .list items => do
      let parts ← writeItems items
      .ok ('[' :: (Toml.joinWith [',', ' '] parts ++ [']']))
  | .tuple items => do
      let parts ← writeItems items
      .ok ('[' :: (Toml.joinWith [',', ' '] parts ++ [']']))
  | .none => .error (.cannotEncode "NoneType")
  | .other typeName => .error (.cannotEncode typeName)

def writeItems : List (CatalogValue F) → Except RenderError (List (List Char))
  | [] => .ok []
  | v :: rest => do
      let t ← writeValue v
      let ts ← writeItems rest
      .ok (t :: ts)

def writePairs : List (String × CatalogValue F) → Except RenderError (List (List Char))
  | [] => .ok []
  | (k, v) :: rest => do
      let t ← writeValue v
      let ts ← writePairs rest
      .ok ((jsonDumps k ++ ([' ', '=', ' '] ++ t)) :: ts)

end

/-- `_toml_value`, which sorts the items of every mapping that it writes. -/
def tomlValue (v : CatalogValue F) : Except RenderError (List Char) := writeValue R v.sorted

/-- The names of the fields that are always written. -/
def always : List String := ["key", "title", "kind", "import_path"]

variable {R} in
/-- The fields that are written, with what is written of them. -/
def CatalogEntry.written (e : CatalogEntry R) : Items F :=
  (e.asDict.map fun p ↦ (p.1, p.2.withoutNone)).filter fun p ↦
    p.1 ∈ always || !p.2.isEmpty

def fieldLine (p : String × CatalogValue F) : Except RenderError (List Char) := do
  let t ← tomlValue R p.2
  .ok (p.1.toList ++ ([' ', '=', ' '] ++ t))

variable {R} in
def CatalogEntry.renderBlock (e : CatalogEntry R) : Except RenderError (List Char) := do
  let lines ← e.written.mapM (fieldLine R)
  .ok (Toml.joinWith ['\n'] ("[[entry]]".toList :: lines))

variable {R} in
/-- `sorted(values, key=lambda item: item.key)`. -/
def sortedEntries (es : List (CatalogEntry R)) : List (CatalogEntry R) :=
  es.mergeSort fun e e' ↦ e.key ≤ e'.key

variable {R} in
/-- `render_catalog_toml`. -/
def renderCatalogToml (es : List (CatalogEntry R)) : Except RenderError String :=
  if (es.map fun e ↦ e.key).Nodup then do
    let blocks ← (sortedEntries es).mapM CatalogEntry.renderBlock
    .ok (String.ofList (Toml.joinWith ['\n', '\n'] blocks ++ if blocks = [] then [] else ['\n']))
  else .error .notUnique

/-! ## The loader -/

mutual

/-- A value as the loader returns it. -/
def ofToml : Value F → CatalogValue F
  | .string s => .text s
  | .boolean b => .bool b
  | .integer n => .int n
  | .float x => .float x
  | .array items => .list (ofTomlItems items)
  | .table items => .mapping (ofTomlPairs items)

def ofTomlItems : List (Value F) → List (CatalogValue F)
  | [] => []
  | v :: rest => ofToml v :: ofTomlItems rest

def ofTomlPairs : List (String × Value F) → List (String × CatalogValue F)
  | [] => []
  | (k, v) :: rest => (k, ofToml v) :: ofTomlPairs rest

end

/-- `not value`. -/
def isFalse : Value F → Bool
  | .string s => s == ""
  | .boolean b => !b
  | .integer n => n == 0
  | .float x => R.isZero x
  | .array items => items.isEmpty
  | .table items => items.isEmpty

/-- `str(value)`. -/
def str : Value F → String
  | .string s => s
  | v => R.strOf v

/-- `str(item.get(name, default))`. -/
def textAt (item : Table F) (name default : String) : String :=
  ((item.lookup name).map (str R)).getD default

/-- `_string_tuple`. -/
def stringTuple : Option (Value F) → List String
  | none => []
  | some (.table items) => (items.map fun e ↦ Text.strip e.1).filter (· ≠ "")
  | some (.array items) => (items.map fun v ↦ Text.strip (str R v)).filter (· ≠ "")
  | some v => [Text.strip (str R v)].filter (· ≠ "")

/-- `dict(item.get(name, {}) or {})`. -/
def dictAt (item : Table F) (name : String) : Except LoadError (Items F) :=
  match item.lookup name with
  | none => .ok []
  | some (.table items) => .ok (ofTomlPairs items)
  | some v => if isFalse R v then .ok [] else (R.dictOf v).map ofTomlPairs

/-- The reference to details, before it is resolved. -/
def detailText (item : Table F) : String :=
  match (item.lookup "detail_ref").or (item.lookup "details_file") with
  | none => ""
  | some v => if isFalse R v then "" else Text.strip (str R v)

/-- `str((source.parent / detail_ref).resolve())`, unless there is no reference. -/
def resolvedDetail (item : Table F) : Except LoadError String :=
  if detailText R item = "" then .ok "" else R.resolve (detailText R item)

/-- The entry of one record. -/
def loadEntry (index : ℕ) (raw : Value F) : Except LoadError (CatalogEntry R) :=
  match raw with
  | .table item => do
    let key := Text.strip (textAt R item "key" "")
    let kind := R.lower (Text.strip (textAt R item "kind" ""))
    let importPath := Text.strip (textAt R item "import_path" "")
    if key = "" ∨ kind = "" ∨ importPath = "" then throw (.required index)
    let detailRef ← resolvedDetail R item
    let contract ← dictAt R item "contract"
    let metadata ← dictAt R item "metadata"
    CatalogEntry.make R {
      key := key
      title := Text.strip (textAt R item "title" key)
      kind := kind
      importPath := importPath
      summary := Text.strip (textAt R item "summary" "")
      exampleEntry := Text.strip (textAt R item "example_entry" "")
      detailRef := detailRef
      texts := fun f ↦ stringTuple R (item.lookup f.name)
      contract := contract
      metadata := metadata }
  | _ => throw (.notMapping index)

/-- `load_catalog_toml` of a file with this text. -/
def loadCatalogToml (text : String) : Except LoadError (List (CatalogEntry R)) :=
  match Toml.loads R.parseFloat text with
  | none => .error .decode
  | some payload =>
    match payload.lookup "entry" with
    | some (.array rows) => rows.zipIdx.mapM fun r ↦ loadEntry R r.2 r.1
    | _ => .error .noRecords

end Blackbase.Catalog

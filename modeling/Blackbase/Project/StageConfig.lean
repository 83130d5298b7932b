import Blackbase.Core.Text

/-!
# Stage configuration

What a Project file can put into a Stage mapping, and the functions that read a Stage:
`_case_mapping` and `_stage_fail_fast` of `project/project_runner.py`, `load_case_kind` of
`project/runtime.py` and `_transport_safe` of `project/execution.py`.
-/

namespace Blackbase.Project

/-- A key of a mapping: its `str`, and whether it is a text. -/
structure ConfigKey where
  text : String
  isText : Bool
deriving DecidableEq

/-- A value of a Stage.  An `atom` is anything else than a text, a list or tuple, or a mapping: its
`str`, its truth value, and whether the wire takes it as it is.  A container has its `str` too. -/
inductive ConfigValue where
  | none
  | text (s : String)
  | atom (repr : String) (truthy safe : Bool)
  | seq (repr : String) (items : List ConfigValue)
  | mapping (repr : String) (items : List (ConfigKey × ConfigValue))

/-- What reading a Stage can raise. -/
inductive ConfigError where
  | fieldNotMapping (field : String)
  | caseFieldNotMapping (field caseName : String)
  | notTransportSafe (path : String)
  | notDictionary
deriving DecidableEq

/-- The text of the exception. -/
def ConfigError.message : ConfigError → String
  | fieldNotMapping field => s!"Stage field '{field}' must be a mapping"
  | caseFieldNotMapping field caseName => s!"Stage field '{field}.{caseName}' must be a mapping"
  | notTransportSafe path => s!"Case protocol field '{path}' is not transport-safe"
  | notDictionary => "cannot convert to a dictionary"

namespace ConfigValue

/-- `str(value)`. -/
def str : ConfigValue → String
  | none => "None"
  | text s | atom s _ _ | seq s _ | mapping s _ => s

/-- `bool(value)`. -/
def truthy : ConfigValue → Bool
  | none => false
  | text s => s ≠ ""
  | atom _ t _ => t
  | seq _ items => !items.isEmpty
  | mapping _ items => !items.isEmpty

/-- `value or default`. -/
def orElse (v d : ConfigValue) : ConfigValue := if v.truthy then v else d

/-- `{}`. -/
def emptyMapping : ConfigValue := mapping "{}" []

/-- `()`. -/
def emptySeq : ConfigValue := seq "()" []

/-- A value that a dictionary takes as a key. -/
def asKey : ConfigValue → Except ConfigError ConfigKey
  | none => .ok ⟨"None", false⟩
  | text s => .ok ⟨s, true⟩
  | atom s _ _ => .ok ⟨s, false⟩
  | _ => .error .notDictionary

/-- An entry of a sequence that becomes an entry of a dictionary. -/
def asPair : ConfigValue → Except ConfigError (ConfigKey × ConfigValue)
  | seq _ [k, v] => do return (← k.asKey, v)
  | text s =>
      match s.toList with
      | [k, v] => .ok (⟨k.toString, true⟩, text v.toString)
      | _ => .error .notDictionary
  | _ => .error .notDictionary

/-- `dict(value)`.  Of two pairs with one key the later is found. -/
def toDict : ConfigValue → Except ConfigError (List (ConfigKey × ConfigValue))
  | mapping _ items => .ok items
  | seq _ items => do return (← items.mapM asPair).reverse
  | text "" => .ok []
  | _ => .error .notDictionary

end ConfigValue

/-- `items.get(name)`. -/
def lookupText (items : List (ConfigKey × ConfigValue)) (name : String) : Option ConfigValue :=
  items.lookup ⟨name, true⟩

mutual

/-- `_transport_safe`. -/
def transportSafe (path : String) : ConfigValue → Except ConfigError ConfigValue
  | .none => .ok .none
  | .text s => .ok (.text s)
  | .atom r t safe => if safe then .ok (.atom r t safe) else .error (.notTransportSafe path)
  | .seq r items => do return .seq r (← transportSafeSeq path items)
  | .mapping r items => do return .mapping r (← transportSafeItems path items)

def transportSafeSeq (path : String) : List ConfigValue → Except ConfigError (List ConfigValue)
  | [] => .ok []
  | v :: rest => do return (← transportSafe (path ++ "[]") v) :: (← transportSafeSeq path rest)

/-- Of two keys with one `str` the first keeps its place and the last its value. -/
def transportSafeItems (path : String) :
    List (ConfigKey × ConfigValue) → Except ConfigError (List (ConfigKey × ConfigValue))
  | [] => .ok []
  | (k, v) :: rest => do
      let w ← transportSafe (path ++ "." ++ k.text) v
      let others ← transportSafeItems path rest
      let key : ConfigKey := ⟨k.text, true⟩
      return (key, (others.lookup key).getD w) :: others.filter (·.1 ≠ key)

end

/-! ## Stages -/

/-- A Stage: the entries the DAG executor reads, each of which may be missing. -/
structure Stage where
  name : Option ConfigValue := none
  cases : Option ConfigValue := none
  dependsOn : Option ConfigValue := none
  inputArtifacts : Option ConfigValue := none
  componentOverrides : Option ConfigValue := none
  caseKinds : Option ConfigValue := none
  kinds : Option ConfigValue := none
  caseModes : Option ConfigValue := none
  mode : Option ConfigValue := none
  failurePolicy : Option ConfigValue := none

/-- `_case_mapping`: what a field of the Stage says about one Case. -/
def caseMapping (field : String) (values : Option ConfigValue) (caseName : String) :
    Except ConfigError (List (ConfigKey × ConfigValue)) :=
  match values.getD .emptyMapping with
  | .mapping _ items =>
      match (lookupText items caseName).getD .emptyMapping with
      | .none => .ok []
      | .mapping _ selected => .ok selected
      | _ => .error (.caseFieldNotMapping field caseName)
  | _ => .error (.fieldNotMapping field)

/-- `_stage_fail_fast`. -/
def Stage.failFast (stage : Stage) : Bool :=
  let policy := ((stage.failurePolicy.getD (.text "fail_fast")).orElse (.text "fail_fast")).str
  Text.lower (Text.strip policy) ∉ ["continue", "continue_on_error"]

/-! ## Case kinds -/

/-- The characters at which `splitlines` breaks a text. -/
def isLineBreak (c : Char) : Bool :=
  c.toNat ∈ [0x0a, 0x0b, 0x0c, 0x0d, 0x1c, 0x1d, 0x1e, 0x85, 0x2028, 0x2029]

/-- `s.strip(c)`. -/
def stripChar (c : Char) (s : List Char) : List Char :=
  ((s.dropWhile (· = c)).reverse.dropWhile (· = c)).reverse

/-- `_normalize_case_kind`. -/
def normalizeCaseKind (kind : String) : String :=
  let value := Text.lower (Text.strip kind)
  if value ∈ ["solver", "trainer"] then value else "solver"

/-- The value of a line `kind = …` of a marker. -/
def markerKind (line : List Char) : Option String :=
  let line := (Text.strip (.ofList line)).toList
  if line.head? = some '#' ∨ '=' ∉ line then none
  else
    let key := String.ofList (line.takeWhile (· ≠ '='))
    let value := String.ofList (line.dropWhile (· ≠ '=')).tail
    if Text.lower (Text.strip key) = "kind" then
      some (.ofList (stripChar '\'' (stripChar '"' (Text.strip value).toList)))
    else none

/-- `_read_case_marker_kind`, on the text of the marker. -/
def readCaseMarkerKind (marker : String) : Option String :=
  ((marker.toList.splitOnP isLineBreak).findSome? markerKind).bind fun kind ↦
    if kind = "" then none else some (normalizeCaseKind kind)

/-- `load_case_kind`.  `markers` gives the text of the `.case` file of a Case that has one. -/
def loadCaseKind (stage : Stage) (markers : String → Option String) (caseName : String) :
    Except ConfigError String := do
  let kinds ← (((stage.caseKinds.or stage.kinds).getD .emptyMapping).orElse .emptyMapping).toDict
  match lookupText kinds caseName with
  | some kind => return normalizeCaseKind (kind.orElse (.text "")).str
  | none =>
      match (markers caseName).bind readCaseMarkerKind with
      | some kind => return kind
      | none => return normalizeCaseKind "solver"

end Blackbase.Project

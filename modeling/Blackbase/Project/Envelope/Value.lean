import Blackbase.Core.OrderedDict
import Blackbase.Resources.Control.Model

/-!
# Values in the envelopes of Case runs

The Python values a caller may put into an envelope, what `_transport_safe` of
`project/execution.py` and `freeze_wire_value` and `thaw_wire_value` of `wire.py` make of them,
and the conversions with which `from_dict` reads a payload back.

A frozen value has tuples for its sequences and no repeated key; thawing turns its tuples into
lists, and freezing what was thawed gives it back.  What Python's own conversions do to a value
of another kind is a parameter, the `Runtime`.
-/

namespace Blackbase.Project.Envelope

/-! ## Floats -/

/-- A float.  A NaN is the object it is, and the two zeros are one value. -/
inductive PyFloat where
  | real (q : ℚ)
  | infinity (negative : Bool)
  | nan (object : ℕ)
deriving DecidableEq

namespace PyFloat

/-- `0.0`. -/
def zero : PyFloat := real 0

/-- `x < y`. -/
def lt : PyFloat → PyFloat → Bool
  | real p, real q => p < q
  | infinity negative, real _ => negative
  | real _, infinity negative => !negative
  | infinity negative, infinity negative' => negative && !negative'
  | _, _ => false

/-- `x <= 0`. -/
def nonPositive (x : PyFloat) : Bool := lt x zero || x = zero

/-- `bool(x)`. -/
def truthy (x : PyFloat) : Bool := x ≠ zero

/-- `x or y`. -/
def orElse (x y : PyFloat) : PyFloat := if x.truthy then x else y

/-- `max(0.0, x)`, which is its first argument unless the second one is greater. -/
def clamp (x : PyFloat) : PyFloat := if lt zero x then x else zero

/-- `x * 2`. -/
def twice : PyFloat → PyFloat
  | real q => real (q * 2)
  | x => x

@[simp] theorem lt_self_zero : lt zero zero = false := by decide

@[simp] theorem clamp_clamp (x : PyFloat) : x.clamp.clamp = x.clamp := by
  cases h : lt zero x <;> simp [clamp, h]

@[simp] theorem clamp_zero : clamp zero = zero := by simp [clamp]

@[simp] theorem orElse_zero (x : PyFloat) : x.orElse zero = x := by
  by_cases h : x = zero
  · simp [orElse, truthy, h]
  · simp [orElse, truthy, h]

theorem orElse_of_truthy {x : PyFloat} (h : x.truthy = true) (y : PyFloat) : x.orElse y = x :=
  if_pos h

end PyFloat

/-! ## Values -/

/-- A key of a mapping: a text, or another object and its `str`. -/
inductive PyKey where
  | text (s : String)
  | other (str : String)
deriving DecidableEq

/-- `str(key)`. -/
def PyKey.str : PyKey → String
  | text s => s
  | other s => s

/-- A Python value.  An array has a `tolist`, a record an `as_dict`; `type` is the name of the
type and `truth` the `bool` of such an object. -/
inductive PyValue where
  | none
  | bool (b : Bool)
  | int (n : ℤ)
  | float (x : PyFloat)
  | text (s : String)
  | path (s : String)
  | dataRef (asDict : PyValue)
  | list (items : List PyValue)
  | tuple (items : List PyValue)
  | mapping (entries : List (PyKey × PyValue))
  | array (type : String) (truth : Bool) (tolist : PyValue)
  | record (type : String) (truth : Bool) (asDict : PyValue)
  | other (type : String) (truth : Bool)

/-- An exception and its text. -/
inductive Raised where
  | valueError (text : String)
  | typeError (text : String)
  | attributeError (text : String)
  | unicodeError (text : String)
deriving DecidableEq

/-- The entries of a mapping. -/
abbrev Payload := List (PyKey × PyValue)

namespace PyValue

/-- `bool(v)`. -/
def truthy : PyValue → Bool
  | none => false
  | bool b => b
  | int n => n ≠ 0
  | float x => x.truthy
  | text s => s ≠ ""
  | list items => !items.isEmpty
  | tuple items => !items.isEmpty
  | mapping entries => !entries.isEmpty
  | array _ truth _ => truth
  | record _ truth _ => truth
  | other _ truth => truth
  | path _ => true
  | dataRef _ => true

/-- `v or w`. -/
def orElse (v w : PyValue) : PyValue := if v.truthy then v else w

/-- `type(v).__name__`. -/
def typeName : PyValue → String
  | none => "NoneType"
  | bool _ => "bool"
  | int _ => "int"
  | float _ => "float"
  | text _ => "str"
  | path _ => "PosixPath"
  | dataRef _ => "DataRef"
  | list _ => "list"
  | tuple _ => "tuple"
  | mapping _ => "dict"
  | array type _ _ => type
  | record type _ _ => type
  | other type _ => type

end PyValue

/-- The payload of a dictionary display with text keys. -/
def payload (fields : List (String × PyValue)) : Payload := fields.map fun e ↦ (.text e.1, e.2)

/-- A dictionary display with text keys. -/
def obj (fields : List (String × PyValue)) : PyValue := .mapping (payload fields)

/-- `{str(key): value for ...}`. -/
def textual (l : List (String × PyValue)) : PyValue := obj (OrderedDict.ofList l).entries

/-- `d.get(k, default)`. -/
def Payload.get (d : Payload) (k : String) (default : PyValue) : PyValue :=
  (d.lookup (.text k)).getD default

@[simp] theorem get_payload_nil (k : String) (default : PyValue) :
    Payload.get (payload []) k default = default := rfl

@[simp] theorem get_payload_cons (k₀ : String) (v : PyValue) (rest : List (String × PyValue))
    (k : String) (default : PyValue) :
    Payload.get (payload ((k₀, v) :: rest)) k default =
      if k = k₀ then v else Payload.get (payload rest) k default := by
  unfold Payload.get payload
  rw [List.map_cons, List.lookup_cons]
  by_cases h : k = k₀
  · simp [h]
  · have hne : PyKey.text k ≠ PyKey.text k₀ := fun heq ↦ h (PyKey.text.inj heq)
    rw [if_neg h, beq_eq_false_iff_ne.mpr hne]

/-! ## Detaching values -/

mutual

/-- `_transport_safe`, and `_json_value` of `resources/artifacts.py`, which differs from it in
the text of its error. -/
def safe (refused : String → String → String) (path : String) :
    PyValue → Except Raised PyValue
  | .none => .ok .none
  | .bool b => .ok (.bool b)
  | .int n => .ok (.int n)
  | .float x => .ok (.float x)
  | .text s => .ok (.text s)
  | .path s => .ok (.text s)
  | .dataRef asDict => .ok asDict
  | .mapping entries => (safeEntries refused path entries).map textual
  | .list items => (safeItems refused (path ++ "[]") items).map .list
  | .tuple items => (safeItems refused (path ++ "[]") items).map .list
  | .array _ _ tolist => safe refused path tolist
  | .record _ _ asDict => safe refused path asDict
  | .other type _ => .error (.typeError (refused path type))

def safeItems (refused : String → String → String) (path : String) :
    List PyValue → Except Raised (List PyValue)
  | [] => .ok []
  | v :: rest => do
      let v' ← safe refused path v
      let rest' ← safeItems refused path rest
      return v' :: rest'

def safeEntries (refused : String → String → String) (path : String) :
    List (PyKey × PyValue) → Except Raised (List (String × PyValue))
  | [] => .ok []
  | (k, v) :: rest => do
      let v' ← safe refused (path ++ "." ++ k.str) v
      let rest' ← safeEntries refused path rest
      return (k.str, v') :: rest'

end

mutual

/-- `freeze_wire_value`. -/
def freeze (path : String) : PyValue → Except Raised PyValue
  | .none => .ok .none
  | .bool b => .ok (.bool b)
  | .int n => .ok (.int n)
  | .float x => .ok (.float x)
  | .text s => .ok (.text s)
  | .mapping entries => (freezeEntries path entries).map textual
  | .list items => (freezeItems (path ++ "[]") items).map .tuple
  | .tuple items => (freezeItems (path ++ "[]") items).map .tuple
  | .path s => .error (.typeError (notWireSafe path (PyValue.path s).typeName))
  | .dataRef asDict => .error (.typeError (notWireSafe path (PyValue.dataRef asDict).typeName))
  | .array type _ _ => .error (.typeError (notWireSafe path type))
  | .record type _ _ => .error (.typeError (notWireSafe path type))
  | .other type _ => .error (.typeError (notWireSafe path type))
where
  /-- The text of the `TypeError`. -/
  notWireSafe (path type : String) : String :=
    s!"shared protocol field '{path}' is not wire-safe: {type}"

def freezeItems (path : String) : List PyValue → Except Raised (List PyValue)
  | [] => .ok []
  | v :: rest => do
      let v' ← freeze path v
      let rest' ← freezeItems path rest
      return v' :: rest'

def freezeEntries (path : String) :
    List (PyKey × PyValue) → Except Raised (List (String × PyValue))
  | [] => .ok []
  | (k, v) :: rest => do
      let v' ← freeze (path ++ "." ++ k.str) v
      let rest' ← freezeEntries path rest
      return (k.str, v') :: rest'

end

mutual

/-- `thaw_wire_value`. -/
def thaw : PyValue → PyValue
  | .mapping entries => textual (thawEntries entries)
  | .tuple items => .list (thawItems items)
  | v => v

def thawItems : List PyValue → List PyValue
  | [] => []
  | v :: rest => thaw v :: thawItems rest

def thawEntries : List (PyKey × PyValue) → List (String × PyValue)
  | [] => []
  | (k, v) :: rest => (k.str, thaw v) :: thawEntries rest

end

/-! ## Frozen values -/

mutual

/-- A value of the form that `freeze_wire_value` returns. -/
def PyValue.Frozen : PyValue → Prop
  | .none | .bool _ | .int _ | .float _ | .text _ => True
  | .tuple items => FrozenItems items
  | .mapping entries => FrozenEntries entries ∧ ∃ d : OrderedDict PyValue, payload d.entries = entries
  | _ => False

def FrozenItems : List PyValue → Prop
  | [] => True
  | v :: rest => v.Frozen ∧ FrozenItems rest

def FrozenEntries : List (PyKey × PyValue) → Prop
  | [] => True
  | e :: rest => e.2.Frozen ∧ FrozenEntries rest

end

theorem frozenItems_iff {items : List PyValue} : FrozenItems items ↔ ∀ v ∈ items, v.Frozen := by
  induction items with
  | nil => simp [FrozenItems]
  | cons v rest ih => simp [FrozenItems, ih]

theorem frozenEntries_iff {entries : List (PyKey × PyValue)} :
    FrozenEntries entries ↔ ∀ e ∈ entries, e.2.Frozen := by
  induction entries with
  | nil => simp [FrozenEntries]
  | cons e rest ih => simp [FrozenEntries, ih]

/-- The entries with the `str` of their keys. -/
def named (entries : Payload) : List (String × PyValue) := entries.map fun e ↦ (e.1.str, e.2)

@[simp] theorem named_payload (l : List (String × PyValue)) : named (payload l) = l := by
  simp [named, payload, Function.comp_def, PyKey.str]

theorem textual_entries (d : OrderedDict PyValue) : textual d.entries = obj d.entries := by
  rw [textual, OrderedDict.ofList_entries]

theorem map_key_thawEntries (entries : Payload) :
    (thawEntries entries).map Prod.fst = (named entries).map Prod.fst := by
  induction entries with
  | nil => rfl
  | cons e rest ih =>
      rw [thawEntries, List.map_cons, ih]
      rfl

/-- Thawed entries of a dictionary are the entries of a dictionary. -/
theorem textual_thawEntries (d : OrderedDict PyValue) :
    textual (thawEntries (payload d.entries)) = obj (thawEntries (payload d.entries)) := by
  have hnodup : ((thawEntries (payload d.entries)).map Prod.fst).Nodup := by
    rw [map_key_thawEntries, named_payload]
    exact d.nodup
  rw [textual, OrderedDict.entries_ofList hnodup]

section Laws

variable {refused : String → String → String}

mutual

/-- What `_transport_safe` makes of a frozen value. -/
theorem safe_of_frozen : ∀ (v : PyValue) (path : String), v.Frozen →
    safe refused path v = .ok (thaw v)
  | .none, _, _ | .bool _, _, _ | .int _, _, _ | .float _, _, _ | .text _, _, _ => rfl
  | .tuple items, path, h => by
      rw [safe, safeItems_of_frozen items _ h, thaw]
      rfl
  | .mapping entries, path, h => by
      rw [safe, safeEntries_of_frozen entries _ h.1, thaw]
      rfl

theorem safeItems_of_frozen : ∀ (items : List PyValue) (path : String), FrozenItems items →
    safeItems refused path items = .ok (thawItems items)
  | [], _, _ => rfl
  | v :: rest, path, h => by
      rw [safeItems, safe_of_frozen v _ h.1, safeItems_of_frozen rest _ h.2]
      rfl

theorem safeEntries_of_frozen : ∀ (entries : Payload) (path : String), FrozenEntries entries →
    safeEntries refused path entries = .ok (thawEntries entries)
  | [], _, _ => rfl
  | (k, v) :: rest, path, h => by
      rw [safeEntries, safe_of_frozen v _ h.1, safeEntries_of_frozen rest _ h.2]
      rfl

end

mutual

/-- `_transport_safe` does not change a value that was thawed. -/
theorem safe_thaw : ∀ (v : PyValue) (path : String), v.Frozen →
    safe refused path (thaw v) = .ok (thaw v)
  | .none, _, _ | .bool _, _, _ | .int _, _, _ | .float _, _, _ | .text _, _, _ => rfl
  | .tuple items, path, h => by
      rw [thaw, safe, safeItems_thaw items _ h]
      rfl
  | .mapping entries, path, h => by
      have hentries := safeEntries_thaw entries path h.1
      obtain ⟨-, d, rfl⟩ := h
      rw [thaw, textual_thawEntries, obj, safe, hentries]
      exact congrArg Except.ok (textual_thawEntries d)

theorem safeItems_thaw : ∀ (items : List PyValue) (path : String), FrozenItems items →
    safeItems refused path (thawItems items) = .ok (thawItems items)
  | [], _, _ => rfl
  | v :: rest, path, h => by
      rw [thawItems, safeItems, safe_thaw v _ h.1, safeItems_thaw rest _ h.2]
      rfl

theorem safeEntries_thaw : ∀ (entries : Payload) (path : String), FrozenEntries entries →
    safeEntries refused path (payload (thawEntries entries)) = .ok (thawEntries entries)
  | [], _, _ => rfl
  | (k, v) :: rest, path, h => by
      rw [thawEntries, payload, List.map_cons, ← payload, safeEntries, safe_thaw v _ h.1,
        safeEntries_thaw rest _ h.2]
      rfl

end

mutual

/-- Freezing what was thawed gives it back. -/
theorem freeze_thaw : ∀ (v : PyValue) (path : String), v.Frozen →
    freeze path (thaw v) = .ok v
  | .none, _, _ | .bool _, _, _ | .int _, _, _ | .float _, _, _ | .text _, _, _ => rfl
  | .tuple items, path, h => by
      rw [thaw, freeze, freezeItems_thaw items _ h]
      rfl
  | .mapping entries, path, h => by
      have hentries := freezeEntries_thaw entries path h.1
      obtain ⟨-, d, rfl⟩ := h
      rw [thaw, textual_thawEntries, obj, freeze, hentries, named_payload]
      exact congrArg Except.ok (textual_entries d)

theorem freezeItems_thaw : ∀ (items : List PyValue) (path : String), FrozenItems items →
    freezeItems path (thawItems items) = .ok items
  | [], _, _ => rfl
  | v :: rest, path, h => by
      rw [thawItems, freezeItems, freeze_thaw v _ h.1, freezeItems_thaw rest _ h.2]
      rfl

theorem freezeEntries_thaw : ∀ (entries : Payload) (path : String), FrozenEntries entries →
    freezeEntries path (payload (thawEntries entries)) = .ok (named entries)
  | [], _, _ => rfl
  | (k, v) :: rest, path, h => by
      rw [thawEntries, payload, List.map_cons, ← payload, freezeEntries, freeze_thaw v _ h.1,
        freezeEntries_thaw rest _ h.2]
      rfl

end

mutual

/-- A frozen value stays as it is. -/
theorem freeze_of_frozen : ∀ (v : PyValue) (path : String), v.Frozen → freeze path v = .ok v
  | .none, _, _ | .bool _, _, _ | .int _, _, _ | .float _, _, _ | .text _, _, _ => rfl
  | .tuple items, path, h => by
      rw [freeze, freezeItems_of_frozen items _ h]
      rfl
  | .mapping entries, path, h => by
      have hentries := freezeEntries_of_frozen entries path h.1
      obtain ⟨-, d, rfl⟩ := h
      rw [freeze, hentries, named_payload]
      exact congrArg Except.ok (textual_entries d)

theorem freezeItems_of_frozen : ∀ (items : List PyValue) (path : String), FrozenItems items →
    freezeItems path items = .ok items
  | [], _, _ => rfl
  | v :: rest, path, h => by
      rw [freezeItems, freeze_of_frozen v _ h.1, freezeItems_of_frozen rest _ h.2]
      rfl

theorem freezeEntries_of_frozen : ∀ (entries : Payload) (path : String), FrozenEntries entries →
    freezeEntries path entries = .ok (named entries)
  | [], _, _ => rfl
  | (k, v) :: rest, path, h => by
      rw [freezeEntries, freeze_of_frozen v _ h.1, freezeEntries_of_frozen rest _ h.2]
      rfl

end

end Laws

end Blackbase.Project.Envelope

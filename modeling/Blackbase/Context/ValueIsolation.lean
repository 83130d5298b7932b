import Blackbase.Context.References
import Blackbase.Core.ObjectGraph

/-!
# Values crossing Context boundaries

`detach_context_value` of `context/value_isolation.py`, on the objects of a Python process: an
object refers to others by their places in the memory, and what is created comes at the end of it.

`np.float64`, `np.complex128`, `np.str_` and `np.bytes_` are subclasses of Python's scalars, and
`item()` of an `np.longdouble` is one again; all of these count as scalars here, which are
returned as they are.  Another NumPy scalar refers to what its `item()` returns: a scalar, or a
`datetime`, or the tuple of a structured scalar.  The frozen metadata of a reference holds no
object that a Context value can hold, and is part of the reference.  The interpreter's limit on
the depth of a recursion is not modelled.
-/

namespace Blackbase.Context.Isolation

open Project.Envelope (PyFloat Raised Runtime DataRef)

/-! ## Objects -/

/-- The immutable scalars. -/
inductive Scalar where
  | none
  | bool (b : Bool)
  | int (n : ℤ)
  | float (x : PyFloat)
  | complex (re im : PyFloat)
  | text (s : String)
  | bytes (b : List UInt8)
deriving DecidableEq

/-- What `hash` and `==` see of an object that can be hashed. -/
inductive Key where
  | none
  | number (re im : PyFloat)
  | text (s : String)
  | bytes (b : List UInt8)
  | other (value : ℕ)
  | tuple (items : List Key)
  | frozenset (items : List Key)

mutual

/-- The objects are equal.  The items of a `frozenset` are different from each other. -/
def Key.same : Key → Key → Bool
  | .none, .none => true
  | .number x y, .number x' y' => x = x' && y = y'
  | .text s, .text s' => s = s'
  | .bytes b, .bytes b' => b = b'
  | .other value, .other value' => value = value'
  | .tuple items, .tuple items' => sameItems items items'
  | .frozenset items, .frozenset items' =>
      items.length = items'.length && allWithin items items'
  | _, _ => false

def sameItems : List Key → List Key → Bool
  | [], [] => true
  | k :: rest, k' :: rest' => k.same k' && sameItems rest rest'
  | _, _ => false

def allWithin : List Key → List Key → Bool
  | [], _ => true
  | k :: rest, items => items.any (fun k' ↦ k.same k') && allWithin rest items

end

/-- Numbers of different types are equal when they have the same value. -/
def Scalar.key : Scalar → Key
  | none => .none
  | bool b => .number (.real (if b then 1 else 0)) .zero
  | int n => .number (.real n) .zero
  | float x => .number x .zero
  | complex re im => .number re im
  | text s => .text s
  | bytes b => .bytes b

inductive Kind where
  | list
  | tuple
  | set
  | frozenset
deriving DecidableEq

/-- A collection that hashes its items. -/
def Kind.unordered : Kind → Bool
  | list | tuple => false
  | set | frozenset => true

/-- A collection that cannot be changed. -/
def Kind.frozen : Kind → Bool
  | list | set => false
  | tuple | frozenset => true

/-- The contents of an array. -/
structure NdArray where
  dtype : String
  shape : List ℕ
  data : List UInt8
deriving DecidableEq

/-- An object.  A buffer is a `bytearray` or a `memoryview`; an array has `objects` if its dtype
has; `other` is an object of any other type. -/
inductive Obj where
  | scalar (s : Scalar)
  | generic (key : Option Key) (item : ℕ)
  | buffer (bytes : List UInt8)
  | dataRef (ref : DataRef)
  | stateRef (ref : StateRef)
  | array (contents : NdArray) (objects : Option (List ℕ))
  | mapping (entries : List (ℕ × ℕ))
  | collection (kind : Kind) (items : List ℕ)
  | other (key : Option Key) (type : String)

namespace Obj

/-- What a container contains. -/
def parts : Obj → List ℕ
  | mapping entries => entries.map Prod.fst ++ entries.map Prod.snd
  | collection _ items => items
  | _ => []

/-- The objects that an object refers to. -/
def refs : Obj → List ℕ
  | generic _ item => [item]
  | array _ objects => objects.getD []
  | o => o.parts

/-- A mutable container or an array. -/
def isMutable : Obj → Bool
  | buffer _ | array _ _ | mapping _ => true
  | collection kind _ => !kind.frozen
  | _ => false

/-- A tuple or a `frozenset`. -/
def isFrozenCollection : Obj → Bool
  | collection kind _ => kind.frozen
  | _ => false

theorem fst_mem_parts {entries : List (ℕ × ℕ)} {e : ℕ × ℕ} (he : e ∈ entries) :
    e.1 ∈ (mapping entries).parts :=
  List.mem_append_left _ (List.mem_map_of_mem he)

theorem snd_mem_parts {entries : List (ℕ × ℕ)} {e : ℕ × ℕ} (he : e ∈ entries) :
    e.2 ∈ (mapping entries).parts :=
  List.mem_append_right _ (List.mem_map_of_mem he)

theorem parts_subset_refs (o : Obj) (j : ℕ) (h : j ∈ o.parts) : j ∈ o.refs := by
  cases o with
  | mapping entries => exact h
  | collection kind items => exact h
  | scalar s => cases h
  | generic key item => cases h
  | buffer bytes => cases h
  | dataRef ref => cases h
  | stateRef ref => cases h
  | array contents objects => cases h
  | other key type => cases h

end Obj

/-- The objects of a process, in the order of their creation. -/
abbrev Memory := List Obj

/-! ## Hashing -/

/-- What `hash` and `==` see of an object, where `leaf` says it for those that are neither a tuple
nor a `frozenset`.  These two only refer to earlier objects. -/
def keyAt (leaf : Obj → Option Key) (m : Memory) : ℕ → ℕ → Option Key
  | 0, _ => none
  | n + 1, i =>
      match m[i]? with
      | some (.collection .tuple items) => (items.mapM (keyAt leaf m n)).map .tuple
      | some (.collection .frozenset items) => some (.frozenset (items.filterMap (keyAt leaf m n)))
      | some o => leaf o
      | none => none

/-- What `hash` sees of an object. -/
def hashLeaf : Obj → Option Key
  | .scalar s => some s.key
  | .generic key _ => key
  | .other key _ => key
  | _ => none

/-- What `hash` and `==` see of the object, if it can be hashed. -/
def keyOf (m : Memory) (i : ℕ) : Option Key := keyAt hashLeaf m (i + 1) i

/-- The two objects are the same key of a dictionary. -/
def sameKey (m : Memory) (i j : ℕ) : Bool :=
  match keyOf m i, keyOf m j with
  | some k, some l => k.same l
  | _, _ => false

/-! ## Detaching -/

/-- What detaching a value can raise. -/
inductive ContextError where
  | objectArray (path : String)
  | unsupported (path type : String)
  | cyclic (path : String)
  | unhashableKey (path : String)
  | unhashable
  | reference (e : Raised)
  | outOfFuel

/-- The exception is a `TypeError`. -/
def ContextError.isTypeError : ContextError → Bool
  | objectArray _ | unsupported _ _ | cyclic _ | unhashableKey _ | unhashable => true
  | reference (.typeError _) => true
  | reference _ | outOfFuel => false

/-- The text of the exception.  That of a set is Python's own. -/
def ContextError.message : ContextError → String
  | objectArray path => s!"{path} contains an object-dtype ndarray"
  | unsupported path type => s!"{path} contains unsupported context value type {type}"
  | cyclic path => s!"{path} contains a cyclic context value"
  | unhashableKey path => s!"{path} contains an unhashable mapping key"
  | unhashable => "unhashable type"
  | reference (.valueError text) | reference (.typeError text)
  | reference (.attributeError text) | reference (.unicodeError text) => text
  | outOfFuel => ""

/-- What detaching a value returns: the memory after it, and the place of the copy. -/
abbrev Outcome := Except ContextError (Memory × ℕ)

/-- A new object. -/
def create (m : Memory) (o : Obj) : Memory × ℕ := (m ++ [o], m.length)

/-- `out[key] = value`: an equal key stays the one it is. -/
def store (m : Memory) (out : List (ℕ × ℕ)) (key value : ℕ) : List (ℕ × ℕ) :=
  if out.any fun e ↦ sameKey m e.1 key then
    out.map fun e ↦ if sameKey m e.1 key then (e.1, value) else e
  else out ++ [(key, value)]

/-- The set with an item, unless it has an equal one. -/
def add (m : Memory) (out : List ℕ) (item : ℕ) : List ℕ :=
  if out.any fun i ↦ sameKey m i item then out else out ++ [item]

section Loops

variable (repr : Memory → ℕ → String) (detach : String → Memory → ℕ → Outcome) (path : String)

/-- The items of a list or a tuple, from `index` on. -/
def detachItems : ℕ → Memory → List ℕ → Except ContextError (Memory × List ℕ)
  | _, m, [] => .ok (m, [])
  | index, m, i :: rest => do
      let (m, k) ← detach s!"{path}[{index}]" m i
      let (m, ks) ← detachItems (index + 1) m rest
      return (m, k :: ks)

/-- The items of a set, of which `out` are in the new set already. -/
def detachSet : Memory → List ℕ → List ℕ → Except ContextError (Memory × List ℕ)
  | m, out, [] => .ok (m, out)
  | m, out, i :: rest => do
      let (m, k) ← detach (path ++ ".<set>") m i
      if (keyOf m k).isNone then throw .unhashable
      detachSet m (add m out k) rest

/-- The entries of a mapping, of which `out` are in the new dictionary already. -/
def detachEntries :
    Memory → List (ℕ × ℕ) → List (ℕ × ℕ) → Except ContextError (Memory × List (ℕ × ℕ))
  | m, out, [] => .ok (m, out)
  | m, out, (key, item) :: rest => do
      let (m, k) ← detach (path ++ ".<key>") m key
      if (keyOf m k).isNone then throw (.unhashableKey path)
      let (m, v) ← detach s!"{path}[{repr m key}]" m item
      detachEntries m (store m out k v) rest

end Loops

section Detach

variable (R : Runtime) (repr : Memory → ℕ → String)

/-- `_detach_container`, where `detach` is `_detach_context_value` with the objects under way. -/
def detachContainer (detach : String → List ℕ → Memory → ℕ → Outcome) (path : String)
    (active : List ℕ) (m : Memory) (i : ℕ) : Outcome :=
  if i ∈ active then .error (.cyclic path)
  else
    match m[i]? with
    | some (.mapping entries) => do
        let (m, out) ← detachEntries repr (fun p ↦ detach p (i :: active)) path m [] entries
        return create m (.mapping out)
    | some (.collection kind items) => do
        let (m, out) ←
          if kind.unordered then detachSet (fun p ↦ detach p (i :: active)) path m [] items
          else detachItems (fun p ↦ detach p (i :: active)) path 0 m items
        return create m (.collection kind out)
    | _ => .error (.unsupported path "")

/-- `_detach_context_value`, to a depth. -/
def detachValue : ℕ → String → List ℕ → Memory → ℕ → Outcome
  | 0, _, _, _, _ => .error .outOfFuel
  | n + 1, path, active, m, i =>
      match m[i]? with
      | some (.scalar _) => .ok (m, i)
      | some (.generic _ item) => .ok (m, item)
      | some (.buffer bytes) => .ok (create m (.scalar (.bytes bytes)))
      | some (.dataRef ref) =>
          match detachDataRef R ref with
          | .ok ref => .ok (create m (.dataRef ref))
          | .error e => .error (.reference e)
      | some (.stateRef ref) =>
          match detachStateRef R ref with
          | .ok ref => .ok (create m (.stateRef ref))
          | .error e => .error (.reference e)
      | some (.array contents objects) =>
          if objects.isSome then .error (.objectArray path)
          else .ok (create m (.array contents none))
      | some (.mapping _) | some (.collection _ _) =>
          detachContainer repr (detachValue n) path active m i
      | some (.other _ type) => .error (.unsupported path type)
      | none => .error (.unsupported path "")

end Detach

/-- The objects are different keys. -/
structure Hashed (m : Memory) (items : List ℕ) : Prop where
  hashable : ∀ j ∈ items, (keyOf m j).isSome = true
  distinct : items.Pairwise fun j k ↦ sameKey m j k = false

/-- A memory as a process has it: there is no reference to an object that does not exist, a tuple
or a `frozenset` refers to earlier objects, and the items of a set are different keys. -/
structure WellFormed (m : Memory) : Prop where
  closed : ObjectGraph.Closed Obj.refs m
  earlier : ∀ {i : ℕ} {kind : Kind} {items : List ℕ},
    m[i]? = some (Obj.collection kind items) → kind.frozen = true → ∀ j ∈ items, j < i
  hashed : ∀ {i : ℕ} {kind : Kind} {items : List ℕ},
    m[i]? = some (Obj.collection kind items) → kind.unordered = true → Hashed m items

/-- A Python value: an object, and the memory it is in. -/
structure Value where
  memory : Memory
  root : ℕ
  wellFormed : WellFormed memory
  root_lt : root < memory.length

/-- `detach_context_value`.  A path on which no container comes twice is no longer than there are
objects. -/
def detachContextValue (R : Runtime) (repr : Memory → ℕ → String) (path : String) (v : Value) :
    Outcome :=
  detachValue R repr (v.memory.length + 1) (if path = "" then "context" else path) [] v.memory
    v.root

end Blackbase.Context.Isolation

import Blackbase.Core.Base64
import Blackbase.Core.CodePoints
import Blackbase.Core.Counted
import Blackbase.Project.Envelope.Value

/-!
# Value envelopes of the Redis stores

`RedisValueCodec` of `context/redis_codec.py`: `_to_safe_wire`, which writes a value as tagged
JSON, `_from_safe_wire`, which reads it, and `dumps` and `loads` with the envelope around it, for
the safe serializer and for the two that use `pickle`.

The writer and the reader count the levels they may still go down (`room`) where the source counts
the depth they have reached; both start with one more than `max_depth`.  The reader also counts the
nodes it visits, which the writer does not.  An object is written with its fields in the order of
their keys, which `json.dumps` brings them into.
-/

namespace Blackbase.Context.RedisCodec

open Project.Envelope (PyFloat)

/-! ## JSON -/

/-- A JSON value as `json.loads` returns it. -/
inductive Json where
  | null
  | bool (b : Bool)
  | int (n : ℤ)
  | float (x : PyFloat)
  | str (s : String)
  | arr (items : List Json)
  | obj (fields : List (String × Json))

/-- The fields of an object. -/
abbrev Fields := List (String × Json)

mutual

/-- The fields of every object stand in the order of their keys, as `sort_keys` writes them. -/
def Json.Sorted : Json → Prop
  | .arr items => sortedItems items
  | .obj fields => (fields.map Prod.fst).Pairwise (· < ·) ∧ sortedFields fields
  | _ => True

def sortedItems : List Json → Prop
  | [] => True
  | w :: rest => w.Sorted ∧ sortedItems rest

def sortedFields : List (String × Json) → Prop
  | [] => True
  | (_, w) :: rest => w.Sorted ∧ sortedFields rest

end

/-- `d.get(key)` -/
def Fields.get (d : Fields) (key : String) : Json := (d.lookup key).getD .null

/-! ## Tags -/

/-- The shared types that have a tag of their own. -/
inductive ProtocolKind where
  | unknownState
  | dataRef
  | stateRef
deriving DecidableEq

/-- The collections that are restored. -/
inductive CollectionKind where
  | list
  | tuple
  | set
  | frozenset
deriving DecidableEq

namespace CollectionKind

def name : CollectionKind → String
  | list => "list"
  | tuple => "tuple"
  | set => "set"
  | frozenset => "frozenset"

/-- A collection finds its elements by hash. -/
def hashes : CollectionKind → Bool
  | list | tuple => false
  | set | frozenset => true

end CollectionKind

/-- The tags that `_from_safe_wire` knows. -/
inductive Tag where
  | float
  | complex
  | bytes
  | ndarray
  | protocol (kind : ProtocolKind)
  | mapping
  | collection (kind : CollectionKind)
deriving DecidableEq

namespace Tag

def name : Tag → String
  | float => "float"
  | complex => "complex"
  | bytes => "bytes"
  | ndarray => "ndarray"
  | protocol .unknownState => "unknown_state"
  | protocol .dataRef => "data_ref"
  | protocol .stateRef => "state_ref"
  | mapping => "mapping"
  | collection kind => kind.name

/-- Every tag. -/
def all : List Tag :=
  [float, complex, bytes, ndarray, protocol .unknownState, protocol .dataRef, protocol .stateRef,
    mapping, collection .list, collection .tuple, collection .set, collection .frozenset]

def ofName (name : String) : Option Tag := all.find? fun t ↦ t.name == name

@[simp] theorem ofName_name (t : Tag) : ofName t.name = some t := by
  rcases t with _ | _ | _ | _ | (_ | _ | _) | _ | (_ | _ | _ | _) <;> decide

end Tag

/-- `_VALUE_TAG` -/
def valueTag : String := "__blackbase_value__"

/-! ## Values -/

/-- An array: the `str` of its `dtype`, whether that holds objects, its shape, and its bytes in
C order. -/
structure RawArray where
  dtype : String
  hasObject : Bool
  shape : List ℕ
  data : List UInt8
deriving DecidableEq

/-- `np.ascontiguousarray`, which gives an array without dimensions one. -/
def RawArray.contiguous (a : RawArray) : RawArray :=
  { a with shape := if a.shape = [] then [1] else a.shape }

/-- A value to be written.  An object of a shared type is the mapping of its
`to_protocol_payload` or `as_dict`, a NumPy scalar its `item`, and a collection has the name of its
class, which may be a subclass.  `again` is a container met inside itself. -/
inductive Value where
  | none
  | bool (b : Bool)
  | int (n : ℤ)
  | float (x : PyFloat)
  | complex (re im : PyFloat)
  | text (s : String)
  | generic (item : Value)
  | bytes (data : List UInt8)
  | protocol (kind : ProtocolKind) (payload : List (Value × Value))
  | array (a : RawArray)
  | mapping (entries : List (Value × Value))
  | collection (className : String) (items : List Value)
  | again
  | other (className : String)

/-- A value that was read; the objects of the shared types are `O`.  A set has its elements in the
order in which they were added. -/
inductive Restored (O : Type) where
  | none
  | bool (b : Bool)
  | int (n : ℤ)
  | float (x : PyFloat)
  | complex (re im : PyFloat)
  | text (s : String)
  | bytes (data : List UInt8)
  | protocol (o : O)
  | array (a : RawArray)
  | mapping (entries : List (Restored O × Restored O))
  | collection (kind : CollectionKind) (items : List (Restored O))

/-! ## Errors -/

/-- What writing or reading can raise; `raised` comes from other code. -/
inductive CodecError where
  | depth (path : String)
  | nodes
  | unsupportedType (path className : String)
  | cyclic (path : String)
  | objectArray (path : String)
  | untaggedValue (path : String)
  | untaggedMapping (path : String)
  | floatMarker (repr : String)
  | complexComponents (path : String)
  | bytesPayload (path : String)
  | bytesBase64 (path : String)
  | protocolPayload (path : String)
  | mappingItems (path : String)
  | mappingPair (path : String)
  | unhashableKey (path : String)
  | collectionItems (path : String)
  | unhashableItems (path : String)
  | unsupportedTag (path repr : String)
  | arrayEnvelope (path : String)
  | arrayDtype (path : String)
  | arrayShape (path : String)
  | negativeDimension (path : String)
  | arrayBase64 (path : String)
  | arrayLength (path : String) (length expected : ℕ)
  | encoding
  | tooLarge (scope : String) (size limit : ℕ)
  | notJson
  | notMapping
  | unsupportedEnvelope
  | scopeMismatch
  | serializerMismatch (stored configured : String)
  | noPayload
  | noPickle
  | pickleBase64
  | pickleTooLarge
  | noHmac
  | hmac
  | pickle
  | legacyPickle
  | keyRequired (repr : String)
  | keyMissing (repr : String)
  | raised (text : String)
deriving DecidableEq

/-- The text of the exception. -/
def CodecError.message : CodecError → String
  | depth path => s!"{path} exceeds safe codec depth limit"
  | nodes => "safe Redis value exceeds node limit"
  | unsupportedType path className =>
      s!"{path} contains unsupported safe value type {className}"
  | cyclic path => s!"{path} contains a cyclic value"
  | objectArray path => s!"{path} contains an object-dtype ndarray"
  | untaggedValue path => s!"{path} contains invalid untagged JSON value"
  | untaggedMapping path => s!"{path} contains an untagged mapping"
  | floatMarker repr => s!"invalid non-finite float marker {repr}"
  | complexComponents path => s!"{path} contains invalid complex components"
  | bytesPayload path => s!"{path} contains invalid bytes payload"
  | bytesBase64 path => s!"{path} contains invalid base64 bytes"
  | protocolPayload path => s!"{path} protocol payload must be a mapping"
  | mappingItems path => s!"{path} mapping items must be a list"
  | mappingPair path => s!"{path} contains an invalid mapping pair"
  | unhashableKey path => s!"{path} contains an unhashable key"
  | collectionItems path => s!"{path} collection items must be a list"
  | unhashableItems path => s!"{path} contains unhashable set items"
  | unsupportedTag path repr => s!"{path} contains unsupported safe value tag {repr}"
  | arrayEnvelope path => s!"{path} contains an invalid ndarray envelope"
  | arrayDtype path => s!"{path} contains an invalid ndarray dtype"
  | arrayShape path => s!"{path} contains an invalid ndarray shape"
  | negativeDimension path => s!"{path} contains a negative ndarray dimension"
  | arrayBase64 path => s!"{path} contains invalid ndarray base64"
  | arrayLength path length expected =>
      s!"{path} ndarray byte length mismatch: {length} != {expected}"
  | encoding => "failed to encode Redis value envelope"
  | tooLarge scope size limit => s!"{scope} payload too large: {size} bytes > {limit} bytes"
  | notJson => "Redis value is not a valid JSON envelope"
  | notMapping => "Redis value envelope must be a mapping"
  | unsupportedEnvelope => "unsupported Redis value envelope"
  | scopeMismatch => "Redis value envelope scope mismatch"
  | serializerMismatch stored configured =>
      s!"Redis value serializer mismatch: stored={stored}, configured={configured}"
  | noPayload => "safe Redis value envelope has no payload"
  | noPickle => "pickle Redis value envelope has no payload_b64"
  | pickleBase64 => "invalid base64 pickle payload"
  | pickleTooLarge => "decoded pickle payload exceeds max_payload_bytes"
  | noHmac => "signed pickle envelope has no HMAC"
  | hmac => "Redis value HMAC verification failed"
  | pickle => "failed to decode verified pickle payload"
  | legacyPickle => "failed to decode explicitly allowed legacy pickle"
  | keyRequired repr =>
      s!"serializer=pickle_signed requires a non-empty HMAC key in environment variable {repr}"
  | keyMissing repr => s!"missing Redis value HMAC key in environment variable {repr}"
  | raised text => text

/-! ## What the codec calls -/

/-- A `dtype`. -/
structure Dtype where
  itemsize : ℕ
  hasObject : Bool

/-- The parts of Python and NumPy and the shared types that the codec uses: the `repr` of keys and
texts, the `str` of JSON values, `np.dtype`, `int` of a text, `float` of an integer, and the
`from_protocol_payload` or `from_dict` of a shared type. -/
structure Runtime (O : Type) where
  reprValue : Value → String
  reprRestored : Restored O → String
  reprJson : Json → String
  strJson : Json → String
  dtype : String → Option Dtype
  parseInt : String → Option ℤ
  floatOfInt : ℤ → Option PyFloat
  restore : ProtocolKind → List (Restored O × Restored O) → Except String O

namespace Runtime

variable {O : Type} (R : Runtime O)

/-- `repr` of a text. -/
def repr (s : String) : String := R.reprJson (.str s)

/-- `str` of a JSON value. -/
def str : Json → String
  | .str s => s
  | v => R.strJson v

/-- `int` of a JSON value. -/
def int : Json → Option ℤ
  | .bool b => some (if b then 1 else 0)
  | .int n => some n
  | .float (.real q) => some (if q < 0 then -(-q).floor else q.floor)
  | .str s => R.parseInt s
  | _ => none

end Runtime

/-! ## Writing -/

section Write

variable {O : Type} (R : Runtime O)

/-- `_nonfinite_float_name` and the test for a finite float. -/
def writeFloat : PyFloat → Json
  | .real q => .float (.real q)
  | .infinity false => .obj [(valueTag, .str Tag.float.name), ("value", .str "inf")]
  | .infinity true => .obj [(valueTag, .str Tag.float.name), ("value", .str "-inf")]
  | .nan _ => .obj [(valueTag, .str Tag.float.name), ("value", .str "nan")]

/-- The items of a collection, each with its index. -/
def writeItems (write : String → Value → Except CodecError Json) (path : String) :
    ℕ → List Value → Except CodecError (List Json)
  | _, [] => .ok []
  | i, v :: rest => do
      let w ← write s!"{path}[{i}]" v
      let ws ← writeItems write path (i + 1) rest
      return w :: ws

/-- The entries of a mapping, each a list of two. -/
def writeEntries (write : String → Value → Except CodecError Json) (path : String) :
    List (Value × Value) → Except CodecError (List Json)
  | [] => .ok []
  | (k, v) :: rest => do
      let key ← write (path ++ ".<key>") k
      let item ← write s!"{path}[{R.reprValue k}]" v
      let ws ← writeEntries write path rest
      return .arr [key, item] :: ws

/-- What `_encode_container` returns. -/
def container (tag : String) (items : List Json) : Json :=
  .obj [(valueTag, .str tag), ("items", .arr items)]

/-- `_to_safe_wire` -/
def toSafeWire : ℕ → String → Value → Except CodecError Json
  | 0, path, _ => .error (.depth path)
  | room + 1, path, v =>
      match v with
      | .none => .ok .null
      | .bool b => .ok (.bool b)
      | .int n => .ok (.int n)
      | .text s => .ok (.str s)
      | .float x => .ok (writeFloat x)
      | .complex re im => do
          let real ← toSafeWire room (path ++ ".real") (.float re)
          let imag ← toSafeWire room (path ++ ".imag") (.float im)
          return .obj [(valueTag, .str Tag.complex.name), ("imag", imag), ("real", real)]
      | .generic item => toSafeWire room path item
      | .bytes data =>
          .ok (.obj [(valueTag, .str Tag.bytes.name), ("data", .str (Base64.encode data))])
      | .protocol kind payload => do
          let payload ← toSafeWire room (path ++ ".payload") (.mapping payload)
          return .obj [(valueTag, .str (Tag.protocol kind).name), ("payload", payload)]
      | .array a =>
          if a.hasObject then .error (.objectArray path)
          else .ok (.obj [
            (valueTag, .str Tag.ndarray.name),
            ("data", .str (Base64.encode a.contiguous.data)),
            ("dtype", .str a.contiguous.dtype),
            ("shape", .arr (a.contiguous.shape.map fun n : ℕ ↦ .int n))])
      | .mapping entries =>
          (writeEntries R (toSafeWire room) path entries).map (container Tag.mapping.name)
      | .collection className items =>
          (writeItems (toSafeWire room) path 0 items).map (container className)
      | .again => .error (.cyclic path)
      | .other className => .error (.unsupportedType path className)

end Write

/-! ## Keys -/

namespace Restored

variable {O : Type}

/-- The real and the imaginary part of a number. -/
def number : Restored O → Option (PyFloat × PyFloat)
  | .bool b => some (.real (if b then 1 else 0), .zero)
  | .int n => some (.real n, .zero)
  | .float x => some (x, .zero)
  | .complex re im => some (re, im)
  | _ => Option.none

/-- `x == y` for floats that were read: a NaN equals nothing. -/
def floatEq : PyFloat → PyFloat → Bool
  | .real p, .real q => p = q
  | .infinity s, .infinity t => s = t
  | _, _ => false

mutual

/-- Two values that were read are the same key of a `dict` or element of a `set`. -/
def same : Restored O → Restored O → Bool
  | .none, .none => true
  | .text s, .text t => s = t
  | .bytes d, .bytes e => d = e
  | .collection .tuple xs, .collection .tuple ys => sameItems xs ys
  | .collection .frozenset xs, .collection .frozenset ys =>
      xs.length = ys.length && sameElements xs ys
  | x, y =>
      match x.number, y.number with
      | some (a, b), some (c, d) => floatEq a c && floatEq b d
      | _, _ => false

def sameItems : List (Restored O) → List (Restored O) → Bool
  | [], [] => true
  | x :: xs, y :: ys => same x y && sameItems xs ys
  | _, _ => false

/-- Every element of the first list is in the second. -/
def sameElements : List (Restored O) → List (Restored O) → Bool
  | [], _ => true
  | x :: xs, ys => (ys.any fun y ↦ same x y) && sameElements xs ys

end

mutual

/-- `hash(v)` does not raise. -/
def hashable : Restored O → Bool
  | .array _ | .protocol _ | .mapping _ => false
  | .collection .list _ | .collection .set _ => false
  | .collection .tuple items => hashableItems items
  | .collection .frozenset _ => true
  | _ => true

def hashableItems : List (Restored O) → Bool
  | [] => true
  | x :: xs => hashable x && hashableItems xs

end

/-- `d[key] = value` -/
def setItem (key value : Restored O) : List (Restored O × Restored O) →
    List (Restored O × Restored O)
  | [] => [(key, value)]
  | (k, v) :: rest => if same k key then (k, value) :: rest else (k, v) :: setItem key value rest

/-- A set with one more element. -/
def addItem (items : List (Restored O)) (x : Restored O) : List (Restored O) :=
  if items.any fun y ↦ same y x then items else items ++ [x]

/-- A collection of the items read: `items`, `tuple(items)`, `set(items)` or `frozenset(items)`. -/
def collect (path : String) (kind : CollectionKind) (items : List (Restored O)) :
    Except CodecError (Restored O) :=
  if kind.hashes then
    if items.all hashable then .ok (.collection kind (items.foldl addItem []))
    else .error (.unhashableItems path)
  else .ok (.collection kind items)

end Restored

/-! ## Reading -/

section Read

variable {O : Type} (R : Runtime O)

/-- Reading counts the nodes it has visited. -/
abbrev Reader := Counted CodecError

/-- `_restore_nonfinite_float` -/
def restoreNonfiniteFloat (v : Json) : Except CodecError (Restored O) :=
  match v with
  | .str "nan" => .ok (.float (.nan 0))
  | .str "inf" => .ok (.float (.infinity false))
  | .str "-inf" => .ok (.float (.infinity true))
  | v => .error (.floatMarker (R.reprJson v))

/-- `float` of a number that is not complex; `none` if it is too large. -/
def realPart : Restored O → Option (Option PyFloat)
  | .bool b => some (some (.real (if b then 1 else 0)))
  | .int n => some (R.floatOfInt n)
  | .float x => some (some x)
  | _ => none

/-- `complex(real, imag)`, if both are numbers. -/
def restoreComplex (path : String) (real imag : Restored O) : Except CodecError (Restored O) :=
  match realPart R real, realPart R imag with
  | some (some re), some (some im) => .ok (.complex re im)
  | some _, some _ => .error (.raised "int too large to convert to float")
  | _, _ => .error (.complexComponents path)

/-- The bytes of a tagged `bytes`. -/
def restoreBytes (path : String) (v : Json) : Except CodecError (Restored O) :=
  match v with
  | .str encoded =>
      match Base64.decode encoded with
      | some data => .ok (.bytes data)
      | none => .error (.bytesBase64 path)
  | _ => .error (.bytesPayload path)

/-- `_restore_array` -/
def restoreArray (path : String) (d : Fields) : Except CodecError (Restored O) :=
  match d.get "dtype", d.get "shape", d.get "data" with
  | .str name, .arr shape, .str encoded =>
      match R.dtype name with
      | none => .error (.arrayDtype path)
      | some dtype =>
          if dtype.hasObject then .error (.objectArray path)
          else match shape.mapM R.int with
            | none => .error (.arrayShape path)
            | some dimensions =>
                if dimensions.any (· < 0) then .error (.negativeDimension path)
                else match Base64.decode encoded with
                  | none => .error (.arrayBase64 path)
                  | some data =>
                      let shape := dimensions.map Int.toNat
                      let expected := shape.prod * dtype.itemsize
                      if data.length ≠ expected then
                        .error (.arrayLength path data.length expected)
                      else if dtype.itemsize = 0 then
                        .error (.raised "itemsize cannot be zero in type")
                      else .ok (.array ⟨name, false, shape, data⟩)
  | _, _, _ => .error (.arrayEnvelope path)

/-- The items of a collection. -/
def readItems (read : String → Json → Reader (Restored O)) (path : String) :
    ℕ → List Json → Reader (List (Restored O))
  | _, [] => return []
  | i, w :: rest => do
      let v ← read s!"{path}[{i}]" w
      let vs ← readItems read path (i + 1) rest
      return v :: vs

/-- The pairs of a mapping, put into the `dict` that has been restored so far. -/
def readPairs (read : String → Json → Reader (Restored O)) (path : String) :
    ℕ → List Json → List (Restored O × Restored O) → Reader (List (Restored O × Restored O))
  | _, [], restored => return restored
  | i, .arr [k, w] :: rest, restored => do
      let key ← read s!"{path}.<key:{i}>" k
      if !key.hashable then throw (.unhashableKey path)
      let value ← read s!"{path}[{R.reprRestored key}]" w
      readPairs read path (i + 1) rest (Restored.setItem key value restored)
  | _, _ :: _, _ => throw (.mappingPair path)

/-- The branches of `_from_safe_wire` for a tag. -/
def fromTagged (read : String → Json → Reader (Restored O)) (path : String) (d : Fields) :
    Tag → Reader (Restored O)
  | .float => restoreNonfiniteFloat R (d.get "value")
  | .complex => do
      let real ← read (path ++ ".real") (d.get "real")
      let imag ← read (path ++ ".imag") (d.get "imag")
      restoreComplex R path real imag
  | .bytes => restoreBytes path (d.get "data")
  | .ndarray => restoreArray R path d
  | .protocol kind => do
      let payload ← read (path ++ ".payload") (d.get "payload")
      match payload with
      | .mapping entries =>
          match R.restore kind entries with
          | .ok o => return .protocol o
          | .error text => throw (.raised text)
      | _ => throw (.protocolPayload path)
  | .mapping =>
      match d.get "items" with
      | .arr items => return .mapping (← readPairs R read path 0 items [])
      | _ => throw (.mappingItems path)
  | .collection kind =>
      match d.get "items" with
      | .arr items => do
          let items ← readItems read path 0 items
          Restored.collect path kind items
      | _ => throw (.collectionItems path)

/-- `_from_safe_wire` -/
def fromSafeWire (maxNodes : ℕ) : ℕ → String → Json → Reader (Restored O)
  | 0, path, _ => do
      Counted.visit maxNodes CodecError.nodes
      throw (.depth path)
  | room + 1, path, w => do
      Counted.visit maxNodes CodecError.nodes
      match w with
      | .null => return .none
      | .bool b => return .bool b
      | .int n => return .int n
      | .float x => return .float x
      | .str s => return .text s
      | .arr _ => throw (.untaggedValue path)
      | .obj d =>
          match Fields.get d valueTag with
          | .str name =>
              match Tag.ofName name with
              | some tag => fromTagged R (fromSafeWire maxNodes room) path d tag
              | none => throw (.unsupportedTag path (R.repr name))
          | _ => throw (.untaggedMapping path)

end Read

end Blackbase.Context.RedisCodec

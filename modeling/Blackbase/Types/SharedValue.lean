import Blackbase.Project.Envelope.Value

/-!
# The shared value codec

`_encode_shared_value` and `_decode_shared_value` of `types.py`, on values that a constructor has
made canonical: plain data, and the objects of protocol types, which stand on the wire as mappings
with a protocol type.  The protocol types are a parameter.
-/

namespace Blackbase.Types

open Project.Envelope (PyFloat)

/-- A canonical value.  Sequences are tuples, and mappings have texts for their keys. -/
inductive Shared (O : Type) where
  | none
  | bool (b : Bool)
  | int (n : ℤ)
  | float (x : PyFloat)
  | text (s : String)
  | seq (items : List (Shared O))
  | mapping (entries : List (String × Shared O))
  | object (o : O)

/-- Plain data, as it is on the wire. -/
abbrev Wire := Shared Empty

/-- What constructing a shared type can raise. -/
inductive TypesError where
  | inhomogeneous
  | notMapping
  | protocol (text : String)
  | matrixNotTwoDimensional
  | rowCounts (states rows : ℕ)
  | stateDimension (index size width : ℕ)
  | stateRow (index : ℕ)
  | batchTokens
  | objectives
  | snapshotTokens
  | constraints
deriving DecidableEq

/-- The text of the exception; those of NumPy and of `dict` are not this code's own. -/
def TypesError.message : TypesError → String
  | inhomogeneous => "setting an array element with a sequence"
  | notMapping => "object is not iterable"
  | protocol text => text
  | matrixNotTwoDimensional => "CandidateBatch.numeric_matrix must be two-dimensional"
  | rowCounts states rows =>
      s!"CandidateBatch semantic/numeric row counts must match: {states} != {rows}"
  | stateDimension index size width =>
      s!"CandidateBatch.semantic_states[{index}] has dimension {size}; expected {width}"
  | stateRow index => s!"CandidateBatch.semantic_states[{index}] does not match its numeric row"
  | batchTokens => "CandidateBatch.candidate_tokens must align with candidate rows"
  | objectives => "PopulationSnapshot objectives must be a 2D array aligned with candidates"
  | snapshotTokens => "PopulationSnapshot candidate_tokens must align with candidates"
  | constraints => "PopulationSnapshot constraints must align with candidates"

/-- The protocol types that `_decode_shared_value` knows: their objects, the `as_dict` of an object
and, for the name of a type, its `from_dict`. -/
structure ProtocolTypes where
  Object : Type
  asDict : Object → Wire
  fromDict : String → Option (List (String × Wire) → Except TypesError Object)

/-- The types when there are none. -/
def ProtocolTypes.none : ProtocolTypes where
  Object := Empty
  asDict := Empty.elim
  fromDict _ := Option.none

section Encode

variable {O : Type} (asDict : O → Wire)

mutual

/-- `_encode_shared_value` -/
def encode : Shared O → Wire
  | .none => .none
  | .bool b => .bool b
  | .int n => .int n
  | .float x => .float x
  | .text s => .text s
  | .seq items => .seq (encodeItems items)
  | .mapping entries => .mapping (encodeEntries entries)
  | .object o => asDict o

def encodeItems : List (Shared O) → List Wire
  | [] => []
  | v :: rest => encode v :: encodeItems rest

def encodeEntries : List (String × Shared O) → List (String × Wire)
  | [] => []
  | (k, v) :: rest => (k, encode v) :: encodeEntries rest

end

end Encode

/-- The protocol type of a mapping. -/
def protocolType {O : Type} (entries : List (String × Shared O)) : String :=
  match entries.lookup "protocol_type" with
  | some (.text s) => s
  | _ => ""

section Decode

variable (P : ProtocolTypes)

mutual

/-- `_decode_shared_value` -/
def decode : Wire → Except TypesError (Shared P.Object)
  | .none => .ok .none
  | .bool b => .ok (.bool b)
  | .int n => .ok (.int n)
  | .float x => .ok (.float x)
  | .text s => .ok (.text s)
  | .seq items => (decodeItems items).map .seq
  | .mapping entries =>
      match P.fromDict (protocolType entries) with
      | some fromDict => (fromDict entries).map .object
      | none => (decodeEntries entries).map .mapping
  | .object o => o.elim

def decodeItems : List Wire → Except TypesError (List (Shared P.Object))
  | [] => .ok []
  | v :: rest => do
      let v' ← decode v
      let rest' ← decodeItems rest
      return v' :: rest'

def decodeEntries : List (String × Wire) → Except TypesError (List (String × Shared P.Object))
  | [] => .ok []
  | (k, v) :: rest => do
      let v' ← decode v
      let rest' ← decodeEntries rest
      return (k, v') :: rest'

end

/-- The metadata of an object, a mapping. -/
abbrev Metadata := List (String × Shared P.Object)

/-- `dict(_decode_shared_value(metadata) or {})`. -/
def decodeMetadata (metadata : List (String × Wire)) : Except TypesError (Metadata P) := do
  match ← decode P (.mapping metadata) with
  | .mapping entries => .ok entries
  | _ => .error .notMapping

/-- What a constructor makes of metadata: they are encoded and decoded. -/
def canonical (metadata : Metadata P) : Except TypesError (Metadata P) :=
  decodeMetadata P (encodeEntries P.asDict metadata)

/-- Metadata after they have been encoded and decoded some times. -/
def recoded : ℕ → Metadata P → Except TypesError (Metadata P)
  | 0, metadata => .ok metadata
  | n + 1, metadata => canonical P metadata >>= recoded n

end Decode

/-! ## Plain data -/

mutual

/-- What is on the wire is encoded as it is. -/
theorem encode_wire : ∀ v : Wire, encode Empty.elim v = v
  | .none | .bool _ | .int _ | .float _ | .text _ => rfl
  | .seq items => congrArg Shared.seq (encodeItems_wire items)
  | .mapping entries => congrArg Shared.mapping (encodeEntries_wire entries)
  | .object o => o.elim

theorem encodeItems_wire : ∀ items : List Wire, encodeItems Empty.elim items = items
  | [] => rfl
  | v :: rest => congrArg₂ List.cons (encode_wire v) (encodeItems_wire rest)

theorem encodeEntries_wire :
    ∀ entries : List (String × Wire), encodeEntries Empty.elim entries = entries
  | [] => rfl
  | (k, v) :: rest =>
      congrArg₂ (fun v rest ↦ (k, v) :: rest) (encode_wire v) (encodeEntries_wire rest)

end

/-! ## Round trips -/

section RoundTrip

variable (P : ProtocolTypes)

mutual

/-- Values that the wire does not change: each object is read back from its own mapping, and no
mapping has the name of a protocol type. -/
def Faithful : Shared P.Object → Prop
  | .none | .bool _ | .int _ | .float _ | .text _ => True
  | .seq items => FaithfulItems items
  | .mapping entries =>
      P.fromDict (protocolType (encodeEntries P.asDict entries)) = none ∧ FaithfulEntries entries
  | .object o =>
      ∃ entries fromDict, P.asDict o = .mapping entries ∧
        P.fromDict (protocolType entries) = some fromDict ∧ fromDict entries = .ok o

def FaithfulItems : List (Shared P.Object) → Prop
  | [] => True
  | v :: rest => Faithful v ∧ FaithfulItems rest

def FaithfulEntries : List (String × Shared P.Object) → Prop
  | [] => True
  | (_, v) :: rest => Faithful v ∧ FaithfulEntries rest

end

variable {P}

theorem map_ok_iff {ε α β : Type} {f : α → β} {x : Except ε α} {b : β} :
    x.map f = .ok b ↔ ∃ a, x = .ok a ∧ f a = b := by
  cases x <;> simp [Except.map]

/-- Only a mapping with a protocol type becomes an object. -/
theorem decode_eq_object {w : Wire} {o : P.Object} :
    decode P w = .ok (.object o) ↔ ∃ entries fromDict, w = .mapping entries ∧
      P.fromDict (protocolType entries) = some fromDict ∧ fromDict entries = .ok o := by
  cases w with
  | object e => exact e.elim
  | mapping entries =>
      rw [decode]
      cases hread : P.fromDict (protocolType entries) <;> simp [map_ok_iff, hread]
  | none | bool b | int n | float x | text s | seq items => simp [decode, map_ok_iff]

/-- A mapping stays one when it has no protocol type. -/
theorem decode_mapping_eq {entries : List (String × Wire)} {back : Metadata P} :
    decode P (.mapping entries) = .ok (.mapping back) ↔
      P.fromDict (protocolType entries) = none ∧ decodeEntries P entries = .ok back := by
  rw [decode]
  cases P.fromDict (protocolType entries) <;> simp [map_ok_iff]

mutual

/-- `_decode_shared_value` gives back what `_encode_shared_value` was given, of the faithful values
and of no others. -/
theorem value_round_trip : ∀ v : Shared P.Object,
    decode P (encode P.asDict v) = .ok v ↔ Faithful P v
  | .none | .bool _ | .int _ | .float _ | .text _ => by simp [encode, decode, Faithful]
  | .seq items => by
      rw [encode, decode, Faithful, ← items_round_trip items, map_ok_iff]
      simp
  | .mapping entries => by
      rw [encode, Faithful, ← entries_round_trip entries, decode_mapping_eq]
  | .object o => by rw [encode, Faithful, decode_eq_object]

theorem items_round_trip : ∀ items : List (Shared P.Object),
    decodeItems P (encodeItems P.asDict items) = .ok items ↔ FaithfulItems P items
  | [] => by simp [encodeItems, decodeItems, FaithfulItems]
  | v :: rest => by
      rw [encodeItems, decodeItems, FaithfulItems, ← value_round_trip v, ← items_round_trip rest]
      cases decode P (encode P.asDict v) <;>
        cases decodeItems P (encodeItems P.asDict rest) <;>
          simp [bind, Except.bind, pure, Except.pure]

theorem entries_round_trip : ∀ entries : Metadata P,
    decodeEntries P (encodeEntries P.asDict entries) = .ok entries ↔ FaithfulEntries P entries
  | [] => by simp [encodeEntries, decodeEntries, FaithfulEntries]
  | (k, v) :: rest => by
      rw [encodeEntries, decodeEntries, FaithfulEntries, ← value_round_trip v,
        ← entries_round_trip rest]
      cases decode P (encode P.asDict v) <;>
        cases decodeEntries P (encodeEntries P.asDict rest) <;>
          simp [bind, Except.bind, pure, Except.pure]

end

theorem canonical_eq_self_iff {metadata : Metadata P} :
    canonical P metadata = .ok metadata ↔ Faithful P (.mapping metadata) := by
  rw [← value_round_trip, encode, canonical, decodeMetadata]
  cases h : decode P (.mapping (encodeEntries P.asDict metadata)) with
  | error e => simp [bind, Except.bind]
  | ok v => cases v <;> simp [bind, Except.bind]

/-- Metadata stand any number of constructions, one upon what the other wrote, just when they are
faithful. -/
theorem metadata_survive_iff (metadata : Metadata P) :
    (∀ n, recoded P n metadata = .ok metadata) ↔ Faithful P (.mapping metadata) := by
  rw [← canonical_eq_self_iff]
  constructor
  · intro h
    have hone : canonical P metadata >>= pure = .ok metadata := h 1
    rwa [bind_pure] at hone
  · intro h n
    induction n with
    | zero => rfl
    | succ n ih =>
        rw [recoded, h]
        exact ih

end RoundTrip

end Blackbase.Types

import Blackbase.Core.Attempt
import Blackbase.Types.NestedList
import Blackbase.Types.SharedValue

/-!
# Batches and populations on the wire

`UnknownState`, `CandidateBatch` and `PopulationSnapshot` of `types.py`: what their constructors
check, what `as_dict` writes and what `from_dict` reads.  Arrays are written as nested lists.  They
come back with their shape unless a dimension follows an empty one; the arrays of an object without
candidates begin with an empty dimension.
-/

namespace Blackbase.Types

open Project.Envelope (PyFloat)

/-! ## Arrays -/

namespace NdArray

variable (a : NdArray PyFloat)

/-- `a.shape[0]`. -/
def rows : ℕ := a.shape.headD 0

/-- `a.shape[1]`. -/
def width : ℕ := a.shape.getD 1 0

/-- `a[index]`, its elements. -/
def rowData (index : ℕ) : List PyFloat := (a.data.drop (index * a.width)).take a.width

/-- `a.reshape(-1)`. -/
def flat : NdArray PyFloat where
  shape := [a.data.length]
  data := a.data
  length_data := (List.prod_singleton).symm

/-- `a.reshape(1, -1)`. -/
def asRow : NdArray PyFloat where
  shape := [1, a.data.length]
  data := a.data
  length_data := by simp

/-- `a.reshape(-1, 1)`. -/
def asColumn : NdArray PyFloat where
  shape := [a.data.length, 1]
  data := a.data
  length_data := by simp

/-- An array without elements and with two dimensions. -/
def empty : NdArray PyFloat where
  shape := [0, 0]
  data := []
  length_data := rfl

/-- Two floats are equal, or both no number. -/
def sameFloat : PyFloat → PyFloat → Bool
  | .nan _, .nan _ => true
  | x, y => x = y

/-- `np.array_equal(values, row, equal_nan=True)`, for one dimension. -/
def sameElements : List PyFloat → List PyFloat → Bool
  | [], [] => true
  | x :: xs, y :: ys => sameFloat x y && sameElements xs ys
  | _, _ => false

end NdArray

/-! ## Tokens -/

/-- `str(token).strip() or None`. -/
def normalizeToken (token : Option String) : Option String :=
  (token.map Text.strip).filter (· ≠ "")

/-- The tokens of so many candidates. -/
def alignTokens (misaligned : TypesError) (count : ℕ) (tokens : List (Option String)) :
    Except TypesError (List (Option String)) :=
  let tokens := if tokens = [] then List.replicate count none else tokens
  if tokens.length ≠ count then .error misaligned else .ok (tokens.map normalizeToken)

/-! ## States -/

variable (P : ProtocolTypes)

/-- `UnknownState` -/
structure UnknownState where
  values : NdArray PyFloat
  metadata : Metadata P

/-- `UnknownState.as_dict()`. -/
structure StatePayload where
  values : Nested PyFloat
  metadata : List (String × Wire)

/-- `np.asarray(values, dtype=float)`. -/
def readArray (values : Nested PyFloat) : Except TypesError (NdArray PyFloat) :=
  values.asarray.elim (.error .inhomogeneous) .ok

namespace UnknownState

/-- `UnknownState.__post_init__`. -/
def make (values : NdArray PyFloat) (metadata : Metadata P) :
    Except TypesError (UnknownState P) := do
  let metadata ← canonical P metadata
  return ⟨values, metadata⟩

variable {P}

/-- `as_dict` -/
def asDict (s : UnknownState P) : StatePayload :=
  ⟨s.values.tolist, encodeEntries P.asDict s.metadata⟩

variable (P)

/-- `from_protocol_payload` -/
def fromProtocolPayload (payload : StatePayload) : Except TypesError (UnknownState P) := do
  let values ← readArray payload.values
  let metadata ← decodeMetadata P payload.metadata
  make P values metadata

end UnknownState

/-- `_encode_shared_value` of what `as_dict` wrote. -/
def StatePayload.encode (payload : StatePayload) : StatePayload :=
  ⟨payload.values, encodeEntries Empty.elim payload.metadata⟩

/-! ## Batches -/

/-- `CandidateBatch` -/
structure CandidateBatch where
  semanticStates : List (UnknownState P)
  numericMatrix : NdArray PyFloat
  candidateTokens : List (Option String)

/-- `CandidateBatch.as_dict()`; the header is the one `from_dict` asks for. -/
structure BatchPayload where
  semanticStates : List StatePayload
  numericMatrix : Nested PyFloat
  candidateTokens : List (Option String)

namespace CandidateBatch

/-- The numeric matrix, if it is a single row. -/
def asMatrix (matrix : NdArray PyFloat) : NdArray PyFloat :=
  if matrix.ndim = 1 then (if matrix.size ≠ 0 then matrix.asRow else .empty) else matrix

/-- A state that agrees with its row, detached. -/
def detach (matrix : NdArray PyFloat) (index : ℕ) (state : UnknownState P) :
    Except TypesError (UnknownState P) :=
  let values := state.values.flat
  if values.size ≠ matrix.width then .error (.stateDimension index values.size matrix.width)
  else if NdArray.sameElements values.data (matrix.rowData index) = false then
    .error (.stateRow index)
  else do
    let metadata ← canonical P state.metadata
    UnknownState.make P values metadata

/-- The loop over the states. -/
def detachAll (matrix : NdArray PyFloat) :
    ℕ → List (UnknownState P) → Except TypesError (List (UnknownState P))
  | _, [] => .ok []
  | index, state :: rest => do
      let state' ← detach P matrix index state
      let rest' ← detachAll matrix (index + 1) rest
      return state' :: rest'

/-- `CandidateBatch.__post_init__`, for states that are `UnknownState`s. -/
def make (states : List (UnknownState P)) (matrix : NdArray PyFloat)
    (tokens : List (Option String)) : Except TypesError (CandidateBatch P) := do
  let matrix := asMatrix matrix
  if matrix.ndim ≠ 2 then throw .matrixNotTwoDimensional
  if matrix.rows ≠ states.length then throw (.rowCounts states.length matrix.rows)
  let detached ← detachAll P matrix 0 states
  let tokens ← alignTokens .batchTokens states.length tokens
  return ⟨detached, matrix, tokens⟩

variable {P}

/-- `as_dict` -/
def asDict (x : CandidateBatch P) : BatchPayload :=
  ⟨x.semanticStates.map UnknownState.asDict, x.numericMatrix.tolist, x.candidateTokens⟩

variable (P)

/-- `from_dict` -/
def fromDict (payload : BatchPayload) : Except TypesError (CandidateBatch P) := do
  let states ← payload.semanticStates.mapM (UnknownState.fromProtocolPayload P)
  let matrix ← readArray payload.numericMatrix
  make P states matrix payload.candidateTokens

end CandidateBatch

/-! ## Populations -/

/-- `PopulationSnapshot` -/
structure PopulationSnapshot where
  candidates : List (UnknownState P)
  objectives : NdArray PyFloat
  constraints : Option (NdArray PyFloat)
  candidateTokens : List (Option String)
  generation : ℤ
  timestamp : PyFloat
  metadata : Metadata P

/-- `PopulationSnapshot.as_dict()`; the header is the one `from_dict` asks for. -/
structure SnapshotPayload where
  candidates : List StatePayload
  objectives : Nested PyFloat
  constraints : Option (Nested PyFloat)
  candidateTokens : List (Option String)
  generation : ℤ
  timestamp : PyFloat
  metadata : List (String × Wire)

namespace PopulationSnapshot

/-- The objectives, if they have one dimension. -/
def asObjectives (count : ℕ) (objectives : NdArray PyFloat) : NdArray PyFloat :=
  if objectives.ndim = 1 then (if count = 1 then objectives.asRow else objectives.asColumn)
  else objectives

/-- The check of the constraints. -/
def checkConstraints (count : ℕ) (constraints : NdArray PyFloat) :
    Except TypesError (NdArray PyFloat) :=
  let constraints := if constraints.ndim = 0 then constraints.flat else constraints
  if constraints.rows ≠ count then .error .constraints else .ok constraints

/-- `PopulationSnapshot.__post_init__`, for candidates that are `UnknownState`s. -/
def make (candidates : List (UnknownState P)) (objectives : NdArray PyFloat)
    (constraints : Option (NdArray PyFloat)) (tokens : List (Option String)) (generation : ℤ)
    (timestamp : PyFloat) (metadata : Metadata P) : Except TypesError (PopulationSnapshot P) := do
  let objectives := asObjectives candidates.length objectives
  if objectives.ndim ≠ 2 ∨ objectives.rows ≠ candidates.length then throw .objectives
  let tokens ← alignTokens .snapshotTokens candidates.length tokens
  let constraints ← constraints.mapM (checkConstraints candidates.length)
  let metadata ← canonical P metadata
  return ⟨candidates, objectives, constraints, tokens, generation, timestamp, metadata⟩

variable {P}

/-- `as_dict` -/
def asDict (x : PopulationSnapshot P) : SnapshotPayload where
  candidates := x.candidates.map fun c ↦ c.asDict.encode
  objectives := x.objectives.tolist
  constraints := x.constraints.map NdArray.tolist
  candidateTokens := x.candidateTokens
  generation := x.generation
  timestamp := x.timestamp
  metadata := encodeEntries P.asDict x.metadata

variable (P)

/-- `from_dict` -/
def fromDict (payload : SnapshotPayload) : Except TypesError (PopulationSnapshot P) := do
  let candidates ← payload.candidates.mapM (UnknownState.fromProtocolPayload P)
  let objectives ← readArray payload.objectives
  let constraints ← payload.constraints.mapM readArray
  let metadata ← decodeMetadata P payload.metadata
  make P candidates objectives constraints payload.candidateTokens payload.generation
    (payload.timestamp.orElse .zero) metadata

end PopulationSnapshot

end Blackbase.Types

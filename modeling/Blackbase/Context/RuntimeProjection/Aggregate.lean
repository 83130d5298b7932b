import Blackbase.Context.RuntimeProjection.Model

/-!
# Aggregation

`aggregate_runtime_projections`, called with its components alone: the projectors of the
components are called one after the other, what becomes of each is counted, the components that
are not well leave an issue, and of every field the first value is kept.

The projection that comes out is made by the constructor, which checks it once more.
-/

namespace Blackbase.Context.RuntimeProjection

open Resources (Digest)

/-! ## Components -/

/-- The name of a component, as it is kept. -/
structure ComponentName where
  text : PointText
  ne_nil : text ≠ []
  length_le : text.bytes.length ≤ componentMaxBytes

variable (sha256 : List UInt8 → Digest) {V : Type}

/-- What becomes of a component: it has no projector, its projector raises, or returns what is no
mapping, a mapping that cannot be read, a mapping, or a projection.  Keys and values may be
`None`. -/
inductive Outcome (V : Type) where
  | unavailable
  | raises (errorType message : PointText)
  | invalid (typeName : PointText)
  | unreadable (errorType message : PointText)
  | plain (items : List (Option PointText × Option V))
  | projection (p : Projection sha256 V)

/-- A component with what becomes of it. -/
abbrev Asked (V : Type) := ComponentName × Outcome sha256 V

/-- The items of a mapping without `None`. -/
def readable (items : List (Option PointText × Option V)) : List (PointText × V) :=
  items.filterMap fun e ↦
    match e with
    | (some k, some v) => some (k, v)
    | _ => none

/-! ## The accumulator -/

/-- `RuntimeProjectionIssueAccumulator`, with the parts that its digest was updated with. -/
structure Accumulator where
  sampleLimit : ℕ
  count : ℕ
  samples : List Issue
  parts : List PointText

def Accumulator.empty : Accumulator := ⟨maxIssueSamples, 0, [], []⟩

inductive AggregateError where
  | overflow
  | memory
  | projection (e : ProjectionError)
deriving DecidableEq

def Accumulator.add (a : Accumulator) (i : Issue) : Except AggregateError Accumulator :=
  if maxComponents ≤ a.count then .error .overflow
  else .ok {
    a with
    count := a.count + 1
    samples := if a.samples.length < a.sampleLimit then a.samples ++ [i] else a.samples
    parts := a.parts ++ [textOf i.digest] }

/-! ## The loop -/

/-- The five ways in which a component is counted. -/
inductive Class where
  | successful
  | degraded
  | failed
  | invalid
  | unavailable
deriving DecidableEq

/-- What has been put together of a projection. -/
structure Progress (V : Type) where
  merged : List (PointText × V)
  writers : List (PointText × PointText)
  successful : ℕ
  degraded : ℕ
  failed : ℕ
  invalid : ℕ
  unavailable : ℕ
  issues : Accumulator
  nodup : (merged.map Prod.fst).Nodup
  keys_eq : writers.map Prod.fst = merged.map Prod.fst

namespace Progress

def start : Progress V := ⟨[], [], 0, 0, 0, 0, 0, .empty, List.nodup_nil, rfl⟩

def count (s : Progress V) : Class → Progress V
  | .successful => { s with successful := s.successful + 1 }
  | .degraded => { s with degraded := s.degraded + 1 }
  | .failed => { s with failed := s.failed + 1 }
  | .invalid => { s with invalid := s.invalid + 1 }
  | .unavailable => { s with unavailable := s.unavailable + 1 }

def addIssue (s : Progress V) (i : Issue) : Except AggregateError (Progress V) := do
  let issues ← s.issues.add i
  .ok { s with issues := issues }

/-- A field that is not there yet, with its source. -/
def addField (s : Progress V) (k : PointText) (v : V) (source : PointText) : Progress V :=
  if h : k ∈ s.merged.map Prod.fst then s
  else {
    s with
    merged := s.merged ++ [(k, v)]
    writers := s.writers ++ [(k, source)]
    nodup := by
      rw [List.map_append]
      exact List.Nodup.append s.nodup (List.nodup_singleton k)
        (List.disjoint_singleton.mpr h)
    keys_eq := by
      rw [List.map_append, List.map_append, s.keys_eq]
      rfl }

def addFields (s : Progress V) (fields : List (PointText × V × PointText)) : Progress V :=
  fields.foldl (fun s e ↦ s.addField e.1 e.2.1 e.2.2) s

end Progress

/-- `_projection_issue_from_error`, for the message that the error has. -/
def issueFromError (name : ComponentName) (reason : String) (errorType message : PointText) :
    Issue :=
  .make sha256 name.text (PointText.ofString reason) errorType message none

def invalidMessage (typeName : PointText) : PointText :=
  PointText.ofString "child runtime projection must return a Mapping, got " ++ typeName

def nestedReason : Status → String
  | .degraded => "nested_degraded"
  | _ => "nested_error"

/-- The issue of a projection that is not well. -/
def nestedIssue (name : ComponentName) (status : Status) (auditDigest : Digest) : Issue :=
  .make sha256 name.text (PointText.ofString (nestedReason status)) [] [] (some auditDigest)

variable {sha256}

/-- One turn of the loop. -/
def Progress.ask (s : Progress V) (c : Asked sha256 V) : Except AggregateError (Progress V) :=
  match c.2 with
  | .unavailable => .ok (s.count .unavailable)
  | .raises errorType message =>
      (s.count .failed).addIssue (issueFromError sha256 c.1 "error" errorType message)
  | .invalid typeName =>
      (s.count .invalid).addIssue (issueFromError sha256 c.1 "invalid_result"
        (PointText.ofString "TypeError") (invalidMessage typeName))
  | .unreadable errorType message =>
      (s.count .failed).addIssue (issueFromError sha256 c.1 "error" errorType message)
  | .plain items =>
      .ok ((s.count .successful).addFields
        ((readable items).map fun e ↦ (e.1, e.2, c.1.text)))
  | .projection p => do
      let fields := p.fields.map fun e ↦ (e.1, e.2, (p.fieldSources.lookup e.1).getD c.1.text)
      let s ← match p.status with
        | .ok => .ok (s.count .successful)
        | .degraded =>
            (s.count .degraded).addIssue (nestedIssue sha256 c.1 .degraded p.auditDigest)
        | .error => (s.count .failed).addIssue (nestedIssue sha256 c.1 .error p.auditDigest)
      .ok (s.addFields fields)

def Progress.counts (s : Progress V) (components : ℕ) : Counts :=
  ⟨components, s.successful, s.degraded, s.failed, s.invalid, s.unavailable⟩

variable (sha256) in
/-- What the projection is made from when the loop is done. -/
def Progress.args (s : Progress V) (components : ℕ) (hsize : s.writers.length ≤ maxSize) :
    Args V where
  fields := s.merged
  fieldSources := s.writers
  status := (s.counts components).expectedStatus
  counts := s.counts components
  issueSamples := s.issues.samples
  issueSampleLimit := s.issues.sampleLimit
  issueCount := some s.issues.count
  issueDigest := some (digestOf sha256 s.issues.parts)
  auditTruncated := decide (s.issues.samples.length < s.issues.count)
  nodup_fields := s.nodup
  nodup_sources := s.keys_eq ▸ s.nodup
  length_sources := hsize

/-- The projection of so many components.  A dictionary that is too large does not come to be. -/
def Progress.finish (s : Progress V) (components : ℕ) :
    Except AggregateError (Projection sha256 V) :=
  if hsize : s.writers.length ≤ maxSize then
    (Projection.make sha256 (s.args sha256 components hsize)).mapError .projection
  else .error .memory

/-- `aggregate_runtime_projections`, of components and what becomes of them. -/
def aggregate (cs : List (Asked sha256 V)) : Except AggregateError (Projection sha256 V) := do
  let s ← cs.foldlM Progress.ask .start
  s.finish cs.length

/-! ## Trees of components -/

/-- The text of what the constructor raises, up to the name of a field. -/
def ProjectionError.message : ProjectionError → String
  | sourceOfAbsentField => "runtime projection field_sources cannot name an absent field: "
  | countLimit => "component_count must be between 0 and 2147483647"
  | classification => "runtime projection component classifications must sum to component_count"
  | status expected given => "runtime projection status is inconsistent with component counts: " ++
      "expected '" ++ expected.name ++ "', got '" ++ given.name ++ "'"
  | sampleLimit => "issue_sample_limit cannot exceed 16"
  | tooManySamples =>
      "issue_samples cannot exceed 16; use issue_count and issue_digest for omitted evidence"
  | samplesOverLimit => "issue_samples cannot exceed issue_sample_limit"
  | issueCount => "issue_count must equal degraded + failed + invalid component counts"
  | issueDigest => "issue_digest does not match issue_samples"

namespace AggregateError

def errorType : AggregateError → String
  | overflow => "OverflowError"
  | memory => "MemoryError"
  | projection _ => "ValueError"

def message : AggregateError → String
  | overflow => "runtime projection issue count exceeds protocol limit"
  | memory => ""
  | projection e => e.message

end AggregateError

/-- A tree of components.  A leaf is what becomes of its projector; the projector of a node
aggregates the components below and returns the projection. -/
inductive Tree (V : Type) where
  | unavailable
  | raises (errorType message : PointText)
  | invalid (typeName : PointText)
  | unreadable (errorType message : PointText)
  | plain (items : List (Option PointText × Option V))
  | node (children : List (ComponentName × Tree V))

/-- The components below a node. -/
abbrev Children (V : Type) := List (ComponentName × Tree V)

variable (sha256)

mutual

/-- What becomes of a component. -/
def Tree.outcome : Tree V → Outcome sha256 V
  | .unavailable => .unavailable
  | .raises errorType message => .raises errorType message
  | .invalid typeName => .invalid typeName
  | .unreadable errorType message => .unreadable errorType message
  | .plain items => .plain items
  | .node children =>
    match aggregate (asked children) with
    | .ok p => .projection p
    | .error e => .raises (PointText.ofString e.errorType) (PointText.ofString e.message)

/-- The components below a node with what becomes of them. -/
def asked : List (ComponentName × Tree V) → List (Asked sha256 V)
  | [] => []
  | (name, t) :: rest => (name, t.outcome) :: asked rest

end

end Blackbase.Context.RuntimeProjection

import Blackbase.Project.Envelope.Artifacts
import Blackbase.Project.Envelope.Control

/-!
# Requests of Case runs

`CaseRunRequest` of `project/execution.py` with its nested envelopes: the `BudgetHandle` of
`resources/budget_account.py`, the `ChildResourceGrant` and the `CaseFailure`.

A grant checks the number of its threads before its resources are detached.  What it then keeps,
and writes into its `as_dict`, may be a value that the check refuses: reading a request back
repeats the check, and nothing else can fail.
-/

namespace Blackbase.Project.Envelope

/-! ## Budget handles -/

/-- The arguments of the constructor of `BudgetHandle`. -/
structure HandleArgs where
  handleId : String
  budget : String
  authorityBudget : String
  limit : ℤ
  authority : PyValue
  leaseId : String
  fencingToken : ℤ
  parentReservationId : String
  metadata : PyValue

/-- `BudgetHandle`, which keeps its mappings as they are. -/
structure BudgetHandle where
  handleId : Label
  budget : Label
  authorityBudget : Label
  limit : ℕ
  authority : Payload
  leaseId : String
  fencingToken : ℕ
  parentReservationId : String
  metadata : Payload

namespace BudgetHandle

variable (R : Runtime)

/-- `BudgetHandle.__post_init__`. -/
def make (a : HandleArgs) : Except Raised BudgetHandle := do
  let some handleId := Label.parse a.handleId
    | throw (.valueError "budget handle_id must be non-empty")
  let some budget := Label.parse a.budget
    | throw (.valueError "budget handle names must be non-empty")
  let some authorityBudget := Label.parse (Resources.orDefault a.authorityBudget budget.text)
    | throw (.valueError "budget handle names must be non-empty")
  if a.limit < 0 then throw (.valueError "budget handle limit must be non-negative")
  let authority ← R.dictOrEmpty a.authority
  let metadata ← R.dictOrEmpty a.metadata
  return {
    handleId := handleId
    budget := budget
    authorityBudget := authorityBudget
    limit := a.limit.toNat
    authority := authority
    leaseId := a.leaseId
    fencingToken := a.fencingToken.toNat
    parentReservationId := a.parentReservationId
    metadata := metadata }

/-- `BudgetHandle.from_dict`. -/
def fromDict (v : PyValue) : Except Raised BudgetHandle := do
  let d ← Runtime.mappingOf v
  let limit ← R.intOrZero (d.get "limit" (.int 0))
  let authority ← R.readDict (d.get "authority" (obj []))
  let fencingToken ← R.intOrZero (d.get "fencing_token" (.int 0))
  let metadata ← R.readDict (d.get "metadata" (obj []))
  make R {
    handleId := R.strOf (d.get "handle_id" (.text ""))
    budget := R.strOf (d.get "budget" (.text ""))
    authorityBudget := R.strOf (d.get "authority_budget" (d.get "budget" (.text "")))
    limit := limit
    authority := authority
    leaseId := R.strOf (d.get "lease_id" (.text ""))
    fencingToken := fencingToken
    parentReservationId := R.strOf (d.get "parent_reservation_id" (.text ""))
    metadata := metadata }

/-- `BudgetHandle.as_dict`. -/
def asDict (h : BudgetHandle) : PyValue :=
  obj [
    ("handle_id", .text h.handleId.text),
    ("budget", .text h.budget.text),
    ("authority_budget", .text h.authorityBudget.text),
    ("limit", .int h.limit),
    ("authority", .mapping h.authority),
    ("lease_id", .text h.leaseId),
    ("fencing_token", .int h.fencingToken),
    ("parent_reservation_id", .text h.parentReservationId),
    ("metadata", .mapping h.metadata)]

/-- The fields of a handle. -/
def args (h : BudgetHandle) : HandleArgs where
  handleId := h.handleId.text
  budget := h.budget.text
  authorityBudget := h.authorityBudget.text
  limit := h.limit
  authority := .mapping h.authority
  leaseId := h.leaseId
  fencingToken := h.fencingToken
  parentReservationId := h.parentReservationId
  metadata := .mapping h.metadata

/-- The constructor accepts the fields of a handle, and changes nothing. -/
theorem make_args (h : BudgetHandle) : make R h.args = .ok h := by
  have hlimit : ¬ (h.limit : ℤ) < 0 := by omega
  simp [make, args, Resources.orDefault_of_ne h.authorityBudget.ne, hlimit]

@[simp] theorem fromDict_asDict (h : BudgetHandle) : fromDict R h.asDict = .ok h := by
  rw [← make_args R h]
  simp [fromDict, asDict, args]

end BudgetHandle

/-! ## Grants -/

/-- The arguments of the constructor of `ChildResourceGrant`. -/
structure GrantArgs where
  grantId : String
  parentLeaseId : String
  parentCaseRunId : String
  ns : String
  resources : PyValue
  fencingToken : ℤ
  metadata : PyValue

/-- `ChildResourceGrant`. -/
structure ChildResourceGrant where
  grantId : Label
  parentLeaseId : String
  parentCaseRunId : String
  ns : String
  resources : WireMapping
  fencingToken : ℕ
  metadata : WireMapping

namespace ChildResourceGrant

variable (R : Runtime)

/-- The check that `int(resources.get("threads", 1) or 1)` is positive. -/
def checkThreads (resources : Payload) : Except Raised Unit := do
  let threads ← R.intOf ((resources.get "threads" (.int 1)).orElse (.int 1))
  if threads < 1 then throw (.valueError "child grant threads must be positive")

/-- `ChildResourceGrant.__post_init__`. -/
def make (a : GrantArgs) : Except Raised ChildResourceGrant := do
  let some grantId := Label.parse a.grantId
    | throw (.valueError "child grant_id must be non-empty")
  let resources ← R.dictOrEmpty a.resources
  checkThreads R resources
  let frozen ← R.wireMapping notTransportSafe "child_grant.resources" (.mapping resources)
  let metadata ← R.wireMapping notTransportSafe "child_grant.metadata" a.metadata
  return {
    grantId := grantId
    parentLeaseId := a.parentLeaseId
    parentCaseRunId := a.parentCaseRunId
    ns := a.ns
    resources := frozen
    fencingToken := a.fencingToken.toNat
    metadata := metadata }

/-- `ChildResourceGrant.from_dict`. -/
def fromDict (v : PyValue) : Except Raised ChildResourceGrant := do
  let d ← Runtime.mappingOf v
  let resources ← R.readDict (d.get "resources" (obj []))
  let fencingToken ← R.intOrZero (d.get "fencing_token" (.int 0))
  let metadata ← R.readDict (d.get "metadata" (obj []))
  make R {
    grantId := R.strOf (d.get "grant_id" (.text ""))
    parentLeaseId := R.strOf (d.get "parent_lease_id" (.text ""))
    parentCaseRunId := R.strOf (d.get "parent_case_run_id" (.text ""))
    ns := R.strOf (d.get "namespace" (.text ""))
    resources := resources
    fencingToken := fencingToken
    metadata := metadata }

/-- `ChildResourceGrant.as_dict`. -/
def asDict (g : ChildResourceGrant) : PyValue :=
  obj [
    ("grant_id", .text g.grantId.text),
    ("parent_lease_id", .text g.parentLeaseId),
    ("parent_case_run_id", .text g.parentCaseRunId),
    ("namespace", .text g.ns),
    ("resources", g.resources.thawed),
    ("fencing_token", .int g.fencingToken),
    ("metadata", g.metadata.thawed)]

/-- The resources as `as_dict` writes them. -/
def written (g : ChildResourceGrant) : Payload :=
  payload (thawEntries (payload g.resources.dict.entries))

/-- The check passes for the resources that `as_dict` writes. -/
def Reads (g : ChildResourceGrant) : Prop := checkThreads R g.written = .ok ()

/-- Reading a grant back repeats the check of its threads. -/
theorem fromDict_asDict (g : ChildResourceGrant) :
    fromDict R g.asDict = (checkThreads R g.written).map fun _ ↦ g := by
  have hresources : R.dictOrEmpty g.resources.thawed = .ok g.written := by
    rw [g.resources.thawed_eq, R.dictOrEmpty_mapping]
    rfl
  have hwritten : PyValue.mapping g.written = g.resources.thawed := g.resources.thawed_eq.symm
  simp only [fromDict, asDict, make, Runtime.mappingOf_obj, ok_bind, get_payload_cons,
    String.reduceEq, ↓reduceIte, R.readDict_thawed, R.intOrZero_int, R.strOf_text,
    Label.parse_text, hresources, hwritten, R.wireMapping_shown g.resources.shown_thawed,
    R.wireMapping_shown g.metadata.shown_thawed]
  cases checkThreads R g.written <;> rfl

end ChildResourceGrant

/-! ## Failures -/

/-- The arguments of the constructor of `CaseFailure`. -/
structure FailureArgs where
  kind : String
  message : String
  phase : String
  retryable : Bool
  tracebackRef : Option (Given DataRef)
  cause : PyValue
  details : PyValue

/-- `CaseFailure`. -/
structure CaseFailure where
  kind : String
  message : String
  phase : Filled
  retryable : Bool
  tracebackRef : Option DataRef
  cause : WireMapping
  details : WireMapping
  kind_ne : Text.strip kind ≠ ""

namespace CaseFailure

variable (R : Runtime)

/-- A nested envelope that may be missing. -/
def takeOptional {α : Type} (fromDict : PyValue → Except Raised α) :
    Option (Given α) → Except Raised (Option α)
  | none => .ok none
  | some given => (given.take fromDict).map some

/-- An envelope that is read if there is a mapping for it. -/
def readOptional {α : Type} (fromDict : PyValue → Except Raised α) :
    PyValue → Except Raised (Option α)
  | .mapping entries => (fromDict (.mapping entries)).map some
  | _ => .ok none

/-- The `as_dict` of an envelope that may be missing. -/
def shownOptional {α : Type} (asDict : α → PyValue) : Option α → PyValue
  | none => .none
  | some x => asDict x

@[simp] theorem takeOptional_built {α : Type} (fromDict : PyValue → Except Raised α)
    (x : Option α) : takeOptional fromDict (x.map .built) = .ok x := by
  cases x <;> rfl

theorem readOptional_ref (x : Option DataRef) :
    readOptional (DataRef.fromDict R) (shownOptional DataRef.asDict x) = .ok x := by
  cases x with
  | none => rfl
  | some r => exact congrArg (Except.map some) (DataRef.fromDict_asDict R r)

theorem defaultPhase_ne : "run" ≠ "" := by decide

/-- `CaseFailure.__post_init__`. -/
def make (a : FailureArgs) : Except Raised CaseFailure :=
  if hkind : Text.strip a.kind = "" then .error (.valueError "failure kind must be non-empty")
  else do
    let tracebackRef ← takeOptional (DataRef.fromDict R) a.tracebackRef
    let cause ← R.wireMapping notTransportSafe "failure.cause" a.cause
    let details ← R.wireMapping notTransportSafe "failure.details" a.details
    return {
      kind := a.kind
      message := a.message
      phase := Filled.orDefault a.phase ⟨"run", defaultPhase_ne⟩
      retryable := a.retryable
      tracebackRef := tracebackRef
      cause := cause
      details := details
      kind_ne := hkind }

/-- `CaseFailure.from_dict`. -/
def fromDict (v : PyValue) : Except Raised CaseFailure := do
  let d ← Runtime.mappingOf v
  let tracebackRef ← readOptional (DataRef.fromDict R) (d.get "traceback_ref" .none)
  let cause ← R.readDict (d.get "cause" (obj []))
  let details ← R.readDict (d.get "details" (obj []))
  make R {
    kind := R.strOf (d.get "kind" (.text "Failure"))
    message := R.strOf (d.get "message" (.text ""))
    phase := R.strOf (d.get "phase" (.text "run"))
    retryable := (d.get "retryable" (.bool false)).truthy
    tracebackRef := tracebackRef.map .built
    cause := cause
    details := details }

/-- `CaseFailure.as_dict`. -/
def asDict (f : CaseFailure) : PyValue :=
  obj [
    ("kind", .text f.kind),
    ("message", .text f.message),
    ("phase", .text f.phase.text),
    ("retryable", .bool f.retryable),
    ("traceback_ref", shownOptional DataRef.asDict f.tracebackRef),
    ("cause", f.cause.thawed),
    ("details", f.details.thawed)]

/-- The fields of a failure, with its mappings in the form `form`. -/
def args (f : CaseFailure) (form : WireMapping → PyValue) : FailureArgs where
  kind := f.kind
  message := f.message
  phase := f.phase.text
  retryable := f.retryable
  tracebackRef := f.tracebackRef.map .built
  cause := form f.cause
  details := form f.details

/-- The constructor accepts the fields of a failure, and changes nothing. -/
theorem make_args (f : CaseFailure) {form : WireMapping → PyValue}
    (hform : ∀ m : WireMapping, m.Shown (form m)) : make R (f.args form) = .ok f := by
  simp [make, args, f.kind_ne, R.wireMapping_shown (hform _)]

@[simp] theorem fromDict_asDict (f : CaseFailure) : fromDict R f.asDict = .ok f := by
  rw [← make_args R f WireMapping.shown_thawed]
  simp [fromDict, asDict, args, readOptional_ref, PyValue.truthy]

end CaseFailure

/-! ## Requests -/

/-- `CASE_RUN_SCHEMA_VERSION`. -/
def caseRunSchemaVersion : ℤ := 3

/-- The arguments of the constructor of `CaseRunRequest`. -/
structure RequestArgs (R : Runtime) where
  projectName : String
  stageName : String
  caseName : String
  caseKind : String
  mode : String
  identity : Given CaseRunIdentity
  control : Given ExecutionControl
  resourceRequest : PyValue
  budgetRequest : PyValue
  resourceContext : PyValue
  childGrant : Option (Given ChildResourceGrant)
  budgetHandles : List (PyKey × Given BudgetHandle)
  componentOverrides : PyValue
  inputArtifacts : List (PyKey × Given DataRef)
  inputArtifactBindings : List (PyKey × Given (ArtifactBinding R))
  inputs : PyValue
  argv : PyValue
  metadata : PyValue
  schemaVersion : ℤ

/-- `CaseRunRequest`.  Its `input_artifacts` are the references of its bindings. -/
structure CaseRunRequest (R : Runtime) where
  projectName : String
  stageName : String
  caseName : String
  caseKind : Filled
  mode : Filled
  identity : CaseRunIdentity
  control : ExecutionControl
  resourceRequest : WireMapping
  budgetRequest : OrderedDict ℕ
  resourceContext : WireMapping
  childGrant : Option ChildResourceGrant
  budgetHandles : OrderedDict BudgetHandle
  componentOverrides : WireMapping
  inputArtifactBindings : OrderedDict (ArtifactBinding R)
  inputs : WireMapping
  argv : List String
  metadata : WireMapping

namespace CaseRunRequest

variable {R : Runtime}

/-- `input_artifacts`. -/
def inputArtifacts (q : CaseRunRequest R) : OrderedDict DataRef :=
  q.inputArtifactBindings.map ArtifactBinding.ref

/-- One entry of `{str(key): int(value) for ...}`. -/
def intEntry (R : Runtime) (e : PyKey × PyValue) : Except Raised (String × ℤ) :=
  (R.intOf e.2).map fun n ↦ (e.1.str, n)

/-- `{str(key): int(value) for key, value in dict(v or {}).items()}`. -/
def readInts (R : Runtime) (v : PyValue) : Except Raised (OrderedDict ℤ) :=
  (R.dictOrEmpty v).bind fun entries ↦ (entries.mapM (intEntry R)).map .ofList

/-- A dictionary of amounts. -/
def amounts (d : OrderedDict ℕ) : PyValue := obj (d.map fun n : ℕ ↦ .int n).entries

theorem mapM_intEntry (R : Runtime) (l : List (String × ℕ)) :
    (payload (l.map fun e ↦ (e.1, .int e.2))).mapM (intEntry R) =
      .ok (l.map fun e ↦ (e.1, (e.2 : ℤ))) := by
  induction l with
  | nil => rfl
  | cons e rest ih =>
      rw [List.map_cons, payload, List.map_cons, ← payload, List.mapM_cons, ih]
      rfl

theorem readInts_amounts (R : Runtime) (d : OrderedDict ℕ) :
    readInts R (amounts d) = .ok (d.map fun n : ℕ ↦ (n : ℤ)) := by
  rw [readInts, amounts, R.dictOrEmpty_obj, Except.bind, OrderedDict.entries_map, mapM_intEntry,
    ← OrderedDict.entries_map fun n : ℕ ↦ (n : ℤ)]
  exact congrArg Except.ok (OrderedDict.ofList_entries _)

theorem map_toNat (d : OrderedDict ℕ) : (d.map fun n : ℕ ↦ (n : ℤ)).map Int.toNat = d := by
  rw [OrderedDict.map_map]
  exact d.map_id

theorem defaultCaseKind_ne : "solver" ≠ "" := by decide

/-- `CaseRunRequest.__post_init__`. -/
def make (R : Runtime) (t : Moment) (a : RequestArgs R) : Except Raised (CaseRunRequest R) := do
  let version := a.schemaVersion
  if version ≠ caseRunSchemaVersion then
    throw (.valueError s!"unsupported CaseRunRequest schema_version={version}")
  let identity ← a.identity.take (CaseRunIdentity.fromDict R t)
  let control ← a.control.take (ExecutionControl.fromDict R t)
  let childGrant ← CaseFailure.takeOptional (ChildResourceGrant.fromDict R) a.childGrant
  let handles ← collect (BudgetHandle.fromDict R) a.budgetHandles
  let refs ← collect (DataRef.fromDict R) a.inputArtifacts
  let bindings ← collect (ArtifactBinding.fromDict R) a.inputArtifactBindings
  if refs.entries ≠ [] ∧ bindings.entries = [] then
    throw (.valueError
      ("formal input_artifacts require authority-issued ArtifactBinding values; " ++
        "put ordinary DataRef values in request.inputs instead"))
  if refs.entries ≠ [] ∧ refs.sameBy DataRef.same (bindings.map ArtifactBinding.ref) = false then
    throw (.valueError "input_artifacts do not match input_artifact_bindings")
  let resourceRequest ←
    R.wireMapping notTransportSafe "request.resource_request" a.resourceRequest
  let budgets ← readInts R a.budgetRequest
  if budgets.entries.any fun e ↦ decide (e.2 < 0) then
    throw (.valueError "Case budget_request values must be non-negative")
  let resourceContext ←
    R.wireMapping notTransportSafe "request.resource_context" a.resourceContext
  let componentOverrides ←
    R.wireMapping notTransportSafe "request.component_overrides" a.componentOverrides
  let inputs ← R.wireMapping notTransportSafe "request.inputs" a.inputs
  let argv ← R.itemsOf a.argv
  let metadata ← R.wireMapping notTransportSafe "request.metadata" a.metadata
  return {
    projectName := a.projectName
    stageName := a.stageName
    caseName := a.caseName
    caseKind := Filled.orDefault a.caseKind ⟨"solver", defaultCaseKind_ne⟩
    mode := Filled.orDefault a.mode ⟨"build", by decide⟩
    identity := identity
    control := control
    resourceRequest := resourceRequest
    budgetRequest := budgets.map Int.toNat
    resourceContext := resourceContext
    childGrant := childGrant
    budgetHandles := handles
    componentOverrides := componentOverrides
    inputArtifactBindings := bindings
    inputs := inputs
    argv := argv.map R.strOf
    metadata := metadata }

/-- The text of the error for another schema. -/
def olderSchema (version : ℤ) : String :=
  let expected := caseRunSchemaVersion
  s!"unsupported CaseRunRequest schema_version={version}; expected {expected}. " ++
    "Live older requests cannot be upgraded because they do not carry the current " ++
    "cancellation and Artifact authority bindings; upgrade every worker before dispatch"

/-- `CaseRunRequest.from_dict`. -/
def fromDict (R : Runtime) (t : Moment) (v : PyValue) : Except Raised (CaseRunRequest R) := do
  let d ← Runtime.mappingOf v
  let schemaVersion ← R.intOrZero (d.get "schema_version" (.int 0))
  if schemaVersion ≠ caseRunSchemaVersion then
    throw (.valueError (olderSchema schemaVersion))
  let identity ← CaseRunIdentity.fromDict R t (d.get "identity" .none)
  let control ← ExecutionControl.fromDict R t (d.get "control" .none)
  let resourceRequest ← R.readDict (d.get "resource_request" (obj []))
  let budgets ← readInts R (d.get "budget_request" (obj []))
  let resourceContext ← R.readDict (d.get "resource_context" (obj []))
  let childGrant ←
    CaseFailure.readOptional (ChildResourceGrant.fromDict R) (d.get "child_grant" .none)
  let handles ← R.readMap (BudgetHandle.fromDict R) (d.get "budget_handles" (obj []))
  let componentOverrides ← R.readDict (d.get "component_overrides" (obj []))
  let refs ← R.readMap (DataRef.fromDict R) (d.get "input_artifacts" (obj []))
  let bindings ←
    R.readMap (ArtifactBinding.fromDict R) (d.get "input_artifact_bindings" (obj []))
  let inputs ← R.readDict (d.get "inputs" (obj []))
  let argv ← R.itemsOf ((d.get "argv" (.tuple [])).orElse (.tuple []))
  let metadata ← R.readDict (d.get "metadata" (obj []))
  make R t {
    projectName := R.strOf (d.get "project_name" (.text ""))
    stageName := R.strOf (d.get "stage_name" (.text ""))
    caseName := R.strOf (d.get "case_name" (.text ""))
    caseKind := R.strOf (d.get "case_kind" (.text "solver"))
    mode := R.strOf (d.get "mode" (.text "build"))
    identity := .built identity
    control := .built control
    resourceRequest := resourceRequest
    budgetRequest := obj (budgets.map .int).entries
    resourceContext := resourceContext
    childGrant := childGrant.map .built
    budgetHandles := handed handles
    componentOverrides := componentOverrides
    inputArtifacts := handed refs
    inputArtifactBindings := handed bindings
    inputs := inputs
    argv := .tuple argv
    metadata := metadata
    schemaVersion := schemaVersion }

/-- `CaseRunRequest.as_dict`. -/
def asDict (q : CaseRunRequest R) : PyValue :=
  obj [
    ("schema_version", .int caseRunSchemaVersion),
    ("project_name", .text q.projectName),
    ("stage_name", .text q.stageName),
    ("case_name", .text q.caseName),
    ("case_kind", .text q.caseKind.text),
    ("mode", .text q.mode.text),
    ("identity", q.identity.asDict),
    ("control", q.control.asDict),
    ("resource_request", q.resourceRequest.thawed),
    ("budget_request", amounts q.budgetRequest),
    ("resource_context", q.resourceContext.thawed),
    ("child_grant", CaseFailure.shownOptional ChildResourceGrant.asDict q.childGrant),
    ("budget_handles", shownMap BudgetHandle.asDict q.budgetHandles),
    ("component_overrides", q.componentOverrides.thawed),
    ("input_artifacts", shownMap DataRef.asDict q.inputArtifacts),
    ("input_artifact_bindings", shownMap ArtifactBinding.asDict q.inputArtifactBindings),
    ("inputs", q.inputs.thawed),
    ("argv", .list (q.argv.map .text)),
    ("metadata", q.metadata.thawed)]

/-- The fields of a request, with its mappings in the form `form`. -/
def args (q : CaseRunRequest R) (form : WireMapping → PyValue) : RequestArgs R where
  projectName := q.projectName
  stageName := q.stageName
  caseName := q.caseName
  caseKind := q.caseKind.text
  mode := q.mode.text
  identity := .built q.identity
  control := .built q.control
  resourceRequest := form q.resourceRequest
  budgetRequest := amounts q.budgetRequest
  resourceContext := form q.resourceContext
  childGrant := q.childGrant.map .built
  budgetHandles := handed q.budgetHandles
  componentOverrides := form q.componentOverrides
  inputArtifacts := handed q.inputArtifacts
  inputArtifactBindings := handed q.inputArtifactBindings
  inputs := form q.inputs
  argv := .tuple (q.argv.map .text)
  metadata := form q.metadata
  schemaVersion := caseRunSchemaVersion

/-- The constructor accepts the fields of a request, and changes nothing. -/
theorem make_args (t : Moment) (q : CaseRunRequest R) {form : WireMapping → PyValue}
    (hform : ∀ m : WireMapping, m.Shown (form m)) : make R t (q.args form) = .ok q := by
  have hrefs : ¬ (q.inputArtifacts.entries ≠ [] ∧ q.inputArtifactBindings.entries = []) := by
    rintro ⟨hne, hempty⟩
    exact hne (List.map_eq_nil_iff.mpr hempty)
  have hsame : ¬ (q.inputArtifacts.entries ≠ [] ∧ q.inputArtifacts.sameBy DataRef.same
      (q.inputArtifactBindings.map ArtifactBinding.ref) = false) := by
    rintro ⟨-, hsame⟩
    rw [← inputArtifacts, OrderedDict.sameBy_self DataRef.same_self] at hsame
    cases hsame
  have hbudgets : ((q.budgetRequest.map fun n : ℕ ↦ (n : ℤ)).entries.any
      fun e ↦ decide (e.2 < 0)) = false := by
    rw [List.any_eq_false]
    rintro e he
    obtain ⟨p, -, rfl⟩ := List.mem_map.mp he
    simp
  have hargv : (q.argv.map PyValue.text).map R.strOf = q.argv := by
    rw [List.map_map]
    exact List.map_id _
  have hitems : R.itemsOf (.tuple (q.argv.map .text)) = .ok (q.argv.map .text) := rfl
  simp only [make, args, Given.take_built, CaseFailure.takeOptional_built, collect_handed, ok_bind,
    R.wireMapping_shown (hform _), readInts_amounts, hbudgets, hitems, hargv, map_toNat,
    Filled.orDefault_text]
  rw [if_neg (by simp), if_neg hrefs, if_neg hsame]
  rfl

/-- The check that reading the grant of a request repeats. -/
def checkGrant (q : CaseRunRequest R) : Except Raised Unit :=
  match q.childGrant with
  | none => .ok ()
  | some g => ChildResourceGrant.checkThreads R g.written

theorem readOptional_grant (q : CaseRunRequest R) :
    CaseFailure.readOptional (ChildResourceGrant.fromDict R)
        (CaseFailure.shownOptional ChildResourceGrant.asDict q.childGrant) =
      q.checkGrant.map fun _ ↦ q.childGrant := by
  unfold checkGrant
  cases q.childGrant with
  | none => rfl
  | some g =>
      refine (congrArg (Except.map some) (g.fromDict_asDict R)).trans ?_
      change _ = (ChildResourceGrant.checkThreads R g.written).map _
      cases ChildResourceGrant.checkThreads R g.written <;> rfl

/-- Reading a request back repeats the check of its grant, and gives the request. -/
theorem fromDict_asDict (t : Moment) (q : CaseRunRequest R) :
    fromDict R t q.asDict = q.checkGrant.map fun _ ↦ q := by
  have hargv : R.itemsOf ((PyValue.list (q.argv.map .text)).orElse (.tuple [])) =
      .ok (q.argv.map .text) := by
    cases q.argv <;> rfl
  have hamounts : obj ((q.budgetRequest.map fun n : ℕ ↦ (n : ℤ)).map .int).entries =
      amounts q.budgetRequest := by
    rw [amounts, OrderedDict.map_map]
    rfl
  have hmake := q.make_args t WireMapping.shown_thawed
  simp only [fromDict, asDict, Runtime.mappingOf_obj, ok_bind, get_payload_cons, String.reduceEq,
    ↓reduceIte, R.intOrZero_int, ne_eq, not_true_eq_false, CaseRunIdentity.fromDict_asDict,
    ExecutionControl.fromDict_asDict, R.readDict_thawed, readInts_amounts, readOptional_grant,
    R.readMap_shownMap (BudgetHandle.fromDict_asDict R),
    R.readMap_shownMap (DataRef.fromDict_asDict R),
    R.readMap_shownMap ArtifactBinding.fromDict_asDict, hargv, R.strOf_text, hamounts]
  cases q.checkGrant with
  | error e => rfl
  | ok _ => exact hmake

end CaseRunRequest

end Blackbase.Project.Envelope

import Blackbase.Project.Envelope.Reading

/-!
# Identities and execution controls

`CaseRunIdentity` and `ExecutionControl` of `project/execution.py`, with the
`TerminationPolicy` and the `CancellationRef` of `resources/control.py` as an envelope carries
them: with every field, and with floats that may be infinite or no number at all.
-/

namespace Blackbase.Project.Envelope

/-- What a constructor takes from the outside: two `uuid4().hex`, and a reading of the clock. -/
structure Moment where
  projectHex : String
  caseHex : String
  now : PyFloat
  now_truthy : now.truthy = true

/-! ## Identities -/

/-- The arguments of the constructor of `CaseRunIdentity`. -/
structure IdentityArgs where
  projectRunId : String
  rootRunId : String
  caseRunId : String
  parentCaseRunId : String
  invocationId : String
  attempt : ℤ
  depth : ℤ

/-- `CaseRunIdentity`. -/
structure CaseRunIdentity where
  projectRunId : Filled
  rootRunId : Filled
  caseRunId : Filled
  parentCaseRunId : String
  invocationId : Filled
  attempt : ℕ
  depth : ℕ
  parent_ne : 0 < depth → parentCaseRunId ≠ ""

/-- A generated name: a prefix and a `uuid4().hex`. -/
def Filled.generated (start : Filled) (hex : String) : Filled where
  text := start.text ++ hex
  ne := by
    intro h
    rw [String.append_eq_empty_iff] at h
    exact start.ne h.1

namespace CaseRunIdentity

/-- `CaseRunIdentity.__post_init__`. -/
def make (t : Moment) (a : IdentityArgs) : Except Raised CaseRunIdentity :=
  let projectRunId :=
    Filled.orDefault a.projectRunId (.generated ⟨"project-run-", by decide⟩ t.projectHex)
  let rootRunId := Filled.orDefault a.rootRunId projectRunId
  let caseRunId := Filled.orDefault a.caseRunId (.generated ⟨"case-run-", by decide⟩ t.caseHex)
  let invocationId := Filled.orDefault a.invocationId caseRunId
  let depth := a.depth.toNat
  if h : 0 < depth ∧ a.parentCaseRunId = "" then
    .error (.valueError "nested Case identity requires parent_case_run_id")
  else .ok {
    projectRunId := projectRunId
    rootRunId := rootRunId
    caseRunId := caseRunId
    parentCaseRunId := a.parentCaseRunId
    invocationId := invocationId
    attempt := a.attempt.toNat
    depth := depth
    parent_ne := fun hdepth hempty ↦ h ⟨hdepth, hempty⟩ }

/-- `CaseRunIdentity.from_dict`. -/
def fromDict (R : Runtime) (t : Moment) (v : PyValue) : Except Raised CaseRunIdentity := do
  let d ← R.dictOrEmpty v
  let attempt ← R.intOrZero (d.get "attempt" (.int 0))
  let depth ← R.intOrZero (d.get "depth" (.int 0))
  make t {
    projectRunId := R.strOf (d.get "project_run_id" (.text ""))
    rootRunId := R.strOf (d.get "root_run_id" (.text ""))
    caseRunId := R.strOf (d.get "case_run_id" (.text ""))
    parentCaseRunId := R.strOf (d.get "parent_case_run_id" (.text ""))
    invocationId := R.strOf (d.get "invocation_id" (.text ""))
    attempt := attempt
    depth := depth }

/-- `CaseRunIdentity.as_dict`. -/
def asDict (i : CaseRunIdentity) : PyValue :=
  obj [
    ("project_run_id", .text i.projectRunId.text),
    ("root_run_id", .text i.rootRunId.text),
    ("case_run_id", .text i.caseRunId.text),
    ("parent_case_run_id", .text i.parentCaseRunId),
    ("invocation_id", .text i.invocationId.text),
    ("attempt", .int i.attempt),
    ("depth", .int i.depth)]

/-- The fields of an identity. -/
def args (i : CaseRunIdentity) : IdentityArgs where
  projectRunId := i.projectRunId.text
  rootRunId := i.rootRunId.text
  caseRunId := i.caseRunId.text
  parentCaseRunId := i.parentCaseRunId
  invocationId := i.invocationId.text
  attempt := i.attempt
  depth := i.depth

/-- The constructor accepts the fields of an identity, and changes nothing. -/
theorem make_args (t : Moment) (i : CaseRunIdentity) : make t i.args = .ok i := by
  have hparent : ¬ (0 < (i.depth : ℤ).toNat ∧ i.parentCaseRunId = "") := by
    rintro ⟨hdepth, hempty⟩
    exact i.parent_ne hdepth hempty
  simp only [make, args, Filled.orDefault_text]
  rw [dif_neg hparent]
  rfl

@[simp] theorem fromDict_asDict (R : Runtime) (t : Moment) (i : CaseRunIdentity) :
    fromDict R t i.asDict = .ok i := by
  rw [← make_args t i]
  simp [fromDict, asDict, args]

end CaseRunIdentity

/-! ## Termination policies -/

/-- The text of a mode. -/
def modeText : Resources.TerminationMode → String
  | .cooperative => "cooperative"
  | .cooperativeThenTerminate => "cooperative_then_terminate"

/-- The mode a normalised text stands for. -/
def parseMode : String → Option Resources.TerminationMode
  | "cooperative" => some .cooperative
  | "cooperative_then_terminate" => some .cooperativeThenTerminate
  | _ => none

/-- The arguments of the constructor of `TerminationPolicy`. -/
structure PolicyArgs where
  mode : String
  graceSeconds : PyFloat
  killGraceSeconds : PyFloat
  pollIntervalSeconds : PyFloat

/-- `TerminationPolicy`. -/
structure TerminationPolicy where
  mode : Resources.TerminationMode
  graceSeconds : PyFloat
  killGraceSeconds : PyFloat
  pollIntervalSeconds : PyFloat
  grace : (graceSeconds.lt .zero || killGraceSeconds.lt .zero) = false
  poll : pollIntervalSeconds.nonPositive = false

namespace TerminationPolicy

/-- `TerminationPolicy.__post_init__`. -/
def make (a : PolicyArgs) : Except Raised TerminationPolicy :=
  match parseMode (Text.lower (Text.strip (Resources.orDefault a.mode "cooperative"))) with
  | none =>
      .error (.valueError
        "termination mode must be cooperative or cooperative_then_terminate")
  | some mode =>
      if hgrace : (a.graceSeconds.lt .zero || a.killGraceSeconds.lt .zero) = true then
        .error (.valueError "termination grace periods must be non-negative")
      else if hpoll : a.pollIntervalSeconds.nonPositive = true then
        .error (.valueError "termination poll_interval_seconds must be positive")
      else .ok {
        mode := mode
        graceSeconds := a.graceSeconds
        killGraceSeconds := a.killGraceSeconds
        pollIntervalSeconds := a.pollIntervalSeconds
        grace := Bool.eq_false_of_not_eq_true hgrace
        poll := Bool.eq_false_of_not_eq_true hpoll }

/-- `TerminationPolicy.from_dict`. -/
def fromDict (R : Runtime) (v : PyValue) : Except Raised TerminationPolicy := do
  let d ← R.dictOrEmpty v
  let graceSeconds ← R.floatOrZero (d.get "grace_seconds" (.float (.real 5)))
  let killGraceSeconds ← R.floatOrZero (d.get "kill_grace_seconds" (.float (.real 1)))
  let poll : PyValue := .float (.real (1 / 20))
  let pollIntervalSeconds ← R.floatOf ((d.get "poll_interval_seconds" poll).orElse poll)
  make {
    mode := R.strOf (d.get "mode" (.text "cooperative"))
    graceSeconds := graceSeconds
    killGraceSeconds := killGraceSeconds
    pollIntervalSeconds := pollIntervalSeconds }

/-- `TerminationPolicy.as_dict`. -/
def asDict (p : TerminationPolicy) : PyValue :=
  obj [
    ("mode", .text (modeText p.mode)),
    ("grace_seconds", .float p.graceSeconds),
    ("kill_grace_seconds", .float p.killGraceSeconds),
    ("poll_interval_seconds", .float p.pollIntervalSeconds)]

/-- The fields of a policy. -/
def args (p : TerminationPolicy) : PolicyArgs where
  mode := modeText p.mode
  graceSeconds := p.graceSeconds
  killGraceSeconds := p.killGraceSeconds
  pollIntervalSeconds := p.pollIntervalSeconds

theorem parseMode_modeText (mode : Resources.TerminationMode) :
    parseMode (Text.lower (Text.strip (Resources.orDefault (modeText mode) "cooperative"))) =
      some mode := by
  cases mode <;> decide

/-- The constructor accepts the fields of a policy, and changes nothing. -/
theorem make_args (p : TerminationPolicy) : make p.args = .ok p := by
  simp only [make, args, parseMode_modeText, p.grace, p.poll, Bool.false_eq_true, ↓reduceDIte]

theorem poll_truthy (p : TerminationPolicy) : p.pollIntervalSeconds.truthy = true := by
  have hpoll := p.poll
  rw [PyFloat.nonPositive, Bool.or_eq_false_iff] at hpoll
  rw [PyFloat.truthy]
  simpa using hpoll.2

@[simp] theorem fromDict_asDict (R : Runtime) (p : TerminationPolicy) :
    fromDict R p.asDict = .ok p := by
  rw [← make_args p]
  simp [fromDict, asDict, args, PyValue.orElse, PyValue.truthy, p.poll_truthy]

end TerminationPolicy

/-! ## Cancellation references -/

/-- The arguments of the constructor of `CancellationRef`. -/
structure CancellationArgs where
  controlId : String
  backend : String
  ns : String
  path : String
  redisUrlEnv : String
  deadlineAt : PyFloat
  createdAt : PyFloat
  parentControlId : Option String
  rootControlId : Option String
  lineageDepth : ℤ
  lineageDigest : String
  activeTtlSeconds : PyFloat
  heartbeatSeconds : PyFloat
  retentionSeconds : PyFloat

/-- The checks of the time to live, the heartbeat and the retention. -/
def timing (activeTtl heartbeat retention : PyFloat) : Option Resources.ControlRefError :=
  if activeTtl.lt .zero || heartbeat.lt .zero || retention.lt .zero then some .negativeTiming
  else if activeTtl = .zero ∧ PyFloat.zero.lt heartbeat then some .heartbeatWithoutTtl
  else if PyFloat.zero.lt activeTtl ∧ heartbeat.nonPositive then some .ttlWithoutHeartbeat
  else if PyFloat.zero.lt activeTtl ∧ activeTtl.lt heartbeat.twice then some .heartbeatTooSlow
  else none

/-- `CancellationRef`. -/
structure CancellationRef where
  controlId : Label
  backend : Resources.ControlBackend
  ns : Filled
  path : String
  redisUrlEnv : Filled
  deadlineAt : PyFloat
  createdAt : PyFloat
  parentControlId : Option Label
  rootControlId : Label
  lineageDepth : ℕ
  lineageDigest : Resources.Digest
  activeTtlSeconds : PyFloat
  heartbeatSeconds : PyFloat
  retentionSeconds : PyFloat
  path_ne : ¬ (backend = .sqlite ∧ Text.strip path = "")
  parent_ne : parentControlId.map Label.text ≠ some controlId.text
  depth_le : lineageDepth ≤ Resources.maxCancellationLineageDepth
  root_iff : lineageDepth = 0 ↔ parentControlId = none
  deadline_clamped : deadlineAt.clamp = deadlineAt
  created_truthy : createdAt.truthy = true
  timed : timing activeTtlSeconds heartbeatSeconds retentionSeconds = none

namespace CancellationRef

/-- The `ValueError` of a refused reference. -/
def refuse {α : Type} (e : Resources.ControlRefError) : Except Raised α :=
  .error (.valueError e.message)

/-- `lineage_digest`: the one given, or the digest of a root. -/
def digestOf (R : Runtime) (root : Label) (given : String) : Option Resources.Digest :=
  let given := Text.lower (Text.strip given)
  if given = "" then some (R.sha256 ("root:" ++ root.text)) else Resources.Digest.parse given

/-! The values of fields that were left empty. -/

theorem defaultNamespace_ne : "blackbase" ≠ "" := by decide

theorem defaultRedisUrlEnv_ne : "BLACKBASE_REDIS_URL" ≠ "" := by decide

/-! What the checks of the depth leave of it. -/

theorem toNat_le_of_inRange {d : ℤ}
    (h : ¬ (d < 0 ∨ (Resources.maxCancellationLineageDepth : ℤ) < d)) :
    d.toNat ≤ Resources.maxCancellationLineageDepth := by
  omega

theorem toNat_eq_zero_iff_root {α : Type} {d : ℤ} {parent : Option α}
    (hrange : ¬ (d < 0 ∨ (Resources.maxCancellationLineageDepth : ℤ) < d))
    (hroot : ¬ (d = 0 ∧ parent ≠ none)) (hchild : ¬ (0 < d ∧ parent = none)) :
    d.toNat = 0 ↔ parent = none := by
  constructor
  · intro hzero
    by_contra hne
    exact hroot ⟨by omega, hne⟩
  · intro hnone
    by_contra hne
    exact hchild ⟨by omega, hnone⟩

/-- `CancellationRef.__post_init__`. -/
def make (R : Runtime) (t : Moment) (a : CancellationArgs) : Except Raised CancellationRef :=
  match Resources.ControlBackend.parse
      (Text.lower (Text.strip (Resources.orDefault a.backend "memory"))) with
  | none => refuse .backend
  | some backend =>
  match Label.parse a.controlId with
  | none => refuse .emptyControlId
  | some controlId =>
  if hpath : backend = .sqlite ∧ Text.strip a.path = "" then refuse .sqlitePath
  else
    let parent := a.parentControlId.bind Label.parse
    if hself : parent.map Label.text = some controlId.text then refuse .parentIsSelf
    else if hrange : a.lineageDepth < 0 ∨ Resources.maxCancellationLineageDepth < a.lineageDepth then
      refuse .lineageDepth
    else if hroot : a.lineageDepth = 0 ∧ parent ≠ none then refuse .rootWithParent
    else if hchild : 0 < a.lineageDepth ∧ parent = none then refuse .childWithoutParent
    else match Label.parse (Resources.orDefault (a.rootControlId.getD "") controlId.text) with
      | none => refuse .emptyRootControlId
      | some root =>
      match digestOf R root a.lineageDigest with
      | none => refuse .lineageDigest
      | some digest =>
        let activeTtl := a.activeTtlSeconds.orElse .zero
        let heartbeat := a.heartbeatSeconds.orElse .zero
        let retention := a.retentionSeconds.orElse .zero
        match htiming : timing activeTtl heartbeat retention with
        | some e => refuse e
        | none => .ok {
            controlId := controlId
            backend := backend
            ns := Filled.orDefault a.ns ⟨"blackbase", defaultNamespace_ne⟩
            path := a.path
            redisUrlEnv := Filled.orDefault a.redisUrlEnv ⟨"BLACKBASE_REDIS_URL", defaultRedisUrlEnv_ne⟩
            deadlineAt := (a.deadlineAt.orElse .zero).clamp
            createdAt := a.createdAt.orElse t.now
            parentControlId := parent
            rootControlId := root
            lineageDepth := a.lineageDepth.toNat
            lineageDigest := digest
            activeTtlSeconds := activeTtl
            heartbeatSeconds := heartbeat
            retentionSeconds := retention
            path_ne := hpath
            parent_ne := hself
            depth_le := toNat_le_of_inRange hrange
            root_iff := toNat_eq_zero_iff_root hrange hroot hchild
            deadline_clamped := PyFloat.clamp_clamp _
            created_truthy := by
              unfold PyFloat.orElse
              split
              · assumption
              · exact t.now_truthy
            timed := htiming }

/-- A text, or `None`. -/
def optional (R : Runtime) : PyValue → Option String
  | .none => none
  | v => some (R.strOf v)

/-- `CancellationRef.from_dict`. -/
def fromDict (R : Runtime) (t : Moment) (v : PyValue) : Except Raised CancellationRef := do
  let d ← Runtime.mappingOf v
  let deadlineAt ← R.floatOrZero (d.get "deadline_at" (.float .zero))
  let createdAt ← R.floatOrZero (d.get "created_at" (.float .zero))
  let lineageDepth ← R.intOrZero (d.get "lineage_depth" (.int 0))
  let activeTtlSeconds ← R.floatOrZero (d.get "active_ttl_seconds" (.float .zero))
  let heartbeatSeconds ← R.floatOrZero (d.get "heartbeat_seconds" (.float .zero))
  let retentionSeconds ← R.floatOrZero (d.get "retention_seconds" (.float .zero))
  make R t {
    controlId := R.strOf (d.get "control_id" (.text ""))
    backend := R.strOf (d.get "backend" (.text "memory"))
    ns := R.strOf (d.get "namespace" (.text "blackbase"))
    path := R.strOf (d.get "path" (.text ""))
    redisUrlEnv := R.strOf (d.get "redis_url_env" (.text "BLACKBASE_REDIS_URL"))
    deadlineAt := deadlineAt
    createdAt := createdAt
    parentControlId := optional R (d.get "parent_control_id" .none)
    rootControlId := optional R (d.get "root_control_id" .none)
    lineageDepth := lineageDepth
    lineageDigest := R.strOf ((d.get "lineage_digest" (.text "")).orElse (.text ""))
    activeTtlSeconds := activeTtlSeconds
    heartbeatSeconds := heartbeatSeconds
    retentionSeconds := retentionSeconds }

/-- `parent_control_id`, as the reference holds it. -/
def parent (r : CancellationRef) : PyValue :=
  match r.parentControlId with
  | none => .none
  | some l => .text l.text

/-- `CancellationRef.as_dict`. -/
def asDict (r : CancellationRef) : PyValue :=
  obj [
    ("control_id", .text r.controlId.text),
    ("backend", .text r.backend.name),
    ("namespace", .text r.ns.text),
    ("path", .text r.path),
    ("redis_url_env", .text r.redisUrlEnv.text),
    ("deadline_at", .float r.deadlineAt),
    ("created_at", .float r.createdAt),
    ("parent_control_id", r.parent),
    ("root_control_id", .text r.rootControlId.text),
    ("lineage_depth", .int r.lineageDepth),
    ("lineage_digest", .text r.lineageDigest.text),
    ("active_ttl_seconds", .float r.activeTtlSeconds),
    ("heartbeat_seconds", .float r.heartbeatSeconds),
    ("retention_seconds", .float r.retentionSeconds)]

/-- The fields of a reference. -/
def args (r : CancellationRef) : CancellationArgs where
  controlId := r.controlId.text
  backend := r.backend.name
  ns := r.ns.text
  path := r.path
  redisUrlEnv := r.redisUrlEnv.text
  deadlineAt := r.deadlineAt
  createdAt := r.createdAt
  parentControlId := r.parentControlId.map Label.text
  rootControlId := some r.rootControlId.text
  lineageDepth := r.lineageDepth
  lineageDigest := r.lineageDigest.text
  activeTtlSeconds := r.activeTtlSeconds
  heartbeatSeconds := r.heartbeatSeconds
  retentionSeconds := r.retentionSeconds

@[simp] theorem optional_text (R : Runtime) (s : String) : optional R (.text s) = some s := rfl

theorem optional_parent (R : Runtime) (r : CancellationRef) :
    optional R r.parent = r.parentControlId.map Label.text := by
  unfold parent
  cases r.parentControlId <;> rfl

theorem digestOf_text (R : Runtime) (root : Label) (d : Resources.Digest) :
    digestOf R root d.text = some d := by
  rw [digestOf, Resources.Digest.strip_text, Resources.Digest.lower_text,
    if_neg d.text_ne_empty, Resources.Digest.parse_text]

/-- The constructor accepts the fields of a reference, and changes nothing. -/
theorem make_args (R : Runtime) (t : Moment) (r : CancellationRef) : make R t r.args = .ok r := by
  have hparent : (r.parentControlId.map Label.text).bind Label.parse = r.parentControlId := by
    cases r.parentControlId <;> simp
  have hroot : Resources.orDefault r.rootControlId.text r.controlId.text = r.rootControlId.text :=
    Resources.orDefault_of_ne r.rootControlId.ne
  have hrange : ¬ ((r.lineageDepth : ℤ) < 0 ∨
      Resources.maxCancellationLineageDepth < (r.lineageDepth : ℤ)) := by
    have := r.depth_le
    omega
  have hzero : ¬ ((r.lineageDepth : ℤ) = 0 ∧ r.parentControlId ≠ none) := by
    rintro ⟨hzero, hne⟩
    exact hne (r.root_iff.mp (by omega))
  have hchild : ¬ (0 < (r.lineageDepth : ℤ) ∧ r.parentControlId = none) := by
    rintro ⟨hpos, hnone⟩
    have := r.root_iff.mpr hnone
    omega
  simp only [make, args, Resources.ControlBackend.parse_name, Label.parse_text, hparent,
    Option.getD_some, hroot, digestOf_text, PyFloat.orElse_zero]
  rw [dif_neg r.path_ne, dif_neg r.parent_ne, dif_neg hrange, dif_neg hzero, dif_neg hchild]
  split
  · next h =>
      rw [PyFloat.orElse_zero, PyFloat.orElse_zero, PyFloat.orElse_zero, r.timed] at h
      cases h
  · simp only [Filled.orDefault_text, r.deadline_clamped,
      PyFloat.orElse_of_truthy r.created_truthy, Int.toNat_natCast]

@[simp] theorem fromDict_asDict (R : Runtime) (t : Moment) (r : CancellationRef) :
    fromDict R t r.asDict = .ok r := by
  rw [← make_args R t r]
  simp [fromDict, asDict, args, optional_parent, PyValue.orElse, PyValue.truthy,
    r.lineageDigest.text_ne_empty]

end CancellationRef

/-! ## Execution controls -/

/-- The text of the `TypeError` of `_transport_safe`. -/
def notTransportSafe (path type : String) : String :=
  s!"Case protocol field '{path}' is not transport-safe: {type}"

/-- The arguments of the constructor of `ExecutionControl`. -/
structure ControlArgs where
  cancellation : Given CancellationRef
  ancestorCancellations : List (Given CancellationRef)
  termination : Given TerminationPolicy
  metadata : PyValue

/-- `ExecutionControl`, which has no ancestor references. -/
structure ExecutionControl where
  cancellation : CancellationRef
  termination : TerminationPolicy
  metadata : WireMapping

namespace ExecutionControl

/-- `ExecutionControl.__post_init__`. -/
def make (R : Runtime) (t : Moment) (a : ControlArgs) : Except Raised ExecutionControl := do
  let cancellation ← a.cancellation.take (CancellationRef.fromDict R t)
  let ancestors ← a.ancestorCancellations.mapM (Given.take (CancellationRef.fromDict R t))
  if ancestors.isEmpty then
    let termination ← a.termination.take (TerminationPolicy.fromDict R)
    let metadata ← R.wireMapping notTransportSafe "control.metadata" a.metadata
    return ⟨cancellation, termination, metadata⟩
  else
    throw (.valueError ("ExecutionControl no longer transports ancestor references; " ++
      "use CancellationRef.parent_control_id and the durable authority"))

/-- `ExecutionControl.from_dict`. -/
def fromDict (R : Runtime) (t : Moment) (v : PyValue) : Except Raised ExecutionControl := do
  let d ← R.dictOrEmpty v
  let raw := match d.get "cancellation" .none with
    | .mapping entries => .mapping entries
    | _ => obj []
  let cancellation ← CancellationRef.fromDict R t raw
  let items ← R.itemsOf ((d.get "ancestor_cancellations" (.tuple [])).orElse (.tuple []))
  let ancestors ← items.mapM (CancellationRef.fromDict R t)
  let termination ← TerminationPolicy.fromDict R (d.get "termination" .none)
  let metadata ← R.readDict (d.get "metadata" (obj []))
  make R t {
    cancellation := .built cancellation
    ancestorCancellations := ancestors.map .built
    termination := .built termination
    metadata := metadata }

/-- `ExecutionControl.as_dict`. -/
def asDict (c : ExecutionControl) : PyValue :=
  obj [
    ("cancellation", c.cancellation.asDict),
    ("ancestor_cancellations", .list []),
    ("deadline_at", .float c.cancellation.deadlineAt),
    ("termination", c.termination.asDict),
    ("metadata", c.metadata.thawed)]

/-- The fields of a control, with its metadata in the form `metadata`. -/
def args (c : ExecutionControl) (metadata : PyValue) : ControlArgs where
  cancellation := .built c.cancellation
  ancestorCancellations := []
  termination := .built c.termination
  metadata := metadata

/-- The constructor accepts the fields of a control, and changes nothing. -/
theorem make_args (R : Runtime) (t : Moment) (c : ExecutionControl) {v : PyValue}
    (hv : c.metadata.Shown v) : make R t (c.args v) = .ok c := by
  simp [make, args, R.wireMapping_shown hv]

@[simp] theorem fromDict_asDict (R : Runtime) (t : Moment) (c : ExecutionControl) :
    fromDict R t c.asDict = .ok c := by
  have hraw : (match c.cancellation.asDict with
      | .mapping entries => PyValue.mapping entries
      | _ => obj []) = c.cancellation.asDict := rfl
  rw [← make_args R t c c.metadata.shown_thawed]
  simp [fromDict, asDict, args, hraw, PyValue.orElse, PyValue.truthy, Runtime.itemsOf]

end ExecutionControl

end Blackbase.Project.Envelope

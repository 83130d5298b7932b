import Blackbase.Project.ArtifactIndex
import Blackbase.Project.DagPlan
import Blackbase.Project.Execution

/-!
# Execution of DAG Stages

`_execute_dag_stage` of `project/project_runner.py`.  The pending Cases of a Stage are run in waves
of those whose dependencies have succeeded; what depends on a failed Case is skipped, and under
fail-fast the rest is skipped too.  The executor of a wave is left open.

The state carries a log of the waves that were started and of the results that were recorded.  A
Case enters a wave once, behind its dependencies, and the function ends for want of a result only
where a skipped Case cannot be described.
-/

namespace Blackbase.Project

universe u

/-- `CaseRunIdentity` of a Case of a Stage. -/
structure CaseRunIdentity where
  projectRunId : String
  rootRunId : String
  caseRunId : String
  invocationId : String
deriving DecidableEq

/-- `_case_identity`. -/
def caseIdentity (executionRunId stageName caseName : String) : CaseRunIdentity where
  projectRunId := executionRunId
  rootRunId := executionRunId
  caseRunId := s!"case:{executionRunId}:{stageName}:{caseName}"
  invocationId := s!"case:{executionRunId}:{stageName}:{caseName}"

/-- `CaseRunRequest`, as far as a skipped Case fills it in. -/
structure CaseRunRequest where
  projectName : String
  stageName : String
  caseName : String
  caseKind : String
  mode : String
  identity : CaseRunIdentity
  componentOverrides : List (ConfigKey × ConfigValue)
  dag : DagStagePlan.RequestMetadata
  declaredInputArtifacts : List (ConfigKey × ConfigValue)

/-- A `CaseRunResult` with its request and the dependencies its failure names. -/
structure DagResult (O : Type u) where
  request : CaseRunRequest
  result : CaseRunResult O
  dependencies : List String

namespace DagResult

variable {O : Type u}

/-- `result.request.case_name`. -/
def caseName (r : DagResult O) : String := r.request.caseName

/-- `result.ok`. -/
def ok (r : DagResult O) : Bool := r.result.ok

end DagResult

/-- A DAG Stage that is to be executed: its plan, and the Cases that have succeeded before. -/
structure DagRun where
  stage : Stage
  plan : DagStagePlan
  planned : DagStagePlan.fromStage stage = .ok plan
  projectName : String
  executionRunId : String
  /-- The texts of the `.case` files. -/
  markers : String → Option String
  resumed : List String
  resumed_mem : ∀ c ∈ resumed, c ∈ plan.cases

/-- What `_execute_dag_stage` can raise. -/
inductive DagError where
  | config (e : ConfigError)
  | artifacts (e : ArtifactIndexError)
  /-- `wave_by_name[case_name]`. -/
  | noResult (caseName : String)
  | cannotMakeProgress (unresolved : List (String × List String))
  | outOfFuel
deriving DecidableEq

/-- A wave that is started, or a result that is recorded. -/
inductive DagEvent (O : Type u) where
  | launched (ready : List String)
  | recorded (r : DagResult O)

/-- The executor of the Cases of a wave, `_execute_parallel_stage`: one result for every Case, and
a nonzero exit code only if one of them is not ok. -/
structure ParallelStage (O : Type u) where
  run : List String → ArtifactRegistries → List (String × DagStagePlan.RequestMetadata) →
    List (DagResult O) × List (String × FormalArtifacts) × ℤ
  oneEach : ∀ ready registries metadata,
    ((run ready registries metadata).1.map DagResult.caseName).Perm ready
  exitCode : ∀ ready registries metadata, (run ready registries metadata).2.2 ≠ 0 →
    ∃ r ∈ (run ready registries metadata).1, r.ok = false

/-- The local variables of `_execute_dag_stage`. -/
structure DagState (O : Type u) where
  pending : List String
  succeeded : List String
  failed : List String
  results : Dict (DagResult O)
  artifacts : List (String × FormalArtifacts)
  working : ArtifactRegistries
  exitCode : ℤ
  events : List (DagEvent O)

namespace DagRun

variable {O : Type u} (run : DagRun)

/-- The Cases that are to be run. -/
def pendingNames : List String := run.plan.cases.filter (· ∉ run.resumed)

/-- `_dag_skipped_result`, the request. -/
def skippedRequest (caseName : String) : Except ConfigError CaseRunRequest := do
  let caseKind ← loadCaseKind run.stage run.markers caseName
  let modes ← ((run.stage.caseModes.getD .emptyMapping).orElse .emptyMapping).toDict
  let mode := (lookupText modes caseName).getD (run.stage.mode.getD (.text "build"))
  let overrides ← caseMapping "component_overrides" run.stage.componentOverrides caseName
  let declared ← caseMapping "input_artifacts" run.stage.inputArtifacts caseName
  let overrides ← transportSafeItems "request.component_overrides" overrides
  let declared ← transportSafeItems "request.metadata.declared_input_artifacts" declared
  return {
    projectName := run.projectName
    stageName := run.plan.stageName
    caseName := caseName
    caseKind := caseKind
    mode := (mode.orElse (.text "build")).str
    identity := caseIdentity run.executionRunId run.plan.stageName caseName
    componentOverrides := overrides
    dag := run.plan.requestMetadata caseName
    declaredInputArtifacts := declared }

/-- `_dag_skipped_result`. -/
def skippedResult (caseName kind message : String) (dependencies : List String) :
    Except ConfigError (DagResult O) :=
  (run.skippedRequest caseName).map fun request ↦
    ⟨request, ⟨.skipped, 1, some ⟨kind, message, "dag_schedule"⟩, none⟩, dependencies⟩

end DagRun

namespace DagState

variable {O : Type u} (run : DagRun) (executor : ParallelStage O) (s : DagState O)

/-- An exception, with the state it leaves behind. -/
abbrev Raised (O : Type u) := DagError × DagState O

/-- `retain`. -/
def retain (r : DagResult O) : DagState O :=
  { s with results := s.results.insert r.caseName r, events := s.events ++ [.recorded r] }

/-- A Case is recorded as skipped. -/
def skip (caseName kind message : String) (dependencies : List String) : Except (Raised O) (DagState O) :=
  match run.skippedResult caseName kind message dependencies with
  | .error e => .error (.config e, s)
  | .ok r => .ok (s.retain r)

/-- The pending Cases that depend on a failed one. -/
def blocked : List String :=
  run.plan.topologicalOrder.filter fun name ↦
    name ∈ s.pending ∧ (run.plan.dependenciesFor name).any (· ∈ s.failed)

/-- The body of the loop over `blocked`. -/
def skipBlockedOne (name : String) : Except (Raised O) (DagState O) := do
  let dependencies := (run.plan.dependenciesFor name).filter (· ∈ s.failed)
  let t ← s.skip run name "DependencyFailed"
    (s!"DAG Case '{name}' was blocked by failed dependencies: " ++ namesRepr dependencies)
    dependencies
  return { t with pending := t.pending.erase name, failed := t.failed ++ [name], exitCode := 1 }

/-- The loop that skips what is blocked until nothing is. -/
def skipBlocked : ℕ → DagState O → Except (Raised O) (DagState O)
  | 0, s => .error (.outOfFuel, s)
  | n + 1, s =>
      if s.blocked run = [] then .ok s
      else do
        let t ← (s.blocked run).foldlM (fun t name ↦ t.skipBlockedOne run name) s
        skipBlocked n t

/-- The body of the loop that skips the rest under fail-fast. -/
def skipRestOne (name : String) : Except (Raised O) (DagState O) :=
  if name ∈ s.pending then do
    let t ← s.skip run name "DagFailFastSkip" "DAG Stage stopped after an upstream Case failure"
      (run.plan.dependenciesFor name)
    return { t with failed := t.failed ++ [name] }
  else .ok s

/-- Fail-fast: the rest is skipped. -/
def skipRest : Except (Raised O) (DagState O) := do
  let t ← run.plan.topologicalOrder.foldlM (fun t name ↦ t.skipRestOne run name) s
  return { t with pending := [], exitCode := 1 }

/-- The pending Cases whose dependencies have succeeded. -/
def ready : List String :=
  run.plan.topologicalOrder.filter fun name ↦
    name ∈ s.pending ∧ (run.plan.dependenciesFor name).all (· ∈ s.succeeded)

/-- What the pending Cases are waiting for. -/
def unresolved : List (String × List String) :=
  (run.plan.topologicalOrder.filter (· ∈ s.pending)).map fun name ↦
    (name, (run.plan.dependenciesFor name).filter (· ∉ s.succeeded))

/-- `a or b`, for exit codes. -/
def orCode (a b : ℤ) : ℤ := if a ≠ 0 then a else b

/-- The body of the loop over the results of a wave. -/
def takeResult (results : List (DagResult O)) (name : String) : Except (Raised O) (DagState O) :=
  match results.reverse.find? (·.caseName = name) with
  | none => .error (.noResult name, s)
  | some r =>
      let t := s.retain r
      .ok (if r.ok then
        { t with pending := t.pending.erase name, succeeded := t.succeeded ++ [name] }
      else
        { t with
          pending := t.pending.erase name
          failed := t.failed ++ [name]
          exitCode := orCode t.exitCode (orCode r.result.exitCode 1) })

/-- The body of the loop over the artifacts of a wave. -/
def takeArtifacts (a : String × FormalArtifacts) : Except (Raised O) (DagState O) :=
  match s.working.registerCaseArtifacts run.plan.stageName a.1 a.2.refs a.2.publications with
  | .error e => .error (.artifacts e, { s with artifacts := s.artifacts ++ [a] })
  | .ok working => .ok { s with artifacts := s.artifacts ++ [a], working := working }

/-- A wave is started. -/
def launch (ready : List String) : DagState O := { s with events := s.events ++ [.launched ready] }

/-- What the executor gives for a wave. -/
def outcomeOf (ready : List String) : List (DagResult O) × List (String × FormalArtifacts) × ℤ :=
  executor.run ready s.working (ready.map fun name ↦ (name, run.plan.requestMetadata name))

/-- A wave. -/
def wave : Except (Raised O) (DagState O) :=
  if s.ready run = [] then .error (.cannotMakeProgress (s.unresolved run), s)
  else do
    let outcome := s.outcomeOf run executor (s.ready run)
    let t ← (s.ready run).foldlM (fun (t : DagState O) name ↦ t.takeResult outcome.1 name)
      (s.launch (s.ready run))
    let t ← outcome.2.1.foldlM (fun (t : DagState O) a ↦ t.takeArtifacts run a) t
    return { t with exitCode := orCode t.exitCode outcome.2.2 }

/-- The main loop. -/
def loop : ℕ → DagState O → Except (Raised O) (DagState O)
  | 0, s => .error (.outOfFuel, s)
  | n + 1, s =>
      if s.pending = [] then .ok s
      else do
        let t ← skipBlocked run (s.pending.length + 1) s
        if t.pending = [] then .ok t
        else if t.failed ≠ [] ∧ run.stage.failFast then t.skipRest run
        else loop n (← t.wave run executor)

end DagState

/-- What `_execute_dag_stage` returns, and the log of its run. -/
structure DagOutcome (O : Type u) where
  results : List (DagResult O)
  artifacts : List (String × FormalArtifacts)
  exitCode : ℤ
  events : List (DagEvent O)

/-- The state at the start. -/
def DagRun.start {O : Type u} (run : DagRun) (registries : ArtifactRegistries) : DagState O where
  pending := run.pendingNames
  succeeded := run.resumed
  failed := []
  results := ∅
  artifacts := []
  working := registries
  exitCode := 0
  events := []

/-- `_execute_dag_stage`.  Every turn of the main loop records a result. -/
def DagRun.executeDagStage {O : Type u} (run : DagRun) (executor : ParallelStage O)
    (registries : ArtifactRegistries) : Except (DagState.Raised O) (DagOutcome O) := do
  let t ← DagState.loop run executor (run.pendingNames.length + 1) (run.start registries)
  return {
    results := run.plan.cases.filterMap t.results.lookup
    artifacts := t.artifacts
    exitCode := t.exitCode
    events := t.events }

end Blackbase.Project

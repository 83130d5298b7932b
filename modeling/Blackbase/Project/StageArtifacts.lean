import Blackbase.Core.Rows
import Blackbase.Project.ArtifactIndex
import Blackbase.Project.CaseStages
import Blackbase.Project.Execution

/-!
# The results and the artifacts of a stage

The rest of `CaseStageRunner._run_parallel` of `project/case_stages.py`: the requests of the calls,
the envelopes the children return to the collecting loop, and the merge of their artifacts into
those of the runner.

`ParallelStage` is the machine of the collecting loop with the values that the children return.
The control of a request, with its fresh identifiers and its deadline, is given with the call.
-/

universe u v

namespace Blackbase.Project.Stages

open Resources Resources.Artifacts

/-! ## Calls and their results -/

/-- `ChildCaseCall`.  `P` is what a call passes on to its request as it is. -/
structure ChildCaseCall (P : Type u) where
  name : String
  inputArtifactBindings : Dict ArtifactBinding
  /-- The names of the inputs that are bound to artifacts of the runner. -/
  artifactBindings : List (String × String)
  payload : P

/-- `CaseStage`, of policy `parallel`. -/
structure CaseStage (P : Type u) where
  name : String
  calls : List (ChildCaseCall P)
  failFast : Bool
  /-- `max_workers`; zero means one worker per call. -/
  maxWorkers : ℕ
  calls_ne : calls ≠ []
  names_nodup : (calls.map ChildCaseCall.name).Nodup

/-- What the collecting loop reads of the stage, under a parent's grant. -/
def CaseStage.config {P : Type u} (stage : CaseStage P)
    (grantWorkers grantThreads totalThreads : ℤ) : StageConfig where
  calls := stage.calls.length
  failFast := stage.failFast
  maxWorkers := stage.maxWorkers
  grantWorkers := grantWorkers
  grantThreads := grantThreads
  totalThreads := totalThreads
  one_le_calls := List.length_pos_iff.mpr stage.calls_ne

/-- `CaseRunRequest`, as `build_request` fills it in. -/
structure CaseRunRequest (P : Type u) where
  stageName : String
  childCallName : String
  inputArtifactBindings : Dict ArtifactBinding
  payload : P

/-- A `CaseRunResult` with its formal artifacts, in the order of its mappings. -/
structure ChildResult (O : Type v) where
  envelope : CaseRunResult O
  artifactRefs : List (String × DataRef)
  artifactPublications : List (String × ArtifactPublicationReceipt)
  /-- `metadata["stage_cancellation_overdue"]`. -/
  stageCancellationOverdue : Bool
deriving DecidableEq

/-- What a stage can raise. -/
inductive StageError where
  | missingArtifact (callName artifactName inputName : String)
  | publishedTwice (qualified : String)
  | binding (e : ArtifactIndexError)
deriving DecidableEq

/-- The text of the exception. -/
def StageError.message : StageError → String
  | missingArtifact callName artifactName inputName =>
      s!"child Case call '{callName}' requires missing artifact '{artifactName}' " ++
        s!"for input '{inputName}'"
  | publishedTwice qualified => s!"child Case artifact '{qualified}' was published more than once"
  | binding e => e.message

/-- The artifacts of a runner: `_artifacts` and `_artifact_bindings`. -/
structure Runner where
  artifacts : Dict DataRef
  artifactBindings : Dict ArtifactBinding

variable {P : Type u} {O : Type v}

/-- The loop of `build_request` over the inputs that are bound by name. -/
def resolveBindings (callName : String) (artifacts : Dict ArtifactBinding) :
    Dict ArtifactBinding → List (String × String) → Except StageError (Dict ArtifactBinding)
  | resolved, [] => .ok resolved
  | resolved, (inputName, artifactName) :: rest =>
      match artifacts.lookup artifactName with
      | none => .error (.missingArtifact callName artifactName inputName)
      | some binding =>
          resolveBindings callName artifacts (resolved.insert inputName binding) rest

/-- `ChildCaseCall.build_request`. -/
def ChildCaseCall.buildRequest (call : ChildCaseCall P) (stageName : String)
    (artifacts : Dict ArtifactBinding) : Except StageError (CaseRunRequest P) :=
  match resolveBindings call.name artifacts call.inputArtifactBindings call.artifactBindings with
  | .error e => .error e
  | .ok bindings => .ok ⟨stageName, call.name, bindings, call.payload⟩

/-! ## Merging artifacts -/

namespace Runner

/-- One turn of the loop of `_merge_artifacts`. -/
def mergeOne (callName : String) (publications : List (String × ArtifactPublicationReceipt))
    (r : Runner) (entry : String × DataRef) : Except StageError Runner :=
  match Rows.lookup Prod.fst entry.1 publications with
  | none => .ok r
  | some publication =>
      let qualified := s!"{callName}.{entry.1}"
      if (r.artifacts.lookup qualified).any (· ≠ entry.2) then .error (.publishedTwice qualified)
      else
        match ArtifactBinding.make entry.2 publication.2 with
        | .error e => .error (.binding e)
        | .ok binding =>
            let artifacts := r.artifacts.insert qualified entry.2
            let bindings := r.artifactBindings.insert qualified binding
            if entry.1 ∈ artifacts then .ok ⟨artifacts, bindings⟩
            else .ok ⟨artifacts.insert entry.1 entry.2, bindings.insert entry.1 binding⟩

/-- The loop of `_merge_artifacts`: the artifacts merged so far stay when it raises. -/
def mergeEntries (callName : String) (publications : List (String × ArtifactPublicationReceipt)) :
    Runner → List (String × DataRef) → Option StageError × Runner
  | r, [] => (none, r)
  | r, entry :: rest =>
      match r.mergeOne callName publications entry with
      | .error e => (some e, r)
      | .ok r => mergeEntries callName publications r rest

/-- `_merge_artifacts`. -/
def mergeArtifacts (r : Runner) (callName : String) (result : ChildResult O) :
    Option StageError × Runner :=
  mergeEntries callName result.artifactPublications r result.artifactRefs

/-- The artifacts of a result enter when it is ok. -/
def mergeResult (r : Runner) (callName : String) (result : ChildResult O) :
    Option StageError × Runner :=
  if result.envelope.ok then r.mergeArtifacts callName result else (none, r)

end Runner

/-! ## The stage -/

/-- `CaseStageResult`: the results in declaration order, and what there is to say of the stage. -/
structure CaseStageResult (O : Type v) where
  stageName : String
  results : List (String × ChildResult O)
  artifactRefs : Dict DataRef
  stoppedEarly : Bool
  cancelledCalls : List String
  cancellationOverdueCalls : List String

/-- The requests of a parallel stage, all built before a child is invoked. -/
def buildRequests (stageName : String) (snapshot : Dict ArtifactBinding) :
    List (ChildCaseCall P) → Except StageError (List (CaseRunRequest P))
  | [] => .ok []
  | call :: rest =>
      match call.buildRequest stageName snapshot with
      | .error e => .error e
      | .ok request =>
          match buildRequests stageName snapshot rest with
          | .error e => .error e
          | .ok requests => .ok (request :: requests)

/-- How a child invocation ends, with the envelope it returns. -/
inductive ChildEnd (O : Type v) where
  | returned (result : ChildResult O)
  | raised
  | raisedCancelled
deriving DecidableEq

/-- What the future of a call is told of the end of its child. -/
def ChildEnd.outcome : ChildEnd O → ChildOutcome
  | returned result => .returned result.envelope.ok
  | raised => .raised
  | raisedCancelled => .raisedCancelled

/-- The collecting loop and its threads, with what the children have returned. -/
structure ParallelStage (O : Type v) where
  control : StageState
  returned : ℕ → Option (ChildResult O)

/-- One step: of the machine of the stage, or the end of the child of call `i`. -/
inductive StageStep (O : Type v) where
  | control (l : StageLabel)
  | finish (i : ℕ) (ended : ChildEnd O)

namespace ParallelStage

/-- The stage before its first call is submitted. -/
def initial (c : StageConfig) : ParallelStage O := ⟨.initial c, fun _ ↦ none⟩

/-- What a child leaves in its future. -/
def returnedBy (returned : ℕ → Option (ChildResult O)) (i : ℕ) :
    ChildEnd O → ℕ → Option (ChildResult O)
  | .returned result => Function.update returned i (some result)
  | _ => returned

/-- One step of the stage. -/
def step (c : StageConfig) (s : ParallelStage O) : StageStep O → Option (ParallelStage O)
  | .control (.finish _ _) => none
  | .control l => (s.control.step c l).map fun control ↦ { s with control := control }
  | .finish i ended => (s.control.step c (.finish i ended.outcome)).map fun control ↦
      ⟨control, returnedBy s.returned i ended⟩

/-- `_cancelled_result`. -/
def cancelledResult : ChildResult O where
  envelope :=
    { status := .cancelled
      exitCode := 1
      failure := some ⟨"stage_cancelled_before_start",
        "child Case was cancelled before execution", "run"⟩
      output := none }
  artifactRefs := []
  artifactPublications := []
  stageCancellationOverdue := false

/-- The envelope for a child that raised outside of its own. -/
def exceptionResult (callName : String) : ChildResult O where
  envelope :=
    { status := .failed
      exitCode := 1
      failure := some ⟨"stage_child_exception",
        s!"child Case '{callName}' raised outside its result envelope", "run"⟩
      output := none }
  artifactRefs := []
  artifactPublications := []
  stageCancellationOverdue := false

/-- What `_future_result` makes of the future of call `i`. -/
def futureResult (s : ParallelStage O) (i : ℕ) (callName : String) :
    Report → Option (ChildResult O)
  | .envelope _ => s.returned i
  | .childException => some (exceptionResult callName)
  | .cancelledBeforeStart => some cancelledResult

/-- The mark of a result that came after the cancellation deadline. -/
def markOverdue (overdue : Bool) (result : ChildResult O) : ChildResult O :=
  if overdue then { result with stageCancellationOverdue := true } else result

/-- `results[call.name]` of call `i`, once it has been collected. -/
def resultOf (s : ParallelStage O) (i : ℕ) (callName : String) : Option (ChildResult O) :=
  (s.control.results i).bind fun collected ↦
    (s.futureResult i callName collected.report).map (markOverdue collected.overdue)

end ParallelStage

/-- The loop over the calls after the executor view is left: the artifacts of each result that is
ok are merged, in declaration order. -/
def mergeInOrder : Runner → List (String × ChildResult O) → Option StageError × Runner
  | r, [] => (none, r)
  | r, (callName, result) :: rest =>
      match r.mergeResult callName result with
      | (some e, r) => (some e, r)
      | (none, r) => mergeInOrder r rest

/-- The results of the calls from number `i` on; `none` where one is missing. -/
def collect (s : ParallelStage O) :
    ℕ → List (ChildCaseCall P) → Option (List (String × ChildResult O))
  | _, [] => some []
  | i, call :: rest =>
      match s.resultOf i call.name, collect s (i + 1) rest with
      | some result, some results => some ((call.name, result) :: results)
      | _, _ => none

/-- The names of the calls whose numbers are in `numbers`, in declaration order. -/
def namesOf (numbers : List ℕ) : ℕ → List (ChildCaseCall P) → List String
  | _, [] => []
  | i, call :: rest =>
      if i ∈ numbers then call.name :: namesOf numbers (i + 1) rest
      else namesOf numbers (i + 1) rest

/-- What `_run_parallel` does once the executor view is left: `none` where a result is missing. -/
def finishStage (stage : CaseStage P) (r : Runner) (s : ParallelStage O) :
    Option (Except StageError (CaseStageResult O) × Runner) :=
  match collect s 0 stage.calls with
  | none => none
  | some results =>
      match mergeInOrder r results with
      | (some e, r) => some (.error e, r)
      | (none, r) => some (.ok
          { stageName := stage.name
            results := results
            artifactRefs := r.artifacts
            stoppedEarly := s.control.stopped
            cancelledCalls := namesOf s.control.cancelledCalls 0 stage.calls
            cancellationOverdueCalls := namesOf s.control.cancellationOverdue 0 stage.calls }, r)

/-! ## One call after the other -/

/-- The calls invoked one after the other, in declaration order, each against the same bindings:
the results so far, and the artifacts of the runner. -/
def invokeInTurn (stageName : String) (snapshot : Dict ArtifactBinding)
    (invoke : CaseRunRequest P → ChildResult O) :
    Runner → List (String × ChildResult O) → List (ChildCaseCall P) →
      Except StageError (List (String × ChildResult O)) × Runner
  | r, results, [] => (.ok results, r)
  | r, results, call :: rest =>
      match call.buildRequest stageName snapshot with
      | .error e => (.error e, r)
      | .ok request =>
          let result := invoke request
          match r.mergeResult call.name result with
          | (some e, r) => (.error e, r)
          | (none, r) =>
              invokeInTurn stageName snapshot invoke r (results ++ [(call.name, result)]) rest

/-- The stage run in that way. -/
def runInTurn (stage : CaseStage P) (invoke : CaseRunRequest P → ChildResult O) (r : Runner) :
    Except StageError (CaseStageResult O) × Runner :=
  match invokeInTurn stage.name r.artifactBindings invoke r [] stage.calls with
  | (.error e, r) => (.error e, r)
  | (.ok results, r) => (.ok ⟨stage.name, results, r.artifacts, false, [], []⟩, r)

end Blackbase.Project.Stages

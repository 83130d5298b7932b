import Blackbase.Core.Machine
import Blackbase.Core.Registration
import Blackbase.Core.Rows
import Blackbase.Project.ArtifactIndex
import Blackbase.Project.Execution

/-!
# The manifest of a Project run

`ProjectRunRecorder` of `project/run_manifest.py` with the resume check of
`project/project_runner.py`, and the calls `run_project` makes of the recorder.

The recorder keeps one record for every Case, and an index of the artifacts that it fills as the
Cases are recorded.  Every call writes the manifest, in which the Cases stand in their declared
order.  A later run that resumes from the manifest builds the index again from the recorded Cases
and refuses a manifest in which the two differ.

A run is a machine over the recorder and the place of the runner in its group.  The Cases of a
sequential Stage are recorded as they are run; those of a parallel, DAG or external Stage are
recorded as they complete, and once more in declared order when the Stage has ended.
-/

namespace Blackbase.Project

open Resources Resources.Artifacts

/-- The names under which a Case is recorded. -/
structure CaseKey where
  stageName : String
  caseName : String
deriving DecidableEq

/-- A `CaseRunResult` with its formal artifacts. -/
structure FinishedCase (O : Type) where
  result : CaseRunResult O
  artifacts : FormalArtifacts

/-- The names under which the artifacts of a Case enter an index. -/
def CaseKey.registrations (key : CaseKey) (refs : Dict DataRef) : List (Registration DataRef) :=
  refs.entries.flatMap fun e ↦
    [.assign s!"{key.stageName}.{key.caseName}.{e.1}" e.2, .assign s!"{key.caseName}.{e.1}" e.2,
      .setDefault e.1 e.2]

/-- Formal artifacts read back from a document with sorted keys. -/
def FormalArtifacts.sorted (a : FormalArtifacts) : FormalArtifacts where
  refs := a.refs.sorted
  publications := a.publications.sorted
  receipted := by
    intro e he
    rw [Dict.lookup_sorted]
    exact a.receipted e (Dict.mem_entries_sorted.mp he)

namespace FinishedCase

variable {O : Type}

/-- `result.ok`. -/
def ok (r : FinishedCase O) : Bool := r.result.ok

/-- A result read back from a manifest. -/
def readBack (r : FinishedCase O) : FinishedCase O := { r with artifacts := r.artifacts.sorted }

/-- `replace(result, status="resumed")`. -/
def resumed (r : FinishedCase O) : FinishedCase O :=
  { r with result := { r.result with status := .resumed } }

/-- The formal artifacts of a result are those for which the ledger vouches: what
`_validate_case_artifact_publications` checks. -/
def Verified (ledger : ArtifactPublicationReceipt → Bool) (r : FinishedCase O) : Prop :=
  r.ok → ∀ e ∈ r.artifacts.refs.entries,
    (r.artifacts.publications.lookup e.1).any fun receipt ↦ receipt.ref = e.2 ∧ ledger receipt

instance (ledger : ArtifactPublicationReceipt → Bool) (r : FinishedCase O) :
    Decidable (r.Verified ledger) :=
  inferInstanceAs (Decidable (_ → _))

end FinishedCase

/-- A record of a Case: its result when it has one, and its task at a broker. -/
structure CaseRecord (O : Type) where
  key : CaseKey
  result : Option (FinishedCase O)
  externalTask : Option String

/-- `ProjectRunManifest`, as it is read back. -/
structure ProjectRunManifest (O : Type) where
  cases : List (CaseRecord O)
  artifactRegistry : Dict DataRef

/-- What the resume check can raise. -/
inductive ResumeError where
  | artifacts (e : ArtifactIndexError)
  | noValidReceipt (artifactName : String)
  | registryMismatch
deriving DecidableEq

/-- The text of the exception. -/
def ResumeError.message : ResumeError → String
  | artifacts e => e.message
  | noValidReceipt name => s!"Case artifact '{name}' has no valid finalized publication receipt"
  | registryMismatch =>
      "Project run manifest Artifact Registry does not match its verified successful Case " ++
        "publication receipts"

/-! ## The resume check -/

/-- `_validate_case_artifact_publications`. -/
def validateCaseArtifactPublications {O : Type} (ledger : ArtifactPublicationReceipt → Bool)
    (r : FinishedCase O) : Except ResumeError (FinishedCase O) :=
  if r.ok then
    match r.artifacts.refs.entries.find? fun e ↦
        !(r.artifacts.publications.lookup e.1).any fun receipt ↦
          receipt.ref = e.2 ∧ ledger receipt with
    | some e => .error (.noValidReceipt e.1)
    | none => .ok r
  else .ok r

namespace ProjectRunManifest

variable {O : Type} (m : ProjectRunManifest O)

/-- `successful_cases`. -/
def successfulCases : List (CaseKey × FinishedCase O) :=
  m.cases.filterMap fun c ↦ c.result.bind fun r ↦ if r.ok then some (c.key, r.resumed) else none

/-- One turn of the loop of `_validated_resume_artifacts`. -/
def registerSuccessful (ledger : ArtifactPublicationReceipt → Bool) (registry : ArtifactRegistries)
    (c : CaseKey × FinishedCase O) : Except ResumeError ArtifactRegistries := do
  let checked ← validateCaseArtifactPublications ledger c.2
  (registry.registerCaseArtifacts c.1.stageName c.1.caseName checked.artifacts.refs
    checked.artifacts.publications).mapError .artifacts

/-- `_validated_resume_artifacts`. -/
def validatedResumeArtifacts (ledger : ArtifactPublicationReceipt → Bool) :
    Except ResumeError (Dict ArtifactBinding) := do
  let rebuilt ← m.successfulCases.foldlM (registerSuccessful ledger) ⟨∅, ∅⟩
  if m.artifactRegistry.Same rebuilt.refs then .ok rebuilt.bindings else .error .registryMismatch

/-- The manifest passes the resume check. -/
def Resumes (ledger : ArtifactPublicationReceipt → Bool) : Prop :=
  ∃ bindings, m.validatedResumeArtifacts ledger = .ok bindings

end ProjectRunManifest

/-! ## The recorder -/

/-- `ProjectRunRecorder`. -/
structure ProjectRunRecorder (O : Type) where
  caseOrder : List CaseKey
  records : List (CaseRecord O)
  artifacts : Dict DataRef

/-- What `run_project` calls of the recorder. -/
inductive RecorderCall (O : Type) where
  /-- The manifest is written as it is, or not at all. -/
  | none
  | seedArtifacts (refs : Dict DataRef)
  | recordExternalTask (key : CaseKey) (taskId : String)
  | recordCase (key : CaseKey) (r : FinishedCase O)

namespace ProjectRunRecorder

variable {O : Type} (p : ProjectRunRecorder O)

/-- `self._records.get(key)`. -/
def record (key : CaseKey) : Option (CaseRecord O) := Rows.lookup CaseRecord.key key p.records

/-- The result that is recorded for a Case. -/
def resultOf (key : CaseKey) : Option (FinishedCase O) := (p.record key).bind CaseRecord.result

/-- `self._records[key] = record`. -/
def setRecord (c : CaseRecord O) : List (CaseRecord O) :=
  if (p.record c.key).isSome then Rows.update CaseRecord.key c.key (fun _ ↦ c) p.records
  else p.records ++ [c]

/-- Enter the artifacts of a result into the index, in the order in which the result has them; one
without a receipt is passed over. -/
def enterArtifacts (key : CaseKey) (a : FormalArtifacts) : Dict DataRef :=
  a.refs.entries.foldl (fun d e ↦
    if e.1 ∈ a.publications then
      setDefault ((d.insert s!"{key.stageName}.{key.caseName}.{e.1}" e.2).insert
        s!"{key.caseName}.{e.1}" e.2) e.1 e.2
    else d) p.artifacts

/-- `record_case`. -/
def recordCase (key : CaseKey) (r : FinishedCase O) : ProjectRunRecorder O :=
  { p with
    records := p.setRecord ⟨key, some r, (p.record key).bind CaseRecord.externalTask⟩
    artifacts := if r.ok then p.enterArtifacts key r.artifacts else p.artifacts }

/-- `record_external_task`. -/
def recordExternalTask (key : CaseKey) (taskId : String) : ProjectRunRecorder O :=
  { p with records := p.setRecord ⟨key, none, some taskId⟩ }

/-- `seed_artifacts`. -/
def seedArtifacts (refs : Dict DataRef) : ProjectRunRecorder O :=
  { p with artifacts := p.artifacts.update refs }

/-- `write`: the manifest that a later run reads. -/
def write : ProjectRunManifest O where
  cases := (p.records.mergeSort fun c c' ↦ p.caseOrder.idxOf c.key ≤ p.caseOrder.idxOf c'.key).map
    fun c ↦ { c with result := c.result.map FinishedCase.readBack }
  artifactRegistry := p.artifacts

/-- A call of the recorder. -/
def call : RecorderCall O → ProjectRunRecorder O
  | .none => p
  | .seedArtifacts refs => p.seedArtifacts refs
  | .recordExternalTask key taskId => p.recordExternalTask key taskId
  | .recordCase key r => p.recordCase key r

end ProjectRunRecorder

/-! ## The runner -/

/-- How a Stage runs its Cases. -/
inductive StageMode where
  | sequential
  /-- A parallel or a DAG Stage. -/
  | concurrent
  | external
deriving DecidableEq

/-- A Stage of a group, as far as the order of recording depends on it. -/
structure GroupStage where
  name : String
  caseNames : List String
  mode : StageMode

/-- The Stages of a group.  `run_project` refuses a group in which names are repeated. -/
structure ProjectGroup where
  stages : List GroupStage
  stageNames_nodup : (stages.map GroupStage.name).Nodup
  caseNames_nodup : ∀ stage ∈ stages, stage.caseNames.Nodup

/-- The keys of the Cases of a Stage. -/
def GroupStage.keys (stage : GroupStage) : List CaseKey :=
  stage.caseNames.map fun c ↦ ⟨stage.name, c⟩

/-- `case_order`. -/
def ProjectGroup.caseOrder (group : ProjectGroup) : List CaseKey :=
  group.stages.flatMap GroupStage.keys

/-- What a run takes from the manifest it resumes from, which has passed the check. -/
structure Resumption (O : Type) (ledger : ArtifactPublicationReceipt → Bool) where
  manifest : ProjectRunManifest O
  bindings : Dict ArtifactBinding
  checked : manifest.validatedResumeArtifacts ledger = .ok bindings

/-- A run that is to be made: the group, what its ledger vouches for, and what it resumes from. -/
structure RunPlan (O : Type) where
  group : ProjectGroup
  ledger : ArtifactPublicationReceipt → Bool
  resumption : Option (Resumption O ledger)

/-- Where a run stands. -/
inductive RunPhase (O : Type) where
  /-- The recorder has been built. -/
  | recording
  /-- Before the Stages `ahead`. -/
  | between (ahead : List GroupStage)
  /-- The Cases of a Stage that is not sequential are running; `results` have come in. -/
  | collecting (stage : GroupStage) (results : Dict (FinishedCase O)) (ahead : List GroupStage)
  /-- The results of the Cases `left` of a Stage are still to be retained. -/
  | retaining (stage : GroupStage) (results : Dict (FinishedCase O)) (left : List String)
      (ahead : List GroupStage)
  | finished

/-- A step of the runner.  It carries the result of a Case that has run. -/
inductive RunLabel (O : Type) where
  | seed
  | enterStage
  | submitted (caseName taskId : String)
  | completed (caseName : String) (r : FinishedCase O)
  | collected
  /-- The result counts for a Case of a sequential Stage that is not resumed. -/
  | retained (r : FinishedCase O)
  | leaveStage
  /-- All Stages have run, or the group has stopped under fail-fast. -/
  | finish

namespace RunPlan

variable {O : Type} (plan : RunPlan O)

/-- `artifact_registry` of a run that starts. -/
def seeds : Dict DataRef :=
  match plan.resumption with
  | some resumption => Dict.mapWithKey (fun _ binding ↦ binding.ref) resumption.bindings
  | none => ∅

/-- `resume_successes.get((stage_name, case_name))`. -/
def resumedCase (key : CaseKey) : Option (FinishedCase O) :=
  plan.resumption.bind fun resumption ↦ resumption.manifest.successfulCases.lookup key

/-- The Cases of a Stage that are not resumed. -/
def pendingNames (stage : GroupStage) : List String :=
  stage.caseNames.filter fun c ↦ (plan.resumedCase ⟨stage.name, c⟩).isNone

/-- The result that is retained for a Case. -/
def retainedResult (stage : GroupStage) (results : Dict (FinishedCase O)) (caseName : String)
    (r : FinishedCase O) : Option (FinishedCase O) :=
  (plan.resumedCase ⟨stage.name, caseName⟩).or <|
    if stage.mode = .sequential then if r.Verified plan.ledger then some r else none
    else results.lookup caseName

/-- What a step calls of the recorder, and where it leads. -/
def next : RunPhase O → RunLabel O → Option (RecorderCall O × RunPhase O)
  | .recording, .seed =>
      some (if plan.seeds = ∅ then .none else .seedArtifacts plan.seeds,
        .between plan.group.stages)
  | .between (stage :: ahead), .enterStage =>
      some (.none, if stage.mode = .sequential then .retaining stage ∅ stage.caseNames ahead
        else .collecting stage ∅ ahead)
  | .collecting stage results ahead, .submitted caseName taskId =>
      if stage.mode = .external ∧ caseName ∈ plan.pendingNames stage ∧ caseName ∉ results then
        some (.recordExternalTask ⟨stage.name, caseName⟩ taskId, .collecting stage results ahead)
      else none
  | .collecting stage results ahead, .completed caseName r =>
      if caseName ∈ plan.pendingNames stage ∧ caseName ∉ results ∧ r.Verified plan.ledger then
        some (.recordCase ⟨stage.name, caseName⟩ r,
          .collecting stage (results.insert caseName r) ahead)
      else none
  | .collecting stage results ahead, .collected =>
      if ∀ c ∈ plan.pendingNames stage, c ∈ results then
        some (.none, .retaining stage results stage.caseNames ahead)
      else none
  | .retaining stage results (caseName :: left) ahead, .retained r =>
      (plan.retainedResult stage results caseName r).map fun r ↦
        (.recordCase ⟨stage.name, caseName⟩ r, .retaining stage results left ahead)
  | .retaining _ _ [] ahead, .leaveStage => some (.none, .between ahead)
  | .retaining .., .finish => some (.none, .finished)
  | .between _, .finish => some (.none, .finished)
  | _, _ => none

end RunPlan

/-- A run: its recorder, and where it stands. -/
structure RunState (O : Type) where
  recorder : ProjectRunRecorder O
  phase : RunPhase O

/-- A run whose recorder has just written its first manifest. -/
def RunPlan.start {O : Type} (plan : RunPlan O) : RunState O where
  recorder := ⟨plan.group.caseOrder, [], ∅⟩
  phase := .recording

/-- A step of a run. -/
def RunPlan.step {O : Type} (plan : RunPlan O) (s : RunState O) (l : RunLabel O) :
    Option (RunState O) :=
  (plan.next s.phase l).map fun n ↦ ⟨s.recorder.call n.1, n.2⟩

end Blackbase.Project

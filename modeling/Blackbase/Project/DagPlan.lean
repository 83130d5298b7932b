import Blackbase.Core.Attempt
import Blackbase.Core.Precedence
import Blackbase.Project.StageConfig

/-!
# Dependency plans of DAG Stages

`DagStagePlan.from_stage` of `project/dag.py`.  The dependencies of a Case are those the Stage
declares and those its Artifact inputs imply; the order is made in waves of Cases that wait for
nothing.  A plan that is returned lists every Case once, behind all it depends on.
-/

namespace Blackbase.Project

/-- `repr` of a list of names without quotes. -/
def namesRepr (names : List String) : String :=
  "[" ++ ", ".intercalate (names.map fun n ↦ "'" ++ n ++ "'") ++ "]"

/-- What `DagStagePlan.from_stage` can raise. -/
inductive DagPlanError where
  | casesNotSequence
  | noCases
  | duplicateCases
  | notMapping (field : String)
  | duplicateKey (field name : String)
  | unknownTargets (names : List String)
  | dependenciesNotSequence (caseName : String)
  | missingDependencies (caseName : String) (names : List String)
  | selfDependency (caseName : String)
  | unknownInputTargets (names : List String)
  | inputsNotMapping (caseName : String)
  | ownArtifact (caseName registryKey : String)
  | cycle (members : List String)
deriving DecidableEq

/-- The text of the exception. -/
def DagPlanError.message (stageName : String) : DagPlanError → String
  | casesNotSequence => s!"DAG Stage '{stageName}' cases must be a sequence"
  | noCases => s!"DAG Stage '{stageName}' requires at least one Case"
  | duplicateCases => s!"DAG Stage '{stageName}' contains duplicate Case names"
  | notMapping field => s!"DAG Stage '{stageName}' {field} must be a mapping"
  | duplicateKey field name =>
      s!"DAG Stage '{stageName}' field '{field}' contains duplicate normalized key '{name}'"
  | unknownTargets names =>
      s!"DAG Stage '{stageName}' declares dependencies for unknown Cases: " ++ namesRepr names
  | dependenciesNotSequence caseName =>
      s!"DAG Stage '{stageName}' depends_on['{caseName}'] must be a sequence"
  | missingDependencies caseName names =>
      s!"DAG Stage '{stageName}' Case '{caseName}' depends on missing Cases: " ++ namesRepr names
  | selfDependency caseName =>
      s!"DAG Stage '{stageName}' Case '{caseName}' cannot depend on itself"
  | unknownInputTargets names =>
      s!"DAG Stage '{stageName}' declares Artifact inputs for unknown Cases: " ++ namesRepr names
  | inputsNotMapping caseName =>
      s!"DAG Stage '{stageName}' input_artifacts['{caseName}'] must be a mapping"
  | ownArtifact caseName registryKey =>
      s!"DAG Stage '{stageName}' Case '{caseName}' consumes its own Artifact '{registryKey}'"
  | cycle members =>
      s!"DAG Stage '{stageName}' contains a dependency cycle involving: " ++ namesRepr members

/-- `DagStagePlan`. -/
structure DagStagePlan where
  stageName : String
  cases : List String
  dependencies : List (String × List String)
  explicitDependencies : List (String × List String)
  inferredDependencies : List (String × List String)
  topologicalOrder : List String
deriving DecidableEq

/-- `sorted(names)`. -/
def sortedNames (names : List String) : List String := names.mergeSort (fun a b ↦ a ≤ b)

/-- `_normalize_named_mapping`. -/
def normalizeNamedMapping (field : String) :
    List (ConfigKey × ConfigValue) → List (String × ConfigValue) →
      Except DagPlanError (List (String × ConfigValue))
  | [], normalized => .ok normalized
  | (k, v) :: rest, normalized =>
      if k.text ∈ normalized.map (·.1) then .error (.duplicateKey field k.text)
      else normalizeNamedMapping field rest (normalized ++ [(k.text, v)])

/-- A field of the Stage that maps names of Cases. -/
def namedField (field : String) (raw : Option ConfigValue) (cases : List String)
    (unknown : List String → DagPlanError) : Except DagPlanError (List (String × ConfigValue)) :=
  match (raw.getD .emptyMapping).orElse .emptyMapping with
  | .mapping _ items => do
      let named ← normalizeNamedMapping field items []
      let strange := (named.map (·.1)).filter (· ∉ cases)
      if strange ≠ [] then .error (unknown (sortedNames strange)) else .ok named
  | _ => .error (.notMapping field)

/-- The dependencies a Stage declares for a Case. -/
def explicitFor (cases : List String) (named : List (String × ConfigValue)) (caseName : String) :
    Except DagPlanError (List String) :=
  match ((named.lookup caseName).getD .emptySeq).orElse .emptySeq with
  | .seq _ items =>
      let normalized := (items.map ConfigValue.str).eraseDups
      let missing := normalized.filter (· ∉ cases)
      if missing ≠ [] then .error (.missingDependencies caseName (sortedNames missing))
      else if caseName ∈ normalized then .error (.selfDependency caseName)
      else .ok normalized
  | _ => .error (.dependenciesNotSequence caseName)

/-- `_producer_case_for_registry_key`. -/
def producerCaseForRegistryKey (stageName : String) (cases : List String) (key : String) :
    Option String :=
  match ((key.toList.splitOn '.').map String.ofList).filter (· ≠ "") with
  | first :: second :: rest =>
      if rest ≠ [] ∧ first = stageName ∧ second ∈ cases then some second
      else if first ∈ cases then some first
      else none
  | _ => none

/-- The producers of the inputs of a Case, without repetition. -/
def producersFrom (stageName : String) (cases : List String) (caseName : String) :
    List ConfigValue → List String → Except DagPlanError (List String)
  | [], producers => .ok producers
  | key :: rest, producers =>
      match producerCaseForRegistryKey stageName cases key.str with
      | none => producersFrom stageName cases caseName rest producers
      | some producer =>
          if producer = caseName then .error (.ownArtifact caseName key.str)
          else producersFrom stageName cases caseName rest
            (if producer ∈ producers then producers else producers ++ [producer])

/-- The dependencies the inputs of a Case imply. -/
def inferredFor (stageName : String) (cases : List String) (named : List (String × ConfigValue))
    (caseName : String) : Except DagPlanError (List String) :=
  match ((named.lookup caseName).getD .emptyMapping).orElse .emptyMapping with
  | .mapping _ items => producersFrom stageName cases caseName (items.map (·.2)) []
  | _ => .error (.inputsNotMapping caseName)

/-- The loop of `_stable_topological_order`: what is left with what it waits for, and the order so
far. -/
def topologicalLoop (cases : List String) :
    ℕ → List (String × List String) → List String → Except DagPlanError (List String)
  | 0, remaining, _ => .error (.cycle (remaining.map (·.1)))
  | n + 1, remaining, order =>
      if remaining = [] then .ok order
      else
        let ready := cases.filter fun name ↦ remaining.lookup name = some []
        if ready = [] then
          .error (.cycle (cases.filter fun name ↦ (remaining.lookup name).isSome))
        else topologicalLoop cases n
          ((remaining.filter fun e ↦ e.1 ∉ ready).map fun e ↦ (e.1, e.2.filter (· ∉ ready)))
          (order ++ ready)

/-- `_stable_topological_order`.  Every turn of the loop places a Case. -/
def stableTopologicalOrder (cases : List String) (dependencies : List (String × List String)) :
    Except DagPlanError (List String) :=
  topologicalLoop cases (cases.length + 1) dependencies []

/-- The Cases of the Stage. -/
def Stage.caseNames (stage : Stage) : Except DagPlanError (List String) :=
  match (stage.cases.getD .emptySeq).orElse .emptySeq with
  | .seq _ items =>
      let cases := items.map ConfigValue.str
      if cases = [] then .error .noCases
      else if ¬ cases.Nodup then .error .duplicateCases
      else .ok cases
  | _ => .error .casesNotSequence

/-- The dependencies of a Case, the declared ones first. -/
def mergedFor (explicit inferred : List (String × List String)) (caseName : String) :
    List String :=
  ((explicit.lookup caseName).getD [] ++ (inferred.lookup caseName).getD []).eraseDups

/-- `DagStagePlan.from_stage`. -/
def DagStagePlan.fromStage (stage : Stage) : Except DagPlanError DagStagePlan := do
  let stageName := ((stage.name.getD (.text "stage")).orElse (.text "stage")).str
  let cases ← stage.caseNames
  let named ← namedField "depends_on" stage.dependsOn cases .unknownTargets
  let explicit ← cases.mapM fun c ↦ (explicitFor cases named c).map (c, ·)
  let inputs ← namedField "input_artifacts" stage.inputArtifacts cases .unknownInputTargets
  let inferred ← cases.mapM fun c ↦ (inferredFor stageName cases inputs c).map (c, ·)
  let dependencies := cases.map fun c ↦ (c, mergedFor explicit inferred c)
  let order ← stableTopologicalOrder cases dependencies
  return ⟨stageName, cases, dependencies, explicit, inferred, order⟩

namespace DagStagePlan

variable (plan : DagStagePlan)

/-- `dependencies_for`, for a name of the plan. -/
def dependenciesFor (caseName : String) : List String :=
  (plan.dependencies.lookup caseName).getD []

/-- What `request_metadata` says about a Case. -/
structure RequestMetadata where
  stageName : String
  caseName : String
  dependencies : List String
  explicitDependencies : List String
  inferredArtifactDependencies : List String
  topologicalIndex : ℕ
deriving DecidableEq

/-- `request_metadata`. -/
def requestMetadata (caseName : String) : RequestMetadata where
  stageName := plan.stageName
  caseName := caseName
  dependencies := plan.dependenciesFor caseName
  explicitDependencies := (plan.explicitDependencies.lookup caseName).getD []
  inferredArtifactDependencies := (plan.inferredDependencies.lookup caseName).getD []
  topologicalIndex := plan.topologicalOrder.idxOf caseName

/-- What a plan is good for: its order lists the Cases once each, behind their dependencies. -/
structure Valid : Prop where
  nodup : plan.cases.Nodup
  perm : plan.topologicalOrder.Perm plan.cases
  ordered : Precedence.Ordered plan.dependenciesFor plan.topologicalOrder

end DagStagePlan

/-! ## The order of a plan -/

section Order

variable {cases order : List String} {deps : String → List String}

/-- What is left when the Cases of `order` have been placed. -/
def leftAfter (cases : List String) (deps : String → List String) (order : List String) :
    List (String × List String) :=
  (cases.filter (· ∉ order)).map fun c ↦ (c, (deps c).filter (· ∉ order))

theorem lookup_graph {α : Type*} (l : List String) (f : String → α) (c : String) :
    (l.map fun c ↦ (c, f c)).lookup c = if c ∈ l then some (f c) else none := by
  induction l with
  | nil => rfl
  | cons d rest ih =>
      rw [List.map_cons, List.lookup_cons]
      by_cases hcd : c = d
      · subst hcd
        simp
      · have hne : (c == d) = false := beq_eq_false_iff_ne.mpr hcd
        simp [hne, hcd, ih]

/-- The Cases of the next wave: those left that wait for nothing. -/
theorem mem_ready {c : String} :
    c ∈ cases.filter (fun name ↦ (leftAfter cases deps order).lookup name = some []) ↔
      c ∈ cases ∧ c ∉ order ∧ ∀ d ∈ deps c, d ∈ order := by
  rw [List.mem_filter, leftAfter, lookup_graph]
  by_cases hc : c ∈ cases
  · by_cases ho : c ∈ order
    · simp [hc, ho]
    · simp [hc, ho, List.filter_eq_nil_iff]
  · simp [hc]

/-- Placing a wave leaves what is left after it. -/
theorem leftAfter_append (ready : List String) :
    ((leftAfter cases deps order).filter fun e ↦ e.1 ∉ ready).map
        (fun e ↦ (e.1, e.2.filter (· ∉ ready))) =
      leftAfter cases deps (order ++ ready) := by
  have hfilter : ∀ l : List String, (l.filter (· ∉ order)).filter (· ∉ ready) =
      l.filter (· ∉ order ++ ready) := by
    intro l
    rw [List.filter_filter]
    congr 1
    funext c
    simp only [List.mem_append, not_or, Bool.decide_and, Bool.and_comm]
  simp only [leftAfter, List.filter_map, List.map_map, Function.comp_def, hfilter]

theorem topologicalLoop_spec (hnodup : cases.Nodup) (n : ℕ) :
    ∀ order, order.Nodup → (∀ c ∈ order, c ∈ cases) → Precedence.Ordered deps order →
      Attempt.Ends
        (fun result ↦ result.Perm cases ∧ Precedence.Ordered deps result) (fun _ ↦ True)
        (topologicalLoop cases n (leftAfter cases deps order) order) := by
  induction n with
  | zero => exact fun _ _ _ _ ↦ trivial
  | succ n ih =>
      intro order horder hsub hprec
      rw [topologicalLoop]
      dsimp only
      split_ifs with hleft
      · have hall : ∀ c ∈ cases, c ∈ order := by
          intro c hc
          by_contra hout
          have hnil := List.filter_eq_nil_iff.mp (List.map_eq_nil_iff.mp hleft) c hc
          exact hnil (decide_eq_true hout)
        refine ⟨(List.perm_ext_iff_of_nodup horder hnodup).mpr fun c ↦ ⟨hsub c, hall c⟩, hprec⟩
      · trivial
      · rw [leftAfter_append]
        refine ih _ ?_ ?_ ?_
        · refine horder.append (hnodup.filter _) ?_
          intro c hc hnew
          exact (mem_ready.mp hnew).2.1 hc
        · intro c hc
          exact (List.mem_append.mp hc).elim (hsub c) fun hnew ↦ (mem_ready.mp hnew).1
        · exact hprec.append fun c hc ↦ (mem_ready.mp hc).2.2

theorem leftAfter_nil : leftAfter cases deps [] = cases.map fun c ↦ (c, deps c) := by
  simp [leftAfter]

end Order

namespace DagStagePlan

theorem caseNames_nodup (stage : Stage) :
    Attempt.Ends List.Nodup (fun _ ↦ True) stage.caseNames := by
  unfold Stage.caseNames
  split
  · dsimp only
    split_ifs with hempty hnodup
    · trivial
    · exact hnodup
    · trivial
  · trivial

/-- Every plan that `from_stage` returns is valid. -/
theorem fromStage_valid {stage : Stage} {plan : DagStagePlan} (h : fromStage stage = .ok plan) :
    plan.Valid := by
  have hends : Attempt.Ends Valid (fun _ ↦ True) (fromStage stage) := by
    refine (caseNames_nodup stage).bind fun cases hnodup ↦ ?_
    refine (Attempt.ends_true _).bind fun named _ ↦ ?_
    refine (Attempt.ends_true _).bind fun explicit _ ↦ ?_
    refine (Attempt.ends_true _).bind fun inputs _ ↦ ?_
    refine (Attempt.ends_true _).bind fun inferred _ ↦ ?_
    have hloop : Attempt.Ends
        (fun order ↦ order.Perm cases ∧ Precedence.Ordered (mergedFor explicit inferred) order)
        (fun _ ↦ True)
        (topologicalLoop cases (cases.length + 1)
          (leftAfter cases (mergedFor explicit inferred) []) []) :=
      topologicalLoop_spec hnodup _ [] List.nodup_nil (fun _ hc ↦ absurd hc List.not_mem_nil)
        Precedence.Ordered.nil
    rw [leftAfter_nil] at hloop
    refine hloop.bind fun order horder ↦ ?_
    refine ⟨hnodup, horder.1, ?_⟩
    intro c hc d hd
    refine horder.2 c hc d ?_
    simpa [dependenciesFor, lookup_graph, horder.1.subset hc] using hd
  rw [h] at hends
  exact hends

end DagStagePlan

end Blackbase.Project

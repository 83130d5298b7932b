import Blackbase.Project.ArtifactIndex
import Blackbase.Project.DagPlan

/-!
# The producers of inputs

`_register_case_artifacts` joins the names of the Stage, of the Case and of the artifact by dots,
and `_producer_case_for_registry_key` takes such a key apart again.  A key without dots names an
artifact alone and says nothing about its producer.  The dependencies that the plan of a Stage
infers for a Case are the producers that can be read off its inputs.
-/

namespace Blackbase.Project

open Attempt

/-! ## Dotted names -/

section Parts

variable {name : String}

/-- The parts of a dotted name that are not empty. -/
def dottedParts (name : String) : List String :=
  ((name.toList.splitOn '.').map String.ofList).filter (· ≠ "")

theorem dottedParts_dot (left right : String) :
    dottedParts (left ++ "." ++ right) = dottedParts left ++ dottedParts right := by
  have hlist : (left ++ "." ++ right).toList = left.toList ++ '.' :: right.toList := by
    simp [String.toList_append]
  have hsplit : (left.toList ++ '.' :: right.toList).splitOn '.' =
      left.toList.splitOn '.' ++ right.toList.splitOn '.' :=
    List.splitOnP_append_cons _ _ (beq_self_eq_true '.')
  rw [dottedParts, hlist, hsplit, List.map_append, List.filter_append]
  rfl

/-- A name of one part: it is not empty and has no dot. -/
structure PlainName (name : String) : Prop where
  ne : name ≠ ""
  noDot : '.' ∉ name.toList

instance (name : String) : Decidable (PlainName name) :=
  decidable_of_iff (name ≠ "" ∧ '.' ∉ name.toList) ⟨fun h ↦ ⟨h.1, h.2⟩, fun h ↦ ⟨h.ne, h.noDot⟩⟩

theorem dottedParts_noDot (h : '.' ∉ name.toList) :
    dottedParts name = if name = "" then [] else [name] := by
  have hsplit : name.toList.splitOn '.' = [name.toList] := by
    refine List.splitOn_eq_singleton_of_beq_eq_false fun c hc ↦ beq_eq_false_iff_ne.mpr ?_
    rintro rfl
    exact h hc
  rw [dottedParts, hsplit, List.map_singleton, String.ofList_toList]
  split_ifs with hempty
  · simp [hempty]
  · simp [hempty]

theorem PlainName.parts (h : PlainName name) : dottedParts name = [name] := by
  rw [dottedParts_noDot h.noDot, if_neg h.ne]

end Parts

/-! ## The keys of the registry -/

/-- The key with the names of the Stage and of the Case. -/
def qualifiedKey (stageName caseName artifactName : String) : String :=
  s!"{stageName}.{caseName}.{artifactName}"

/-- The key with the name of the Case. -/
def caseQualifiedKey (caseName artifactName : String) : String := s!"{caseName}.{artifactName}"

/-- The keys under which an artifact of a Case is entered. -/
def registryKeys (stageName caseName artifactName : String) : List String :=
  [qualifiedKey stageName caseName artifactName, caseQualifiedKey caseName artifactName,
    artifactName]

theorem dottedParts_caseQualifiedKey (caseName artifactName : String) :
    dottedParts (caseQualifiedKey caseName artifactName) =
      dottedParts caseName ++ dottedParts artifactName := by
  have hjoin : caseQualifiedKey caseName artifactName = caseName ++ "." ++ artifactName := by
    simp [caseQualifiedKey, toString]
  rw [hjoin, dottedParts_dot]

theorem dottedParts_qualifiedKey (stageName caseName artifactName : String) :
    dottedParts (qualifiedKey stageName caseName artifactName) =
      dottedParts stageName ++ (dottedParts caseName ++ dottedParts artifactName) := by
  have hjoin : qualifiedKey stageName caseName artifactName =
      stageName ++ "." ++ (caseName ++ "." ++ artifactName) := by
    simp [qualifiedKey, toString, String.append_assoc]
  rw [hjoin, dottedParts_dot, dottedParts_dot]

theorem mem_setDefault {α : Type*} {d : Dict α} {name key : String} {value : α} :
    key ∈ setDefault d name value ↔ key = name ∨ key ∈ d := by
  unfold setDefault
  split_ifs with hname
  · constructor
    · exact Or.inr
    · rintro (rfl | hkey)
      · exact hname
      · exact hkey
  · exact AList.mem_insert d

namespace ArtifactRegistries

/-- Entering an artifact adds its keys. -/
theorem registerOne_keys {stageName caseName : String}
    {publications : Dict Resources.Artifacts.ArtifactPublicationReceipt}
    (registry : ArtifactRegistries) (e : Sigma fun _ : String ↦ Resources.Artifacts.DataRef) :
    Ends (fun registry' ↦ ∀ key,
        key ∈ registry'.refs ↔ key ∈ registry.refs ∨ key ∈ registryKeys stageName caseName e.1)
      (fun _ ↦ True) (registerOne stageName caseName publications registry e) := by
  rw [registerOne]
  cases publications.lookup e.1 with
  | none => trivial
  | some publication =>
      refine (ends_true (ArtifactBinding.make e.2 publication)).bind fun binding _ key ↦ ?_
      simp only [mem_setDefault, AList.mem_insert, registryKeys, qualifiedKey, caseQualifiedKey,
        List.mem_cons, List.not_mem_nil, or_false]
      tauto

/-- What is in the index after the artifacts of a Case have been entered. -/
theorem registerCaseArtifacts_keys {stageName caseName : String}
    {publications : Dict Resources.Artifacts.ArtifactPublicationReceipt}
    {registry registry' : ArtifactRegistries} {refs : Dict Resources.Artifacts.DataRef}
    (h : registry.registerCaseArtifacts stageName caseName refs publications = .ok registry')
    (key : String) :
    key ∈ registry'.refs ↔ key ∈ registry.refs ∨
      ∃ artifactName ∈ refs, key ∈ registryKeys stageName caseName artifactName := by
  have hloop : ∀ (l : List (Sigma fun _ : String ↦ Resources.Artifacts.DataRef))
      (registry : ArtifactRegistries),
      Ends (fun registry' ↦ key ∈ registry'.refs ↔ key ∈ registry.refs ∨
        ∃ artifactName ∈ l.keys, key ∈ registryKeys stageName caseName artifactName)
        (fun _ ↦ True) (l.foldlM (registerOne stageName caseName publications) registry) := by
    intro l
    induction l with
    | nil =>
        intro registry
        simp [List.keys]
    | cons e rest ih =>
        intro registry
        rw [List.foldlM_cons]
        refine (registerOne_keys registry e).bind fun middle hmiddle ↦ ?_
        refine (ih middle).mono (fun registry' hrest ↦ ?_) fun _ h ↦ h
        rw [hrest, hmiddle]
        simp only [List.keys_cons, List.mem_cons, exists_eq_or_imp, or_assoc]
  have hends := hloop refs.entries registry
  rw [show refs.entries.foldlM (registerOne stageName caseName publications) registry =
    .ok registry' from h] at hends
  exact hends

end ArtifactRegistries

/-! ## Reading a key -/

section Producer

variable {stageName caseName artifactName key : String} {cases : List String}

theorem producer_of_parts {first second : String} {rest : List String}
    (h : dottedParts key = first :: second :: rest) :
    producerCaseForRegistryKey stageName cases key =
      if rest ≠ [] ∧ first = stageName ∧ second ∈ cases then some second
      else if first ∈ cases then some first
      else none := by
  rw [dottedParts] at h
  rw [producerCaseForRegistryKey, h]

/-- A key of one part has no producer. -/
theorem producer_of_noDot (h : '.' ∉ key.toList) :
    producerCaseForRegistryKey stageName cases key = none := by
  have hparts := dottedParts_noDot h
  rw [dottedParts] at hparts
  rw [producerCaseForRegistryKey, hparts]
  split_ifs with hempty
  · rfl
  · rfl

/-- The key of an artifact of the Case named like the Stage can read like a key of another Case. -/
def ReadsAsQualified (stageName : String) (cases : List String) (caseName artifactName : String) :
    Prop :=
  caseName = stageName ∧ ∃ other ∈ cases, ∃ rest ≠ [], dottedParts artifactName = other :: rest

theorem producer_qualifiedKey (hstage : PlainName stageName) (hcase : PlainName caseName)
    (hmem : caseName ∈ cases) (hartifact : dottedParts artifactName ≠ []) :
    producerCaseForRegistryKey stageName cases (qualifiedKey stageName caseName artifactName) =
      some caseName := by
  have hparts := dottedParts_qualifiedKey stageName caseName artifactName
  rw [hstage.parts, hcase.parts] at hparts
  rw [producer_of_parts hparts]
  exact if_pos ⟨hartifact, rfl, hmem⟩

theorem producer_caseQualifiedKey (hcase : PlainName caseName) (hmem : caseName ∈ cases)
    (hartifact : dottedParts artifactName ≠ [])
    (hclear : ¬ ReadsAsQualified stageName cases caseName artifactName) :
    producerCaseForRegistryKey stageName cases (caseQualifiedKey caseName artifactName) =
      some caseName := by
  obtain ⟨second, rest, hsplit⟩ := List.exists_cons_of_ne_nil hartifact
  have hparts := dottedParts_caseQualifiedKey caseName artifactName
  rw [hcase.parts, hsplit] at hparts
  rw [producer_of_parts hparts, if_neg, if_pos hmem]
  rintro ⟨hrest, hname, hother⟩
  exact hclear ⟨hname, second, hother, rest, hrest, hsplit⟩

end Producer

/-! ## The dependencies of a plan -/

/-- `input_artifacts`, by the names of the Cases. -/
def Stage.declaredInputs (stage : Stage) : List (String × ConfigValue) :=
  match (stage.inputArtifacts.getD .emptyMapping).orElse .emptyMapping with
  | .mapping _ items => items.map fun e ↦ (e.1.text, e.2)
  | _ => []

/-- The registry keys that a Case declares as its inputs. -/
def Stage.declaredKeys (stage : Stage) (caseName : String) : List String :=
  match ((stage.declaredInputs.lookup caseName).getD .emptyMapping).orElse .emptyMapping with
  | .mapping _ items => items.map fun e ↦ e.2.str
  | _ => []

theorem normalizeNamedMapping_spec (field : String) (items : List (ConfigKey × ConfigValue)) :
    ∀ normalized, Ends (· = normalized ++ items.map fun e ↦ (e.1.text, e.2)) (fun _ ↦ True)
      (normalizeNamedMapping field items normalized) := by
  induction items with
  | nil => exact fun normalized ↦ (List.append_nil normalized).symm
  | cons e rest ih =>
      intro normalized
      rw [normalizeNamedMapping]
      split_ifs with hdup
      · trivial
      · refine (ih _).mono (fun named hnamed ↦ ?_) fun _ h ↦ h
        rw [hnamed, List.append_assoc]
        rfl

/-- The producers of a list of inputs. -/
theorem producersFrom_spec (stageName : String) (cases : List String) (caseName : String)
    (keys : List ConfigValue) : ∀ producers,
    Ends (fun found ↦ ∀ c, c ∈ found ↔ c ∈ producers ∨
        ∃ key ∈ keys.map ConfigValue.str, producerCaseForRegistryKey stageName cases key = some c)
      (fun _ ↦ True) (producersFrom stageName cases caseName keys producers) := by
  induction keys with
  | nil =>
      intro producers c
      simp
  | cons key rest ih =>
      intro producers
      rw [producersFrom]
      cases hkey : producerCaseForRegistryKey stageName cases key.str with
      | none =>
          refine (ih producers).mono (fun found hfound c ↦ ?_) fun _ h ↦ h
          rw [hfound]
          simp [hkey]
      | some producer =>
          dsimp only
          split_ifs with hself hold
          · trivial
          · refine (ih producers).mono (fun found hfound c ↦ ?_) fun _ h ↦ h
            rw [hfound]
            simp only [List.map_cons, List.mem_cons, exists_eq_or_imp, hkey, Option.some.injEq]
            constructor
            · rintro (hc | hc)
              · exact Or.inl hc
              · exact Or.inr (Or.inr hc)
            · rintro (hc | rfl | hc)
              · exact Or.inl hc
              · exact Or.inl hold
              · exact Or.inr hc
          · refine (ih _).mono (fun found hfound c ↦ ?_) fun _ h ↦ h
            rw [hfound]
            simp only [List.map_cons, List.mem_cons, List.mem_append, List.not_mem_nil, or_false,
              exists_eq_or_imp, hkey, Option.some.injEq, or_assoc]
            rw [eq_comm (a := c)]

theorem namedField_declaredInputs {stage : Stage} {cases : List String}
    {named : List (String × ConfigValue)}
    (h : namedField "input_artifacts" stage.inputArtifacts cases .unknownInputTargets =
      .ok named) : named = stage.declaredInputs := by
  rw [namedField] at h
  rw [Stage.declaredInputs]
  revert h
  cases (stage.inputArtifacts.getD .emptyMapping).orElse .emptyMapping with
  | mapping repr items =>
      intro h
      have hspec := normalizeNamedMapping_spec "input_artifacts" items []
      cases hnormalized : normalizeNamedMapping "input_artifacts" items [] with
      | error e =>
          simp only [hnormalized, bind, Except.bind] at h
          cases h
      | ok normalized =>
          rw [hnormalized] at hspec
          simp only [hnormalized, bind, Except.bind] at h
          split_ifs at h
          cases h
          exact hspec
  | none => exact fun h ↦ by cases h
  | text s => exact fun h ↦ by cases h
  | atom repr truthy safe => exact fun h ↦ by cases h
  | seq repr items => exact fun h ↦ by cases h

/-- What the inputs of a Case imply, read off its keys. -/
theorem inferredFor_spec (stageName : String) (cases : List String) (stage : Stage)
    (caseName : String) :
    Ends (fun found ↦ ∀ c, c ∈ found ↔
        ∃ key ∈ stage.declaredKeys caseName,
          producerCaseForRegistryKey stageName cases key = some c)
      (fun _ ↦ True) (inferredFor stageName cases stage.declaredInputs caseName) := by
  rw [inferredFor, Stage.declaredKeys]
  cases ((stage.declaredInputs.lookup caseName).getD .emptyMapping).orElse .emptyMapping with
  | mapping repr items =>
      refine (producersFrom_spec stageName cases caseName _ []).mono
        (fun found hfound c ↦ ?_) fun _ h ↦ h
      rw [hfound, List.map_map]
      simp only [List.not_mem_nil, false_or]
      rfl
  | none => trivial
  | text s => trivial
  | atom repr truthy safe => trivial
  | seq repr items => trivial

/-- A list with an entry for each name of another, in order. -/
theorem lookup_of_forall₂ {β : Type} {Q : String → β → Prop} {names : List String}
    {entries : List (String × β)}
    (h : List.Forall₂ (fun c e ↦ e.1 = c ∧ Q c e.2) names entries) {c : String}
    (hc : c ∈ names) : ∃ b, entries.lookup c = some b ∧ Q c b := by
  induction h with
  | nil => cases hc
  | @cons d e names entries hde _ ih =>
      obtain ⟨rfl, hQ⟩ := hde
      rw [List.lookup_cons]
      by_cases heq : c = e.1
      · subst heq
        exact ⟨e.2, by simp, hQ⟩
      · have hne : (c == e.1) = false := beq_eq_false_iff_ne.mpr heq
        obtain ⟨b, hb, hQb⟩ := ih ((List.mem_cons.mp hc).resolve_left heq)
        exact ⟨b, by simp [hne, hb], hQb⟩

namespace DagStagePlan

/-- The dependencies that the inputs of a Case imply. -/
def inferredDependenciesFor (plan : DagStagePlan) (caseName : String) : List String :=
  (plan.inferredDependencies.lookup caseName).getD []

/-- How a plan comes by its dependencies. -/
structure Inferred (stage : Stage) (plan : DagStagePlan) : Prop where
  producers : ∀ c ∈ plan.cases, ∀ p, p ∈ plan.inferredDependenciesFor c ↔
    ∃ key ∈ stage.declaredKeys c,
      producerCaseForRegistryKey plan.stageName plan.cases key = some p
  merged : ∀ c ∈ plan.cases, ∀ p ∈ plan.inferredDependenciesFor c, p ∈ plan.dependenciesFor c

theorem fromStage_inferred {stage : Stage} {plan : DagStagePlan}
    (h : fromStage stage = .ok plan) : plan.Inferred stage := by
  have hends : Ends (Inferred stage) (fun _ ↦ True) (fromStage stage) := by
    refine (ends_true _).bind fun cases _ ↦ ?_
    refine (ends_true _).bind fun named _ ↦ ?_
    refine (ends_true _).bind fun explicit _ ↦ ?_
    cases hinputs : namedField "input_artifacts" stage.inputArtifacts cases
        .unknownInputTargets with
    | error e => trivial
    | ok inputs =>
        obtain rfl := namedField_declaredInputs hinputs
        refine (Ends.mapM (R := fun c e ↦ e.1 = c ∧ ∀ p, p ∈ e.2 ↔
          ∃ key ∈ stage.declaredKeys c, producerCaseForRegistryKey
            ((stage.name.getD (.text "stage")).orElse (.text "stage")).str cases key = some p)
          (fun c ↦ ?_) cases).bind fun inferred hinferred ↦ ?_
        · have hspec := inferredFor_spec
            ((stage.name.getD (.text "stage")).orElse (.text "stage")).str cases stage c
          cases hfound : inferredFor
              ((stage.name.getD (.text "stage")).orElse (.text "stage")).str cases
              stage.declaredInputs c with
          | error e => trivial
          | ok found =>
              rw [hfound] at hspec
              exact ⟨rfl, hspec⟩
        · refine (ends_true _).bind fun order _ ↦ ?_
          refine ⟨fun c hc p ↦ ?_, fun c hc p hp ↦ ?_⟩
          · obtain ⟨found, hlookup, hfound⟩ := lookup_of_forall₂
              (Q := fun c found ↦ ∀ p, p ∈ found ↔ ∃ key ∈ stage.declaredKeys c,
                producerCaseForRegistryKey _ cases key = some p) hinferred hc
            simp only [inferredDependenciesFor, hlookup, Option.getD_some]
            exact hfound p
          · have hmerged : p ∈ mergedFor explicit inferred c :=
              List.mem_eraseDups.mpr (List.mem_append_right _ hp)
            simpa [dependenciesFor, lookup_graph, show c ∈ cases from hc] using hmerged
  rw [h] at hends
  exact hends

end DagStagePlan

/-! ## Producers of declared inputs -/

/-- The producer that a key of the registry names, among plain names. -/
inductive KeyNames (stageName : String) (cases : List String) : String → Option String → Prop
  | qualified {caseName artifactName : String} : caseName ∈ cases →
      dottedParts artifactName ≠ [] →
      KeyNames stageName cases (qualifiedKey stageName caseName artifactName) (some caseName)
  | caseQualified {caseName artifactName : String} : caseName ∈ cases →
      dottedParts artifactName ≠ [] →
      ¬ ReadsAsQualified stageName cases caseName artifactName →
      KeyNames stageName cases (caseQualifiedKey caseName artifactName) (some caseName)
  | unqualified {artifactName : String} : '.' ∉ artifactName.toList →
      KeyNames stageName cases artifactName none

theorem KeyNames.producer {stageName key : String} {cases : List String} {who : Option String}
    (hstage : PlainName stageName) (hcases : ∀ c ∈ cases, PlainName c)
    (h : KeyNames stageName cases key who) :
    producerCaseForRegistryKey stageName cases key = who := by
  cases h with
  | qualified hmem hartifact =>
      exact producer_qualifiedKey hstage (hcases _ hmem) hmem hartifact
  | caseQualified hmem hartifact hclear =>
      exact producer_caseQualifiedKey (hcases _ hmem) hmem hartifact hclear
  | unqualified hdot => exact producer_of_noDot hdot

/-- What planning should infer from the inputs of a Case. -/
structure ProducersInferred (stage : Stage) (plan : DagStagePlan) (consumer : String) : Prop where
  found : ∀ key ∈ stage.declaredKeys consumer, ∀ producer,
    KeyNames plan.stageName plan.cases key (some producer) →
    producer ∈ plan.inferredDependenciesFor consumer
  before : ∀ key ∈ stage.declaredKeys consumer, ∀ producer,
    KeyNames plan.stageName plan.cases key (some producer) →
    producer ∈ plan.topologicalOrder ∧
      plan.topologicalOrder.idxOf producer < plan.topologicalOrder.idxOf consumer
  exact : (∀ key ∈ stage.declaredKeys consumer, ∃ who,
      KeyNames plan.stageName plan.cases key who) →
    ∀ producer, producer ∈ plan.inferredDependenciesFor consumer ↔
      ∃ key ∈ stage.declaredKeys consumer,
        KeyNames plan.stageName plan.cases key (some producer)

theorem producersInferred {stage : Stage} {plan : DagStagePlan}
    (h : DagStagePlan.fromStage stage = .ok plan) (hstage : PlainName plan.stageName)
    (hcases : ∀ c ∈ plan.cases, PlainName c) {consumer : String}
    (hconsumer : consumer ∈ plan.cases) :
    ProducersInferred stage plan consumer := by
  have hinferred := DagStagePlan.fromStage_inferred h
  have hvalid := DagStagePlan.fromStage_valid h
  have hfound : ∀ key ∈ stage.declaredKeys consumer, ∀ producer,
      KeyNames plan.stageName plan.cases key (some producer) →
      producer ∈ plan.inferredDependenciesFor consumer := by
    intro key hkey producer hnames
    exact (hinferred.producers consumer hconsumer producer).mpr
      ⟨key, hkey, hnames.producer hstage hcases⟩
  refine ⟨hfound, fun key hkey producer hnames ↦ ?_, fun hall producer ↦ ⟨fun hmem ↦ ?_, ?_⟩⟩
  · refine hvalid.ordered consumer (hvalid.perm.symm.subset hconsumer) producer ?_
    exact hinferred.merged consumer hconsumer producer (hfound key hkey producer hnames)
  · obtain ⟨key, hkey, hproducer⟩ :=
      (hinferred.producers consumer hconsumer producer).mp hmem
    obtain ⟨who, hwho⟩ := hall key hkey
    obtain rfl := (hwho.producer hstage hcases).symm.trans hproducer
    exact ⟨key, hkey, hwho⟩
  · rintro ⟨key, hkey, hnames⟩
    exact hfound key hkey producer hnames

/-- What is promised of the keys of the registry: those under which the artifacts of a Case are
entered are its `registryKeys`, a key names the Case whose name it carries and no Case when it is
the name of an artifact alone, and a plan infers from them exactly the Cases they name. -/
structure RegistryKeysRead (stage : Stage) (plan : DagStagePlan) : Prop where
  entered : ∀ (registry registry' : ArtifactRegistries) (producer : String)
    (refs : Dict Resources.Artifacts.DataRef)
    (publications : Dict Resources.Artifacts.ArtifactPublicationReceipt),
    registry.registerCaseArtifacts plan.stageName producer refs publications = .ok registry' →
    ∀ key, key ∈ registry'.refs ↔ key ∈ registry.refs ∨
      ∃ artifactName ∈ refs, key ∈ registryKeys plan.stageName producer artifactName
  read : ∀ key who, KeyNames plan.stageName plan.cases key who →
    producerCaseForRegistryKey plan.stageName plan.cases key = who
  inferred : ∀ consumer ∈ plan.cases, ProducersInferred stage plan consumer

/-- **Inferred producers are the real producers**, among plain names. -/
theorem inferred_producers_exact {stage : Stage} {plan : DagStagePlan}
    (h : DagStagePlan.fromStage stage = .ok plan) (hstage : PlainName plan.stageName)
    (hcases : ∀ c ∈ plan.cases, PlainName c) : RegistryKeysRead stage plan where
  entered := fun _ _ _ _ _ hregister key ↦
    ArtifactRegistries.registerCaseArtifacts_keys hregister key
  read := fun _ _ hnames ↦ hnames.producer hstage hcases
  inferred := fun _ hconsumer ↦ producersInferred h hstage hcases hconsumer

/-! ## An input without the name of its producer -/

/-- `report` consumes an artifact that `train` makes, under the name of the artifact alone. -/
def shortNameStage : Stage where
  name := some (.text "fit")
  cases := some (.seq "[…]" [.text "train", .text "report"])
  inputArtifacts := some (.mapping "{…}" [(⟨"report", true⟩,
    .mapping "{…}" [(⟨"model", true⟩, .text "model")])])

def shortNamePlan : DagStagePlan where
  stageName := "fit"
  cases := ["train", "report"]
  dependencies := [("train", []), ("report", [])]
  explicitDependencies := [("train", []), ("report", [])]
  inferredDependencies := [("train", []), ("report", [])]
  topologicalOrder := ["train", "report"]

theorem shortName_planned : DagStagePlan.fromStage shortNameStage = .ok shortNamePlan := by
  decide +kernel

theorem shortName_keys : shortNameStage.declaredKeys "report" = ["model"] := by decide +kernel

theorem shortName_inferred : shortNamePlan.inferredDependenciesFor "report" = [] := by
  decide +kernel

theorem inferred_producers_exact_short : RegistryKeysRead shortNameStage shortNamePlan :=
  inferred_producers_exact shortName_planned (by decide +kernel) (by decide +kernel)

/-- What `train` publishes. -/
def trainedRef : Resources.Artifacts.DataRef where
  uri := ["artifacts", "model"]
  kind := "artifact"
  backend := "filesystem"
  mediaType := ""
  checksum := ""
  sizeBytes := none
  metadata := []

/-- The receipt of its publication. -/
def trainedReceipt : Resources.Artifacts.ArtifactPublicationReceipt where
  publicationId := "publication"
  artifactName := "model"
  ref := trainedRef
  projectRunId := "project-run"
  caseRunId := "case-run"
  transactionId := "transaction"
  authorityNamespace := "blackbase"
  leaseId := "lease"
  fencingToken := 1
  committedAt := 0
  metadata := [("case_finalization_sealed", "true")]

/-- The artifacts of `train`. -/
def trainedArtifacts : FormalArtifacts where
  refs := AList.singleton "model" trainedRef
  publications := AList.singleton "model" trainedReceipt
  receipted := by
    intro e he
    obtain rfl := List.mem_singleton.mp he
    exact ⟨trainedReceipt, rfl, rfl, rfl⟩

/-- A key under which an artifact is entered, and from which no producer is inferred. -/
theorem shortName_unplanned :
    ¬ ∀ (stage : Stage) (plan : DagStagePlan), DagStagePlan.fromStage stage = .ok plan →
      ∀ producer ∈ plan.cases, ∀ consumer ∈ plan.cases,
      ∀ (registry registry' : ArtifactRegistries) (artifacts : FormalArtifacts),
      registry.registerCaseArtifacts plan.stageName producer artifacts.refs
        artifacts.publications = .ok registry' →
      ∀ key ∈ registry'.refs, key ∉ registry.refs → key ∈ stage.declaredKeys consumer →
        producer ∈ plan.inferredDependenciesFor consumer := by
  intro hall
  obtain ⟨registry', hregister⟩ := ArtifactRegistries.registerCaseArtifacts_ok ⟨∅, ∅⟩ "fit" "train"
    trainedArtifacts
  have hkey : "model" ∈ registry'.refs := by
    refine (ArtifactRegistries.registerCaseArtifacts_keys hregister "model").mpr
      (Or.inr ⟨"model", ?_, ?_⟩)
    · exact AList.mem_keys.mpr List.mem_cons_self
    · exact List.mem_cons_of_mem _ (List.mem_cons_of_mem _ List.mem_cons_self)
  have hdeclared : "model" ∈ shortNameStage.declaredKeys "report" := by
    rw [shortName_keys]
    exact List.mem_cons_self
  have hinferred := hall shortNameStage shortNamePlan shortName_planned "train" (by decide)
    "report" (by decide) ⟨∅, ∅⟩ registry' trainedArtifacts hregister "model" hkey
    (AList.notMem_empty _) hdeclared
  rw [shortName_inferred] at hinferred
  cases hinferred

end Blackbase.Project

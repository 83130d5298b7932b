import Blackbase.Core.Attempt
import Blackbase.Core.Dict
import Blackbase.Resources.Artifacts.Ledger

/-!
# The artifact index of a Project run

`_register_case_artifacts` of `project/project_runner.py`: the artifacts of a Case enter the index
under their qualified name, under the name of the Case and, unless it is taken, under their own
name.  An artifact enters together with the receipt that binds it.
-/

namespace Blackbase.Project

open Resources Resources.Artifacts

/-- A receipt that carries the seal of a finalized Case. -/
def CaseSealed (receipt : ArtifactPublicationReceipt) : Prop :=
  receipt.metadata.lookup "case_finalization_sealed" = some "true"

instance (receipt : ArtifactPublicationReceipt) : Decidable (CaseSealed receipt) :=
  inferInstanceAs (Decidable (_ = _))

/-- `ArtifactBinding`. -/
structure ArtifactBinding where
  ref : DataRef
  publication : ArtifactPublicationReceipt
  agrees : publication.ref = ref
  caseSealed : CaseSealed publication

/-- What entering artifacts can raise. -/
inductive ArtifactIndexError where
  | noReceipt (artifactName : String)
  | refMismatch
  | notSealed
deriving DecidableEq

/-- The text of the exception. -/
def ArtifactIndexError.message : ArtifactIndexError → String
  | noReceipt name => s!"Case artifact '{name}' has no publication receipt"
  | refMismatch => "ArtifactBinding ref does not match its publication receipt"
  | notSealed => "ArtifactBinding requires a Case-finalization-sealed publication receipt"

/-- `ArtifactBinding(ref, publication)`. -/
def ArtifactBinding.make (ref : DataRef) (publication : ArtifactPublicationReceipt) :
    Except ArtifactIndexError ArtifactBinding :=
  if hagrees : publication.ref = ref then
    if hsealed : CaseSealed publication then .ok ⟨ref, publication, hagrees, hsealed⟩
    else .error .notSealed
  else .error .refMismatch

/-- The formal artifacts of a `CaseRunResult`.  Its constructor keeps a ref only beside a receipt
that agrees with it, and the receipts of a finalized Case carry its seal. -/
structure FormalArtifacts where
  refs : Dict DataRef
  publications : Dict ArtifactPublicationReceipt
  receipted : ∀ e ∈ refs.entries, ∃ receipt, publications.lookup e.1 = some receipt ∧
    receipt.ref = e.2 ∧ CaseSealed receipt

/-- The artifacts of a result that has none. -/
def FormalArtifacts.empty : FormalArtifacts := ⟨∅, ∅, fun _ h ↦ absurd h List.not_mem_nil⟩

/-- `artifact_registry` and `artifact_binding_registry`. -/
structure ArtifactRegistries where
  refs : Dict DataRef
  bindings : Dict ArtifactBinding

/-- `d.setdefault(name, value)`. -/
def setDefault {α : Type*} (d : Dict α) (name : String) (value : α) : Dict α :=
  if name ∈ d then d else d.insert name value

namespace ArtifactRegistries

/-- One turn of the loop of `_register_case_artifacts`. -/
def registerOne (stageName caseName : String) (publications : Dict ArtifactPublicationReceipt)
    (registry : ArtifactRegistries) (e : Sigma fun _ : String ↦ DataRef) :
    Except ArtifactIndexError ArtifactRegistries :=
  match publications.lookup e.1 with
  | none => .error (.noReceipt e.1)
  | some publication => do
      let binding ← ArtifactBinding.make e.2 publication
      let qualified := s!"{stageName}.{caseName}.{e.1}"
      let caseQualified := s!"{caseName}.{e.1}"
      return {
        refs := setDefault ((registry.refs.insert qualified e.2).insert caseQualified e.2) e.1 e.2
        bindings := setDefault
          ((registry.bindings.insert qualified binding).insert caseQualified binding) e.1 binding }

/-- `_register_case_artifacts`. -/
def registerCaseArtifacts (registry : ArtifactRegistries) (stageName caseName : String)
    (refs : Dict DataRef) (publications : Dict ArtifactPublicationReceipt) :
    Except ArtifactIndexError ArtifactRegistries :=
  refs.entries.foldlM (registerOne stageName caseName publications) registry

theorem registerOne_ok {stageName caseName : String} {a : FormalArtifacts}
    {e : Sigma fun _ : String ↦ DataRef} (he : e ∈ a.refs.entries) (registry : ArtifactRegistries) :
    Attempt.Ends (fun _ ↦ True) (fun _ ↦ False)
      (registerOne stageName caseName a.publications registry e) := by
  obtain ⟨receipt, hlookup, hagrees, hsealed⟩ := a.receipted e he
  rw [registerOne, hlookup]
  simp only [ArtifactBinding.make, dif_pos hagrees, dif_pos hsealed]
  exact trivial

/-- The artifacts of a result can be entered. -/
theorem registerCaseArtifacts_ok (registry : ArtifactRegistries) (stageName caseName : String)
    (a : FormalArtifacts) : ∃ registry',
    registry.registerCaseArtifacts stageName caseName a.refs a.publications = .ok registry' := by
  have hends : Attempt.Ends (fun _ ↦ True) (fun _ ↦ False)
      (registry.registerCaseArtifacts stageName caseName a.refs a.publications) := by
    refine Attempt.Ends.foldlM (I := fun rest _ ↦ ∀ e ∈ rest, e ∈ a.refs.entries) ?_ ?_
      |>.mono (fun _ _ ↦ trivial) fun _ h ↦ h
    · exact fun e he ↦ he
    · intro e rest registry hrest
      refine (registerOne_ok (hrest e List.mem_cons_self) registry).mono (fun _ _ ↦ ?_) fun _ h ↦ h
      exact fun e' he' ↦ hrest e' (List.mem_cons_of_mem _ he')
  cases h : registry.registerCaseArtifacts stageName caseName a.refs a.publications with
  | ok registry' => exact ⟨registry', rfl⟩
  | error e => simp [h] at hends

end ArtifactRegistries

end Blackbase.Project

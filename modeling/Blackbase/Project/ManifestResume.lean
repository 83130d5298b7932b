import Blackbase.Project.RunManifest

/-!
# Manifests that pass their own resume check

The index a recorder keeps follows the order in which Cases are recorded; the resume check follows
the declared order.  `InOrder` says when a call leaves the two alike, and `manifest_resumes_iff` that
the manifests of a run all pass exactly if each of its calls is in order.

The index and the rebuilt one are compared name by name, through what the registrations of all
recorded Cases leave (`Registration.resolve`).
-/

namespace Blackbase.Project

open Resources Resources.Artifacts Registration

variable {O : Type}

namespace ProjectRunRecorder

variable (p : ProjectRunRecorder O)

/-- What the resume check enters for a Case. -/
def published (key : CaseKey) : List (Registration DataRef) :=
  match p.resultOf key with
  | some r => if r.ok then key.registrations r.artifacts.sorted.refs else []
  | none => []

/-- What the resume check enters before a Case. -/
def publishedBefore (key : CaseKey) : List (Registration DataRef) :=
  (p.caseOrder.takeWhile (· ≠ key)).flatMap p.published

/-- What the resume check enters after a Case. -/
def publishedAfter (key : CaseKey) : List (Registration DataRef) :=
  (p.caseOrder.dropWhile (· ≠ key)).tail.flatMap p.published

/-- A call that keeps the index and the rebuilt one alike.  What a Case assigns must stay its own
behind the recorded Cases declared after it; a name it only sets, as the first in declared order,
must not have been set to something else by one declared after it.  Seeds are in no recorded
Case. -/
def InOrder : RecorderCall O → Prop
  | .none => True
  | .seedArtifacts refs => ∀ name, refs.lookup name = none
  | .recordExternalTask _ _ => True
  | .recordCase key r => r.ok → ∀ name,
      (∀ ref, lastAssigned name (key.registrations r.artifacts.refs) = some ref →
        lastAssigned name (key.registrations r.artifacts.sorted.refs ++ p.publishedAfter key) =
          some ref) ∧
      (p.resultOf key = none →
        lastAssigned name (p.publishedBefore key ++ key.registrations r.artifacts.sorted.refs ++
          p.publishedAfter key) = none →
        firstDefault name (p.publishedBefore key) = none →
        ∀ ref other, firstDefault name (key.registrations r.artifacts.refs) = some ref →
          firstDefault name (p.publishedAfter key) = some other → other = ref)

end ProjectRunRecorder

/-! ## Registrations of a Case -/

namespace CaseKey

variable {key : CaseKey}

theorem firstDefault_registrations (refs : Dict DataRef) (name : String) :
    firstDefault name (key.registrations refs) = refs.lookup name := by
  have hentries : ∀ es : List (Sigma fun _ : String ↦ DataRef),
      firstDefault name (es.flatMap fun e ↦
        [.assign s!"{key.stageName}.{key.caseName}.{e.1}" e.2,
          .assign s!"{key.caseName}.{e.1}" e.2, .setDefault e.1 e.2]) = es.dlookup name := by
    intro es
    induction es with
    | nil => rfl
    | cons e es ih =>
        obtain ⟨n, ref⟩ := e
        rw [List.flatMap_cons, firstDefault_append, ih]
        by_cases hn : n = name
        · subst hn
          simp [firstDefault_cons, Registration.default]
        · simp [firstDefault_cons, Registration.default, hn, Ne.symm hn]
  exact hentries refs.entries

/-- Reading a result back does not change which names it registers. -/
theorem rearranged (refs : Dict DataRef) :
    Rearranged (key.registrations refs.sorted) (key.registrations refs) where
  assigned name := by
    have hperm : (key.registrations refs.sorted).Perm (key.registrations refs) :=
      List.Perm.flatMap_right _ refs.byName_perm
    rw [lastAssigned, lastAssigned, List.getLast?_eq_none_iff, List.getLast?_eq_none_iff]
    constructor
    · intro h
      exact List.Perm.eq_nil (h ▸ hperm.filterMap _)
    · intro h
      exact List.Perm.eq_nil (h ▸ hperm.symm.filterMap _)
  default name := by
    rw [firstDefault_registrations, firstDefault_registrations, Dict.lookup_sorted]

/-- The artifacts of a result enter an index as its registrations. -/
theorem applyAll_registrations (d : Dict DataRef) (refs : Dict DataRef) :
    applyAll d (key.registrations refs) = refs.entries.foldl (fun d e ↦
      setDefault ((d.insert s!"{key.stageName}.{key.caseName}.{e.1}" e.2).insert
        s!"{key.caseName}.{e.1}" e.2) e.1 e.2) d := by
  rw [applyAll, registrations, List.foldl_flatMap]
  rfl

end CaseKey

theorem ProjectRunRecorder.enterArtifacts_eq (p : ProjectRunRecorder O) (key : CaseKey)
    (a : FormalArtifacts) :
    p.enterArtifacts key a = applyAll p.artifacts (key.registrations a.refs) := by
  rw [CaseKey.applyAll_registrations]
  refine List.foldl_ext _ _ _ fun d e he ↦ ?_
  obtain ⟨receipt, hreceipt, -⟩ := a.receipted e he
  exact if_pos (Dict.mem_iff.mpr ⟨receipt, hreceipt⟩)

namespace ArtifactRegistries

theorem refs_of_registerOne {stageName caseName : String}
    {publications : Dict ArtifactPublicationReceipt} {registry registry' : ArtifactRegistries}
    {e : Sigma fun _ : String ↦ DataRef}
    (h : registry.registerOne stageName caseName publications e = .ok registry') :
    registry'.refs = setDefault ((registry.refs.insert s!"{stageName}.{caseName}.{e.1}" e.2).insert
      s!"{caseName}.{e.1}" e.2) e.1 e.2 := by
  unfold registerOne at h
  split at h
  · cases h
  · next publication _ =>
      cases hmake : ArtifactBinding.make e.2 publication with
      | error err =>
          rw [hmake] at h
          cases h
      | ok binding =>
          rw [hmake] at h
          cases h
          rfl

/-- `_register_case_artifacts` enters the registrations of the Case. -/
theorem refs_of_registerCaseArtifacts {key : CaseKey} {refs : Dict DataRef}
    {publications : Dict ArtifactPublicationReceipt} {registry registry' : ArtifactRegistries}
    (h : registry.registerCaseArtifacts key.stageName key.caseName refs publications =
      .ok registry') :
    registry'.refs = applyAll registry.refs (key.registrations refs) := by
  rw [CaseKey.applyAll_registrations]
  unfold registerCaseArtifacts at h
  generalize refs.entries = es at h ⊢
  induction es generalizing registry with
  | nil =>
      cases h
      rfl
  | cons e es ih =>
      rw [List.foldlM_cons] at h
      cases hone : registry.registerOne key.stageName key.caseName publications e with
      | error err =>
          rw [hone] at h
          cases h
      | ok first =>
          rw [hone] at h
          rw [ih h, refs_of_registerOne hone, List.foldl_cons]

/-- The bindings of an index are of its artifacts. -/
def Agrees (registry : ArtifactRegistries) : Prop :=
  ∀ name, (registry.bindings.lookup name).map ArtifactBinding.ref = registry.refs.lookup name

theorem lookup_insert_ref {refs : Dict DataRef} {bindings : Dict ArtifactBinding}
    (h : ∀ name, (bindings.lookup name).map ArtifactBinding.ref = refs.lookup name)
    (binding : ArtifactBinding) (key name : String) :
    ((bindings.insert key binding).lookup name).map ArtifactBinding.ref =
      (refs.insert key binding.ref).lookup name := by
  by_cases hname : name = key
  · subst hname
    rw [AList.lookup_insert, AList.lookup_insert]
    rfl
  · rw [AList.lookup_insert_ne hname, AList.lookup_insert_ne hname, h]

theorem lookup_setDefault_ref {refs : Dict DataRef} {bindings : Dict ArtifactBinding}
    (h : ∀ name, (bindings.lookup name).map ArtifactBinding.ref = refs.lookup name)
    (binding : ArtifactBinding) (key name : String) :
    ((setDefault bindings key binding).lookup name).map ArtifactBinding.ref =
      (setDefault refs key binding.ref).lookup name := by
  have hmem : key ∈ bindings ↔ key ∈ refs := by
    rw [← AList.lookup_isSome, ← AList.lookup_isSome, ← h, Option.isSome_map]
  unfold setDefault
  by_cases hkey : key ∈ refs
  · rw [if_pos hkey, if_pos (hmem.mpr hkey), h]
  · rw [if_neg hkey, if_neg (mt hmem.mp hkey), lookup_insert_ref h]

theorem Agrees.registerOne {stageName caseName : String}
    {publications : Dict ArtifactPublicationReceipt} {registry registry' : ArtifactRegistries}
    {e : Sigma fun _ : String ↦ DataRef} (hagrees : registry.Agrees)
    (h : registry.registerOne stageName caseName publications e = .ok registry') :
    registry'.Agrees := by
  unfold ArtifactRegistries.registerOne at h
  split at h
  · cases h
  · next publication _ =>
      unfold ArtifactBinding.make at h
      split at h
      · split at h
        · cases h
          exact lookup_setDefault_ref
            (lookup_insert_ref (lookup_insert_ref hagrees _ _) _ _) _ _
        · cases h
      · cases h

theorem Agrees.registerCaseArtifacts {stageName caseName : String} {refs : Dict DataRef}
    {publications : Dict ArtifactPublicationReceipt} {registry registry' : ArtifactRegistries}
    (hagrees : registry.Agrees)
    (h : registry.registerCaseArtifacts stageName caseName refs publications = .ok registry') :
    registry'.Agrees := by
  unfold ArtifactRegistries.registerCaseArtifacts at h
  generalize refs.entries = es at h
  induction es generalizing registry with
  | nil =>
      cases h
      exact hagrees
  | cons e es ih =>
      rw [List.foldlM_cons] at h
      cases hone : registry.registerOne stageName caseName publications e with
      | error err =>
          rw [hone] at h
          cases h
      | ok first =>
          rw [hone] at h
          exact ih (hagrees.registerOne hone) h

end ArtifactRegistries

/-! ## The rebuilt index -/

namespace FinishedCase

variable {ledger : ArtifactPublicationReceipt → Bool} {r : FinishedCase O}

theorem validate_of_verified (h : r.Verified ledger) :
    validateCaseArtifactPublications ledger r = .ok r := by
  unfold validateCaseArtifactPublications
  split
  · next hok =>
      rw [List.find?_eq_none.mpr]
      intro e he
      simpa using h hok e he
  · rfl

theorem verified_of_validate {r' : FinishedCase O}
    (h : validateCaseArtifactPublications ledger r = .ok r') : r.Verified ledger := by
  intro hok e he
  rw [validateCaseArtifactPublications, if_pos hok] at h
  split at h
  · cases h
  · next hnone =>
      have hvouched := List.find?_eq_none.mp hnone e he
      simpa using hvouched

theorem verified_readBack (h : r.Verified ledger) : r.readBack.Verified ledger := by
  intro hok e he
  rw [show r.readBack.artifacts.publications = r.artifacts.publications.sorted from rfl,
    Dict.lookup_sorted]
  exact h hok e (Dict.mem_entries_sorted.mp he)

end FinishedCase

namespace ProjectRunManifest

variable {ledger : ArtifactPublicationReceipt → Bool}

theorem registerSuccessful_ok (registry : ArtifactRegistries) {c : CaseKey × FinishedCase O}
    (h : c.2.Verified ledger) : ∃ registry', registerSuccessful ledger registry c = .ok registry' ∧
      registry'.refs = applyAll registry.refs (c.1.registrations c.2.artifacts.refs) := by
  obtain ⟨registry', hregistry'⟩ :=
    registry.registerCaseArtifacts_ok c.1.stageName c.1.caseName c.2.artifacts
  refine ⟨registry', ?_, ArtifactRegistries.refs_of_registerCaseArtifacts hregistry'⟩
  rw [registerSuccessful, FinishedCase.validate_of_verified h]
  exact congrArg (Except.mapError ResumeError.artifacts) hregistry'

/-- Verified Cases are registered one after the other. -/
theorem foldlM_registerSuccessful {cs : List (CaseKey × FinishedCase O)}
    (h : ∀ c ∈ cs, c.2.Verified ledger) (registry : ArtifactRegistries) :
    ∃ registry', cs.foldlM (registerSuccessful ledger) registry = .ok registry' ∧
      registry'.refs = applyAll registry.refs
        (cs.flatMap fun c ↦ c.1.registrations c.2.artifacts.refs) := by
  induction cs generalizing registry with
  | nil => exact ⟨registry, rfl, rfl⟩
  | cons c cs ih =>
      obtain ⟨first, hfirst, hrefs⟩ := registerSuccessful_ok registry (h c List.mem_cons_self)
      obtain ⟨last, hlast, hlastRefs⟩ := ih (fun c hc ↦ h c (List.mem_cons_of_mem _ hc)) first
      refine ⟨last, ?_, ?_⟩
      · rw [List.foldlM_cons, hfirst]
        exact hlast
      · rw [hlastRefs, hrefs, List.flatMap_cons, applyAll, applyAll, applyAll, List.foldl_append]

/-- What a manifest that passed the check has recorded as successful is verified. -/
theorem verified_of_validated {m : ProjectRunManifest O} {bindings : Dict ArtifactBinding}
    (h : m.validatedResumeArtifacts ledger = .ok bindings) :
    ∀ c ∈ m.successfulCases, c.2.Verified ledger := by
  unfold validatedResumeArtifacts at h
  cases hfold : m.successfulCases.foldlM (registerSuccessful ledger) ⟨∅, ∅⟩ with
  | error e =>
      rw [hfold] at h
      cases h
  | ok rebuilt =>
      clear h
      generalize (⟨∅, ∅⟩ : ArtifactRegistries) = registry at hfold
      generalize m.successfulCases = cs at hfold ⊢
      induction cs generalizing registry with
      | nil => exact fun c hc ↦ absurd hc List.not_mem_nil
      | cons c cs ih =>
          rw [List.foldlM_cons] at hfold
          cases hone : registerSuccessful ledger registry c with
          | error e =>
              rw [hone] at hfold
              cases hfold
          | ok first =>
              rw [hone] at hfold
              have hc : c.2.Verified ledger := by
                unfold registerSuccessful at hone
                cases hvalid : validateCaseArtifactPublications ledger c.2 with
                | error e =>
                    rw [hvalid] at hone
                    cases hone
                | ok r => exact FinishedCase.verified_of_validate hvalid
              intro c' hc'
              rcases List.mem_cons.mp hc' with rfl | hc'
              · exact hc
              · exact ih first hfold c' hc'

theorem agrees_of_foldlM {cs : List (CaseKey × FinishedCase O)} {registry rebuilt}
    (hagrees : ArtifactRegistries.Agrees registry)
    (h : cs.foldlM (registerSuccessful ledger) registry = .ok rebuilt) : rebuilt.Agrees := by
  induction cs generalizing registry with
  | nil =>
      cases h
      exact hagrees
  | cons c cs ih =>
      rw [List.foldlM_cons, registerSuccessful] at h
      cases hvalid : validateCaseArtifactPublications ledger c.2 with
      | error e =>
          rw [hvalid] at h
          cases h
      | ok r =>
          rw [hvalid] at h
          cases hcase : registry.registerCaseArtifacts c.1.stageName c.1.caseName r.artifacts.refs
              r.artifacts.publications with
          | error e =>
              have herror := congrArg (Except.mapError ResumeError.artifacts) hcase
              change (do
                let first ← Except.mapError ResumeError.artifacts _
                cs.foldlM (registerSuccessful ledger) first) = _ at h
              rw [herror] at h
              cases h
          | ok first =>
              have hok := congrArg (Except.mapError ResumeError.artifacts) hcase
              change (do
                let first ← Except.mapError ResumeError.artifacts _
                cs.foldlM (registerSuccessful ledger) first) = _ at h
              rw [hok] at h
              exact ih (hagrees.registerCaseArtifacts hcase) h

/-- What a run takes over from a manifest is the index recorded in it. -/
theorem lookup_of_validated {m : ProjectRunManifest O} {bindings : Dict ArtifactBinding}
    (h : m.validatedResumeArtifacts ledger = .ok bindings) (name : String) :
    (bindings.lookup name).map ArtifactBinding.ref = m.artifactRegistry.lookup name := by
  unfold validatedResumeArtifacts at h
  cases hfold : m.successfulCases.foldlM (registerSuccessful ledger) ⟨∅, ∅⟩ with
  | error e =>
      rw [hfold] at h
      cases h
  | ok rebuilt =>
      rw [hfold] at h
      change (if m.artifactRegistry.Same rebuilt.refs then
        Except.ok rebuilt.bindings else .error ResumeError.registryMismatch) = _ at h
      split at h
      · next hsame =>
          cases h
          rw [agrees_of_foldlM (fun _ ↦ rfl) hfold, hsame name]
      · cases h

end ProjectRunManifest

/-! ## Recorders of a run -/

namespace ProjectRunRecorder

variable {p : ProjectRunRecorder O} {ledger : ArtifactPublicationReceipt → Bool} {key : CaseKey}

/-- What holds of a recorder during a run: its records are of declared Cases, one for each, and the
ledger vouches for them. -/
structure WellRecorded (p : ProjectRunRecorder O) (ledger : ArtifactPublicationReceipt → Bool) :
    Prop where
  order_nodup : p.caseOrder.Nodup
  unique : Rows.Unique CaseRecord.key p.records
  declared : ∀ c ∈ p.records, c.key ∈ p.caseOrder
  verified : ∀ key r, p.resultOf key = some r → r.Verified ledger

/-- The index is what the resume check rebuilds. -/
def Indexed (p : ProjectRunRecorder O) : Prop :=
  ∀ name, p.artifacts.lookup name = resolve name (p.caseOrder.flatMap p.published)

/-- A recorded success as it is read back. -/
def success (p : ProjectRunRecorder O) (key : CaseKey) : Option (CaseKey × FinishedCase O) :=
  (p.resultOf key).bind fun r ↦ if r.ok then some (key, r.readBack.resumed) else none

theorem successfulCases_write (h : p.WellRecorded ledger) :
    p.write.successfulCases = p.caseOrder.filterMap p.success := by
  rw [ProjectRunManifest.successfulCases, write,
    Rows.mergeSort_eq_filterMap_lookup h.order_nodup h.unique h.declared, List.filterMap_map,
    List.filterMap_filterMap]
  refine List.filterMap_congr fun key _ ↦ ?_
  rw [success, resultOf, record]
  cases hrecord : Rows.lookup CaseRecord.key key p.records with
  | none => rfl
  | some c =>
      obtain rfl := Rows.key_of_lookup hrecord
      cases hresult : c.result with
      | none => simp [hresult]
      | some r =>
          simp only [Option.bind_some, Function.comp_apply, hresult, Option.map_some]
          rfl

theorem flatMap_success :
    (p.caseOrder.filterMap p.success).flatMap (fun c ↦ c.1.registrations c.2.artifacts.refs) =
      p.caseOrder.flatMap p.published := by
  have hone : ∀ key, p.published key =
      (p.success key).toList.flatMap fun c ↦ c.1.registrations c.2.artifacts.refs := by
    intro key
    rw [success, published]
    cases p.resultOf key with
    | none => rfl
    | some r =>
        by_cases hok : r.ok
        · simp [hok, FinishedCase.readBack, FinishedCase.resumed, FormalArtifacts.sorted]
        · simp [hok]
  rw [List.filterMap_eq_flatMap_toList, List.flatMap_assoc]
  exact congrArg (fun f ↦ p.caseOrder.flatMap f) (funext fun key ↦ (hone key).symm)

/-- A manifest passes the check exactly if its index is the rebuilt one. -/
theorem write_resumes_iff (h : p.WellRecorded ledger) :
    p.write.Resumes ledger ↔ p.Indexed := by
  have hverified : ∀ c ∈ p.write.successfulCases, c.2.Verified ledger := by
    rw [successfulCases_write h]
    intro c hc
    obtain ⟨key, -, hkey⟩ := List.mem_filterMap.mp hc
    obtain ⟨r, hr, hsome⟩ := Option.bind_eq_some_iff.mp hkey
    split at hsome
    · next hok =>
        obtain rfl := Option.some.inj hsome
        exact fun _ ↦ FinishedCase.verified_readBack (h.verified key r hr) hok
    · cases hsome
  obtain ⟨rebuilt, hrebuilt, hrefs⟩ :=
    ProjectRunManifest.foldlM_registerSuccessful hverified ⟨∅, ∅⟩
  rw [successfulCases_write h, flatMap_success] at hrefs
  have hsame : p.write.artifactRegistry.Same rebuilt.refs ↔ p.Indexed := by
    rw [hrefs]
    exact forall_congr' fun name ↦ by rw [lookup_applyAll_empty]; rfl
  rw [← hsame, ProjectRunManifest.Resumes, ProjectRunManifest.validatedResumeArtifacts, hrebuilt]
  show (∃ bindings, (if p.write.artifactRegistry.Same rebuilt.refs then
    Except.ok rebuilt.bindings else .error ResumeError.registryMismatch) = .ok bindings) ↔ _
  split
  · next hs => exact ⟨fun _ ↦ hs, fun _ ↦ ⟨_, rfl⟩⟩
  · next hs =>
      constructor
      · rintro ⟨_, hok⟩
        cases hok
      · exact fun h ↦ absurd h hs

/-! ## Calls of the recorder -/

theorem lookup_setRecord (c : CaseRecord O) (k : CaseKey) :
    Rows.lookup CaseRecord.key k (p.setRecord c) = if k = c.key then some c else p.record k := by
  unfold setRecord
  split
  · next hsome =>
      rw [Rows.lookup_update (fun _ _ ↦ rfl)]
      split
      · next hk =>
          obtain ⟨prior, hprior⟩ := Option.isSome_iff_exists.mp hsome
          rw [hk, show Rows.lookup CaseRecord.key c.key p.records = some prior from hprior]
          rfl
      · rfl
  · next hnone =>
      have hnone : Rows.lookup CaseRecord.key c.key p.records = none :=
        Option.not_isSome_iff_eq_none.mp hnone
      rw [Rows.lookup_append]
      by_cases hk : k = c.key
      · subst hk
        simp [hnone]
      · rw [if_neg hk, if_neg (Ne.symm hk), Option.or_none]
        rfl

theorem unique_setRecord (h : p.WellRecorded ledger) (c : CaseRecord O) :
    Rows.Unique CaseRecord.key (p.setRecord c) := by
  unfold setRecord
  split
  · exact h.unique.update fun _ _ ↦ rfl
  · next hnone => exact h.unique.append (Option.not_isSome_iff_eq_none.mp hnone)

theorem key_setRecord {c : CaseRecord O} {r : CaseRecord O} (hr : r ∈ p.setRecord c) :
    r.key = c.key ∨ ∃ r' ∈ p.records, r'.key = r.key := by
  unfold setRecord at hr
  split at hr
  · obtain ⟨r', hr', rfl⟩ := List.mem_map.mp hr
    by_cases hkey : r'.key = c.key
    · exact .inl (by rw [if_pos hkey])
    · exact .inr ⟨r', hr', by rw [if_neg hkey]⟩
  · rcases List.mem_append.mp hr with hr | hr
    · exact .inr ⟨r, hr, rfl⟩
    · exact .inl (congrArg CaseRecord.key (List.mem_singleton.mp hr))

theorem resultOf_recordCase (key : CaseKey) (r : FinishedCase O)
    (k : CaseKey) :
    (p.recordCase key r).resultOf k = if k = key then some r else p.resultOf k := by
  rw [resultOf, record, recordCase, lookup_setRecord]
  split <;> rfl

theorem resultOf_recordExternalTask (key : CaseKey) (taskId : String)
    (k : CaseKey) :
    (p.recordExternalTask key taskId).resultOf k = if k = key then none else p.resultOf k := by
  rw [resultOf, record, recordExternalTask, lookup_setRecord]
  split <;> rfl

/-- What the runner keeps to when it calls the recorder: seeds come first, and a Case that has a
result is only recorded again, with this result. -/
def Fits (p : ProjectRunRecorder O) (ledger : ArtifactPublicationReceipt → Bool) :
    RecorderCall O → Prop
  | .none => True
  | .seedArtifacts _ => p.records = [] ∧ p.artifacts = ∅
  | .recordExternalTask key _ => key ∈ p.caseOrder ∧ p.resultOf key = none
  | .recordCase key r =>
      key ∈ p.caseOrder ∧ r.Verified ledger ∧ ∀ r', p.resultOf key = some r' → r' = r

theorem caseOrder_call (p : ProjectRunRecorder O) (c : RecorderCall O) :
    (p.call c).caseOrder = p.caseOrder := by
  cases c <;> rfl

theorem WellRecorded.setRecord (h : p.WellRecorded ledger) {c : CaseRecord O}
    (hc : c.key ∈ p.caseOrder) (hresult : ∀ r, c.result = some r → r.Verified ledger)
    (artifacts : Dict DataRef) :
    WellRecorded { p with records := p.setRecord c, artifacts := artifacts } ledger where
  order_nodup := h.order_nodup
  unique := unique_setRecord h c
  declared r hr := by
    rcases key_setRecord hr with hkey | ⟨r', hr', hkey⟩
    · exact hkey ▸ hc
    · exact hkey ▸ h.declared r' hr'
  verified k r hr := by
    rw [resultOf, record, lookup_setRecord] at hr
    split at hr
    · exact hresult r hr
    · exact h.verified k r hr

theorem WellRecorded.call (h : p.WellRecorded ledger) {c : RecorderCall O} (hc : p.Fits ledger c) :
    (p.call c).WellRecorded ledger := by
  cases c with
  | none => exact h
  | seedArtifacts refs => exact ⟨h.order_nodup, h.unique, h.declared, h.verified⟩
  | recordExternalTask key taskId => exact h.setRecord hc.1 (fun _ hr ↦ by cases hr) _
  | recordCase key r =>
      refine h.setRecord hc.1 ?_ _
      rintro _ ⟨⟩
      exact hc.2.1

theorem published_of_resultOf {q : ProjectRunRecorder O} {k : CaseKey}
    (h : q.resultOf k = p.resultOf k) : q.published k = p.published k := by
  rw [published, published, h]

/-- What is published at the place of a key, and before and after it. -/
theorem flatMap_published (h : p.WellRecorded ledger) (hkey : key ∈ p.caseOrder)
    {q : ProjectRunRecorder O} (horder : q.caseOrder = p.caseOrder)
    (hother : ∀ k, k ≠ key → q.resultOf k = p.resultOf k) :
    q.caseOrder.flatMap q.published =
      p.publishedBefore key ++ q.published key ++ p.publishedAfter key := by
  have hsplit : p.caseOrder = p.caseOrder.takeWhile (· ≠ key) ++
      key :: (p.caseOrder.dropWhile (· ≠ key)).tail := by
    have hdrop : p.caseOrder.dropWhile (· ≠ key) ≠ [] := by
      intro hnil
      have hall := List.dropWhile_eq_nil_iff.mp hnil key hkey
      simp at hall
    have hhead := List.head_dropWhile_not (· ≠ key) hdrop
    have hcons := List.cons_head_tail hdrop
    rw [show (p.caseOrder.dropWhile (· ≠ key)).head hdrop = key by simpa using hhead] at hcons
    rw [hcons, List.takeWhile_append_dropWhile]
  have hnodup := h.order_nodup
  rw [hsplit, List.nodup_append, List.nodup_cons] at hnodup
  rw [horder]
  conv_lhs => rw [hsplit]
  rw [List.flatMap_append, List.flatMap_cons, ← List.append_assoc]
  congr 1
  · congr 1
    exact List.flatMap_congr fun k hk ↦
      published_of_resultOf (hother k fun he ↦ hnodup.2.2 k hk key List.mem_cons_self he)
  · refine List.flatMap_congr fun k hk ↦ published_of_resultOf (hother k fun he ↦ ?_)
    exact hnodup.2.1.1 (he ▸ hk)

theorem indexed_recordCase_iff (h : p.WellRecorded ledger) (hi : p.Indexed) {r : FinishedCase O}
    (hfits : p.Fits ledger (.recordCase key r)) :
    (p.recordCase key r).Indexed ↔ p.InOrder (.recordCase key r) := by
  obtain ⟨hkey, -, hprior⟩ := hfits
  have hbefore := flatMap_published h hkey rfl fun _ _ ↦ rfl
  have hafter : (p.recordCase key r).caseOrder.flatMap (p.recordCase key r).published =
      p.publishedBefore key ++ (p.recordCase key r).published key ++ p.publishedAfter key :=
    flatMap_published h hkey rfl fun k hk ↦ by rw [resultOf_recordCase, if_neg hk]
  have hown : (p.recordCase key r).published key =
      if r.ok then key.registrations r.artifacts.sorted.refs else [] := by
    rw [published, resultOf_recordCase, if_pos rfl]
  have hold : p.published key = [] ∧ p.resultOf key = none ∨
      p.published key = (p.recordCase key r).published key ∧ p.resultOf key ≠ none := by
    cases hresult : p.resultOf key with
    | none => exact .inl ⟨by rw [published, hresult], rfl⟩
    | some r' =>
        obtain rfl := hprior r' hresult
        exact .inr ⟨by rw [hown, published, hresult], by simp⟩
  have hartifacts : (p.recordCase key r).artifacts =
      if r.ok then applyAll p.artifacts (key.registrations r.artifacts.refs) else p.artifacts := by
    rw [← enterArtifacts_eq]
    rfl
  unfold Indexed at hi ⊢
  rw [hafter, hartifacts, hown]
  rw [hbefore] at hi
  by_cases hok : r.ok
  · simp only [if_pos hok] at hown ⊢
    simp only [InOrder, hok, true_implies]
    refine forall_congr' fun name ↦ ?_
    have hmid : Rearranged (key.registrations r.artifacts.sorted.refs)
        (key.registrations r.artifacts.refs) :=
      CaseKey.rearranged r.artifacts.refs
    rcases hold with ⟨hempty, hnone⟩ | ⟨hsame, hsome⟩
    · have hname := hi name
      rw [hempty, List.append_nil] at hname
      rw [lookup_applyAll_iff hmid hname]
      simp only [hnone, true_implies]
    · have hname := hi name
      rw [hsame, hown] at hname
      rw [lookup_applyAll_again_iff hmid hname]
      simp [hsome]
  · have hinOrder : p.InOrder (.recordCase key r) := fun hok' ↦ absurd hok' hok
    simp only [if_neg hok] at hown ⊢
    refine ⟨fun _ ↦ hinOrder, fun _ name ↦ ?_⟩
    rw [hi name]
    rcases hold with ⟨hempty, -⟩ | ⟨hsame, -⟩
    · rw [hempty]
    · rw [hsame, hown]

/-- A call that fits keeps the index right exactly if it is in order. -/
theorem indexed_call_iff (h : p.WellRecorded ledger) (hi : p.Indexed) {c : RecorderCall O}
    (hc : p.Fits ledger c) : (p.call c).Indexed ↔ p.InOrder c := by
  cases c with
  | none => exact ⟨fun _ ↦ trivial, fun _ ↦ hi⟩
  | seedArtifacts refs =>
      obtain ⟨-, hempty⟩ := hc
      refine forall_congr' fun name ↦ ?_
      have hname := hi name
      rw [hempty] at hname
      show (p.artifacts.update refs).lookup name =
        resolve name (p.caseOrder.flatMap p.published) ↔ _
      rw [← hname, hempty, Dict.lookup_update]
      simp
  | recordExternalTask key taskId =>
      obtain ⟨-, hnone⟩ := hc
      refine ⟨fun _ ↦ trivial, fun _ name ↦ ?_⟩
      refine (hi name).trans (congrArg (resolve name) (List.flatMap_congr fun k _ ↦ ?_))
      refine (published_of_resultOf ?_).symm
      show (p.recordExternalTask key taskId).resultOf k = _
      rw [resultOf_recordExternalTask]
      split
      · next hk => rw [hk, hnone]
      · rfl
  | recordCase key r => exact indexed_recordCase_iff h hi hc

end ProjectRunRecorder

/-! ## Calls of the runner -/

namespace ProjectGroup

variable {group : ProjectGroup} {stage : GroupStage} {ahead : List GroupStage}

theorem mem_caseOrder (hstage : stage ∈ group.stages) {c : String} (hc : c ∈ stage.caseNames) :
    ⟨stage.name, c⟩ ∈ group.caseOrder :=
  List.mem_flatMap.mpr ⟨stage, hstage, List.mem_map_of_mem hc⟩

theorem caseOrder_nodup (group : ProjectGroup) : group.caseOrder.Nodup := by
  rw [caseOrder, List.nodup_flatMap]
  constructor
  · intro stage hstage
    refine (group.caseNames_nodup stage hstage).map fun c c' hc ↦ ?_
    exact (CaseKey.mk.inj hc).2
  · refine (List.pairwise_map.mp group.stageNames_nodup).imp fun {stage stage'} hne ↦ ?_
    intro key hkey hkey'
    obtain ⟨c, -, rfl⟩ := List.mem_map.mp hkey
    obtain ⟨c', -, hc'⟩ := List.mem_map.mp hkey'
    exact hne (CaseKey.mk.inj hc').1.symm

/-- The Stages ahead have other names than the current one. -/
theorem name_ne (h : stage :: ahead <:+ group.stages) {other : GroupStage}
    (hother : other ∈ ahead) : other.name ≠ stage.name := by
  have hnodup := (h.sublist.map GroupStage.name).nodup group.stageNames_nodup
  rw [List.map_cons, List.nodup_cons] at hnodup
  exact fun he ↦ hnodup.1 (he ▸ List.mem_map_of_mem hother)

end ProjectGroup

namespace RunPlan

variable {plan : RunPlan O} {p : ProjectRunRecorder O}

/-- No Case of these Stages has a result. -/
def Untouched (p : ProjectRunRecorder O) (ahead : List GroupStage) : Prop :=
  ∀ stage ∈ ahead, ∀ c, p.resultOf ⟨stage.name, c⟩ = none

/-- What has been recorded where a run stands. -/
def Stands (plan : RunPlan O) (p : ProjectRunRecorder O) : RunPhase O → Prop
  | .recording => p.records = [] ∧ p.artifacts = ∅
  | .between ahead => ahead <:+ plan.group.stages ∧ Untouched p ahead
  | .collecting stage results ahead =>
      stage :: ahead <:+ plan.group.stages ∧ Untouched p ahead ∧
        (∀ c, p.resultOf ⟨stage.name, c⟩ = results.lookup c) ∧
        (∀ c ∈ results, c ∈ plan.pendingNames stage) ∧ stage.mode ≠ .sequential
  | .retaining stage results left ahead =>
      stage :: ahead <:+ plan.group.stages ∧ Untouched p ahead ∧ left <:+ stage.caseNames ∧
        (∀ c ∈ left, p.resultOf ⟨stage.name, c⟩ = results.lookup c) ∧
        (∀ c ∈ results, c ∈ plan.pendingNames stage) ∧ (stage.mode = .sequential → results = ∅)
  | .finished => True

theorem mem_of_pending {stage : GroupStage} {c : String} (hc : c ∈ plan.pendingNames stage) :
    c ∈ stage.caseNames ∧ plan.resumedCase ⟨stage.name, c⟩ = none := by
  simpa [pendingNames] using hc

theorem mem_of_lookup {cs : List (CaseKey × FinishedCase O)} {key : CaseKey} {r : FinishedCase O}
    (h : cs.lookup key = some r) : (key, r) ∈ cs := by
  obtain ⟨before, after, rfl, -⟩ := List.lookup_eq_some_iff.mp h
  exact List.mem_append_right _ List.mem_cons_self

theorem verified_resumedCase {key : CaseKey} {r : FinishedCase O}
    (h : plan.resumedCase key = some r) : r.Verified plan.ledger := by
  obtain ⟨resumption, -, hlookup⟩ := Option.bind_eq_some_iff.mp h
  exact ProjectRunManifest.verified_of_validated resumption.checked _
    (mem_of_lookup hlookup)

/-- A result of the current Stage leaves the Stages ahead as they are. -/
theorem Untouched.recordCase {stage : GroupStage} {ahead : List GroupStage}
    (h : Untouched p ahead) (hstages : stage :: ahead <:+ plan.group.stages) (c : String)
    (r : FinishedCase O) : Untouched (p.recordCase ⟨stage.name, c⟩ r) ahead := by
  intro other hother c'
  rw [ProjectRunRecorder.resultOf_recordCase, if_neg]
  · exact h other hother c'
  · exact fun he ↦ ProjectGroup.name_ne hstages hother (CaseKey.mk.inj he).1

section Steps

variable {stage : GroupStage} {results : Dict (FinishedCase O)} {ahead : List GroupStage}

theorem Stands.submitted (horder : p.caseOrder = plan.group.caseOrder)
    (h : plan.Stands p (.collecting stage results ahead)) {c : String}
    (hpending : c ∈ plan.pendingNames stage) (hnew : c ∉ results) (taskId : String) :
    p.Fits plan.ledger (.recordExternalTask ⟨stage.name, c⟩ taskId) ∧
      plan.Stands (p.recordExternalTask ⟨stage.name, c⟩ taskId)
        (.collecting stage results ahead) := by
  obtain ⟨hstages, hahead, hresults, hpend, hmode⟩ := h
  have hkey : ⟨stage.name, c⟩ ∈ p.caseOrder := horder ▸
    ProjectGroup.mem_caseOrder (hstages.subset List.mem_cons_self) (mem_of_pending hpending).1
  have hnone : p.resultOf ⟨stage.name, c⟩ = none :=
    (hresults c).trans (AList.lookup_eq_none.mpr hnew)
  have hsame : ∀ k, (p.recordExternalTask ⟨stage.name, c⟩ taskId).resultOf k = p.resultOf k := by
    intro k
    rw [ProjectRunRecorder.resultOf_recordExternalTask]
    split
    · next hk => rw [hk, hnone]
    · rfl
  refine ⟨⟨hkey, hnone⟩, hstages, ?_, ?_, hpend, hmode⟩
  · exact fun other hother c' ↦ (hsame _).trans (hahead other hother c')
  · exact fun c' ↦ (hsame _).trans (hresults c')

theorem Stands.completed (horder : p.caseOrder = plan.group.caseOrder)
    (h : plan.Stands p (.collecting stage results ahead)) {c : String} {r : FinishedCase O}
    (hpending : c ∈ plan.pendingNames stage) (hnew : c ∉ results)
    (hverified : r.Verified plan.ledger) :
    p.Fits plan.ledger (.recordCase ⟨stage.name, c⟩ r) ∧
      plan.Stands (p.recordCase ⟨stage.name, c⟩ r)
        (.collecting stage (results.insert c r) ahead) := by
  obtain ⟨hstages, hahead, hresults, hpend, hmode⟩ := h
  have hkey : ⟨stage.name, c⟩ ∈ p.caseOrder := horder ▸
    ProjectGroup.mem_caseOrder (hstages.subset List.mem_cons_self) (mem_of_pending hpending).1
  have hnone : p.resultOf ⟨stage.name, c⟩ = none :=
    (hresults c).trans (AList.lookup_eq_none.mpr hnew)
  refine ⟨⟨hkey, hverified, ?_⟩, hstages, hahead.recordCase hstages c r, ?_, ?_, hmode⟩
  · intro r' hr'
    rw [hnone] at hr'
    cases hr'
  · intro c'
    rw [ProjectRunRecorder.resultOf_recordCase]
    by_cases hc' : c' = c
    · subst hc'
      rw [if_pos rfl, AList.lookup_insert]
    · rw [if_neg fun he ↦ hc' (CaseKey.mk.inj he).2, AList.lookup_insert_ne hc', hresults]
  · intro c' hc'
    rcases (AList.mem_insert results).mp hc' with rfl | hc'
    · exact hpending
    · exact hpend c' hc'

/-- The result that is retained for a Case is the one it was recorded with, if it was. -/
theorem retainedResult_prior {c : String} {left : List String} {r r' : FinishedCase O}
    (hw : p.WellRecorded plan.ledger)
    (h : plan.Stands p (.retaining stage results (c :: left) ahead))
    (hr : plan.retainedResult stage results c r = some r') :
    r'.Verified plan.ledger ∧ ∀ prior, p.resultOf ⟨stage.name, c⟩ = some prior → prior = r' := by
  obtain ⟨-, -, -, hresults, hpend, hsequential⟩ := h
  have hresult := hresults c List.mem_cons_self
  unfold retainedResult at hr
  cases hresumed : plan.resumedCase ⟨stage.name, c⟩ with
  | some r₀ =>
      rw [hresumed, Option.some_or] at hr
      obtain rfl := Option.some.inj hr
      refine ⟨verified_resumedCase hresumed, fun prior hprior ↦ ?_⟩
      have hmem : c ∈ results := Dict.mem_iff.mpr ⟨prior, hresult ▸ hprior⟩
      have hnone := (mem_of_pending (hpend c hmem)).2
      rw [hresumed] at hnone
      cases hnone
  | none =>
      rw [hresumed, Option.none_or] at hr
      split at hr
      · next hmode =>
          split at hr
          · next hverified =>
              obtain rfl := Option.some.inj hr
              refine ⟨hverified, fun prior hprior ↦ ?_⟩
              rw [hresult, hsequential hmode, AList.lookup_empty] at hprior
              cases hprior
          · cases hr
      · rw [hr] at hresult
        refine ⟨hw.verified _ _ hresult, fun prior hprior ↦ ?_⟩
        exact Option.some.inj (hprior.symm.trans hresult)

theorem Stands.retained (horder : p.caseOrder = plan.group.caseOrder)
    (hw : p.WellRecorded plan.ledger) {c : String} {left : List String} {r r' : FinishedCase O}
    (h : plan.Stands p (.retaining stage results (c :: left) ahead))
    (hr : plan.retainedResult stage results c r = some r') :
    p.Fits plan.ledger (.recordCase ⟨stage.name, c⟩ r') ∧
      plan.Stands (p.recordCase ⟨stage.name, c⟩ r') (.retaining stage results left ahead) := by
  obtain ⟨hverified, hprior⟩ := retainedResult_prior hw h hr
  obtain ⟨hstages, hahead, hleft, hresults, hpend, hsequential⟩ := h
  have hstage := hstages.subset List.mem_cons_self
  have hc : c ∉ left := by
    have hnodup := hleft.sublist.nodup (plan.group.caseNames_nodup stage hstage)
    exact (List.nodup_cons.mp hnodup).1
  have hkey : ⟨stage.name, c⟩ ∈ p.caseOrder :=
    horder ▸ ProjectGroup.mem_caseOrder hstage (hleft.subset List.mem_cons_self)
  refine ⟨⟨hkey, hverified, hprior⟩, hstages, hahead.recordCase hstages c r',
    (List.suffix_cons c left).trans hleft, ?_, hpend, hsequential⟩
  intro c' hc'
  rw [ProjectRunRecorder.resultOf_recordCase, if_neg]
  · exact hresults c' (List.mem_cons_of_mem _ hc')
  · exact fun he ↦ hc ((CaseKey.mk.inj he).2 ▸ hc')

end Steps

/-- What the runner calls fits, and the run stands where the step says. -/
theorem Stands.next (horder : p.caseOrder = plan.group.caseOrder) (hw : p.WellRecorded plan.ledger)
    {phase phase' : RunPhase O} {l : RunLabel O} {c : RecorderCall O} (h : plan.Stands p phase)
    (hnext : plan.next phase l = some (c, phase')) :
    p.Fits plan.ledger c ∧ plan.Stands (p.call c) phase' := by
  unfold RunPlan.next at hnext
  split at hnext
  · -- seed
    obtain ⟨rfl, rfl⟩ := Prod.ext_iff.mp (Option.some.inj hnext)
    have hnone : ∀ key, p.resultOf key = none := by
      intro key
      rw [ProjectRunRecorder.resultOf, ProjectRunRecorder.record, h.1]
      rfl
    dsimp only
    split
    · exact ⟨trivial, List.suffix_rfl, fun stage _ c ↦ hnone _⟩
    · exact ⟨h, List.suffix_rfl, fun stage _ c ↦ hnone _⟩
  · -- enterStage
    next stage ahead =>
      obtain ⟨rfl, rfl⟩ := Prod.ext_iff.mp (Option.some.inj hnext)
      obtain ⟨hstages, hahead⟩ := h
      have hrest : Untouched p ahead :=
        fun other hother ↦ hahead other (List.mem_cons_of_mem _ hother)
      have hnone : ∀ c, p.resultOf ⟨stage.name, c⟩ = none := hahead stage List.mem_cons_self
      refine ⟨trivial, ?_⟩
      dsimp only
      split
      · exact ⟨hstages, hrest, List.suffix_rfl, fun c _ ↦ hnone c, fun c hc ↦ absurd hc (by simp),
          fun _ ↦ rfl⟩
      · next hmode => exact ⟨hstages, hrest, hnone, fun c hc ↦ absurd hc (by simp), hmode⟩
  · -- submitted
    split at hnext
    · next hguard =>
        obtain ⟨rfl, rfl⟩ := Prod.ext_iff.mp (Option.some.inj hnext)
        exact h.submitted horder hguard.2.1 hguard.2.2 _
    · cases hnext
  · -- completed
    split at hnext
    · next hguard =>
        obtain ⟨rfl, rfl⟩ := Prod.ext_iff.mp (Option.some.inj hnext)
        exact h.completed horder hguard.1 hguard.2.1 hguard.2.2
    · cases hnext
  · -- collected
    split at hnext
    · obtain ⟨rfl, rfl⟩ := Prod.ext_iff.mp (Option.some.inj hnext)
      obtain ⟨hstages, hahead, hresults, hpend, hmode⟩ := h
      exact ⟨trivial, hstages, hahead, List.suffix_rfl, fun c _ ↦ hresults c, hpend,
        fun he ↦ absurd he hmode⟩
    · cases hnext
  · -- retained
    obtain ⟨r', hr', hpair⟩ := Option.map_eq_some_iff.mp hnext
    obtain ⟨rfl, rfl⟩ := Prod.ext_iff.mp hpair
    exact h.retained horder hw hr'
  · -- leaveStage
    obtain ⟨rfl, rfl⟩ := Prod.ext_iff.mp (Option.some.inj hnext)
    exact ⟨trivial, (List.suffix_cons _ _).trans h.1, h.2.1⟩
  · -- finish
    obtain ⟨rfl, rfl⟩ := Prod.ext_iff.mp (Option.some.inj hnext)
    exact ⟨trivial, trivial⟩
  · obtain ⟨rfl, rfl⟩ := Prod.ext_iff.mp (Option.some.inj hnext)
    exact ⟨trivial, trivial⟩
  · cases hnext

end RunPlan

/-! ## Runs -/

namespace RunPlan

variable (plan : RunPlan O)

/-- What holds along every run. -/
structure Kept (s : RunState O) : Prop where
  order : s.recorder.caseOrder = plan.group.caseOrder
  wellRecorded : s.recorder.WellRecorded plan.ledger
  stands : plan.Stands s.recorder s.phase

/-- A step with a call that is not in order. -/
def Disorders (s : RunState O) (l : RunLabel O) : Prop :=
  ∃ c phase, plan.next s.phase l = some (c, phase) ∧ ¬ s.recorder.InOrder c

variable {plan} {s t : RunState O} {l : RunLabel O}

theorem kept_start : plan.Kept plan.start where
  order := rfl
  wellRecorded :=
    ⟨plan.group.caseOrder_nodup, List.nodup_nil, fun c hc ↦ absurd hc List.not_mem_nil,
      fun key r hr ↦ by cases hr⟩
  stands := ⟨rfl, rfl⟩

theorem indexed_start : plan.start.recorder.Indexed := by
  intro name
  have hnone : ∀ key, plan.start.recorder.published key = [] := fun _ ↦ rfl
  show (∅ : Dict DataRef).lookup name = _
  rw [AList.lookup_empty, List.flatMap_eq_nil_iff.mpr fun key _ ↦ hnone key]
  rfl

theorem Kept.step (h : plan.Kept s) (hstep : plan.step s l = some t) : plan.Kept t := by
  obtain ⟨⟨c, phase⟩, hnext, rfl⟩ := Option.map_eq_some_iff.mp hstep
  obtain ⟨hfits, hstands⟩ := h.stands.next h.order h.wellRecorded hnext
  exact ⟨(ProjectRunRecorder.caseOrder_call _ _).trans h.order, h.wellRecorded.call hfits, hstands⟩

theorem kept_of_run {labels : List (RunLabel O)}
    (h : Machine.run plan.step plan.start labels = some s) : plan.Kept s :=
  (Machine.reach_of_run_any h).invariant kept_start fun _ _ _ hs _ hstep ↦ hs.step hstep

/-- From a manifest that passes the check, a step writes another one exactly if its call is in
order. -/
theorem Kept.resumes_iff (h : plan.Kept s) (hi : s.recorder.Indexed)
    (hstep : plan.step s l = some t) :
    t.recorder.write.Resumes plan.ledger ↔ ¬ plan.Disorders s l := by
  have hw := (h.step hstep).wellRecorded
  obtain ⟨⟨c, phase⟩, hnext, rfl⟩ := Option.map_eq_some_iff.mp hstep
  obtain ⟨hfits, -⟩ := h.stands.next h.order h.wellRecorded hnext
  rw [ProjectRunRecorder.write_resumes_iff hw,
    ProjectRunRecorder.indexed_call_iff h.wellRecorded hi hfits]
  constructor
  · rintro hin ⟨c', phase', hnext', hbad⟩
    obtain ⟨rfl, -⟩ := Prod.ext_iff.mp (Option.some.inj (hnext.symm.trans hnext'))
    exact hbad hin
  · exact fun h ↦ by_contra fun hbad ↦ h ⟨c, phase, hnext, hbad⟩

/-- The seeds of a run are the index of the manifest it resumes from. -/
theorem lookup_seeds {resumption : Resumption O plan.ledger}
    (h : plan.resumption = some resumption) (name : String) :
    plan.seeds.lookup name = resumption.manifest.artifactRegistry.lookup name := by
  rw [seeds, h, Dict.lookup_mapWithKey]
  exact ProjectRunManifest.lookup_of_validated resumption.checked name

/-- A run that resumes from a manifest with artifacts writes one that is refused, with its seeds. -/
theorem seeded_refused {resumption : Resumption O plan.ledger}
    (h : plan.resumption = some resumption) {name : String}
    (hname : name ∈ resumption.manifest.artifactRegistry) :
    ∃ t, plan.step plan.start .seed = some t ∧ ¬ t.recorder.write.Resumes plan.ledger := by
  obtain ⟨ref, href⟩ := Dict.mem_iff.mp hname
  have hseeds : plan.seeds.lookup name = some ref := (lookup_seeds h name).trans href
  have hne : plan.seeds ≠ ∅ := by
    intro hempty
    rw [hempty, AList.lookup_empty] at hseeds
    cases hseeds
  have hnext : plan.next plan.start.phase .seed =
      some (.seedArtifacts plan.seeds, .between plan.group.stages) := by
    show some (if plan.seeds = ∅ then _ else _, _) = _
    rw [if_neg hne]
  have hstep : plan.step plan.start .seed =
      some ⟨plan.start.recorder.call (.seedArtifacts plan.seeds), .between plan.group.stages⟩ := by
    rw [step, hnext]
    rfl
  refine ⟨_, hstep, fun hresumes ↦ ?_⟩
  refine (kept_start.resumes_iff indexed_start hstep).mp hresumes ⟨_, _, hnext, fun hin ↦ ?_⟩
  have hnone : plan.seeds.lookup name = none := hin name
  rw [hseeds] at hnone
  cases hnone

end RunPlan

/-- **Manifests and their resume check.**  In every run, the manifests written up to any point all
pass the check of a later run exactly if every call of the recorder was in order. -/
theorem manifest_resumes_iff (plan : RunPlan O) (labels : List (RunLabel O)) :
    (∀ before s, before <+: labels → Machine.run plan.step plan.start before = some s →
      s.recorder.write.Resumes plan.ledger) ↔
    ∀ before l s c phase, before ++ [l] <+: labels →
      Machine.run plan.step plan.start before = some s →
      plan.next s.phase l = some (c, phase) → s.recorder.InOrder c := by
  have hrun : (∀ before l u t, before ++ [l] <+: labels →
      Machine.run plan.step plan.start before = some u → plan.step u l = some t →
      ∀ t', plan.step u l = some t' → t'.recorder.write.Resumes plan.ledger) ↔
      ∀ before l u t, before ++ [l] <+: labels →
        Machine.run plan.step plan.start before = some u → plan.step u l = some t →
        ¬ plan.Disorders u l := by
    refine Machine.forall_step_iff (Q := fun s ↦ plan.Kept s ∧ s.recorder.Indexed)
      ⟨RunPlan.kept_start, RunPlan.indexed_start⟩ ?_ ?_ labels
    · rintro s l t ⟨hs, hi⟩ hbad hstep
      have ht := hs.step hstep
      exact ⟨ht, (ProjectRunRecorder.write_resumes_iff ht.wellRecorded).mp
        ((hs.resumes_iff hi hstep).mpr hbad)⟩
    · rintro s l t ⟨hs, hi⟩ hstep
      refine ⟨fun h ↦ (hs.resumes_iff hi hstep).mp (h t hstep), fun hbad t' ht' ↦ ?_⟩
      exact (hs.resumes_iff hi ht').mpr hbad
  constructor
  · intro hall before l s c phase hbefore hs hnext
    by_contra hbad
    have hstep : plan.step s l = some ⟨s.recorder.call c, phase⟩ := by rw [RunPlan.step, hnext]; rfl
    refine hrun.mp ?_ before l s _ hbefore hs hstep ⟨c, phase, hnext, hbad⟩
    intro before l s t hbefore hs hstep t' ht'
    refine hall (before ++ [l]) t' hbefore ?_
    rw [Machine.run_append, hs, Option.bind_some, Machine.run_cons, ht']
    rfl
  · intro hall before s hbefore hs
    induction before using List.reverseRecOn with
    | nil =>
        obtain rfl := Option.some.inj hs
        exact (ProjectRunRecorder.write_resumes_iff RunPlan.kept_start.wellRecorded).mpr
          RunPlan.indexed_start
    | append_singleton before l _ =>
        obtain ⟨u, hu, hl⟩ := Machine.run_concat hs
        refine hrun.mpr ?_ before l u s hbefore hu hl s hl
        rintro before l u t hbefore hu - ⟨c, phase, hnext, hbad⟩
        exact hbad (hall before l u c phase hbefore hu hnext)

/-! ## Manifests that are refused -/

/-- The model that a Case publishes under a URI. -/
def modelRef (uri : String) : DataRef := ⟨[uri], "file", "local", "", uri, none, []⟩

/-- The receipt of a published model. -/
def modelReceipt (uri : String) : ArtifactPublicationReceipt where
  publicationId := uri
  artifactName := "model"
  ref := modelRef uri
  projectRunId := "run"
  caseRunId := uri
  transactionId := uri
  authorityNamespace := "project"
  leaseId := uri
  fencingToken := 1
  committedAt := 0
  metadata := [("case_finalization_sealed", "true")]

/-- A Case that has published its model. -/
def trained (uri : String) : FinishedCase Unit where
  result := ⟨.succeeded, 0, none, none⟩
  artifacts :=
    { refs := AList.singleton "model" (modelRef uri)
      publications := AList.singleton "model" (modelReceipt uri)
      receipted := by
        intro e he
        obtain rfl := List.mem_singleton.mp he
        exact ⟨modelReceipt uri, rfl, rfl, rfl⟩ }

/-- A parallel Stage whose Cases both publish a model. -/
def trainingGroup : ProjectGroup where
  stages := [⟨"train", ["small", "large"], .concurrent⟩]
  stageNames_nodup := by decide
  caseNames_nodup := by decide

/-- A run of the Stage that does not resume another. -/
def trainingPlan : RunPlan Unit := ⟨trainingGroup, fun _ ↦ true, none⟩

/-- The manifest of such a run, cut off when one of the Cases had been recorded. -/
def smallManifest : ProjectRunManifest Unit :=
  (trainingPlan.start.recorder.recordCase ⟨"train", "small"⟩ (trained "small")).write

/-- A run that resumes from it. -/
def resumingPlan : RunPlan Unit where
  group := trainingGroup
  ledger _ := true
  resumption :=
    match h : smallManifest.validatedResumeArtifacts fun _ ↦ true with
    | .ok bindings => some ⟨smallManifest, bindings, h⟩
    | .error _ => none

theorem published_trained {p : ProjectRunRecorder Unit} {key : CaseKey} {uri : String}
    (h : p.resultOf key = some (trained uri)) :
    p.published key = key.registrations (trained uri).artifacts.refs := by
  rw [ProjectRunRecorder.published, h]
  exact congrArg key.registrations (Dict.sorted_singleton _ _)

theorem smallManifest_resumes : smallManifest.Resumes fun _ ↦ true := by
  have hfits : trainingPlan.start.recorder.Fits trainingPlan.ledger
      (.recordCase ⟨"train", "small"⟩ (trained "small")) :=
    ⟨by decide, by decide, fun _ h ↦ by cases h⟩
  have hw : trainingPlan.start.recorder.WellRecorded trainingPlan.ledger :=
    RunPlan.kept_start.wellRecorded
  refine (ProjectRunRecorder.write_resumes_iff (hw.call hfits)).mpr ?_
  refine (ProjectRunRecorder.indexed_call_iff hw RunPlan.indexed_start hfits).mpr fun _ name ↦ ?_
  have hafter : trainingPlan.start.recorder.publishedAfter ⟨"train", "small"⟩ = [] := by decide
  rw [hafter, List.append_nil]
  refine ⟨fun ref href ↦ ?_, fun _ _ _ ref other _ hother ↦ by cases hother⟩
  rwa [show (trained "small").artifacts.sorted.refs = (trained "small").artifacts.refs from
    Dict.sorted_singleton _ _]

/-- The recorder of a run in which the larger Case completes first. -/
def largeFirst : ProjectRunRecorder Unit :=
  (trainingPlan.start.recorder.recordCase ⟨"train", "large"⟩ (trained "large")).recordCase
    ⟨"train", "small"⟩ (trained "small")

theorem largeFirst_not_indexed : ¬ largeFirst.Indexed := by
  intro hindexed
  have hpublished : largeFirst.caseOrder.flatMap largeFirst.published =
      CaseKey.registrations ⟨"train", "small"⟩ (trained "small").artifacts.refs ++
        CaseKey.registrations ⟨"train", "large"⟩ (trained "large").artifacts.refs := by
    show largeFirst.published ⟨"train", "small"⟩ ++
      (largeFirst.published ⟨"train", "large"⟩ ++ []) = _
    rw [published_trained rfl, published_trained rfl, List.append_nil]
  have hmodel := hindexed "model"
  rw [hpublished] at hmodel
  exact absurd hmodel (by decide)

/-- The larger Case completes first and the run is cut off when both are recorded; and a run that
resumes is cut off at once. -/
theorem manifest_refused :
    (∃ s, Machine.run trainingPlan.step trainingPlan.start
        [.seed, .enterStage, .completed "large" (trained "large"),
          .completed "small" (trained "small")] = some s ∧
      ¬ s.recorder.write.Resumes trainingPlan.ledger) ∧
    ∃ s, Machine.run resumingPlan.step resumingPlan.start [.seed] = some s ∧
      ¬ s.recorder.write.Resumes resumingPlan.ledger := by
  constructor
  · obtain ⟨phase, hrun⟩ : ∃ phase, Machine.run trainingPlan.step trainingPlan.start
        [.seed, .enterStage, .completed "large" (trained "large"),
          .completed "small" (trained "small")] = some ⟨largeFirst, phase⟩ := by
      have hseed : trainingPlan.next trainingPlan.start.phase .seed =
          some (.none, .between trainingGroup.stages) := by
        show some (if trainingPlan.seeds = ∅ then _ else _, _) = _
        rw [show trainingPlan.seeds = ∅ from rfl, if_pos rfl]
        rfl
      rw [Machine.run_cons, RunPlan.step, hseed]
      exact ⟨_, rfl⟩
    refine ⟨_, hrun, fun hresumes ↦ largeFirst_not_indexed ?_⟩
    exact (ProjectRunRecorder.write_resumes_iff (RunPlan.kept_of_run hrun).wellRecorded).mp hresumes
  · obtain ⟨bindings, hbindings⟩ := smallManifest_resumes
    have hresumption : ∃ resumption, resumingPlan.resumption = some resumption ∧
        resumption.manifest = smallManifest := by
      unfold resumingPlan
      dsimp only
      split
      · exact ⟨_, rfl, rfl⟩
      · next e he =>
          rw [hbindings] at he
          cases he
    obtain ⟨resumption, hsome, hmanifest⟩ := hresumption
    have hmem : "model" ∈ resumption.manifest.artifactRegistry := by
      rw [hmanifest]
      decide
    obtain ⟨t, hstep, hrefused⟩ := RunPlan.seeded_refused hsome hmem
    refine ⟨t, ?_, hrefused⟩
    rw [Machine.run_cons, hstep]
    rfl

end Blackbase.Project

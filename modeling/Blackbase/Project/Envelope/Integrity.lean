import Blackbase.Project.Envelope.Result

/-!
# Integrity of the envelopes

Writing a request or a result and reading it back, rebuilding a result from its own fields, and
what a result shows as formal artifacts.

Only the grant of a request can stand in the way.  Its threads are checked as they are handed
in, and checked again as they were written: a value that Python converts to a number before it
is detached, and not afterwards, passes the first check and fails the second.
-/

namespace Blackbase.Project.Envelope

theorem bind_eq_ok {ε α β : Type} {x : Except ε α} {f : α → Except ε β} {b : β}
    (h : (x >>= f) = .ok b) : ∃ a, x = .ok a ∧ f a = .ok b := by
  cases x with
  | error e => cases h
  | ok a => exact ⟨a, rfl, h⟩

namespace CaseRunResult

variable {R : Runtime}

/-- What the constructor was handed for the artifacts, sorted. -/
structure Sorted (R : Runtime) (a : ResultArgs R) (r : CaseRunResult R)
    (supplied : OrderedDict DataRef) (publications : OrderedDict (ArtifactPublicationReceipt R))
    (diagnosticRefs : OrderedDict DataRef)
    (diagnosticPublications : OrderedDict (ArtifactPublicationReceipt R)) : Prop where
  collected_refs : collect (DataRef.fromDict R) a.artifactRefs = .ok supplied
  collected_publications :
    collect (ArtifactPublicationReceipt.fromDict R) a.artifactPublications = .ok publications
  sorted : Artifacts.sort r.request.identity.projectRunId.text r.ok supplied publications
    diagnosticRefs diagnosticPublications =
      .ok ⟨r.artifactRefs, r.artifactPublications, r.diagnosticArtifactRefs,
        r.diagnosticArtifactPublications⟩

theorem sorted_of_make {t : Moment} {a : ResultArgs R} {r : CaseRunResult R}
    (h : make R t a = .ok r) : ∃ supplied publications diagnosticRefs diagnosticPublications,
      Sorted R a r supplied publications diagnosticRefs diagnosticPublications := by
  rw [make] at h
  simp only at h
  split at h
  · cases h
  obtain ⟨request, -, h⟩ := bind_eq_ok h
  split at h
  · next status _ =>
      obtain ⟨supplied, hsupplied, h⟩ := bind_eq_ok h
      obtain ⟨publications, hpublications, h⟩ := bind_eq_ok h
      obtain ⟨diagnosticRefs, -, h⟩ := bind_eq_ok h
      obtain ⟨diagnosticPublications, -, h⟩ := bind_eq_ok h
      obtain ⟨failure, -, h⟩ := bind_eq_ok h
      split at h
      · cases h
      · next m hsort =>
          obtain ⟨output, -, h⟩ := bind_eq_ok h
          obtain ⟨resourceUsage, -, h⟩ := bind_eq_ok h
          obtain ⟨budgetUsage, -, h⟩ := bind_eq_ok h
          obtain ⟨metadata, -, h⟩ := bind_eq_ok h
          obtain rfl := Except.ok.inj h
          exact ⟨supplied, publications, diagnosticRefs, diagnosticPublications,
            hsupplied, hpublications, hsort⟩
  · cases h

end CaseRunResult

/-! ## The property -/

/-- Whatever was handed to the constructor of a result that is not ok: its publications are
diagnostic publications, with their references, and its references are diagnostic ones, unless
a publication or a diagnostic reference of the same name stands there. -/
def CaseRunResult.OnlyDiagnosed {R : Runtime} (t : Moment) (r : CaseRunResult R) : Prop :=
  ∀ (a : ResultArgs R) (refs : OrderedDict DataRef)
    (publications : OrderedDict (ArtifactPublicationReceipt R)),
    make R t a = .ok r → collect (DataRef.fromDict R) a.artifactRefs = .ok refs →
    collect (ArtifactPublicationReceipt.fromDict R) a.artifactPublications = .ok publications →
    (∀ name receipt, publications.get? name = some receipt →
      r.diagnosticArtifactPublications.get? name = some receipt ∧
        r.diagnosticArtifactRefs.get? name = some receipt.ref) ∧
      ∀ name ref, refs.get? name = some ref → (r.diagnosticArtifactRefs.get? name).isSome = true

/-- What an envelope promises: what is written is read back, a result that is not ok shows no
formal artifact, a formal artifact has a publication of its own, and rebuilding changes
nothing. -/
structure EnvelopeIntegrity {R : Runtime} (t : Moment) (q : CaseRunRequest R)
    (r : CaseRunResult R) : Prop where
  request_read : (CaseRunRequest.fromDict R t q.asDict).map CaseRunRequest.asDict = .ok q.asDict
  result_read : (CaseRunResult.fromDict R t r.asDict).map CaseRunResult.asDict = .ok r.asDict
  not_ok : r.ok = false → r.artifactRefs = ∅ ∧ r.artifactPublications = ∅
  only_diagnosed : r.ok = false → r.OnlyDiagnosed t
  published : r.ok = true → ∀ name ref, r.artifactRefs.get? name = some ref →
    ∃ receipt, r.artifactPublications.get? name = some receipt ∧ receipt.ref = ref
  rebuilt : CaseRunResult.make R t (r.args WireMapping.held) = .ok r

/-- The grant of a request, if it has one, passes the check of its threads as it is written. -/
def CaseRunRequest.GrantReads {R : Runtime} (q : CaseRunRequest R) : Prop :=
  ∀ g ∈ q.childGrant, g.Reads R

section Integrity

variable {R : Runtime} {t : Moment} {q : CaseRunRequest R} {r : CaseRunResult R}

theorem checkGrant_eq_ok : q.checkGrant = .ok () ↔ q.GrantReads := by
  unfold CaseRunRequest.checkGrant CaseRunRequest.GrantReads
  cases q.childGrant with
  | none => simp
  | some g =>
      constructor
      · intro h g' hg
        obtain rfl := Option.some.inj hg
        exact h
      · exact fun h ↦ h g rfl

theorem map_eq_ok_iff {α β : Type} {x : Except Raised Unit} {a : α} {f : α → β} :
    (x.map fun _ ↦ a).map f = .ok (f a) ↔ x = .ok () := by
  cases x with
  | error e =>
      constructor
      · rintro ⟨⟩
      · rintro ⟨⟩
  | ok u => exact ⟨fun _ ↦ rfl, fun _ ↦ rfl⟩

theorem onlyDiagnosed_of_not_ok (h : r.ok = false) : r.OnlyDiagnosed t := by
  intro a refs publications hmake hrefs hpublications
  obtain ⟨supplied, publications', diagnosticRefs, diagnosticPublications, hsorted⟩ :=
    CaseRunResult.sorted_of_make hmake
  obtain rfl : supplied = refs := Except.ok.inj (hsorted.collected_refs.symm.trans hrefs)
  obtain rfl : publications' = publications :=
    Except.ok.inj (hsorted.collected_publications.symm.trans hpublications)
  obtain ⟨-, -, -, hpublished, hreferred⟩ := Artifacts.sort_ok hsorted.sorted
  rw [h] at hpublished hreferred
  simp only [Bool.false_eq_true, ↓reduceIte] at hpublished hreferred
  constructor
  · intro name receipt hname
    have hfold := OrderedDict.get?_foldl_insert (f := id) publications'.nodup
      diagnosticPublications name
    constructor
    · rw [hpublished]
      refine hfold.trans ?_
      rw [← OrderedDict.get?, hname]
      rfl
    · rw [hreferred name, hname]
      rfl
  · intro name ref hname
    rw [hreferred name, hname]
    simp

theorem published_of_ok (name : String) (ref : DataRef) (h : r.artifactRefs.get? name = some ref) :
    ∃ receipt, r.artifactPublications.get? name = some receipt ∧ receipt.ref = ref := by
  rw [r.published, OrderedDict.get?_eq_some, OrderedDict.entries_map] at h
  obtain ⟨⟨name', receipt⟩, hmem, heq⟩ := List.mem_map.mp h
  obtain ⟨rfl, rfl⟩ := Prod.ext_iff.mp heq
  exact ⟨receipt, OrderedDict.get?_of_mem hmem, rfl⟩

end Integrity

/-- **The envelopes keep their integrity exactly if the grants of the requests read.**  Nothing
else that the constructors accept is lost or changed on the way. -/
theorem envelope_integrity_iff {R : Runtime} (t : Moment) (q : CaseRunRequest R)
    (r : CaseRunResult R) :
    EnvelopeIntegrity t q r ↔ q.GrantReads ∧ r.request.GrantReads := by
  rw [← checkGrant_eq_ok, ← checkGrant_eq_ok]
  constructor
  · intro h
    have hrequest := h.request_read
    have hresult := h.result_read
    rw [CaseRunRequest.fromDict_asDict, map_eq_ok_iff] at hrequest
    rw [CaseRunResult.fromDict_asDict, map_eq_ok_iff] at hresult
    exact ⟨hrequest, hresult⟩
  · rintro ⟨hrequest, hresult⟩
    refine {
      request_read := ?_
      result_read := ?_
      not_ok := ?_
      only_diagnosed := onlyDiagnosed_of_not_ok
      published := fun _ ↦ published_of_ok
      rebuilt := r.make_args t WireMapping.shown_held }
    · rw [CaseRunRequest.fromDict_asDict, map_eq_ok_iff]
      exact hrequest
    · rw [CaseRunResult.fromDict_asDict, map_eq_ok_iff]
      exact hresult
    · intro hfailed
      have hempty := r.not_ok hfailed
      refine ⟨?_, hempty⟩
      rw [r.published, hempty]
      rfl

/-! ## A grant that does not read -/

/-- The conversions that matter here: an array of one number converts to that number, a list
does not. -/
def arrayRuntime : Runtime where
  str := PyValue.typeName
  int := fun
    | .array _ _ (.list [.int n]) => .ok n
    | v => .error (.typeError v.typeName)
  float := fun v ↦ .error (.typeError v.typeName)
  dict := fun v ↦ .error (.typeError v.typeName)
  sequence := fun v ↦ .error (.typeError v.typeName)
  sub := fun x _ ↦ x
  sha256 := fun _ ↦ Resources.ControlStore.zeroDigest
  jsonDigest := fun _ ↦ .ok Resources.ControlStore.zeroDigest

/-- Some moment. -/
def someMoment : Moment where
  projectHex := "0"
  caseHex := "1"
  now := .real 1
  now_truthy := by decide

/-- The threads of a grant given as an array of one number. -/
def arrayGrantArgs : GrantArgs where
  grantId := "grant"
  parentLeaseId := "lease"
  parentCaseRunId := "case"
  ns := "blackbase"
  resources := obj [("threads", .array "ndarray" true (.list [.int 4]))]
  fencingToken := 1
  metadata := obj []

/-- An empty frozen mapping. -/
def noEntries : WireMapping where
  dict := ∅
  frozen := by simp

/-- What that grant keeps: the array has become a sequence. -/
def arrayGrant : ChildResourceGrant where
  grantId := ⟨"grant", by decide, by decide⟩
  parentLeaseId := "lease"
  parentCaseRunId := "case"
  ns := "blackbase"
  resources := ⟨.ofList [("threads", .tuple [.int 4])], by
    intro e he
    obtain rfl := List.mem_singleton.mp he
    exact ⟨trivial, trivial⟩⟩
  fencingToken := 1
  metadata := noEntries

/-- A request with that grant. -/
def arrayRequest : CaseRunRequest arrayRuntime where
  projectName := "project"
  stageName := "stage"
  caseName := "case"
  caseKind := ⟨"solver", CaseRunRequest.defaultCaseKind_ne⟩
  mode := ⟨"run", CaseFailure.defaultPhase_ne⟩
  identity := {
    projectRunId := ⟨"project-run-0", by decide⟩
    rootRunId := ⟨"project-run-0", by decide⟩
    caseRunId := ⟨"case-run-1", by decide⟩
    parentCaseRunId := ""
    invocationId := ⟨"case-run-1", by decide⟩
    attempt := 0
    depth := 0
    parent_ne := fun h ↦ absurd h (lt_irrefl 0) }
  control := {
    cancellation := {
      controlId := ⟨"control", by decide, by decide⟩
      backend := .memory
      ns := ⟨"blackbase", CancellationRef.defaultNamespace_ne⟩
      path := ""
      redisUrlEnv := ⟨"BLACKBASE_REDIS_URL", CancellationRef.defaultRedisUrlEnv_ne⟩
      deadlineAt := .zero
      createdAt := .real 1
      parentControlId := none
      rootControlId := ⟨"control", by decide, by decide⟩
      lineageDepth := 0
      lineageDigest := Resources.ControlStore.zeroDigest
      activeTtlSeconds := .zero
      heartbeatSeconds := .zero
      retentionSeconds := .zero
      path_ne := by decide
      parent_ne := by decide
      depth_le := Nat.zero_le _
      root_iff := by decide
      deadline_clamped := by decide
      created_truthy := by decide
      timed := by decide }
    termination := {
      mode := .cooperative
      graceSeconds := .real 5
      killGraceSeconds := .real 1
      pollIntervalSeconds := .real 1
      grace := by decide
      poll := by decide }
    metadata := noEntries }
  resourceRequest := noEntries
  budgetRequest := ∅
  resourceContext := noEntries
  childGrant := some arrayGrant
  budgetHandles := ∅
  componentOverrides := noEntries
  inputArtifactBindings := ∅
  inputs := noEntries
  argv := []
  metadata := noEntries

theorem not_reads_arrayGrant : ¬ arrayGrant.Reads arrayRuntime := by
  intro h
  cases h

/-- The constructors accept a grant whose threads are an array of one number, and a request with
it, and the request cannot be read back. -/
theorem array_grant_unread :
    ChildResourceGrant.make arrayRuntime arrayGrantArgs = .ok arrayGrant ∧
      arrayRequest.childGrant = some arrayGrant ∧
      CaseRunRequest.make arrayRuntime someMoment (arrayRequest.args WireMapping.held) =
        .ok arrayRequest ∧
      (CaseRunRequest.fromDict arrayRuntime someMoment arrayRequest.asDict).map
        CaseRunRequest.asDict ≠ .ok arrayRequest.asDict := by
  refine ⟨rfl, rfl, arrayRequest.make_args someMoment WireMapping.shown_held, fun h ↦ ?_⟩
  rw [CaseRunRequest.fromDict_asDict, map_eq_ok_iff, checkGrant_eq_ok] at h
  exact not_reads_arrayGrant (h arrayGrant rfl)

end Blackbase.Project.Envelope

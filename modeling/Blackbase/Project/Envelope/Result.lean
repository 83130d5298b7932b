import Blackbase.Project.Envelope.Request
import Blackbase.Project.Execution

/-!
# Results of Case runs

`CaseRunResult` of `project/execution.py`.  Its constructor sorts references and publications
into the formal and the diagnostic ones, which it does again whenever a result is rebuilt or
read back.  What it leaves behind is a fixed point of the sorting: a result that is not ok has
no formal publication, and the formal references of one that is are those of its publications.
-/

namespace Blackbase.Project.Envelope

/-! ## Statuses -/

/-- The text of a status. -/
def statusText : CaseRunStatus → String
  | .pending => "pending"
  | .running => "running"
  | .succeeded => "succeeded"
  | .built => "built"
  | .checked => "checked"
  | .resumed => "resumed"
  | .failed => "failed"
  | .cancelled => "cancelled"
  | .timedOut => "timed_out"
  | .skipped => "skipped"

/-- The status a normalised text stands for. -/
def parseStatus : String → Option CaseRunStatus
  | "pending" => some .pending
  | "running" => some .running
  | "succeeded" => some .succeeded
  | "built" => some .built
  | "checked" => some .checked
  | "resumed" => some .resumed
  | "failed" => some .failed
  | "cancelled" => some .cancelled
  | "timed_out" => some .timedOut
  | "skipped" => some .skipped
  | _ => none

/-- `str(status or "pending").strip().lower()`. -/
def normalStatus (status : String) : String :=
  Text.lower (Text.strip (Resources.orDefault status "pending"))

theorem parseStatus_statusText (s : CaseRunStatus) :
    parseStatus (normalStatus (statusText s)) = some s := by
  cases s <;> decide

/-! ## Formal and diagnostic artifacts -/

/-- The formal and the diagnostic references and publications. -/
structure Artifacts (R : Runtime) where
  refs : OrderedDict DataRef
  publications : OrderedDict (ArtifactPublicationReceipt R)
  diagnosticRefs : OrderedDict DataRef
  diagnosticPublications : OrderedDict (ArtifactPublicationReceipt R)

namespace Artifacts

variable {R : Runtime}

/-- One publication is sorted. -/
def publish (projectRunId : String) (supplied : OrderedDict DataRef) (succeeded : Bool)
    (m : Artifacts R) (e : String × ArtifactPublicationReceipt R) :
    Except Raised (Artifacts R) :=
  let name := e.1
  if e.2.projectRunId.text ≠ projectRunId then
    .error (.valueError s!"Artifact publication '{name}' is outside the Case run lineage")
  else if (supplied.get? name).any (fun ref ↦ !ref.same e.2.ref) then
    .error (.valueError s!"Artifact publication '{name}' disagrees with its DataRef")
  else if succeeded then
    .ok { m with
      refs := m.refs.insert name e.2.ref
      publications := m.publications.insert name e.2 }
  else
    .ok { m with
      diagnosticRefs := m.diagnosticRefs.insert name e.2.ref
      diagnosticPublications := m.diagnosticPublications.insert name e.2 }

/-- A supplied reference without a formal one of its name is a diagnostic one. -/
def setAside (m : Artifacts R) (e : String × DataRef) : Artifacts R :=
  if (m.refs.get? e.1).isSome then m
  else { m with diagnosticRefs := m.diagnosticRefs.setDefault e.1 e.2 }

/-- The two loops of the constructor. -/
def sort (projectRunId : String) (succeeded : Bool) (supplied : OrderedDict DataRef)
    (publications : OrderedDict (ArtifactPublicationReceipt R))
    (diagnosticRefs : OrderedDict DataRef)
    (diagnosticPublications : OrderedDict (ArtifactPublicationReceipt R)) :
    Except Raised (Artifacts R) := do
  let m ← publications.entries.foldlM (publish projectRunId supplied succeeded)
    ⟨∅, ∅, diagnosticRefs, diagnosticPublications⟩
  return supplied.entries.foldl setAside m

variable {projectRunId : String} {succeeded : Bool} {supplied : OrderedDict DataRef}

/-- What sorting one publication can do. -/
theorem publish_ok {m m' : Artifacts R} {e : String × ArtifactPublicationReceipt R}
    (h : publish projectRunId supplied succeeded m e = .ok m') :
    e.2.projectRunId.text = projectRunId ∧
      m' = if succeeded then
        { m with
          refs := m.refs.insert e.1 e.2.ref
          publications := m.publications.insert e.1 e.2 }
      else
        { m with
          diagnosticRefs := m.diagnosticRefs.insert e.1 e.2.ref
          diagnosticPublications := m.diagnosticPublications.insert e.1 e.2 } := by
  simp only [publish] at h
  split at h
  · cases h
  · next hlineage =>
      split at h
      · cases h
      · refine ⟨not_not.mp hlineage, ?_⟩
        cases succeeded <;> exact (Except.ok.inj h).symm

/-- What sorting all publications has done. -/
theorem publishAll_ok {l : List (String × ArtifactPublicationReceipt R)} {m m' : Artifacts R}
    (h : l.foldlM (publish projectRunId supplied succeeded) m = .ok m') :
    (∀ e ∈ l, e.2.projectRunId.text = projectRunId) ∧
      m' = if succeeded then
        { m with
          refs := l.foldl (fun d e ↦ d.insert e.1 e.2.ref) m.refs
          publications := l.foldl (fun d e ↦ d.insert e.1 e.2) m.publications }
      else
        { m with
          diagnosticRefs := l.foldl (fun d e ↦ d.insert e.1 e.2.ref) m.diagnosticRefs
          diagnosticPublications :=
            l.foldl (fun d e ↦ d.insert e.1 e.2) m.diagnosticPublications } := by
  induction l generalizing m with
  | nil =>
      obtain rfl := Except.ok.inj h
      cases succeeded <;> exact ⟨by simp, rfl⟩
  | cons e rest ih =>
      rw [List.foldlM_cons] at h
      cases hstep : publish projectRunId supplied succeeded m e with
      | error err => rw [hstep] at h; cases h
      | ok m₁ =>
          rw [hstep, ok_bind] at h
          obtain ⟨hhead, rfl⟩ := publish_ok hstep
          obtain ⟨hrest, rfl⟩ := ih h
          refine ⟨?_, ?_⟩
          · rintro e' (_ | ⟨_, he'⟩)
            · exact hhead
            · exact hrest e' he'
          · cases succeeded <;> rfl

/-- Setting references aside concerns the diagnostic ones only. -/
theorem foldl_setAside (l : List (String × DataRef)) (m : Artifacts R) :
    (l.foldl setAside m).refs = m.refs ∧
      (l.foldl setAside m).publications = m.publications ∧
      (l.foldl setAside m).diagnosticPublications = m.diagnosticPublications := by
  induction l generalizing m with
  | nil => exact ⟨rfl, rfl, rfl⟩
  | cons e rest ih =>
      obtain ⟨hrefs, hpublications, hdiagnostic⟩ := ih (m.setAside e)
      have hstep : (m.setAside e).refs = m.refs ∧ (m.setAside e).publications = m.publications ∧
          (m.setAside e).diagnosticPublications = m.diagnosticPublications := by
        unfold setAside
        split <;> exact ⟨rfl, rfl, rfl⟩
      exact ⟨hrefs.trans hstep.1, hpublications.trans hstep.2.1, hdiagnostic.trans hstep.2.2⟩

/-- References that all have a formal one stay where they are. -/
theorem foldl_setAside_formal {l : List (String × DataRef)} {m : Artifacts R}
    (h : ∀ e ∈ l, (m.refs.get? e.1).isSome) : l.foldl setAside m = m := by
  induction l with
  | nil => rfl
  | cons e rest ih =>
      rw [List.foldl_cons, setAside, if_pos (h e List.mem_cons_self)]
      exact ih fun e' he' ↦ h e' (List.mem_cons_of_mem _ he')

/-- The diagnostic references after the supplied ones were set aside. -/
theorem get?_foldl_setAside {l : List (String × DataRef)} (hl : (l.map Prod.fst).Nodup)
    (m : Artifacts R) (k : String) :
    (l.foldl setAside m).diagnosticRefs.get? k =
      (m.diagnosticRefs.get? k).or (if (m.refs.get? k).isSome then none else l.lookup k) := by
  induction l generalizing m with
  | nil => simp
  | cons e rest ih =>
      obtain ⟨hhead, hrest⟩ := List.nodup_cons.mp hl
      rw [List.foldl_cons, ih hrest, OrderedDict.lookup_cons]
      by_cases hformal : (m.refs.get? e.1).isSome
      · rw [setAside, if_pos hformal]
        by_cases hk : k = e.1
        · subst hk
          simp [hformal]
        · simp [hk]
      · rw [setAside, if_neg hformal]
        by_cases hk : k = e.1
        · subst hk
          have hnone : rest.lookup e.1 = none := by
            rw [List.lookup_eq_none_iff]
            rintro p hp
            simp only [bne_iff_ne, ne_eq]
            rintro heq
            exact hhead (List.mem_map.mpr ⟨p, hp, heq.symm⟩)
          cases hd : m.diagnosticRefs.get? e.1 <;> simp [hformal, hd, hnone]
        · simp [hk]

theorem foldl_insert_ref (publications : OrderedDict (ArtifactPublicationReceipt R)) :
    publications.entries.foldl (fun d e ↦ d.insert e.1 e.2.ref) ∅ =
      publications.map fun r ↦ r.ref := by
  have hfold : publications.entries.foldl (fun d e ↦ d.insert e.1 e.2.ref) ∅ =
      OrderedDict.ofList (publications.map fun r ↦ r.ref).entries := by
    rw [OrderedDict.ofList, OrderedDict.entries_map, List.foldl_map]
  rw [hfold, OrderedDict.ofList_entries]

theorem sort_ok {publications : OrderedDict (ArtifactPublicationReceipt R)}
    {diagnosticRefs : OrderedDict DataRef}
    {diagnosticPublications : OrderedDict (ArtifactPublicationReceipt R)} {m' : Artifacts R}
    (h : sort projectRunId succeeded supplied publications diagnosticRefs
      diagnosticPublications = .ok m') :
    (∀ e ∈ publications.entries, e.2.projectRunId.text = projectRunId) ∧
      m'.publications = (if succeeded then publications else ∅) ∧
      m'.refs = m'.publications.map (fun r ↦ r.ref) ∧
      m'.diagnosticPublications = (if succeeded then diagnosticPublications
        else publications.entries.foldl (fun d e ↦ d.insert e.1 e.2) diagnosticPublications) ∧
      ∀ k, m'.diagnosticRefs.get? k =
        (if succeeded then (diagnosticRefs.get? k).or
            (if (publications.get? k).isSome then none else supplied.get? k)
          else (((publications.get? k).map fun r ↦ r.ref).or (diagnosticRefs.get? k)).or
            (supplied.get? k)) := by
  unfold sort at h
  cases hfold : publications.entries.foldlM (publish projectRunId supplied succeeded)
      (⟨∅, ∅, diagnosticRefs, diagnosticPublications⟩ : Artifacts R) with
  | error e => rw [hfold] at h; cases h
  | ok m =>
      rw [hfold, ok_bind] at h
      obtain rfl := Except.ok.inj h
      obtain ⟨hlineage, hm⟩ := publishAll_ok hfold
      obtain ⟨hrefs, hpublications, hdiagnostic⟩ := foldl_setAside supplied.entries m
      have hget := get?_foldl_setAside supplied.nodup m
      rw [hrefs, hpublications, hdiagnostic]
      refine ⟨hlineage, ?_⟩
      cases succeeded with
      | true =>
          rw [if_pos rfl] at hm
          subst hm
          refine ⟨OrderedDict.ofList_entries publications, ?_, rfl, fun k ↦ ?_⟩
          · change publications.entries.foldl (fun d e ↦ d.insert e.1 e.2.ref) ∅ =
              (OrderedDict.ofList publications.entries).map fun r ↦ r.ref
            rw [foldl_insert_ref, OrderedDict.ofList_entries]
          · rw [hget k]
            change (diagnosticRefs.get? k).or (if ((publications.entries.foldl
              (fun d e ↦ d.insert e.1 e.2.ref) ∅ : OrderedDict DataRef).get? k).isSome then none
              else supplied.get? k) = _
            rw [OrderedDict.get?_foldl_insert
              (f := fun r : ArtifactPublicationReceipt R ↦ r.ref) publications.nodup ∅ k,
              OrderedDict.get?_empty, Option.or_none, Option.isSome_map]
            rfl
      | false =>
          rw [if_neg Bool.false_ne_true] at hm
          subst hm
          refine ⟨rfl, rfl, rfl, fun k ↦ ?_⟩
          rw [hget k]
          change ((publications.entries.foldl (fun d e ↦ d.insert e.1 e.2.ref)
            diagnosticRefs).get? k).or (supplied.get? k) = _
          rw [OrderedDict.get?_foldl_insert
            (f := fun r : ArtifactPublicationReceipt R ↦ r.ref) publications.nodup
            diagnosticRefs k]
          rfl

/-- Sorting what was sorted changes nothing. -/
theorem sort_sorted {publications : OrderedDict (ArtifactPublicationReceipt R)}
    (hlineage : ∀ e ∈ publications.entries, e.2.projectRunId.text = projectRunId)
    (hempty : succeeded = false → publications = ∅) (diagnosticRefs : OrderedDict DataRef)
    (diagnosticPublications : OrderedDict (ArtifactPublicationReceipt R)) :
    sort projectRunId succeeded (publications.map fun r ↦ r.ref) publications diagnosticRefs
        diagnosticPublications =
      .ok ⟨publications.map fun r ↦ r.ref, publications, diagnosticRefs,
        diagnosticPublications⟩ := by
  cases succeeded with
  | false =>
      obtain rfl := hempty rfl
      rfl
  | true =>
      have hpublish : ∀ (l : List (String × ArtifactPublicationReceipt R)) (m : Artifacts R),
          (∀ e ∈ l, e ∈ publications.entries) →
          l.foldlM (publish projectRunId (publications.map fun r ↦ r.ref) true) m =
            .ok { m with
              refs := l.foldl (fun d e ↦ d.insert e.1 e.2.ref) m.refs
              publications := l.foldl (fun d e ↦ d.insert e.1 e.2) m.publications } := by
        intro l
        induction l with
        | nil => exact fun m _ ↦ rfl
        | cons e rest ih =>
            intro m hmem
            have he := hmem e List.mem_cons_self
            have hsupplied : (publications.map fun r ↦ r.ref).get? e.1 = some e.2.ref :=
              OrderedDict.get?_of_mem (List.mem_map.mpr ⟨e, he, rfl⟩)
            have hstep : publish projectRunId (publications.map fun r ↦ r.ref) true m e =
                .ok { m with
                  refs := m.refs.insert e.1 e.2.ref
                  publications := m.publications.insert e.1 e.2 } := by
              simp [publish, hlineage e he, hsupplied]
            rw [List.foldlM_cons, hstep, ok_bind,
              ih _ fun e' he' ↦ hmem e' (List.mem_cons_of_mem _ he')]
            rfl
      have hformal : ∀ e ∈ (publications.map fun r ↦ r.ref).entries,
          ((publications.map fun r ↦ r.ref).get? e.1).isSome := by
        rintro e he
        rw [OrderedDict.get?_of_mem (k := e.1) (a := e.2) he]
        rfl
      have hself : publications.entries.foldl (fun d e ↦ d.insert e.1 e.2) ∅ = publications :=
        publications.ofList_entries
      rw [sort, hpublish _ _ fun e he ↦ he, ok_bind, foldl_insert_ref, hself,
        foldl_setAside_formal hformal]
      rfl

end Artifacts

/-! ## Results -/

/-- The arguments of the constructor of `CaseRunResult`. -/
structure ResultArgs (R : Runtime) where
  request : Given (CaseRunRequest R)
  status : String
  output : PyValue
  artifactRefs : List (PyKey × Given DataRef)
  artifactPublications : List (PyKey × Given (ArtifactPublicationReceipt R))
  diagnosticArtifactRefs : List (PyKey × Given DataRef)
  diagnosticArtifactPublications : List (PyKey × Given (ArtifactPublicationReceipt R))
  resourceUsage : PyValue
  budgetUsage : PyValue
  startedAt : PyFloat
  finishedAt : PyFloat
  elapsedSeconds : PyFloat
  exitCode : ℤ
  failure : Option (Given CaseFailure)
  metadata : PyValue
  schemaVersion : ℤ

/-- `elapsed_seconds`: the difference of the two times, if both are positive. -/
def elapsedOf (R : Runtime) (started finished elapsed : PyFloat) : PyFloat :=
  if PyFloat.zero.lt started && PyFloat.zero.lt finished then (R.sub finished started).clamp
  else elapsed.clamp

/-- A result is ok: no exit code, a status of success, and no failure. -/
def succeeds (exitCode : ℤ) (status : CaseRunStatus) (failure : Option CaseFailure) : Bool :=
  exitCode = 0 && status.success && failure.isNone

/-- `CaseRunResult`. -/
structure CaseRunResult (R : Runtime) where
  request : CaseRunRequest R
  status : CaseRunStatus
  output : WireMapping
  artifactRefs : OrderedDict DataRef
  artifactPublications : OrderedDict (ArtifactPublicationReceipt R)
  diagnosticArtifactRefs : OrderedDict DataRef
  diagnosticArtifactPublications : OrderedDict (ArtifactPublicationReceipt R)
  resourceUsage : WireMapping
  budgetUsage : WireMapping
  startedAt : PyFloat
  finishedAt : PyFloat
  elapsedSeconds : PyFloat
  exitCode : ℤ
  failure : Option CaseFailure
  metadata : WireMapping
  lineage : ∀ e ∈ artifactPublications.entries,
    e.2.projectRunId.text = request.identity.projectRunId.text
  published : artifactRefs = artifactPublications.map fun r ↦ r.ref
  not_ok : succeeds exitCode status failure = false → artifactPublications = ∅
  started_clamped : startedAt.clamp = startedAt
  finished_clamped : finishedAt.clamp = finishedAt
  elapsed_eq : elapsedOf R startedAt finishedAt elapsedSeconds = elapsedSeconds

theorem elapsedOf_elapsedOf (R : Runtime) (started finished elapsed : PyFloat) :
    elapsedOf R started finished (elapsedOf R started finished elapsed) =
      elapsedOf R started finished elapsed := by
  cases h : PyFloat.zero.lt started && PyFloat.zero.lt finished <;> simp [elapsedOf, h]

namespace CaseRunResult

variable {R : Runtime}

/-- `ok`. -/
def ok (r : CaseRunResult R) : Bool := succeeds r.exitCode r.status r.failure

/-- `CaseRunResult.__post_init__`. -/
def make (R : Runtime) (t : Moment) (a : ResultArgs R) : Except Raised (CaseRunResult R) := do
  let version := a.schemaVersion
  if version ≠ caseRunSchemaVersion then
    throw (.valueError s!"unsupported CaseRunResult schema_version={version}")
  let request ← a.request.take (CaseRunRequest.fromDict R t)
  let normal := normalStatus a.status
  let some status := parseStatus normal
    | throw (.valueError s!"unsupported CaseRunResult status '{normal}'")
  let supplied ← collect (DataRef.fromDict R) a.artifactRefs
  let publications ← collect (ArtifactPublicationReceipt.fromDict R) a.artifactPublications
  let diagnosticRefs ← collect (DataRef.fromDict R) a.diagnosticArtifactRefs
  let diagnosticPublications ←
    collect (ArtifactPublicationReceipt.fromDict R) a.diagnosticArtifactPublications
  let failure ← CaseFailure.takeOptional (CaseFailure.fromDict R) a.failure
  let started := (a.startedAt.orElse .zero).clamp
  let finished := (a.finishedAt.orElse .zero).clamp
  match hsort : Artifacts.sort request.identity.projectRunId.text
      (succeeds a.exitCode status failure) supplied publications diagnosticRefs
      diagnosticPublications with
  | .error e => throw e
  | .ok m =>
    let output ← R.wireMapping notTransportSafe "result.output" a.output
    let resourceUsage ← R.wireMapping notTransportSafe "result.resource_usage" a.resourceUsage
    let budgetUsage ← R.wireMapping notTransportSafe "result.budget_usage" a.budgetUsage
    let metadata ← R.wireMapping notTransportSafe "result.metadata" a.metadata
    return {
      request := request
      status := status
      output := output
      artifactRefs := m.refs
      artifactPublications := m.publications
      diagnosticArtifactRefs := m.diagnosticRefs
      diagnosticArtifactPublications := m.diagnosticPublications
      resourceUsage := resourceUsage
      budgetUsage := budgetUsage
      startedAt := started
      finishedAt := finished
      elapsedSeconds := elapsedOf R started finished (a.elapsedSeconds.orElse .zero)
      exitCode := a.exitCode
      failure := failure
      metadata := metadata
      lineage := by
        obtain ⟨hlineage, hpublications, -⟩ := Artifacts.sort_ok hsort
        rw [hpublications]
        split
        · exact hlineage
        · rintro e (_ | _)
      published := (Artifacts.sort_ok hsort).2.2.1
      not_ok := by
        intro hfailed
        rw [(Artifacts.sort_ok hsort).2.1, if_neg (by rw [hfailed]; exact Bool.false_ne_true)]
      started_clamped := PyFloat.clamp_clamp _
      finished_clamped := PyFloat.clamp_clamp _
      elapsed_eq := elapsedOf_elapsedOf R _ _ _ }

/-- The text of the error for another schema. -/
def olderSchema (version : ℤ) : String :=
  let expected := caseRunSchemaVersion
  s!"unsupported CaseRunResult schema_version={version}; expected {expected}. " ++
    "Historical v1 results are migrated only through ProjectRunManifest resume; live worker " ++
    "results require a stack-wide worker upgrade"

/-- `CaseRunResult.from_dict`. -/
def fromDict (R : Runtime) (t : Moment) (v : PyValue) : Except Raised (CaseRunResult R) := do
  let d ← Runtime.mappingOf v
  let schemaVersion ← R.intOrZero (d.get "schema_version" (.int 0))
  if schemaVersion ≠ caseRunSchemaVersion then
    throw (.valueError (olderSchema schemaVersion))
  let rawRequest ← R.readDict (d.get "request" (obj []))
  let request ← CaseRunRequest.fromDict R t rawRequest
  let output ← R.readDict (d.get "output" (obj []))
  let refs ← R.readMap (DataRef.fromDict R) (d.get "artifact_refs" (obj []))
  let publications ←
    R.readMap (ArtifactPublicationReceipt.fromDict R) (d.get "artifact_publications" (obj []))
  let diagnosticRefs ←
    R.readMap (DataRef.fromDict R) (d.get "diagnostic_artifact_refs" (obj []))
  let diagnosticPublications ←
    R.readMap (ArtifactPublicationReceipt.fromDict R)
      (d.get "diagnostic_artifact_publications" (obj []))
  let resourceUsage ← R.readDict (d.get "resource_usage" (obj []))
  let budgetUsage ← R.readDict (d.get "budget_usage" (obj []))
  let startedAt ← R.floatOrZero (d.get "started_at" (.float .zero))
  let finishedAt ← R.floatOrZero (d.get "finished_at" (.float .zero))
  let elapsedSeconds ← R.floatOrZero (d.get "elapsed_seconds" (.float .zero))
  let exitCode ← R.intOrZero (d.get "exit_code" (.int 0))
  let failure ← CaseFailure.readOptional (CaseFailure.fromDict R) (d.get "failure" .none)
  let metadata ← R.readDict (d.get "metadata" (obj []))
  make R t {
    request := .built request
    status := R.strOf (d.get "status" (.text "pending"))
    output := output
    artifactRefs := handed refs
    artifactPublications := handed publications
    diagnosticArtifactRefs := handed diagnosticRefs
    diagnosticArtifactPublications := handed diagnosticPublications
    resourceUsage := resourceUsage
    budgetUsage := budgetUsage
    startedAt := startedAt
    finishedAt := finishedAt
    elapsedSeconds := elapsedSeconds
    exitCode := exitCode
    failure := failure.map .built
    metadata := metadata
    schemaVersion := schemaVersion }

/-- `error`. -/
def error (r : CaseRunResult R) : String :=
  match r.failure with
  | none => ""
  | some f => f.kind ++ ": " ++ f.message

/-- `CaseRunResult.as_dict`. -/
def asDict (r : CaseRunResult R) : PyValue :=
  obj [
    ("schema_version", .int caseRunSchemaVersion),
    ("request", r.request.asDict),
    ("identity", r.request.identity.asDict),
    ("status", .text (statusText r.status)),
    ("ok", .bool r.ok),
    ("output", r.output.thawed),
    ("artifact_refs", shownMap DataRef.asDict r.artifactRefs),
    ("artifact_publications",
      shownMap ArtifactPublicationReceipt.asDict r.artifactPublications),
    ("diagnostic_artifact_refs", shownMap DataRef.asDict r.diagnosticArtifactRefs),
    ("diagnostic_artifact_publications",
      shownMap ArtifactPublicationReceipt.asDict r.diagnosticArtifactPublications),
    ("resource_usage", r.resourceUsage.thawed),
    ("budget_usage", r.budgetUsage.thawed),
    ("started_at", .float r.startedAt),
    ("finished_at", .float r.finishedAt),
    ("elapsed_seconds", .float r.elapsedSeconds),
    ("exit_code", .int r.exitCode),
    ("failure", CaseFailure.shownOptional CaseFailure.asDict r.failure),
    ("error", .text r.error),
    ("metadata", r.metadata.thawed)]

/-- The fields of a result, with its mappings in the form `form`. -/
def args (r : CaseRunResult R) (form : WireMapping → PyValue) : ResultArgs R where
  request := .built r.request
  status := statusText r.status
  output := form r.output
  artifactRefs := handed r.artifactRefs
  artifactPublications := handed r.artifactPublications
  diagnosticArtifactRefs := handed r.diagnosticArtifactRefs
  diagnosticArtifactPublications := handed r.diagnosticArtifactPublications
  resourceUsage := form r.resourceUsage
  budgetUsage := form r.budgetUsage
  startedAt := r.startedAt
  finishedAt := r.finishedAt
  elapsedSeconds := r.elapsedSeconds
  exitCode := r.exitCode
  failure := r.failure.map .built
  metadata := form r.metadata
  schemaVersion := caseRunSchemaVersion

/-- The constructor accepts the fields of a result, and changes nothing. -/
theorem make_args (t : Moment) (r : CaseRunResult R) {form : WireMapping → PyValue}
    (hform : ∀ m : WireMapping, m.Shown (form m)) : make R t (r.args form) = .ok r := by
  have hsort : Artifacts.sort r.request.identity.projectRunId.text
      (succeeds r.exitCode r.status r.failure) r.artifactRefs r.artifactPublications
      r.diagnosticArtifactRefs r.diagnosticArtifactPublications =
      .ok ⟨r.artifactRefs, r.artifactPublications, r.diagnosticArtifactRefs,
        r.diagnosticArtifactPublications⟩ := by
    rw [r.published]
    exact Artifacts.sort_sorted r.lineage r.not_ok _ _
  simp only [make, args, Given.take_built, parseStatus_statusText, collect_handed,
    CaseFailure.takeOptional_built, ok_bind, ne_eq, not_true_eq_false, ↓reduceIte,
    PyFloat.orElse_zero, r.started_clamped, r.finished_clamped, r.elapsed_eq,
    R.wireMapping_shown (hform _)]
  split
  · next h => rw [hsort] at h; cases h
  · next m h =>
      rw [hsort] at h
      obtain rfl := Except.ok.inj h
      rfl

theorem readOptional_failure (x : Option CaseFailure) :
    CaseFailure.readOptional (CaseFailure.fromDict R)
      (CaseFailure.shownOptional CaseFailure.asDict x) = .ok x := by
  cases x with
  | none => rfl
  | some f => exact congrArg (Except.map some) (CaseFailure.fromDict_asDict R f)

/-- Reading a result back repeats the check of the grant of its request, and gives the
result. -/
theorem fromDict_asDict (t : Moment) (r : CaseRunResult R) :
    fromDict R t r.asDict = r.request.checkGrant.map fun _ ↦ r := by
  have hrequest : R.readDict r.request.asDict = .ok r.request.asDict := R.readDict_mapping _
  have hmake := r.make_args t WireMapping.shown_thawed
  rw [args] at hmake
  simp only [fromDict, asDict, Runtime.mappingOf_obj, ok_bind, get_payload_cons, String.reduceEq,
    ↓reduceIte, R.intOrZero_int, ne_eq, not_true_eq_false, hrequest,
    CaseRunRequest.fromDict_asDict, R.readDict_thawed,
    R.readMap_shownMap (DataRef.fromDict_asDict R),
    R.readMap_shownMap ArtifactPublicationReceipt.fromDict_asDict, R.floatOrZero_float,
    readOptional_failure, R.strOf_text]
  cases r.request.checkGrant with
  | error e => rfl
  | ok _ =>
      simp only [Except.map, ok_bind]
      exact hmake

end CaseRunResult

end Blackbase.Project.Envelope

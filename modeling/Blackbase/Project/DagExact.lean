import Blackbase.Project.Dag

/-!
# Exactness of DAG execution

The invariant of `_execute_dag_stage` over its log.  The pending Cases are those that have not been
recorded; a Case that was recorded has been in a wave or was dropped, and a wave is justified by
the results before it.  From it: every pending Case is recorded once, and the main loop makes
progress, since among the Cases left there is one whose dependencies have all been recorded.

A Case that has succeeded in an earlier run stands between its consumers and what it depends on:
they wait for it only.
-/

namespace Blackbase.Project

universe u

variable {O : Type u} {run : DagRun}

/-! ## Reading the log -/

namespace DagEvent

/-- The Case whose result is recorded. -/
def recordedName : DagEvent O → Option String
  | recorded r => some r.caseName
  | launched _ => none

/-- The Cases of a wave. -/
def launchedNames : DagEvent O → List String
  | launched ready => ready
  | recorded _ => []

end DagEvent

/-- The Cases whose results a log records. -/
def recordedNames (events : List (DagEvent O)) : List String :=
  events.filterMap DagEvent.recordedName

/-- The Cases a log starts. -/
def launchedNames (events : List (DagEvent O)) : List String :=
  events.flatMap DagEvent.launchedNames

@[simp] theorem recordedNames_recorded (events : List (DagEvent O)) (r : DagResult O) :
    recordedNames (events ++ [.recorded r]) = recordedNames events ++ [r.caseName] := by
  simp [recordedNames, DagEvent.recordedName]

@[simp] theorem recordedNames_launched (events : List (DagEvent O)) (ready : List String) :
    recordedNames (events ++ [.launched ready]) = recordedNames events := by
  simp [recordedNames, DagEvent.recordedName]

@[simp] theorem launchedNames_recorded (events : List (DagEvent O)) (r : DagResult O) :
    launchedNames (events ++ [.recorded r]) = launchedNames events := by
  simp [launchedNames, DagEvent.launchedNames]

@[simp] theorem launchedNames_launched (events : List (DagEvent O)) (ready : List String) :
    launchedNames (events ++ [.launched ready]) = launchedNames events ++ ready := by
  simp [launchedNames, DagEvent.launchedNames]

theorem mem_recordedNames {events : List (DagEvent O)} {c : String} :
    c ∈ recordedNames events ↔ ∃ r, .recorded r ∈ events ∧ r.caseName = c := by
  simp only [recordedNames, List.mem_filterMap]
  constructor
  · rintro ⟨e, he, hc⟩
    cases e with
    | launched ready => cases hc
    | recorded r => exact ⟨r, he, Option.some.inj hc⟩
  · rintro ⟨r, hr, rfl⟩
    exact ⟨.recorded r, hr, rfl⟩

namespace DagRun

variable (run)

/-- A wave follows the results of what its Cases depend on. -/
def Causal (before : List (DagEvent O)) : DagEvent O → Prop
  | .launched ready => ∀ c ∈ ready, ∀ d ∈ run.plan.dependenciesFor c,
      d ∈ run.resumed ∨ ∃ r, .recorded r ∈ before ∧ r.caseName = d ∧ r.ok = true
  | .recorded _ => True

theorem valid : run.plan.Valid := DagStagePlan.fromStage_valid run.planned

theorem pendingNames_nodup : run.pendingNames.Nodup := run.valid.nodup.filter _

variable {run}

theorem mem_pendingNames {c : String} :
    c ∈ run.pendingNames ↔ c ∈ run.plan.cases ∧ c ∉ run.resumed := by
  simp [pendingNames]

theorem mem_order {c : String} (h : c ∈ run.pendingNames) : c ∈ run.plan.topologicalOrder :=
  run.valid.perm.mem_iff.mpr (mem_pendingNames.mp h).1

/-- A dependency of a Case has been resumed or is to be run. -/
theorem dependency_cases {c d : String} (hc : c ∈ run.pendingNames)
    (hd : d ∈ run.plan.dependenciesFor c) : d ∈ run.resumed ∨ d ∈ run.pendingNames := by
  have hmem := run.valid.perm.mem_iff.mp (run.valid.ordered c (mem_order hc) d hd).1
  by_cases hres : d ∈ run.resumed
  · exact .inl hres
  · exact .inr (mem_pendingNames.mpr ⟨hmem, hres⟩)

theorem skippedRequest_caseName (c : String) :
    Attempt.Ends (fun request ↦ request.caseName = c) (fun _ ↦ True) (run.skippedRequest c) := by
  refine (Attempt.ends_true _).bind fun caseKind _ ↦ ?_
  refine (Attempt.ends_true _).bind fun modes _ ↦ ?_
  refine (Attempt.ends_true _).bind fun overrides _ ↦ ?_
  refine (Attempt.ends_true _).bind fun declared _ ↦ ?_
  refine (Attempt.ends_true _).bind fun overrides' _ ↦ ?_
  exact (Attempt.ends_true _).bind fun declared' _ ↦ rfl

end DagRun

/-! ## The invariant -/

namespace DagState

/-- Why a Case is not run. -/
def Dropped (run : DagRun) (s : DagState O) (c : String) : Prop :=
  (∃ d ∈ run.plan.dependenciesFor c, d ∈ s.failed) ∨ run.stage.failFast = true

/-- The state while `rest` is to be recorded and the Cases of `opened` have been started. -/
structure Inv (run : DagRun) (rest opened : List String) (s : DagState O) : Prop where
  perm : (rest ++ recordedNames s.events).Perm run.pendingNames
  succeeded : ∀ c, c ∈ s.succeeded ↔ c ∈ run.resumed ∨
    ∃ r, .recorded r ∈ s.events ∧ r.caseName = c ∧ r.ok = true
  failed : ∀ c, c ∈ s.failed ↔ ∃ r, .recorded r ∈ s.events ∧ r.caseName = c ∧ r.ok = false
  results : ∀ c r, s.results.lookup c = some r ↔ .recorded r ∈ s.events ∧ r.caseName = c
  nodup : (launchedNames s.events).Nodup
  launched : ∀ c ∈ launchedNames s.events, c ∈ recordedNames s.events ∨ c ∈ opened
  opened : ∀ c ∈ opened, c ∈ rest
  dropped : ∀ r, .recorded r ∈ s.events → r.caseName ∈ launchedNames s.events ∨
    r.result.status = .skipped ∧ r.caseName ∉ launchedNames s.events ∧ s.Dropped run r.caseName
  justified : Log.Justified run.Causal s.events
  exit : s.exitCode ≠ 0 ↔ s.failed ≠ []

variable {rest opened : List String} {s t : DagState O}

theorem Inv.nodup_all (h : s.Inv run rest opened) :
    (rest ++ recordedNames s.events).Nodup := h.perm.nodup_iff.mpr run.pendingNames_nodup

theorem Inv.mem_pendingNames (h : s.Inv run rest opened) {c : String} (hc : c ∈ rest) :
    c ∈ run.pendingNames := h.perm.subset (List.mem_append_left _ hc)

theorem Inv.not_recorded (h : s.Inv run rest opened) {c : String} (hc : c ∈ rest) :
    c ∉ recordedNames s.events := fun hrec ↦ List.disjoint_of_nodup_append h.nodup_all hc hrec

/-- The state before anything has been done. -/
theorem inv_start (registries : ArtifactRegistries) :
    (run.start registries : DagState O).Inv run run.pendingNames [] := by
  constructor
  · simp [DagRun.start, recordedNames]
  · simp [DagRun.start]
  · simp [DagRun.start]
  · simp [DagRun.start]
  · simp [DagRun.start, launchedNames]
  · simp [DagRun.start, launchedNames]
  · simp
  · simp [DagRun.start]
  · exact Log.Justified.nil
  · simp [DagRun.start]

theorem Inv.of_perm (h : s.Inv run rest []) {rest' : List String} (hperm : rest'.Perm rest) :
    s.Inv run rest' [] where
  __ := h
  perm := (hperm.append_right _).trans h.perm
  opened _ hc := absurd hc List.not_mem_nil

/-- Nothing is said of the pending set and the artifacts. -/
theorem Inv.congr (h : s.Inv run rest opened) (hevents : t.events = s.events)
    (hresults : t.results = s.results) (hsucceeded : t.succeeded = s.succeeded)
    (hfailed : t.failed = s.failed) (hexit : t.exitCode ≠ 0 ↔ t.failed ≠ []) :
    t.Inv run rest opened := by
  constructor
  · rw [hevents]
    exact h.perm
  · rw [hevents, hsucceeded]
    exact h.succeeded
  · rw [hevents, hfailed]
    exact h.failed
  · rw [hevents, hresults]
    exact h.results
  · rw [hevents]
    exact h.nodup
  · rw [hevents]
    exact h.launched
  · exact h.opened
  · unfold Dropped
    rw [hevents, hfailed]
    exact h.dropped
  · rw [hevents]
    exact h.justified
  · exact hexit

/-- A result is recorded. -/
theorem Inv.record (h : s.Inv run rest opened) {r : DagResult O} (hr : r.caseName ∈ rest)
    {opened' : List String} (hopened : ∀ c ∈ opened, c = r.caseName ∨ c ∈ opened')
    (hopened' : ∀ c ∈ opened', c ∈ opened ∧ c ≠ r.caseName)
    (hevents : t.events = s.events ++ [.recorded r])
    (hresults : t.results = s.results.insert r.caseName r)
    (hsucceeded : ∀ c, c ∈ t.succeeded ↔ c ∈ s.succeeded ∨ r.ok = true ∧ r.caseName = c)
    (hfailed : ∀ c, c ∈ t.failed ↔ c ∈ s.failed ∨ r.ok = false ∧ r.caseName = c)
    (hwhy : r.caseName ∈ launchedNames s.events ∨ r.result.status = .skipped ∧
      r.caseName ∉ launchedNames s.events ∧ s.Dropped run r.caseName)
    (hexit : t.exitCode ≠ 0 ↔ t.failed ≠ []) :
    t.Inv run (rest.erase r.caseName) opened' := by
  have hmem : ∀ r', DagEvent.recorded r' ∈ t.events ↔ .recorded r' ∈ s.events ∨ r' = r := by
    intro r'
    rw [hevents]
    simp
  have hmono : ∀ c, s.Dropped run c → t.Dropped run c := by
    intro c hc
    refine hc.imp_left ?_
    rintro ⟨d, hd, hfail⟩
    exact ⟨d, hd, (hfailed d).mpr (.inl hfail)⟩
  constructor
  · rw [hevents, recordedNames_recorded]
    refine List.Perm.trans ?_ h.perm
    have hcons := (List.perm_cons_erase hr).symm
    calc rest.erase r.caseName ++ (recordedNames s.events ++ [r.caseName])
        _ = (rest.erase r.caseName ++ recordedNames s.events) ++ [r.caseName] := by
            rw [List.append_assoc]
        List.Perm _ (r.caseName :: (rest.erase r.caseName ++ recordedNames s.events)) :=
            List.perm_append_singleton _ _
        List.Perm _ (rest ++ recordedNames s.events) := hcons.append_right _
  · intro c
    rw [hsucceeded, h.succeeded]
    simp only [hmem]
    constructor
    · rintro ((hres | ⟨r', hr', hname, hok⟩) | ⟨hok, hname⟩)
      · exact .inl hres
      · exact .inr ⟨r', .inl hr', hname, hok⟩
      · exact .inr ⟨r, .inr rfl, hname, hok⟩
    · rintro (hres | ⟨r', hr' | rfl, hname, hok⟩)
      · exact .inl (.inl hres)
      · exact .inl (.inr ⟨r', hr', hname, hok⟩)
      · exact .inr ⟨hok, hname⟩
  · intro c
    rw [hfailed, h.failed]
    simp only [hmem]
    constructor
    · rintro (⟨r', hr', hname, hok⟩ | ⟨hok, hname⟩)
      · exact ⟨r', .inl hr', hname, hok⟩
      · exact ⟨r, .inr rfl, hname, hok⟩
    · rintro ⟨r', hr' | rfl, hname, hok⟩
      · exact .inl ⟨r', hr', hname, hok⟩
      · exact .inr ⟨hok, hname⟩
  · intro c r'
    rw [hresults, hmem]
    by_cases hc : c = r.caseName
    · rw [hc, AList.lookup_insert]
      constructor
      · rintro hsome
        obtain rfl := Option.some.inj hsome
        exact ⟨.inr rfl, rfl⟩
      · rintro ⟨hr' | rfl, hname⟩
        · exact absurd (mem_recordedNames.mpr ⟨r', hr', hname⟩) (h.not_recorded hr)
        · rfl
    · rw [AList.lookup_insert_ne hc, h.results]
      constructor
      · rintro ⟨hr', hname⟩
        exact ⟨.inl hr', hname⟩
      · rintro ⟨hr' | rfl, hname⟩
        · exact ⟨hr', hname⟩
        · exact absurd hname.symm hc
  · rw [hevents, launchedNames_recorded]
    exact h.nodup
  · intro c hc
    rw [hevents, launchedNames_recorded] at hc
    rw [hevents, recordedNames_recorded]
    rcases h.launched c hc with hrec | hopen
    · exact .inl (List.mem_append_left _ hrec)
    · rcases hopened c hopen with rfl | hopen'
      · exact .inl (List.mem_append_right _ List.mem_cons_self)
      · exact .inr hopen'
  · intro c hc
    obtain ⟨hopen, hne⟩ := hopened' c hc
    exact (List.mem_erase_of_ne hne).mpr (h.opened c hopen)
  · intro r' hr'
    rw [hevents, launchedNames_recorded]
    rcases (hmem r').mp hr' with hold | rfl
    · exact (h.dropped r' hold).imp_right fun ⟨hst, hnot, hdrop⟩ ↦ ⟨hst, hnot, hmono _ hdrop⟩
    · exact hwhy.imp_right fun ⟨hst, hnot, hdrop⟩ ↦ ⟨hst, hnot, hmono _ hdrop⟩
  · rw [hevents]
    exact h.justified.concat trivial
  · exact hexit

/-- A wave is started. -/
theorem Inv.launch (h : s.Inv run rest []) {ready : List String} (hnodup : ready.Nodup)
    (hsub : ∀ c ∈ ready, c ∈ rest)
    (hdeps : ∀ c ∈ ready, ∀ d ∈ run.plan.dependenciesFor c, d ∈ s.succeeded) :
    (s.launch ready).Inv run rest ready := by
  have hmem : ∀ r, DagEvent.recorded r ∈ (s.launch ready).events ↔ .recorded r ∈ s.events := by
    intro r
    simp [DagState.launch]
  have hnames : launchedNames (s.launch ready).events = launchedNames s.events ++ ready :=
    launchedNames_launched s.events ready
  have hrecorded : recordedNames (s.launch ready).events = recordedNames s.events :=
    recordedNames_launched s.events ready
  have hold : ∀ c ∈ launchedNames s.events, c ∈ recordedNames s.events :=
    fun c hc ↦ (h.launched c hc).resolve_right List.not_mem_nil
  constructor
  · rw [hrecorded]
    exact h.perm
  · simp only [hmem]
    exact h.succeeded
  · simp only [hmem]
    exact h.failed
  · simp only [hmem]
    exact h.results
  · rw [hnames]
    refine h.nodup.append hnodup ?_
    intro c hc hnew
    exact h.not_recorded (hsub c hnew) (hold c hc)
  · intro c hc
    rw [hnames] at hc
    rw [hrecorded]
    exact (List.mem_append.mp hc).imp (hold c) id
  · exact hsub
  · intro r hr
    rw [hnames]
    refine (h.dropped r ((hmem r).mp hr)).imp (List.mem_append_left _) ?_
    rintro ⟨hst, hnot, hdrop⟩
    refine ⟨hst, ?_, hdrop⟩
    intro hin
    rcases List.mem_append.mp hin with hin | hnew
    · exact hnot hin
    · exact h.not_recorded (hsub _ hnew) (mem_recordedNames.mpr ⟨r, (hmem r).mp hr, rfl⟩)
  · refine h.justified.concat ?_
    intro c hc d hd
    exact (h.succeeded d).mp (hdeps c hc d hd)
  · exact h.exit

/-! ## Steps -/

/-- A Case has failed, and the result of one that is to be skipped cannot be built. -/
structure Refused (run : DagRun) (e : Raised O) : Prop where
  cause : ∃ c ∈ run.pendingNames, (∃ d ∈ run.plan.dependenciesFor c, d ∈ run.pendingNames) ∧
    ∃ config, e.1 = .config config ∧ run.skippedRequest c = .error config
  failed : e.2.failed ≠ []
  inv : ∃ rest, e.2.Inv run rest []

/-- A failed Case was to be run. -/
theorem Inv.failed_pending (h : s.Inv run rest opened) {c : String} (hc : c ∈ s.failed) :
    c ∈ run.pendingNames := by
  obtain ⟨r, hr, rfl, -⟩ := (h.failed c).mp hc
  exact h.perm.subset (List.mem_append_right _ (mem_recordedNames.mpr ⟨r, hr, rfl⟩))

/-- A Case that has not been recorded can be skipped, if its result can be built. -/
theorem Inv.skip (h : s.Inv run rest []) (hfailed : s.failed ≠ []) {c : String} (hc : c ∈ rest)
    (hdep : ∃ d ∈ run.plan.dependenciesFor c, d ∈ run.pendingNames)
    (kind message : String) (dependencies : List String) :
    Attempt.Ends (fun t ↦ ∃ r, r.caseName = c ∧ r.ok = false ∧ r.result.status = .skipped ∧
      t = s.retain r) (Refused run) (s.skip run c kind message dependencies) := by
  have hname : Attempt.Ends (fun request ↦ request.caseName = c) (fun _ ↦ True)
      (run.skippedRequest c) :=
    DagRun.skippedRequest_caseName c
  unfold DagState.skip DagRun.skippedResult
  cases hrequest : run.skippedRequest c with
  | error e => exact ⟨⟨c, h.mem_pendingNames hc, hdep, e, rfl, hrequest⟩, hfailed, rest, h⟩
  | ok request =>
      have hrname : request.caseName = c := by rwa [hrequest] at hname
      exact ⟨⟨request, _, _⟩, hrname, rfl, rfl, rfl⟩

/-- A Case that has not been recorded has not been started. -/
theorem Inv.not_launched (h : s.Inv run rest []) {c : String} (hc : c ∈ rest) :
    c ∉ launchedNames s.events :=
  fun hin ↦ h.not_recorded hc ((h.launched c hin).resolve_right List.not_mem_nil)

/-- A Case is recorded as skipped, and counts as failed. -/
theorem Inv.retain_skipped (h : s.Inv run rest []) {r : DagResult O} (hr : r.caseName ∈ rest)
    (hok : r.ok = false) (hstatus : r.result.status = .skipped)
    (hdrop : s.Dropped run r.caseName) (hevents : t.events = s.events ++ [.recorded r])
    (hresults : t.results = s.results.insert r.caseName r) (hsucceeded : t.succeeded = s.succeeded)
    (hfailed : t.failed = s.failed ++ [r.caseName]) (hexit : t.exitCode ≠ 0) :
    t.Inv run (rest.erase r.caseName) [] := by
  refine h.record hr (fun _ hc ↦ absurd hc List.not_mem_nil)
    (fun _ hc ↦ absurd hc List.not_mem_nil) hevents hresults ?_ ?_
    (.inr ⟨hstatus, h.not_launched hr, hdrop⟩) ?_
  · intro c
    simp [hsucceeded, hok]
  · intro c
    simp [hfailed, hok, eq_comm]
  · simp [hexit, hfailed]

/-- The main loop: the pending Cases are those not recorded, and once a Case has failed each of
them depends on one that was to be run. -/
structure Turn (run : DagRun) (s : DagState O) : Prop where
  inv : s.Inv run s.pending []
  dependent : s.failed ≠ [] → ∀ c ∈ s.pending, ∃ d ∈ run.plan.dependenciesFor c,
    d ∈ run.pendingNames

/-- A blocked Case is skipped. -/
theorem Turn.skipBlockedOne (h : s.Turn run) {c : String} (hc : c ∈ s.pending)
    (hblocked : ∃ d ∈ run.plan.dependenciesFor c, d ∈ s.failed) :
    Attempt.Ends (fun t ↦ t.Turn run ∧ t.pending = s.pending.erase c ∧ ∀ d ∈ s.failed, d ∈ t.failed)
      (Refused run) (s.skipBlockedOne run c) := by
  obtain ⟨d, hd, hfail⟩ := hblocked
  have hdep : ∃ d ∈ run.plan.dependenciesFor c, d ∈ run.pendingNames :=
    ⟨d, hd, h.inv.failed_pending hfail⟩
  refine (h.inv.skip (List.ne_nil_of_mem hfail) hc hdep _ _ _).bind ?_
  rintro t ⟨r, rfl, hok, hstatus, rfl⟩
  refine ⟨⟨?_, ?_⟩, rfl, fun d' hd' ↦ List.mem_append_left _ hd'⟩
  · exact h.inv.retain_skipped hc hok hstatus (.inl ⟨d, hd, hfail⟩) rfl rfl rfl rfl one_ne_zero
  · intro _ c' hc'
    exact h.dependent (List.ne_nil_of_mem hfail) c' (List.mem_of_mem_erase hc')

theorem mem_blocked {c : String} : c ∈ s.blocked run ↔ c ∈ run.plan.topologicalOrder ∧
    c ∈ s.pending ∧ ∃ d ∈ run.plan.dependenciesFor c, d ∈ s.failed := by
  simp [blocked, List.mem_filter]

theorem mem_ready {c : String} : c ∈ s.ready run ↔ c ∈ run.plan.topologicalOrder ∧
    c ∈ s.pending ∧ ∀ d ∈ run.plan.dependenciesFor c, d ∈ s.succeeded := by
  simp [ready, List.mem_filter]

theorem order_nodup (run : DagRun) : run.plan.topologicalOrder.Nodup :=
  run.valid.perm.nodup_iff.mpr run.valid.nodup

/-- Everything that is blocked is skipped, in as many turns as there are pending Cases. -/
theorem Turn.skipBlocked (n : ℕ) : ∀ s : DagState O, s.Turn run → s.pending.length < n →
    Attempt.Ends (fun t ↦ t.Turn run ∧ t.blocked run = [] ∧ t.pending.length ≤ s.pending.length)
      (Refused run) (DagState.skipBlocked run n s) := by
  induction n with
  | zero => exact fun s _ hn ↦ absurd hn (Nat.not_lt_zero _)
  | succ n ih =>
      intro s h hn
      rw [DagState.skipBlocked]
      split_ifs with hnone
      · exact ⟨h, hnone, le_rfl⟩
      · have hloop : Attempt.Ends
            (fun t : DagState O ↦ t.Turn run ∧ t.pending.length + (s.blocked run).length =
              s.pending.length) (Refused run)
            ((s.blocked run).foldlM (fun t name ↦ t.skipBlockedOne run name) s) := by
          refine (Attempt.Ends.foldlM (I := fun l t ↦ t.Turn run ∧ l.Nodup ∧
            (∀ c ∈ l, c ∈ t.pending ∧ ∃ d ∈ run.plan.dependenciesFor c, d ∈ t.failed) ∧
            t.pending.length + (s.blocked run).length = s.pending.length + l.length)
            ?_ ?_).mono (fun t ht ↦ ⟨ht.1, ht.2.2.2⟩) fun _ he ↦ he
          · refine ⟨h, (order_nodup run).filter _, fun c hc ↦ (mem_blocked.mp hc).2, rfl⟩
          · rintro c l t ⟨ht, hnodup, hall, hlen⟩
            obtain ⟨hpending, hdep⟩ := hall c List.mem_cons_self
            refine (ht.skipBlockedOne hpending hdep).mono ?_ fun _ he ↦ he
            rintro u ⟨hu, hupending, hfailed⟩
            obtain ⟨hfresh, hnodup'⟩ := List.nodup_cons.mp hnodup
            refine ⟨hu, hnodup', ?_, ?_⟩
            · intro c' hc'
              obtain ⟨hpending', d, hd, hfail⟩ := hall c' (List.mem_cons_of_mem _ hc')
              have hne : c' ≠ c := fun heq ↦ hfresh (heq ▸ hc')
              refine ⟨?_, d, hd, hfailed d hfail⟩
              rw [hupending]
              exact (List.mem_erase_of_ne hne).mpr hpending'
            · have hpos := List.length_pos_of_mem hpending
              rw [hupending, List.length_erase_of_mem hpending]
              rw [List.length_cons] at hlen
              omega
        have hpos : 0 < (s.blocked run).length := List.length_pos_of_ne_nil hnone
        refine hloop.bind ?_
        rintro t ⟨ht, hlen⟩
        refine (ih t ht (by omega)).mono ?_ fun _ he ↦ he
        rintro u ⟨hu, hblocked, hle⟩
        exact ⟨hu, hblocked, by omega⟩

/-- Under fail-fast the rest is skipped. -/
theorem Turn.skipRest (h : s.Turn run) (hfailed : s.failed ≠ []) (hfast : run.stage.failFast) :
    Attempt.Ends (fun t ↦ t.Inv run [] []) (Refused run) (s.skipRest run) := by
  have hperm : (run.plan.topologicalOrder.filter (· ∈ s.pending)).Perm s.pending := by
    have hnodup := (List.nodup_append.mp h.inv.nodup_all).1
    refine (List.perm_ext_iff_of_nodup ((order_nodup run).filter _) hnodup).mpr fun c ↦ ?_
    rw [List.mem_filter, decide_eq_true_iff]
    exact and_iff_right_of_imp fun hc ↦ DagRun.mem_order (h.inv.mem_pendingNames hc)
  have hloop : Attempt.Ends (fun t : DagState O ↦ t.Inv run [] [] ∧ t.failed ≠ []) (Refused run)
      (run.plan.topologicalOrder.foldlM (fun t name ↦ t.skipRestOne run name) s) := by
    refine (Attempt.Ends.foldlM (I := fun l t ↦ t.Inv run (l.filter (· ∈ s.pending)) [] ∧
      t.pending = s.pending ∧ t.failed ≠ [] ∧ l.Nodup) ?_ ?_).mono
      (fun t ht ↦ ⟨ht.1, ht.2.2.1⟩) fun _ he ↦ he
    · exact ⟨h.inv.of_perm hperm, rfl, hfailed, order_nodup run⟩
    · rintro c l t ⟨ht, hpending, htfailed, hnodup⟩
      obtain ⟨hfresh, hnodup'⟩ := List.nodup_cons.mp hnodup
      unfold skipRestOne
      rw [hpending]
      split_ifs with hc
      · have hfilter : (c :: l).filter (· ∈ s.pending) = c :: l.filter (· ∈ s.pending) := by
          simp [hc]
        rw [hfilter] at ht
        refine (ht.skip htfailed List.mem_cons_self (h.dependent hfailed c hc) _ _ _).bind ?_
        rintro u ⟨r, rfl, hok, hstatus, rfl⟩
        have hnext := ht.retain_skipped (t := { t.retain r with failed := t.failed ++ [r.caseName] })
          List.mem_cons_self hok hstatus (.inr hfast) rfl rfl rfl rfl (ht.exit.mpr htfailed)
        rw [List.erase_cons_head] at hnext
        exact ⟨hnext, hpending, by simp, hnodup'⟩
      · have hfilter : (c :: l).filter (· ∈ s.pending) = l.filter (· ∈ s.pending) := by
          simp [hc]
        rw [hfilter] at ht
        exact ⟨ht, hpending, htfailed, hnodup'⟩
  refine hloop.bind ?_
  rintro t ⟨ht, htfailed⟩
  exact ht.congr rfl rfl rfl rfl (by simpa using htfailed)

/-! ## Waves -/

theorem orCode_ne_zero {a b : ℤ} : orCode a b ≠ 0 ↔ a ≠ 0 ∨ b ≠ 0 := by
  unfold orCode
  split_ifs with h
  · simp [h]
  · rw [not_not.mp h]
    simp

/-- The result of a Case of the wave is found among the results. -/
theorem find_result {results : List (DagResult O)} {ready : List String} {c : String}
    (hperm : (results.map DagResult.caseName).Perm ready) (hc : c ∈ ready) :
    ∃ r ∈ results, r.caseName = c ∧
      results.reverse.find? (fun r ↦ decide (r.caseName = c)) = some r := by
  obtain ⟨r, hr, hname⟩ := List.mem_map.mp (hperm.mem_iff.mpr hc)
  cases hfind : results.reverse.find? (fun r ↦ decide (r.caseName = c)) with
  | none =>
      have hnot := List.find?_eq_none.mp hfind r (List.mem_reverse.mpr hr)
      exact absurd (decide_eq_true hname) hnot
  | some r' =>
      have hsame := List.find?_some hfind
      exact ⟨r', List.mem_reverse.mp (List.mem_of_find?_eq_some hfind),
        of_decide_eq_true hsame, rfl⟩

/-- The result of a started Case is taken over. -/
theorem Inv.takeResult {c : String} {l : List String} (h : s.Inv run s.pending (c :: l))
    (hl : (c :: l).Nodup) (hlaunched : c ∈ launchedNames s.events)
    {results : List (DagResult O)} {r : DagResult O} (hname : r.caseName = c)
    (hfind : results.reverse.find? (fun r ↦ decide (r.caseName = c)) = some r) :
    Attempt.Ends (fun t ↦ t.Inv run t.pending l ∧ t.pending = s.pending.erase c ∧
      t.events = s.events ++ [.recorded r] ∧ t.succeeded ⊇ s.succeeded) (Refused run)
      (s.takeResult results c) := by
  subst hname
  obtain ⟨hfresh, -⟩ := List.nodup_cons.mp hl
  have hr : r.caseName ∈ s.pending := h.opened _ List.mem_cons_self
  have hopened : ∀ c ∈ r.caseName :: l, c = r.caseName ∨ c ∈ l := fun c hc ↦ List.mem_cons.mp hc
  have hopened' : ∀ c ∈ l, c ∈ r.caseName :: l ∧ c ≠ r.caseName :=
    fun c hc ↦ ⟨List.mem_cons_of_mem _ hc, fun heq ↦ hfresh (heq ▸ hc)⟩
  rw [DagState.takeResult, hfind]
  dsimp only
  cases hok : r.ok with
  | true =>
      refine ⟨h.record hr hopened hopened' rfl rfl ?_ ?_ (.inl hlaunched) h.exit, rfl, rfl, ?_⟩
      · intro c
        simp [retain, hok, eq_comm]
      · intro c
        simp [retain, hok]
      · exact List.subset_append_left _ _
  | false =>
      refine ⟨h.record hr hopened hopened' rfl rfl ?_ ?_ (.inl hlaunched) ?_, rfl, rfl, ?_⟩
      · intro c
        simp [retain, hok]
      · intro c
        simp [retain, hok, eq_comm]
      · have hone : orCode s.exitCode (orCode r.result.exitCode 1) ≠ 0 :=
          orCode_ne_zero.mpr (.inr (orCode_ne_zero.mpr (.inr one_ne_zero)))
        simpa [retain] using hone
      · exact List.Subset.refl _

/-- The artifacts of the wave are entered, which changes nothing else. -/
theorem takeArtifacts_spec (a : String × FormalArtifacts) (s : DagState O) :
    Attempt.Ends (fun t ↦ ∃ artifacts working, t = { s with artifacts, working })
      (Refused run) (s.takeArtifacts run a) := by
  obtain ⟨working, hworking⟩ :=
    s.working.registerCaseArtifacts_ok run.plan.stageName a.1 a.2
  rw [DagState.takeArtifacts, hworking]
  exact ⟨s.artifacts ++ [a], working, rfl⟩

/-- There is a Case that can be run, if nothing is blocked. -/
theorem Turn.ready_ne_nil (h : s.Turn run) (hpending : s.pending ≠ [])
    (hblocked : s.blocked run = []) : s.ready run ≠ [] := by
  have hsub : ∀ c ∈ s.pending, c ∈ run.plan.topologicalOrder :=
    fun c hc ↦ DagRun.mem_order (h.inv.mem_pendingNames hc)
  obtain ⟨c, hc, hfree⟩ := run.valid.ordered.exists_source hpending hsub
  refine List.ne_nil_of_mem (mem_ready.mpr ⟨hsub c hc, hc, fun d hd ↦ ?_⟩)
  rcases DagRun.dependency_cases (h.inv.mem_pendingNames hc) hd with hres | hpend
  · exact (h.inv.succeeded d).mpr (.inl hres)
  · -- It has been recorded, and has not failed.
    have hrec := (List.mem_append.mp (h.inv.perm.mem_iff.mpr hpend)).resolve_left (hfree d hd)
    obtain ⟨r, hr, hname⟩ := mem_recordedNames.mp hrec
    cases hok : r.ok with
    | true => exact (h.inv.succeeded d).mpr (.inr ⟨r, hr, hname, hok⟩)
    | false =>
        have hfail := (h.inv.failed d).mpr ⟨r, hr, hname, hok⟩
        have hmem := mem_blocked.mpr ⟨hsub c hc, hc, d, hd, hfail⟩
        rw [hblocked] at hmem
        exact absurd hmem List.not_mem_nil

/-- A wave records the results of its Cases. -/
theorem Turn.wave (h : s.Turn run) (executor : ParallelStage O) (hpending : s.pending ≠ [])
    (hblocked : s.blocked run = []) :
    Attempt.Ends (fun t ↦ t.Turn run ∧ t.pending.length < s.pending.length) (Refused run)
      (s.wave run executor) := by
  have hready := h.ready_ne_nil hpending hblocked
  have hnodup : (s.ready run).Nodup := (order_nodup run).filter _
  have hlaunch := h.inv.launch hnodup (fun c hc ↦ (mem_ready.mp hc).2.1)
    fun c hc ↦ (mem_ready.mp hc).2.2
  have hperm : ((s.outcomeOf run executor (s.ready run)).1.map DagResult.caseName).Perm
      (s.ready run) := executor.oneEach _ _ _
  have hcode : (s.outcomeOf run executor (s.ready run)).2.2 ≠ 0 →
      ∃ r ∈ (s.outcomeOf run executor (s.ready run)).1, r.ok = false := executor.exitCode _ _ _
  rw [DagState.wave, if_neg hready]
  dsimp only
  have huniq : ∀ r ∈ (s.outcomeOf run executor (s.ready run)).1,
      ∀ r' ∈ (s.outcomeOf run executor (s.ready run)).1, r.caseName = r'.caseName → r = r' :=
    fun r hr r' hr' ↦ List.inj_on_of_nodup_map (hperm.nodup_iff.mpr hnodup) hr hr'
  generalize houtcome : s.outcomeOf run executor (s.ready run) = outcome at *
  -- What is left of the wave has been started and is pending; the rest of it is recorded.
  have hresults : Attempt.Ends
      (fun t : DagState O ↦ t.Inv run t.pending [] ∧
        t.pending.length + (s.ready run).length = s.pending.length ∧
        (∀ r ∈ outcome.1, .recorded r ∈ t.events) ∧ (∀ c ∈ t.pending, c ∈ s.pending ∧
          c ∉ s.ready run)) (Refused run)
      ((s.ready run).foldlM (fun (t : DagState O) name ↦ t.takeResult outcome.1 name)
        (s.launch (s.ready run))) := by
    refine (Attempt.Ends.foldlM (I := fun l t ↦ t.Inv run t.pending l ∧ l.Nodup ∧
      (∀ c ∈ l, c ∈ s.ready run ∧ c ∈ launchedNames t.events) ∧
      t.pending.length + (s.ready run).length = s.pending.length + l.length ∧
      (∀ r ∈ outcome.1, r.caseName ∉ l → .recorded r ∈ t.events) ∧
      (∀ c ∈ t.pending, c ∈ s.pending ∧ (c ∈ s.ready run → c ∈ l))) ?_ ?_).mono ?_ fun _ he ↦ he
    · refine ⟨hlaunch, hnodup, fun c hc ↦ ⟨hc, ?_⟩, rfl, fun r hr hnot ↦ ?_, fun c hc ↦ ⟨hc, id⟩⟩
      · exact (launchedNames_launched s.events (s.ready run)).symm ▸ List.mem_append_right _ hc
      · exact absurd (hperm.mem_iff.mp (List.mem_map_of_mem hr)) hnot
    · rintro c l t ⟨ht, hl, hall, hlen, hrecorded, hleft⟩
      obtain ⟨hcready, hclaunched⟩ := hall c List.mem_cons_self
      obtain ⟨r, hr, hname, hfind⟩ := find_result hperm hcready
      obtain ⟨hfresh, hl'⟩ := List.nodup_cons.mp hl
      refine (ht.takeResult hl hclaunched hname hfind).mono ?_ fun _ he ↦ he
      rintro u ⟨hu, hupending, huevents, -⟩
      have hcpending : c ∈ t.pending := ht.opened c List.mem_cons_self
      refine ⟨hu, hl', fun c' hc' ↦ ?_, ?_, fun r' hr' hnot ↦ ?_, fun c' hc' ↦ ?_⟩
      · obtain ⟨h1, h2⟩ := hall c' (List.mem_cons_of_mem _ hc')
        refine ⟨h1, ?_⟩
        rwa [huevents, launchedNames_recorded]
      · have hpos := List.length_pos_of_mem hcpending
        rw [hupending, List.length_erase_of_mem hcpending]
        rw [List.length_cons] at hlen
        omega
      · rw [huevents]
        by_cases hsame : r'.caseName = c
        · obtain rfl := huniq r' hr' r hr (hsame.trans hname.symm)
          exact List.mem_append_right _ List.mem_cons_self
        · exact List.mem_append_left _ (hrecorded r' hr' fun hin ↦
            (List.mem_cons.mp hin).elim hsame hnot)
      · rw [hupending] at hc'
        have hpnodup := (List.nodup_append.mp ht.nodup_all).1
        obtain ⟨hne, hc'⟩ := hpnodup.mem_erase_iff.mp hc'
        obtain ⟨h1, h2⟩ := hleft c' hc'
        exact ⟨h1, fun hin ↦ (List.mem_cons.mp (h2 hin)).resolve_left hne⟩
    · rintro t ⟨ht, -, -, hlen, hrecorded, hleft⟩
      refine ⟨ht, hlen, fun r hr ↦ hrecorded r hr List.not_mem_nil, fun c hc ↦ ⟨(hleft c hc).1, ?_⟩⟩
      exact fun hin ↦ absurd ((hleft c hc).2 hin) List.not_mem_nil
  refine hresults.bind ?_
  rintro t ⟨ht, hlen, hrecorded, hleft⟩
  have hartifacts : Attempt.Ends
      (fun u ↦ ∃ artifacts working, u = { t with artifacts, working }) (Refused run)
      (outcome.2.1.foldlM (fun (t : DagState O) a ↦ t.takeArtifacts run a) t) := by
    refine Attempt.Ends.foldlM
      (I := fun _ (u : DagState O) ↦ ∃ artifacts working, u = { t with artifacts, working }) ?_ ?_
    · exact ⟨t.artifacts, t.working, rfl⟩
    · rintro a l u ⟨artifacts, working, rfl⟩
      refine (takeArtifacts_spec a _).mono ?_ fun _ he ↦ he
      rintro v ⟨artifacts', working', rfl⟩
      exact ⟨artifacts', working', rfl⟩
  refine hartifacts.bind ?_
  rintro u ⟨artifacts, working, rfl⟩
  refine ⟨⟨?_, ?_⟩, ?_⟩
  · refine ht.congr rfl rfl rfl rfl ?_
    rw [orCode_ne_zero]
    refine ⟨fun hne ↦ hne.elim ht.exit.mp fun hne ↦ ?_, fun hne ↦ .inl (ht.exit.mpr hne)⟩
    obtain ⟨r, hr, hok⟩ := hcode hne
    exact List.ne_nil_of_mem ((ht.failed _).mpr ⟨r, hrecorded r hr, rfl, hok⟩)
  · -- A Case left over was not ready: it waits for one that has not succeeded before.
    intro _ c hc
    obtain ⟨hcpending, hnot⟩ := hleft c hc
    have hcases := h.inv.mem_pendingNames hcpending
    by_contra hnone
    push Not at hnone
    refine hnot (mem_ready.mpr ⟨DagRun.mem_order hcases, hcpending, fun d hd ↦ ?_⟩)
    have hres := (DagRun.dependency_cases hcases hd).resolve_right (hnone d hd)
    exact (h.inv.succeeded d).mpr (.inl hres)
  · have hpos : 0 < (s.ready run).length := List.length_pos_of_ne_nil hready
    show t.pending.length < s.pending.length
    omega

/-- The main loop ends with every pending Case recorded, unless a skipped Case is refused. -/
theorem Turn.loop (executor : ParallelStage O) (n : ℕ) : ∀ s : DagState O, s.Turn run →
    s.pending.length < n →
    Attempt.Ends (fun t ↦ t.Inv run [] []) (Refused run) (DagState.loop run executor n s) := by
  induction n with
  | zero => exact fun s _ hn ↦ absurd hn (Nat.not_lt_zero _)
  | succ n ih =>
      intro s h hn
      rw [DagState.loop]
      split_ifs with hpending
      · exact hpending ▸ h.inv
      · refine (Turn.skipBlocked _ s h (Nat.lt_succ_self _)).bind ?_
        rintro t ⟨ht, hblocked, hle⟩
        split_ifs with hdone hfast
        · exact hdone ▸ ht.inv
        · exact ht.skipRest hfast.1 hfast.2
        · refine (ht.wave executor hdone hblocked).bind ?_
          rintro u ⟨hu, hlt⟩
          exact ih u hu (by omega)

theorem turn_start (registries : ArtifactRegistries) :
    (run.start registries : DagState O).Turn run :=
  ⟨inv_start registries, fun hne ↦ absurd rfl hne⟩

end DagState

/-! ## Exactness -/

/-- A Case that is to be run depends on another one. -/
def DagRun.PendingDependency (run : DagRun) (c d : String) : Prop :=
  c ∈ run.pendingNames ∧ d ∈ run.plan.dependenciesFor c ∧ d ∈ run.pendingNames

/-- The log records that a Case is not ok. -/
def Failed (events : List (DagEvent O)) (c : String) : Prop :=
  ∃ r, .recorded r ∈ events ∧ r.caseName = c ∧ r.ok = false

/-- The log records a Case as skipped, and does not start it. -/
def Skipped (events : List (DagEvent O)) (c : String) : Prop :=
  (∃ r, .recorded r ∈ events ∧ r.caseName = c ∧ r.result.status = .skipped) ∧
    c ∉ launchedNames events

/-- A Case is started once, and behind the results of what it depends on. -/
structure Ordered (run : DagRun) (events : List (DagEvent O)) : Prop where
  once : (launchedNames events).Nodup
  pending : ∀ c ∈ launchedNames events, c ∈ run.pendingNames
  after : Log.Justified run.Causal events

/-- What the execution of a DAG Stage owes its caller. -/
structure Exact (run : DagRun) (out : DagOutcome O) : Prop where
  ordered : Ordered run out.events
  /-- Every pending Case is recorded once. -/
  recorded : (recordedNames out.events).Perm run.pendingNames
  /-- The results are returned in the order of the plan. -/
  results : out.results.map DagResult.caseName = run.pendingNames
  returned : ∀ r, r ∈ out.results ↔ .recorded r ∈ out.events
  skipped : ∀ c d, Relation.TransGen run.PendingDependency c d → Failed out.events d →
    Skipped out.events c
  launched : run.stage.failFast = false → ∀ c ∈ run.pendingNames,
    (∀ d, Relation.TransGen run.PendingDependency c d → ¬ Failed out.events d) →
      c ∈ launchedNames out.events
  exitCode : out.exitCode ≠ 0 ↔ ∃ r ∈ out.results, r.ok = false

namespace DagState

variable {rest : List String} {s : DagState O}

theorem Inv.launchedNames_pending (h : s.Inv run rest []) :
    ∀ c ∈ launchedNames s.events, c ∈ run.pendingNames := by
  intro c hc
  have hrec := (h.launched c hc).resolve_right List.not_mem_nil
  exact h.perm.subset (List.mem_append_right _ hrec)

theorem Inv.toOrdered (h : s.Inv run rest []) : Ordered run s.events where
  once := h.nodup
  pending := h.launchedNames_pending
  after := h.justified

/-- A Case has one result. -/
theorem Inv.result_unique (h : s.Inv run rest []) {r r' : DagResult O}
    (hr : .recorded r ∈ s.events) (hr' : .recorded r' ∈ s.events)
    (hname : r.caseName = r'.caseName) : r = r' := by
  have hlookup := (h.results r.caseName r).mpr ⟨hr, rfl⟩
  rw [hname, (h.results r'.caseName r').mpr ⟨hr', rfl⟩] at hlookup
  exact (Option.some.inj hlookup).symm

/-- A Case that was started has dependencies that succeeded. -/
theorem Inv.succeeded_of_launched (h : s.Inv run rest []) {c d : String}
    (hc : c ∈ launchedNames s.events) (hd : d ∈ run.plan.dependenciesFor c) :
    d ∈ run.resumed ∨ ∃ r, .recorded r ∈ s.events ∧ r.caseName = d ∧ r.ok = true := by
  obtain ⟨e, he, hin⟩ := List.mem_flatMap.mp hc
  cases e with
  | recorded r => cases hin
  | launched ready =>
      obtain ⟨before, after, hsplit⟩ := List.append_of_mem he
      refine (h.justified before _ after hsplit c hin d hd).imp_right ?_
      rintro ⟨r, hr, hname, hok⟩
      refine ⟨r, ?_, hname, hok⟩
      rw [hsplit]
      exact List.mem_append_left _ hr

/-- What depends on a failed Case is skipped, and has failed itself. -/
theorem Inv.skipped_of_dependency (h : s.Inv run [] []) {c d : String}
    (hdep : run.PendingDependency c d) (hfail : Failed s.events d) :
    Skipped s.events c ∧ Failed s.events c := by
  obtain ⟨hc, hd, hdpend⟩ := hdep
  obtain ⟨r, hr, hrname⟩ := mem_recordedNames.mp (h.perm.mem_iff.mpr hc)
  have hnot : c ∉ launchedNames s.events := by
    intro hlaunched
    rcases h.succeeded_of_launched hlaunched hd with hres | ⟨r', hr', hname', hok'⟩
    · exact (DagRun.mem_pendingNames.mp hdpend).2 hres
    · obtain ⟨r'', hr'', hname'', hok''⟩ := hfail
      obtain rfl := h.result_unique hr' hr'' (hname'.trans hname''.symm)
      exact absurd hok' (by simp [hok''])
  subst hrname
  obtain ⟨hstatus, -, -⟩ := (h.dropped r hr).resolve_left hnot
  refine ⟨⟨⟨r, hr, rfl, hstatus⟩, hnot⟩, r, hr, rfl, ?_⟩
  simp [DagResult.ok, CaseRunResult.ok, hstatus, CaseRunStatus.success]

/-- The same, through Cases that are to be run. -/
theorem Inv.skipped (h : s.Inv run [] []) {c d : String}
    (hdep : Relation.TransGen run.PendingDependency c d) (hfail : Failed s.events d) :
    Skipped s.events c ∧ Failed s.events c := by
  induction hdep using Relation.TransGen.head_induction_on with
  | single hstep => exact h.skipped_of_dependency hstep hfail
  | head hstep _ ih => exact h.skipped_of_dependency hstep ih.2

/-- Without fail-fast nothing else is skipped. -/
theorem Inv.launched_of_free (h : s.Inv run [] []) (hfast : run.stage.failFast = false)
    {c : String} (hc : c ∈ run.pendingNames)
    (hfree : ∀ d, Relation.TransGen run.PendingDependency c d → ¬ Failed s.events d) :
    c ∈ launchedNames s.events := by
  obtain ⟨r, hr, rfl⟩ := mem_recordedNames.mp (h.perm.mem_iff.mpr hc)
  refine (h.dropped r hr).resolve_right ?_
  rintro ⟨-, -, ⟨d, hd, hfail⟩ | hfast'⟩
  · exact hfree d (.single ⟨hc, hd, h.failed_pending hfail⟩) ((h.failed d).mp hfail)
  · exact absurd hfast' (by simp [hfast])

/-- The results that are returned. -/
theorem Inv.returned (h : s.Inv run [] []) (r : DagResult O) :
    r ∈ run.plan.cases.filterMap s.results.lookup ↔ .recorded r ∈ s.events := by
  rw [List.mem_filterMap]
  constructor
  · rintro ⟨c, -, hc⟩
    exact ((h.results c r).mp hc).1
  · intro hr
    have hrec := h.perm.subset (mem_recordedNames.mpr ⟨r, hr, rfl⟩)
    exact ⟨r.caseName, (DagRun.mem_pendingNames.mp hrec).1, (h.results _ r).mpr ⟨hr, rfl⟩⟩

/-- They stand in the order of the plan. -/
theorem Inv.returned_names (h : s.Inv run [] []) :
    (run.plan.cases.filterMap s.results.lookup).map DagResult.caseName = run.pendingNames := by
  have hone : ∀ c, (s.results.lookup c).map DagResult.caseName =
      if c ∈ run.pendingNames then some c else none := by
    intro c
    split_ifs with hc
    · obtain ⟨r, hr, hname⟩ := mem_recordedNames.mp (h.perm.mem_iff.mpr hc)
      rw [(h.results c r).mpr ⟨hr, hname⟩, Option.map_some, hname]
    · cases hlookup : s.results.lookup c with
      | none => rfl
      | some r =>
          obtain ⟨hr, hname⟩ := (h.results c r).mp hlookup
          exact absurd (h.perm.subset (mem_recordedNames.mpr ⟨r, hr, hname⟩)) hc
  rw [List.map_filterMap]
  simp only [hone]
  rw [DagRun.pendingNames, ← List.filterMap_eq_filter]
  refine List.filterMap_congr fun c hc ↦ ?_
  simp [Option.guard, hc]

theorem Inv.toExact (h : s.Inv run [] []) :
    Exact run ⟨run.plan.cases.filterMap s.results.lookup, s.artifacts, s.exitCode, s.events⟩ where
  ordered := h.toOrdered
  recorded := h.perm
  results := h.returned_names
  returned := h.returned
  skipped _ _ hdep hfail := (h.skipped hdep hfail).1
  launched hfast _ hc hfree := h.launched_of_free hfast hc hfree
  exitCode := by
    rw [h.exit]
    constructor
    · intro hne
      obtain ⟨c, hc⟩ := List.exists_mem_of_ne_nil _ hne
      obtain ⟨r, hr, -, hok⟩ := (h.failed c).mp hc
      exact ⟨r, (h.returned r).mpr hr, hok⟩
    · rintro ⟨r, hr, hok⟩
      exact List.ne_nil_of_mem ((h.failed _).mpr ⟨r, (h.returned r).mp hr, rfl, hok⟩)

end DagState

/-- The result of a pending Case that would be skipped cannot be built. -/
structure DagRefused (run : DagRun) (e : DagState.Raised O) : Prop where
  ordered : Ordered run e.2.events
  failed : ∃ c, Failed e.2.events c
  cause : ∃ c ∈ run.pendingNames, (∃ d, run.PendingDependency c d) ∧
    ∃ config, e.1 = .config config ∧ run.skippedRequest c = .error config

/-- The execution of a DAG Stage is exact, unless it ends on a Case that cannot be described as
skipped. -/
theorem executeDagStage_exact (run : DagRun) (executor : ParallelStage O)
    (registries : ArtifactRegistries) :
    Attempt.Ends (Exact run) (DagRefused run) (run.executeDagStage executor registries) := by
  have hloop := DagState.Turn.loop executor (run.pendingNames.length + 1) _
    (DagState.turn_start registries) (Nat.lt_succ_self _)
  refine (hloop.mono (fun _ h ↦ h) ?_).bind fun s hs ↦ hs.toExact
  rintro e ⟨⟨c, hc, ⟨d, hd, hdpend⟩, hconfig⟩, hfailed, rest, hinv⟩
  refine ⟨hinv.toOrdered, ?_, c, hc, ⟨d, hc, hd, hdpend⟩, hconfig⟩
  obtain ⟨b, hb⟩ := List.exists_mem_of_ne_nil _ hfailed
  exact ⟨b, (hinv.failed b).mp hb⟩

/-! ## A resumed Case in between, and a Case that cannot be described -/

/-- A list of texts. -/
def textSeq (names : List String) : ConfigValue := .seq "[…]" (names.map .text)

/-- A mapping from names. -/
def named (items : List (String × ConfigValue)) : ConfigValue :=
  .mapping "{…}" (items.map fun e ↦ (⟨e.1, true⟩, e.2))

/-- A chain of three Cases; a failure does not stop the Stage. -/
def chainStage : Stage where
  name := some (.text "train")
  cases := some (textSeq ["a", "b", "c"])
  dependsOn := some (named [("b", textSeq ["a"]), ("c", textSeq ["b"])])
  failurePolicy := some (.text "continue")

def chainPlan : DagStagePlan where
  stageName := "train"
  cases := ["a", "b", "c"]
  dependencies := [("a", []), ("b", ["a"]), ("c", ["b"])]
  explicitDependencies := [("a", []), ("b", ["a"]), ("c", ["b"])]
  inferredDependencies := [("a", []), ("b", []), ("c", [])]
  topologicalOrder := ["a", "b", "c"]

theorem chain_planned : DagStagePlan.fromStage chainStage = .ok chainPlan := by decide +kernel


/-- The middle Case has been resumed. -/
def resumedMiddle : DagRun where
  stage := chainStage
  plan := chainPlan
  planned := chain_planned
  projectName := "project"
  executionRunId := "run"
  markers _ := none
  resumed := ["b"]
  resumed_mem := by decide

/-- The overrides of the middle Case are no mapping. -/
def brokenMiddle : DagRun where
  stage := { chainStage with componentOverrides := some (named [("b", .atom "5" true true)]) }
  plan := chainPlan
  planned := chain_planned
  projectName := "project"
  executionRunId := "run"
  markers _ := none
  resumed := []
  resumed_mem _ h := absurd h List.not_mem_nil

/-- What a started Case ends with. -/
def DagRun.endOf (run : DagRun) (bad : List String) (caseName : String) : DagResult Unit where
  request := {
    projectName := run.projectName
    stageName := run.plan.stageName
    caseName := caseName
    caseKind := "solver"
    mode := "build"
    identity := caseIdentity run.executionRunId run.plan.stageName caseName
    componentOverrides := []
    dag := run.plan.requestMetadata caseName
    declaredInputArtifacts := [] }
  result :=
    if caseName ∈ bad then ⟨.failed, 1, some ⟨"RuntimeError", "failed", "execute"⟩, none⟩
    else ⟨.succeeded, 0, none, none⟩
  dependencies := []

/-- An executor under which some Cases fail. -/
def DagRun.failing (run : DagRun) (bad : List String) : ParallelStage Unit where
  run ready _ _ := (ready.map (run.endOf bad), [], if ready.any (· ∈ bad) then 1 else 0)
  oneEach ready _ _ := by
    rw [List.map_map]
    exact .of_eq (List.map_id _)
  exitCode ready _ _ h := by
    have hany : ready.any (· ∈ bad) = true := by
      by_contra hnot
      exact h (if_neg hnot)
    obtain ⟨c, hc, hbad⟩ := List.any_eq_true.mp hany
    refine ⟨_, List.mem_map_of_mem hc, ?_⟩
    simp [DagRun.endOf, DagResult.ok, CaseRunResult.ok, of_decide_eq_true hbad,
      CaseRunStatus.success]

/-- A Case runs though one it depends on transitively has failed, and a Case whose skipped result
cannot be built is not recorded. -/
theorem dag_not_exact :
    (∃ out, resumedMiddle.executeDagStage (resumedMiddle.failing ["a"]) ⟨∅, ∅⟩ = .ok out ∧
      "b" ∈ chainPlan.dependenciesFor "c" ∧ "a" ∈ chainPlan.dependenciesFor "b" ∧
      Failed out.events "a" ∧ "c" ∈ launchedNames out.events) ∧
    ∃ e, brokenMiddle.executeDagStage (brokenMiddle.failing ["a"]) ⟨∅, ∅⟩ = .error e ∧
      "b" ∈ brokenMiddle.pendingNames ∧ "b" ∉ recordedNames e.2.events := by
  constructor
  · let a := resumedMiddle.endOf ["a"] "a"
    let c := resumedMiddle.endOf ["a"] "c"
    refine ⟨⟨[a, c], [], 1, [.launched ["a", "c"], .recorded a, .recorded c]⟩, rfl, ?_, ?_, ?_, ?_⟩
    · decide
    · decide
    · exact ⟨a, List.mem_cons_of_mem _ List.mem_cons_self, rfl, rfl⟩
    · decide
  · refine ⟨_, rfl, ?_, ?_⟩
    · decide
    · decide

end Blackbase.Project

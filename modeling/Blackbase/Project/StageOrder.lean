import Blackbase.Project.CaseStageTermination
import Blackbase.Project.StageArtifacts

/-!
# The order in which children complete

A parallel stage that goes on after a failure collects the results of its children as they
complete, in batches and in any order.  If the result of each child is a function of its request,
the stage ends with what invoking the calls one after the other would have given: the collecting
loop never cancels a sibling, so that the result of a call is the one its child has returned, and
the artifacts are merged after the loop, in declaration order.
-/

universe u v

namespace Blackbase.Project.Stages

open Resources

/-! ## The collecting loop without a failure policy -/

section Control

variable {c : StageConfig} {s t : StageState} {l : StageLabel}

/-- The collector has no sibling to cancel, and marks no result. -/
structure Calm (s : StageState) : Prop where
  keeps : ∀ siblings batch, s.collector ≠ .cancelling siblings batch
  stopped : s.stopped = false
  deadline : s.deadline = false
  overdue : s.cancellationOverdue = []
  marks : ∀ i r, s.results i = some r → r.overdue = false

theorem calm_initial (c : StageConfig) : Calm (.initial c) where
  keeps := by intro siblings batch h; cases h
  stopped := rfl
  deadline := rfl
  overdue := rfl
  marks := by intro i r h; cases h

theorem Calm.checkDeadline (h : Calm s) (late : Bool) : s.checkDeadline late = s := by
  rw [StageState.checkDeadline, h.deadline]
  rfl

theorem Calm.sparesQueue (h : Calm s) (hstep : s.step c l = some t) : s.SparesQueue l := by
  cases l with
  | cancel sibling =>
      simp only [StageState.step] at hstep
      split at hstep
      · next siblings batch hcollector => exact absurd hcollector (h.keeps siblings batch)
      · cases hstep
  | _ => trivial

theorem Calm.step (h : Calm s) (hcontinue : c.failFast = false) (hstep : s.step c l = some t) :
    Calm t := by
  have hwith : ∀ (view : ExecutorView ChildOutcome), Calm { s with view := view } :=
    fun view ↦ ⟨h.keeps, h.stopped, h.deadline, h.overdue, h.marks⟩
  cases l with
  | submit =>
      simp only [StageState.step] at hstep
      split at hstep
      · next hcollector =>
          split_ifs at hstep
          · obtain rfl := Option.some.inj hstep
            exact ⟨h.keeps, h.stopped, h.deadline, h.overdue, h.marks⟩
          · obtain rfl := Option.some.inj hstep
            exact ⟨(by intro _ _ h; cases h), h.stopped, h.deadline, h.overdue, h.marks⟩
      · cases hstep
  | idle late =>
      simp only [StageState.step, h.checkDeadline] at hstep
      split at hstep
      · split_ifs at hstep
        obtain rfl := Option.some.inj hstep
        exact h
      · cases hstep
  | wait done late =>
      simp only [StageState.step, h.checkDeadline] at hstep
      split at hstep
      · split_ifs at hstep
        obtain rfl := Option.some.inj hstep
        exact ⟨(by intro _ _ h; cases h), h.stopped, h.deadline, h.overdue, h.marks⟩
      · cases hstep
  | collect =>
      simp only [StageState.step] at hstep
      split at hstep
      · obtain rfl := Option.some.inj hstep
        exact ⟨(by intro _ _ h; cases h), h.stopped, h.deadline, h.overdue, h.marks⟩
      · next i rest hcollector =>
          obtain ⟨r, -, rfl⟩ := Option.map_eq_some_iff.mp hstep
          rw [StageState.collectOne, hcontinue, if_neg (by simp)]
          refine ⟨(by intro _ _ h; cases h), h.stopped, h.deadline, h.overdue, ?_⟩
          intro j r' hr'
          dsimp only at hr'
          by_cases hj : j = i
          · subst hj
            rw [Function.update_self, h.overdue] at hr'
            obtain rfl := Option.some.inj hr'
            rfl
          · rw [Function.update_of_ne hj] at hr'
            exact h.marks j r' hr'
      · cases hstep
  | cancel sibling =>
      simp only [StageState.step] at hstep
      split at hstep
      · next siblings batch hcollector => exact absurd hcollector (h.keeps siblings batch)
      · cases hstep
  | armDeadline =>
      simp only [StageState.step] at hstep
      split at hstep
      · next batch hcollector => exact absurd hcollector (h.keeps [] batch)
      · cases hstep
  | leave =>
      simp only [StageState.step] at hstep
      split at hstep
      · split_ifs at hstep
        obtain rfl := Option.some.inj hstep
        refine ⟨(by intro _ _ h; cases h), h.stopped, h.deadline, h.overdue, ?_⟩
        intro i r hr
        dsimp only at hr
        split_ifs at hr
        · obtain ⟨report, -, rfl⟩ := Option.map_eq_some_iff.mp hr
          rfl
        · exact h.marks i r hr
      · cases hstep
  | shutdown =>
      simp only [StageState.step] at hstep
      split at hstep
      · obtain rfl := Option.some.inj hstep
        exact ⟨(by intro _ _ h; cases h), h.stopped, h.deadline, h.overdue, h.marks⟩
      · cases hstep
  | join =>
      simp only [StageState.step] at hstep
      split at hstep
      · split_ifs at hstep
        obtain rfl := Option.some.inj hstep
        exact ⟨(by intro _ _ h; cases h), h.stopped, h.deadline, h.overdue, h.marks⟩
      · cases hstep
  | start i =>
      obtain ⟨view, -, rfl⟩ := Option.map_eq_some_iff.mp hstep
      exact hwith view
  | finish i outcome =>
      obtain ⟨view, -, rfl⟩ := Option.map_eq_some_iff.mp hstep
      exact hwith view
  | underlyingDone i =>
      obtain ⟨view, -, rfl⟩ := Option.map_eq_some_iff.mp hstep
      exact hwith view

/-- What a step does to the future of call `j`. -/
theorem Calm.futures (h : Calm s) (hstep : s.step c l = some t) (j : ℕ) :
    t.view.futures j = s.view.futures j ∨
      t.view.futures j = (s.view.futures j).setRunningOrNotifyCancel ∨
        ∃ outcome, l = .finish j outcome ∧ t.view.futures j = .finished outcome := by
  have hlaunch : ∀ v : ExecutorView ChildOutcome, v.launchAvailable.futures = v.futures :=
    fun v ↦ ExecutorView.launchFrom_futures v v.queue
  cases l with
  | submit =>
      simp only [StageState.step] at hstep
      split at hstep
      · split_ifs at hstep
        · obtain rfl := Option.some.inj hstep
          exact .inl (congrFun (hlaunch _) j)
        · obtain rfl := Option.some.inj hstep
          exact .inl (congrFun (hlaunch _) j)
      · cases hstep
  | idle late =>
      simp only [StageState.step, h.checkDeadline] at hstep
      split at hstep
      · split_ifs at hstep
        obtain rfl := Option.some.inj hstep
        exact .inl rfl
      · cases hstep
  | wait done late =>
      simp only [StageState.step, h.checkDeadline] at hstep
      split at hstep
      · split_ifs at hstep
        obtain rfl := Option.some.inj hstep
        exact .inl rfl
      · cases hstep
  | collect =>
      simp only [StageState.step] at hstep
      split at hstep
      · obtain rfl := Option.some.inj hstep
        exact .inl rfl
      · next i rest hcollector =>
          obtain ⟨r, -, rfl⟩ := Option.map_eq_some_iff.mp hstep
          rw [StageState.collectOne]
          split_ifs <;> exact .inl rfl
      · cases hstep
  | cancel sibling =>
      simp only [StageState.step] at hstep
      split at hstep
      · next siblings batch hcollector => exact absurd hcollector (h.keeps siblings batch)
      · cases hstep
  | armDeadline =>
      simp only [StageState.step] at hstep
      split at hstep
      · next batch hcollector => exact absurd hcollector (h.keeps [] batch)
      · cases hstep
  | leave =>
      simp only [StageState.step] at hstep
      split at hstep
      · split_ifs at hstep
        obtain rfl := Option.some.inj hstep
        exact .inl rfl
      · cases hstep
  | shutdown =>
      simp only [StageState.step] at hstep
      split at hstep
      · obtain rfl := Option.some.inj hstep
        exact .inl (congrFun (hlaunch _) j)
      · cases hstep
  | join =>
      simp only [StageState.step] at hstep
      split at hstep
      · split_ifs at hstep
        obtain rfl := Option.some.inj hstep
        exact .inl rfl
      · cases hstep
  | start i =>
      obtain ⟨view, hview, rfl⟩ := Option.map_eq_some_iff.mp hstep
      unfold ExecutorView.start at hview
      split at hview
      · obtain rfl := Option.some.inj hview
        by_cases hj : j = i
        · subst hj
          exact .inr (.inl (Function.update_self ..))
        · exact .inl (Function.update_of_ne hj ..)
      · cases hview
  | finish i outcome =>
      obtain ⟨view, hview, rfl⟩ := Option.map_eq_some_iff.mp hstep
      unfold ExecutorView.finish at hview
      split_ifs at hview
      obtain rfl := Option.some.inj hview
      by_cases hj : j = i
      · subst hj
        exact .inr (.inr ⟨outcome, rfl, Function.update_self ..⟩)
      · exact .inl (Function.update_of_ne hj ..)
  | underlyingDone i =>
      obtain ⟨view, hview, rfl⟩ := Option.map_eq_some_iff.mp hstep
      unfold ExecutorView.underlyingDone at hview
      split_ifs at hview
      obtain rfl := Option.some.inj hview
      exact .inl (congrFun (hlaunch _) j)

theorem futures_finish {i : ℕ} {outcome : ChildOutcome}
    (hstep : s.step c (.finish i outcome) = some t) :
    t.view.futures = Function.update s.view.futures i (.finished outcome) := by
  obtain ⟨view, hview, rfl⟩ := Option.map_eq_some_iff.mp hstep
  unfold ExecutorView.finish at hview
  split_ifs at hview
  obtain rfl := Option.some.inj hview
  rfl

end Control

/-! ## What the children return -/

variable {P : Type u} {O : Type v} {c : StageConfig} {s t : ParallelStage O} {l : StageStep O}
  {requests : List (CaseRunRequest P)} {invoke : CaseRunRequest P → ChildResult O}

/-- Every child that ends returns the result its request has. -/
def Answers (invoke : CaseRunRequest P → ChildResult O) (requests : List (CaseRunRequest P))
    (_ : ParallelStage O) : StageStep O → Prop
  | .control _ => True
  | .finish i ended => ∃ request, requests[i]? = some request ∧ ended = .returned (invoke request)

instance [DecidableEq O] (s : ParallelStage O) (l : StageStep O) :
    Decidable (Answers invoke requests s l) :=
  match l with
  | .control _ => isTrue trivial
  | .finish i ended =>
      decidable_of_iff
        ((requests[i]?).any fun request ↦ decide (ended = .returned (invoke request))) (by
          simp [Answers, Option.any_eq_true])

/-- A future that is not cancelled, and that has what the child returned once it is done. -/
def Honest (returned : Option (ChildResult O)) : FutureState ChildOutcome → Prop
  | .pending | .running => True
  | .cancelled | .cancelledAndNotified => False
  | .finished outcome => ∃ result, returned = some result ∧ outcome = .returned result.envelope.ok

/-- The invariant of a stage whose children answer. -/
structure Kept (c : StageConfig) (invoke : CaseRunRequest P → ChildResult O)
    (requests : List (CaseRunRequest P)) (s : ParallelStage O) : Prop where
  good : StageState.Good c s.control
  calm : Calm s.control
  honest : ∀ i, Honest (s.returned i) (s.control.view.futures i)
  answers : ∀ i result, s.returned i = some result →
    ∃ request, requests[i]? = some request ∧ result = invoke request

theorem kept_initial (c : StageConfig) (invoke : CaseRunRequest P → ChildResult O)
    (requests : List (CaseRunRequest P)) : Kept c invoke requests (.initial c) where
  good := StageState.good_initial c
  calm := calm_initial c
  honest := by intro i; trivial
  answers := by intro i result h; cases h

theorem Honest.setRunningOrNotifyCancel {returned : Option (ChildResult O)}
    {f : FutureState ChildOutcome} (h : Honest returned f) :
    Honest returned f.setRunningOrNotifyCancel := by
  cases f with
  | pending => trivial
  | running => trivial
  | cancelled => exact h.elim
  | cancelledAndNotified => exact h.elim
  | finished outcome => exact h

theorem Kept.step (h : Kept c invoke requests s) (hcontinue : c.failFast = false)
    (hanswers : Answers invoke requests s l) (hstep : s.step c l = some t) :
    Kept c invoke requests t := by
  cases l with
  | control l =>
      have hl : ∀ i outcome, l ≠ .finish i outcome := by
        rintro i outcome rfl
        cases hstep
      obtain ⟨control, hcontrol, rfl⟩ : ∃ control, s.control.step c l = some control ∧
          { s with control := control } = t := by
        cases l with
        | finish i outcome => exact absurd rfl (hl i outcome)
        | _ => exact Option.map_eq_some_iff.mp hstep
      refine ⟨h.good.step (h.calm.sparesQueue hcontrol) hcontrol, h.calm.step hcontinue hcontrol,
        fun i ↦ ?_, h.answers⟩
      obtain heq | heq | ⟨outcome, hfinish, -⟩ := h.calm.futures hcontrol i
      · rw [heq]
        exact h.honest i
      · rw [heq]
        exact (h.honest i).setRunningOrNotifyCancel
      · exact absurd hfinish (hl i outcome)
  | finish i ended =>
      obtain ⟨request, hrequest, rfl⟩ := hanswers
      obtain ⟨control, hcontrol, rfl⟩ := Option.map_eq_some_iff.mp hstep
      refine ⟨h.good.step (h.calm.sparesQueue hcontrol) hcontrol, h.calm.step hcontinue hcontrol,
        fun j ↦ ?_, fun j result hresult ↦ ?_⟩
      · rw [futures_finish hcontrol]
        by_cases hj : j = i
        · subst hj
          rw [Function.update_self]
          exact ⟨invoke request, Function.update_self .., rfl⟩
        · rw [Function.update_of_ne hj]
          have hreturned : ParallelStage.returnedBy s.returned i (.returned (invoke request)) j =
              s.returned j := Function.update_of_ne hj ..
          dsimp only
          rw [hreturned]
          exact h.honest j
      · by_cases hj : j = i
        · subst hj
          have hreturned : ParallelStage.returnedBy s.returned j (.returned (invoke request)) j =
              some (invoke request) := Function.update_self ..
          exact ⟨request, hrequest, (Option.some.inj (hreturned.symm.trans hresult)).symm⟩
        · have hreturned : ParallelStage.returnedBy s.returned i (.returned (invoke request)) j =
              s.returned j := Function.update_of_ne hj ..
          exact h.answers j result (hreturned.symm.trans hresult)

theorem kept_of_reach (hcontinue : c.failFast = false)
    (h : Machine.Reach (ParallelStage.step c) (Answers invoke requests) (.initial c) s) :
    Kept c invoke requests s :=
  h.invariant (kept_initial c invoke requests) fun _ _ _ hs hok hstep ↦ hs.step hcontinue hok hstep

/-! ## What the stage ends with -/

/-- Once the stage has returned, the result of a call is the one of its request. -/
theorem Kept.resultOf (h : Kept c invoke requests s) (hreturned : s.control.collector = .returned)
    {i : ℕ} (hi : i < c.calls) {request : CaseRunRequest P} (hrequest : requests[i]? = some request)
    (callName : String) : s.resultOf i callName = some (invoke request) := by
  obtain ⟨collected, hcollected, hfuture⟩ := (h.good.complete hreturned).result i hi
  have hhonest := h.honest i
  have hmark := h.calm.marks i collected hcollected
  cases hstate : s.control.view.futures i with
  | pending => simp [hstate, Project.futureResult] at hfuture
  | running => simp [hstate, Project.futureResult] at hfuture
  | cancelled => simp [hstate, Honest] at hhonest
  | cancelledAndNotified => simp [hstate, Honest] at hhonest
  | finished outcome =>
      rw [hstate] at hhonest hfuture
      obtain ⟨result, hresult, rfl⟩ := hhonest
      obtain ⟨request', hrequest', rfl⟩ := h.answers i result hresult
      obtain rfl : request' = request := Option.some.inj (hrequest'.symm.trans hrequest)
      obtain ⟨report, overdue⟩ := collected
      obtain rfl : Report.envelope _ = report := Option.some.inj hfuture
      obtain rfl : overdue = false := hmark
      rw [ParallelStage.resultOf, hcollected]
      simp [ParallelStage.futureResult, hresult, ParallelStage.markOverdue]

/-- Nothing is reported as cancelled. -/
theorem Kept.cancelledCalls (h : Kept c invoke requests s)
    (hreturned : s.control.collector = .returned) : s.control.cancelledCalls = [] := by
  rw [h.good.cancelled (by simp [hreturned, Collector.left])]
  refine List.filter_eq_nil_iff.mpr fun i _ hcancelled ↦ ?_
  have hhonest := h.honest i
  cases hstate : s.control.view.futures i with
  | pending => simp [hstate, FutureState.isCancelled] at hcancelled
  | running => simp [hstate, FutureState.isCancelled] at hcancelled
  | cancelled => simp [hstate, Honest] at hhonest
  | cancelledAndNotified => simp [hstate, Honest] at hhonest
  | finished outcome => simp [hstate, FutureState.isCancelled] at hcancelled

theorem namesOf_nil (i : ℕ) (calls : List (ChildCaseCall P)) : namesOf [] i calls = [] := by
  induction calls generalizing i with
  | nil => rfl
  | cons call rest ih =>
      rw [namesOf, if_neg List.not_mem_nil]
      exact ih (i + 1)

/-- The requests, one for each call. -/
theorem buildRequests_cons {stageName : String} {snapshot : Dict ArtifactBinding}
    {call : ChildCaseCall P} {rest : List (ChildCaseCall P)}
    {requests : List (CaseRunRequest P)}
    (h : buildRequests stageName snapshot (call :: rest) = .ok requests) :
    ∃ request requests', call.buildRequest stageName snapshot = .ok request ∧
      buildRequests stageName snapshot rest = .ok requests' ∧ requests = request :: requests' := by
  rw [buildRequests] at h
  split at h
  · cases h
  next request hrequest =>
  split at h
  · cases h
  next requests' hrequests =>
  exact ⟨request, requests', hrequest, hrequests, (Except.ok.inj h).symm⟩

/-- The results of the calls from number `i` on. -/
theorem collect_eq {stageName : String} {snapshot : Dict ArtifactBinding}
    {calls : List (ChildCaseCall P)} {requests : List (CaseRunRequest P)} {i : ℕ}
    (hrequests : buildRequests stageName snapshot calls = .ok requests)
    (hresults : ∀ j request callName, requests[j]? = some request →
      s.resultOf (i + j) callName = some (invoke request)) :
    collect s i calls =
      some (List.zipWith (fun call request ↦ (call.name, invoke request)) calls requests) := by
  induction calls generalizing i requests with
  | nil => rfl
  | cons call rest ih =>
      obtain ⟨request, requests', -, hrest, rfl⟩ := buildRequests_cons hrequests
      have hhead := hresults 0 request call.name rfl
      have htail := ih (i := i + 1) hrest fun j request' callName hrequest' ↦ by
        rw [add_assoc, add_comm 1 j]
        exact hresults (j + 1) request' callName hrequest'
      rw [collect, htail]
      rw [add_zero] at hhead
      rw [hhead]
      rfl

/-- Merging the results afterwards is merging each one when it is there. -/
theorem invokeInTurn_eq {stageName : String} {snapshot : Dict ArtifactBinding}
    {calls : List (ChildCaseCall P)} {requests : List (CaseRunRequest P)}
    (hrequests : buildRequests stageName snapshot calls = .ok requests)
    (invoke : CaseRunRequest P → ChildResult O) (r : Runner)
    (results : List (String × ChildResult O)) :
    invokeInTurn stageName snapshot invoke r results calls =
      match mergeInOrder r
        (List.zipWith (fun call request ↦ (call.name, invoke request)) calls requests) with
      | (some e, r) => (.error e, r)
      | (none, r) => (.ok (results ++
          List.zipWith (fun call request ↦ (call.name, invoke request)) calls requests), r) := by
  induction calls generalizing requests r results with
  | nil =>
      obtain rfl := Except.ok.inj hrequests
      simp [invokeInTurn, mergeInOrder]
  | cons call rest ih =>
      obtain ⟨request, requests', hrequest, hrest, rfl⟩ := buildRequests_cons hrequests
      rw [invokeInTurn, hrequest, List.zipWith_cons_cons, mergeInOrder]
      dsimp only
      cases hmerge : r.mergeResult call.name (invoke request) with
      | mk error r' =>
          cases error with
          | some e => rfl
          | none =>
              dsimp only
              rw [ih hrest, List.append_assoc]
              rfl

theorem length_buildRequests {stageName : String} {snapshot : Dict ArtifactBinding}
    {calls : List (ChildCaseCall P)} {requests : List (CaseRunRequest P)}
    (hrequests : buildRequests stageName snapshot calls = .ok requests) :
    requests.length = calls.length := by
  induction calls generalizing requests with
  | nil =>
      obtain rfl := Except.ok.inj hrequests
      rfl
  | cons call rest ih =>
      obtain ⟨request, requests', -, hrest, rfl⟩ := buildRequests_cons hrequests
      rw [List.length_cons, List.length_cons, ih hrest]

/-- Two calls of a stage that goes on after failures. -/
def twoChildren : CaseStage Unit where
  name := "train"
  calls := [⟨"first", ∅, [], ()⟩, ⟨"second", ∅, [], ()⟩]
  failFast := false
  maxWorkers := 2
  calls_ne := by simp
  names_nodup := by decide

/-- The first call fails, and the other one succeeds. -/
def secondSucceeds (request : CaseRunRequest Unit) : ChildResult Unit where
  envelope :=
    { status := if request.childCallName = "second" then .succeeded else .failed
      exitCode := if request.childCallName = "second" then 0 else 1
      failure := none
      output := none }
  artifactRefs := []
  artifactPublications := []
  stageCancellationOverdue := false

/-- The requests of the two calls. -/
def twoRequests : List (CaseRunRequest Unit) :=
  [⟨"train", "first", ∅, ()⟩, ⟨"train", "second", ∅, ()⟩]

/-- The second child completes first, and both are collected in one batch. -/
def secondFirst : List (StageStep Unit) :=
  [.control .submit, .control .submit, .control (.start 0), .control (.start 1),
    .finish 1 (.returned (secondSucceeds ⟨"train", "second", ∅, ()⟩)),
    .finish 0 (.returned (secondSucceeds ⟨"train", "first", ∅, ()⟩)),
    .control (.wait [1, 0] false), .control .collect, .control .collect, .control .collect,
    .control .leave, .control .shutdown, .control (.underlyingDone 1),
    .control (.underlyingDone 0), .control .join]

theorem secondFirst_run :
    (Machine.run (Machine.guarded (ParallelStage.step (twoChildren.config 2 2 2))
      (Answers secondSucceeds twoRequests)) (.initial (twoChildren.config 2 2 2))
        secondFirst).any (fun s ↦ s.control.collector = .returned) = true := by
  decide +kernel

end Blackbase.Project.Stages

import Blackbase.Project.CaseStages

/-!
# Does a parallel stage terminate?

As long as the stage never cancels a sibling that is still waiting in the queue of
the executor view (`StageState.SparesQueue`), some thread always has a productive
step to take, every productive step decreases a measure, and when the stage returns
it has the result of every call (`Good`, `Good.progress`, `Good.measure_lt`).

A sibling that is cancelled in the queue is lost: the view skips it, no thread calls
`set_running_or_notify_cancel` on its future, `wait` never reports it, and the
collector waits for it for ever (`Doomed`).
-/

namespace Blackbase.Project

open Blackbase.Resources

namespace StageState

variable {c : StageConfig} {s t : StageState} {l : StageLabel}

/-! ## The invariant -/

/-- The invariant of runs that spare the queue. -/
structure Good (c : StageConfig) (s : StageState) : Prop where
  view : s.view.Sound s.submitted
  workers : s.view.workerCount = c.workerCount
  submitting : s.collector = .submitting → s.submitted < c.calls
  submitted : s.collector ≠ .submitting → s.submitted = c.calls
  pending_length : s.pending.length ≤ c.calls
  pending_lt : ∀ i ∈ s.pending, i < c.calls
  siblings : ∀ i ∈ s.collector.siblings, i ∈ s.pending
  batch : ∀ i ∈ s.collector.batch, i < c.calls ∧ (s.view.futures i).isReported
  /-- Every submitted call is pending, about to be collected, or has its result. -/
  covered : s.collector ≠ .submitting → ∀ i < c.calls,
    i ∈ s.pending ∨ i ∈ s.collector.batch ∨ (s.results i).isSome
  left : s.collector.left → s.pending = []
  results : ∀ i r, s.results i = some r → i < c.calls ∧ (s.view.futures i).isReported ∧
    futureResult (s.view.futures i) = some r.report
  cancelled : s.collector.left → s.cancelledCalls =
    (List.range c.calls).filter fun i ↦ (s.view.futures i).isCancelled

theorem good_initial (c : StageConfig) : Good c (initial c) where
  view := ExecutorView.sound_entered c.workerCount
  workers := rfl
  submitting _ := c.one_le_calls
  submitted h := absurd rfl h
  pending_length := Nat.zero_le _
  pending_lt := by simp [initial]
  siblings := by simp [initial, Collector.siblings]
  batch := by simp [initial, Collector.batch]
  covered h := absurd rfl h
  left := by simp [initial, Collector.left]
  results := by simp [initial]
  cancelled := by simp [initial, Collector.left]

/-- Once the collector has left the loop, every future is reported. -/
theorem Good.reported_of_left (h : Good c s) (hleft : s.collector.left) {i : ℕ}
    (hi : i < c.calls) : (s.view.futures i).isReported := by
  have hne : s.collector ≠ .submitting := fun he ↦ by simp [he, Collector.left] at hleft
  rcases h.covered hne i hi with hp | hb | hr
  · rw [h.left hleft] at hp
    cases hp
  · exact (h.batch i hb).2
  · obtain ⟨r, hr⟩ := Option.isSome_iff_exists.mp hr
    exact (h.results i r hr).2.1

/-- What the steps of the threads keep: they only touch the view, and leave the
reported futures alone. -/
theorem Good.of_view (h : Good c s) {view : ExecutorView ChildOutcome}
    (hview : view.Sound s.submitted) (hworkers : view.workerCount = s.view.workerCount)
    (hreported : ∀ i, (s.view.futures i).isReported → view.futures i = s.view.futures i) :
    Good c { s with view := view } where
  view := hview
  workers := hworkers.trans h.workers
  submitting := h.submitting
  submitted := h.submitted
  pending_length := h.pending_length
  pending_lt := h.pending_lt
  siblings := h.siblings
  batch i hi := by
    obtain ⟨hlt, hrep⟩ := h.batch i hi
    exact ⟨hlt, by rw [hreported i hrep]; exact hrep⟩
  covered := h.covered
  left := h.left
  results i r hr := by
    obtain ⟨hlt, hrep, hresult⟩ := h.results i r hr
    exact ⟨hlt, by rw [hreported i hrep]; exact hrep, by rw [hreported i hrep]; exact hresult⟩
  cancelled hleft := by
    refine (h.cancelled hleft).trans (List.filter_congr fun i hi ↦ ?_)
    rw [hreported i (h.reported_of_left hleft (List.mem_range.mp hi))]

/-! ### One lemma for each step -/

@[simp] theorem checkDeadline_view (s : StageState) (late : Bool) :
    (s.checkDeadline late).view = s.view := by
  unfold checkDeadline
  split <;> rfl

@[simp] theorem checkDeadline_collector (s : StageState) (late : Bool) :
    (s.checkDeadline late).collector = s.collector := by
  unfold checkDeadline
  split <;> rfl

/-- The deadline only touches what no invariant reads. -/
theorem Good.checkDeadline (h : Good c s) (late : Bool) : Good c (s.checkDeadline late) := by
  unfold StageState.checkDeadline
  split
  · exact ⟨h.view, h.workers, h.submitting, h.submitted, h.pending_length, h.pending_lt, h.siblings, h.batch,
      h.covered, h.left, h.results, h.cancelled⟩
  · exact h

theorem Good.submit (h : Good c s) (hstep : step c s .submit = some t) : Good c t := by
  cases hc : s.collector with
  | submitting =>
      have hview : (s.view.submit s.submitted).Sound (s.submitted + 1) := h.view.submit
      have hworkers : (s.view.submit s.submitted).workerCount = c.workerCount :=
        (ExecutorView.launchFrom_workerCount _ _).trans h.workers
      have hfutures : (s.view.submit s.submitted).futures = s.view.futures :=
        ExecutorView.launchFrom_futures _ _
      have hresults : ∀ i r, s.results i = some r → i < c.calls ∧
          ((s.view.submit s.submitted).futures i).isReported ∧
          futureResult ((s.view.submit s.submitted).futures i) = some r.report := by
        rw [hfutures]
        exact h.results
      simp only [step, hc] at hstep
      split at hstep
      · next hmore =>
          injection hstep with hstep
          subst hstep
          exact ⟨hview, hworkers, fun _ ↦ hmore, fun hne ↦ absurd rfl hne, h.pending_length, h.pending_lt,
            by simp [Collector.siblings], by simp [Collector.batch],
            fun hne ↦ absurd rfl hne, by simp [Collector.left], hresults,
            by simp [Collector.left]⟩
      · next hlast =>
          injection hstep with hstep
          subst hstep
          have hlt := h.submitting hc
          refine ⟨hview, hworkers, by simp, fun _ ↦ ?_, by simp, by simp,
            by simp [Collector.siblings],
            by simp [Collector.batch], fun _ i hi ↦ .inl (List.mem_range.mpr hi),
            by simp [Collector.left], hresults, by simp [Collector.left]⟩
          simp only
          omega
  | _ => simp [step, hc] at hstep

theorem Good.idle (h : Good c s) {late : Bool} (hstep : step c s (.idle late) = some t) :
    Good c t := by
  cases hc : s.collector with
  | waiting =>
      simp only [step, hc] at hstep
      split at hstep
      · injection hstep with hstep
        subst hstep
        exact h.checkDeadline late
      · cases hstep
  | _ => simp [step, hc] at hstep

theorem Good.wait (h : Good c s) {done : List ℕ} {late : Bool}
    (hstep : step c s (.wait done late) = some t) : Good c t := by
  cases hc : s.collector with
  | waiting =>
      simp only [step, hc] at hstep
      split at hstep
      · next hdone =>
          injection hstep with hstep
          subst hstep
          have h' := h.checkDeadline late
          refine ⟨h'.view, h'.workers, by simp, fun _ ↦ h'.submitted (by simp [hc]),
            (List.length_filter_le ..).trans h.pending_length, fun i hi ↦ h.pending_lt i (List.mem_of_mem_filter hi), by simp [Collector.siblings],
            fun i hi ↦ ?_, fun _ i hi ↦ ?_, by simp [Collector.left], h'.results,
            by simp [Collector.left]⟩
          · obtain ⟨hp, hrep⟩ := hdone.2.2 i hi
            exact ⟨h.pending_lt i hp, by simpa using hrep⟩
          · rcases h'.covered (by simp [hc]) i hi with hp | hb | hr
            · have hp' : i ∈ s.pending := by
                unfold StageState.checkDeadline at hp
                split at hp <;> exact hp
              by_cases hd : i ∈ done
              · exact .inr (.inl hd)
              · exact .inl (List.mem_filter.mpr ⟨hp', by simpa using hd⟩)
            · simp [hc, Collector.batch] at hb
            · exact .inr (.inr hr)
      · cases hstep
  | _ => simp [step, hc] at hstep

theorem Good.collect (h : Good c s) (hstep : step c s .collect = some t) : Good c t := by
  cases hc : s.collector with
  | collecting batch =>
      cases batch with
      | nil =>
          simp only [step, hc] at hstep
          injection hstep with hstep
          subst hstep
          refine ⟨h.view, h.workers, by simp, fun _ ↦ h.submitted (by simp [hc]), h.pending_length, h.pending_lt,
            by simp [Collector.siblings], by simp [Collector.batch], fun _ i hi ↦ ?_,
            by simp [Collector.left], h.results, by simp [Collector.left]⟩
          simpa [hc, Collector.batch] using h.covered (by simp [hc]) i hi
      | cons i rest =>
          simp only [step, hc, Option.map_eq_some_iff] at hstep
          obtain ⟨r, hr, rfl⟩ := hstep
          have hbatch := h.batch
          rw [hc] at hbatch
          have hi := hbatch i (List.mem_cons_self ..)
          have hresults : ∀ j x, Function.update s.results i
              (some ⟨r, i ∈ s.cancellationOverdue⟩) j = some x → j < c.calls ∧
              (s.view.futures j).isReported ∧
              futureResult (s.view.futures j) = some x.report := by
            intro j x hx
            by_cases hj : j = i
            · subst hj
              obtain rfl : (⟨r, j ∈ s.cancellationOverdue⟩ : CallResult) = x := by
                simpa using hx
              exact ⟨hi.1, hi.2, hr⟩
            · exact h.results j x (by simpa [hj] using hx)
          have hcovered : ∀ j < c.calls, j ∈ s.pending ∨ j ∈ rest ∨
              (Function.update s.results i (some ⟨r, i ∈ s.cancellationOverdue⟩) j).isSome := by
            intro j hj
            by_cases hji : j = i
            · subst hji
              simp
            · rcases h.covered (by simp [hc]) j hj with hp | hb | hr
              · exact .inl hp
              · rw [hc] at hb
                exact .inr (.inl ((List.mem_cons.mp hb).resolve_left hji))
              · exact .inr (.inr (by simpa [hji] using hr))
          have hrest : ∀ j ∈ rest, j < c.calls ∧ (s.view.futures j).isReported :=
            fun j hj ↦ hbatch j (List.mem_cons_of_mem _ hj)
          have hsubmitted := h.submitted (by simp [hc])
          unfold collectOne
          dsimp only
          split
          · exact ⟨h.view, h.workers, by simp, fun _ ↦ hsubmitted, h.pending_length, h.pending_lt, fun _ hj ↦ hj,
              hrest, fun _ ↦ hcovered, by simp [Collector.left], hresults,
              by simp [Collector.left]⟩
          · exact ⟨h.view, h.workers, by simp, fun _ ↦ hsubmitted, h.pending_length, h.pending_lt,
              by simp [Collector.siblings], hrest, fun _ ↦ hcovered, by simp [Collector.left],
              hresults, by simp [Collector.left]⟩
  | _ => simp [step, hc] at hstep

theorem Good.cancel (h : Good c s) {i : ℕ} (hspares : i ∉ s.view.queue)
    (hstep : step c s (.cancel i) = some t) : Good c t := by
  cases hc : s.collector with
  | cancelling siblings batch =>
      simp only [step, hc] at hstep
      split at hstep
      · next hi =>
          injection hstep with hstep
          subst hstep
          have hsiblings := h.siblings
          rw [hc] at hsiblings
          have hlt : i < s.submitted := by
            rw [h.submitted (by simp [hc])]
            exact h.pending_lt i (hsiblings i hi)
          have h' := h.of_view (h.view.cancel hlt hspares) rfl
            fun j hj ↦ s.view.cancel_reported hj
          have hbatch := h'.batch
          have hcovered := h'.covered
          simp only [hc] at hbatch hcovered
          exact ⟨h'.view, h'.workers, by simp, fun _ ↦ h.submitted (by simp [hc]), h.pending_length, h.pending_lt,
            fun j hj ↦ hsiblings j (List.mem_of_mem_erase hj), hbatch,
            fun _ ↦ hcovered (by simp), by simp [Collector.left], h'.results,
            by simp [Collector.left]⟩
      · cases hstep
  | _ => simp [step, hc] at hstep

theorem Good.armDeadline (h : Good c s) (hstep : step c s .armDeadline = some t) : Good c t := by
  cases hc : s.collector with
  | cancelling siblings batch =>
      cases siblings with
      | nil =>
          simp only [step, hc] at hstep
          injection hstep with hstep
          subst hstep
          have hbatch := h.batch
          have hcovered := h.covered
          simp only [hc] at hbatch hcovered
          exact ⟨h.view, h.workers, by simp, fun _ ↦ h.submitted (by simp [hc]), h.pending_length, h.pending_lt,
            by simp [Collector.siblings], hbatch, fun _ ↦ hcovered (by simp),
            by simp [Collector.left], h.results, by simp [Collector.left]⟩
      | cons i rest => simp [step, hc] at hstep
  | _ => simp [step, hc] at hstep

theorem Good.leave (h : Good c s) (hstep : step c s .leave = some t) : Good c t := by
  cases hc : s.collector with
  | waiting =>
      simp only [step, hc] at hstep
      split at hstep
      · next hpending =>
          injection hstep with hstep
          subst hstep
          have hall : ∀ i < c.calls, (s.results i).isSome := by
            intro i hi
            rcases h.covered (by simp [hc]) i hi with hp | hb | hr
            · rw [hpending] at hp
              cases hp
            · simp [hc, Collector.batch] at hb
            · exact hr
          -- The loop has recorded every result, so the last pass adds none.
          have hsame : (fun i ↦ if i < c.calls ∧ s.results i = none then
              (futureResult (s.view.futures i)).map (CallResult.mk · false) else s.results i) =
              s.results := by
            funext i
            split
            · next hi =>
                have := hall i hi.1
                rw [hi.2] at this
                cases this
            · rfl
          rw [hsame]
          exact ⟨h.view, h.workers, by simp, fun _ ↦ h.submitted (by simp [hc]), h.pending_length, h.pending_lt,
            by simp [Collector.siblings], by simp [Collector.batch],
            fun _ i hi ↦ .inr (.inr (hall i hi)), fun _ ↦ hpending, h.results, fun _ ↦ rfl⟩
      · cases hstep
  | _ => simp [step, hc] at hstep

theorem Good.shutdown (h : Good c s) (hstep : step c s .shutdown = some t) : Good c t := by
  cases hc : s.collector with
  | closing =>
      simp only [step, hc] at hstep
      injection hstep with hstep
      subst hstep
      have h' := h.of_view h.view.launchAvailable (ExecutorView.launchFrom_workerCount _ _)
        fun i _ ↦ congrFun (ExecutorView.launchFrom_futures _ _) i
      have hleft : s.collector.left := by simp [hc, Collector.left]
      have hcovered := h'.covered
      simp only [hc] at hcovered
      exact ⟨h'.view, h'.workers, by simp, fun _ ↦ h.submitted (by simp [hc]), h.pending_length, h.pending_lt,
        by simp [Collector.siblings], by simp [Collector.batch], fun _ ↦ hcovered (by simp),
        fun _ ↦ h.left hleft, h'.results, fun _ ↦ h'.cancelled hleft⟩
  | _ => simp [step, hc] at hstep

theorem Good.join (h : Good c s) (hstep : step c s .join = some t) : Good c t := by
  cases hc : s.collector with
  | joining =>
      simp only [step, hc] at hstep
      split at hstep
      · injection hstep with hstep
        subst hstep
        have hleft : s.collector.left := by simp [hc, Collector.left]
        have hcovered := h.covered
        simp only [hc] at hcovered
        exact ⟨h.view, h.workers, by simp, fun _ ↦ h.submitted (by simp [hc]), h.pending_length, h.pending_lt,
          by simp [Collector.siblings], by simp [Collector.batch], fun _ ↦ hcovered (by simp),
          fun _ ↦ h.left hleft, h.results, fun _ ↦ h.cancelled hleft⟩
      · cases hstep
  | _ => simp [step, hc] at hstep

theorem Good.start (h : Good c s) {i : ℕ} (hstep : step c s (.start i) = some t) :
    Good c t := by
  simp only [step, Option.map_eq_some_iff] at hstep
  obtain ⟨view, hview, rfl⟩ := hstep
  refine h.of_view (h.view.start hview) ?_ fun j hj ↦ h.view.start_reported hview hj
  unfold ExecutorView.start at hview
  split at hview
  · injection hview with hview
    rw [← hview]
  · cases hview

theorem Good.finish (h : Good c s) {i : ℕ} {outcome : ChildOutcome}
    (hstep : step c s (.finish i outcome) = some t) : Good c t := by
  simp only [step, Option.map_eq_some_iff] at hstep
  obtain ⟨view, hview, rfl⟩ := hstep
  refine h.of_view (h.view.finish hview) ?_ fun j hj ↦ h.view.finish_reported hview hj
  unfold ExecutorView.finish at hview
  split at hview
  · injection hview with hview
    rw [← hview]
  · cases hview

theorem Good.underlyingDone (h : Good c s) {i : ℕ}
    (hstep : step c s (.underlyingDone i) = some t) : Good c t := by
  simp only [step, Option.map_eq_some_iff] at hstep
  obtain ⟨view, hview, rfl⟩ := hstep
  refine h.of_view (h.view.underlyingDone hview) ?_ fun j _ ↦
    congrFun (ExecutorView.underlyingDone_futures hview) j
  unfold ExecutorView.underlyingDone at hview
  split at hview
  · injection hview with hview
    rw [← hview]
    exact ExecutorView.launchFrom_workerCount _ _
  · cases hview

/-- One step that spares the queue keeps the invariant. -/
theorem Good.step (h : Good c s) (hok : s.SparesQueue l) (hstep : s.step c l = some t) :
    Good c t := by
  cases l with
  | submit => exact h.submit hstep
  | idle late => exact h.idle hstep
  | wait done late => exact h.wait hstep
  | collect => exact h.collect hstep
  | cancel sibling => exact h.cancel hok hstep
  | armDeadline => exact h.armDeadline hstep
  | leave => exact h.leave hstep
  | shutdown => exact h.shutdown hstep
  | join => exact h.join hstep
  | start i => exact h.start hstep
  | finish i outcome => exact h.finish hstep
  | underlyingDone i => exact h.underlyingDone hstep

/-- A whole run that spares the queue. -/
theorem good_of_reach (h : Machine.Reach (step c) SparesQueue (initial c) s) : Good c s :=
  h.invariant (good_initial c) fun _ _ _ hs hok hstep ↦ hs.step hok hstep

/-! ## Progress -/

theorem exists_productive {l : StageLabel} (hl : l.productive) (hstep : (s.step c l).isSome) :
    ∃ l t, l.productive ∧ s.step c l = some t := by
  obtain ⟨t, ht⟩ := Option.isSome_iff_exists.mp hstep
  exact ⟨l, t, hl, ht⟩

theorem productive_of_thread {j : ℕ} {outcome : ChildOutcome}
    (hj : (s.view.start j).isSome ∨ (s.view.finish j outcome).isSome ∨
      (s.view.underlyingDone j).isSome) :
    ∃ l t, l.productive ∧ s.step c l = some t := by
  rcases hj with hj | hj | hj
  · exact exists_productive (l := .start j) rfl (by simpa [step] using hj)
  · exact exists_productive (l := .finish j outcome) rfl (by simpa [step] using hj)
  · exact exists_productive (l := .underlyingDone j) rfl (by simpa [step] using hj)

/-- A call whose future is not reported yet is in the hands of the view. -/
theorem Good.mem_view (h : Good c s) (hne : s.collector ≠ .submitting) {i : ℕ}
    (hi : i < c.calls) (hrep : (s.view.futures i).isReported = false) :
    i ∈ s.view.queue ∨ i ∈ s.view.inflight := by
  have hagrees := h.view.agrees i
  cases hstage : s.view.tasks i with
  | unlaunched =>
      exact .inl ((h.view.mem_queue i).mpr ⟨by rw [h.submitted hne]; exact hi, hstage⟩)
  | launched => exact .inr ((h.view.mem_inflight i).mpr (.inl hstage))
  | running => exact .inr ((h.view.mem_inflight i).mpr (.inr (.inl hstage)))
  | settled => exact .inr ((h.view.mem_inflight i).mpr (.inr (.inr hstage)))
  | done =>
      rw [hstage] at hagrees
      have hrep' : (s.view.futures i).isReported = true := hagrees
      rw [hrep] at hrep'
      cases hrep'

/-- Until the stage has returned, some thread has a productive step to take. -/
theorem Good.progress (h : Good c s) (hreturned : s.collector ≠ .returned) :
    ∃ l t, l.productive ∧ s.step c l = some t := by
  have hpos : 0 < s.view.workerCount := by
    rw [h.workers]
    exact c.workerCount_pos
  have hthread : ∀ i, i ∈ s.view.queue ∨ i ∈ s.view.inflight →
      ∃ l t, l.productive ∧ s.step c l = some t := by
    intro i hi
    obtain ⟨j, hj⟩ := h.view.thread_step hpos (.returned true) hi
    exact productive_of_thread hj
  cases hc : s.collector with
  | submitting =>
      by_cases hmore : s.submitted + 1 < c.calls
      · exact exists_productive (l := .submit) rfl (by simp [StageState.step, hc, hmore])
      · exact exists_productive (l := .submit) rfl (by simp [StageState.step, hc, hmore])
  | waiting =>
      cases hpending : s.pending with
      | nil => exact exists_productive (l := .leave) rfl (by simp [StageState.step, hc, hpending])
      | cons i rest =>
          have hi : i ∈ s.pending := by rw [hpending]; exact List.mem_cons_self ..
          cases hrep : (s.view.futures i).isReported with
          | true =>
              have hdone : [i] ≠ [] ∧ [i].Nodup ∧
                  ∀ j ∈ [i], j ∈ s.pending ∧ (s.view.futures j).isReported := by
                simp [hi, hrep]
              exact exists_productive (l := .wait [i] false) rfl
                (by simp only [StageState.step, hc, if_pos hdone, Option.isSome_some])
          | false =>
              exact hthread i (h.mem_view (by simp [hc]) (h.pending_lt i hi) hrep)
  | collecting batch =>
      cases batch with
      | nil => exact exists_productive (l := .collect) rfl (by simp [StageState.step, hc])
      | cons i rest =>
          have hbatch := h.batch
          rw [hc] at hbatch
          have hrep := (hbatch i (List.mem_cons_self ..)).2
          obtain ⟨r, hr⟩ : ∃ r, futureResult (s.view.futures i) = some r := by
            cases hf : s.view.futures i with
            | pending => simp [hf, FutureState.isReported] at hrep
            | running => simp [hf, FutureState.isReported] at hrep
            | cancelled => exact ⟨_, rfl⟩
            | cancelledAndNotified => exact ⟨_, rfl⟩
            | finished outcome => cases outcome <;> exact ⟨_, rfl⟩
          exact exists_productive (l := .collect) rfl (by simp [StageState.step, hc, hr])
  | cancelling siblings batch =>
      cases siblings with
      | nil => exact exists_productive (l := .armDeadline) rfl (by simp [StageState.step, hc])
      | cons i rest =>
          exact exists_productive (l := .cancel i) rfl (by simp [StageState.step, hc])
  | closing => exact exists_productive (l := .shutdown) rfl (by simp [StageState.step, hc])
  | joining =>
      by_cases hidle : s.view.queue = [] ∧ s.view.inflight = []
      · have hdone : s.view.queue = [] ∧ s.view.inflight = [] ∧
            ∀ i < c.calls, (s.view.futures i).isDone := by
          refine ⟨hidle.1, hidle.2, fun i hi ↦ ?_⟩
          have hrep := h.reported_of_left (by simp [hc, Collector.left]) hi
          cases hf : s.view.futures i <;> simp_all [FutureState.isReported, FutureState.isDone]
        exact exists_productive (l := .join) rfl
          (by simp only [StageState.step, hc, if_pos hdone, Option.isSome_some])
      · rcases not_and_or.mp hidle with hne | hne
        · obtain ⟨i, hi⟩ := List.exists_mem_of_ne_nil _ hne
          exact hthread i (.inl hi)
        · obtain ⟨i, hi⟩ := List.exists_mem_of_ne_nil _ hne
          exact hthread i (.inr hi)
  | returned => exact absurd hc hreturned

/-! ## The measure -/

/-- The steps a task has before it. -/
def stageWeight : TaskStage → ℕ
  | .unlaunched => 4
  | .launched => 3
  | .running => 2
  | .settled => 1
  | .done => 0

/-- The steps of the tasks of all the calls. -/
def taskWeight (c : StageConfig) (v : ExecutorView ChildOutcome) : ℕ :=
  ∑ i ∈ Finset.range c.calls, stageWeight (v.tasks i)

/-- The steps of the collector that its position promises. -/
def collectorWeight (c : StageConfig) (s : StageState) : Collector → ℕ
  | .submitting => (c.calls - s.submitted) + 4 * c.calls + 10
  | .waiting => 4 * s.pending.length + 5
  | .collecting batch => 4 * s.pending.length + 2 * batch.length + 6
  | .cancelling siblings batch =>
      4 * s.pending.length + 2 * batch.length + siblings.length + 8
  | .closing => 2
  | .joining => 1
  | .returned => 0

/-- What every productive step decreases. -/
def measure (c : StageConfig) (s : StageState) : ℕ :=
  taskWeight c s.view + collectorWeight c s s.collector +
    (if s.stopped then 0 else c.calls + 10)

theorem taskWeight_le {v v' : ExecutorView ChildOutcome}
    (h : ∀ i < c.calls, stageWeight (v'.tasks i) ≤ stageWeight (v.tasks i)) :
    taskWeight c v' ≤ taskWeight c v :=
  Finset.sum_le_sum fun i hi ↦ h i (Finset.mem_range.mp hi)

theorem taskWeight_lt {v v' : ExecutorView ChildOutcome} {j : ℕ} (hj : j < c.calls)
    (h : ∀ i < c.calls, stageWeight (v'.tasks i) ≤ stageWeight (v.tasks i))
    (hlt : stageWeight (v'.tasks j) < stageWeight (v.tasks j)) :
    taskWeight c v' < taskWeight c v :=
  Finset.sum_lt_sum (fun i hi ↦ h i (Finset.mem_range.mp hi)) ⟨j, Finset.mem_range.mpr hj, hlt⟩

/-- Launching queued calls only takes weight away. -/
theorem stageWeight_launchFrom (v : ExecutorView ChildOutcome) (queue : List ℕ)
    (h : ∀ i ∈ queue, v.tasks i = .unlaunched) (i : ℕ) :
    stageWeight ((v.launchFrom queue).tasks i) ≤ stageWeight (v.tasks i) := by
  rcases v.launchFrom_tasks queue i with hi | ⟨hmem, hi⟩
  · rw [hi]
  · rw [hi, h i hmem]
    decide

theorem Good.queue_unlaunched (h : Good c s) :
    ∀ i ∈ s.view.queue, s.view.tasks i = .unlaunched :=
  fun i hi ↦ ((h.view.mem_queue i).mp hi).2

theorem taskWeight_submit (h : Good c s) :
    taskWeight c (s.view.submit s.submitted) ≤ taskWeight c s.view := by
  refine taskWeight_le fun i _ ↦ stageWeight_launchFrom { s.view with queue := _ } _ ?_ i
  intro j hj
  rcases List.mem_append.mp hj with hj | hj
  · exact h.queue_unlaunched j hj
  · rw [List.mem_singleton.mp hj]
    exact h.view.beyond _ le_rfl

/-- Moving the task of one call on decreases its weight and no other's. -/
theorem taskWeight_update (h : Good c s) {v : ExecutorView ChildOutcome} (j : ℕ)
    (stage : TaskStage) (hj : s.view.tasks j ≠ .unlaunched)
    (htasks : ∀ i, stageWeight (v.tasks i) ≤
      stageWeight (Function.update s.view.tasks j stage i))
    (hlt : stageWeight stage < stageWeight (s.view.tasks j)) :
    taskWeight c v < taskWeight c s.view := by
  have hsubmitted : j < c.calls := by
    have h₁ := h.view.lt_submitted hj
    by_cases hc : s.collector = .submitting
    · exact h₁.trans (h.submitting hc)
    · rw [← h.submitted hc]
      exact h₁
  refine taskWeight_lt hsubmitted (fun i _ ↦ (htasks i).trans ?_) ?_
  · by_cases hij : i = j
    · subst hij
      rw [Function.update_self]
      exact hlt.le
    · rw [Function.update_of_ne hij]
  · have := htasks j
    rw [Function.update_self] at this
    exact this.trans_lt hlt

theorem taskWeight_start (h : Good c s) {v : ExecutorView ChildOutcome} {j : ℕ}
    (hstep : s.view.start j = some v) : taskWeight c v < taskWeight c s.view := by
  unfold ExecutorView.start at hstep
  split at hstep
  · next hstage =>
      injection hstep with hstep
      subst hstep
      refine taskWeight_update h j _ (by simp [hstage]) (fun i ↦ le_refl _) ?_
      rw [hstage]
      split <;> decide
  · cases hstep

theorem taskWeight_finish (h : Good c s) {v : ExecutorView ChildOutcome} {j : ℕ}
    {outcome : ChildOutcome} (hstep : s.view.finish j outcome = some v) :
    taskWeight c v < taskWeight c s.view := by
  unfold ExecutorView.finish at hstep
  split at hstep
  · next hstage =>
      injection hstep with hstep
      subst hstep
      refine taskWeight_update h j _ (by simp [hstage]) (fun i ↦ le_refl _) ?_
      rw [hstage]
      decide
  · cases hstep

theorem taskWeight_underlyingDone (h : Good c s) {v : ExecutorView ChildOutcome} {j : ℕ}
    (hstep : s.view.underlyingDone j = some v) : taskWeight c v < taskWeight c s.view := by
  unfold ExecutorView.underlyingDone at hstep
  split at hstep
  · next hstage =>
      injection hstep with hstep
      subst hstep
      refine taskWeight_update h j .done (by simp [hstage]) (fun i ↦ ?_) ?_
      · refine stageWeight_launchFrom
          { s.view with inflight := _, tasks := Function.update s.view.tasks j .done } _ ?_ i
        intro k hk
        have hne : k ≠ j := fun hkj ↦ by
          have := h.queue_unlaunched k hk
          rw [hkj, hstage] at this
          cases this
        exact (Function.update_of_ne hne ..).trans (h.queue_unlaunched k hk)
      · rw [hstage]
        decide
  · cases hstep

theorem measure_checkDeadline (s : StageState) (late : Bool) :
    measure c (s.checkDeadline late) ≤ measure c s ∧
      (s.checkDeadline late).pending = s.pending ∧
      (s.checkDeadline late).stopped = s.stopped := by
  unfold checkDeadline
  split
  · refine ⟨?_, rfl, rfl⟩
    simp only [measure]
    cases s.collector <;> simp [collectorWeight]
  · exact ⟨le_rfl, rfl, rfl⟩

/-- A `wait` that times out does not add to the measure. -/
theorem measure_idle {late : Bool} (hstep : step c s (.idle late) = some t) :
    measure c t ≤ measure c s := by
  cases hc : s.collector with
  | waiting =>
      simp only [step, hc] at hstep
      split at hstep
      · injection hstep with hstep
        subst hstep
        exact (measure_checkDeadline s late).1
      · cases hstep
  | _ => simp [step, hc] at hstep

/-- What `wait` returns is taken out of `pending`. -/
theorem length_filter_add_le {done pending : List ℕ} (hnodup : done.Nodup)
    (hsub : ∀ i ∈ done, i ∈ pending) :
    (pending.filter (· ∉ done)).length + done.length ≤ pending.length := by
  have hle : done.length ≤ (pending.filter (· ∈ done)).length := by
    refine (hnodup.subperm fun i hi ↦ ?_).length_le
    exact List.mem_filter.mpr ⟨hsub i hi, by simpa using hi⟩
  have hsplit := List.length_eq_length_filter_add (l := pending) (f := fun i ↦ decide (i ∈ done))
  have hneg : (pending.filter fun i ↦ !decide (i ∈ done)) = pending.filter (· ∉ done) :=
    List.filter_congr fun i _ ↦ by simp
  rw [hneg] at hsplit
  omega

/-- A step of a thread only changes the tasks. -/
theorem measure_view {view : ExecutorView ChildOutcome}
    (h : taskWeight c view < taskWeight c s.view) :
    measure c { s with view := view } < measure c s := by
  have hsame : collectorWeight c { s with view := view } s.collector =
      collectorWeight c s s.collector := by
    cases s.collector <;> rfl
  simp only [measure, hsame]
  omega

/-- **Every productive step decreases the measure.** -/
theorem Good.measure_lt (h : Good c s) (hl : l.productive) (hstep : s.step c l = some t) :
    measure c t < measure c s := by
  cases l with
  | idle late => cases hl
  | start i =>
      simp only [StageState.step, Option.map_eq_some_iff] at hstep
      obtain ⟨view, hview, rfl⟩ := hstep
      exact measure_view (taskWeight_start h hview)
  | finish i outcome =>
      simp only [StageState.step, Option.map_eq_some_iff] at hstep
      obtain ⟨view, hview, rfl⟩ := hstep
      exact measure_view (taskWeight_finish h hview)
  | underlyingDone i =>
      simp only [StageState.step, Option.map_eq_some_iff] at hstep
      obtain ⟨view, hview, rfl⟩ := hstep
      exact measure_view (taskWeight_underlyingDone h hview)
  | submit =>
      cases hc : s.collector with
      | submitting =>
          have htasks := taskWeight_submit h
          have hlt := h.submitting hc
          simp only [StageState.step, hc] at hstep
          split at hstep
          · injection hstep with hstep
            subst hstep
            simp only [measure, collectorWeight, hc]
            omega
          · injection hstep with hstep
            subst hstep
            simp only [measure, collectorWeight, hc, List.length_range]
            omega
      | _ => simp [StageState.step, hc] at hstep
  | wait done late =>
      cases hc : s.collector with
      | waiting =>
          simp only [StageState.step, hc] at hstep
          split at hstep
          · next hdone =>
              injection hstep with hstep
              subst hstep
              have hlength := length_filter_add_le hdone.2.1 fun i hi ↦ (hdone.2.2 i hi).1
              have hpos := List.length_pos_iff.mpr hdone.1
              obtain ⟨-, -, hstopped⟩ := s.measure_checkDeadline (c := c) late
              simp only [measure, collectorWeight, hc, checkDeadline_view, hstopped]
              omega
          · cases hstep
      | _ => simp [StageState.step, hc] at hstep
  | collect =>
      cases hc : s.collector with
      | collecting batch =>
          cases batch with
          | nil =>
              simp only [StageState.step, hc] at hstep
              injection hstep with hstep
              subst hstep
              simp only [measure, collectorWeight, hc]
              omega
          | cons i rest =>
              simp only [StageState.step, hc, Option.map_eq_some_iff] at hstep
              obtain ⟨r, -, rfl⟩ := hstep
              have hpending := h.pending_length
              unfold collectOne
              dsimp only
              split
              · next hfirst =>
                  have hstopped : s.stopped = false := by
                    cases hs : s.stopped <;> simp_all
                  simp only [measure, collectorWeight, hc, hstopped, List.length_cons,
                    ↓reduceIte, Bool.false_eq_true]
                  omega
              · simp only [measure, collectorWeight, hc, List.length_cons]
                omega
      | _ => simp [StageState.step, hc] at hstep
  | cancel i =>
      cases hc : s.collector with
      | cancelling siblings batch =>
          simp only [StageState.step, hc] at hstep
          split at hstep
          · next hi =>
              injection hstep with hstep
              subst hstep
              have hlength := List.length_erase_of_mem hi
              have hpos := List.length_pos_of_mem hi
              have htasks : taskWeight c (s.view.cancel i) = taskWeight c s.view := rfl
              simp only [measure, collectorWeight, hc, hlength, htasks]
              omega
          · cases hstep
      | _ => simp [StageState.step, hc] at hstep
  | armDeadline =>
      cases hc : s.collector with
      | cancelling siblings batch =>
          cases siblings with
          | nil =>
              simp only [StageState.step, hc] at hstep
              injection hstep with hstep
              subst hstep
              simp only [measure, collectorWeight, hc, List.length_nil]
              omega
          | cons i rest => simp [StageState.step, hc] at hstep
      | _ => simp [StageState.step, hc] at hstep
  | leave =>
      cases hc : s.collector with
      | waiting =>
          simp only [StageState.step, hc] at hstep
          split at hstep
          · injection hstep with hstep
            subst hstep
            simp only [measure, collectorWeight, hc]
            omega
          · cases hstep
      | _ => simp [StageState.step, hc] at hstep
  | shutdown =>
      cases hc : s.collector with
      | closing =>
          simp only [StageState.step, hc] at hstep
          injection hstep with hstep
          subst hstep
          have htasks : taskWeight c s.view.launchAvailable ≤ taskWeight c s.view :=
            taskWeight_le fun i _ ↦ stageWeight_launchFrom _ _ h.queue_unlaunched i
          simp only [measure, collectorWeight, hc]
          omega
      | _ => simp [StageState.step, hc] at hstep
  | join =>
      cases hc : s.collector with
      | joining =>
          simp only [StageState.step, hc] at hstep
          split at hstep
          · injection hstep with hstep
            subst hstep
            simp only [measure, collectorWeight, hc]
            omega
          · cases hstep
      | _ => simp [StageState.step, hc] at hstep

/-! ## Lost siblings -/

/-- The collector waits for a sibling that was cancelled in the queue of the view. -/
structure Doomed (s : StageState) (i : ℕ) : Prop where
  pending : i ∈ s.pending
  lost : s.view.Lost i
  looping : s.collector ≠ .submitting ∧ s.collector.left = false

/-- Cancelling a queued sibling dooms the stage. -/
theorem Good.doomed (h : Good c s) (hspares : ¬ s.SparesQueue l) (hstep : s.step c l = some t) :
    ∃ i, t.Doomed i := by
  cases l with
  | cancel i =>
      have hqueue : i ∈ s.view.queue := not_not.mp hspares
      have hunlaunched := h.queue_unlaunched i hqueue
      have hagrees := h.view.agrees i
      rw [hunlaunched] at hagrees
      have hpending : s.view.futures i = .pending := hagrees
      cases hc : s.collector with
      | cancelling siblings batch =>
          have hsiblings := h.siblings
          rw [hc] at hsiblings
          simp only [StageState.step, hc] at hstep
          split at hstep
          · next hi =>
              injection hstep with hstep
              subst hstep
              refine ⟨i, hsiblings i hi, ⟨hunlaunched, ?_⟩, by simp, rfl⟩
              simp [ExecutorView.cancel, hpending, FutureState.cancel]
          · cases hstep
      | _ => simp [StageState.step, hc] at hstep
  | _ => exact absurd trivial hspares

/-- A doomed stage stays doomed, whatever step is taken. -/
theorem Doomed.step {i : ℕ} (h : s.Doomed i) (hstep : s.step c l = some t) : t.Doomed i := by
  have hnot : (s.view.futures i).isReported = false := by
    rw [h.lost.2]
    rfl
  have hsubmitting := h.looping.1
  have hleft := h.looping.2
  cases l with
  | submit =>
      cases hc : s.collector with
      | submitting => exact absurd hc hsubmitting
      | _ => simp [StageState.step, hc] at hstep
  | idle late =>
      cases hc : s.collector with
      | waiting =>
          simp only [StageState.step, hc] at hstep
          split at hstep
          · injection hstep with hstep
            subst hstep
            obtain ⟨-, hpending, -⟩ := s.measure_checkDeadline (c := c) late
            exact ⟨by rw [hpending]; exact h.pending, by simpa using h.lost, by simp [hc], by
              simp [hc, Collector.left]⟩
          · cases hstep
      | _ => simp [StageState.step, hc] at hstep
  | wait done late =>
      cases hc : s.collector with
      | waiting =>
          simp only [StageState.step, hc] at hstep
          split at hstep
          · next hdone =>
              injection hstep with hstep
              subst hstep
              have hi : i ∉ done := fun hmem ↦ by
                have := (hdone.2.2 i hmem).2
                rw [hnot] at this
                cases this
              exact ⟨List.mem_filter.mpr ⟨h.pending, by simpa using hi⟩, by simpa using h.lost,
                by simp, rfl⟩
          · cases hstep
      | _ => simp [StageState.step, hc] at hstep
  | collect =>
      cases hc : s.collector with
      | collecting batch =>
          cases batch with
          | nil =>
              simp only [StageState.step, hc] at hstep
              injection hstep with hstep
              subst hstep
              exact ⟨h.pending, h.lost, by simp, rfl⟩
          | cons j rest =>
              simp only [StageState.step, hc, Option.map_eq_some_iff] at hstep
              obtain ⟨r, -, rfl⟩ := hstep
              unfold collectOne
              dsimp only
              split
              · exact ⟨h.pending, h.lost, by simp, rfl⟩
              · exact ⟨h.pending, h.lost, by simp, rfl⟩
      | _ => simp [StageState.step, hc] at hstep
  | cancel j =>
      cases hc : s.collector with
      | cancelling siblings batch =>
          simp only [StageState.step, hc] at hstep
          split at hstep
          · injection hstep with hstep
            subst hstep
            exact ⟨h.pending, h.lost.cancel j, by simp, rfl⟩
          · cases hstep
      | _ => simp [StageState.step, hc] at hstep
  | armDeadline =>
      cases hc : s.collector with
      | cancelling siblings batch =>
          cases siblings with
          | nil =>
              simp only [StageState.step, hc] at hstep
              injection hstep with hstep
              subst hstep
              exact ⟨h.pending, h.lost, by simp, rfl⟩
          | cons j rest => simp [StageState.step, hc] at hstep
      | _ => simp [StageState.step, hc] at hstep
  | leave =>
      cases hc : s.collector with
      | waiting =>
          simp only [StageState.step, hc, if_neg (List.ne_nil_of_mem h.pending)] at hstep
          cases hstep
      | _ => simp [StageState.step, hc] at hstep
  | shutdown =>
      cases hc : s.collector with
      | closing => simp [hc, Collector.left] at hleft
      | _ => simp [StageState.step, hc] at hstep
  | join =>
      cases hc : s.collector with
      | joining => simp [hc, Collector.left] at hleft
      | _ => simp [StageState.step, hc] at hstep
  | start j =>
      simp only [StageState.step, Option.map_eq_some_iff] at hstep
      obtain ⟨view, hview, rfl⟩ := hstep
      exact ⟨h.pending, h.lost.start hview, hsubmitting, hleft⟩
  | finish j outcome =>
      simp only [StageState.step, Option.map_eq_some_iff] at hstep
      obtain ⟨view, hview, rfl⟩ := hstep
      exact ⟨h.pending, h.lost.finish hview, hsubmitting, hleft⟩
  | underlyingDone j =>
      simp only [StageState.step, Option.map_eq_some_iff] at hstep
      obtain ⟨view, hview, rfl⟩ := hstep
      exact ⟨h.pending, h.lost.underlyingDone hview, hsubmitting, hleft⟩

theorem Doomed.not_returned {i : ℕ} (h : s.Doomed i) : s.collector ≠ .returned := by
  intro hc
  have := h.looping.2
  simp [hc, Collector.left] at this

/-- A stage that has returned stays so. -/
theorem returned_step (h : s.collector = .returned) (hstep : s.step c l = some t) :
    t.collector = .returned := by
  cases l with
  | start i =>
      simp only [StageState.step, Option.map_eq_some_iff] at hstep
      obtain ⟨view, -, rfl⟩ := hstep
      exact h
  | finish i outcome =>
      simp only [StageState.step, Option.map_eq_some_iff] at hstep
      obtain ⟨view, -, rfl⟩ := hstep
      exact h
  | underlyingDone i =>
      simp only [StageState.step, Option.map_eq_some_iff] at hstep
      obtain ⟨view, -, rfl⟩ := hstep
      exact h
  | _ => simp [StageState.step, h] at hstep

/-! ## Termination -/

/-- The stage has returned with exactly one result for every call, each the one of its
future, and reports the calls cancelled before they started as cancelled. -/
structure Complete (c : StageConfig) (s : StageState) : Prop where
  returned : s.collector = .returned
  result : ∀ i < c.calls, ∃ r, s.results i = some r ∧
    futureResult (s.view.futures i) = some r.report
  only : ∀ i, c.calls ≤ i → s.results i = none
  cancelled : ∀ i < c.calls, (s.view.futures i).isCancelled →
    i ∈ s.cancelledCalls ∧ ∃ r, s.results i = some r ∧ r.report = .cancelledBeforeStart

theorem Good.complete (h : Good c s) (hreturned : s.collector = .returned) : s.Complete c := by
  have hleft : s.collector.left := by simp [hreturned, Collector.left]
  have hresult : ∀ i < c.calls, ∃ r, s.results i = some r ∧
      futureResult (s.view.futures i) = some r.report := by
    intro i hi
    rcases h.covered (by simp [hreturned]) i hi with hp | hb | hr
    · rw [h.left hleft] at hp
      cases hp
    · simp [hreturned, Collector.batch] at hb
    · obtain ⟨r, hr⟩ := Option.isSome_iff_exists.mp hr
      exact ⟨r, hr, (h.results i r hr).2.2⟩
  refine ⟨hreturned, hresult, fun i hi ↦ ?_, fun i hi hcancelled ↦ ?_⟩
  · cases hr : s.results i with
    | none => rfl
    | some r => exact absurd (h.results i r hr).1 (not_lt.mpr hi)
  · refine ⟨?_, ?_⟩
    · rw [h.cancelled hleft]
      exact List.mem_filter.mpr ⟨List.mem_range.mpr hi, hcancelled⟩
    · obtain ⟨r, hr, hreport⟩ := hresult i hi
      refine ⟨r, hr, ?_⟩
      cases hf : s.view.futures i <;> simp_all [FutureState.isCancelled, futureResult]

/-- **Exactly when a parallel stage terminates.**  An execution in which no thread is
starved for ever reaches a state in which the stage has returned one result per call if
and only if the collector never cancels a sibling that is still waiting in the queue of
the executor view. -/
theorem parallel_stage_terminates_iff (c : StageConfig)
    (e : Machine.Execution (step c) (initial c)) (hfair : e.Fair StageLabel.productive) :
    (∃ n, (e.state n).Complete c) ↔ ∀ n l, e.label n = some l → (e.state n).SparesQueue l := by
  constructor
  · rintro ⟨n, hn⟩
    by_contra hbad
    have hexists : ∃ m, ∃ l, e.label m = some l ∧ ¬ (e.state m).SparesQueue l := by
      push Not at hbad
      exact hbad
    -- The first step that cancels a queued sibling dooms the rest of the execution.
    classical
    let m := Nat.find hexists
    obtain ⟨l, hl, hspares⟩ : ∃ l, e.label m = some l ∧ ¬ (e.state m).SparesQueue l :=
      Nat.find_spec hexists
    have hfirst : ∀ k < m, ∀ l, e.label k = some l → (e.state k).SparesQueue l := by
      intro k hk l hl
      by_contra h
      exact Nat.find_min hexists hk ⟨l, hl, h⟩
    have hgood := good_of_reach (e.reach hfirst)
    obtain ⟨i, hdoomed⟩ := hgood.doomed hspares (e.next m l hl)
    rcases Nat.lt_or_ge m n with hlt | hge
    · have hlater : (e.state n).Doomed i :=
        e.persists (I := fun s ↦ s.Doomed i) (fun _ _ _ h hstep ↦ h.step hstep) hdoomed hlt
      exact hlater.not_returned hn.returned
    · have hlater : (e.state (m + 1)).collector = .returned :=
        e.persists (I := fun s ↦ s.collector = .returned) (fun _ _ _ ↦ returned_step)
          hn.returned (hge.trans (Nat.le_succ m))
      exact hdoomed.not_returned hlater
  · intro hspares
    have hgood : ∀ n, Good c (e.state n) := fun n ↦
      good_of_reach (e.reach fun m _ ↦ hspares m)
    obtain ⟨N, hN⟩ := e.quiescent (measure c)
      (fun n l hl ↦ by
        cases hprod : l.productive with
        | true => exact ((hgood n).measure_lt hprod (e.next n l hl)).le
        | false =>
            cases l with
            | idle late => exact measure_idle (e.next n _ hl)
            | _ => cases hprod)
      (fun n l hl hprod ↦ (hgood n).measure_lt hprod (e.next n l hl))
    refine ⟨N, (hgood N).complete ?_⟩
    by_contra hreturned
    obtain ⟨m, hm, l, hl, hprod⟩ := hfair N ((hgood N).progress hreturned)
    rw [hN m hm l hl] at hprod
    cases hprod

/-! ### Two runs of a stage of two calls -/

/-- A `fail_fast` stage of two calls with the given number of workers. -/
def twoCalls (workers : ℤ) : StageConfig where
  calls := 2
  failFast := true
  maxWorkers := 0
  grantWorkers := workers
  grantThreads := workers
  totalThreads := workers
  one_le_calls := by decide

/-- With two workers: the first call fails before a thread has taken up the second one,
which is cancelled and reported as such. -/
def cancelledBeforeStart : List StageLabel :=
  [.submit, .submit, .start 0, .finish 0 (.returned false), .wait [0] false, .collect,
    .cancel 1, .armDeadline, .collect, .start 1, .wait [1] false, .collect, .collect, .leave,
    .shutdown, .underlyingDone 0, .underlyingDone 1, .join]

theorem cancelledBeforeStart_run :
    (Machine.run (Machine.guarded (step (twoCalls 2)) SparesQueue) (initial (twoCalls 2))
      cancelledBeforeStart).map (measure (twoCalls 2)) = some 0 := by
  decide

theorem parallel_stage_terminates_iff_twoCalls :
    ∃ e : Machine.Execution (step (twoCalls 2)) (initial (twoCalls 2)),
      (∀ n, e.label n = cancelledBeforeStart[n]?) ∧
      ((∃ n, (e.state n).Complete (twoCalls 2)) ↔
        ∀ n l, e.label n = some l → (e.state n).SparesQueue l) := by
  obtain ⟨t, ht, hzero⟩ := Option.map_eq_some_iff.mp cancelledBeforeStart_run
  have hgood := good_of_reach (Machine.reach_of_run ht)
  have hfair := Machine.Execution.fair_ofRun (Machine.run_of_guarded ht)
    (by decide : ∀ l ∈ cancelledBeforeStart, l.productive) fun l u hl hstep ↦ by
      have := hgood.measure_lt hl hstep
      omega
  exact ⟨Machine.Execution.ofRun (Machine.run_of_guarded ht), fun _ ↦ rfl,
    parallel_stage_terminates_iff (twoCalls 2) _ hfair⟩

/-- With one worker: the first call fails while the second one is still queued. -/
def cancelledInQueue : List StageLabel :=
  [.submit, .submit, .start 0, .finish 0 (.returned false), .wait [0] false, .collect,
    .cancel 1, .armDeadline, .collect, .underlyingDone 0]

/-- The run ends in a state in which the only started child is finished, its sibling is
still in `pending`, and nothing that can happen removes it or lets the stage return. -/
theorem queued_sibling_waits_for_ever :
    ∃ s, Machine.run (step (twoCalls 1)) (initial (twoCalls 1)) cancelledInQueue = some s ∧
      s.collector = .waiting ∧ s.pending = [1] ∧ s.view.tasks 0 = .done ∧
      s.view.tasks 1 = .unlaunched ∧ ∀ u, Machine.Reach (step (twoCalls 1)) Machine.anyStep s u →
        1 ∈ u.pending ∧ ¬ u.Complete (twoCalls 1) := by
  have hrun : (Machine.run (step (twoCalls 1)) (initial (twoCalls 1)) cancelledInQueue).any
      (fun s ↦ s.collector = .waiting ∧ s.pending = [1] ∧ s.view.tasks 0 = .done ∧
        s.view.tasks 1 = .unlaunched ∧ s.view.futures 1 = .cancelled) = true := by
    decide
  obtain ⟨s, hs, hfacts⟩ := (Option.any_eq_true _ _).mp hrun
  simp only [Bool.decide_and, Bool.and_eq_true, decide_eq_true_eq] at hfacts
  obtain ⟨hcollector, hpending, hdone, hunlaunched, hcancelled⟩ := hfacts
  have hdoomed : s.Doomed 1 :=
    ⟨by simp [hpending], ⟨hunlaunched, hcancelled⟩, by simp [hcollector],
      by simp [hcollector, Collector.left]⟩
  refine ⟨s, hs, hcollector, hpending, hdone, hunlaunched, fun u hu ↦ ?_⟩
  have hu' : u.Doomed 1 := Machine.Reach.invariant (I := fun u ↦ u.Doomed 1) hu hdoomed
    fun _ _ _ h _ hstep ↦ Doomed.step h hstep
  exact ⟨hu'.pending, fun h ↦ hu'.not_returned h.returned⟩

end StageState

end Blackbase.Project

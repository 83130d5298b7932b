import Blackbase.Core.Machine
import Blackbase.Resources.Pool

/-!
# Parallel Case stages

`CaseStageRunner._run_parallel` of `project/case_stages.py` as a machine: the
collecting loop and the threads of the executor view take steps in any order.  One
step of the collector is one operation on shared state: submitting a call, a `wait`
that returns, collecting one future, cancelling one sibling, leaving the `with`
block.  The parent is not cancelled and the control heartbeat is healthy, so
`checkpoint` and `assert_current` do nothing.
-/

namespace Blackbase.Project

open Blackbase.Resources

/-- How a child invocation ends. -/
inductive ChildOutcome where
  /-- It returns an envelope, with its `ok`. -/
  | returned (ok : Bool)
  /-- It raises an exception other than `CancelledError`. -/
  | raised
  /-- It raises `CancelledError`. -/
  | raisedCancelled
deriving DecidableEq, Repr

/-- What `_future_result` makes of a future. -/
inductive Report where
  /-- The child's own envelope. -/
  | envelope (ok : Bool)
  /-- `stage_child_exception`. -/
  | childException
  /-- `stage_cancelled_before_start`. -/
  | cancelledBeforeStart
deriving DecidableEq, Repr

/-- `CaseRunResult.ok`. -/
def Report.ok : Report → Bool
  | .envelope ok => ok
  | _ => false

/-- `_future_result`; `none` where `future.result()` would block. -/
def futureResult : FutureState ChildOutcome → Option Report
  | .pending | .running => none
  | .cancelled | .cancelledAndNotified => some .cancelledBeforeStart
  | .finished (.returned ok) => some (.envelope ok)
  | .finished .raised => some .childException
  | .finished .raisedCancelled => some .cancelledBeforeStart

/-- The result of one call: the report, and the `stage_cancellation_overdue` mark. -/
structure CallResult where
  report : Report
  overdue : Bool
deriving DecidableEq, Repr

/-- A parallel stage, and what of its parent's grant bounds its workers. -/
structure StageConfig where
  calls : ℕ
  failFast : Bool
  /-- `max_workers`; zero means one worker per call. -/
  maxWorkers : ℕ
  grantWorkers : ℤ
  grantThreads : ℤ
  /-- The threads of the Case-scoped scheduler. -/
  totalThreads : ℤ
  /-- `CaseStage.__post_init__`: "Case stage requires at least one child call". -/
  one_le_calls : 1 ≤ calls

namespace StageConfig

/-- `stage_worker_capacity`. -/
def stageWorkerCapacity (c : StageConfig) (requested : ℤ) : ℤ :=
  max 1 (min (min requested (max 1 c.grantWorkers)) (max 1 c.grantThreads))

/-- The worker count of the view `stage_executor` enters. -/
def workerCount (c : StageConfig) : ℕ :=
  let requested : ℤ := if c.maxWorkers = 0 then c.calls else c.maxWorkers
  let workers := c.stageWorkerCapacity requested
  (max 1 (min (max 1 (c.stageWorkerCapacity workers)) c.totalThreads)).toNat

theorem workerCount_pos (c : StageConfig) : 0 < c.workerCount := by
  simp only [workerCount]
  omega

end StageConfig

/-- Where the collecting thread is. -/
inductive Collector where
  | submitting
  /-- At the head of the loop. -/
  | waiting
  /-- In the loop over the futures `wait` returned; `batch` are left. -/
  | collecting (batch : List ℕ)
  /-- In the loop cancelling the siblings; `siblings` are left. -/
  | cancelling (siblings batch : List ℕ)
  /-- Leaving the `with` block. -/
  | closing
  /-- In `shutdown(wait=True)` of the view. -/
  | joining
  | returned
deriving DecidableEq, Repr

namespace Collector

/-- The futures taken out of `pending` and not collected yet. -/
def batch : Collector → List ℕ
  | .collecting batch | .cancelling _ batch => batch
  | _ => []

/-- The siblings still to be cancelled. -/
def siblings : Collector → List ℕ
  | .cancelling siblings _ => siblings
  | _ => []

/-- The loop over `pending` has been left. -/
def left : Collector → Bool
  | .closing | .joining | .returned => true
  | _ => false

end Collector

/-- The state of a stage: the executor view and the variables of `_run_parallel`. -/
structure StageState where
  view : ExecutorView ChildOutcome
  collector : Collector
  submitted : ℕ
  pending : List ℕ
  results : ℕ → Option CallResult
  stopped : Bool
  /-- `cancellation_deadline` is set. -/
  deadline : Bool
  cancellationOverdue : List ℕ
  cancelledCalls : List ℕ

/-- One step of the stage.  `late` says that the clock has reached the cancellation
deadline when the collector looks. -/
inductive StageLabel where
  | submit
  /-- `wait` times out. -/
  | idle (late : Bool)
  /-- `wait` returns the futures `done`. -/
  | wait (done : List ℕ) (late : Bool)
  | collect
  | cancel (sibling : ℕ)
  | armDeadline
  | leave
  | shutdown
  | join
  /-- A thread takes a launched call up. -/
  | start (i : ℕ)
  /-- The child of call `i` returns or raises. -/
  | finish (i : ℕ) (outcome : ChildOutcome)
  /-- The underlying future of call `i` is done. -/
  | underlyingDone (i : ℕ)
deriving DecidableEq, Repr

/-- Every step but a `wait` that times out. -/
def StageLabel.productive : StageLabel → Bool
  | .idle _ => false
  | _ => true

namespace StageState

/-- The state in which the stage starts submitting. -/
def initial (c : StageConfig) : StageState where
  view := .entered c.workerCount
  collector := .submitting
  submitted := 0
  pending := []
  results := fun _ ↦ none
  stopped := false
  deadline := false
  cancellationOverdue := []
  cancelledCalls := []

/-- The look at the cancellation deadline after each `wait`. -/
def checkDeadline (s : StageState) (late : Bool) : StageState :=
  if s.deadline && late then
    { s with
      cancellationOverdue :=
        s.cancellationOverdue ++ s.pending.filter fun i ↦ !(s.view.futures i).isDone
      deadline := false }
  else s

/-- Collecting future `i` with report `r`: its result is recorded, and the first
failure of a `fail_fast` stage makes the collector cancel the siblings. -/
def collectOne (s : StageState) (failFast : Bool) (i : ℕ) (r : Report) (rest : List ℕ) :
    StageState :=
  let results := Function.update s.results i (some ⟨r, i ∈ s.cancellationOverdue⟩)
  if !r.ok && failFast && !s.stopped then
    { s with results := results, stopped := true, collector := .cancelling s.pending rest }
  else { s with results := results, collector := .collecting rest }

/-- One step of the collecting thread or of one of the view's threads. -/
def step (c : StageConfig) (s : StageState) : StageLabel → Option StageState
  | .submit =>
      match s.collector with
      | .submitting =>
          let submitted := s.submitted + 1
          let view := s.view.submit s.submitted
          if submitted < c.calls then some { s with view := view, submitted := submitted }
          else some { s with view := view, submitted := submitted,
                             pending := List.range c.calls, collector := .waiting }
      | _ => none
  | .idle late =>
      match s.collector with
      | .waiting =>
          if s.pending ≠ [] ∧ ∀ i ∈ s.pending, !(s.view.futures i).isReported then
            some (s.checkDeadline late)
          else none
      | _ => none
  | .wait done late =>
      match s.collector with
      | .waiting =>
          if done ≠ [] ∧ done.Nodup ∧
              ∀ i ∈ done, i ∈ s.pending ∧ (s.view.futures i).isReported then
            some { s.checkDeadline late with
              pending := s.pending.filter (· ∉ done), collector := .collecting done }
          else none
      | _ => none
  | .collect =>
      match s.collector with
      | .collecting [] => some { s with collector := .waiting }
      | .collecting (i :: rest) =>
          (futureResult (s.view.futures i)).map fun r ↦ s.collectOne c.failFast i r rest
      | _ => none
  | .cancel sibling =>
      match s.collector with
      | .cancelling siblings batch =>
          if sibling ∈ siblings then
            some { s with view := s.view.cancel sibling,
                          collector := .cancelling (siblings.erase sibling) batch }
          else none
      | _ => none
  | .armDeadline =>
      match s.collector with
      | .cancelling [] batch => some { s with deadline := true, collector := .collecting batch }
      | _ => none
  | .leave =>
      match s.collector with
      | .waiting =>
          if s.pending = [] then
            some { s with
              collector := .closing
              cancelledCalls :=
                (List.range c.calls).filter fun i ↦ (s.view.futures i).isCancelled
              -- a call without a result gets the result of its future
              results := fun i ↦ if i < c.calls ∧ s.results i = none then
                (futureResult (s.view.futures i)).map (⟨·, false⟩) else s.results i }
          else none
      | _ => none
  | .shutdown =>
      match s.collector with
      | .closing => some { s with view := s.view.launchAvailable, collector := .joining }
      | _ => none
  | .join =>
      match s.collector with
      | .joining =>
          if s.view.queue = [] ∧ s.view.inflight = [] ∧
              ∀ i < c.calls, (s.view.futures i).isDone then
            some { s with collector := .returned }
          else none
      | _ => none
  | .start i => (s.view.start i).map fun view ↦ { s with view := view }
  | .finish i outcome => (s.view.finish i outcome).map fun view ↦ { s with view := view }
  | .underlyingDone i => (s.view.underlyingDone i).map fun view ↦ { s with view := view }

/-- The stage never cancels a sibling that is still waiting in the queue of the
executor view. -/
def SparesQueue (s : StageState) : StageLabel → Prop
  | .cancel sibling => sibling ∉ s.view.queue
  | _ => True

instance (s : StageState) (l : StageLabel) : Decidable (s.SparesQueue l) :=
  match l with
  | .cancel sibling => inferInstanceAs (Decidable (sibling ∉ s.view.queue))
  | .submit | .idle _ | .wait _ _ | .collect | .armDeadline | .leave | .shutdown | .join
  | .start _ | .finish _ _ | .underlyingDone _ => inferInstanceAs (Decidable True)

end StageState

end Blackbase.Project

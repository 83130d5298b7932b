import Blackbase.Core.Selection

/-!
# Parallel slots

`_run_parallel` of `kernel/orchestrator.py` with its two collectors, `_collect_future_batch` and
`_collect_pool_batch`.  What a turn of a collector sees, the order in which futures finish, what
`cancel` and `done` answer, is given by a script; a turn that cannot be taken, or a loop that has
not ended with the script, gives `none`.

The futures of a batch are distinct objects, and stand for the branches they were made for.
-/

namespace Blackbase.Kernel.Parallel

universe u

/-- What a finished branch has: its value, or the type and the text of an exception, which may be a
`CancelledError`. -/
inductive Outcome (V : Type u) where
  | value (v : V)
  | raised (errorType message : String) (cancelled : Bool)

/-- The branch has raised. -/
def Outcome.failed {V : Type u} : Outcome V → Bool
  | value _ => false
  | raised _ _ _ => true

/-- `ParallelBranchFailure`. -/
structure ParallelBranchFailure where
  index : ℕ
  operator : String
  errorType : String
  message : String
  timedOut : Bool
  cancelled : Bool
  stillRunning : Bool
deriving DecidableEq

/-- What `cancel()` says of a pending branch, and `done` after it. -/
structure Answer where
  index : ℕ
  cancelled : Bool
  done : Bool

/-- What a turn of a collector sees. -/
inductive Turn (V : Type u) where
  /-- The run control is set, for this reason. -/
  | control (reason : String) (answers : List Answer)
  /-- The deadline has passed, before or while waiting. -/
  | expired (answers : List Answer)
  /-- Some branches are done.  The answers are those of the others, if they are cancelled. -/
  | done (results : List (ℕ × Outcome V)) (answers : List Answer)
  /-- No branch is done. -/
  | idle

/-- The settings of a parallel slot, and what it runs on. -/
structure Slot where
  /-- The names of the operators of the branches. -/
  operators : List String
  workerLimit : ℕ
  strict : Bool
  cancelOnError : Bool
  /-- There is a deadline. -/
  deadline : Bool
  /-- The branches run on a pool, and not on an executor. -/
  pool : Bool
  one_le_workerLimit : 1 ≤ workerLimit

/-- The name of the operator of a branch. -/
def Slot.operatorName (slot : Slot) (index : ℕ) : String := slot.operators.getD index ""

/-! ## Collectors -/

/-- The locals of a collector. -/
structure Collector (V : Type u) where
  successes : List (ℕ × V)
  failures : List ParallelBranchFailure
  pending : List ℕ
  abort : Bool

variable {V : Type u}

namespace Collector

variable (slot : Slot)

/-- The collector of a batch. -/
def start (batch : List ℕ) : Collector V := ⟨[], [], batch, false⟩

/-- The failure of a branch that is cancelled while it is pending. -/
def cancelledFailure (reason : String) (timedOut : Bool) (a : Answer) : ParallelBranchFailure where
  index := a.index
  operator := slot.operatorName a.index
  errorType := if timedOut then "TimeoutError" else "CancelledError"
  message := reason
  timedOut := timedOut
  cancelled := a.cancelled
  stillRunning := !a.cancelled && !a.done

/-- `cancel_pending`, which goes through the pending branches in the order of the answers. -/
def cancelPending (c : Collector V) (reason : String) (timedOut : Bool) (answers : List Answer) :
    Option (Collector V) :=
  if (answers.map Answer.index).Perm c.pending then
    some {
      successes := c.successes
      failures := c.failures ++ answers.map (cancelledFailure slot reason timedOut)
      pending := []
      abort := true }
  else none

/-- The result of a branch that is done is read. -/
def read (c : Collector V) (result : ℕ × Outcome V) : Collector V :=
  let pending := c.pending.erase result.1
  match result.2 with
  | .value v => { c with pending := pending, successes := c.successes ++ [(result.1, v)] }
  | .raised errorType message cancelled =>
      { c with
        pending := pending
        failures := c.failures ++ [{
          index := result.1
          operator := slot.operatorName result.1
          errorType := errorType
          message := message
          timedOut := false
          cancelled := cancelled
          stillRunning := false }] }

/-- One turn of the loop of a collector. -/
def turn (c : Collector V) : Turn V → Option (Collector V)
  | .control reason answers => c.cancelPending slot reason false answers
  | .expired answers =>
      if slot.deadline then c.cancelPending slot "parallel slot deadline exceeded" true answers
      else none
  | .done results answers =>
      let indices := results.map Prod.fst
      if results ≠ [] ∧ indices.Nodup ∧ indices ⊆ c.pending then
        let c := results.foldl (read slot) c
        if results.any (fun r ↦ r.2.failed) ∧ slot.strict ∧ slot.cancelOnError ∧ c.pending ≠ [] then
          c.cancelPending slot "cancelled after strict branch failure" false answers
        else some c
      else none
  | .idle => if slot.pool then some c else none

/-- `_collect_future_batch` and `_collect_pool_batch`: turns until nothing is pending. -/
def collect : List (Turn V) → Collector V → Option (Collector V)
  | [], c => if c.pending = [] then some c else none
  | t :: turns, c => if c.pending = [] then none else (c.turn slot t).bind (collect turns)

end Collector

/-! ## Runs -/

/-- What a run does that others see: it submits branches, and it collects failures. -/
inductive Event where
  | submitted (index : ℕ)
  | collected (failure : ParallelBranchFailure)
deriving DecidableEq

/-- The locals of `_run_parallel`, and what it has done so far. -/
structure Run (V : Type u) where
  successes : List (ℕ × V)
  failures : List ParallelBranchFailure
  abort : Bool
  events : List Event

/-- The run before any batch. -/
def Run.start : Run V := ⟨[], [], false, []⟩

/-- A batch has been submitted and collected. -/
def Run.add (r : Run V) (batch : List ℕ) (c : Collector V) : Run V where
  successes := r.successes ++ c.successes
  failures := r.failures ++ c.failures
  abort := c.abort
  events := r.events ++ batch.map .submitted ++ c.failures.map .collected

/-- The batches of some branches: as many as the worker limit at a time. -/
def batchesOf (limit : ℕ) : ℕ → List ℕ → List (List ℕ)
  | 0, _ => []
  | _ + 1, [] => []
  | n + 1, index :: rest =>
      (index :: rest).take limit :: batchesOf limit n ((index :: rest).drop limit)

/-- The batches of a slot. -/
def Slot.batches (slot : Slot) : List (List ℕ) :=
  batchesOf slot.workerLimit slot.operators.length (List.range slot.operators.length)

/-- The loop over the batches, which ends after one that aborts. -/
def runBatches (slot : Slot) : List (List ℕ) → List (List (Turn V)) → Run V → Option (Run V)
  | [], [], r => some r
  | batch :: rest, turns :: script, r =>
      (Collector.collect slot turns (Collector.start batch)).bind fun c ↦
        let r := r.add batch c
        if r.abort then if script = [] then some r else none
        else runBatches slot rest script r
  | _, _, _ => none

/-- The failure of a branch that was not submitted. -/
def unsubmittedFailure (slot : Slot) (timedOut : Bool) (index : ℕ) : ParallelBranchFailure where
  index := index
  operator := slot.operatorName index
  errorType := if timedOut then "TimeoutError" else "CancelledError"
  message :=
    if timedOut then "parallel slot deadline exceeded before branch submission"
    else "cancelled before branch submission"
  timedOut := timedOut
  cancelled := true
  stillRunning := false

/-- The failures, with those of the branches that an abort left out. -/
def Run.backfilled (r : Run V) (slot : Slot) : List ParallelBranchFailure :=
  if r.abort then
    r.failures ++ ((List.range slot.operators.length).filter fun index ↦
      index ∉ r.successes.map Prod.fst ∧ index ∉ r.failures.map ParallelBranchFailure.index).map
        (unsubmittedFailure slot (r.failures.any ParallelBranchFailure.timedOut))
  else r.failures

/-- `last_parallel_report`. -/
structure Report where
  branchCount : ℕ
  completedCount : ℕ
  failureCount : ℕ
  successIndices : List ℕ
  failures : List ParallelBranchFailure
  timedOut : Bool
  cancelled : Bool
  stillRunning : Bool
  stillRunningCount : ℕ

/-- `_record_parallel_report`. -/
def recordParallelReport (branchCount : ℕ) (successes : List (ℕ × V))
    (failures : List ParallelBranchFailure) : Report where
  branchCount := branchCount
  completedCount := successes.length
  failureCount := failures.length
  successIndices := (successes.map Prod.fst).insertionSort (· ≤ ·)
  failures := failures
  timedOut := failures.any ParallelBranchFailure.timedOut
  cancelled := failures.any ParallelBranchFailure.cancelled
  stillRunning := failures.any ParallelBranchFailure.stillRunning
  stillRunningCount := (failures.filter ParallelBranchFailure.stillRunning).length

/-- What `_run_parallel` leaves: the ordered results, which it returns or hands to a
`PipelineParallelError`, and the report. -/
structure Result (V : Type u) where
  results : List V
  failures : List ParallelBranchFailure
  raised : Bool
  report : Report
  successes : List (ℕ × V)
  events : List Event

/-- The end of `_run_parallel`. -/
def Run.finish (r : Run V) (slot : Slot) : Result V :=
  let failures := Selection.sorted ParallelBranchFailure.index (r.backfilled slot)
  { results := (Selection.sorted Prod.fst r.successes).map Prod.snd
    failures := failures
    raised := failures ≠ [] && slot.strict
    report := recordParallelReport slot.operators.length r.successes failures
    successes := r.successes
    events := r.events }

/-- `_run_parallel`. -/
def runParallel (slot : Slot) (script : List (List (Turn V))) : Option (Result V) :=
  (runBatches slot slot.batches script Run.start).map fun r ↦ r.finish slot

end Blackbase.Kernel.Parallel

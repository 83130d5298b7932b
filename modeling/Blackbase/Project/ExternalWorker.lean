import Blackbase.Resources.Transport.Fencing

/-!
# One round of an external worker

`ExternalCaseWorker.run_once` claims a task, checks the authorities its request names, starts a
thread that keeps the lease alive, executes the Case and hands in the result.  The checks run in
one `try`, whose handler fails the task; execution and completion run in another, whose handler
fails the task too and forgives the refusal of a lost lease if the heartbeat thread has seen the
loss.

The transport is the one of `resources/transport.py` with any number of other clients; each of its
calls is one step with a clock reading of its own.  What the checks find, what the execution gives
and what the worker's registration and the Project's lease answer are choices of the labels.
-/

namespace Blackbase.Project

open Resources

/-- What `run_once` reads of the worker. -/
structure ExternalCaseWorker where
  worker : WorkerDescriptor
  leaseSeconds : Time

/-- When a call reads the clock, and how Redis lists the leased ids to it. -/
structure CallTime where
  clock : Time
  order : List String

/-- The parts of a result that no transport reads, and its error text. -/
structure WorkerReport where
  error : String
  payload : String
  finishedAt : Time

/-- Where the thread of `run_once` is. -/
inductive RoundStage
  | claiming
  /-- There was nothing to claim. -/
  | idle
  | checking (claim : ClaimedTask)
  /-- In the first handler, before its `fail`. -/
  | rejecting (claim : ClaimedTask)
  | executing (claim : ClaimedTask)
  /-- Before `complete`, or before the `fail` of a Case that is not ok. -/
  | settling (claim : ClaimedTask) (ok : Bool)
  /-- In the second handler, before its `fail`. -/
  | handling (claim : ClaimedTask)
  /-- That `fail` has raised `TaskLeaseError`. -/
  | refused (claim : ClaimedTask)
  | returned (claim : ClaimedTask)
  | raised (claim : ClaimedTask)
deriving DecidableEq

/-- Where the heartbeat thread is. -/
inductive BeatStage
  | absent
  | waiting
  /-- `wait` has timed out, and `heartbeat_task` comes next. -/
  | calling
  | called (taskOk : Bool)
  | done
deriving DecidableEq

/-- The transport and the two threads of a round. -/
structure WorkerRound where
  tasks : TransportState
  main : RoundStage
  beat : BeatStage
  leaseLost : Bool
  stopHeartbeat : Bool

/-- A step of the round or of another client of the transport. -/
inductive WorkerStep
  /-- A call of another client. -/
  | other (event : TaskEvent)
  | claim (time : CallTime) (token : String)
  /-- The checks of the first `try`. -/
  | check (passes : Bool)
  | reject (time : CallTime) (report : WorkerReport)
  /-- `execute_case_payload`: an exception, or a Case that is ok or not; then the flag and the
  Project's fence are read. -/
  | execute (ok : Option Bool) (fenceCurrent : Bool)
  | settle (time : CallTime) (report : WorkerReport)
  | handle (time : CallTime) (report : WorkerReport)
  /-- The second handler reads `lease_lost`. -/
  | look
  | wake
  | beat (time : CallTime)
  | judge (workerOk projectLeaseOk : Bool)

namespace RoundStage

/-- The claim of the round. -/
def claim? : RoundStage → Option ClaimedTask
  | .claiming | .idle => none
  | .checking c | .rejecting c | .executing c | .settling c _ | .handling c | .refused c
  | .returned c | .raised c => some c

/-- How many more steps of the thread there are at most. -/
def rank : RoundStage → ℕ
  | .claiming => 6
  | .checking _ => 5
  | .executing _ => 4
  | .settling _ _ => 3
  | .handling _ => 2
  | .rejecting _ | .refused _ => 1
  | .idle | .returned _ | .raised _ => 0

end RoundStage

namespace ExternalCaseWorker

variable (W : ExternalCaseWorker)

/-- The result that is handed in. -/
def result (claim : ClaimedTask) (status : String) (report : WorkerReport) : TaskResult :=
  ⟨claim.task.taskId, status, W.worker.workerId, report.error, report.finishedAt, report.payload⟩

/-- `transport.complete` or `transport.fail` with the result of a Case. -/
def settlement (claim : ClaimedTask) (ok : Bool) (report : WorkerReport) : TaskCall :=
  if ok then .complete claim (W.result claim "ok" report)
  else .fail claim (W.result claim "failed" report)

/-- The call of the transport that a step of the round makes. -/
def call? (s : WorkerRound) : WorkerStep → Option TaskEvent
  | .claim time token =>
      if s.main = .claiming then
        some ⟨time.clock, time.order, .claim W.worker W.leaseSeconds ["project_case"] [] token⟩
      else none
  | .reject time report =>
      match s.main with
      | .rejecting c =>
          some ⟨time.clock, time.order, .fail c (W.result c "failed" report)⟩
      | _ => none
  | .settle time report =>
      match s.main with
      | .settling c ok => some ⟨time.clock, time.order, W.settlement c ok report⟩
      | _ => none
  | .handle time report =>
      match s.main with
      | .handling c => some ⟨time.clock, time.order, .fail c (W.result c "failed" report)⟩
      | _ => none
  | .beat time =>
      match s.beat, s.main.claim? with
      | .calling, some c => some ⟨time.clock, time.order, .heartbeatTask c W.leaseSeconds⟩
      | _, _ => none
  | _ => none

end ExternalCaseWorker

namespace WorkerRound

/-- The `finally`, before the round is over. -/
def finish (s : WorkerRound) (main : RoundStage) : WorkerRound :=
  { s with main := main, stopHeartbeat := true }

/-- What the round makes of the answer to its call. -/
def answered (s : WorkerRound) (out : TaskOutcome) : WorkerStep → WorkerRound
  | .claim .. => { s with main := ((issuedClaim out).map .checking).getD .idle }
  | .reject .. =>
      match s.main, out with
      | .rejecting c, .ok _ => { s with main := .returned c }
      | .rejecting c, .error _ => { s with main := .raised c }
      | _, _ => s
  | .settle .. =>
      match s.main, out with
      | .settling c _, .ok _ => s.finish (.returned c)
      | .settling c _, .error _ => { s with main := .handling c }
      | _, _ => s
  | .handle .. =>
      match s.main, out with
      | .handling c, .ok _ => s.finish (.returned c)
      | .handling c, .error (.lease _) => { s with main := .refused c }
      | .handling c, .error (.transport _) => s.finish (.raised c)
      | _, _ => s
  | .beat _ =>
      { s with beat := .called (match out with | .ok (.flag b) => b | _ => false) }
  | _ => s

/-- One step. -/
def step (W : ExternalCaseWorker) (s : WorkerRound) : WorkerStep → Option WorkerRound
  | .other event => (s.tasks.step event).map fun tasks ↦ { s with tasks := tasks }
  | .check passes =>
      match s.main with
      | .checking c =>
          some (if passes then { s with main := .executing c, beat := .waiting }
            else { s with main := .rejecting c })
      | _ => none
  | .execute ok fenceCurrent =>
      match s.main with
      | .executing c =>
          match ok with
          | none => some { s with main := .handling c }
          | some ok =>
              some { s with
                main := if s.leaseLost || !fenceCurrent then .handling c else .settling c ok }
      | _ => none
  | .look =>
      match s.main with
      | .refused c => some (s.finish (if s.leaseLost then .returned c else .raised c))
      | _ => none
  | .wake =>
      if s.beat = .waiting then
        some { s with beat := if s.stopHeartbeat then .done else .calling }
      else none
  | .judge workerOk projectLeaseOk =>
      match s.beat with
      | .called taskOk =>
          some (if taskOk && workerOk && projectLeaseOk then { s with beat := .waiting }
            else { s with beat := .done, leaseLost := true })
      | _ => none
  | l =>
      (W.call? s l).bind fun event ↦
        (s.tasks.step event).map fun tasks ↦
          ({ s with tasks := tasks } : WorkerRound).answered (s.tasks.outcome event) l

/-- The round before it claims; the transport may have been used before. -/
def start (tasks : TransportState) : WorkerRound := ⟨tasks, .claiming, .absent, false, false⟩

end WorkerRound

end Blackbase.Project

import Blackbase.Core.Rows
import Blackbase.Resources.Model

/-!
# Tasks, workers and claims

The data of `resources/transport.py`: the envelope of a task, the descriptor of a
worker, the record of a submitted task and the claim a worker holds on it, with the
checks and the rewrites of one record that the transports share.

Of an envelope and of a result only the fields a transport reads are separate; the
rest is the canonical JSON text the transports compare and store.
-/

namespace Blackbase.Resources

/-- The states of a submitted task. -/
inductive TaskStatus where
  | queued
  | leased
  | succeeded
  | failed
  | cancelled
deriving DecidableEq, Repr

/-- `FINAL_TASK_STATES`. -/
def TaskStatus.final : TaskStatus → Bool
  | .succeeded | .failed | .cancelled => true
  | .queued | .leased => false

/-- `TaskEnvelope`, as normalised by its constructor. -/
structure TaskEnvelope where
  taskId : String
  taskType : String
  nspace : String
  executorBackend : String
  requirement : ResourceRequirement
  maxRetries : ℕ
  /-- The canonical JSON of the fields no transport reads. -/
  payload : String
deriving DecidableEq

/-- `WorkerDescriptor`, as normalised by its constructor. -/
structure WorkerDescriptor where
  workerId : String
  executorBackend : String
  resourceBackend : String
  capabilities : List String
  offer : ResourceOffer
  maxInflight : ℕ
  status : String
  one_le_maxInflight : 1 ≤ maxInflight
deriving DecidableEq

/-- `WorkerDescriptor.heartbeat`. -/
def WorkerDescriptor.heartbeat (worker : WorkerDescriptor) (status : String) : WorkerDescriptor :=
  { worker with status := status }

/-- `_gpu_memory_satisfies_requirement`. -/
def gpuMemorySatisfies (offer : ResourceOffer) (requirement : ResourceRequirement) : Bool :=
  let required := requirement.gpuMemoryMb.getD 0
  if required ≤ 0 then true
  else
    let concrete := requirement.deviceTokens.filter fun token ↦
      Text.occursIn ":" token || token = "mps"
    if concrete ≠ [] ∧ offer.gpuMemoryMbByDevice ≠ [] then
      concrete.all fun token ↦ required ≤ (offer.gpuMemoryMbByDevice.lookup token).getD 0
    else match offer.gpuMemoryMb with
      | some total => required ≤ total
      | none => offer.gpuMemoryMbByDevice.any fun entry ↦ required ≤ entry.2

/-- `WorkerDescriptor.can_run`. -/
def WorkerDescriptor.canRun (worker : WorkerDescriptor) (requirement : ResourceRequirement)
    (executorBackend : String) (activeCount : ℕ) : Bool :=
  if Text.lower worker.status ∉ ["online", "idle", "ready"] then false
  else if activeCount ≥ worker.maxInflight then false
  else
    let requested := Text.lower (if executorBackend = "" then "auto" else executorBackend)
    if requested ∉ ["", "auto", "any"] ∧ requested ≠ Text.lower worker.executorBackend then false
    else if Text.lower requirement.resourceBackend ≠ Text.lower worker.resourceBackend then false
    else if !(requirement.capabilities.all (· ∈ worker.capabilities)) then false
    else if !requirement.satisfies worker.offer then false
    else if requirement.gpuMemoryMb.isSome then
      if requirement.gpus ≤ 0 ∧ requirement.deviceTokens = [] then false
      else gpuMemorySatisfies worker.offer requirement
    else true

/-- A worker's filters and abilities let it take the task; an empty filter accepts
everything, and empty entries of a filter do not count. -/
def WorkerDescriptor.accepts (worker : WorkerDescriptor) (taskTypes namespaces : List String)
    (activeCount : ℕ) (task : TaskEnvelope) : Bool :=
  let acceptedTypes := taskTypes.filter (· ≠ "")
  let acceptedNamespaces := namespaces.filter (· ≠ "")
  if acceptedTypes ≠ [] ∧ task.taskType ∉ acceptedTypes then false
  else if acceptedNamespaces ≠ [] ∧ task.nspace ∉ acceptedNamespaces then false
  else worker.canRun task.requirement task.executorBackend activeCount

/-- `TaskResult`. -/
structure TaskResult where
  taskId : String
  status : String
  workerId : String
  error : String
  finishedAt : Time
  /-- The canonical JSON of the fields no transport reads. -/
  payload : String
deriving DecidableEq

/-- `TaskResult.ok`. -/
def TaskResult.ok (result : TaskResult) : Bool :=
  Text.lower result.status ∈ ["ok", "success", "completed"]

/-- `TaskResult.failure` at the reading `now`. -/
def TaskResult.failure (now : Time) (taskId error status workerId : String) : TaskResult :=
  ⟨taskId, status, workerId, error, now, "\x7b\x7d"⟩

/-- `TaskRecord`. -/
structure TaskRecord where
  task : TaskEnvelope
  status : TaskStatus
  attempt : ℕ
  workerId : String
  leaseExpiresAt : Time
  result : Option TaskResult
  error : String
  updatedAt : Time
deriving DecidableEq

/-- The stored state of a task: its record and the token of the lease on it. -/
structure TaskState extends TaskRecord where
  leaseToken : String
deriving DecidableEq

/-- The primary key of a record. -/
def TaskRecord.taskId (r : TaskRecord) : String := r.task.taskId

/-- The key of a stored state. -/
abbrev TaskState.taskId (r : TaskState) : String := r.task.taskId

/-- `ClaimedTask`. -/
structure ClaimedTask where
  task : TaskEnvelope
  workerId : String
  leaseToken : String
  attempt : ℕ
  leaseExpiresAt : Time
deriving DecidableEq

/-- The lease duration of a call, at least a tenth of a second. -/
def leaseDuration (leaseSeconds : Time) : Time := max (1 / 10) leaseSeconds

/-! ## Calls -/

/-- The exceptions of a transport, by class. -/
inductive TransportError where
  /-- `TaskTransportError`. -/
  | transport (message : String)
  /-- `TaskLeaseError`. -/
  | lease (message : String)
deriving DecidableEq, Repr

namespace TransportError

def differentEnvelope (taskId : String) : TransportError :=
  .transport s!"task_id='{taskId}' already exists with a different envelope"

def wrongTask : TransportError :=
  .lease "TaskResult.task_id does not match the claimed task"

def inactiveLease (taskId : String) : TransportError :=
  .lease s!"Task lease is no longer active for task_id='{taskId}'"

def notCurrent (taskId : String) : TransportError :=
  .lease s!"task lease is not current for task_id='{taskId}'"

def completeNeedsSuccess : TransportError :=
  .transport "complete() requires a successful TaskResult; use fail()"

def failNeedsFailure : TransportError :=
  .transport "fail() requires a non-success TaskResult; use complete()"

end TransportError

/-- One call on a transport. -/
inductive TaskCall where
  | submit (task : TaskEnvelope)
  /-- `token` is the `uuid4` a granted claim carries. -/
  | claim (worker : WorkerDescriptor) (leaseSeconds : Time) (taskTypes namespaces : List String)
      (token : String)
  | heartbeatTask (claim : ClaimedTask) (leaseSeconds : Time)
  | complete (claim : ClaimedTask) (result : TaskResult)
  | fail (claim : ClaimedTask) (result : TaskResult)
  | recoverExpired
  | cancel (taskId reason : String)
  | get (taskId : String)
deriving DecidableEq

/-- What a call returns. -/
inductive TaskReply where
  | record (r : TaskRecord)
  | claimed (c : Option ClaimedTask)
  | flag (b : Bool)
  | count (n : ℕ)
  | found (r : Option TaskRecord)
deriving DecidableEq

/-- What a call returns, or the exception it raises. -/
abbrev TaskOutcome := Except TransportError TaskReply

/-- The claim an outcome hands out. -/
def issuedClaim : TaskOutcome → Option ClaimedTask
  | .ok (.claimed c) => c
  | _ => none

/-! ## Rewrites of one record -/

namespace TaskState

/-- The record of a task that has just been submitted. -/
def new (task : TaskEnvelope) (now : Time) : TaskState where
  task := task
  status := .queued
  attempt := 0
  workerId := ""
  leaseExpiresAt := 0
  result := none
  error := ""
  updatedAt := now
  leaseToken := ""

/-- `_redis_claim_is_active`, and the condition of the SQLite updates: the claim presents
the token of the lease the task is under, and `now` has not reached its expiry. -/
def claimIsActive (r : TaskState) (claim : ClaimedTask) (now : Time) : Bool :=
  r.status = .leased && r.workerId = claim.workerId && r.leaseToken = claim.leaseToken &&
    decide (now < r.leaseExpiresAt)

/-- The lease with its expiry moved. -/
def extended (now leaseSeconds : Time) (r : TaskState) : TaskState :=
  { r with leaseExpiresAt := now + leaseDuration leaseSeconds, updatedAt := now }

/-- The text recorded when a lease expires. -/
def expiryError (r : TaskState) : String := s!"worker lease expired after attempt {r.attempt}"

/-- A leased task whose expiry `now` has reached. -/
def expired (r : TaskState) (now : Time) : Bool :=
  r.status = .leased && decide (r.leaseExpiresAt ≤ now)

/-- An expired task, queued again if it has retries left and failed otherwise. -/
def recovered (now : Time) (r : TaskState) : TaskState :=
  { r with
    status := if r.attempt ≤ r.task.maxRetries then .queued else .failed
    workerId := ""
    leaseToken := ""
    leaseExpiresAt := 0
    result := if r.attempt ≤ r.task.maxRetries then none
      else some (.failure now r.task.taskId r.expiryError "failed" r.workerId)
    error := r.expiryError
    updatedAt := now }

/-- What the expiry recovery makes of a task. -/
def recover (now : Time) (r : TaskState) : TaskState :=
  if r.expired now then r.recovered now else r

/-- A claim is given up with a result: the task is queued again or reaches `status`. -/
def finished (now : Time) (claim : ClaimedTask) (result : TaskResult) (status : TaskStatus)
    (allowRetry : Bool) (r : TaskState) : TaskState :=
  let retry := allowRetry && decide (claim.attempt ≤ claim.task.maxRetries)
  { r with
    status := if retry then .queued else status
    workerId := ""
    leaseToken := ""
    leaseExpiresAt := 0
    result := if retry then none else some result
    error := result.error
    updatedAt := now }

/-- A queued task that is cancelled. -/
def cancelled (now : Time) (reason : String) (r : TaskState) : TaskState :=
  { r with
    status := .cancelled
    result := some (.failure now r.task.taskId reason "cancelled" "")
    error := reason
    updatedAt := now }

end TaskState

end Blackbase.Resources

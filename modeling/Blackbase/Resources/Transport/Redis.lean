import Blackbase.Core.Keyspace
import Blackbase.Resources.Transport.Model

/-!
# The Redis task transport

`RedisTaskTransport` on the keys of one namespace: the set `task_ids` with the keys
`task:{id}`, the list `queue` and the set `leased`.  Every call is one section under the
shared lock, at one reading of the client's clock.

`SMEMBERS` returns the leased ids in no particular order, and the order in which the
recovery visits them is the order in which it queues them again; every call therefore
takes the order as an argument.
-/

namespace Blackbase.Resources

/-- The keys of one namespace. -/
structure RedisTasks where
  tasks : Keyspace String TaskState
  queue : List String
  leased : List String

namespace RedisTasks

/-- No key is set. -/
def empty : RedisTasks := ⟨.empty, [], []⟩

/-- `SADD` to the set of leased ids. -/
def addLeased (s : RedisTasks) (taskId : String) : List String :=
  if taskId ∈ s.leased then s.leased else s.leased ++ [taskId]

/-- `LREM queue 0 taskId`. -/
def removeQueued (queue : List String) (taskId : String) : List String :=
  queue.filter (· ≠ taskId)

/-- One turn of the loop of `_recover_expired_locked`. -/
def recoverOne (now : Time) (s : RedisTasks) (taskId : String) : RedisTasks :=
  match s.tasks.get taskId with
  | none => { s with leased := s.leased.erase taskId }
  | some r =>
      if r.status ≠ .leased then { s with leased := s.leased.erase taskId }
      else if now < r.leaseExpiresAt then s
      else
        { tasks := s.tasks.set taskId (r.recovered now)
          leased := s.leased.erase taskId
          queue := if r.attempt ≤ r.task.maxRetries then s.queue ++ [taskId] else s.queue }

/-- `_recover_expired_locked`, visiting the leased ids in the order `order`. -/
def recoverExpiredLocked (s : RedisTasks) (now : Time) (order : List String) : RedisTasks :=
  order.foldl (recoverOne now) s

/-- `RedisTaskTransport.submit`. -/
def submit (s : RedisTasks) (now : Time) (task : TaskEnvelope) : TaskOutcome × RedisTasks :=
  match s.tasks.get task.taskId with
  | some existing =>
      if existing.task ≠ task then (.error (.differentEnvelope task.taskId), s)
      else (.ok (.record existing.toTaskRecord), s)
  | none =>
      (.ok (.record (TaskState.new task now).toTaskRecord),
        { s with
          tasks := (s.tasks.set task.taskId (.new task now)).add task.taskId
          queue := s.queue ++ [task.taskId] })

/-- The number of tasks in the leased set a worker holds. -/
def activeCount (s : RedisTasks) (workerId : String) : ℕ :=
  (s.leased.filter fun taskId ↦ (s.tasks.get taskId).any (·.workerId = workerId)).length

/-- The scan of the queue: the entries to drop that come before the first queued task
the worker accepts, and that task. -/
def scanQueue (s : RedisTasks) (accepts : TaskEnvelope → Bool) :
    List String → List String × Option (String × TaskState)
  | [] => ([], none)
  | taskId :: rest =>
      match s.tasks.get taskId with
      | none => ((taskId :: (s.scanQueue accepts rest).1), (s.scanQueue accepts rest).2)
      | some r =>
          if r.status ≠ .queued then
            ((taskId :: (s.scanQueue accepts rest).1), (s.scanQueue accepts rest).2)
          else if accepts r.task then ([], some (taskId, r))
          else s.scanQueue accepts rest

/-- The claim as it is written to the record. -/
def leasedState (now : Time) (c : ClaimedTask) (r : TaskState) : TaskState :=
  { r with
    status := .leased
    attempt := c.attempt
    workerId := c.workerId
    leaseToken := c.leaseToken
    leaseExpiresAt := c.leaseExpiresAt
    result := none
    updatedAt := now }

/-- `RedisTaskTransport.claim`. -/
def claim (s : RedisTasks) (now : Time) (order : List String) (worker : WorkerDescriptor)
    (leaseSeconds : Time) (taskTypes namespaces : List String) (token : String) :
    TaskOutcome × RedisTasks :=
  let descriptor := worker.heartbeat "online"
  let swept := s.recoverExpiredLocked now order
  let active := swept.activeCount descriptor.workerId
  if active ≥ descriptor.maxInflight then (.ok (.claimed none), swept)
  else
    let (stale, selected) := swept.scanQueue
      (descriptor.accepts taskTypes namespaces active) swept.queue
    let cleaned := stale.foldl removeQueued swept.queue
    match selected with
    | none => (.ok (.claimed none), { swept with queue := cleaned })
    | some (taskId, r) =>
        let c : ClaimedTask := ⟨r.task, descriptor.workerId, token, r.attempt + 1,
          now + leaseDuration leaseSeconds⟩
        (.ok (.claimed (some c)),
          { tasks := swept.tasks.set taskId (leasedState now c r)
            queue := cleaned.erase taskId
            leased := swept.addLeased taskId })

/-- `RedisTaskTransport.heartbeat_task`. -/
def heartbeatTask (s : RedisTasks) (now : Time) (claim : ClaimedTask) (leaseSeconds : Time) :
    TaskOutcome × RedisTasks :=
  match s.tasks.get claim.task.taskId with
  | none => (.ok (.flag false), s)
  | some r =>
      if r.claimIsActive claim now then
        (.ok (.flag true),
          { s with tasks := s.tasks.set claim.task.taskId (r.extended now leaseSeconds) })
      else (.ok (.flag false), s)

/-- `_finish_claim`: a refusal recovers the expired leases first. -/
def finishClaim (s : RedisTasks) (now : Time) (order : List String) (claim : ClaimedTask)
    (result : TaskResult) (status : TaskStatus) (allowRetry : Bool) :
    TaskOutcome × RedisTasks :=
  match s.tasks.get claim.task.taskId with
  | none =>
      (.error (.inactiveLease claim.task.taskId), s.recoverExpiredLocked now order)
  | some r =>
      if r.claimIsActive claim now then
        let after := r.finished now claim result status allowRetry
        (.ok (.record after.toTaskRecord),
          { tasks := s.tasks.set claim.task.taskId after
            leased := s.leased.erase claim.task.taskId
            queue := if allowRetry && decide (claim.attempt ≤ claim.task.maxRetries) then
              s.queue ++ [claim.task.taskId] else s.queue })
      else
        (.error (.inactiveLease claim.task.taskId), s.recoverExpiredLocked now order)

/-- `RedisTaskTransport.complete`. -/
def complete (s : RedisTasks) (now : Time) (order : List String) (claim : ClaimedTask)
    (result : TaskResult) : TaskOutcome × RedisTasks :=
  if result.taskId ≠ claim.task.taskId then (.error .wrongTask, s)
  else if !result.ok then (.error .completeNeedsSuccess, s)
  else s.finishClaim now order claim result .succeeded false

/-- `RedisTaskTransport.fail`. -/
def fail (s : RedisTasks) (now : Time) (order : List String) (claim : ClaimedTask)
    (result : TaskResult) : TaskOutcome × RedisTasks :=
  if result.taskId ≠ claim.task.taskId then (.error .wrongTask, s)
  else if result.ok then (.error .failNeedsFailure, s)
  else s.finishClaim now order claim result .failed true

/-- `RedisTaskTransport.recover_expired`. -/
def recoverExpired (s : RedisTasks) (now : Time) (order : List String) :
    TaskOutcome × RedisTasks :=
  (.ok (.count (order.filter fun taskId ↦ (s.tasks.get taskId).any (·.expired now)).length),
    s.recoverExpiredLocked now order)

/-- `RedisTaskTransport.cancel`: only a queued task. -/
def cancel (s : RedisTasks) (now : Time) (taskId reason : String) : TaskOutcome × RedisTasks :=
  match s.tasks.get taskId with
  | none => (.ok (.flag false), s)
  | some r =>
      if r.status = .queued then
        (.ok (.flag true),
          { s with
            tasks := s.tasks.set taskId (r.cancelled now reason)
            queue := removeQueued s.queue taskId })
      else (.ok (.flag false), s)

/-- `RedisTaskTransport.get`. -/
def get (s : RedisTasks) (taskId : String) : TaskOutcome × RedisTasks :=
  (.ok (.found ((s.tasks.get taskId).map (·.toTaskRecord))), s)

/-- A call, executed when the client's clock reads `now` and `SMEMBERS` lists the leased
ids as `order`. -/
def exec (s : RedisTasks) (now : Time) (order : List String) : TaskCall → TaskOutcome × RedisTasks
  | .submit task => s.submit now task
  | .claim worker leaseSeconds taskTypes namespaces token =>
      s.claim now order worker leaseSeconds taskTypes namespaces token
  | .heartbeatTask claim leaseSeconds => s.heartbeatTask now claim leaseSeconds
  | .complete claim result => s.complete now order claim result
  | .fail claim result => s.fail now order claim result
  | .recoverExpired => s.recoverExpired now order
  | .cancel taskId reason => s.cancel now taskId reason
  | .get taskId => s.get taskId

end RedisTasks

end Blackbase.Resources

import Blackbase.Resources.Transport.Model

/-!
# The in-memory task transport

`InMemoryTaskTransport` on its dictionaries: the records in the order of submission, and
the lease tokens.  Unlike the durable transports it queues every expired task again,
whatever its attempts, and cancels a leased task too.
-/

namespace Blackbase.Resources

/-- The dictionaries `_records` and `_lease_tokens`. -/
structure InMemoryTasks where
  records : List TaskRecord
  leaseTokens : String → Option String

namespace InMemoryTasks

/-- Both dictionaries are empty. -/
def empty : InMemoryTasks := ⟨[], fun _ ↦ none⟩

/-- The record of a task id. -/
def record (s : InMemoryTasks) (taskId : String) : Option TaskRecord :=
  Rows.lookup TaskRecord.taskId taskId s.records

/-- Write the record and the lease token of a task id that has a record. -/
def store (s : InMemoryTasks) (taskId : String) (r : TaskRecord) (token : Option String) :
    InMemoryTasks where
  records := Rows.update TaskRecord.taskId taskId (fun _ ↦ r) s.records
  leaseTokens := Function.update s.leaseTokens taskId token

/-- A record whose lease has been dropped. -/
def unleased (now : Time) (status : TaskStatus) (result : Option TaskResult) (error : String)
    (r : TaskRecord) : TaskRecord where
  task := r.task
  status := status
  attempt := r.attempt
  workerId := ""
  leaseExpiresAt := 0
  result := result
  error := error
  updatedAt := now

/-- The record is leased and `now` has reached the expiry. -/
def expired (now : Time) (r : TaskRecord) : Bool :=
  r.status = .leased && decide (r.leaseExpiresAt ≤ now)

/-- One turn of the loop of `_recover_expired_locked`. -/
def recoverOne (now : Time) (s : InMemoryTasks) (r : TaskRecord) : InMemoryTasks :=
  if expired now r then s.store r.taskId (unleased now .queued none "task lease expired" r) none
  else s

/-- `_recover_expired_locked`. -/
def recoverExpiredLocked (s : InMemoryTasks) (now : Time) : InMemoryTasks :=
  s.records.foldl (recoverOne now) s

/-- `_claim_is_current`. -/
def claimIsCurrent (s : InMemoryTasks) (r : TaskRecord) (claim : ClaimedTask) (now : Time) :
    Bool :=
  r.status = .leased && r.workerId = claim.workerId && r.attempt = claim.attempt &&
    s.leaseTokens claim.task.taskId = some claim.leaseToken && decide (now < r.leaseExpiresAt)

/-- `InMemoryTaskTransport.submit`. -/
def submit (s : InMemoryTasks) (now : Time) (task : TaskEnvelope) :
    TaskOutcome × InMemoryTasks :=
  match s.record task.taskId with
  | some current =>
      if current.task ≠ task then (.error (.differentEnvelope task.taskId), s)
      else (.ok (.record current), s)
  | none =>
      let r := (TaskState.new task now).toTaskRecord
      (.ok (.record r), { s with records := s.records ++ [r] })

/-- The number of tasks a worker holds. -/
def activeCount (s : InMemoryTasks) (workerId : String) : ℕ :=
  (s.records.filter fun r ↦ r.status = .leased ∧ r.workerId = workerId).length

/-- A record under a lease; a fresh record, so no result and no error. -/
def leasedRecord (now : Time) (task : TaskEnvelope) (attempt : ℕ) (workerId : String)
    (leaseExpiresAt : Time) : TaskRecord where
  task := task
  status := .leased
  attempt := attempt
  workerId := workerId
  leaseExpiresAt := leaseExpiresAt
  result := none
  error := ""
  updatedAt := now

/-- `InMemoryTaskTransport.claim`. -/
def claim (s : InMemoryTasks) (now : Time) (worker : WorkerDescriptor) (leaseSeconds : Time)
    (taskTypes namespaces : List String) (token : String) : TaskOutcome × InMemoryTasks :=
  let descriptor := worker.heartbeat "online"
  let swept := s.recoverExpiredLocked now
  let active := swept.activeCount descriptor.workerId
  if active ≥ descriptor.maxInflight then (.ok (.claimed none), swept)
  else match swept.records.find? fun r ↦
      r.status = .queued && descriptor.accepts taskTypes namespaces active r.task with
    | none => (.ok (.claimed none), swept)
    | some r =>
        let c : ClaimedTask := ⟨r.task, descriptor.workerId, token, r.attempt + 1,
          now + leaseDuration leaseSeconds⟩
        (.ok (.claimed (some c)), swept.store r.taskId
          (leasedRecord now r.task c.attempt c.workerId c.leaseExpiresAt) (some c.leaseToken))

/-- `InMemoryTaskTransport.heartbeat_task`. -/
def heartbeatTask (s : InMemoryTasks) (now : Time) (claim : ClaimedTask) (leaseSeconds : Time) :
    TaskOutcome × InMemoryTasks :=
  match s.record claim.task.taskId with
  | none => (.ok (.flag false), s)
  | some r =>
      if s.claimIsCurrent r claim now then
        (.ok (.flag true), s.store claim.task.taskId
          (leasedRecord now r.task r.attempt r.workerId (now + leaseDuration leaseSeconds))
          (s.leaseTokens claim.task.taskId))
      else (.ok (.flag false), s)

/-- The record of a claim given up with a result. -/
def finishedRecord (now : Time) (claim : ClaimedTask) (result : TaskResult) (status : TaskStatus)
    (allowRetry : Bool) : TaskRecord :=
  let retry := allowRetry && decide (claim.attempt ≤ claim.task.maxRetries)
  { task := claim.task
    status := if retry then .queued else status
    attempt := claim.attempt
    workerId := ""
    leaseExpiresAt := 0
    result := if retry then none else some result
    error := result.error
    updatedAt := now }

/-- `_finish`. -/
def finish (s : InMemoryTasks) (now : Time) (claim : ClaimedTask) (result : TaskResult)
    (status : TaskStatus) (allowRetry : Bool) : TaskOutcome × InMemoryTasks :=
  if result.taskId ≠ claim.task.taskId then (.error .wrongTask, s)
  else match s.record claim.task.taskId with
    | none => (.error (.notCurrent claim.task.taskId), s)
    | some r =>
        if s.claimIsCurrent r claim now then
          let after := finishedRecord now claim result status allowRetry
          (.ok (.record after), s.store claim.task.taskId after none)
        else (.error (.notCurrent claim.task.taskId), s)

/-- `InMemoryTaskTransport.complete`: the result is checked before the task id. -/
def complete (s : InMemoryTasks) (now : Time) (claim : ClaimedTask) (result : TaskResult) :
    TaskOutcome × InMemoryTasks :=
  if !result.ok then (.error .completeNeedsSuccess, s)
  else s.finish now claim result .succeeded false

/-- `InMemoryTaskTransport.fail`. -/
def fail (s : InMemoryTasks) (now : Time) (claim : ClaimedTask) (result : TaskResult) :
    TaskOutcome × InMemoryTasks :=
  if result.ok then
    (.error (.transport "fail() requires a failed TaskResult; use complete()"), s)
  else s.finish now claim result .failed true

/-- `InMemoryTaskTransport.recover_expired`. -/
def recoverExpired (s : InMemoryTasks) (now : Time) : TaskOutcome × InMemoryTasks :=
  (.ok (.count (s.records.filter (expired now)).length), s.recoverExpiredLocked now)

/-- `InMemoryTaskTransport.cancel`: any task that is not final. -/
def cancel (s : InMemoryTasks) (now : Time) (taskId reason : String) :
    TaskOutcome × InMemoryTasks :=
  match s.record taskId with
  | none => (.ok (.flag false), s)
  | some r =>
      if r.status.final then (.ok (.flag false), s)
      else (.ok (.flag true), s.store taskId (unleased now .cancelled none reason r) none)

/-- `InMemoryTaskTransport.get`. -/
def get (s : InMemoryTasks) (taskId : String) : TaskOutcome × InMemoryTasks :=
  (.ok (.found (s.record taskId)), s)

/-- A call, executed when the clock reads `now`. -/
def exec (s : InMemoryTasks) (now : Time) : TaskCall → TaskOutcome × InMemoryTasks
  | .submit task => s.submit now task
  | .claim worker leaseSeconds taskTypes namespaces token =>
      s.claim now worker leaseSeconds taskTypes namespaces token
  | .heartbeatTask claim leaseSeconds => s.heartbeatTask now claim leaseSeconds
  | .complete claim result => s.complete now claim result
  | .fail claim result => s.fail now claim result
  | .recoverExpired => s.recoverExpired now
  | .cancel taskId reason => s.cancel now taskId reason
  | .get taskId => s.get taskId

end InMemoryTasks

end Blackbase.Resources

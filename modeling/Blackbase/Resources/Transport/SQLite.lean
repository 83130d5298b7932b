import Blackbase.Resources.Transport.Model

/-!
# The SQLite task transport

`SQLiteTaskTransport` on the table `tasks`.  Every call is one transaction at one
reading of the client's clock; a call that raises rolls back.
-/

namespace Blackbase.Resources

/-- A row of the table `tasks`. -/
structure TaskRow where
  state : TaskState
  createdAt : Time
deriving DecidableEq

/-- The table `tasks`, in the order of insertion. -/
structure SQLiteTasks where
  rows : List TaskRow

namespace SQLiteTasks

/-- The empty table. -/
def empty : SQLiteTasks := ⟨[]⟩

/-- The primary key. -/
def rowKey (row : TaskRow) : String := row.state.taskId

/-- The row of a task id. -/
def row (s : SQLiteTasks) (taskId : String) : Option TaskRow :=
  Rows.lookup rowKey taskId s.rows

/-- `UPDATE` of the row of a task id. -/
def updateRow (s : SQLiteTasks) (taskId : String) (f : TaskState → TaskState) : SQLiteTasks :=
  ⟨Rows.update rowKey taskId (fun row ↦ { row with state := f row.state }) s.rows⟩

/-- The queued rows, ordered by submission time and id. -/
def queuedRows (s : SQLiteTasks) : List TaskRow :=
  (s.rows.filter fun row ↦ row.state.status = .queued).insertionSort fun a b ↦
    a.createdAt < b.createdAt ∨ a.createdAt = b.createdAt ∧ a.state.taskId ≤ b.state.taskId

/-- The number of tasks a worker holds. -/
def activeCount (s : SQLiteTasks) (workerId : String) : ℕ :=
  (s.rows.filter fun row ↦ row.state.status = .leased ∧ row.state.workerId = workerId).length

/-- `_recover_expired_locked`. -/
def recoverExpiredLocked (s : SQLiteTasks) (now : Time) : SQLiteTasks :=
  ⟨s.rows.map fun row ↦ { row with state := row.state.recover now }⟩

/-- `SQLiteTaskTransport.submit`. -/
def submit (s : SQLiteTasks) (now : Time) (task : TaskEnvelope) : TaskOutcome × SQLiteTasks :=
  match s.row task.taskId with
  | some existing =>
      if existing.state.task ≠ task then (.error (.differentEnvelope task.taskId), s)
      else (.ok (.record existing.state.toTaskRecord), s)
  | none =>
      (.ok (.record (TaskState.new task now).toTaskRecord), ⟨s.rows ++ [⟨.new task now, now⟩]⟩)

/-- The claim as it is written to the row. -/
def leasedState (now : Time) (c : ClaimedTask) (r : TaskState) : TaskState :=
  { r with
    status := .leased
    attempt := c.attempt
    workerId := c.workerId
    leaseToken := c.leaseToken
    leaseExpiresAt := c.leaseExpiresAt
    updatedAt := now }

/-- `SQLiteTaskTransport.claim`. -/
def claim (s : SQLiteTasks) (now : Time) (worker : WorkerDescriptor) (leaseSeconds : Time)
    (taskTypes namespaces : List String) (token : String) : TaskOutcome × SQLiteTasks :=
  let descriptor := worker.heartbeat "online"
  let swept := s.recoverExpiredLocked now
  let active := swept.activeCount descriptor.workerId
  if active ≥ descriptor.maxInflight then (.ok (.claimed none), swept)
  else match swept.queuedRows.find? fun row ↦
      descriptor.accepts taskTypes namespaces active row.state.task with
    | none => (.ok (.claimed none), swept)
    | some row =>
        let c : ClaimedTask := ⟨row.state.task, descriptor.workerId, token,
          row.state.attempt + 1, now + leaseDuration leaseSeconds⟩
        (.ok (.claimed (some c)), swept.updateRow row.state.taskId (leasedState now c))

/-- `SQLiteTaskTransport.heartbeat_task`. -/
def heartbeatTask (s : SQLiteTasks) (now : Time) (claim : ClaimedTask) (leaseSeconds : Time) :
    TaskOutcome × SQLiteTasks :=
  match s.row claim.task.taskId with
  | none => (.ok (.flag false), s)
  | some row =>
      if row.state.claimIsActive claim now then
        (.ok (.flag true), s.updateRow claim.task.taskId (.extended now leaseSeconds))
      else (.ok (.flag false), s)

/-- `_finish_claim`, with the record read back. -/
def finishClaim (s : SQLiteTasks) (now : Time) (claim : ClaimedTask) (result : TaskResult)
    (status : TaskStatus) (allowRetry : Bool) : TaskOutcome × SQLiteTasks :=
  match s.row claim.task.taskId with
  | none => (.error (.inactiveLease claim.task.taskId), s)
  | some row =>
      if row.state.claimIsActive claim now then
        (.ok (.record (row.state.finished now claim result status allowRetry).toTaskRecord),
          s.updateRow claim.task.taskId (.finished now claim result status allowRetry))
      else (.error (.inactiveLease claim.task.taskId), s)

/-- `SQLiteTaskTransport.complete`. -/
def complete (s : SQLiteTasks) (now : Time) (claim : ClaimedTask) (result : TaskResult) :
    TaskOutcome × SQLiteTasks :=
  if result.taskId ≠ claim.task.taskId then (.error .wrongTask, s)
  else if !result.ok then (.error .completeNeedsSuccess, s)
  else s.finishClaim now claim result .succeeded false

/-- `SQLiteTaskTransport.fail`. -/
def fail (s : SQLiteTasks) (now : Time) (claim : ClaimedTask) (result : TaskResult) :
    TaskOutcome × SQLiteTasks :=
  if result.taskId ≠ claim.task.taskId then (.error .wrongTask, s)
  else if result.ok then (.error .failNeedsFailure, s)
  else s.finishClaim now claim result .failed true

/-- `SQLiteTaskTransport.recover_expired`. -/
def recoverExpired (s : SQLiteTasks) (now : Time) : TaskOutcome × SQLiteTasks :=
  (.ok (.count (s.rows.filter fun row ↦ row.state.expired now).length),
    s.recoverExpiredLocked now)

/-- `SQLiteTaskTransport.cancel`: only a queued task. -/
def cancel (s : SQLiteTasks) (now : Time) (taskId reason : String) : TaskOutcome × SQLiteTasks :=
  match s.row taskId with
  | none => (.ok (.flag false), s)
  | some row =>
      if row.state.status = .queued then
        (.ok (.flag true), s.updateRow taskId (.cancelled now reason))
      else (.ok (.flag false), s)

/-- `SQLiteTaskTransport.get`. -/
def get (s : SQLiteTasks) (taskId : String) : TaskOutcome × SQLiteTasks :=
  (.ok (.found ((s.row taskId).map fun row ↦ row.state.toTaskRecord)), s)

/-- A call, executed when the client's clock reads `now`. -/
def exec (s : SQLiteTasks) (now : Time) : TaskCall → TaskOutcome × SQLiteTasks
  | .submit task => s.submit now task
  | .claim worker leaseSeconds taskTypes namespaces token =>
      s.claim now worker leaseSeconds taskTypes namespaces token
  | .heartbeatTask claim leaseSeconds => s.heartbeatTask now claim leaseSeconds
  | .complete claim result => s.complete now claim result
  | .fail claim result => s.fail now claim result
  | .recoverExpired => s.recoverExpired now
  | .cancel taskId reason => s.cancel now taskId reason
  | .get taskId => s.get taskId

end SQLiteTasks

end Blackbase.Resources

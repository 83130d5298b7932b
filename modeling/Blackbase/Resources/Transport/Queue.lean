import Blackbase.Resources.Transport.Table

/-!
# The task queue the transports stand for

What a caller can tell of a task is its envelope, status, attempt, lease and result; the
error text and the time of the last change are left out.  `TaskQueue` keeps that much of
the submitted tasks, in the order of submission, and `TaskQueue.exec` says what each call
does to them and answers: a worker is handed the first queued task it accepts, an expired
lease goes back to the queue or, after the last attempt, ends as failed, and only a task
that is still queued can be cancelled.

The transports are compared with this queue, each through `seen`.
-/

namespace Blackbase.Resources

/-- What can be seen of a record. -/
structure SeenRecord where
  task : TaskEnvelope
  status : TaskStatus
  attempt : ℕ
  workerId : String
  leaseExpiresAt : Time
  result : Option TaskResult
deriving DecidableEq

/-- What can be seen of a stored state. -/
structure SeenTask extends SeenRecord where
  leaseToken : String
deriving DecidableEq

/-- What can be seen of an answer; all refusals look the same. -/
inductive SeenReply where
  | refused
  | record (r : SeenRecord)
  | claimed (c : Option ClaimedTask)
  | flag (b : Bool)
  | count (n : ℕ)
  | found (r : Option SeenRecord)
deriving DecidableEq

def TaskRecord.seen (r : TaskRecord) : SeenRecord :=
  ⟨r.task, r.status, r.attempt, r.workerId, r.leaseExpiresAt, r.result⟩

def TaskState.seen (r : TaskState) : SeenTask := ⟨r.toTaskRecord.seen, r.leaseToken⟩

/-- What can be seen of an outcome. -/
def seenReply : TaskOutcome → SeenReply
  | .error _ => .refused
  | .ok (.record r) => .record r.seen
  | .ok (.claimed c) => .claimed c
  | .ok (.flag b) => .flag b
  | .ok (.count n) => .count n
  | .ok (.found r) => .found (r.map TaskRecord.seen)

namespace SeenTask

/-- The key of a task. -/
abbrev taskId (x : SeenTask) : String := x.task.taskId

/-- A stored state that looks like this. -/
def state (x : SeenTask) : TaskState :=
  ⟨⟨x.task, x.status, x.attempt, x.workerId, x.leaseExpiresAt, x.result, "", 0⟩, x.leaseToken⟩

/-- A rewrite of a stored state, as it is seen. -/
def lift (f : TaskState → TaskState) (x : SeenTask) : SeenTask := (f x.state).seen

/-- A queued task under the claim `c`. -/
def leased (c : ClaimedTask) (x : SeenTask) : SeenTask :=
  { x with
    status := .leased
    attempt := c.attempt
    workerId := c.workerId
    leaseToken := c.leaseToken
    leaseExpiresAt := c.leaseExpiresAt }

end SeenTask

/-- The submitted tasks, in the order of submission. -/
abbrev TaskQueue := List SeenTask

namespace TaskQueue

/-- The task with this id. -/
def find (q : TaskQueue) (taskId : String) : Option SeenTask :=
  Rows.lookup SeenTask.taskId taskId q

/-- Rewrite the task with this id. -/
def rewrite (q : TaskQueue) (taskId : String) (f : SeenTask → SeenTask) : TaskQueue :=
  Rows.update SeenTask.taskId taskId f q

/-- The expired leases are recovered. -/
def recover (q : TaskQueue) (now : Time) : TaskQueue := q.map (.lift (.recover now))

/-- The number of tasks a worker holds. -/
def heldBy (q : TaskQueue) (workerId : String) : ℕ :=
  q.countP fun x ↦ x.status = .leased ∧ x.workerId = workerId

/-- A task is submitted, unless its id is taken. -/
def submit (q : TaskQueue) (now : Time) (task : TaskEnvelope) : SeenReply × TaskQueue :=
  match q.find task.taskId with
  | some x => if x.task ≠ task then (.refused, q) else (.record x.toSeenRecord, q)
  | none => (.record (TaskState.new task now).seen.toSeenRecord, q ++ [(TaskState.new task now).seen])

/-- The first queued task the worker accepts is handed out. -/
def claim (q : TaskQueue) (now : Time) (worker : WorkerDescriptor) (leaseSeconds : Time)
    (taskTypes namespaces : List String) (token : String) : SeenReply × TaskQueue :=
  let descriptor := worker.heartbeat "online"
  let swept := q.recover now
  let active := swept.heldBy descriptor.workerId
  if active ≥ descriptor.maxInflight then (.claimed none, swept)
  else match swept.find? fun x ↦
      x.status = .queued && descriptor.accepts taskTypes namespaces active x.task with
    | none => (.claimed none, swept)
    | some x =>
        let c : ClaimedTask := ⟨x.task, descriptor.workerId, token, x.attempt + 1,
          now + leaseDuration leaseSeconds⟩
        (.claimed (some c), swept.rewrite x.taskId (.leased c))

/-- A lease that is still active is extended. -/
def heartbeatTask (q : TaskQueue) (now : Time) (claim : ClaimedTask) (leaseSeconds : Time) :
    SeenReply × TaskQueue :=
  match q.find claim.task.taskId with
  | none => (.flag false, q)
  | some x =>
      if x.state.claimIsActive claim now then
        (.flag true, q.rewrite claim.task.taskId (.lift (.extended now leaseSeconds)))
      else (.flag false, q)

/-- A lease that is still active ends with a result, or the task is queued again. -/
def finish (q : TaskQueue) (now : Time) (claim : ClaimedTask) (result : TaskResult)
    (status : TaskStatus) (allowRetry : Bool) : SeenReply × TaskQueue :=
  match q.find claim.task.taskId with
  | none => (.refused, q)
  | some x =>
      if x.state.claimIsActive claim now then
        (.record (x.lift (.finished now claim result status allowRetry)).toSeenRecord,
          q.rewrite claim.task.taskId (.lift (.finished now claim result status allowRetry)))
      else (.refused, q)

/-- A task that is still queued is cancelled. -/
def cancel (q : TaskQueue) (now : Time) (taskId reason : String) : SeenReply × TaskQueue :=
  match q.find taskId with
  | none => (.flag false, q)
  | some x =>
      if x.status = .queued then (.flag true, q.rewrite taskId (.lift (.cancelled now reason)))
      else (.flag false, q)

/-- A call when the clock reads `now`. -/
def exec (q : TaskQueue) (now : Time) : TaskCall → SeenReply × TaskQueue
  | .submit task => q.submit now task
  | .claim worker leaseSeconds taskTypes namespaces token =>
      q.claim now worker leaseSeconds taskTypes namespaces token
  | .heartbeatTask claim leaseSeconds => q.heartbeatTask now claim leaseSeconds
  | .complete claim result =>
      if result.taskId = claim.task.taskId ∧ result.ok then
        q.finish now claim result .succeeded false
      else (.refused, q)
  | .fail claim result =>
      if result.taskId = claim.task.taskId ∧ result.ok = false then
        q.finish now claim result .failed true
      else (.refused, q)
  | .recoverExpired => (.count (q.countP fun x ↦ x.state.expired now), q.recover now)
  | .cancel taskId reason => q.cancel now taskId reason
  | .get taskId => (.found ((q.find taskId).map SeenTask.toSeenRecord), q)

end TaskQueue

/-! ## Tables as they are seen -/

section Seen

variable {t : TaskTable} {now : Time} {taskId : String} {r : TaskState}

/-- The rewrite can be followed by what is seen. -/
def Visible (f : TaskState → TaskState) : Prop := ∀ r, (f r).seen = r.seen.lift f

theorem visible_recover (now : Time) : Visible (.recover now) := by
  intro r
  unfold SeenTask.lift TaskState.recover
  by_cases h : r.expired now
  · have h' : r.seen.state.expired now := h
    rw [if_pos h, if_pos h']
    rfl
  · have h' : ¬ r.seen.state.expired now := h
    rw [if_neg h, if_neg h']
    rfl

theorem visible_extended (now leaseSeconds : Time) : Visible (.extended now leaseSeconds) :=
  fun _ ↦ rfl

theorem visible_finished (now : Time) (claim : ClaimedTask) (result : TaskResult)
    (status : TaskStatus) (allowRetry : Bool) :
    Visible (.finished now claim result status allowRetry) := fun _ ↦ rfl

theorem visible_cancelled (now : Time) (reason : String) : Visible (.cancelled now reason) :=
  fun _ ↦ rfl

theorem claimIsActive_seen (r : TaskState) (claim : ClaimedTask) (now : Time) :
    r.seen.state.claimIsActive claim now = r.claimIsActive claim now := rfl

theorem find_seen (t : TaskTable) (taskId : String) :
    TaskQueue.find (t.map TaskState.seen) taskId =
      (Rows.lookup TaskState.taskId taskId t).map TaskState.seen := by
  unfold TaskQueue.find Rows.lookup
  rw [List.find?_map]
  rfl

theorem heldBy_seen (t : TaskTable) (workerId : String) :
    TaskQueue.heldBy (t.map TaskState.seen) workerId = t.heldBy workerId := by
  unfold TaskQueue.heldBy TaskTable.heldBy
  rw [List.countP_map]
  rfl

theorem recover_seen (t : TaskTable) {f : TaskState → TaskState}
    (h : ∀ r ∈ t, (f r).seen = (r.recover now).seen) :
    (t.map f).map TaskState.seen = TaskQueue.recover (t.map TaskState.seen) now := by
  unfold TaskQueue.recover
  rw [List.map_map, List.map_map]
  refine List.map_congr_left fun r hr ↦ ?_
  exact (h r hr).trans (visible_recover now r)

/-- Rewriting one task of a table, as it is seen. -/
theorem rewrite_seen (hu : Rows.Unique TaskState.taskId t)
    (h : Rows.lookup TaskState.taskId taskId t = some r) {f : TaskState → TaskState}
    {g : SeenTask → SeenTask} (hg : (f r).seen = g r.seen) :
    (Rows.update TaskState.taskId taskId f t).map TaskState.seen =
      TaskQueue.rewrite (t.map TaskState.seen) taskId g := by
  unfold TaskQueue.rewrite Rows.update
  rw [List.map_map, List.map_map]
  refine List.map_congr_left fun x hx ↦ ?_
  rw [Function.comp_apply, Function.comp_apply]
  by_cases hid : x.taskId = taskId
  · have hxr : x = r := hu.eq_of_key hx (Rows.mem_of_lookup h)
      (hid.trans (Rows.key_of_lookup h).symm)
    subst hxr
    have hid' : x.seen.taskId = taskId := hid
    rw [if_pos hid, if_pos hid', hg]
  · have hid' : ¬ x.seen.taskId = taskId := hid
    rw [if_neg hid, if_neg hid']

end Seen

/-! ## Results -/

namespace TaskQueue

/-- Only a task that has ended has a result. -/
def Clean (q : TaskQueue) : Prop := ∀ x ∈ q, x.status.final = false → x.result = none

variable {q : TaskQueue} {now : Time} {taskId : String} {x : SeenTask}

theorem clean_nil : Clean [] := by simp [Clean]

theorem Clean.recover (hq : q.Clean) (now : Time) : (q.recover now).Clean := by
  intro x hx hlive
  obtain ⟨y, hy, rfl⟩ := List.mem_map.mp hx
  unfold SeenTask.lift TaskState.recover at hlive ⊢
  split at hlive
  · next hexp =>
      rw [if_pos hexp]
      by_cases hretry : y.state.attempt ≤ y.state.task.maxRetries
      · simp [TaskState.recovered, TaskState.seen, TaskRecord.seen, hretry]
      · simp [TaskState.recovered, TaskState.seen, TaskRecord.seen, hretry,
          TaskStatus.final] at hlive
  · next hexp =>
      rw [if_neg hexp]
      exact hq y hy hlive

theorem Clean.rewrite (hq : q.Clean) {f : SeenTask → SeenTask} (hu : Rows.Unique SeenTask.taskId q)
    (hx : q.find taskId = some x) (hf : (f x).status.final = false → (f x).result = none) :
    (q.rewrite taskId f).Clean := by
  intro y hy hlive
  rcases (Rows.mem_update hu hx).mp hy with rfl | ⟨hy, -⟩
  · exact hf hlive
  · exact hq y hy hlive

theorem unique_recover (hu : Rows.Unique SeenTask.taskId q) (now : Time) :
    Rows.Unique SeenTask.taskId (q.recover now) :=
  hu.map fun x ↦ by
    unfold SeenTask.lift TaskState.recover
    split <;> rfl

theorem Clean.claim (hq : q.Clean) (hu : Rows.Unique SeenTask.taskId q) (worker : WorkerDescriptor)
    (leaseSeconds : Time) (taskTypes namespaces : List String) (token : String) :
    (q.claim now worker leaseSeconds taskTypes namespaces token).2.Clean := by
  have hswept := hq.recover now
  unfold TaskQueue.claim
  dsimp only
  split
  · exact hswept
  · split
    · exact hswept
    · next x hfind =>
        have hmem := List.mem_of_find?_eq_some hfind
        have hqueued : x.status = .queued := by
          have h := List.find?_some hfind
          simp only [Bool.and_eq_true, decide_eq_true_eq] at h
          exact h.1
        refine hswept.rewrite (unique_recover hu now)
          (Rows.lookup_of_mem (unique_recover hu now) hmem) fun _ ↦ ?_
        exact hswept x hmem (by rw [hqueued]; rfl)

theorem Clean.finish (hq : q.Clean) (hu : Rows.Unique SeenTask.taskId q) (claim : ClaimedTask)
    (result : TaskResult) {status : TaskStatus} (hstatus : status.final) (allowRetry : Bool) :
    (q.finish now claim result status allowRetry).2.Clean := by
  unfold TaskQueue.finish
  split
  · exact hq
  · next x hfind =>
      split
      · refine hq.rewrite hu hfind fun hlive ↦ ?_
        unfold SeenTask.lift TaskState.finished TaskState.seen TaskRecord.seen at hlive ⊢
        dsimp only at hlive ⊢
        split at hlive
        · next hretry => rw [if_pos hretry]
        · rw [hstatus] at hlive
          cases hlive
      · exact hq

/-- Every call leaves it so. -/
theorem Clean.exec (hq : q.Clean) (hu : Rows.Unique SeenTask.taskId q) (now : Time)
    (call : TaskCall) : (q.exec now call).2.Clean := by
  cases call with
  | submit task =>
      simp only [TaskQueue.exec, TaskQueue.submit]
      split
      · split <;> exact hq
      · intro x hx hlive
        rcases List.mem_append.mp hx with hx | hx
        · exact hq x hx hlive
        · obtain rfl := List.mem_singleton.mp hx
          rfl
  | claim worker leaseSeconds taskTypes namespaces token => 
      exact hq.claim hu worker leaseSeconds taskTypes namespaces token
  | heartbeatTask claim leaseSeconds =>
      simp only [TaskQueue.exec, TaskQueue.heartbeatTask]
      split
      · exact hq
      · next x hfind =>
          split
          · exact hq.rewrite hu hfind (hq x (Rows.mem_of_lookup hfind))
          · exact hq
  | complete claim result =>
      simp only [TaskQueue.exec]
      split
      · exact hq.finish hu claim result rfl false
      · exact hq
  | fail claim result =>
      simp only [TaskQueue.exec]
      split
      · exact hq.finish hu claim result rfl true
      · exact hq
  | recoverExpired => exact hq.recover now
  | cancel taskId reason =>
      simp only [TaskQueue.exec, TaskQueue.cancel]
      split
      · exact hq
      · next x hfind =>
          split
          · exact hq.rewrite hu hfind fun h ↦ by cases h
          · exact hq
  | get taskId => exact hq

end TaskQueue

end Blackbase.Resources

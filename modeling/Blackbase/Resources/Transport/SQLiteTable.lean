import Blackbase.Resources.Transport.SQLite
import Blackbase.Resources.Transport.Table

/-!
# The SQLite tasks as a table

`SQLiteTasks.exec_does`: each call does to the stored states what `Does` allows.
-/

namespace Blackbase.Resources.SQLiteTasks

/-- The stored states. -/
def table (s : SQLiteTasks) : TaskTable := s.rows.map (·.state)

/-- No two rows share a task id. -/
def Wf (s : SQLiteTasks) : Prop := Rows.Unique TaskState.taskId s.table

theorem wf_empty : empty.Wf := List.nodup_nil

theorem lookup_table (s : SQLiteTasks) (taskId : String) :
    Rows.lookup TaskState.taskId taskId s.table = (s.row taskId).map (·.state) := by
  rw [Rows.lookup, table, List.find?_map]
  rfl

theorem lookup_of_row {s : SQLiteTasks} {taskId : String} {row : TaskRow}
    (h : s.row taskId = some row) :
    Rows.lookup TaskState.taskId taskId s.table = some row.state := by
  rw [lookup_table, h, Option.map_some]

theorem table_updateRow (s : SQLiteTasks) (taskId : String) (f : TaskState → TaskState) :
    (s.updateRow taskId f).table = Rows.update TaskState.taskId taskId f s.table := by
  simp only [table, updateRow, Rows.update, List.map_map]
  refine List.map_congr_left fun row _ ↦ ?_
  by_cases h : row.state.taskId = taskId <;> simp [rowKey, h]

theorem table_recoverExpiredLocked (s : SQLiteTasks) (now : Time) :
    (s.recoverExpiredLocked now).table = TaskTable.recover .sqlite now s.table := by
  simp only [table, recoverExpiredLocked, TaskTable.recover, List.map_map]
  rfl

theorem activeCount_eq (s : SQLiteTasks) (workerId : String) :
    s.activeCount workerId = s.table.heldBy workerId := by
  rw [activeCount, TaskTable.heldBy, table, List.countP_map, List.countP_eq_length_filter]
  rfl

theorem Wf.lookup_mem {s : SQLiteTasks} (hs : s.Wf) {row : TaskRow} (h : row ∈ s.rows) :
    Rows.lookup TaskState.taskId row.state.taskId s.table = some row.state :=
  Rows.lookup_of_mem hs (List.mem_map_of_mem h)

theorem mem_queuedRows {s : SQLiteTasks} {row : TaskRow} (h : row ∈ s.queuedRows) :
    row ∈ s.rows ∧ row.state.status = .queued := by
  have hmem := (List.perm_insertionSort _ _).subset h
  simpa using List.mem_filter.mp hmem

/-! ## The calls -/

variable {s : SQLiteTasks} (hs : s.Wf) (now : Time)

theorem claims_leasedState {c : ClaimedTask} {r : TaskState} (hq : r.status = .queued)
    (htask : c.task = r.task) (hattempt : c.attempt = r.attempt + 1) :
    r.Claims c (leasedState now c r) where
  queued := hq
  task := rfl
  leased := rfl
  holds := ⟨htask, rfl, rfl, rfl⟩
  attempt := hattempt

theorem submit_does (task : TaskEnvelope) :
    Does .sqlite now s.table (.submit task) (s.submit now task).1 (s.submit now task).2.table := by
  unfold submit
  split
  · next existing hrow =>
      split
      · exact .rejected task _
      · next hsame =>
          obtain rfl := not_not.mp hsame
          exact .resubmitted existing.state (Rows.mem_of_lookup (lookup_of_row hrow))
  · next hrow =>
      have hfresh : Rows.lookup TaskState.taskId task.taskId s.table = none := by
        rw [lookup_table, hrow, Option.map_none]
      have htable : table ⟨s.rows ++ [⟨.new task now, now⟩]⟩ = s.table ++ [.new task now] := by
        simp [table]
      rw [htable]
      exact .submitted task hfresh

include hs in
theorem claim_does (worker : WorkerDescriptor) (leaseSeconds : Time)
    (taskTypes namespaces : List String) (token : String) :
    Does .sqlite now s.table (.claim worker leaseSeconds taskTypes namespaces token)
      (s.claim now worker leaseSeconds taskTypes namespaces token).1
      (s.claim now worker leaseSeconds taskTypes namespaces token).2.table := by
  have htable := table_recoverExpiredLocked s now
  have hwf : (s.recoverExpiredLocked now).Wf := by
    rw [Wf, htable]
    exact TaskTable.recover_unique _ _ hs
  simp only [claim]
  split
  · rw [htable]
    exact .unclaimed ..
  next hfree =>
  split
  · rw [htable]
    exact .unclaimed ..
  next row hfind =>
  obtain ⟨hrow, hqueued⟩ := mem_queuedRows (List.mem_of_find?_eq_some hfind)
  have hlookup := hwf.lookup_mem hrow
  have hheld := not_le.mp hfree
  rw [activeCount_eq, htable] at hheld
  rw [table_updateRow, htable]
  rw [htable] at hlookup
  exact .claimed worker leaseSeconds taskTypes namespaces ⟨_, _, token, _, _⟩ row.state _ hlookup
    (claims_leasedState now hqueued rfl rfl) rfl hheld

theorem heartbeatTask_does (claim : ClaimedTask) (leaseSeconds : Time) :
    Does .sqlite now s.table (.heartbeatTask claim leaseSeconds)
      (s.heartbeatTask now claim leaseSeconds).1
      (s.heartbeatTask now claim leaseSeconds).2.table := by
  unfold heartbeatTask
  split
  · exact .missed ..
  next row hrow =>
  split
  · next hactive =>
      rw [table_updateRow]
      exact .extended claim leaseSeconds row.state _ (lookup_of_row hrow)
        ⟨hactive, rfl, (TaskState.claimIsActive_iff.mp hactive).1, rfl, rfl, rfl⟩
  · exact .missed ..

theorem finishClaim_does {call : TaskCall} {claim : ClaimedTask} {status : TaskStatus}
    {allowRetry : Bool} (hcall : call.finish? = some (claim, status, allowRetry))
    (result : TaskResult) :
    Does .sqlite now s.table call (s.finishClaim now claim result status allowRetry).1
      (s.finishClaim now claim result status allowRetry).2.table := by
  have hsome : call.finish?.isSome := by rw [hcall]; rfl
  unfold finishClaim
  split
  · exact .refused call _ hsome
  next row hrow =>
  split
  · next hactive =>
      rw [table_updateRow]
      exact .finished call claim status allowRetry row.state _ hcall (lookup_of_row hrow)
        ⟨hactive, rfl, rfl, rfl⟩
  · exact .refused call _ hsome

theorem complete_does (claim : ClaimedTask) (result : TaskResult) :
    Does .sqlite now s.table (.complete claim result) (s.complete now claim result).1
      (s.complete now claim result).2.table := by
  unfold complete
  split
  · exact .refused _ _ rfl
  split
  · exact .refused _ _ rfl
  · exact finishClaim_does now rfl result

theorem fail_does (claim : ClaimedTask) (result : TaskResult) :
    Does .sqlite now s.table (.fail claim result) (s.fail now claim result).1
      (s.fail now claim result).2.table := by
  unfold fail
  split
  · exact .refused _ _ rfl
  split
  · exact .refused _ _ rfl
  · exact finishClaim_does now rfl result

theorem cancel_does (taskId reason : String) :
    Does .sqlite now s.table (.cancel taskId reason) (s.cancel now taskId reason).1
      (s.cancel now taskId reason).2.table := by
  unfold cancel
  split
  · exact .uncancelled ..
  next row hrow =>
  split
  · next hqueued =>
      rw [table_updateRow]
      exact .cancelled taskId reason row.state _ (lookup_of_row hrow) ⟨hqueued, rfl, rfl, rfl⟩
  · exact .uncancelled ..

include hs in
/-- Each call does to the stored states what `Does` allows. -/
theorem exec_does (call : TaskCall) :
    Does .sqlite now s.table call (s.exec now call).1 (s.exec now call).2.table := by
  cases call with
  | submit task => exact submit_does now task
  | claim worker leaseSeconds taskTypes namespaces token =>
      exact claim_does hs now worker leaseSeconds taskTypes namespaces token
  | heartbeatTask claim leaseSeconds => exact heartbeatTask_does now claim leaseSeconds
  | complete claim result => exact complete_does now claim result
  | fail claim result => exact fail_does now claim result
  | recoverExpired =>
      rw [exec, recoverExpired, table_recoverExpiredLocked]
      exact .recovered _
  | cancel taskId reason => exact cancel_does now taskId reason
  | get taskId => exact .read taskId _

end Blackbase.Resources.SQLiteTasks

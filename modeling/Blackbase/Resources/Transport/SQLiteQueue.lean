import Blackbase.Resources.Transport.Queue
import Blackbase.Resources.Transport.SQLiteTable

/-!
# The SQLite transport as a task queue

The rows are inserted in the order of submission and the times of submission increase, so
the order of a claim's query is that of the table: each call answers as `TaskQueue.exec`
does.
-/

namespace Blackbase.Resources.SQLiteTasks

/-- The table looks like the queue `q`, and its tasks were submitted one after another, the
last at `last`. -/
structure Shows (s : SQLiteTasks) (last : Time) (q : TaskQueue) : Prop where
  wf : s.Wf
  seen : s.table.map TaskState.seen = q
  ordered : (s.rows.map TaskRow.createdAt).Pairwise (· < ·)
  past : ∀ x ∈ s.rows.map TaskRow.createdAt, x ≤ last

theorem shows_empty (last : Time) : empty.Shows last [] :=
  ⟨wf_empty, rfl, List.Pairwise.nil, by simp [empty]⟩

variable {s t : SQLiteTasks} {last now : Time} {q q' : TaskQueue} {row : TaskRow} {taskId : String}

/-- Rows keep the time of their submission. -/
theorem Shows.rewritten (h : s.Shows last q) (hnow : last ≤ now) (hwf : t.Wf)
    (hseen : t.table.map TaskState.seen = q')
    (hcreated : t.rows.map TaskRow.createdAt = s.rows.map TaskRow.createdAt) :
    t.Shows now q' :=
  ⟨hwf, hseen, hcreated ▸ h.ordered, fun x hx ↦ (h.past x (hcreated ▸ hx)).trans hnow⟩

theorem Shows.later (h : s.Shows last q) (hnow : last < now) : s.Shows now q :=
  h.rewritten hnow.le h.wf h.seen rfl

theorem Shows.find (h : s.Shows last q) (taskId : String) :
    q.find taskId = (s.row taskId).map fun row ↦ row.state.seen := by
  rw [← h.seen, find_seen, lookup_table, Option.map_map]
  rfl

theorem created_updateRow (s : SQLiteTasks) (taskId : String) (f : TaskState → TaskState) :
    (s.updateRow taskId f).rows.map TaskRow.createdAt = s.rows.map TaskRow.createdAt := by
  simp only [updateRow, Rows.update, List.map_map]
  refine List.map_congr_left fun row _ ↦ ?_
  rw [Function.comp_apply]
  split <;> rfl

/-- Rewriting the row of a task is rewriting the task. -/
theorem Shows.updateRow (h : s.Shows last q) (hnow : last ≤ now) (hrow : s.row taskId = some row)
    {f : TaskState → TaskState} {g : SeenTask → SeenTask}
    (hkey : (f row.state).taskId = row.state.taskId) (hg : (f row.state).seen = g row.state.seen) :
    (s.updateRow taskId f).Shows now (q.rewrite taskId g) := by
  have hlookup := lookup_of_row hrow
  refine h.rewritten hnow ?_ ?_ (created_updateRow s taskId f)
  · rw [Wf, table_updateRow]
    exact Rows.Unique.update_row h.wf hlookup (hkey.trans (Rows.key_of_lookup hlookup))
  · rw [table_updateRow, ← h.seen]
    exact rewrite_seen h.wf hlookup hg

theorem Shows.recover (h : s.Shows last q) (hnow : last < now) :
    (s.recoverExpiredLocked now).Shows now (q.recover now) := by
  refine h.rewritten hnow.le ?_ ?_ ?_
  · rw [Wf, table_recoverExpiredLocked]
    exact TaskTable.recover_unique _ _ h.wf
  · rw [table_recoverExpiredLocked, ← h.seen]
    exact recover_seen s.table fun _ _ ↦ rfl
  · simp [recoverExpiredLocked]

/-- The query of a claim lists the queued rows as they are. -/
theorem Shows.queuedRows (h : s.Shows last q) :
    s.queuedRows = s.rows.filter fun row ↦ row.state.status = .queued := by
  refine List.Pairwise.insertionSort_eq (List.Pairwise.filter _ ?_)
  exact (List.pairwise_map.mp h.ordered).imp fun hlt ↦ .inl hlt

theorem Shows.find_queued (h : s.Shows last q) (accepts : TaskEnvelope → Bool) :
    (q.find? fun x ↦ x.status = .queued && accepts x.task) =
      (s.queuedRows.find? fun row ↦ accepts row.state.task).map fun row ↦ row.state.seen := by
  rw [h.queuedRows, List.find?_filter, ← h.seen, table, List.map_map, List.find?_map]
  simp only [Bool.decide_and, Bool.decide_eq_true]
  rfl

theorem row_of_mem (hs : s.Wf) (hrow : row ∈ s.rows) : s.row row.state.taskId = some row := by
  have hu : Rows.Unique rowKey s.rows := by
    rw [Wf, table, Rows.Unique, List.map_map] at hs
    exact hs
  exact Rows.lookup_of_mem hu hrow

theorem Shows.heldBy (h : s.Shows last q) (workerId : String) :
    q.heldBy workerId = s.activeCount workerId := by
  rw [activeCount_eq, ← h.seen, heldBy_seen]

variable (h : s.Shows last q) (hnow : last < now)

include h hnow

theorem Shows.submit (task : TaskEnvelope) :
    seenReply (s.submit now task).1 = (q.submit now task).1 ∧
      (s.submit now task).2.Shows now (q.submit now task).2 := by
  unfold SQLiteTasks.submit TaskQueue.submit
  rw [h.find]
  cases hrow : s.row task.taskId with
  | some existing =>
      dsimp only [Option.map_some]
      by_cases hsame : existing.state.task ≠ task
      · have hsame' : existing.state.seen.task ≠ task := hsame
        rw [if_pos hsame, if_pos hsame']
        exact ⟨rfl, h.later hnow⟩
      · have hsame' : ¬ existing.state.seen.task ≠ task := hsame
        rw [if_neg hsame, if_neg hsame']
        exact ⟨rfl, h.later hnow⟩
  | none =>
      have hfresh : Rows.lookup TaskState.taskId task.taskId s.table = none := by
        rw [lookup_table, hrow, Option.map_none]
      have htable : table ⟨s.rows ++ [⟨.new task now, now⟩]⟩ = s.table ++ [.new task now] := by
        simp [table]
      refine ⟨rfl, ?_, ?_, ?_, ?_⟩
      · rw [Wf, htable]
        exact Rows.Unique.append h.wf hfresh
      · rw [htable, List.map_append, h.seen]
        rfl
      · rw [List.map_append, List.pairwise_append]
        refine ⟨h.ordered, List.pairwise_singleton _ _, fun x hx y hy ↦ ?_⟩
        obtain rfl : y = now := by simpa using hy
        exact (h.past x hx).trans_lt hnow
      · intro x hx
        rw [List.map_append] at hx
        rcases List.mem_append.mp hx with hx | hx
        · exact (h.past x hx).trans hnow.le
        · obtain rfl : x = now := by simpa using hx
          exact le_rfl

theorem Shows.claim (worker : WorkerDescriptor) (leaseSeconds : Time)
    (taskTypes namespaces : List String) (token : String) :
    seenReply (s.claim now worker leaseSeconds taskTypes namespaces token).1 =
        (q.claim now worker leaseSeconds taskTypes namespaces token).1 ∧
      (s.claim now worker leaseSeconds taskTypes namespaces token).2.Shows now
        (q.claim now worker leaseSeconds taskTypes namespaces token).2 := by
  have hswept := h.recover hnow
  simp only [SQLiteTasks.claim, TaskQueue.claim]
  rw [hswept.heldBy]
  split
  · exact ⟨rfl, hswept⟩
  rw [hswept.find_queued]
  cases hfind : (s.recoverExpiredLocked now).queuedRows.find? fun row ↦
      (worker.heartbeat "online").accepts taskTypes namespaces
        ((s.recoverExpiredLocked now).activeCount (worker.heartbeat "online").workerId)
        row.state.task with
  | none => exact ⟨rfl, hswept⟩
  | some row =>
      obtain ⟨hrow, -⟩ := mem_queuedRows (List.mem_of_find?_eq_some hfind)
      exact ⟨rfl, hswept.updateRow le_rfl (row_of_mem hswept.wf hrow) rfl rfl⟩

omit hnow in
theorem Shows.expired : q.countP (fun x ↦ x.state.expired now) =
    (s.rows.filter fun row ↦ row.state.expired now).length := by
  rw [← h.seen, table, List.map_map, List.countP_map, List.countP_eq_length_filter]
  rfl

theorem Shows.heartbeatTask (claim : ClaimedTask) (leaseSeconds : Time) :
    seenReply (s.heartbeatTask now claim leaseSeconds).1 =
        (q.heartbeatTask now claim leaseSeconds).1 ∧
      (s.heartbeatTask now claim leaseSeconds).2.Shows now
        (q.heartbeatTask now claim leaseSeconds).2 := by
  unfold SQLiteTasks.heartbeatTask TaskQueue.heartbeatTask
  rw [h.find]
  cases hrow : s.row claim.task.taskId with
  | none => exact ⟨rfl, h.later hnow⟩
  | some row =>
      dsimp only [Option.map_some]
      rw [claimIsActive_seen]
      split
      · exact ⟨rfl, h.updateRow hnow.le hrow rfl (visible_extended ..)⟩
      · exact ⟨rfl, h.later hnow⟩

theorem Shows.finish (claim : ClaimedTask) (result : TaskResult) (status : TaskStatus)
    (allowRetry : Bool) :
    seenReply (s.finishClaim now claim result status allowRetry).1 =
        (q.finish now claim result status allowRetry).1 ∧
      (s.finishClaim now claim result status allowRetry).2.Shows now
        (q.finish now claim result status allowRetry).2 := by
  unfold SQLiteTasks.finishClaim TaskQueue.finish
  rw [h.find]
  cases hrow : s.row claim.task.taskId with
  | none => exact ⟨rfl, h.later hnow⟩
  | some row =>
      dsimp only [Option.map_some]
      rw [claimIsActive_seen]
      split
      · exact ⟨rfl, h.updateRow hnow.le hrow rfl (visible_finished ..)⟩
      · exact ⟨rfl, h.later hnow⟩

theorem Shows.cancel (taskId reason : String) :
    seenReply (s.cancel now taskId reason).1 = (q.cancel now taskId reason).1 ∧
      (s.cancel now taskId reason).2.Shows now (q.cancel now taskId reason).2 := by
  unfold SQLiteTasks.cancel TaskQueue.cancel
  rw [h.find]
  cases hrow : s.row taskId with
  | none => exact ⟨rfl, h.later hnow⟩
  | some row =>
      dsimp only [Option.map_some]
      have hstatus : row.state.seen.status = row.state.status := rfl
      rw [hstatus]
      split
      · exact ⟨rfl, h.updateRow hnow.le hrow rfl (visible_cancelled ..)⟩
      · exact ⟨rfl, h.later hnow⟩

/-- Each call answers as the queue does. -/
theorem Shows.exec (call : TaskCall) :
    seenReply (s.exec now call).1 = (q.exec now call).1 ∧
      (s.exec now call).2.Shows now (q.exec now call).2 := by
  cases call with
  | submit task => exact h.submit hnow task
  | claim worker leaseSeconds taskTypes namespaces token =>
      exact h.claim hnow worker leaseSeconds taskTypes namespaces token
  | heartbeatTask claim leaseSeconds => exact h.heartbeatTask hnow claim leaseSeconds
  | complete claim result =>
      simp only [SQLiteTasks.exec, SQLiteTasks.complete, TaskQueue.exec]
      by_cases hid : result.taskId = claim.task.taskId
      · cases hok : result.ok with
        | true => simpa [hid] using h.finish hnow claim result .succeeded false
        | false => simpa [hid, seenReply] using h.later hnow
      · simpa [hid, seenReply] using h.later hnow
  | fail claim result =>
      simp only [SQLiteTasks.exec, SQLiteTasks.fail, TaskQueue.exec]
      by_cases hid : result.taskId = claim.task.taskId
      · cases hok : result.ok with
        | true => simpa [hid, seenReply] using h.later hnow
        | false => simpa [hid] using h.finish hnow claim result .failed true
      · simpa [hid, seenReply] using h.later hnow
  | recoverExpired =>
      refine ⟨?_, h.recover hnow⟩
      simp only [SQLiteTasks.exec, SQLiteTasks.recoverExpired, seenReply, TaskQueue.exec]
      rw [h.expired]
  | cancel taskId reason => exact h.cancel hnow taskId reason
  | get taskId =>
      refine ⟨?_, h.later hnow⟩
      simp only [SQLiteTasks.exec, SQLiteTasks.get, seenReply, TaskQueue.exec, h.find,
        Option.map_map]
      rfl

end Blackbase.Resources.SQLiteTasks

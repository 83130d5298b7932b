import Blackbase.Resources.Transport.InMemory
import Blackbase.Resources.Transport.Table

/-!
# The in-memory tasks as a table

A stored state is a record with the lease token kept for its task.
`InMemoryTasks.exec_performs`: each call does to the stored states what `Does` allows.
-/

namespace Blackbase.Resources.InMemoryTasks

/-- A record with the token kept for its task. -/
def stateOf (s : InMemoryTasks) (r : TaskRecord) : TaskState :=
  ⟨r, (s.leaseTokens r.taskId).getD ""⟩

/-- The stored states. -/
def table (s : InMemoryTasks) : TaskTable := s.records.map s.stateOf

/-- No two records share a task id, and tokens are kept for recorded tasks only. -/
structure Wf (s : InMemoryTasks) : Prop where
  records : Rows.Unique TaskRecord.taskId s.records
  tokens : ∀ taskId, s.record taskId = none → s.leaseTokens taskId = none

theorem wf_empty : empty.Wf := ⟨List.nodup_nil, fun _ _ ↦ rfl⟩

variable {s : InMemoryTasks}

theorem map_taskId_table (s : InMemoryTasks) :
    s.table.map TaskState.taskId = s.records.map TaskRecord.taskId := by
  rw [table, List.map_map]
  rfl

theorem Wf.unique (hs : s.Wf) : Rows.Unique TaskState.taskId s.table := by
  rw [Rows.Unique, map_taskId_table]
  exact hs.records

theorem lookup_table (s : InMemoryTasks) (taskId : String) :
    Rows.lookup TaskState.taskId taskId s.table = (s.record taskId).map s.stateOf := by
  rw [Rows.lookup, table, List.find?_map]
  rfl

theorem lookup_of_record {taskId : String} {r : TaskRecord} (h : s.record taskId = some r) :
    Rows.lookup TaskState.taskId taskId s.table = some (s.stateOf r) := by
  rw [lookup_table, h, Option.map_some]

theorem activeCount_eq (s : InMemoryTasks) (workerId : String) :
    s.activeCount workerId = s.table.heldBy workerId := by
  rw [activeCount, TaskTable.heldBy, table, List.countP_map, List.countP_eq_length_filter]
  rfl

/-! ## Writing a record -/

theorem record_store (s : InMemoryTasks) {taskId : String} {r : TaskRecord}
    (hr : r.taskId = taskId) (token : Option String) (id : String) :
    (s.store taskId r token).record id =
      if id = taskId then (s.record id).map fun _ ↦ r else s.record id :=
  Rows.lookup_update (fun _ _ ↦ hr) s.records

theorem Wf.store (hs : s.Wf) {taskId : String} {r r' : TaskRecord}
    (h : s.record taskId = some r) (hr' : r'.taskId = taskId) (token : Option String) :
    (s.store taskId r' token).Wf where
  records := Rows.Unique.update hs.records fun _ _ ↦ hr'
  tokens id hid := by
    rw [record_store s hr'] at hid
    by_cases hne : id = taskId
    · rw [if_pos hne, hne, h] at hid
      cases hid
    · rw [if_neg hne] at hid
      simpa [InMemoryTasks.store, hne] using hs.tokens id hid

theorem table_store (s : InMemoryTasks) {taskId : String} {r : TaskRecord}
    (hr : r.taskId = taskId) (token : Option String) :
    (s.store taskId r token).table =
      Rows.update TaskState.taskId taskId (fun _ ↦ ⟨r, token.getD ""⟩) s.table := by
  simp only [table, store, Rows.update, List.map_map]
  refine List.map_congr_left fun x _ ↦ ?_
  rw [Function.comp_apply, Function.comp_apply]
  by_cases h : x.taskId = taskId
  · have hx : (s.stateOf x).taskId = taskId := h
    rw [if_pos h, if_pos hx]
    simp [stateOf, hr]
  · have hx : (s.stateOf x).taskId ≠ taskId := h
    rw [if_neg h, if_neg hx]
    simp [stateOf, h]

/-- Rewriting the record of a task is rewriting its stored state. -/
theorem Wf.table_store (hs : s.Wf) {taskId : String} {r r' : TaskRecord}
    (h : s.record taskId = some r) (hr' : r'.taskId = taskId) (token : Option String)
    {f : TaskState → TaskState} (hf : f (s.stateOf r) = ⟨r', token.getD ""⟩) :
    (s.store taskId r' token).table = Rows.update TaskState.taskId taskId f s.table := by
  rw [InMemoryTasks.table_store s hr', Rows.update_congr hs.unique (lookup_of_record h) hf.symm]

/-! ## The recovery -/

theorem Wf.recoverOne_spec (hs : s.Wf) (now : Time) {r : TaskRecord}
    (hr : s.record r.taskId = some r) :
    (recoverOne now s r).Wf ∧
      (recoverOne now s r).table =
        Rows.update TaskState.taskId r.taskId (TaskBackend.inMemory.recover now) s.table ∧
      ∀ id, id ≠ r.taskId → (recoverOne now s r).record id = s.record id := by
  unfold recoverOne
  split
  · next hexp =>
      have hkey : (unleased now .queued none "task lease expired" r).taskId = r.taskId := rfl
      have hrec : TaskBackend.inMemory.recover now (s.stateOf r) =
          ⟨unleased now .queued none "task lease expired" r, (none : Option String).getD ""⟩ :=
        if_pos hexp
      refine ⟨hs.store hr hkey none, hs.table_store hr hkey none hrec, fun id h ↦ ?_⟩
      rw [record_store s hkey, if_neg h]
  · next hlive =>
      have hrec : TaskBackend.inMemory.recover now (s.stateOf r) = id (s.stateOf r) :=
        TaskBackend.recover_of_not_expired hlive
      refine ⟨hs, ?_, fun _ _ ↦ rfl⟩
      rw [Rows.update_congr hs.unique (lookup_of_record hr) hrec]
      simp [Rows.update]

theorem Wf.foldl_recoverOne (hs : s.Wf) (now : Time) {rows : List TaskRecord}
    (hrows : Rows.Unique TaskRecord.taskId rows)
    (hmem : ∀ r ∈ rows, s.record r.taskId = some r) :
    (rows.foldl (recoverOne now) s).Wf ∧
      (rows.foldl (recoverOne now) s).table = s.table.map fun x ↦
        if x.taskId ∈ rows.map TaskRecord.taskId then TaskBackend.inMemory.recover now x
        else x := by
  induction rows generalizing s with
  | nil => exact ⟨hs, by simp⟩
  | cons r rows ih =>
      have hu : r.taskId ∉ rows.map TaskRecord.taskId ∧ Rows.Unique TaskRecord.taskId rows := by
        simpa [Rows.Unique, List.nodup_cons] using hrows
      obtain ⟨hwf, htable, hkeep⟩ := hs.recoverOne_spec now (hmem r List.mem_cons_self)
      obtain ⟨hwf', htable'⟩ := ih hwf hu.2 fun x hx ↦ by
        have hne : x.taskId ≠ r.taskId := fun h ↦ hu.1 (h ▸ List.mem_map_of_mem hx)
        rw [hkeep _ hne]
        exact hmem x (List.mem_cons_of_mem _ hx)
      refine ⟨hwf', htable'.trans ?_⟩
      rw [htable, Rows.update, List.map_map]
      refine List.map_congr_left fun x _ ↦ ?_
      rw [Function.comp_apply, List.map_cons]
      by_cases h : x.taskId = r.taskId
      · have hkey : (TaskBackend.inMemory.recover now x).taskId = r.taskId := by
          rw [TaskState.taskId, TaskBackend.recover_task]
          exact h
        rw [if_pos h, hkey, if_neg hu.1, h, if_pos List.mem_cons_self]
      · simp only [h, List.mem_cons, false_or, ↓reduceIte]

theorem Wf.recoverExpiredLocked_spec (hs : s.Wf) (now : Time) :
    (s.recoverExpiredLocked now).Wf ∧
      (s.recoverExpiredLocked now).table = TaskTable.recover .inMemory now s.table := by
  obtain ⟨hwf, htable⟩ := hs.foldl_recoverOne now hs.records fun _ hr ↦
    Rows.lookup_of_mem hs.records hr
  refine ⟨hwf, htable.trans (List.map_congr_left fun x hx ↦ if_pos ?_)⟩
  rw [← map_taskId_table]
  exact List.mem_map_of_mem hx

/-! ## The calls -/

/-- A claim the transport takes for current is active. -/
theorem claimIsActive_of_current {now : Time} {r : TaskRecord} {claim : ClaimedTask}
    (hr : s.record claim.task.taskId = some r) (h : s.claimIsCurrent r claim now) :
    (s.stateOf r).claimIsActive claim now ∧ r.attempt = claim.attempt := by
  simp only [claimIsCurrent, Bool.and_eq_true, decide_eq_true_eq] at h
  obtain ⟨⟨⟨⟨hleased, hworker⟩, hattempt⟩, htoken⟩, hlive⟩ := h
  refine ⟨TaskState.claimIsActive_iff.mpr ⟨hleased, hworker, ?_, hlive⟩, hattempt⟩
  have hkey : r.taskId = claim.task.taskId := Rows.key_of_lookup hr
  rw [stateOf, hkey, htoken, Option.getD_some]

section Calls

variable (hs : s.Wf) (now : Time)

/-- What a call answers and leaves behind. -/
structure Performs (s : InMemoryTasks) (now : Time) (call : TaskCall) (out : TaskOutcome)
    (after : InMemoryTasks) : Prop where
  wf : after.Wf
  does : Does .inMemory now s.table call out after.table

include hs

theorem submit_performs (task : TaskEnvelope) :
    s.Performs now (.submit task) (s.submit now task).1 (s.submit now task).2 := by
  unfold submit
  split
  · next current hrow =>
      split
      · exact ⟨hs, .rejected task _⟩
      · next hsame =>
          obtain rfl := not_not.mp hsame
          exact ⟨hs, .resubmitted (s.stateOf current)
            (Rows.mem_of_lookup (lookup_of_record hrow))⟩
  · next hrow =>
      have hfresh : Rows.lookup TaskState.taskId task.taskId s.table = none := by
        rw [lookup_table, hrow, Option.map_none]
      have htable : (⟨s.records ++ [(TaskState.new task now).toTaskRecord], s.leaseTokens⟩ :
          InMemoryTasks).table = s.table ++ [.new task now] := by
        have hnew : s.stateOf (TaskState.new task now).toTaskRecord = .new task now := by
          have htoken : s.leaseTokens (TaskState.new task now).toTaskRecord.taskId = none :=
            hs.tokens task.taskId hrow
          rw [stateOf, htoken]
          rfl
        rw [← hnew]
        simp [table, stateOf]
      refine ⟨⟨Rows.Unique.append hs.records hrow, fun id hid ↦ hs.tokens id ?_⟩, ?_⟩
      · simp only [record, Rows.lookup_append, Option.or_eq_none_iff] at hid
        exact hid.1
      · dsimp only
        rw [htable]
        exact .submitted task hfresh

theorem claim_performs (worker : WorkerDescriptor) (leaseSeconds : Time)
    (taskTypes namespaces : List String) (token : String) :
    s.Performs now (.claim worker leaseSeconds taskTypes namespaces token)
      (s.claim now worker leaseSeconds taskTypes namespaces token).1
      (s.claim now worker leaseSeconds taskTypes namespaces token).2 := by
  obtain ⟨hwf, htable⟩ := hs.recoverExpiredLocked_spec now
  simp only [claim]
  split
  · exact ⟨hwf, htable ▸ .unclaimed ..⟩
  next hfree =>
  split
  · exact ⟨hwf, htable ▸ .unclaimed ..⟩
  next r hfind =>
  have hqueued : r.status = .queued := by
    have h := List.find?_some hfind
    simp only [Bool.and_eq_true, decide_eq_true_eq] at h
    exact h.1
  have hrow : (s.recoverExpiredLocked now).record r.taskId = some r :=
    Rows.lookup_of_mem hwf.records (List.mem_of_find?_eq_some hfind)
  have hlookup := lookup_of_record hrow
  have hheld := not_le.mp hfree
  rw [activeCount_eq, htable] at hheld
  have hkey : (leasedRecord now r.task (r.attempt + 1) (worker.heartbeat "online").workerId
      (now + leaseDuration leaseSeconds)).taskId = r.taskId := rfl
  refine ⟨hwf.store hrow hkey _, ?_⟩
  dsimp only
  rw [InMemoryTasks.table_store _ hkey, htable]
  rw [htable] at hlookup
  exact .claimed worker leaseSeconds taskTypes namespaces
    ⟨r.task, (worker.heartbeat "online").workerId, token, r.attempt + 1,
      now + leaseDuration leaseSeconds⟩ ((s.recoverExpiredLocked now).stateOf r) _ hlookup
    ⟨hqueued, rfl, rfl, ⟨rfl, rfl, rfl, rfl⟩, rfl⟩ rfl hheld

theorem heartbeatTask_performs (claim : ClaimedTask) (leaseSeconds : Time) :
    s.Performs now (.heartbeatTask claim leaseSeconds) (s.heartbeatTask now claim leaseSeconds).1
      (s.heartbeatTask now claim leaseSeconds).2 := by
  unfold heartbeatTask
  split
  · exact ⟨hs, .missed ..⟩
  next r hrow =>
  split
  · next hcurrent =>
      obtain ⟨hactive, -⟩ := claimIsActive_of_current hrow hcurrent
      have hr : r.taskId = claim.task.taskId := Rows.key_of_lookup hrow
      have hkey : (leasedRecord now r.task r.attempt r.workerId
          (now + leaseDuration leaseSeconds)).taskId = claim.task.taskId := hr
      refine ⟨hs.store hrow hkey _, ?_⟩
      dsimp only
      rw [InMemoryTasks.table_store _ hkey]
      refine .extended claim leaseSeconds (s.stateOf r) _ (lookup_of_record hrow)
        ⟨hactive, rfl, rfl, rfl, ?_, rfl⟩
      rw [stateOf, hr]
  · exact ⟨hs, .missed ..⟩

theorem finish_performs {call : TaskCall} {claim : ClaimedTask} {status : TaskStatus}
    {allowRetry : Bool} (hcall : call.finish? = some (claim, status, allowRetry))
    (result : TaskResult) :
    s.Performs now call (s.finish now claim result status allowRetry).1
      (s.finish now claim result status allowRetry).2 := by
  have hsome : call.finish?.isSome := by rw [hcall]; rfl
  unfold finish
  split
  · exact ⟨hs, .refused call _ hsome⟩
  split
  · exact ⟨hs, .refused call _ hsome⟩
  next r hrow =>
  split
  · next hcurrent =>
      obtain ⟨hactive, hattempt⟩ := claimIsActive_of_current hrow hcurrent
      have hkey : (finishedRecord now claim result status allowRetry).taskId =
          claim.task.taskId := rfl
      refine ⟨hs.store hrow hkey none, ?_⟩
      dsimp only
      rw [InMemoryTasks.table_store s hkey]
      exact .finished call claim status allowRetry (s.stateOf r)
        (fun _ ↦ ⟨finishedRecord now claim result status allowRetry, ""⟩) hcall
        (lookup_of_record hrow)
        { active := hactive, attempt := hattempt.symm, status := rfl, task := rfl }
  · exact ⟨hs, .refused call _ hsome⟩

theorem cancel_performs (taskId reason : String) :
    s.Performs now (.cancel taskId reason) (s.cancel now taskId reason).1
      (s.cancel now taskId reason).2 := by
  unfold cancel
  split
  · exact ⟨hs, .uncancelled ..⟩
  next r hrow =>
  split
  · exact ⟨hs, .uncancelled ..⟩
  · next hlive =>
      have hr : r.taskId = taskId := Rows.key_of_lookup hrow
      have hkey : (unleased now .cancelled none reason r).taskId = taskId := hr
      refine ⟨hs.store hrow hkey none, ?_⟩
      rw [InMemoryTasks.table_store s hkey]
      exact .cancelled taskId reason (s.stateOf r) _ (lookup_of_record hrow)
        ⟨by simpa [stateOf, TaskBackend.durable] using hlive, rfl, rfl, rfl⟩

/-- Each call does to the stored states what `Does` allows. -/
theorem exec_performs (call : TaskCall) :
    s.Performs now call (s.exec now call).1 (s.exec now call).2 := by
  cases call with
  | submit task => exact submit_performs hs now task
  | claim worker leaseSeconds taskTypes namespaces token =>
      exact claim_performs hs now worker leaseSeconds taskTypes namespaces token
  | heartbeatTask claim leaseSeconds => exact heartbeatTask_performs hs now claim leaseSeconds
  | complete claim result =>
      simp only [exec, complete]
      split
      · exact ⟨hs, .refused _ _ rfl⟩
      · exact finish_performs hs now rfl result
  | fail claim result =>
      simp only [exec, fail]
      split
      · exact ⟨hs, .refused _ _ rfl⟩
      · exact finish_performs hs now rfl result
  | recoverExpired =>
      obtain ⟨hwf, htable⟩ := hs.recoverExpiredLocked_spec now
      exact ⟨hwf, htable ▸ .recovered _⟩
  | cancel taskId reason => exact cancel_performs hs now taskId reason
  | get taskId => exact ⟨hs, .read taskId _⟩

end Calls

end Blackbase.Resources.InMemoryTasks

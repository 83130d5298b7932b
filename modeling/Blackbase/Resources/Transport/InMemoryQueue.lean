import Blackbase.Resources.Transport.Queue
import Blackbase.Resources.Transport.Retries

/-!
# The in-memory transport as a task queue

The in-memory transport answers as `TaskQueue.exec` does, on claims it has handed out, as
long as no expired lease is recovered after the last attempt and no live task is
cancelled.
-/

namespace Blackbase.Resources

namespace TaskQueue

/-- Every expired lease has an attempt left. -/
def AttemptsLeft (q : TaskQueue) (now : Time) : Prop :=
  ∀ x ∈ q, x.state.expired now → x.attempt ≤ x.task.maxRetries

/-- The claim is of the lease its task is under, if it presents its token. -/
structure Issued (q : TaskQueue) (now : Time) (claim : ClaimedTask) : Prop where
  token : claim.leaseToken ≠ ""
  holds : ∀ x, q.find claim.task.taskId = some x → x.state.claimIsActive claim now →
    claim.attempt = x.attempt ∧ claim.task = x.task

end TaskQueue

namespace InMemoryTasks

/-- The records look like the queue `q`. -/
structure Shows (s : InMemoryTasks) (q : TaskQueue) : Prop where
  wf : s.Wf
  seen : s.table.map TaskState.seen = q

theorem shows_empty : empty.Shows [] := ⟨wf_empty, rfl⟩

variable {s : InMemoryTasks} {now : Time} {q : TaskQueue} {r r' : TaskRecord} {taskId : String}

theorem Shows.unique (h : s.Shows q) : Rows.Unique SeenTask.taskId q := by
  have hu := h.wf.unique
  rw [Rows.Unique] at hu ⊢
  rw [← h.seen, List.map_map]
  exact hu

theorem Shows.find (h : s.Shows q) (taskId : String) :
    q.find taskId = (s.record taskId).map fun r ↦ (s.stateOf r).seen := by
  rw [← h.seen, find_seen, lookup_table, Option.map_map]
  rfl

/-- Writing the record of a task is rewriting the task. -/
theorem Shows.store (h : s.Shows q) (hr : s.record taskId = some r) (hr' : r'.taskId = taskId)
    {token : Option String} {g : SeenTask → SeenTask}
    (hg : (⟨r', token.getD ""⟩ : TaskState).seen = g (s.stateOf r).seen) :
    (s.store taskId r' token).Shows (q.rewrite taskId g) := by
  refine ⟨h.wf.store hr hr' token, ?_⟩
  rw [InMemoryTasks.table_store s hr', ← h.seen]
  exact rewrite_seen h.wf.unique (lookup_of_record hr) hg

theorem Shows.recover (h : s.Shows q) (hleft : q.AttemptsLeft now) :
    (s.recoverExpiredLocked now).Shows (q.recover now) := by
  obtain ⟨hwf, htable⟩ := h.wf.recoverExpiredLocked_spec now
  refine ⟨hwf, ?_⟩
  rw [htable, ← h.seen]
  refine recover_seen s.table fun r hr ↦ ?_
  unfold TaskBackend.recover TaskState.recover
  by_cases hexp : r.expired now
  · have hretry : r.attempt ≤ r.task.maxRetries :=
      hleft r.seen (h.seen ▸ List.mem_map_of_mem hr) hexp
    simp [hexp, TaskBackend.durable, TaskState.requeued, TaskState.recovered, TaskState.seen,
      TaskRecord.seen, hretry]
  · simp [hexp]

theorem Shows.heldBy (h : s.Shows q) (workerId : String) :
    q.heldBy workerId = s.activeCount workerId := by
  rw [activeCount_eq, ← h.seen, heldBy_seen]

/-- The transport takes exactly the active claims among those it has issued for current. -/
theorem Shows.claimIsCurrent (h : s.Shows q) {claim : ClaimedTask} (hissued : q.Issued now claim)
    (hr : s.record claim.task.taskId = some r) :
    s.claimIsCurrent r claim now = (s.stateOf r).claimIsActive claim now := by
  rw [Bool.eq_iff_iff]
  constructor
  · exact fun hcurrent ↦ (claimIsActive_of_current hr hcurrent).1
  · intro hactive
    have hfind := h.find claim.task.taskId
    rw [hr, Option.map_some] at hfind
    have hattempt : claim.attempt = r.attempt := (hissued.holds _ hfind hactive).1
    obtain ⟨hleased, hworker, htoken, hlive⟩ := TaskState.claimIsActive_iff.mp hactive
    have hkey : r.taskId = claim.task.taskId := Rows.key_of_lookup hr
    have htoken' : s.leaseTokens claim.task.taskId = some claim.leaseToken := by
      rw [stateOf, hkey] at htoken
      cases hkept : s.leaseTokens claim.task.taskId with
      | none => exact absurd (by simpa [hkept] using htoken.symm) hissued.token
      | some token => simpa [hkept] using htoken
    simp only [InMemoryTasks.claimIsCurrent, Bool.and_eq_true, decide_eq_true_eq]
    exact ⟨⟨⟨⟨hleased, hworker⟩, hattempt.symm⟩, htoken'⟩, hlive⟩

variable (h : s.Shows q)

include h

theorem Shows.submit (now : Time) (task : TaskEnvelope) :
    seenReply (s.submit now task).1 = (q.submit now task).1 ∧
      (s.submit now task).2.Shows (q.submit now task).2 := by
  unfold InMemoryTasks.submit TaskQueue.submit
  rw [h.find]
  cases hrow : s.record task.taskId with
  | some existing =>
      dsimp only [Option.map_some]
      have hseen : (s.stateOf existing).seen.task = existing.task := rfl
      rw [hseen]
      split
      · exact ⟨rfl, h⟩
      · exact ⟨rfl, h⟩
  | none =>
      have hwf := (submit_performs h.wf now task).wf
      have hnew : s.stateOf (TaskState.new task now).toTaskRecord = .new task now := by
        have htoken : s.leaseTokens (TaskState.new task now).toTaskRecord.taskId = none :=
          h.wf.tokens task.taskId hrow
        rw [stateOf, htoken]
        rfl
      simp only [InMemoryTasks.submit, hrow] at hwf
      refine ⟨rfl, hwf, ?_⟩
      rw [← h.seen, ← hnew]
      simp [table, stateOf]

theorem Shows.claim (hclean : q.Clean) (hleft : q.AttemptsLeft now) (worker : WorkerDescriptor)
    (leaseSeconds : Time) (taskTypes namespaces : List String) (token : String) :
    seenReply (s.claim now worker leaseSeconds taskTypes namespaces token).1 =
        (q.claim now worker leaseSeconds taskTypes namespaces token).1 ∧
      (s.claim now worker leaseSeconds taskTypes namespaces token).2.Shows
        (q.claim now worker leaseSeconds taskTypes namespaces token).2 := by
  have hswept := h.recover hleft
  have hclean' := hclean.recover now
  simp only [InMemoryTasks.claim, TaskQueue.claim]
  rw [hswept.heldBy]
  split
  · exact ⟨rfl, hswept⟩
  have hfinds : ∀ accepts : TaskEnvelope → Bool,
      ((q.recover now).find? fun x ↦ x.status = .queued && accepts x.task) =
        ((s.recoverExpiredLocked now).records.find? fun r ↦
          r.status = .queued && accepts r.task).map
            fun r ↦ ((s.recoverExpiredLocked now).stateOf r).seen := by
    intro accepts
    rw [← hswept.seen, table, List.map_map, List.find?_map]
    rfl
  rw [hfinds]
  cases hfind : (s.recoverExpiredLocked now).records.find? fun r ↦ r.status = .queued &&
      (worker.heartbeat "online").accepts taskTypes namespaces
        ((s.recoverExpiredLocked now).activeCount (worker.heartbeat "online").workerId)
        r.task with
  | none => exact ⟨rfl, hswept⟩
  | some r =>
      have hmem := List.mem_of_find?_eq_some hfind
      have hrow : (s.recoverExpiredLocked now).record r.taskId = some r :=
        Rows.lookup_of_mem hswept.wf.records hmem
      have hqueued : r.status = .queued := by
        have h := List.find?_some hfind
        simp only [Bool.and_eq_true, decide_eq_true_eq] at h
        exact h.1
      -- A queued task has no result yet, so the fresh record loses none.
      have hresult : r.result = none := by
        refine hclean' ((s.recoverExpiredLocked now).stateOf r).seen ?_ ?_
        · rw [← hswept.seen]
          exact List.mem_map_of_mem (List.mem_map_of_mem hmem)
        · show r.status.final = false
          rw [hqueued]
          rfl
      have hkey : (leasedRecord now r.task (r.attempt + 1) (worker.heartbeat "online").workerId
          (now + leaseDuration leaseSeconds)).taskId = r.taskId := rfl
      refine ⟨rfl, hswept.store hrow hkey ?_⟩
      simp [SeenTask.leased, TaskState.seen, TaskRecord.seen, leasedRecord, stateOf, hresult]

theorem Shows.heartbeatTask (hclean : q.Clean) {claim : ClaimedTask}
    (hissued : q.Issued now claim) (leaseSeconds : Time) :
    seenReply (s.heartbeatTask now claim leaseSeconds).1 =
        (q.heartbeatTask now claim leaseSeconds).1 ∧
      (s.heartbeatTask now claim leaseSeconds).2.Shows
        (q.heartbeatTask now claim leaseSeconds).2 := by
  unfold InMemoryTasks.heartbeatTask TaskQueue.heartbeatTask
  have hfind := h.find claim.task.taskId
  cases hr : s.record claim.task.taskId with
  | none =>
      rw [hfind, hr]
      exact ⟨rfl, h⟩
  | some r =>
      rw [hr, Option.map_some] at hfind
      rw [hfind]
      dsimp only
      rw [claimIsActive_seen, h.claimIsCurrent hissued hr]
      split
      · next hactive =>
          have hleased := (TaskState.claimIsActive_iff.mp hactive).1
          have hkey : r.taskId = claim.task.taskId := Rows.key_of_lookup hr
          have hkey' : (leasedRecord now r.task r.attempt r.workerId
              (now + leaseDuration leaseSeconds)).taskId = claim.task.taskId := hkey
          have hresult : r.result = none := by
            refine hclean _ (Rows.mem_of_lookup hfind) ?_
            show (s.stateOf r).status.final = false
            rw [hleased]
            rfl
          have hstatus : r.status = .leased := hleased
          refine ⟨rfl, h.store hr hkey' ?_⟩
          simp [SeenTask.lift, SeenTask.state, TaskState.extended, TaskState.seen,
            TaskRecord.seen, leasedRecord, stateOf, hresult, hkey, hstatus]
      · exact ⟨rfl, h⟩

theorem Shows.finish {claim : ClaimedTask} (hissued : q.Issued now claim) {result : TaskResult}
    (hresult : result.taskId = claim.task.taskId) (status : TaskStatus) (allowRetry : Bool) :
    seenReply (s.finish now claim result status allowRetry).1 =
        (q.finish now claim result status allowRetry).1 ∧
      (s.finish now claim result status allowRetry).2.Shows
        (q.finish now claim result status allowRetry).2 := by
  unfold InMemoryTasks.finish TaskQueue.finish
  rw [if_neg (not_not.mpr hresult)]
  have hfind := h.find claim.task.taskId
  cases hr : s.record claim.task.taskId with
  | none =>
      rw [hfind, hr]
      exact ⟨rfl, h⟩
  | some r =>
      rw [hr, Option.map_some] at hfind
      rw [hfind]
      dsimp only
      rw [claimIsActive_seen, h.claimIsCurrent hissued hr]
      split
      · next hactive =>
          obtain ⟨hattempt, htask⟩ := hissued.holds _ hfind hactive
          have hattempt' : claim.attempt = r.attempt := hattempt
          have htask' : claim.task = r.task := htask
          have hseen : (⟨finishedRecord now claim result status allowRetry, ""⟩ : TaskState).seen =
              (s.stateOf r).seen.lift (.finished now claim result status allowRetry) := by
            simp [SeenTask.lift, SeenTask.state, TaskState.finished, TaskState.seen,
              TaskRecord.seen, finishedRecord, stateOf, hattempt', htask']
          refine ⟨?_, h.store hr rfl hseen⟩
          rw [← hseen]
          rfl
      · exact ⟨rfl, h⟩

theorem Shows.cancel (now : Time) {taskId : String}
    (hfinal : ∀ x, q.find taskId = some x → x.status.final) (reason : String) :
    seenReply (s.cancel now taskId reason).1 = (q.cancel now taskId reason).1 ∧
      (s.cancel now taskId reason).2.Shows (q.cancel now taskId reason).2 := by
  unfold InMemoryTasks.cancel TaskQueue.cancel
  have hfind := h.find taskId
  cases hr : s.record taskId with
  | none =>
      rw [hfind, hr]
      exact ⟨rfl, h⟩
  | some r =>
      rw [hr, Option.map_some] at hfind
      have hstatus : r.status.final := hfinal _ hfind
      have hnot : ¬ (s.stateOf r).seen.status = .queued := fun hq ↦ by
        have hq' : r.status = .queued := hq
        rw [hq'] at hstatus
        cases hstatus
      rw [hfind]
      dsimp only
      rw [if_pos hstatus, if_neg hnot]
      exact ⟨rfl, h⟩

theorem Shows.expired (now : Time) : q.countP (fun x ↦ x.state.expired now) =
    (s.records.filter (expired now)).length := by
  rw [← h.seen, table, List.map_map, List.countP_map, List.countP_eq_length_filter]
  rfl

/-- Such a call answers as the queue does. -/
theorem Shows.exec (hclean : q.Clean) {call : TaskCall}
    (hleft : call.recovers → q.AttemptsLeft now)
    (hissued : ∀ claim ∈ call.presents, q.Issued now claim)
    (hfinal : ∀ taskId reason, call = .cancel taskId reason →
      ∀ x, q.find taskId = some x → x.status.final) :
    seenReply (s.exec now call).1 = (q.exec now call).1 ∧
      (s.exec now call).2.Shows (q.exec now call).2 := by
  cases call with
  | submit task => exact h.submit now task
  | claim worker leaseSeconds taskTypes namespaces token =>
      exact h.claim hclean (hleft rfl) worker leaseSeconds taskTypes namespaces token
  | heartbeatTask claim leaseSeconds =>
      exact h.heartbeatTask hclean (hissued claim rfl) leaseSeconds
  | complete claim result =>
      simp only [InMemoryTasks.exec, InMemoryTasks.complete, TaskQueue.exec]
      cases hok : result.ok with
      | false => simpa [seenReply] using h
      | true =>
          by_cases hid : result.taskId = claim.task.taskId
          · simpa [hid] using h.finish (hissued claim rfl) hid .succeeded false
          · simpa [hid, InMemoryTasks.finish, seenReply] using h
  | fail claim result =>
      simp only [InMemoryTasks.exec, InMemoryTasks.fail, TaskQueue.exec]
      cases hok : result.ok with
      | true => simpa [seenReply] using h
      | false =>
          by_cases hid : result.taskId = claim.task.taskId
          · simpa [hid] using h.finish (hissued claim rfl) hid .failed true
          · simpa [hid, InMemoryTasks.finish, seenReply] using h
  | recoverExpired =>
      refine ⟨?_, h.recover (hleft rfl)⟩
      simp only [InMemoryTasks.exec, InMemoryTasks.recoverExpired, seenReply, TaskQueue.exec]
      rw [h.expired]
  | cancel taskId reason => exact h.cancel now (hfinal taskId reason rfl) reason
  | get taskId =>
      refine ⟨?_, h⟩
      simp only [InMemoryTasks.exec, InMemoryTasks.get, seenReply, TaskQueue.exec, h.find,
        Option.map_map]
      rfl

end InMemoryTasks

end Blackbase.Resources

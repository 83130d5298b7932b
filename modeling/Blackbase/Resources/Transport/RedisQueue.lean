import Blackbase.Resources.Transport.Queue
import Blackbase.Resources.Transport.RedisTable

/-!
# The Redis transport as a task queue

The list `queue` holds the queued tasks in the order in which they were queued.  As long as
a task is never queued again behind one submitted after it, this is the order of
submission, and the Redis transport answers as `TaskQueue.exec` does; a refused `complete`
or `fail` is harmless to the other tasks if it finds no expired lease to recover.
-/

namespace Blackbase.Resources

/-- The claim of a `complete` or `fail` whose result is of the kind the call is for. -/
def TaskCall.finishes : TaskCall → Option ClaimedTask
  | .complete c result => if result.taskId = c.task.taskId ∧ result.ok then some c else none
  | .fail c result => if result.taskId = c.task.taskId ∧ result.ok = false then some c else none
  | _ => none

namespace TaskQueue

/-- The claim is of the lease its task is under. -/
def Active (q : TaskQueue) (now : Time) (claim : ClaimedTask) : Prop :=
  ∃ x ∈ q.find claim.task.taskId, x.state.claimIsActive claim now

instance (q : TaskQueue) (now : Time) (claim : ClaimedTask) : Decidable (q.Active now claim) :=
  inferInstanceAs (Decidable (∃ x ∈ q.find claim.task.taskId, _))

/-- The task of this id is queued again by a recovery. -/
def recovers (q : TaskQueue) (now : Time) (taskId : String) : Bool :=
  (q.find taskId).any fun x ↦ x.state.expired now && decide (x.attempt ≤ x.task.maxRetries)

/-- The tasks a call queues again; `order` lists the leased ones. -/
def requeues (q : TaskQueue) (now : Time) (order : List String) : TaskCall → List String
  | .recoverExpired | .claim .. => order.filter (q.recovers now)
  | .fail claim result =>
      if (TaskCall.fail claim result).finishes.isSome ∧ q.Active now claim ∧
          claim.attempt ≤ claim.task.maxRetries then [claim.task.taskId] else []
  | _ => []

/-- The ids of the queued tasks. -/
def queuedIds (q : TaskQueue) : List String :=
  (q.filter fun x ↦ x.status = .queued).map SeenTask.taskId

/-- These ids can be queued behind the queued tasks without leaving the order of
submission. -/
def InOrder (q : TaskQueue) (ids : List String) : Prop :=
  (q.queuedIds ++ ids).Sublist (q.map SeenTask.taskId)

instance (q : TaskQueue) (ids : List String) : Decidable (q.InOrder ids) :=
  inferInstanceAs (Decidable (List.Sublist _ _))

/-- No lease has expired. -/
def NoneExpired (q : TaskQueue) (now : Time) : Prop := ∀ x ∈ q, ¬ x.state.expired now

variable {q : TaskQueue} {now : Time}

theorem inOrder_nil (q : TaskQueue) : q.InOrder [] := by
  rw [InOrder, List.append_nil]
  exact List.filter_sublist.map _

theorem NoneExpired.recover (h : q.NoneExpired now) : q.recover now = q := by
  refine (List.map_congr_left fun x hx ↦ ?_).trans (List.map_id q)
  unfold SeenTask.lift TaskState.recover
  rw [if_neg (h x hx)]
  rfl

theorem NoneExpired.recovers (h : q.NoneExpired now) (taskId : String) :
    q.recovers now taskId = false := by
  unfold TaskQueue.recovers
  cases hfind : q.find taskId with
  | none => rfl
  | some x => simp [h x (Rows.mem_of_lookup hfind)]

theorem map_taskId_recover (q : TaskQueue) (now : Time) :
    (q.recover now).map SeenTask.taskId = q.map SeenTask.taskId := by
  refine Rows.map_key_map (fun x ↦ ?_) q
  unfold SeenTask.lift TaskState.recover
  split <;> rfl

theorem map_taskId_rewrite (q : TaskQueue) (taskId : String) {f : SeenTask → SeenTask}
    (hf : ∀ x, (f x).taskId = x.taskId) :
    (q.rewrite taskId f).map SeenTask.taskId = q.map SeenTask.taskId :=
  Rows.map_key_update (fun x hx ↦ (hf x).trans hx) q

end TaskQueue

/-- A part of a list without repetitions is what it keeps of the list. -/
theorem filter_mem_eq {α : Type*} [DecidableEq α] {l part : List α} (hl : l.Nodup)
    (h : part.Sublist l) : l.filter (· ∈ part) = part := by
  have hsub : part.Sublist (l.filter (· ∈ part)) := by
    have := h.filter fun a ↦ decide (a ∈ part)
    rwa [List.filter_eq_self.mpr (by simp)] at this
  refine (hsub.eq_of_length_le ?_).symm
  refine (List.Nodup.filter _ hl).length_le_of_subset fun a ha ↦ ?_
  simpa using (List.mem_filter.mp ha).2

namespace RedisTasks

/-- The records look like the queue `q`, and the list `queue` is in the order of
submission. -/
structure Shows (s : RedisTasks) (q : TaskQueue) : Prop where
  wf : s.Wf
  seen : s.table.map TaskState.seen = q
  ordered : s.queue.Sublist (q.map SeenTask.taskId)

theorem shows_empty : empty.Shows [] := ⟨wf_empty, rfl, List.Sublist.refl _⟩

variable {s : RedisTasks} {now : Time} {q : TaskQueue} {r r' : TaskState} {taskId : String}
  {order : List String}

theorem Shows.unique (h : s.Shows q) : Rows.Unique SeenTask.taskId q := by
  have hu := h.wf.unique
  rw [Rows.Unique] at hu ⊢
  rw [← h.seen, List.map_map]
  exact hu

theorem Shows.find (h : s.Shows q) (taskId : String) :
    q.find taskId = (s.tasks.get taskId).map TaskState.seen := by
  rw [← h.seen, find_seen, h.wf.lookup_table]

/-- The list `queue` is that of the queued tasks. -/
theorem Shows.queue_eq (h : s.Shows q) : s.queue = q.queuedIds := by
  have hmem : ∀ id, id ∈ s.queue ↔ id ∈ q.queuedIds := by
    intro id
    rw [h.wf.queue_iff, TaskQueue.queuedIds, List.mem_map]
    constructor
    · rintro ⟨r, hr, hqueued⟩
      have hkey : r.taskId = id := h.wf.tasks.keyed id r hr
      have hqueued' : r.seen.status = .queued := hqueued
      refine ⟨r.seen, List.mem_filter.mpr ⟨?_, by simpa using hqueued'⟩, hkey⟩
      rw [← h.seen]
      exact List.mem_map_of_mem (h.wf.tasks.mem_listed.mpr (hkey ▸ hr))
    · rintro ⟨x, hx, rfl⟩
      obtain ⟨hx, hqueued⟩ := List.mem_filter.mp hx
      rw [← h.seen] at hx
      obtain ⟨r, hr, rfl⟩ := List.mem_map.mp hx
      have hqueued' : r.status = .queued := of_decide_eq_true hqueued
      exact ⟨r, h.wf.mem_table hr, hqueued'⟩
  have hsub : q.queuedIds.Sublist (q.map SeenTask.taskId) := List.filter_sublist.map _
  rw [← filter_mem_eq h.unique h.ordered, ← filter_mem_eq h.unique hsub]
  exact List.filter_congr fun id _ ↦ by simpa using hmem id

/-- Writing the key of a task is rewriting the task. -/
theorem Shows.set (h : s.Shows q) (hr : s.tasks.get taskId = some r) {queue leased : List String}
    (hwf : Wf ⟨s.tasks.set taskId r', queue, leased⟩) {g : SeenTask → SeenTask}
    (hg : r'.seen = g r.seen) (hkey : ∀ x, (g x).taskId = x.taskId)
    (hqueue : queue.Sublist (q.map SeenTask.taskId)) :
    Shows ⟨s.tasks.set taskId r', queue, leased⟩ (q.rewrite taskId g) := by
  refine ⟨hwf, ?_, ?_⟩
  · have hlookup := h.wf.lookup_table taskId
    rw [hr] at hlookup
    rw [h.wf.table_set (fun _ ↦ r') hr, ← h.seen]
    exact rewrite_seen h.wf.unique hlookup hg
  · rw [TaskQueue.map_taskId_rewrite _ _ hkey]
    exact hqueue

theorem Shows.heldBy (h : s.Shows q) (workerId : String) :
    q.heldBy workerId = s.activeCount workerId := by
  rw [h.wf.activeCount_eq, ← h.seen, heldBy_seen]

/-! ## The recovery -/

/-- The recovery queues the tasks with attempts left in the order in which it visits
them. -/
theorem queue_recover (s : RedisTasks) (now : Time) (hnodup : order.Nodup) :
    (s.recoverExpiredLocked now order).queue = s.queue ++ order.filter fun id ↦
      (s.tasks.get id).any fun r ↦ r.expired now && decide (r.attempt ≤ r.task.maxRetries) := by
  unfold recoverExpiredLocked
  induction order generalizing s with
  | nil => simp
  | cons id order ih =>
      obtain ⟨hnot, hnodup⟩ := List.nodup_cons.mp hnodup
      rw [List.foldl_cons, ih _ hnodup]
      -- The visit of `id` changes the key of `id` alone.
      have hget : ∀ id' ∈ order, (recoverOne now s id).tasks.get id' = s.tasks.get id' := by
        intro id' hid'
        have hne : id' ≠ id := fun he ↦ hnot (he ▸ hid')
        unfold recoverOne
        split
        · rfl
        · split
          · rfl
          · split
            · rfl
            · exact s.tasks.set_get_ne _ hne
      rw [List.filter_congr fun id' hid' ↦ by rw [hget id' hid']]
      have hself : (recoverOne now s id).queue = s.queue ++ if (s.tasks.get id).any fun r ↦
          r.expired now && decide (r.attempt ≤ r.task.maxRetries) then [id] else [] := by
        unfold recoverOne
        cases hr : s.tasks.get id with
        | none => simp
        | some r =>
            by_cases hleased : r.status = .leased
            · by_cases hlive : now < r.leaseExpiresAt
              · simp [hleased, hlive, TaskState.expired]
              · by_cases hretry : r.attempt ≤ r.task.maxRetries
                · simp [hleased, hlive, hretry, TaskState.expired, not_lt.mp hlive]
                · simp [hleased, hlive, hretry, TaskState.expired]
            · simp [hleased, TaskState.expired]
      rw [hself, List.filter_cons, List.append_assoc]
      split <;> simp

theorem Shows.recovers (h : s.Shows q) (now : Time) (id : String) :
    q.recovers now id = (s.tasks.get id).any fun r ↦
      r.expired now && decide (r.attempt ≤ r.task.maxRetries) := by
  rw [TaskQueue.recovers, h.find, Option.any_map]
  rfl

theorem Shows.recover (h : s.Shows q) (now : Time) (horder : order.Perm s.leased)
    (hin : q.InOrder (order.filter (q.recovers now))) :
    (s.recoverExpiredLocked now order).Shows (q.recover now) := by
  obtain ⟨hwf, htable⟩ := h.wf.recoverExpiredLocked_spec now horder
  refine ⟨hwf, ?_, ?_⟩
  · rw [htable, ← h.seen]
    exact recover_seen s.table fun _ _ ↦ rfl
  · rw [queue_recover s now (horder.nodup_iff.mpr h.wf.leased_nodup), TaskQueue.map_taskId_recover,
      h.queue_eq, List.filter_congr fun id _ ↦ (h.recovers now id).symm]
    exact hin

/-- A recovery that finds no expired lease changes nothing. -/
theorem Shows.recover_none (h : s.Shows q) (horder : order.Perm s.leased)
    (hnone : q.NoneExpired now) : (s.recoverExpiredLocked now order).Shows q := by
  have hrecover := h.recover now horder (by
    rw [List.filter_eq_nil_iff.mpr fun id _ ↦ by simp [hnone.recovers id]]
    exact q.inOrder_nil)
  rwa [hnone.recover] at hrecover

theorem Shows.expired (h : s.Shows q) (horder : order.Perm s.leased) (now : Time) :
    q.countP (fun x ↦ x.state.expired now) =
      (order.filter fun id ↦ (s.tasks.get id).any (·.expired now)).length := by
  have hlength := ((horder.trans h.wf.leased_perm).filter
    fun id ↦ (s.tasks.get id).any (·.expired now)).length_eq
  have hexpired : ∀ r ∈ s.table.filter fun r ↦ r.status = .leased,
      (s.tasks.get r.taskId).any (·.expired now) = r.expired now := by
    intro r hr
    rw [h.wf.mem_table (List.mem_of_mem_filter hr), Option.any_some]
  rw [hlength, List.filter_map, List.length_map, ← h.seen, List.countP_map,
    List.countP_eq_length_filter]
  refine congrArg List.length ?_
  calc _ = s.table.filter fun r ↦ r.expired now := rfl
    _ = (s.table.filter fun r ↦ r.status = .leased).filter fun r ↦ r.expired now := by
        rw [List.filter_filter]
        refine List.filter_congr fun r _ ↦ ?_
        cases hexp : r.expired now with
        | false => rfl
        | true => simp [(TaskState.expired_iff.mp hexp).1]
    _ = _ := (List.filter_congr hexpired).symm

/-! ## The calls -/

/-- The scan of a list of queued tasks finds the first one the worker accepts. -/
theorem scanQueue_eq {accepts : TaskEnvelope → Bool} {l : List TaskState}
    (hl : ∀ r ∈ l, s.tasks.get r.taskId = some r ∧ r.status = .queued) :
    s.scanQueue accepts (l.map TaskState.taskId) =
      ([], (l.find? fun r ↦ accepts r.task).map fun r ↦ (r.taskId, r)) := by
  induction l with
  | nil => rfl
  | cons r l ih =>
      obtain ⟨hget, hqueued⟩ := hl r List.mem_cons_self
      rw [List.map_cons, scanQueue, hget]
      simp only [hqueued, ne_eq, not_true_eq_false, if_false]
      by_cases haccepts : accepts r.task
      · simp [haccepts]
      · simp [haccepts, ih fun x hx ↦ hl x (List.mem_cons_of_mem _ hx)]

/-- The scan of the queue, as it is seen. -/
theorem Shows.scanQueue (h : s.Shows q) (accepts : TaskEnvelope → Bool) :
    ∃ found, s.scanQueue accepts s.queue = ([], found) ∧
      (q.find? fun x ↦ x.status = .queued && accepts x.task) = found.map (fun p ↦ p.2.seen) ∧
      ∀ taskId r, found = some (taskId, r) →
        s.tasks.get taskId = some r ∧ r.status = .queued := by
  have hqueue : s.queue = (s.table.filter fun r ↦ r.status = .queued).map TaskState.taskId := by
    rw [h.queue_eq, TaskQueue.queuedIds, ← h.seen, List.filter_map, List.map_map]
    rfl
  have hqueued : ∀ r ∈ s.table.filter fun r ↦ r.status = .queued,
      s.tasks.get r.taskId = some r ∧ r.status = .queued := by
    intro r hr
    obtain ⟨hr, hqueued⟩ := List.mem_filter.mp hr
    exact ⟨h.wf.mem_table hr, of_decide_eq_true hqueued⟩
  have hscan := h.wf.scanQueue_spec accepts fun _ h ↦ h
  rw [hqueue, scanQueue_eq hqueued] at hscan ⊢
  refine ⟨_, rfl, ?_, hscan.2⟩
  · rw [Option.map_map, ← h.seen, List.find?_map, List.find?_filter]
    simp only [Bool.decide_and, Bool.decide_eq_true]
    rfl

variable (h : s.Shows q)

include h

theorem Shows.submit (now : Time) (task : TaskEnvelope) :
    seenReply (s.submit now task).1 = (q.submit now task).1 ∧
      (s.submit now task).2.Shows (q.submit now task).2 := by
  have hwf := (submit_performs h.wf now task).wf
  unfold RedisTasks.submit at hwf ⊢
  unfold TaskQueue.submit
  rw [h.find]
  cases hget : s.tasks.get task.taskId with
  | some existing =>
      dsimp only [Option.map_some]
      have hseen : existing.seen.task = existing.task := rfl
      rw [hseen]
      split
      · exact ⟨rfl, h⟩
      · exact ⟨rfl, h⟩
  | none =>
      simp only [hget] at hwf
      have htable : ((s.tasks.set task.taskId (.new task now)).add task.taskId).listed =
          s.table ++ [.new task now] :=
        h.wf.tasks.listed_insert (r := TaskState.new task now) hget
      refine ⟨rfl, hwf, ?_, ?_⟩
      · show List.map TaskState.seen ((s.tasks.set _ _).add _).listed = _
        rw [htable, List.map_append, h.seen]
        rfl
      · show (s.queue ++ [task.taskId]).Sublist
          (List.map SeenTask.taskId (q ++ [(TaskState.new task now).seen]))
        rw [List.map_append]
        exact h.ordered.append (List.Sublist.refl _)

theorem Shows.claim (hclean : q.Clean) (horder : order.Perm s.leased)
    (hin : q.InOrder (order.filter (q.recovers now))) (worker : WorkerDescriptor)
    (leaseSeconds : Time) (taskTypes namespaces : List String) (token : String) :
    seenReply (s.claim now order worker leaseSeconds taskTypes namespaces token).1 =
        (q.claim now worker leaseSeconds taskTypes namespaces token).1 ∧
      (s.claim now order worker leaseSeconds taskTypes namespaces token).2.Shows
        (q.claim now worker leaseSeconds taskTypes namespaces token).2 := by
  have hswept := h.recover now horder hin
  have hclean' := hclean.recover now
  have hwf := (claim_performs h.wf now horder worker leaseSeconds taskTypes namespaces token).wf
  simp only [RedisTasks.claim, TaskQueue.claim] at hwf ⊢
  rw [hswept.heldBy]
  split
  · exact ⟨rfl, hswept⟩
  next hfree =>
  simp only [if_neg hfree] at hwf
  obtain ⟨found, hscan, hfind, hfound⟩ := hswept.scanQueue fun task ↦
    (worker.heartbeat "online").accepts taskTypes namespaces
      ((s.recoverExpiredLocked now order).activeCount (worker.heartbeat "online").workerId) task
  simp only [hscan, List.foldl_nil] at hwf ⊢
  rw [hfind]
  cases found with
  | none => exact ⟨rfl, hswept⟩
  | some p =>
      obtain ⟨taskId, r⟩ := p
      obtain ⟨hget, hqueued⟩ := hfound taskId r rfl
      obtain rfl : r.taskId = taskId := hswept.wf.tasks.keyed taskId r hget
      have hresult : r.result = none := by
        refine hclean' r.seen (List.mem_of_find?_eq_some hfind) ?_
        show r.status.final = false
        rw [hqueued]
        rfl
      refine ⟨rfl, hswept.set hget hwf ?_ (fun _ ↦ rfl)
        (List.erase_sublist.trans hswept.ordered)⟩
      simp [SeenTask.leased, TaskState.seen, TaskRecord.seen, leasedState, hresult]

theorem Shows.heartbeatTask (now : Time) (claim : ClaimedTask) (leaseSeconds : Time) :
    seenReply (s.heartbeatTask now claim leaseSeconds).1 =
        (q.heartbeatTask now claim leaseSeconds).1 ∧
      (s.heartbeatTask now claim leaseSeconds).2.Shows
        (q.heartbeatTask now claim leaseSeconds).2 := by
  have hwf := (heartbeatTask_performs h.wf now claim leaseSeconds).wf
  unfold RedisTasks.heartbeatTask at hwf ⊢
  unfold TaskQueue.heartbeatTask
  rw [h.find]
  cases hget : s.tasks.get claim.task.taskId with
  | none => exact ⟨rfl, h⟩
  | some r =>
      simp only [hget] at hwf
      dsimp only [Option.map_some]
      rw [claimIsActive_seen]
      split
      · next hactive =>
          rw [if_pos hactive] at hwf
          exact ⟨rfl, h.set hget hwf (visible_extended now leaseSeconds r) (fun _ ↦ rfl) h.ordered⟩
      · exact ⟨rfl, h⟩

theorem Shows.finish (horder : order.Perm s.leased) (call : TaskCall) {claim : ClaimedTask}
    {status : TaskStatus} {allowRetry : Bool}
    (hcall : call.finish? = some (claim, status, allowRetry)) (result : TaskResult)
    (hrefused : q.Active now claim ∨ q.NoneExpired now)
    (hin : q.Active now claim → allowRetry → claim.attempt ≤ claim.task.maxRetries →
      q.InOrder [claim.task.taskId]) :
    seenReply (s.finishClaim now order claim result status allowRetry).1 =
        (q.finish now claim result status allowRetry).1 ∧
      (s.finishClaim now order claim result status allowRetry).2.Shows
        (q.finish now claim result status allowRetry).2 := by
  have hwf := (finishClaim_performs h.wf now horder hcall
    (TaskCall.finish?_final hcall) result).wf
  unfold RedisTasks.finishClaim at hwf ⊢
  unfold TaskQueue.finish
  have hfind := h.find claim.task.taskId
  rw [hfind]
  cases hget : s.tasks.get claim.task.taskId with
  | none =>
      have hnone : q.NoneExpired now := hrefused.resolve_left fun ⟨x, hx, _⟩ ↦ by
        rw [hfind, hget] at hx
        cases hx
      exact ⟨rfl, h.recover_none horder hnone⟩
  | some r =>
      rw [hget, Option.map_some] at hfind
      simp only [hget] at hwf
      dsimp only [Option.map_some]
      rw [claimIsActive_seen]
      split
      · next hactive =>
          rw [if_pos hactive] at hwf
          refine ⟨rfl, h.set hget hwf (visible_finished now claim result status allowRetry r)
            (fun _ ↦ rfl) ?_⟩
          split
          · next hretry =>
              obtain ⟨hallow, hattempt⟩ := Bool.and_eq_true_iff.mp hretry
              rw [h.queue_eq]
              exact hin ⟨_, hfind, hactive⟩ hallow (of_decide_eq_true hattempt)
          · exact h.ordered
      · next hactive =>
          have hnone : q.NoneExpired now := hrefused.resolve_left fun ⟨x, hx, hx'⟩ ↦ by
            obtain rfl := Option.some.inj (hfind.symm.trans hx)
            exact hactive hx'
          exact ⟨rfl, h.recover_none horder hnone⟩

theorem Shows.cancel (now : Time) (taskId reason : String) :
    seenReply (s.cancel now taskId reason).1 = (q.cancel now taskId reason).1 ∧
      (s.cancel now taskId reason).2.Shows (q.cancel now taskId reason).2 := by
  have hwf := (cancel_performs h.wf now taskId reason).wf
  unfold RedisTasks.cancel at hwf ⊢
  unfold TaskQueue.cancel
  rw [h.find]
  cases hget : s.tasks.get taskId with
  | none => exact ⟨rfl, h⟩
  | some r =>
      simp only [hget] at hwf
      dsimp only [Option.map_some]
      have hseen : r.seen.status = r.status := rfl
      rw [hseen]
      split
      · next hqueued =>
          rw [if_pos hqueued] at hwf
          exact ⟨rfl, h.set hget hwf (visible_cancelled now reason r) (fun _ ↦ rfl)
            (List.filter_sublist.trans h.ordered)⟩
      · exact ⟨rfl, h⟩

/-- Such a call answers as the queue does. -/
theorem Shows.exec (hclean : q.Clean) (horder : order.Perm s.leased) {call : TaskCall}
    (hin : q.InOrder (q.requeues now order call))
    (hrefused : ∀ claim ∈ call.finishes, q.Active now claim ∨ q.NoneExpired now) :
    seenReply (s.exec now order call).1 = (q.exec now call).1 ∧
      (s.exec now order call).2.Shows (q.exec now call).2 := by
  cases call with
  | submit task => exact h.submit now task
  | claim worker leaseSeconds taskTypes namespaces token =>
      exact h.claim hclean horder hin worker leaseSeconds taskTypes namespaces token
  | heartbeatTask claim leaseSeconds => exact h.heartbeatTask now claim leaseSeconds
  | complete claim result =>
      simp only [RedisTasks.exec, RedisTasks.complete, TaskQueue.exec]
      by_cases hkind : result.taskId = claim.task.taskId ∧ result.ok
      · have hrefused' := hrefused claim (if_pos hkind)
        simpa [hkind.1, hkind.2] using h.finish horder (.complete claim result) rfl result
          hrefused' (fun _ h ↦ by cases h)
      · by_cases hid : result.taskId = claim.task.taskId
        · have hok : result.ok = false := by simpa [hid] using hkind
          simpa [hid, hok, seenReply] using h
        · simpa [hid, seenReply] using h
  | fail claim result =>
      simp only [RedisTasks.exec, RedisTasks.fail, TaskQueue.exec]
      by_cases hkind : result.taskId = claim.task.taskId ∧ result.ok = false
      · have hfinishes : (TaskCall.fail claim result).finishes = some claim := if_pos hkind
        have hrefused' := hrefused claim hfinishes
        simpa [hkind.1, hkind.2] using h.finish horder (.fail claim result) rfl result
          hrefused' (fun hactive _ hattempt ↦ by
            have hsome : (TaskCall.fail claim result).finishes.isSome := by rw [hfinishes]; rfl
            rwa [TaskQueue.requeues, if_pos ⟨hsome, hactive, hattempt⟩] at hin)
      · by_cases hid : result.taskId = claim.task.taskId
        · have hok : result.ok = true := by simpa [hid] using hkind
          simpa [hid, hok, seenReply] using h
        · simpa [hid, seenReply] using h
  | recoverExpired =>
      refine ⟨?_, h.recover _ horder hin⟩
      simp only [RedisTasks.exec, RedisTasks.recoverExpired, seenReply, TaskQueue.exec]
      rw [h.expired horder]
  | cancel taskId reason => exact h.cancel now taskId reason
  | get taskId =>
      refine ⟨?_, h⟩
      simp only [RedisTasks.exec, RedisTasks.get, seenReply, TaskQueue.exec, h.find,
        Option.map_map]
      rfl

end RedisTasks

end Blackbase.Resources

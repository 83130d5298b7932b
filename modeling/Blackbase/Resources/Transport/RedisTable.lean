import Blackbase.Resources.Transport.Redis
import Blackbase.Resources.Transport.Table

/-!
# The Redis tasks as a table

`RedisTasks.Wf` says that the index keys are in step with the records: the queue lists
the queued tasks, each once, and the leased set is the set of leased tasks.  On such keys
`RedisTasks.exec_performs` shows that each call keeps the index in step and does to the
stored states what `Does` allows.
-/

namespace Blackbase.Resources.RedisTasks

/-- The stored states. -/
def table (s : RedisTasks) : TaskTable := s.tasks.listed

/-- A task with the given status is stored under the id. -/
def StoredAs (s : RedisTasks) (status : TaskStatus) (taskId : String) : Prop :=
  ∃ r, s.tasks.get taskId = some r ∧ r.status = status

/-- The index keys are in step with the records. -/
structure Wf (s : RedisTasks) : Prop where
  tasks : s.tasks.Wf TaskState.taskId
  queue_nodup : s.queue.Nodup
  queue_iff : ∀ taskId, taskId ∈ s.queue ↔ s.StoredAs .queued taskId
  leased_nodup : s.leased.Nodup
  leased_iff : ∀ taskId, taskId ∈ s.leased ↔ s.StoredAs .leased taskId

theorem wf_empty : empty.Wf := by
  refine ⟨Keyspace.wf_empty, List.nodup_nil, ?_, List.nodup_nil, ?_⟩ <;>
    simp [empty, StoredAs, Keyspace.empty]

variable {s : RedisTasks}

theorem storedAs_iff {taskId : String} {r : TaskState} (h : s.tasks.get taskId = some r)
    (status : TaskStatus) : s.StoredAs status taskId ↔ r.status = status := by
  constructor
  · rintro ⟨r', hr', hstatus⟩
    obtain rfl := Option.some.inj (h.symm.trans hr')
    exact hstatus
  · exact fun hstatus ↦ ⟨r, h, hstatus⟩

theorem Wf.unique (hs : s.Wf) : Rows.Unique TaskState.taskId s.table := hs.tasks.unique

theorem Wf.mem_table (hs : s.Wf) {r : TaskState} (h : r ∈ s.table) :
    s.tasks.get r.taskId = some r := hs.tasks.mem_listed.mp h

theorem Wf.lookup_table (hs : s.Wf) (taskId : String) :
    Rows.lookup TaskState.taskId taskId s.table = s.tasks.get taskId :=
  (hs.tasks.get_eq taskId).symm

/-- Rewriting one task keeps the index in step if the queue and the leased set are
rewritten for that task alone. -/
theorem Wf.move (hs : s.Wf) {taskId : String} {r r' : TaskState} {queue leased : List String}
    (hr : s.tasks.get taskId = some r) (htask : r'.task = r.task)
    (hqueue : queue.Nodup) (hqueue_ne : ∀ id, id ≠ taskId → (id ∈ queue ↔ id ∈ s.queue))
    (hqueue_self : taskId ∈ queue ↔ r'.status = .queued)
    (hleased : leased.Nodup) (hleased_ne : ∀ id, id ≠ taskId → (id ∈ leased ↔ id ∈ s.leased))
    (hleased_self : taskId ∈ leased ↔ r'.status = .leased) :
    Wf ⟨s.tasks.set taskId r', queue, leased⟩ := by
  have hkey : r'.taskId = taskId := by
    rw [TaskState.taskId, htask]
    exact hs.tasks.keyed taskId r hr
  have hself : (⟨s.tasks.set taskId r', queue, leased⟩ : RedisTasks).tasks.get taskId = some r' :=
    s.tasks.set_get_self taskId r'
  have hne : ∀ {id status}, id ≠ taskId →
      ((⟨s.tasks.set taskId r', queue, leased⟩ : RedisTasks).StoredAs status id ↔
        s.StoredAs status id) := by
    intro id status h
    simp only [StoredAs, s.tasks.set_get_ne r' h]
  refine ⟨hs.tasks.set hr hkey, hqueue, fun id ↦ ?_, hleased, fun id ↦ ?_⟩
  · by_cases h : id = taskId
    · subst h
      exact hqueue_self.trans (storedAs_iff hself .queued).symm
    · exact (hqueue_ne id h).trans ((hs.queue_iff id).trans (hne h).symm)
  · by_cases h : id = taskId
    · subst h
      exact hleased_self.trans (storedAs_iff hself .leased).symm
    · exact (hleased_ne id h).trans ((hs.leased_iff id).trans (hne h).symm)

theorem Wf.table_set (hs : s.Wf) {taskId : String} {r : TaskState} (f : TaskState → TaskState)
    (hr : s.tasks.get taskId = some r) (queue leased : List String) :
    (⟨s.tasks.set taskId (f r), queue, leased⟩ : RedisTasks).table =
      Rows.update TaskState.taskId taskId f s.table :=
  hs.tasks.listed_set f hr

theorem mem_append_singleton {ids : List String} {id taskId : String} (h : id ≠ taskId) :
    id ∈ ids ++ [taskId] ↔ id ∈ ids := by
  simp [h]

/-! ## The recovery -/

theorem recover_expired {r : TaskState} {now : Time} (hleased : r.status = .leased)
    (hexp : ¬ now < r.leaseExpiresAt) : TaskBackend.redis.recover now r = r.recovered now :=
  if_pos (TaskState.expired_iff.mpr ⟨hleased, not_lt.mp hexp⟩)

theorem Wf.recoverOne_spec (hs : s.Wf) (now : Time) {taskId : String} (hid : taskId ∈ s.leased) :
    (recoverOne now s taskId).Wf ∧
      (recoverOne now s taskId).table =
        Rows.update TaskState.taskId taskId (TaskBackend.redis.recover now) s.table ∧
      ∀ id ∈ s.leased, id ≠ taskId → id ∈ (recoverOne now s taskId).leased := by
  obtain ⟨r, hr, hleased⟩ := (hs.leased_iff taskId).mp hid
  have hnotQueued : taskId ∉ s.queue := fun h ↦ by
    rw [hs.queue_iff, storedAs_iff hr, hleased] at h
    cases h
  have hrow := hs.lookup_table taskId
  rw [hr] at hrow
  simp only [recoverOne, hr, hleased, ne_eq, not_true_eq_false, ↓reduceIte]
  split
  · next hlive =>
      refine ⟨hs, ?_, fun id h _ ↦ h⟩
      have hnot : ¬ r.expired now := fun h ↦
        not_le.mpr hlive (TaskState.expired_iff.mp h).2
      have hid' : TaskBackend.redis.recover now r = id r :=
        TaskBackend.recover_of_not_expired hnot
      rw [Rows.update_congr hs.unique hrow hid']
      simp [Rows.update]
  · next hexp =>
      have herase : ∀ id, id ≠ taskId → (id ∈ s.leased.erase taskId ↔ id ∈ s.leased) :=
        fun id h ↦ List.mem_erase_of_ne h
      have hself : taskId ∈ s.leased.erase taskId ↔ (r.recovered now).status = .leased := by
        refine ⟨fun h ↦ absurd h (List.Nodup.not_mem_erase hs.leased_nodup), fun h ↦ ?_⟩
        simp only [TaskState.recovered] at h
        split at h <;> cases h
      have hrec : TaskBackend.redis.recover now r = (TaskState.recovered now) r :=
        recover_expired hleased hexp
      refine ⟨?_, ?_, fun id h hne ↦ (herase id hne).mpr h⟩
      · split
        · next hretry =>
            refine hs.move hr rfl ?_ (fun id h ↦ mem_append_singleton h) ?_
              (hs.leased_nodup.erase _) herase hself
            · exact List.Nodup.append hs.queue_nodup (List.nodup_singleton _)
                (by simpa using hnotQueued)
            · simp [TaskState.recovered, hretry]
        · next hspent =>
            refine hs.move hr rfl hs.queue_nodup (fun _ _ ↦ Iff.rfl) ?_
              (hs.leased_nodup.erase _) herase hself
            simp [TaskState.recovered, hspent, hnotQueued]
      · rw [Rows.update_congr hs.unique hrow hrec]
        exact hs.table_set _ hr _ _

theorem Wf.foldl_recoverOne (hs : s.Wf) (now : Time) {order : List String}
    (hnodup : order.Nodup) (hmem : ∀ id ∈ order, id ∈ s.leased) :
    (order.foldl (recoverOne now) s).Wf ∧ (order.foldl (recoverOne now) s).table =
      s.table.map fun r ↦ if r.taskId ∈ order then TaskBackend.redis.recover now r else r := by
  induction order generalizing s with
  | nil => exact ⟨hs, by simp⟩
  | cons taskId order ih =>
      obtain ⟨hnot, hnodup⟩ := List.nodup_cons.mp hnodup
      obtain ⟨hwf, htable, hkeep⟩ := hs.recoverOne_spec now (hmem taskId List.mem_cons_self)
      obtain ⟨hwf', htable'⟩ := ih hwf hnodup fun id h ↦
        hkeep id (hmem id (List.mem_cons_of_mem _ h)) fun he ↦ hnot (he ▸ h)
      refine ⟨hwf', htable'.trans ?_⟩
      rw [htable, Rows.update, List.map_map]
      refine List.map_congr_left fun r _ ↦ ?_
      rw [Function.comp_apply]
      by_cases h : r.taskId = taskId
      · have hkey : (TaskBackend.redis.recover now r).taskId = taskId := by
          rw [TaskState.taskId, TaskBackend.recover_task]
          exact h
        rw [if_pos h, hkey, if_neg hnot, h, if_pos List.mem_cons_self]
      · simp only [h, List.mem_cons, false_or, ↓reduceIte]

theorem Wf.recoverExpiredLocked_spec (hs : s.Wf) (now : Time) {order : List String}
    (horder : order.Perm s.leased) :
    (s.recoverExpiredLocked now order).Wf ∧
      (s.recoverExpiredLocked now order).table = TaskTable.recover .redis now s.table := by
  obtain ⟨hwf, htable⟩ := hs.foldl_recoverOne now (horder.nodup_iff.mpr hs.leased_nodup)
    fun id h ↦ horder.subset h
  refine ⟨hwf, htable.trans (List.map_congr_left fun r hr ↦ ?_)⟩
  by_cases h : r.taskId ∈ order
  · rw [if_pos h]
  · rw [if_neg h]
    refine (TaskBackend.recover_of_not_leased fun hleased ↦ h ?_).symm
    exact horder.symm.subset ((hs.leased_iff _).mpr ⟨r, hs.tasks.mem_listed.mp hr, hleased⟩)

/-! ## The index -/

/-- The leased set lists the ids of the leased tasks. -/
theorem Wf.leased_perm (hs : s.Wf) :
    s.leased.Perm ((s.table.filter fun r ↦ r.status = .leased).map TaskState.taskId) := by
  have hnodup : ((s.table.filter fun r ↦ r.status = .leased).map TaskState.taskId).Nodup :=
    Rows.Unique.filter hs.tasks.unique _
  refine (List.perm_ext_iff_of_nodup hs.leased_nodup hnodup).mpr fun id ↦ ?_
  rw [hs.leased_iff, List.mem_map]
  constructor
  · rintro ⟨r, hr, hleased⟩
    have hkey := hs.tasks.keyed id r hr
    refine ⟨r, List.mem_filter.mpr ⟨hs.tasks.mem_listed.mpr ?_, by simpa using hleased⟩, hkey⟩
    rw [hkey, hr]
  · rintro ⟨r, hr, rfl⟩
    obtain ⟨hmem, hleased⟩ := List.mem_filter.mp hr
    exact ⟨r, hs.tasks.mem_listed.mp hmem, by simpa using hleased⟩

theorem Wf.activeCount_eq (hs : s.Wf) (workerId : String) :
    s.activeCount workerId = s.table.heldBy workerId := by
  have hheld : ∀ r ∈ s.table.filter fun r ↦ r.status = .leased,
      (s.tasks.get r.taskId).any (·.workerId = workerId) = decide (r.workerId = workerId) := by
    intro r hr
    rw [hs.mem_table (List.mem_of_mem_filter hr), Option.any_some]
  have hlength := (hs.leased_perm.filter
    fun taskId ↦ (s.tasks.get taskId).any (·.workerId = workerId)).length_eq
  rw [List.filter_map, List.length_map] at hlength
  rw [activeCount, hlength, TaskTable.heldBy, List.countP_eq_length_filter]
  refine congrArg List.length ?_
  calc _ = (s.table.filter fun r ↦ r.status = .leased).filter fun r ↦ r.workerId = workerId :=
        List.filter_congr hheld
    _ = s.table.filter fun r ↦ r.status = .leased ∧ r.workerId = workerId := by
        rw [List.filter_filter]
        exact List.filter_congr fun r _ ↦ by simp [Bool.and_comm]

theorem Wf.scanQueue_spec (hs : s.Wf) (accepts : TaskEnvelope → Bool) {queue : List String}
    (hqueue : ∀ id ∈ queue, id ∈ s.queue) :
    (s.scanQueue accepts queue).1 = [] ∧
      ∀ taskId r, (s.scanQueue accepts queue).2 = some (taskId, r) →
        s.tasks.get taskId = some r ∧ r.status = .queued := by
  induction queue with
  | nil => exact ⟨rfl, fun _ _ h ↦ by simp [scanQueue] at h⟩
  | cons taskId queue ih =>
      obtain ⟨hstale, hselected⟩ := ih fun id h ↦ hqueue id (List.mem_cons_of_mem _ h)
      obtain ⟨r, hr, hqueued⟩ := (hs.queue_iff taskId).mp (hqueue taskId List.mem_cons_self)
      simp only [scanQueue, hr, hqueued, ne_eq, not_true_eq_false, ↓reduceIte]
      split
      · refine ⟨rfl, fun id x h ↦ ?_⟩
        obtain ⟨rfl, rfl⟩ := Prod.mk.inj (Option.some.inj h)
        exact ⟨hr, hqueued⟩
      · exact ⟨hstale, hselected⟩

/-! ## The calls -/

theorem claims_leasedState {now : Time} {c : ClaimedTask} {r : TaskState}
    (hq : r.status = .queued) (htask : c.task = r.task) (hattempt : c.attempt = r.attempt + 1) :
    r.Claims c (leasedState now c r) where
  queued := hq
  task := rfl
  leased := rfl
  holds := ⟨htask, rfl, rfl, rfl⟩
  attempt := hattempt

section Calls

variable (hs : s.Wf) (now : Time)

/-- What a call answers and leaves behind. -/
structure Performs (s : RedisTasks) (now : Time) (call : TaskCall) (out : TaskOutcome)
    (after : RedisTasks) : Prop where
  wf : after.Wf
  does : Does .redis now s.table call out after.table

include hs

theorem submit_performs (task : TaskEnvelope) :
    s.Performs now (.submit task) (s.submit now task).1 (s.submit now task).2 := by
  unfold submit
  split
  · next existing hget =>
      split
      · exact ⟨hs, .rejected task _⟩
      · next hsame =>
          obtain rfl := not_not.mp hsame
          refine ⟨hs, .resubmitted existing (hs.tasks.mem_listed.mpr ?_)⟩
          exact hget
  · next hget =>
      have hget' : s.tasks.get (TaskState.new task now).taskId = none := hget
      have hnone : ∀ {id status}, s.StoredAs status id → id ≠ task.taskId := by
        rintro id status ⟨r, hr, -⟩ rfl
        rw [hget] at hr
        cases hr
      have hstored : ∀ {id status}, id ≠ task.taskId →
          ((∃ r, ((s.tasks.set task.taskId (.new task now)).add task.taskId).get id = some r ∧
            r.status = status) ↔ s.StoredAs status id) := by
        intro id status h
        simp only [StoredAs, Keyspace.add_get, s.tasks.set_get_ne (TaskState.new task now) h]
      have hself : ((s.tasks.set task.taskId (.new task now)).add task.taskId).get task.taskId =
          some (TaskState.new task now) := by simp
      refine ⟨⟨hs.tasks.insert hget', ?_, fun id ↦ ?_, hs.leased_nodup, fun id ↦ ?_⟩, ?_⟩
      · refine List.Nodup.append hs.queue_nodup (List.nodup_singleton _) fun id h h' ↦ ?_
        exact hnone ((hs.queue_iff id).mp h) (List.mem_singleton.mp h')
      · by_cases h : id = task.taskId
        · subst h
          simp only [StoredAs, hself, List.mem_append, List.mem_singleton, or_true, true_iff]
          exact ⟨_, rfl, rfl⟩
        · exact (mem_append_singleton h).trans ((hs.queue_iff id).trans (hstored h).symm)
      · by_cases h : id = task.taskId
        · subst h
          simp only [StoredAs, hself, hs.leased_iff]
          constructor
          · exact fun h ↦ absurd rfl (hnone h)
          · rintro ⟨r, hr, hleased⟩
            obtain rfl := Option.some.inj hr
            cases hleased
        · exact (hs.leased_iff id).trans (hstored h).symm
      · have htable : ((s.tasks.set task.taskId (.new task now)).add task.taskId).listed =
            s.table ++ [.new task now] := hs.tasks.listed_insert hget'
        have hfresh := hs.lookup_table task.taskId
        rw [hget] at hfresh
        change Does .redis now s.table _ _ ((s.tasks.set _ _).add _).listed
        rw [htable]
        exact .submitted task hfresh

theorem claim_performs {order : List String} (horder : order.Perm s.leased)
    (worker : WorkerDescriptor) (leaseSeconds : Time) (taskTypes namespaces : List String)
    (token : String) :
    s.Performs now (.claim worker leaseSeconds taskTypes namespaces token)
      (s.claim now order worker leaseSeconds taskTypes namespaces token).1
      (s.claim now order worker leaseSeconds taskTypes namespaces token).2 := by
  obtain ⟨hwf, htable⟩ := hs.recoverExpiredLocked_spec now horder
  simp only [claim]
  split
  · exact ⟨hwf, htable ▸ .unclaimed ..⟩
  next hfree =>
  obtain ⟨hstale, hselected⟩ := hwf.scanQueue_spec ((worker.heartbeat "online").accepts taskTypes
    namespaces ((s.recoverExpiredLocked now order).activeCount
      (worker.heartbeat "online").workerId)) (fun _ h ↦ h)
  rw [hstale, List.foldl_nil]
  split
  · exact ⟨hwf, htable ▸ .unclaimed ..⟩
  next taskId r hscan =>
  obtain ⟨hget, hqueued⟩ := hselected taskId r hscan
  have hkey : r.taskId = taskId := hwf.tasks.keyed taskId r hget
  have hnotLeased : taskId ∉ (s.recoverExpiredLocked now order).leased := fun h ↦ by
    rw [hwf.leased_iff, storedAs_iff hget, hqueued] at h
    cases h
  have hadd : (s.recoverExpiredLocked now order).addLeased taskId =
      (s.recoverExpiredLocked now order).leased ++ [taskId] := if_neg hnotLeased
  have hheld := not_le.mp hfree
  rw [hwf.activeCount_eq, htable] at hheld
  constructor
  · refine hwf.move hget rfl (hwf.queue_nodup.erase _) (fun id h ↦ List.mem_erase_of_ne h) ?_ ?_
      (fun id h ↦ ?_) ?_
    · exact iff_of_false (List.Nodup.not_mem_erase hwf.queue_nodup) (by simp [leasedState])
    · rw [hadd]
      exact List.Nodup.append hwf.leased_nodup (List.nodup_singleton _) (by simpa using hnotLeased)
    · rw [hadd]
      exact mem_append_singleton h
    · rw [hadd]
      simp [leasedState]
  · have hlookup := hwf.lookup_table taskId
    rw [hget, ← hkey, htable] at hlookup
    rw [hwf.table_set _ hget, htable, ← hkey]
    exact .claimed worker leaseSeconds taskTypes namespaces ⟨_, _, token, _, _⟩ r _ hlookup
      (claims_leasedState hqueued rfl rfl) rfl hheld

theorem heartbeatTask_performs (claim : ClaimedTask) (leaseSeconds : Time) :
    s.Performs now (.heartbeatTask claim leaseSeconds) (s.heartbeatTask now claim leaseSeconds).1
      (s.heartbeatTask now claim leaseSeconds).2 := by
  unfold heartbeatTask
  split
  · exact ⟨hs, .missed ..⟩
  next r hget =>
  split
  · next hactive =>
      have hleased := (TaskState.claimIsActive_iff.mp hactive).1
      have hlookup := hs.lookup_table claim.task.taskId
      rw [hget] at hlookup
      constructor
      · refine hs.move hget rfl hs.queue_nodup (fun _ _ ↦ Iff.rfl) ?_ hs.leased_nodup
          (fun _ _ ↦ Iff.rfl) ?_
        · exact (hs.queue_iff _).trans (storedAs_iff hget _)
        · exact (hs.leased_iff _).trans (storedAs_iff hget _)
      · rw [hs.table_set _ hget]
        exact .extended claim leaseSeconds r _ hlookup ⟨hactive, rfl, hleased, rfl, rfl, rfl⟩
  · exact ⟨hs, .missed ..⟩

theorem finishClaim_performs {order : List String} (horder : order.Perm s.leased)
    {call : TaskCall} {claim : ClaimedTask} {status : TaskStatus} {allowRetry : Bool}
    (hcall : call.finish? = some (claim, status, allowRetry)) (hfinal : status.final)
    (result : TaskResult) :
    s.Performs now call (s.finishClaim now order claim result status allowRetry).1
      (s.finishClaim now order claim result status allowRetry).2 := by
  have hsome : call.finish?.isSome := by rw [hcall]; rfl
  obtain ⟨hwf, htable⟩ := hs.recoverExpiredLocked_spec now horder
  unfold finishClaim
  split
  · exact ⟨hwf, htable ▸ .recoveredRefusal call _ hsome rfl⟩
  next r hget =>
  split
  · next hactive =>
      have hleased := (TaskState.claimIsActive_iff.mp hactive).1
      have hnotQueued : claim.task.taskId ∉ s.queue := fun h ↦ by
        rw [hs.queue_iff, storedAs_iff hget, hleased] at h
        cases h
      have hlookup := hs.lookup_table claim.task.taskId
      rw [hget] at hlookup
      have hnotLeased : claim.task.taskId ∈ s.leased.erase claim.task.taskId ↔
          (r.finished now claim result status allowRetry).status = .leased := by
        refine iff_of_false (List.Nodup.not_mem_erase hs.leased_nodup) fun h ↦ ?_
        simp only [TaskState.finished] at h
        split at h
        · cases h
        · rw [h] at hfinal
          cases hfinal
      constructor
      · dsimp only
        split
        · next hretry =>
            refine hs.move hget rfl ?_ (fun id h ↦ mem_append_singleton h) ?_
              (hs.leased_nodup.erase _) (fun id h ↦ List.mem_erase_of_ne h) hnotLeased
            · exact List.Nodup.append hs.queue_nodup (List.nodup_singleton _)
                (by simpa using hnotQueued)
            · simp [TaskState.finished, hretry]
        · next hretry =>
            refine hs.move hget rfl hs.queue_nodup (fun _ _ ↦ Iff.rfl) ?_
              (hs.leased_nodup.erase _) (fun id h ↦ List.mem_erase_of_ne h) hnotLeased
            refine iff_of_false hnotQueued fun h ↦ ?_
            simp only [TaskState.finished, hretry] at h
            rw [if_neg Bool.false_ne_true] at h
            rw [h] at hfinal
            cases hfinal
      · rw [hs.table_set _ hget]
        exact .finished call claim status allowRetry r _ hcall hlookup ⟨hactive, rfl, rfl, rfl⟩
  · exact ⟨hwf, htable ▸ .recoveredRefusal call _ hsome rfl⟩

theorem complete_performs {order : List String} (horder : order.Perm s.leased)
    (claim : ClaimedTask) (result : TaskResult) :
    s.Performs now (.complete claim result) (s.complete now order claim result).1
      (s.complete now order claim result).2 := by
  unfold complete
  split
  · exact ⟨hs, .refused _ _ rfl⟩
  split
  · exact ⟨hs, .refused _ _ rfl⟩
  · exact finishClaim_performs hs now horder rfl rfl result

theorem fail_performs {order : List String} (horder : order.Perm s.leased)
    (claim : ClaimedTask) (result : TaskResult) :
    s.Performs now (.fail claim result) (s.fail now order claim result).1
      (s.fail now order claim result).2 := by
  unfold fail
  split
  · exact ⟨hs, .refused _ _ rfl⟩
  split
  · exact ⟨hs, .refused _ _ rfl⟩
  · exact finishClaim_performs hs now horder rfl rfl result

theorem cancel_performs (taskId reason : String) :
    s.Performs now (.cancel taskId reason) (s.cancel now taskId reason).1
      (s.cancel now taskId reason).2 := by
  unfold cancel
  split
  · exact ⟨hs, .uncancelled ..⟩
  next r hget =>
  split
  · next hqueued =>
      have hnotLeased : taskId ∉ s.leased := fun h ↦ by
        rw [hs.leased_iff, storedAs_iff hget, hqueued] at h
        cases h
      have hlookup := hs.lookup_table taskId
      rw [hget] at hlookup
      constructor
      · refine hs.move hget rfl (hs.queue_nodup.filter _) (fun id h ↦ ?_) ?_ hs.leased_nodup
          (fun _ _ ↦ Iff.rfl) ?_
        · simp [removeQueued, h]
        · simp [removeQueued, TaskState.cancelled]
        · exact iff_of_false hnotLeased (by simp [TaskState.cancelled])
      · rw [hs.table_set _ hget]
        exact .cancelled taskId reason r _ hlookup ⟨hqueued, rfl, rfl, rfl⟩
  · exact ⟨hs, .uncancelled ..⟩

/-- Each call keeps the index in step and does to the stored states what `Does` allows. -/
theorem exec_performs {order : List String} (horder : order.Perm s.leased) (call : TaskCall) :
    s.Performs now call (s.exec now order call).1 (s.exec now order call).2 := by
  cases call with
  | submit task => exact submit_performs hs now task
  | claim worker leaseSeconds taskTypes namespaces token =>
      exact claim_performs hs now horder worker leaseSeconds taskTypes namespaces token
  | heartbeatTask claim leaseSeconds => exact heartbeatTask_performs hs now claim leaseSeconds
  | complete claim result => exact complete_performs hs now horder claim result
  | fail claim result => exact fail_performs hs now horder claim result
  | recoverExpired =>
      obtain ⟨hwf, htable⟩ := hs.recoverExpiredLocked_spec now horder
      exact ⟨hwf, htable ▸ .recovered _⟩
  | cancel taskId reason => exact cancel_performs hs now taskId reason
  | get taskId => exact ⟨hs, .read taskId _⟩

end Calls

end Blackbase.Resources.RedisTasks

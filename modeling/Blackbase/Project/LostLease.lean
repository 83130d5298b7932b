import Blackbase.Project.ExternalWorker

/-!
# Losing the lease of a task

What a worker does with a claim that has stopped being current changes nothing: every call it
makes is refused by the fence of the transport.  Whether the worker survives the refusal is
another matter.  The handler of the checks does not expect one, and the handler of the execution
forgives it only if the heartbeat thread has seen the loss, which it looks for once an interval.
-/

namespace Blackbase.Resources

/-! ## What `fail` and `complete` answer -/

/-- The active lease of a claim. -/
def TransportState.Active (s : TransportState) (claim : ClaimedTask) (now : Time) : Prop :=
  ∃ r, Rows.lookup TaskState.taskId claim.task.taskId s.table = some r ∧
    r.claimIsActive claim now = true

/-- A call that hands in a result of the right kind for the claim. -/
inductive HandsIn (claim : ClaimedTask) : TaskCall → Prop
  | complete (result : TaskResult) (hid : result.taskId = claim.task.taskId)
      (hok : result.ok = true) : HandsIn claim (.complete claim result)
  | fail (result : TaskResult) (hid : result.taskId = claim.task.taskId)
      (hok : result.ok = false) : HandsIn claim (.fail claim result)

theorem HandsIn.finish? {claim : ClaimedTask} {call : TaskCall} (h : HandsIn claim call) :
    ∃ status allowRetry, call.finish? = some (claim, status, allowRetry) := by
  cases h with
  | complete => exact ⟨_, _, rfl⟩
  | fail => exact ⟨_, _, rfl⟩

theorem SQLiteTasks.finishClaim_error {s : SQLiteTasks} {now : Time} {claim : ClaimedTask}
    {result : TaskResult} {status : TaskStatus} {allowRetry : Bool} {e : TransportError}
    (h : (s.finishClaim now claim result status allowRetry).1 = .error e) :
    e = .inactiveLease claim.task.taskId := by
  rw [finishClaim] at h
  split at h
  · exact (Except.error.inj h).symm
  · split at h
    · cases h
    · exact (Except.error.inj h).symm

theorem SQLiteTasks.finishClaim_active {s : SQLiteTasks} {now : Time} {claim : ClaimedTask}
    {r : TaskState} (h : Rows.lookup TaskState.taskId claim.task.taskId s.table = some r)
    (hactive : r.claimIsActive claim now = true) (result : TaskResult) (status : TaskStatus)
    (allowRetry : Bool) :
    ∃ record, (s.finishClaim now claim result status allowRetry).1 = .ok (.record record) := by
  rw [lookup_table] at h
  obtain ⟨row, hrow, rfl⟩ := Option.map_eq_some_iff.mp h
  rw [finishClaim, hrow]
  dsimp only
  rw [if_pos hactive]
  exact ⟨_, rfl⟩

theorem RedisTasks.finishClaim_active {s : RedisTasks} (hs : s.Wf) {now : Time}
    {claim : ClaimedTask} {r : TaskState}
    (h : Rows.lookup TaskState.taskId claim.task.taskId s.table = some r)
    (hactive : r.claimIsActive claim now = true) (order : List String) (result : TaskResult)
    (status : TaskStatus) (allowRetry : Bool) :
    ∃ record,
      (s.finishClaim now order claim result status allowRetry).1 = .ok (.record record) := by
  rw [hs.lookup_table] at h
  rw [finishClaim, h]
  dsimp only
  rw [if_pos hactive]
  exact ⟨_, rfl⟩

theorem RedisTasks.finishClaim_error {s : RedisTasks} {now : Time} {claim : ClaimedTask}
    {order : List String} {result : TaskResult} {status : TaskStatus} {allowRetry : Bool}
    {e : TransportError}
    (h : (s.finishClaim now order claim result status allowRetry).1 = .error e) :
    e = .inactiveLease claim.task.taskId := by
  rw [finishClaim] at h
  split at h
  · exact (Except.error.inj h).symm
  · dsimp only at h
    split at h
    · cases h
    · exact (Except.error.inj h).symm

theorem HandsIn.sqlite {claim : ClaimedTask} {call : TaskCall} (h : HandsIn claim call)
    (s : SQLiteTasks) (now : Time) : ∃ result status allowRetry,
      s.exec now call = s.finishClaim now claim result status allowRetry := by
  cases h with
  | complete result hid hok =>
      refine ⟨result, .succeeded, false, ?_⟩
      simp [SQLiteTasks.exec, SQLiteTasks.complete, hid, hok]
  | fail result hid hok =>
      refine ⟨result, .failed, true, ?_⟩
      simp [SQLiteTasks.exec, SQLiteTasks.fail, hid, hok]

theorem HandsIn.redis {claim : ClaimedTask} {call : TaskCall} (h : HandsIn claim call)
    (s : RedisTasks) (now : Time) (order : List String) : ∃ result status allowRetry,
      s.exec now order call = s.finishClaim now order claim result status allowRetry := by
  cases h with
  | complete result hid hok =>
      refine ⟨result, .succeeded, false, ?_⟩
      simp [RedisTasks.exec, RedisTasks.complete, hid, hok]
  | fail result hid hok =>
      refine ⟨result, .failed, true, ?_⟩
      simp [RedisTasks.exec, RedisTasks.fail, hid, hok]

namespace TaskTransport

variable {transport : TaskTransport} {claim : ClaimedTask} {call : TaskCall} {now : Time}
  {order : List String}

/-- The claim of an active lease is finished. -/
theorem handsIn_active (h : transport.Wf) (hdurable : transport.backend.durable = true)
    (hcall : HandsIn claim call) {r : TaskState}
    (hr : Rows.lookup TaskState.taskId claim.task.taskId transport.table = some r)
    (hactive : r.claimIsActive claim now = true) :
    ∃ record, (transport.exec now order call).1 = .ok (.record record) := by
  cases transport with
  | inMemory s => cases hdurable
  | sqlite s =>
      obtain ⟨result, status, allowRetry, hexec⟩ := hcall.sqlite s now
      rw [exec, hexec]
      exact SQLiteTasks.finishClaim_active hr hactive result status allowRetry
  | redis s =>
      obtain ⟨result, status, allowRetry, hexec⟩ := hcall.redis s now order
      rw [exec, hexec]
      exact RedisTasks.finishClaim_active h hr hactive order result status allowRetry

/-- The only refusal is that of an inactive lease. -/
theorem handsIn_error (hdurable : transport.backend.durable = true) (hcall : HandsIn claim call)
    {e : TransportError} (he : (transport.exec now order call).1 = .error e) :
    e = .inactiveLease claim.task.taskId := by
  cases transport with
  | inMemory s => cases hdurable
  | sqlite s =>
      obtain ⟨result, status, allowRetry, hexec⟩ := hcall.sqlite s now
      rw [exec, hexec] at he
      exact SQLiteTasks.finishClaim_error he
  | redis s =>
      obtain ⟨result, status, allowRetry, hexec⟩ := hcall.redis s now order
      rw [exec, hexec] at he
      exact RedisTasks.finishClaim_error he

end TaskTransport

namespace TransportState

variable {s : TransportState} {e : TaskEvent} {claim : ClaimedTask} {now : Time}

/-- A claim that was handed out and is not stale holds its task. -/
theorem Tracked.active (h : s.Tracked) (hissued : claim ∈ s.issued) (hstale : ¬ s.Stale claim now) :
    s.Active claim now := by
  rw [Stale] at hstale
  push Not at hstale
  obtain ⟨r, hr, hid, hleased, htoken, hlive⟩ := hstale
  obtain ⟨c, hc, hholds⟩ := h.leased r hr hleased
  obtain rfl : c = claim :=
    List.inj_on_of_nodup_map h.tokens hc hissued (hholds.token.trans htoken)
  refine ⟨r, hid ▸ Rows.lookup_of_mem h.unique hr, ?_⟩
  exact TaskState.claimIsActive_iff.mpr ⟨hleased, hholds.worker.symm, htoken, hlive⟩

/-- No task is leased under the claim. -/
def Gone (s : TransportState) (claim : ClaimedTask) : Prop :=
  ∀ r ∈ s.table, r.taskId = claim.task.taskId → r.status = .leased →
    r.leaseToken ≠ claim.leaseToken

theorem Gone.stale (h : s.Gone claim) (now : Time) : s.Stale claim now :=
  fun r hr hid hleased ↦ .inl (h r hr hid hleased)

/-- A claim that is gone does not come back: the tokens of later claims are new. -/
theorem Gone.after (h : s.Gone claim) (htracked : s.Tracked) (hissued : claim ∈ s.issued)
    (he : s.Possible e) : (s.after e).Gone claim := by
  intro r' hr' hid hleased htoken
  rcases (htracked.effect he).backward htracked.unique hr' with
    ⟨r, hr, hevolves⟩ | ⟨task, rfl, -, -⟩
  · rcases hevolves.leased hleased with ⟨hbefore, hsame, -, -⟩ | ⟨c, hc, hholds⟩
    · exact h r hr (hevolves.taskId.symm.trans hid) hbefore (hsame.symm.trans htoken)
    · obtain ⟨worker, leaseSeconds, taskTypes, namespaces, hcall⟩ := (htracked.does he).issued hc
      have hnew := (he.2 c.leaseToken (by rw [hcall]; rfl)).2
      rw [hholds.token, htoken] at hnew
      exact hnew (List.mem_map_of_mem hissued)
  · cases hleased

/-- A refused call leaves the task of a stale claim as it is, unless Redis finds its lease
expired. -/
theorem StepFenced.lookup (h : s.StepFenced e) (hstale : s.Stale claim e.clock)
    (hcall : (∃ leaseSeconds, e.call = .heartbeatTask claim leaseSeconds) ∨ HandsIn claim e.call)
    (hlive : s.transport.backend = .redis → HandsIn claim e.call → ∀ r ∈ s.table,
      r.taskId = claim.task.taskId → r.expired e.clock = false) :
    Rows.lookup TaskState.taskId claim.task.taskId (s.after e).table =
      Rows.lookup TaskState.taskId claim.task.taskId s.table := by
  rcases hcall with ⟨leaseSeconds, hcall⟩ | hcall
  · rw [(h.heartbeat claim leaseSeconds hcall hstale).2]
  · obtain ⟨status, allowRetry, hfinish⟩ := hcall.finish?
    rcases (h.finish claim status allowRetry hfinish hstale).2 with htable | ⟨hredis, htable⟩
    · rw [htable]
    · rw [htable, TaskTable.recover,
        Rows.lookup_map (fun r ↦ TaskBackend.recover_taskId r)]
      cases hlookup : Rows.lookup TaskState.taskId claim.task.taskId s.table with
      | none => rfl
      | some r =>
          have hexpired := hlive hredis hcall r (Rows.mem_of_lookup hlookup)
            (Rows.key_of_lookup hlookup)
          rw [Option.map_some, TaskBackend.recover_of_not_expired (by simp [hexpired])]

end TransportState

end Blackbase.Resources

namespace Blackbase.Project

open Resources

variable {W : ExternalCaseWorker}

/-! ## The calls of a round -/

namespace ExternalCaseWorker

theorem result_failed (W : ExternalCaseWorker) (claim : ClaimedTask) (report : WorkerReport) :
    (W.result claim "failed" report).ok = false := by
  have h : ¬ Text.lower "failed" ∈ ["ok", "success", "completed"] := by decide
  exact decide_eq_false h

theorem result_ok (W : ExternalCaseWorker) (claim : ClaimedTask) (report : WorkerReport) :
    (W.result claim "ok" report).ok = true := by
  have h : Text.lower "ok" ∈ ["ok", "success", "completed"] := by decide
  exact decide_eq_true h

theorem handsIn_failure (W : ExternalCaseWorker) (claim : ClaimedTask) (report : WorkerReport) :
    HandsIn claim (.fail claim (W.result claim "failed" report)) :=
  .fail _ rfl (W.result_failed claim report)

theorem handsIn_settlement (W : ExternalCaseWorker) (claim : ClaimedTask) (ok : Bool)
    (report : WorkerReport) : HandsIn claim (W.settlement claim ok report) := by
  cases ok with
  | true => exact .complete _ rfl (W.result_ok claim report)
  | false => exact W.handsIn_failure claim report

/-- A call of a round that has a claim presents that claim. -/
theorem call_of_claim {s : WorkerRound} {l : WorkerStep} {event : TaskEvent} {c : ClaimedTask}
    (hcall : W.call? s l = some event) (hclaim : s.main.claim? = some c) :
    (∃ leaseSeconds, event.call = .heartbeatTask c leaseSeconds) ∨ HandsIn c event.call := by
  cases l with
  | claim time token =>
      rw [call?] at hcall
      split_ifs at hcall with hmain
      rw [hmain] at hclaim
      cases hclaim
  | reject time report =>
      rw [call?] at hcall
      split at hcall
      · next c' hmain =>
          obtain rfl := Option.some.inj hcall
          rw [hmain] at hclaim
          obtain rfl := Option.some.inj hclaim
          exact .inr (W.handsIn_failure c' report)
      · cases hcall
  | settle time report =>
      rw [call?] at hcall
      split at hcall
      · next c' ok hmain =>
          obtain rfl := Option.some.inj hcall
          rw [hmain] at hclaim
          obtain rfl := Option.some.inj hclaim
          exact .inr (W.handsIn_settlement c' ok report)
      · cases hcall
  | handle time report =>
      rw [call?] at hcall
      split at hcall
      · next c' hmain =>
          obtain rfl := Option.some.inj hcall
          rw [hmain] at hclaim
          obtain rfl := Option.some.inj hclaim
          exact .inr (W.handsIn_failure c' report)
      · cases hcall
  | beat time =>
      rw [call?] at hcall
      split at hcall
      · next c' _ hclaim' =>
          obtain rfl := Option.some.inj hcall
          rw [hclaim] at hclaim'
          obtain rfl := Option.some.inj hclaim'
          exact .inl ⟨W.leaseSeconds, rfl⟩
      · cases hcall
  | _ => cases hcall

end ExternalCaseWorker

namespace WorkerRound

variable {s t : WorkerRound} {l : WorkerStep}

/-- Every step is a call of the transport, or leaves it alone. -/
inductive StepCases (W : ExternalCaseWorker) (s : WorkerRound) (l : WorkerStep) (t : WorkerRound) :
    Prop
  | other (event : TaskEvent) (hl : l = .other event) (he : s.tasks.Possible event)
      (ht : t = { s with tasks := s.tasks.after event })
  | call (event : TaskEvent) (hl : W.call? s l = some event) (he : s.tasks.Possible event)
      (ht : t = ({ s with tasks := s.tasks.after event } : WorkerRound).answered
        (s.tasks.outcome event) l)
  | inside (hl : W.call? s l = none) (hother : ∀ event, l ≠ .other event) (ht : t.tasks = s.tasks)

theorem stepCases (hstep : s.step W l = some t) : StepCases W s l t := by
  cases l with
  | other event =>
      obtain ⟨tasks, htasks, rfl⟩ := Option.map_eq_some_iff.mp hstep
      obtain ⟨he, rfl⟩ := TransportState.step_eq_some.mp htasks
      exact .other event rfl he rfl
  | check passes =>
      refine .inside rfl (by intro _ h; cases h) ?_
      simp only [step] at hstep
      split at hstep
      · obtain rfl := Option.some.inj hstep
        split_ifs <;> rfl
      · cases hstep
  | execute ok fenceCurrent =>
      refine .inside rfl (by intro _ h; cases h) ?_
      simp only [step] at hstep
      split at hstep
      · cases ok with
        | none =>
            obtain rfl := Option.some.inj hstep
            rfl
        | some ok =>
            obtain rfl := Option.some.inj hstep
            rfl
      · cases hstep
  | look =>
      refine .inside rfl (by intro _ h; cases h) ?_
      simp only [step] at hstep
      split at hstep
      · obtain rfl := Option.some.inj hstep
        rfl
      · cases hstep
  | wake =>
      refine .inside rfl (by intro _ h; cases h) ?_
      simp only [step] at hstep
      split_ifs at hstep
      all_goals
        obtain rfl := Option.some.inj hstep
        rfl
  | judge workerOk projectLeaseOk =>
      refine .inside rfl (by intro _ h; cases h) ?_
      simp only [step] at hstep
      split at hstep
      · obtain rfl := Option.some.inj hstep
        split_ifs <;> rfl
      · cases hstep
  | claim | reject | settle | handle | beat =>
      obtain ⟨event, hevent, hrest⟩ := Option.bind_eq_some_iff.mp hstep
      obtain ⟨tasks, htasks, rfl⟩ := Option.map_eq_some_iff.mp hrest
      obtain ⟨he, rfl⟩ := TransportState.step_eq_some.mp htasks
      exact .call event hevent he rfl

theorem tasks_answered (s : WorkerRound) (out : TaskOutcome) (l : WorkerStep) :
    (s.answered out l).tasks = s.tasks := by
  cases l with
  | reject | settle | handle =>
      simp only [answered]
      split <;> rfl
  | _ => rfl

/-! ## The round -/

/-- Redis does not find the lease of the task expired. -/
def Unexpired (s : WorkerRound) (c : ClaimedTask) (now : Time) : Prop :=
  s.tasks.transport.backend = .redis → ∀ r ∈ s.tasks.table, r.taskId = c.task.taskId →
    r.expired now = false

/-- The checks fail only while the claim is current, the second handler finds the loss seen by a
heartbeat, and Redis finds no expired lease of the task in a call that ends the claim. -/
def Proper (s : WorkerRound) : WorkerStep → Prop
  | .reject time _ => ∀ c ∈ s.main.claim?, ¬ s.tasks.Stale c time.clock
  | .settle time _ | .handle time _ => ∀ c ∈ s.main.claim?, s.Unexpired c time.clock
  | .look => s.leaseLost = true
  | _ => True

/-- What holds along a run whose steps are proper. -/
structure Sound (s : WorkerRound) : Prop where
  tracked : s.tasks.Tracked
  durable : s.tasks.transport.backend.durable = true
  issued : ∀ c, s.main.claim? = some c → c ∈ s.tasks.issued
  survives : ∀ c, s.main ≠ .raised c

theorem Sound.tasks_after (h : Sound s) {event : TaskEvent} (he : s.tasks.Possible event) :
    Sound { s with tasks := s.tasks.after event } where
  tracked := h.tracked.after he (TransportState.keepsTask_of_durable h.durable)
  durable := (congrArg TaskBackend.durable (TaskTransport.backend_exec ..)).trans h.durable
  issued c hc := List.mem_append_left _ (h.issued c hc)
  survives := h.survives

/-- Only the thread's stage changes, for one with the same claim that is not an exception. -/
theorem Sound.withMain (h : Sound s) {main : RoundStage} {beat : BeatStage}
    {leaseLost stopHeartbeat : Bool}
    (hclaim : ∀ c, main.claim? = some c → c ∈ s.tasks.issued) (hmain : ∀ c, main ≠ .raised c) :
    Sound ⟨s.tasks, main, beat, leaseLost, stopHeartbeat⟩ :=
  ⟨h.tracked, h.durable, hclaim, hmain⟩

/-- The claim that is finished is the one of an active lease, or is refused for its lease. -/
theorem Sound.handsIn_ok (h : Sound s) {event : TaskEvent} {c : ClaimedTask}
    (hcall : HandsIn c event.call) (hissued : c ∈ s.tasks.issued)
    (hstale : ¬ s.tasks.Stale c event.clock) :
    ∃ record, s.tasks.outcome event = .ok (.record record) := by
  obtain ⟨r, hr, hactive⟩ := h.tracked.active hissued hstale
  exact TaskTransport.handsIn_active h.tracked.wf h.durable hcall hr hactive

theorem Sound.answered (h : Sound s) {event : TaskEvent} (hcall : W.call? s l = some event)
    (he : s.tasks.Possible event) (hproper : s.Proper l) :
    Sound (({ s with tasks := s.tasks.after event } : WorkerRound).answered
      (s.tasks.outcome event) l) := by
  have hafter := h.tasks_after he
  have hsame : ∀ c, s.main.claim? = some c → ∀ c', some c = some c' →
      c' ∈ (s.tasks.after event).issued := by
    intro c hc c' hc'
    obtain rfl := Option.some.inj hc'
    exact hafter.issued c hc
  cases l with
  | claim time token =>
      simp only [WorkerRound.answered]
      cases hissued : issuedClaim (s.tasks.outcome event) with
      | none => exact hafter.withMain (by intro _ h; cases h) (by intro _ h; cases h)
      | some c =>
          refine hafter.withMain ?_ (by intro _ h; cases h)
          intro c' hc'
          obtain rfl := Option.some.inj hc'
          refine List.mem_append_right _ ?_
          rw [hissued]
          exact List.mem_singleton_self c
  | reject time report =>
      simp only [ExternalCaseWorker.call?] at hcall
      split at hcall
      · next c hmain =>
          have hissued := h.issued c (by rw [hmain]; rfl)
          obtain rfl := Option.some.inj hcall
          have hin : HandsIn c (TaskEvent.mk time.clock time.order
              (.fail c (W.result c "failed" report))).call := W.handsIn_failure c report
          obtain ⟨record, hok⟩ := h.handsIn_ok hin hissued (hproper c (by rw [hmain]; rfl))
          simp only [WorkerRound.answered, hok, hmain]
          exact hafter.withMain (hsame c (by rw [hmain]; rfl)) (by intro _ h; cases h)
      · cases hcall
  | settle time report =>
      simp only [ExternalCaseWorker.call?] at hcall
      split at hcall
      · next c ok hmain =>
          obtain rfl := Option.some.inj hcall
          have hclaim := hsame c (by rw [hmain]; rfl)
          generalize s.tasks.outcome _ = out
          cases out with
          | ok reply =>
              simp only [WorkerRound.answered, hmain]
              exact hafter.withMain hclaim (by intro _ h; cases h)
          | error e =>
              simp only [WorkerRound.answered, hmain]
              exact hafter.withMain hclaim (by intro _ h; cases h)
      · cases hcall
  | handle time report =>
      simp only [ExternalCaseWorker.call?] at hcall
      split at hcall
      · next c hmain =>
          obtain rfl := Option.some.inj hcall
          have hclaim := hsame c (by rw [hmain]; rfl)
          have hin : HandsIn c (TaskEvent.mk time.clock time.order
              (.fail c (W.result c "failed" report))).call := W.handsIn_failure c report
          generalize hout : s.tasks.outcome _ = out
          cases out with
          | ok reply =>
              simp only [WorkerRound.answered, hmain]
              exact hafter.withMain hclaim (by intro _ h; cases h)
          | error e =>
              obtain rfl := TaskTransport.handsIn_error h.durable hin hout
              simp only [WorkerRound.answered, hmain]
              exact hafter.withMain hclaim (by intro _ h; cases h)
      · cases hcall
  | beat time => exact hafter.withMain hafter.issued hafter.survives
  | _ => exact hafter

theorem Sound.inside (h : Sound s) (hproper : s.Proper l) (hcall : W.call? s l = none)
    (hother : ∀ event, l ≠ .other event) (hstep : s.step W l = some t) : Sound t := by
  cases l with
  | other event => exact absurd rfl (hother event)
  | check passes =>
      simp only [step] at hstep
      split at hstep
      · next c hmain =>
          have hissued := h.issued c (by rw [hmain]; rfl)
          obtain rfl := Option.some.inj hstep
          split_ifs
          · exact h.withMain (by rintro _ ⟨⟩; exact hissued) (by intro _ h; cases h)
          · exact h.withMain (by rintro _ ⟨⟩; exact hissued) (by intro _ h; cases h)
      · cases hstep
  | execute ok fenceCurrent =>
      simp only [step] at hstep
      split at hstep
      · next c hmain =>
          have hissued := h.issued c (by rw [hmain]; rfl)
          cases ok with
          | none =>
              obtain rfl := Option.some.inj hstep
              exact h.withMain (by rintro _ ⟨⟩; exact hissued) (by intro _ h; cases h)
          | some ok =>
              obtain rfl := Option.some.inj hstep
              split_ifs
              · exact h.withMain (by rintro _ ⟨⟩; exact hissued) (by intro _ h; cases h)
              · exact h.withMain (by rintro _ ⟨⟩; exact hissued) (by intro _ h; cases h)
      · cases hstep
  | look =>
      simp only [step] at hstep
      split at hstep
      · next c hmain =>
          have hissued := h.issued c (by rw [hmain]; rfl)
          obtain rfl := Option.some.inj hstep
          have hlost : s.leaseLost = true := hproper
          rw [if_pos hlost]
          exact h.withMain (by rintro _ ⟨⟩; exact hissued) (by intro _ h; cases h)
      · cases hstep
  | wake =>
      simp only [step] at hstep
      split_ifs at hstep
      all_goals
        obtain rfl := Option.some.inj hstep
        exact h.withMain h.issued h.survives
  | judge workerOk projectLeaseOk =>
      simp only [step] at hstep
      split at hstep
      · obtain rfl := Option.some.inj hstep
        split_ifs
        · exact h.withMain h.issued h.survives
        · exact h.withMain h.issued h.survives
      · cases hstep
  | claim | reject | settle | handle | beat =>
      obtain ⟨event, hevent, -⟩ := Option.bind_eq_some_iff.mp hstep
      rw [hcall] at hevent
      cases hevent

theorem Sound.step (h : Sound s) (hproper : s.Proper l) (hstep : s.step W l = some t) :
    Sound t := by
  cases stepCases hstep with
  | other event hl he ht =>
      rw [ht]
      exact h.tasks_after he
  | call event hl he ht =>
      rw [ht]
      exact h.answered hl he hproper
  | inside hl hother ht => exact h.inside hproper hl hother hstep

/-! ## After the loss -/

/-- A step of the round itself. -/
def own : WorkerStep → Bool
  | .other _ => false
  | _ => true

/-- The row of the claimed task. -/
def row (s : WorkerRound) (c : ClaimedTask) : Option TaskState :=
  Rows.lookup TaskState.taskId c.task.taskId s.tasks.table

theorem unexpired_of_proper {event : TaskEvent} {c : ClaimedTask} (hproper : s.Proper l)
    (hcall : W.call? s l = some event) (hclaim : s.main.claim? = some c)
    (hstale : s.tasks.Stale c event.clock) (hin : HandsIn c event.call) :
    s.Unexpired c event.clock := by
  cases l with
  | reject time report =>
      simp only [ExternalCaseWorker.call?] at hcall
      split at hcall
      · obtain rfl := Option.some.inj hcall
        exact absurd hstale (hproper c hclaim)
      · cases hcall
  | settle time report =>
      simp only [ExternalCaseWorker.call?] at hcall
      split at hcall
      · obtain rfl := Option.some.inj hcall
        exact hproper c hclaim
      · cases hcall
  | handle time report =>
      simp only [ExternalCaseWorker.call?] at hcall
      split at hcall
      · obtain rfl := Option.some.inj hcall
        exact hproper c hclaim
      · cases hcall
  | beat time =>
      simp only [ExternalCaseWorker.call?] at hcall
      split at hcall
      · obtain rfl := Option.some.inj hcall
        cases hin
      · cases hcall
  | claim time token =>
      simp only [ExternalCaseWorker.call?] at hcall
      split_ifs at hcall with hmain
      rw [hmain] at hclaim
      cases hclaim
  | _ => cases hcall

/-- A step of the round that does not find its claim current leaves the task as it is. -/
theorem Sound.row_step (h : Sound s) (hproper : s.Proper l) (hown : own l = true)
    {c : ClaimedTask} (hclaim : s.main.claim? = some c)
    (hstale : ∀ event, W.call? s l = some event → s.tasks.Stale c event.clock)
    (hstep : s.step W l = some t) : t.row c = s.row c := by
  cases stepCases hstep with
  | other event hl =>
      rw [hl] at hown
      cases hown
  | call event hl he ht =>
      have hcall := W.call_of_claim hl hclaim
      rw [ht, row, tasks_answered]
      exact (h.tracked.stepFenced he).lookup (hstale event hl) hcall fun hredis hin ↦
        unexpired_of_proper hproper hl hclaim (hstale event hl) hin hredis
  | inside hl hother ht => rw [row, row, ht]

/-! ## The round goes on and ends -/

/-- A step of the thread of `run_once`. -/
def ofMain : WorkerStep → Bool
  | .claim .. | .check _ | .reject .. | .execute .. | .settle .. | .handle .. | .look => true
  | _ => false

theorem exists_lists (transport : TaskTransport) : ∃ order, transport.Lists order := by
  cases transport with
  | inMemory s => exact ⟨[], trivial⟩
  | sqlite s => exact ⟨[], trivial⟩
  | redis s => exact ⟨s.leased, List.Perm.refl _⟩

/-- The next call of the round can be made. -/
theorem isSome_step_of_call (clock : Time) (order : List String) (call : TaskCall)
    (hcall : W.call? s l = some ⟨clock, order, call⟩)
    (hlists : s.tasks.transport.Lists order) (htoken : call.newToken = none)
    (hstep : s.step W l = (W.call? s l).bind fun event ↦ (s.tasks.step event).map fun tasks ↦
      ({ s with tasks := tasks } : WorkerRound).answered (s.tasks.outcome event) l) :
    (s.step W l).isSome = true := by
  have hpossible : s.tasks.Possible ⟨clock, order, call⟩ := by
    refine ⟨hlists, ?_⟩
    rw [htoken]
    intro _ h
    cases h
  have htasks := TransportState.step_eq_some.mpr ⟨hpossible, rfl⟩
  rw [hstep, hcall, Option.bind_some, htasks]
  rfl

/-- The thread is never stuck. -/
theorem goesOn {c : ClaimedTask} (hclaim : s.main.claim? = some c) (hrank : 0 < s.main.rank) :
    ∃ l, ofMain l = true ∧ (s.step W l).isSome = true := by
  obtain ⟨order, horder⟩ := exists_lists s.tasks.transport
  cases hmain : s.main with
  | claiming =>
      rw [hmain] at hclaim
      cases hclaim
  | idle =>
      rw [hmain] at hclaim
      cases hclaim
  | checking c =>
      refine ⟨.check true, rfl, ?_⟩
      simp only [step, hmain]
      rfl
  | rejecting c =>
      refine ⟨.reject ⟨0, order⟩ ⟨"", "", 0⟩, rfl, ?_⟩
      refine isSome_step_of_call 0 order (.fail c (W.result c "failed" ⟨"", "", 0⟩)) ?_ horder
        rfl rfl
      simp only [ExternalCaseWorker.call?, hmain]
  | executing c =>
      refine ⟨.execute none true, rfl, ?_⟩
      simp only [step, hmain]
      rfl
  | settling c ok =>
      refine ⟨.settle ⟨0, order⟩ ⟨"", "", 0⟩, rfl, ?_⟩
      refine isSome_step_of_call 0 order (W.settlement c ok ⟨"", "", 0⟩) ?_ horder
        (by cases ok <;> rfl) rfl
      simp only [ExternalCaseWorker.call?, hmain]
  | handling c =>
      refine ⟨.handle ⟨0, order⟩ ⟨"", "", 0⟩, rfl, ?_⟩
      refine isSome_step_of_call 0 order (.fail c (W.result c "failed" ⟨"", "", 0⟩)) ?_ horder
        rfl rfl
      simp only [ExternalCaseWorker.call?, hmain]
  | refused c =>
      refine ⟨.look, rfl, ?_⟩
      simp only [step, hmain]
      rfl
  | returned c =>
      rw [hmain] at hrank
      cases hrank
  | raised c =>
      rw [hmain] at hrank
      cases hrank

theorem rank_answered {event : TaskEvent} (hcall : W.call? s l = some event)
    (hmain : ofMain l = true) (out : TaskOutcome) :
    (s.answered out l).main.rank < s.main.rank := by
  cases l with
  | claim time token =>
      simp only [ExternalCaseWorker.call?] at hcall
      split_ifs at hcall with hs
      simp only [answered, hs]
      cases issuedClaim out <;> simp [RoundStage.rank]
  | reject time report =>
      simp only [ExternalCaseWorker.call?] at hcall
      split at hcall
      · next c hs => cases out <;> simp [answered, hs, RoundStage.rank]
      · cases hcall
  | settle time report =>
      simp only [ExternalCaseWorker.call?] at hcall
      split at hcall
      · next c ok hs => cases out <;> simp [answered, finish, hs, RoundStage.rank]
      · cases hcall
  | handle time report =>
      simp only [ExternalCaseWorker.call?] at hcall
      split at hcall
      · next c hs =>
          cases out with
          | ok reply => simp [answered, finish, hs, RoundStage.rank]
          | error e => cases e <;> simp [answered, finish, hs, RoundStage.rank]
      · cases hcall
  | _ => cases hmain <;> cases hcall

/-- Every step of the thread brings it nearer to its end. -/
theorem rank_step (hmain : ofMain l = true) (hstep : s.step W l = some t) :
    t.main.rank < s.main.rank := by
  cases l with
  | check passes =>
      simp only [step] at hstep
      split at hstep
      · next c hs =>
          obtain rfl := Option.some.inj hstep
          cases passes <;> simp [hs, RoundStage.rank]
      · cases hstep
  | execute ok fenceCurrent =>
      simp only [step] at hstep
      split at hstep
      · next c hs =>
          cases ok with
          | none =>
              obtain rfl := Option.some.inj hstep
              simp [hs, RoundStage.rank]
          | some ok =>
              obtain rfl := Option.some.inj hstep
              rw [hs]
              dsimp only
              split_ifs <;> simp [RoundStage.rank]
      · cases hstep
  | look =>
      simp only [step] at hstep
      split at hstep
      · next c hs =>
          obtain rfl := Option.some.inj hstep
          cases s.leaseLost <;> simp [finish, hs, RoundStage.rank]
      · cases hstep
  | claim | reject | settle | handle =>
      obtain ⟨event, hevent, hrest⟩ := Option.bind_eq_some_iff.mp hstep
      obtain ⟨tasks, -, rfl⟩ := Option.map_eq_some_iff.mp hrest
      exact rank_answered (s := { s with tasks := tasks }) hevent hmain _
  | other | wake | beat | judge => cases hmain

/-- A claim that is gone stays so, whatever is done. -/
theorem gone_of_reach {c : ClaimedTask} (h : Sound s) (hissued : c ∈ s.tasks.issued)
    (hgone : s.tasks.Gone c) (hreach : Machine.Reach (step W) Machine.anyStep s t) :
    t.tasks.Gone c := by
  have hkept := hreach.invariant (I := fun t ↦ t.tasks.Tracked ∧
    t.tasks.transport.backend.durable = true ∧ c ∈ t.tasks.issued ∧ t.tasks.Gone c)
    ⟨h.tracked, h.durable, hissued, hgone⟩ ?_
  · exact hkept.2.2.2
  rintro u l v ⟨htracked, hdurable, hissued, hgone⟩ - hstep
  have hafter : ∀ event, u.tasks.Possible event → v.tasks = u.tasks.after event →
      v.tasks.Tracked ∧ v.tasks.transport.backend.durable = true ∧ c ∈ v.tasks.issued ∧
        v.tasks.Gone c := by
    intro event he ht
    rw [ht]
    refine ⟨htracked.after he (TransportState.keepsTask_of_durable hdurable), ?_,
      List.mem_append_left _ hissued, hgone.after htracked hissued he⟩
    exact (congrArg TaskBackend.durable (TaskTransport.backend_exec ..)).trans hdurable
  cases stepCases hstep with
  | other event hl he ht => exact hafter event he (by rw [ht])
  | call event hl he ht => exact hafter event he (by rw [ht, tasks_answered])
  | inside hl hother ht =>
      rw [ht]
      exact ⟨htracked, hdurable, hissued, hgone⟩

/-! ## Losing a lease -/

/-- What a lost lease can do to a round: nothing.  It raises no exception, it is never stuck and
comes to its end, and from the loss on it leaves the task alone. -/
structure Unharmed (W : ExternalCaseWorker) (s : WorkerRound) : Prop where
  survives : ∀ c, s.main ≠ .raised c
  goesOn : ∀ c, s.main.claim? = some c → 0 < s.main.rank →
    ∃ l, ofMain l = true ∧ (s.step W l).isSome = true
  ends : ∀ l t, ofMain l = true → s.step W l = some t → t.main.rank < s.main.rank
  /-- A call that finds the claim stale leaves the row of the task as it is. -/
  spares : ∀ c, s.main.claim? = some c → ∀ l t, own l = true → s.Proper l →
    s.step W l = some t →
    (∀ event, W.call? s l = some event → s.tasks.Stale c event.clock) → t.row c = s.row c
  /-- Once its task is not leased under it any more, a claim is stale for ever. -/
  lost : ∀ c, s.main.claim? = some c → s.tasks.Gone c →
    ∀ t, Machine.Reach (step W) Machine.anyStep s t → ∀ now, t.tasks.Stale c now

/-- **Losing a lease does no harm** along every run in which the checks fail only while the claim
is current, the loss is seen by a heartbeat before the second handler looks, and Redis finds no
expired lease of the task when the round hands in a result. -/
theorem lost_lease_harmless (W : ExternalCaseWorker) (backend : TaskBackend)
    (hdurable : backend.durable = true) (tasks : TransportState)
    (htasks : Machine.Reach TransportState.step Machine.anyStep (.start backend) tasks)
    (s : WorkerRound) (hreach : Machine.Reach (step W) Proper (start tasks) s) :
    Unharmed W s := by
  have hbackend : tasks.transport.backend = backend := by
    refine htasks.invariant (I := fun tasks ↦ tasks.transport.backend = backend)
      (TaskTransport.backend_empty backend) ?_
    intro u e v hu _ hstep
    obtain ⟨-, rfl⟩ := TransportState.step_eq_some.mp hstep
    exact (TaskTransport.backend_exec ..).trans hu
  have hstart : Sound (start tasks) := by
    refine ⟨TransportState.tracked_of_reach hdurable htasks, ?_, ?_, ?_⟩
    · exact (congrArg TaskBackend.durable hbackend).trans hdurable
    · intro c hc
      cases hc
    · intro c hc
      cases hc
  have hsound : Sound s := hreach.invariant hstart fun _ _ _ h hproper hstep ↦ h.step hproper hstep
  constructor
  · exact hsound.survives
  · exact fun c hclaim hrank ↦ goesOn hclaim hrank
  · exact fun l t hmain hstep ↦ rank_step hmain hstep
  · exact fun c hclaim l t hown hproper hstep hstale ↦
      hsound.row_step hproper hown hclaim hstale hstep
  · exact fun c hclaim hgone t hlater now ↦
      (gone_of_reach hsound (hsound.issued c hclaim) hgone hlater).stale now

/-! ## A lease that expires during the round -/

instance (s : TransportState) (c : ClaimedTask) (now : Time) : Decidable (s.Stale c now) :=
  inferInstanceAs (Decidable (∀ r ∈ s.table, _ → _ → _ ∨ _))

instance (s : WorkerRound) (c : ClaimedTask) (now : Time) : Decidable (s.Unexpired c now) :=
  inferInstanceAs (Decidable (_ → ∀ r ∈ s.tasks.table, _ → _))

instance (s : WorkerRound) : DecidablePred s.Proper
  | .reject time _ =>
      inferInstanceAs (Decidable (∀ c ∈ s.main.claim?, ¬ s.tasks.Stale c time.clock))
  | .settle time _ | .handle time _ =>
      inferInstanceAs (Decidable (∀ c ∈ s.main.claim?, s.Unexpired c time.clock))
  | .look => inferInstanceAs (Decidable (s.leaseLost = true))
  | .other _ | .claim .. | .check _ | .execute .. | .wake | .beat _ | .judge .. =>
      instDecidableTrue

/-- A worker for one task at a time that claims for ten seconds. -/
def tenSecondWorker : ExternalCaseWorker := ⟨TransportState.oneTask, 10⟩

/-- One Case task without retries is submitted. -/
def caseSubmitted : TransportState :=
  (TransportState.start .sqlite).after
    ⟨0, [], .submit { TransportState.plainTask 0 with taskType := "project_case" }⟩

/-- The claim of that task, at time 0. -/
def caseClaim : ClaimedTask :=
  ⟨{ TransportState.plainTask 0 with taskType := "project_case" }, "worker", "0a", 1, 10⟩

def noReport : WorkerReport := ⟨"", "", 0⟩

/-- After its expiry a heartbeat sees that the lease is lost, before the Case is over. -/
def lossSeen : List WorkerStep :=
  [.claim ⟨0, []⟩ "0a", .check true, .wake, .beat ⟨20, []⟩, .judge true true,
    .execute (some true) true, .handle ⟨20, []⟩ noReport, .look]

theorem lossSeen_run : (Machine.run (Machine.guarded (step tenSecondWorker) Proper)
    (start caseSubmitted) lossSeen).any (·.main = .returned caseClaim) = true := by
  decide +kernel

theorem lost_lease_harmless_seen : ∃ s : WorkerRound,
    s.main = .returned caseClaim ∧ Unharmed tenSecondWorker s := by
  obtain ⟨s, hs, hreturned⟩ := (Option.any_eq_true _ _).mp lossSeen_run
  refine ⟨s, of_decide_eq_true hreturned, ?_⟩
  refine lost_lease_harmless tenSecondWorker .sqlite rfl caseSubmitted ?_ s
    (Machine.reach_of_run hs)
  exact Machine.Reach.single trivial
    (TransportState.step_eq_some.mpr ⟨(by decide), rfl⟩)

/-- The lease expires after the checks have failed, or before the result is handed in and before
a heartbeat: the round ends with an exception. -/
theorem lost_lease_raises :
    (Machine.run (step tenSecondWorker) (start caseSubmitted)
      [.claim ⟨0, []⟩ "0a", .check false, .reject ⟨20, []⟩ noReport]).any
        (·.main = .raised caseClaim) = true ∧
    (Machine.run (step tenSecondWorker) (start caseSubmitted)
      [.claim ⟨0, []⟩ "0a", .check true, .execute (some true) true, .settle ⟨20, []⟩ noReport,
        .handle ⟨20, []⟩ noReport, .look]).any (·.main = .raised caseClaim) = true := by
  constructor
  · decide +kernel
  · decide +kernel

end WorkerRound

end Blackbase.Project

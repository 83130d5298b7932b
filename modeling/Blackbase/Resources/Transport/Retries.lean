import Blackbase.Resources.Transport.Fencing

/-!
# Bounded retries

In a run whose callers present the claims they were handed (`Genuine`), the attempt
counter of a task is the number of claims handed out for it (`Counted`).  A task with
`r` retries is therefore claimed at most `r + 1` times as long as every requeue looks at
the counter.  The in-memory recovery does not (`ForgetsBound`), and
`bounded_retries_iff` says that nothing else goes wrong.
-/

namespace Blackbase.Resources

/-- The claim a call presents. -/
def TaskCall.presents : TaskCall → Option ClaimedTask
  | .heartbeatTask c _ | .complete c _ | .fail c _ => some c
  | _ => none

theorem TaskCall.presents_of_finish? {call : TaskCall} {claim : ClaimedTask}
    {status : TaskStatus} {allowRetry : Bool}
    (h : call.finish? = some (claim, status, allowRetry)) : call.presents = some claim := by
  cases call with
  | complete c result | fail c result =>
      obtain ⟨rfl, -⟩ := Prod.mk.inj (Option.some.inj h)
      rfl
  | _ => cases h

theorem TaskCall.finish?_of_recovers {call : TaskCall} (h : call.recovers) :
    call.finish? = none := by
  cases call with
  | complete c result | fail c result => cases h
  | _ => rfl

/-! ## Attempts under one call -/

section Rows

variable {backend : TaskBackend} {now : Time} {t t' : TaskTable} {call : TaskCall}
  {out : TaskOutcome} {issued : Option ClaimedTask} {r r' : TaskState}

/-- The attempt counter grows by one exactly if the call hands out a claim on the task. -/
theorem Evolves.attempt (h : Evolves backend now call issued r r') :
    r'.attempt = r.attempt + issued.toList.countP (·.task.taskId = r.taskId) := by
  cases h with
  | same h hother =>
      cases issued with
      | none => simp [h]
      | some c => simp [h, hother c rfl]
  | recovered _ _ h hother =>
      cases issued with
      | none => simp [h]
      | some c => simp [h, hother c rfl]
  | claimed c _ hissued h =>
      have hid : c.task.taskId = r.task.taskId := by
        rw [h.issued_taskId, TaskBackend.recover_taskId]
      simp [hissued, hid, h.attempt]
  | moved hissued h =>
      subst hissued
      cases h with
      | extended claim h => simpa using h.attempt
      | finished claim status allowRetry hcall hid h => simpa using h.attempt
      | cancelled h => simpa using h.attempt

/-- The task may be handed out once more when it is queued, and has been handed out at
most once more than it has retries. -/
structure TaskState.WithinRetries (r : TaskState) : Prop where
  attempt : r.attempt ≤ r.task.maxRetries + 1
  queued : r.status = .queued → r.attempt ≤ r.task.maxRetries

theorem TaskState.withinRetries_new (task : TaskEnvelope) (now : Time) :
    (TaskState.new task now).WithinRetries := ⟨Nat.zero_le _, fun _ ↦ Nat.zero_le _⟩

/-- A durable recovery looks at the counter. -/
theorem TaskBackend.recover_status (hdurable : backend.durable = true) (h : r.expired now) :
    (backend.recover now r).status =
      if r.attempt ≤ r.task.maxRetries then .queued else .failed := by
  simp [recover, h, hdurable, TaskState.recovered]

/-- The in-memory recovery does not. -/
theorem TaskBackend.recover_inMemory_status (h : r.expired now) :
    (inMemory.recover now r).status = .queued := by
  simp [recover, h, durable, TaskState.requeued]

/-- The recovery keeps a task within its retries, unless it is the in-memory one and the
last claim has expired. -/
theorem TaskState.WithinRetries.recover (h : r.WithinRetries)
    (hok : backend.durable = true ∨ (r.expired now → r.attempt ≤ r.task.maxRetries)) :
    (backend.recover now r).WithinRetries := by
  by_cases he : r.expired now
  · refine ⟨by simpa using h.attempt, fun hqueued ↦ ?_⟩
    rw [TaskBackend.recover_attempt, TaskBackend.recover_task]
    rcases hok with hdurable | hok
    · rw [TaskBackend.recover_status hdurable he] at hqueued
      by_contra hnot
      rw [if_neg hnot] at hqueued
      cases hqueued
    · exact hok he
  · rw [TaskBackend.recover_of_not_expired he]
    exact h

/-- A finished claim that records the task and its counter as they are keeps the task
within its retries. -/
theorem TaskState.Finishes.withinRetries {claim : ClaimedTask} {status : TaskStatus}
    {allowRetry : Bool} (h : r.Finishes backend claim now status allowRetry r')
    (hr : r.WithinRetries) (hfinal : status.final = true) (htask : claim.task = r.task)
    (hattempt : claim.attempt = r.attempt) : r'.WithinRetries := by
  have hkeeps : r'.task = r.task := by
    rw [h.task, htask, ite_self]
  refine ⟨by rw [h.attempt, hkeeps]; exact hr.attempt, fun hqueued ↦ ?_⟩
  rw [h.attempt, hkeeps]
  rw [h.status, hattempt, htask] at hqueued
  split at hqueued
  · next hretry =>
      simp only [Bool.and_eq_true, decide_eq_true_eq] at hretry
      exact hretry.2
  · rw [hqueued] at hfinal
    cases hfinal

/-- A recovery that ends a task leaves it ended, whatever the call does next. -/
theorem Does.recover_final (h : Does backend now t call out t') (hcall : call.recovers)
    (hu : Rows.Unique TaskState.taskId t) (hr : r ∈ t)
    (hfinal : (backend.recover now r).status.final = true) : backend.recover now r ∈ t' := by
  have hmem : backend.recover now r ∈ TaskTable.recover backend now t := List.mem_map_of_mem hr
  have hrecover := TaskTable.recover_unique backend now hu
  cases h with
  | recovered => exact hmem
  | unclaimed => exact hmem
  | claimed worker leaseSeconds taskTypes namespaces c r₀ f h hclaims =>
      refine (Rows.mem_update hrecover h).mpr (.inr ⟨hmem, fun hid ↦ ?_⟩)
      rw [hrecover.eq_of_key hmem (Rows.mem_of_lookup h) hid, hclaims.queued] at hfinal
      cases hfinal
  | refused call e h | recoveredRefusal call e h =>
      rw [TaskCall.finish?_of_recovers hcall] at h
      cases h
  | finished call claim status allowRetry r₀ f hfinish =>
      rw [TaskCall.finish?_of_recovers hcall] at hfinish
      cases hfinish
  | _ => cases hcall

/-- A claim that is handed out is on a task of the table. -/
theorem Effect.issued_mem (h : Effect backend now t call issued t')
    (hu : Rows.Unique TaskState.taskId t) {c : ClaimedTask} (hc : issued = some c) :
    ∃ r ∈ t', r.taskId = c.task.taskId := by
  cases h with
  | claimed c' r f _ h hclaims =>
      obtain rfl := Option.some.inj hc
      have hrecover := TaskTable.recover_unique backend now hu
      exact ⟨f r, (Rows.mem_update hrecover h).mpr (.inl rfl),
        hclaims.taskId.trans hclaims.issued_taskId.symm⟩
  | _ => cases hc

/-- An accepted result finishes its task. -/
theorem Does.finished_mem {reply : TaskReply} {claim : ClaimedTask} {status : TaskStatus}
    {allowRetry : Bool} (h : Does backend now t call (.ok reply) t')
    (hcall : call.finish? = some (claim, status, allowRetry))
    (hu : Rows.Unique TaskState.taskId t) (hr : r ∈ t) (hid : claim.task.taskId = r.taskId) :
    ∃ r' ∈ t', r'.taskId = r.taskId ∧ r.Finishes backend claim now status allowRetry r' := by
  cases h with
  | finished call claim' status' allowRetry' r₀ f hfinish h hfinishes =>
      obtain ⟨rfl, rfl, rfl⟩ : claim' = claim ∧ status' = status ∧ allowRetry' = allowRetry := by
        simpa using hfinish.symm.trans hcall
      obtain rfl := hu.eq_of_key (Rows.mem_of_lookup h) hr ((Rows.key_of_lookup h).trans hid)
      have hmoves : Moves backend now call r₀ (f r₀) := .finished _ _ _ hcall hid hfinishes
      exact ⟨f r₀, (Rows.mem_update hu h).mpr (.inl rfl), hmoves.taskId, hfinishes⟩
  | _ => cases hcall

/-- The in-memory recovery never ends a task. -/
theorem Evolves.inMemory_not_failed (h : Evolves .inMemory now call issued r r')
    (hcall : call.recovers) (hexpired : r.expired now) : r'.status ≠ .failed := by
  have hleased := (TaskState.expired_iff.mp hexpired).1
  cases h with
  | same h =>
      rw [h, hleased]
      nofun
  | recovered _ _ h =>
      rw [h, TaskBackend.recover_inMemory_status hexpired]
      nofun
  | claimed c _ hissued h =>
      rw [h.leased]
      nofun
  | moved hissued h =>
      cases h with
      | extended claim h =>
          rw [h.leased]
          nofun
      | finished claim status allowRetry hfinish =>
          rw [TaskCall.finish?_of_recovers hcall] at hfinish
          cases hfinish
      | cancelled h =>
          rw [h.cancelled]
          nofun

end Rows

namespace TransportState

variable {s t : TransportState} {e : TaskEvent}

/-! ## Counting claims -/

/-- A caller presents a claim it was handed. -/
def Genuine (s : TransportState) (e : TaskEvent) : Prop :=
  ∀ claim ∈ e.call.presents, claim ∈ s.issued

instance (s : TransportState) (e : TaskEvent) : Decidable (s.Genuine e) :=
  inferInstanceAs (Decidable (∀ claim ∈ e.call.presents, claim ∈ s.issued))

/-- How often a task has been claimed. -/
def claimsOf (s : TransportState) (taskId : String) : ℕ :=
  s.issued.countP (·.task.taskId = taskId)

/-- The attempt counters count the claims. -/
structure Counted (s : TransportState) : Prop extends s.Tracked where
  counted : ∀ r ∈ s.table, s.claimsOf r.taskId = r.attempt
  known : ∀ c ∈ s.issued, ∃ r ∈ s.table, r.taskId = c.task.taskId

theorem counted_start (backend : TaskBackend) : (start backend).Counted where
  toTracked := tracked_start backend
  counted r hr := by
    have h : r ∈ (TaskTransport.empty backend).table := hr
    simp at h
  known c hc := by
    have h : c ∈ ([] : List ClaimedTask) := hc
    cases h

/-- A genuine claim that is active on a task is the one the task is leased under. -/
theorem Tracked.holds_of_active (h : s.Tracked) {claim : ClaimedTask} {now : Time}
    {r : TaskState} (hr : r ∈ s.table) (hclaim : claim ∈ s.issued)
    (hactive : r.claimIsActive claim now) : claim.Holds r := by
  obtain ⟨hleased, -, htoken, -⟩ := TaskState.claimIsActive_iff.mp hactive
  obtain ⟨c, hc, hholds⟩ := h.leased r hr hleased
  have hsame : claim = c :=
    List.inj_on_of_nodup_map h.tokens hclaim hc (htoken.symm.trans hholds.token.symm)
  rw [hsame]
  exact hholds

theorem Tracked.holds_of_finish (h : s.Tracked) (hg : s.Genuine e) {claim : ClaimedTask}
    {status : TaskStatus} {allowRetry : Bool}
    (hcall : e.call.finish? = some (claim, status, allowRetry)) {r : TaskState}
    (hr : r ∈ s.table) (hactive : r.claimIsActive claim e.clock) : claim.Holds r :=
  h.holds_of_active hr (hg claim (TaskCall.presents_of_finish? hcall)) hactive

theorem Tracked.keepsTask (h : s.Tracked) (hg : s.Genuine e) : s.KeepsTask e :=
  fun _ _ _ hcall _ hr hactive ↦ .inr (h.holds_of_finish hg hcall hr hactive).task

theorem claimsOf_after (s : TransportState) (e : TaskEvent) (taskId : String) :
    (s.after e).claimsOf taskId =
      s.claimsOf taskId + (issuedClaim (s.outcome e)).toList.countP (·.task.taskId = taskId) :=
  List.countP_append

theorem Counted.after (h : s.Counted) (he : s.Possible e) (hg : s.Genuine e) :
    (s.after e).Counted := by
  have heffect := h.effect he
  refine ⟨h.toTracked.after he (h.keepsTask hg), fun r' hr' ↦ ?_, fun c hc ↦ ?_⟩
  · rw [claimsOf_after]
    rcases heffect.backward h.unique hr' with ⟨r, hr, hevolves⟩ | ⟨task, rfl, hissued, hnone⟩
    · rw [hevolves.attempt, hevolves.taskId, h.counted r hr]
    · have hzero : s.claimsOf task.taskId = 0 := by
        refine List.countP_eq_zero.mpr fun c hc hid ↦ ?_
        obtain ⟨r, hr, hrid⟩ := h.known c hc
        exact Rows.lookup_eq_none.mp hnone r hr (hrid.trans (of_decide_eq_true hid))
      rw [hissued]
      exact hzero
  · rcases List.mem_append.mp hc with hc | hc
    · obtain ⟨r, hr, hid⟩ := h.known c hc
      obtain ⟨r', hr', hevolves⟩ := heffect.forward h.unique hr
      exact ⟨r', hr', hevolves.taskId.trans hid⟩
    · exact heffect.issued_mem h.unique (Option.mem_toList.mp hc)

/-! ## The bound -/

/-- Every task is within its retries. -/
structure Bounded (s : TransportState) : Prop extends s.Counted where
  within : ∀ r ∈ s.table, r.WithinRetries

theorem bounded_start (backend : TaskBackend) : (start backend).Bounded where
  toCounted := counted_start backend
  within r hr := by
    have h : r ∈ (TaskTransport.empty backend).table := hr
    simp at h

/-- The step that goes wrong: an in-memory recovery, alone or before a claim, that finds
the last claim of a task expired.  It queues the task again whatever its counter says. -/
def ForgetsBound (s : TransportState) (e : TaskEvent) : Prop :=
  s.transport.backend = .inMemory ∧ e.call.recovers ∧
    ∃ r ∈ s.table, r.expired e.clock ∧ r.task.maxRetries < r.attempt

/-- What the retry bound asks of one step. -/
structure BoundedStep (s : TransportState) (e : TaskEvent) : Prop where
  /-- No task is claimed more often than its retries allow. -/
  claims : ∀ r ∈ (s.after e).table, (s.after e).claimsOf r.taskId ≤ r.task.maxRetries + 1
  /-- A task that is under its last claim is not queued again. -/
  requeue : ∀ r ∈ s.table, r.status = .leased → r.task.maxRetries < s.claimsOf r.taskId →
    ∀ r' ∈ (s.after e).table, r'.taskId = r.taskId → r'.status ≠ .queued
  /-- When the last claim fails, the task has failed. -/
  fails : ∀ r ∈ s.table, r.status = .leased → r.task.maxRetries < s.claimsOf r.taskId →
    ∀ claim result record, e.call = .fail claim result → claim.task.taskId = r.taskId →
      s.outcome e = .ok (.record record) →
      ∀ r' ∈ (s.after e).table, r'.taskId = r.taskId → r'.status = .failed
  /-- When the last claim has expired and a call recovers it, the task has failed. -/
  expires : ∀ r ∈ s.table, r.expired e.clock → r.task.maxRetries < s.claimsOf r.taskId →
    e.call.recovers → ∀ r' ∈ (s.after e).table, r'.taskId = r.taskId → r'.status = .failed

/-- One task after a step, found by its id. -/
theorem Tracked.row_after (h : s.Tracked) (he : s.Possible e) {r r' : TaskState}
    (hr : r ∈ s.table) (hr' : r' ∈ (s.after e).table) (hid : r'.taskId = r.taskId) :
    Evolves s.transport.backend e.clock e.call (issuedClaim (s.outcome e)) r r' := by
  have heffect := h.effect he
  obtain ⟨r'', hr'', hevolves⟩ := heffect.forward h.unique hr
  rwa [(heffect.unique h.unique).eq_of_key hr' hr'' (hid.trans hevolves.taskId.symm)]

/-- A recovery of the step looks at the counter. -/
theorem recovery_ok (hgood : ¬ s.ForgetsBound e) {r : TaskState} (hr : r ∈ s.table)
    (hcall : s.transport.backend.durable ∨ e.call.recovers) :
    s.transport.backend.durable = true ∨ (r.expired e.clock → r.attempt ≤ r.task.maxRetries) := by
  by_cases hdurable : s.transport.backend.durable = true
  · exact .inl hdurable
  · refine .inr fun hexpired ↦ not_lt.mp fun hlt ↦ hgood ⟨?_, ?_, r, hr, hexpired, hlt⟩
    · cases hbackend : s.transport.backend <;> simp [hbackend, TaskBackend.durable] at hdurable ⊢
    · exact hcall.resolve_left hdurable

/-- One task under a step that does not forget the bound. -/
theorem Bounded.within_after (h : s.Bounded) (hg : s.Genuine e) (hgood : ¬ s.ForgetsBound e)
    {r r' : TaskState} (hr : r ∈ s.table)
    (hevolves : Evolves s.transport.backend e.clock e.call (issuedClaim (s.outcome e)) r r') :
    r'.WithinRetries := by
  have hwithin := h.within r hr
  cases hevolves with
  | same h => exact h ▸ hwithin
  | recovered hcall _ h =>
      rw [h]
      exact hwithin.recover (recovery_ok hgood hr hcall)
  | claimed c hcall hissued h =>
      have hrecovered := (hwithin.recover (recovery_ok hgood hr (.inr hcall))).queued h.queued
      refine ⟨?_, fun hqueued ↦ ?_⟩
      · rw [h.attempt, h.task]
        exact Nat.succ_le_succ hrecovered
      · rw [h.leased] at hqueued
        cases hqueued
  | moved hissued hmoves =>
      cases hmoves with
      | extended claim h =>
          refine ⟨by rw [h.attempt, h.task]; exact hwithin.attempt, fun hqueued ↦ ?_⟩
          rw [h.leased] at hqueued
          cases hqueued
      | finished claim status allowRetry hcall hid hfinishes =>
          have hholds := h.holds_of_finish hg hcall hr hfinishes.active
          exact hfinishes.withinRetries hwithin (TaskCall.finish?_final hcall) hholds.task
            (hholds.attempt)
      | cancelled h =>
          refine ⟨by rw [h.attempt, h.task]; exact hwithin.attempt, fun hqueued ↦ ?_⟩
          rw [h.cancelled] at hqueued
          cases hqueued

theorem Bounded.after (h : s.Bounded) (he : s.Possible e) (hg : s.Genuine e)
    (hgood : ¬ s.ForgetsBound e) : (s.after e).Bounded := by
  refine ⟨h.toCounted.after he hg, fun r' hr' ↦ ?_⟩
  rcases (h.effect he).backward h.unique hr' with ⟨r, hr, hevolves⟩ | ⟨task, rfl, -, -⟩
  · exact h.within_after hg hgood hr hevolves
  · exact TaskState.withinRetries_new task e.clock

/-- A step that does not forget the bound keeps it. -/
theorem Bounded.step (h : s.Bounded) (he : s.Possible e) (hg : s.Genuine e)
    (hgood : ¬ s.ForgetsBound e) : s.BoundedStep e := by
  have hafter := h.after he hg hgood
  refine ⟨fun r hr ↦ ?_, fun r hr hleased hlast r' hr' hid ↦ ?_,
    fun r hr hleased hlast claim result record hcall hclaim hout r' hr' hid ↦ ?_,
    fun r hr hexpired hlast hcall r' hr' hid ↦ ?_⟩
  · rw [hafter.counted r hr]
    exact (hafter.within r hr).attempt
  · rw [h.counted r hr] at hlast
    have hevolves := h.row_after he hr hr' hid
    have htask := (h.keepsTask hg).task hr hevolves
    have hle : r.attempt ≤ r'.attempt := hevolves.attempt ▸ Nat.le_add_right _ _
    intro hqueued
    have hretries := (hafter.within r' hr').queued hqueued
    rw [htask] at hretries
    omega
  · rw [h.counted r hr] at hlast
    have hfinish : e.call.finish? = some (claim, .failed, true) := by
      rw [hcall]
      rfl
    have hdoes := h.does he
    rw [hout] at hdoes
    obtain ⟨r'', hr'', hid'', hfinishes⟩ := hdoes.finished_mem hfinish h.unique hr hclaim
    have hholds := h.holds_of_finish hg hfinish hr hfinishes.active
    rw [hafter.unique.eq_of_key hr' hr'' (hid.trans hid''.symm), hfinishes.status, hholds.task,
      hholds.attempt, if_neg (by simpa using hlast)]
  · rw [h.counted r hr] at hlast
    have hstatus : (s.transport.backend.recover e.clock r).status = .failed := by
      rw [TaskBackend.recover_status _ hexpired, if_neg (not_le.mpr hlast)]
      exact (recovery_ok hgood hr (.inr hcall)).resolve_right fun h ↦
        not_le.mpr hlast (h hexpired)
    have hmem := (h.does he).recover_final hcall h.unique hr (by rw [hstatus]; rfl)
    rw [hafter.unique.eq_of_key hr' hmem (hid.trans (TaskBackend.recover_taskId r).symm)]
    exact hstatus

/-- A step that forgets the bound breaks it: the task is queued or claimed again. -/
theorem ForgetsBound.not_boundedStep (hbad : s.ForgetsBound e) (h : s.Counted)
    (he : s.Possible e) : ¬ s.BoundedStep e := by
  obtain ⟨hbackend, hcall, r, hr, hexpired, hlast⟩ := hbad
  intro hbounded
  obtain ⟨r', hr', hevolves⟩ := (h.effect he).forward h.unique hr
  have hfailed := hbounded.expires r hr hexpired (by rwa [h.counted r hr]) hcall r' hr'
    hevolves.taskId
  rw [hbackend] at hevolves
  exact hevolves.inMemory_not_failed hcall hexpired hfailed

/-- **Exactly when the retries of a task are bounded.**  Over any run in which callers
present claims they were handed, every step keeps the bound if and only if no step is an
in-memory recovery that finds a last claim expired.  On SQLite and Redis no step is. -/
theorem bounded_retries_iff (backend : TaskBackend) (events : List TaskEvent) :
    (∀ before e s t, before ++ [e] <+: events →
        Machine.run (Machine.guarded step Genuine) (start backend) before = some s →
        Machine.guarded step Genuine s e = some t → s.BoundedStep e) ↔
      ∀ before e s t, before ++ [e] <+: events →
        Machine.run (Machine.guarded step Genuine) (start backend) before = some s →
        Machine.guarded step Genuine s e = some t → ¬ s.ForgetsBound e := by
  have hguarded : ∀ {s t e}, Machine.guarded step Genuine s e = some t →
      s.Genuine e ∧ s.Possible e ∧ t = s.after e := by
    intro s t e h
    unfold Machine.guarded at h
    split at h
    · next hg => exact ⟨hg, step_eq_some.mp h⟩
    · cases h
  refine Machine.forall_step_iff (bounded_start backend) (fun s e t h hgood hstep ↦ ?_)
    (fun s e t h hstep ↦ ?_) events
  · obtain ⟨hg, he, rfl⟩ := hguarded hstep
    exact h.after he hg hgood
  · obtain ⟨hg, he, -⟩ := hguarded hstep
    exact ⟨fun hbounded hbad ↦ hbad.not_boundedStep h.toCounted he hbounded,
      fun hgood ↦ h.step he hg hgood⟩

/-- A task without retries is submitted in memory, claimed, and claimed again when the
claim has expired. -/
def claimedTwice : List TaskEvent := [submission 0, tenSeconds 0 "0a", tenSeconds 20 "0b"]

/-- The task without retries has been handed out twice. -/
theorem inMemory_claims_again :
    (Machine.run (Machine.guarded step Genuine) (start .inMemory) claimedTwice).map
        (fun s ↦ (s.submitted.map (·.maxRetries), s.claimsOf "task")) = some ([0], 2) := by
  decide +kernel

end TransportState

end Blackbase.Resources

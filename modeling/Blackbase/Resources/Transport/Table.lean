import Blackbase.Resources.Transport.Model

/-!
# What a transport does to its tasks

The three transports keep the same table, the stored states of the submitted tasks, and
each call changes it in one of a few ways.  `Does` says for each call what it may answer
and how the table changes with that answer; `Effect` forgets which call it was.

The table is the common abstraction: each transport is shown to do nothing else, and the
properties of runs are read off `Does` and `Effect`.
-/

namespace Blackbase.Resources

/-- The transport a table belongs to. -/
inductive TaskBackend where
  | inMemory
  | sqlite
  | redis
deriving DecidableEq, Repr

/-- The transports whose tasks outlive a process. -/
def TaskBackend.durable : TaskBackend → Bool
  | .inMemory => false
  | .sqlite | .redis => true

/-- A lease dropped without a result: what the in-memory recovery does. -/
def TaskState.requeued (now : Time) (r : TaskState) : TaskState :=
  { r with
    status := .queued
    workerId := ""
    leaseToken := ""
    leaseExpiresAt := 0
    result := none
    error := "task lease expired"
    updatedAt := now }

/-- What the recovery of each transport makes of a task. -/
def TaskBackend.recover (backend : TaskBackend) (now : Time) (r : TaskState) : TaskState :=
  if r.expired now then
    if backend.durable then r.recovered now else r.requeued now
  else r

/-- The stored states of the submitted tasks. -/
abbrev TaskTable := List TaskState

/-- The number of tasks a worker holds. -/
def TaskTable.heldBy (t : TaskTable) (workerId : String) : ℕ :=
  t.countP fun r ↦ r.status = .leased ∧ r.workerId = workerId

/-- The table after the recovery. -/
def TaskTable.recover (backend : TaskBackend) (now : Time) (t : TaskTable) : TaskTable :=
  t.map (backend.recover now)

/-- The envelope an accepted call submits. -/
def acceptedTask : TaskCall → TaskOutcome → Option TaskEnvelope
  | .submit task, .ok _ => some task
  | _, _ => none

/-! ## Rewrites of one task -/

/-- A task `r` under the claim `c`. -/
structure ClaimedTask.Holds (c : ClaimedTask) (r : TaskState) : Prop where
  task : c.task = r.task
  worker : c.workerId = r.workerId
  token : c.leaseToken = r.leaseToken
  attempt : c.attempt = r.attempt

/-- A queued task is claimed. -/
structure TaskState.Claims (c : ClaimedTask) (r r' : TaskState) : Prop where
  queued : r.status = .queued
  task : r'.task = r.task
  leased : r'.status = .leased
  holds : c.Holds r'
  attempt : r'.attempt = r.attempt + 1

/-- A lease is extended. -/
structure TaskState.Extends (claim : ClaimedTask) (now : Time) (r r' : TaskState) : Prop where
  active : r.claimIsActive claim now
  task : r'.task = r.task
  leased : r'.status = .leased
  worker : r'.workerId = r.workerId
  token : r'.leaseToken = r.leaseToken
  attempt : r'.attempt = r.attempt

/-- A claim is given up with a result. -/
structure TaskState.Finishes (backend : TaskBackend) (claim : ClaimedTask) (now : Time)
    (status : TaskStatus) (allowRetry : Bool) (r r' : TaskState) : Prop where
  active : r.claimIsActive claim now
  attempt : r'.attempt = r.attempt
  status : r'.status =
    if allowRetry && decide (claim.attempt ≤ claim.task.maxRetries) then .queued else status
  /-- The in-memory transport stores the envelope of the claim. -/
  task : r'.task = if backend.durable then r.task else claim.task

/-- A task is cancelled. -/
structure TaskState.Cancels (backend : TaskBackend) (r r' : TaskState) : Prop where
  live : if backend.durable then r.status = .queued else r.status.final = false
  task : r'.task = r.task
  cancelled : r'.status = .cancelled
  attempt : r'.attempt = r.attempt

/-! ## Calls -/

/-- The claim a call finishes, with the state it asks for and whether a retry is allowed. -/
def TaskCall.finish? : TaskCall → Option (ClaimedTask × TaskStatus × Bool)
  | .complete c _ => some (c, .succeeded, false)
  | .fail c _ => some (c, .failed, true)
  | _ => none

/-- The call recovers the expired leases, alone or before it claims a task. -/
def TaskCall.recovers : TaskCall → Bool
  | .recoverExpired | .claim .. => true
  | _ => false

section Does

variable (backend : TaskBackend) (now : Time)

/-- What a call may answer, and what it does to the table. -/
inductive Does (t : TaskTable) : TaskCall → TaskOutcome → TaskTable → Prop
  | read (taskId : String) (r : Option TaskRecord) : Does t (.get taskId) (.ok (.found r)) t
  | rejected (task : TaskEnvelope) (e : TransportError) : Does t (.submit task) (.error e) t
  | resubmitted (r : TaskState) (h : r ∈ t) :
      Does t (.submit r.task) (.ok (.record r.toTaskRecord)) t
  | submitted (task : TaskEnvelope) (h : Rows.lookup TaskState.taskId task.taskId t = none) :
      Does t (.submit task) (.ok (.record (TaskState.new task now).toTaskRecord))
        (t ++ [.new task now])
  | recovered (n : ℕ) :
      Does t .recoverExpired (.ok (.count n)) (TaskTable.recover backend now t)
  | unclaimed (worker : WorkerDescriptor) (leaseSeconds : Time)
      (taskTypes namespaces : List String) (token : String) :
      Does t (.claim worker leaseSeconds taskTypes namespaces token) (.ok (.claimed none))
        (TaskTable.recover backend now t)
  | claimed (worker : WorkerDescriptor) (leaseSeconds : Time)
      (taskTypes namespaces : List String) (c : ClaimedTask) (r : TaskState)
      (f : TaskState → TaskState)
      (h : Rows.lookup TaskState.taskId r.taskId (TaskTable.recover backend now t) = some r)
      (hclaims : r.Claims c (f r)) (hworker : c.workerId = worker.workerId)
      (hheld : TaskTable.heldBy (TaskTable.recover backend now t) worker.workerId <
        worker.maxInflight) :
      Does t (.claim worker leaseSeconds taskTypes namespaces c.leaseToken)
        (.ok (.claimed (some c)))
        (Rows.update TaskState.taskId r.taskId f (TaskTable.recover backend now t))
  | missed (claim : ClaimedTask) (leaseSeconds : Time) :
      Does t (.heartbeatTask claim leaseSeconds) (.ok (.flag false)) t
  | extended (claim : ClaimedTask) (leaseSeconds : Time) (r : TaskState)
      (f : TaskState → TaskState)
      (h : Rows.lookup TaskState.taskId claim.task.taskId t = some r)
      (hextends : r.Extends claim now (f r)) :
      Does t (.heartbeatTask claim leaseSeconds) (.ok (.flag true))
        (Rows.update TaskState.taskId claim.task.taskId f t)
  | refused (call : TaskCall) (e : TransportError) (h : call.finish?.isSome) :
      Does t call (.error e) t
  | recoveredRefusal (call : TaskCall) (e : TransportError) (h : call.finish?.isSome)
      (hredis : backend = .redis) : Does t call (.error e) (TaskTable.recover backend now t)
  | finished (call : TaskCall) (claim : ClaimedTask) (status : TaskStatus) (allowRetry : Bool)
      (r : TaskState) (f : TaskState → TaskState)
      (hcall : call.finish? = some (claim, status, allowRetry))
      (h : Rows.lookup TaskState.taskId claim.task.taskId t = some r)
      (hfinishes : r.Finishes backend claim now status allowRetry (f r)) :
      Does t call (.ok (.record (f r).toTaskRecord))
        (Rows.update TaskState.taskId claim.task.taskId f t)
  | uncancelled (taskId reason : String) :
      Does t (.cancel taskId reason) (.ok (.flag false)) t
  | cancelled (taskId reason : String) (r : TaskState) (f : TaskState → TaskState)
      (h : Rows.lookup TaskState.taskId taskId t = some r)
      (hcancels : r.Cancels backend (f r)) :
      Does t (.cancel taskId reason) (.ok (.flag true))
        (Rows.update TaskState.taskId taskId f t)

/-- A rewrite of one task that is not a claim. -/
inductive Moves (call : TaskCall) (r r' : TaskState) : Prop
  | extended (claim : ClaimedTask) (h : r.Extends claim now r')
  | finished (claim : ClaimedTask) (status : TaskStatus) (allowRetry : Bool)
      (hcall : call.finish? = some (claim, status, allowRetry))
      (hid : claim.task.taskId = r.taskId)
      (h : r.Finishes backend claim now status allowRetry r')
  | cancelled (h : r.Cancels backend r')

/-- How a call may change the table, with the claim it hands out. -/
inductive Effect (t : TaskTable) (call : TaskCall) : Option ClaimedTask → TaskTable → Prop
  | same : Effect t call none t
  | recovered (hcall : backend.durable ∨ call.recovers) :
      Effect t call none (TaskTable.recover backend now t)
  | submitted (task : TaskEnvelope) (h : Rows.lookup TaskState.taskId task.taskId t = none) :
      Effect t call none (t ++ [.new task now])
  | claimed (c : ClaimedTask) (r : TaskState) (f : TaskState → TaskState)
      (hcall : call.recovers)
      (h : Rows.lookup TaskState.taskId r.taskId (TaskTable.recover backend now t) = some r)
      (hclaims : r.Claims c (f r)) :
      Effect t call (some c)
        (Rows.update TaskState.taskId r.taskId f (TaskTable.recover backend now t))
  | moved (taskId : String) (r : TaskState) (f : TaskState → TaskState)
      (h : Rows.lookup TaskState.taskId taskId t = some r)
      (hmoves : Moves backend now call r (f r)) :
      Effect t call none (Rows.update TaskState.taskId taskId f t)

end Does

variable {backend : TaskBackend} {now : Time} {t t' : TaskTable} {call : TaskCall}
  {out : TaskOutcome}

theorem Does.effect (h : Does backend now t call out t') :
    Effect backend now t call (issuedClaim out) t' := by
  cases h with
  | read | rejected | resubmitted | missed | refused | uncancelled => exact .same
  | submitted task h => exact .submitted task h
  | recovered | unclaimed => exact .recovered (.inr rfl)
  | recoveredRefusal call e h hredis => exact .recovered (.inl (hredis ▸ rfl))
  | claimed worker leaseSeconds taskTypes namespaces c r f h hclaims =>
      exact .claimed c r f rfl h hclaims
  | extended claim leaseSeconds r f h hextends => exact .moved _ r f h (.extended claim hextends)
  | finished call claim status allowRetry r f hcall h hfinishes =>
      exact .moved _ r f h
        (.finished claim status allowRetry hcall (Rows.key_of_lookup h).symm hfinishes)
  | cancelled taskId reason r f h hcancels => exact .moved _ r f h (.cancelled hcancels)

/-! ## The recovery -/

theorem TaskState.expired_iff {r : TaskState} :
    r.expired now = true ↔ r.status = .leased ∧ r.leaseExpiresAt ≤ now := by
  simp [expired]

theorem TaskState.claimIsActive_iff {r : TaskState} {claim : ClaimedTask} :
    r.claimIsActive claim now = true ↔ r.status = .leased ∧ r.workerId = claim.workerId ∧
      r.leaseToken = claim.leaseToken ∧ now < r.leaseExpiresAt := by
  simp [claimIsActive, and_assoc]

namespace TaskBackend

theorem recover_of_not_expired {r : TaskState} (h : ¬ r.expired now) :
    backend.recover now r = r := if_neg h

theorem recover_of_not_leased {r : TaskState} (h : r.status ≠ .leased) :
    backend.recover now r = r :=
  recover_of_not_expired fun he ↦ h (TaskState.expired_iff.mp he).1

@[simp] theorem recover_task (r : TaskState) : (backend.recover now r).task = r.task := by
  unfold recover
  split
  · split <;> rfl
  · rfl

@[simp] theorem recover_attempt (r : TaskState) :
    (backend.recover now r).attempt = r.attempt := by
  unfold recover
  split
  · split <;> rfl
  · rfl

/-- The recovery leaves a task leased exactly if its lease has not expired. -/
theorem recover_leased {r : TaskState} (h : (backend.recover now r).status = .leased) :
    backend.recover now r = r ∧ r.status = .leased := by
  by_cases he : r.expired now
  · exfalso
    rw [recover, if_pos he] at h
    split at h
    · simp only [TaskState.recovered] at h
      split at h <;> cases h
    · cases h
  · rw [recover_of_not_expired he] at h ⊢
    exact ⟨rfl, h⟩

end TaskBackend

theorem TaskTable.recover_unique (backend : TaskBackend) (now : Time)
    (h : Rows.Unique TaskState.taskId t) :
    Rows.Unique TaskState.taskId (TaskTable.recover backend now t) :=
  h.map fun r ↦ by simp [TaskState.taskId]

/-! ## One task under a call -/

theorem Moves.taskId {r r' : TaskState} (h : Moves backend now call r r') :
    r'.taskId = r.taskId := by
  cases h with
  | extended claim h => exact congrArg TaskEnvelope.taskId h.task
  | finished claim status allowRetry hcall hid h =>
      rw [TaskState.taskId, h.task]
      split
      · rfl
      · exact hid
  | cancelled h => exact congrArg TaskEnvelope.taskId h.task

theorem Moves.not_final {r r' : TaskState} (h : Moves backend now call r r') :
    r.status.final = false := by
  cases h with
  | extended claim h =>
      rw [(TaskState.claimIsActive_iff.mp h.active).1]
      rfl
  | finished claim status allowRetry hcall hid h =>
      rw [(TaskState.claimIsActive_iff.mp h.active).1]
      rfl
  | cancelled h =>
      have hlive := h.live
      split at hlive
      · rw [hlive]
        rfl
      · exact hlive

theorem TaskCall.finish?_final {claim : ClaimedTask} {status : TaskStatus} {allowRetry : Bool}
    (h : call.finish? = some (claim, status, allowRetry)) : status.final = true := by
  cases call with
  | complete c result =>
      obtain ⟨-, rfl, -⟩ : c = claim ∧ _ ∧ _ := by simpa [TaskCall.finish?] using h
      rfl
  | fail c result =>
      obtain ⟨-, rfl, -⟩ : c = claim ∧ _ ∧ _ := by simpa [TaskCall.finish?] using h
      rfl
  | _ => cases h

/-- How a call that hands out `issued` may change one task. -/
inductive Evolves (backend : TaskBackend) (now : Time) (call : TaskCall)
    (issued : Option ClaimedTask) (r r' : TaskState) : Prop
  | same (h : r' = r) (hother : ∀ c ∈ issued, c.task.taskId ≠ r.taskId)
  | recovered (hcall : backend.durable ∨ call.recovers) (hexpired : r.expired now)
      (h : r' = backend.recover now r) (hother : ∀ c ∈ issued, c.task.taskId ≠ r.taskId)
  | claimed (c : ClaimedTask) (hcall : call.recovers) (hissued : issued = some c)
      (h : (backend.recover now r).Claims c r')
  | moved (hissued : issued = none) (h : Moves backend now call r r')

theorem TaskState.Claims.taskId {c : ClaimedTask} {r r' : TaskState} (h : r.Claims c r') :
    r'.taskId = r.taskId := congrArg TaskEnvelope.taskId h.task

theorem TaskState.Claims.issued_taskId {c : ClaimedTask} {r r' : TaskState} (h : r.Claims c r') :
    c.task.taskId = r.taskId := by
  rw [h.holds.task]
  exact h.taskId

theorem TaskBackend.recover_taskId (r : TaskState) :
    (backend.recover now r).taskId = r.taskId := by
  rw [TaskState.taskId, recover_task]

theorem Evolves.taskId {issued : Option ClaimedTask} {r r' : TaskState}
    (h : Evolves backend now call issued r r') : r'.taskId = r.taskId := by
  cases h with
  | same h => rw [h]
  | recovered _ _ h => rw [h, TaskBackend.recover_taskId]
  | claimed c _ hissued h => rw [h.taskId, TaskBackend.recover_taskId]
  | moved hissued h => exact h.taskId

/-- A final task stays as it is. -/
theorem Evolves.final {issued : Option ClaimedTask} {r r' : TaskState}
    (h : Evolves backend now call issued r r') (hfinal : r.status.final) : r' = r := by
  have hnot : r.status ≠ .leased := fun hl ↦ by
    rw [hl] at hfinal
    cases hfinal
  cases h with
  | same h => exact h
  | recovered _ hexpired => exact absurd (TaskState.expired_iff.mp hexpired).1 hnot
  | claimed c _ hissued h =>
      have hqueued := h.queued
      rw [TaskBackend.recover_of_not_leased hnot] at hqueued
      rw [hqueued] at hfinal
      cases hfinal
  | moved hissued h =>
      rw [h.not_final] at hfinal
      cases hfinal

/-- A task that is leased after a call is held by the claim the call hands out, or was
leased before and is held by the same claims. -/
theorem Evolves.leased {issued : Option ClaimedTask} {r r' : TaskState}
    (h : Evolves backend now call issued r r') (hleased : r'.status = .leased) :
    (r.status = .leased ∧ r'.leaseToken = r.leaseToken ∧ r'.attempt = r.attempt ∧
      ∀ c : ClaimedTask, c.Holds r → c.Holds r') ∨
    ∃ c, issued = some c ∧ c.Holds r' := by
  cases h with
  | same h => exact .inl ⟨h ▸ hleased, by rw [h], by rw [h], fun c hc ↦ h ▸ hc⟩
  | recovered _ hexpired h =>
      rw [h] at hleased ⊢
      obtain ⟨hsame, hr⟩ := TaskBackend.recover_leased hleased
      rw [hsame]
      exact .inl ⟨hr, rfl, rfl, fun _ hc ↦ hc⟩
  | claimed c _ hissued h => exact .inr ⟨c, hissued, h.holds⟩
  | moved hissued h =>
      cases h with
      | extended claim h =>
          refine .inl ⟨(TaskState.claimIsActive_iff.mp h.active).1, h.token, h.attempt,
            fun c hc ↦ ⟨?_, ?_, ?_, ?_⟩⟩
          · rw [hc.task, h.task]
          · rw [hc.worker, h.worker]
          · rw [hc.token, h.token]
          · rw [hc.attempt, h.attempt]
      | finished claim status allowRetry hcall hid h =>
          have hfinal := TaskCall.finish?_final hcall
          rw [h.status] at hleased
          split at hleased
          · cases hleased
          · rw [hleased] at hfinal
            cases hfinal
      | cancelled h =>
          rw [h.cancelled] at hleased
          cases hleased

theorem evolves_recover {issued : Option ClaimedTask} (r : TaskState)
    (hcall : backend.durable ∨ call.recovers)
    (hother : ∀ c ∈ issued, c.task.taskId ≠ r.taskId) :
    Evolves backend now call issued r (backend.recover now r) := by
  by_cases he : r.expired now
  · exact .recovered hcall he rfl hother
  · exact .same (TaskBackend.recover_of_not_expired he) hother

/-- A claim that is handed out carries the token of the call. -/
theorem Does.issued (h : Does backend now t call out t') {c : ClaimedTask}
    (hc : issuedClaim out = some c) :
    ∃ worker leaseSeconds taskTypes namespaces,
      call = .claim worker leaseSeconds taskTypes namespaces c.leaseToken := by
  cases h with
  | claimed worker leaseSeconds taskTypes namespaces c' r f h hclaims hworker =>
      obtain rfl := Option.some.inj hc
      exact ⟨worker, leaseSeconds, taskTypes, namespaces, rfl⟩
  | _ => cases hc

/-- A claim that is handed out keeps its worker within what the worker allows. -/
theorem Does.inflight {worker : WorkerDescriptor} {leaseSeconds : Time}
    {taskTypes namespaces : List String} {token : String} {c : ClaimedTask}
    (h : Does backend now t (.claim worker leaseSeconds taskTypes namespaces token)
      (.ok (.claimed (some c))) t') (hu : Rows.Unique TaskState.taskId t) :
    t'.heldBy worker.workerId ≤ worker.maxInflight := by
  cases h with
  | claimed _ _ _ _ _ r f h hclaims hworker hheld =>
      exact (Rows.countP_update_le (TaskTable.recover_unique _ _ hu) h _).trans hheld

/-- An accepted envelope has a task. -/
theorem Does.accepted (h : Does backend now t call out t') {task : TaskEnvelope}
    (htask : acceptedTask call out = some task) : ∃ r ∈ t', r.task = task := by
  cases h with
  | resubmitted r h =>
      obtain rfl := Option.some.inj htask
      exact ⟨r, h, rfl⟩
  | submitted task h =>
      obtain rfl := Option.some.inj htask
      exact ⟨_, List.mem_append_right _ (List.mem_singleton_self _), rfl⟩
  | refused call e h | recoveredRefusal call e h => cases call <;> cases htask
  | finished call claim status allowRetry r f hcall =>
      cases call with
      | complete | fail => cases htask
      | _ => cases hcall
  | _ => cases htask

section Effect

variable {issued : Option ClaimedTask}

/-- No call makes two tasks share an id. -/
theorem Effect.unique (h : Effect backend now t call issued t')
    (hu : Rows.Unique TaskState.taskId t) : Rows.Unique TaskState.taskId t' := by
  have hrecover := TaskTable.recover_unique backend now hu
  cases h with
  | same => exact hu
  | recovered => exact hrecover
  | submitted task h => exact hu.append h
  | claimed c r f _ h hclaims => exact hrecover.update_row h hclaims.taskId
  | moved taskId r f h hmoves => exact hu.update_row h (hmoves.taskId.trans (Rows.key_of_lookup h))

/-- Every task is still there after a call, and has evolved. -/
theorem Effect.forward (h : Effect backend now t call issued t')
    (hu : Rows.Unique TaskState.taskId t) {r : TaskState} (hr : r ∈ t) :
    ∃ r' ∈ t', Evolves backend now call issued r r' := by
  have hrecover := TaskTable.recover_unique backend now hu
  have hmem : backend.recover now r ∈ TaskTable.recover backend now t := List.mem_map_of_mem hr
  cases h with
  | same => exact ⟨r, hr, .same rfl nofun⟩
  | recovered hcall => exact ⟨_, hmem, evolves_recover r hcall nofun⟩
  | submitted task h => exact ⟨r, List.mem_append_left _ hr, .same rfl nofun⟩
  | claimed c r₀ f hcall h hclaims =>
      by_cases hid : r.taskId = r₀.taskId
      · have hr₀ : backend.recover now r = r₀ :=
          hrecover.eq_of_key hmem (Rows.mem_of_lookup h)
            ((TaskBackend.recover_taskId r).trans hid)
        refine ⟨f r₀, (Rows.mem_update hrecover h).mpr (.inl rfl), .claimed c hcall rfl ?_⟩
        rw [hr₀]
        exact hclaims
      · refine ⟨backend.recover now r, (Rows.mem_update hrecover h).mpr (.inr ⟨hmem, ?_⟩),
          evolves_recover r (.inr hcall) ?_⟩
        · rw [TaskBackend.recover_taskId]
          exact hid
        · rintro c' hc'
          obtain rfl := Option.some.inj hc'
          rw [hclaims.issued_taskId]
          exact fun h ↦ hid h.symm
  | moved taskId r₀ f h hmoves =>
      by_cases hid : r.taskId = taskId
      · obtain rfl := hu.eq_of_key hr (Rows.mem_of_lookup h)
          (hid.trans (Rows.key_of_lookup h).symm)
        exact ⟨f r, (Rows.mem_update hu h).mpr (.inl rfl), .moved rfl hmoves⟩
      · exact ⟨r, (Rows.mem_update hu h).mpr (.inr ⟨hr, hid⟩), .same rfl nofun⟩

/-- Every task after a call was there before and has evolved, or was submitted by it. -/
theorem Effect.backward (h : Effect backend now t call issued t')
    (hu : Rows.Unique TaskState.taskId t) {r' : TaskState} (hr' : r' ∈ t') :
    (∃ r ∈ t, Evolves backend now call issued r r') ∨
      ∃ task, r' = .new task now ∧ issued = none ∧
        Rows.lookup TaskState.taskId task.taskId t = none := by
  by_cases hold : ∃ r ∈ t, r.taskId = r'.taskId
  · obtain ⟨r, hr, hid⟩ := hold
    obtain ⟨r'', hr'', hevolves⟩ := h.forward hu hr
    obtain rfl := (h.unique hu).eq_of_key hr'' hr' (hevolves.taskId.trans hid)
    exact .inl ⟨r, hr, hevolves⟩
  · right
    have hnot : ∀ r ∈ t, r.taskId ≠ r'.taskId := fun r hr hid ↦ hold ⟨r, hr, hid⟩
    have hrecover := TaskTable.recover_unique backend now hu
    have hnotRecovered : r' ∉ TaskTable.recover backend now t := by
      intro hmem
      obtain ⟨r, hr, rfl⟩ := List.mem_map.mp hmem
      exact hnot r hr (TaskBackend.recover_taskId r).symm
    cases h with
    | same => exact absurd rfl (hnot r' hr')
    | recovered => exact absurd hr' hnotRecovered
    | submitted task h =>
        rcases List.mem_append.mp hr' with hr' | hr'
        · exact absurd rfl (hnot r' hr')
        · exact ⟨task, List.mem_singleton.mp hr', rfl, h⟩
    | claimed c r f _ h hclaims =>
        rcases (Rows.mem_update hrecover h).mp hr' with rfl | ⟨hmem, -⟩
        · obtain ⟨r₀, hr₀, rfl⟩ := List.mem_map.mp (Rows.mem_of_lookup h)
          refine absurd ?_ (hnot r₀ hr₀)
          rw [hclaims.taskId, TaskBackend.recover_taskId]
        · exact absurd hmem hnotRecovered
    | moved taskId r f h hmoves =>
        rcases (Rows.mem_update hu h).mp hr' with rfl | ⟨hmem, -⟩
        · exact absurd hmoves.taskId.symm (hnot r (Rows.mem_of_lookup h))
        · exact absurd rfl (hnot r' hmem)

end Effect

end Blackbase.Resources

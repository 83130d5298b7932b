import Blackbase.Core.Machine
import Blackbase.Resources.Transport.InMemoryTable
import Blackbase.Resources.Transport.RedisTable
import Blackbase.Resources.Transport.SQLiteTable

/-!
# Runs of a task transport

Any number of owners and workers call one transport.  Every call is one atomic step with
its own clock reading; a claim is presented as the caller has it, so it may be stale or
belong to another worker.  The state of a run also remembers which envelopes were
submitted and which claims were handed out, and a claim carries a token no earlier claim
carried (`uuid4`).

`task_transport_fencing` collects what holds in every state of a run of a durable
transport (`Fenced`) and for every step from there (`StepFenced`).
-/

namespace Blackbase.Resources

/-! ## The transports behind one interface -/

/-- The store of a transport. -/
inductive TaskTransport where
  | inMemory (s : InMemoryTasks)
  | sqlite (s : SQLiteTasks)
  | redis (s : RedisTasks)

namespace TaskTransport

/-- A store in which nothing has been submitted. -/
def empty : TaskBackend → TaskTransport
  | .inMemory => .inMemory .empty
  | .sqlite => .sqlite .empty
  | .redis => .redis .empty

/-- The transport a store belongs to. -/
def backend : TaskTransport → TaskBackend
  | .inMemory _ => .inMemory
  | .sqlite _ => .sqlite
  | .redis _ => .redis

/-- The stored states of the submitted tasks. -/
def table : TaskTransport → TaskTable
  | .inMemory s => s.table
  | .sqlite s => s.table
  | .redis s => s.table

/-- One call, as one atomic step; `order` is how `SMEMBERS` lists the leased ids. -/
def exec (transport : TaskTransport) (now : Time) (order : List String) (call : TaskCall) :
    TaskOutcome × TaskTransport :=
  match transport with
  | .inMemory s => ((s.exec now call).1, .inMemory (s.exec now call).2)
  | .sqlite s => ((s.exec now call).1, .sqlite (s.exec now call).2)
  | .redis s => ((s.exec now order call).1, .redis (s.exec now order call).2)

/-- `order` lists the leased ids; only Redis asks for them. -/
def Lists (transport : TaskTransport) (order : List String) : Prop :=
  match transport with
  | .inMemory _ | .sqlite _ => True
  | .redis s => order.Perm s.leased

instance (transport : TaskTransport) (order : List String) : Decidable (transport.Lists order) :=
  match transport with
  | .inMemory _ => instDecidableTrue
  | .sqlite _ => instDecidableTrue
  | .redis s => inferInstanceAs (Decidable (order.Perm s.leased))

/-- The representation is well-formed. -/
def Wf : TaskTransport → Prop
  | .inMemory s => s.Wf
  | .sqlite s => s.Wf
  | .redis s => s.Wf

theorem wf_empty (backend : TaskBackend) : (empty backend).Wf := by
  cases backend with
  | inMemory => exact InMemoryTasks.wf_empty
  | sqlite => exact SQLiteTasks.wf_empty
  | redis => exact RedisTasks.wf_empty

@[simp] theorem table_empty (backend : TaskBackend) : (empty backend).table = [] := by
  cases backend <;> rfl

@[simp] theorem backend_empty (backend : TaskBackend) : (empty backend).backend = backend := by
  cases backend <;> rfl

@[simp] theorem backend_exec (transport : TaskTransport) (now : Time) (order : List String)
    (call : TaskCall) : (transport.exec now order call).2.backend = transport.backend := by
  cases transport <;> rfl

variable {transport : TaskTransport}

theorem Wf.unique (h : transport.Wf) : Rows.Unique TaskState.taskId transport.table := by
  cases transport with
  | inMemory s => exact InMemoryTasks.Wf.unique h
  | sqlite s => exact h
  | redis s => exact RedisTasks.Wf.unique h

theorem Wf.exec_does (h : transport.Wf) (now : Time) {order : List String}
    (horder : transport.Lists order) (call : TaskCall) :
    Does transport.backend now transport.table call (transport.exec now order call).1
      (transport.exec now order call).2.table := by
  cases transport with
  | inMemory s => exact (InMemoryTasks.exec_performs h now call).does
  | sqlite s => exact SQLiteTasks.exec_does h now call
  | redis s => exact (RedisTasks.exec_performs h now horder call).does

end TaskTransport

theorem TaskTransport.Wf.exec_wf {transport : TaskTransport} (h : transport.Wf) (now : Time)
    {order : List String} (horder : transport.Lists order) (call : TaskCall) :
    (transport.exec now order call).2.Wf := by
  cases transport with
  | inMemory s => exact (InMemoryTasks.exec_performs h now call).wf
  | sqlite s => exact (SQLiteTasks.exec_does h now call).effect.unique h
  | redis s => exact (RedisTasks.exec_performs h now horder call).wf

/-! ## Runs -/

/-- The state of a run: the store, the claims handed out and the envelopes submitted. -/
structure TransportState where
  transport : TaskTransport
  issued : List ClaimedTask
  submitted : List TaskEnvelope

/-- One call, with the reading of the caller's clock and the order in which Redis lists
the leased ids. -/
structure TaskEvent where
  clock : Time
  order : List String
  call : TaskCall

/-- The token a call brings for the claim it may hand out. -/
def TaskCall.newToken : TaskCall → Option String
  | .claim _ _ _ _ token => some token
  | _ => none

namespace TransportState

/-- Nothing has been submitted. -/
def start (backend : TaskBackend) : TransportState := ⟨.empty backend, [], []⟩

/-- The stored states of the submitted tasks. -/
abbrev table (s : TransportState) : TaskTable := s.transport.table

/-- The answer to an event. -/
def outcome (s : TransportState) (e : TaskEvent) : TaskOutcome :=
  (s.transport.exec e.clock e.order e.call).1

/-- The event can happen: the order is a listing of the leased ids, and the token is
new. -/
def Possible (s : TransportState) (e : TaskEvent) : Prop :=
  s.transport.Lists e.order ∧
    ∀ token ∈ e.call.newToken, token ≠ "" ∧ token ∉ s.issued.map (·.leaseToken)

instance (s : TransportState) (e : TaskEvent) : Decidable (s.Possible e) :=
  inferInstanceAs (Decidable (_ ∧ _))

/-- The state after an event. -/
def after (s : TransportState) (e : TaskEvent) : TransportState where
  transport := (s.transport.exec e.clock e.order e.call).2
  issued := s.issued ++ (issuedClaim (s.outcome e)).toList
  submitted := s.submitted ++ (acceptedTask e.call (s.outcome e)).toList

/-- One step of a run. -/
def step (s : TransportState) (e : TaskEvent) : Option TransportState :=
  if s.Possible e then some (s.after e) else none

variable {s t : TransportState} {e : TaskEvent}

theorem step_eq_some : s.step e = some t ↔ s.Possible e ∧ t = s.after e := by
  unfold step
  split
  · next h => simp [h, eq_comm]
  · next h => simp [h]

/-- What the books of a run keep. -/
structure Tracked (s : TransportState) : Prop where
  wf : s.transport.Wf
  tokens : (s.issued.map (·.leaseToken)).Nodup
  /-- A leased task is held by one of the claims handed out. -/
  leased : ∀ r ∈ s.table, r.status = .leased → ∃ c ∈ s.issued, c.Holds r
  submitted : ∀ task ∈ s.submitted, ∃ r ∈ s.table, r.task = task

theorem tracked_start (backend : TaskBackend) : (start backend).Tracked where
  wf := TaskTransport.wf_empty backend
  tokens := List.nodup_nil
  leased r hr := by
    have h : r ∈ (TaskTransport.empty backend).table := hr
    simp at h
  submitted := by simp [start]

theorem Tracked.unique (h : s.Tracked) : Rows.Unique TaskState.taskId s.table := h.wf.unique

theorem Tracked.does (h : s.Tracked) (he : s.Possible e) :
    Does s.transport.backend e.clock s.table e.call (s.outcome e) (s.after e).table :=
  h.wf.exec_does e.clock he.1 e.call

theorem Tracked.effect (h : s.Tracked) (he : s.Possible e) :
    Effect s.transport.backend e.clock s.table e.call (issuedClaim (s.outcome e))
      (s.after e).table := (h.does he).effect

/-- A finished claim leaves the envelope of its task as it is: the durable transports
never write it, and a claim that was handed out carries it. -/
def KeepsTask (s : TransportState) (e : TaskEvent) : Prop :=
  ∀ claim status allowRetry, e.call.finish? = some (claim, status, allowRetry) →
    ∀ r ∈ s.table, r.claimIsActive claim e.clock →
      s.transport.backend.durable = true ∨ claim.task = r.task

theorem keepsTask_of_durable (h : s.transport.backend.durable = true) : s.KeepsTask e :=
  fun _ _ _ _ _ _ _ ↦ .inl h

section Evolves

variable {issued : Option ClaimedTask} {r r' : TaskState}

/-- The envelope of a task does not change. -/
theorem KeepsTask.task (hk : s.KeepsTask e) (hr : r ∈ s.table)
    (h : Evolves s.transport.backend e.clock e.call issued r r') : r'.task = r.task := by
  cases h with
  | same h => rw [h]
  | recovered _ _ h => rw [h, TaskBackend.recover_task]
  | claimed c _ hissued h => rw [h.task, TaskBackend.recover_task]
  | moved hissued h =>
      cases h with
      | extended claim h => exact h.task
      | finished claim status allowRetry hcall hid h =>
          rw [h.task]
          split
          · rfl
          · next hnot =>
              exact (hk claim status allowRetry hcall r hr h.active).resolve_left hnot
      | cancelled h => exact h.task

end Evolves

/-- Every step keeps the books. -/
theorem Tracked.after (h : s.Tracked) (he : s.Possible e) (hk : s.KeepsTask e) :
    (s.after e).Tracked := by
  have heffect := h.effect he
  refine ⟨h.wf.exec_wf e.clock he.1 e.call, ?_, fun r' hr' hleased ↦ ?_, fun task htask ↦ ?_⟩
  · rw [TransportState.after, List.map_append]
    cases hissued : issuedClaim (s.outcome e) with
    | none => simpa using h.tokens
    | some c =>
        obtain ⟨worker, leaseSeconds, taskTypes, namespaces, hcall⟩ := (h.does he).issued hissued
        have hnew := (he.2 c.leaseToken (by rw [hcall]; rfl)).2
        refine List.Nodup.append h.tokens (by simp) fun token htoken hc ↦ hnew ?_
        obtain rfl : token = c.leaseToken := by simpa using hc
        exact htoken
  · rcases heffect.backward h.unique hr' with ⟨r, hr, hevolves⟩ | ⟨task, rfl, -, -⟩
    · rcases hevolves.leased hleased with ⟨hr', -, -, hholds⟩ | ⟨c, hissued, hc⟩
      · obtain ⟨c, hc, hheld⟩ := h.leased r hr hr'
        exact ⟨c, List.mem_append_left _ hc, hholds c hheld⟩
      · refine ⟨c, List.mem_append_right _ ?_, hc⟩
        rw [hissued]
        exact List.mem_singleton_self c
    · cases hleased
  · rcases List.mem_append.mp htask with htask | htask
    · obtain ⟨r, hr, rfl⟩ := h.submitted task htask
      obtain ⟨r', hr', hevolves⟩ := heffect.forward h.unique hr
      exact ⟨r', hr', hk.task hr hevolves⟩
    · refine (h.does he).accepted (Option.mem_toList.mp htask)

/-! ## Fencing -/

/-- The claim is not the one its task is leased under, or `now` has reached the expiry. -/
def Stale (s : TransportState) (claim : ClaimedTask) (now : Time) : Prop :=
  ∀ r ∈ s.table, r.taskId = claim.task.taskId → r.status = .leased →
    r.leaseToken ≠ claim.leaseToken ∨ r.leaseExpiresAt ≤ now

/-- What holds of the tasks in every state of a run. -/
structure Fenced (s : TransportState) : Prop where
  /-- A submitted task has one state, and so is in one of the five. -/
  recorded : ∀ task ∈ s.submitted, ∃ r ∈ s.table, r.task = task ∧
    ∀ r' ∈ s.table, r'.taskId = task.taskId → r' = r
  /-- A leased task carries the token of one claim. -/
  token : ∀ r ∈ s.table, r.status = .leased → ∃ c ∈ s.issued, c.Holds r ∧
    ∀ c' ∈ s.issued, c'.leaseToken = r.leaseToken → c' = c
  /-- The queue lists the queued tasks, each once. -/
  queue : ∀ keys, s.transport = .redis keys → keys.queue.Nodup ∧
    ∀ id, id ∈ keys.queue ↔ ∃ r ∈ s.table, r.taskId = id ∧ r.status = .queued
  /-- The leased set lists the leased tasks. -/
  leasedSet : ∀ keys, s.transport = .redis keys → keys.leased.Nodup ∧
    ∀ id, id ∈ keys.leased ↔ ∃ r ∈ s.table, r.taskId = id ∧ r.status = .leased

/-- What holds of the step an event makes. -/
structure StepFenced (s : TransportState) (e : TaskEvent) : Prop where
  /-- A stale claim extends nothing. -/
  heartbeat : ∀ claim leaseSeconds, e.call = .heartbeatTask claim leaseSeconds →
    s.Stale claim e.clock → s.outcome e = .ok (.flag false) ∧ (s.after e).table = s.table
  /-- A stale claim finishes nothing; on Redis its refusal may recover the expired leases. -/
  finish : ∀ claim status allowRetry, e.call.finish? = some (claim, status, allowRetry) →
    s.Stale claim e.clock → (∃ error, s.outcome e = .error error) ∧
      ((s.after e).table = s.table ∨ s.transport.backend = .redis ∧
        (s.after e).table = TaskTable.recover .redis e.clock s.table)
  /-- A final task keeps its state and its result. -/
  absorbing : ∀ r ∈ s.table, r.status.final → r ∈ (s.after e).table
  /-- A claim that is handed out keeps its worker within `max_inflight`. -/
  inflight : ∀ worker leaseSeconds taskTypes namespaces token c,
    e.call = .claim worker leaseSeconds taskTypes namespaces token →
    s.outcome e = .ok (.claimed (some c)) →
    (s.after e).table.heldBy worker.workerId ≤ worker.maxInflight

theorem not_stale {claim : ClaimedTask} {now : Time} {r : TaskState}
    (h : Rows.lookup TaskState.taskId claim.task.taskId s.table = some r)
    (hactive : r.claimIsActive claim now) : ¬ s.Stale claim now := by
  intro hstale
  obtain ⟨hleased, -, htoken, hlive⟩ := TaskState.claimIsActive_iff.mp hactive
  rcases hstale r (Rows.mem_of_lookup h) (Rows.key_of_lookup h) hleased with hne | hexp
  · exact hne htoken
  · exact not_le.mpr hlive hexp

theorem storedAs_iff {keys : RedisTasks} (h : keys.Wf) (status : TaskStatus) (id : String) :
    keys.StoredAs status id ↔ ∃ r ∈ keys.table, r.taskId = id ∧ r.status = status := by
  constructor
  · rintro ⟨r, hr, hstatus⟩
    obtain rfl := h.tasks.keyed id r hr
    exact ⟨r, h.tasks.mem_listed.mpr hr, rfl, hstatus⟩
  · rintro ⟨r, hr, rfl, hstatus⟩
    exact ⟨r, h.mem_table hr, hstatus⟩

theorem Tracked.fenced (h : s.Tracked) : s.Fenced where
  recorded task htask := by
    obtain ⟨r, hr, rfl⟩ := h.submitted task htask
    exact ⟨r, hr, rfl, fun r' hr' hid ↦ h.unique.eq_of_key hr' hr hid⟩
  token r hr hleased := by
    obtain ⟨c, hc, hholds⟩ := h.leased r hr hleased
    refine ⟨c, hc, hholds, fun c' hc' htoken ↦ ?_⟩
    exact List.inj_on_of_nodup_map h.tokens hc' hc (htoken.trans hholds.token.symm)
  queue keys hkeys := by
    have hwf : keys.Wf := by
      have hwf := h.wf
      rw [hkeys] at hwf
      exact hwf
    refine ⟨hwf.queue_nodup, fun id ↦ ?_⟩
    rw [hwf.queue_iff, storedAs_iff hwf, TransportState.table, hkeys]
    rfl
  leasedSet keys hkeys := by
    have hwf : keys.Wf := by
      have hwf := h.wf
      rw [hkeys] at hwf
      exact hwf
    refine ⟨hwf.leased_nodup, fun id ↦ ?_⟩
    rw [hwf.leased_iff, storedAs_iff hwf, TransportState.table, hkeys]
    rfl

theorem Tracked.stepFenced (h : s.Tracked) (he : s.Possible e) : s.StepFenced e where
  heartbeat claim leaseSeconds hcall hstale := by
    have hdoes := h.does he
    rw [hcall] at hdoes
    generalize s.outcome e = out at hdoes ⊢
    generalize (s.after e).table = t' at hdoes ⊢
    cases hdoes with
    | missed => exact ⟨rfl, rfl⟩
    | extended _ _ r f hr hextends => exact absurd hstale (not_stale hr hextends.active)
    | refused call error hcall => cases hcall
    | recoveredRefusal call error hcall => cases hcall
    | finished call claim status allowRetry r f hcall => cases hcall
  finish claim status allowRetry hcall hstale := by
    have hdoes := h.does he
    generalize s.outcome e = out at hdoes ⊢
    generalize (s.after e).table = t' at hdoes ⊢
    generalize e.call = call at hdoes hcall
    cases hdoes with
    | refused call error => exact ⟨⟨error, rfl⟩, .inl rfl⟩
    | recoveredRefusal call error _ hredis =>
        exact ⟨⟨error, rfl⟩, .inr ⟨hredis, by rw [hredis]⟩⟩
    | finished call claim' status' allowRetry' r f hcall' hr hfinishes =>
        obtain ⟨rfl, -⟩ := Prod.mk.inj (Option.some.inj (hcall'.symm.trans hcall))
        exact absurd hstale (not_stale hr hfinishes.active)
    | _ => cases hcall
  absorbing r hr hfinal := by
    obtain ⟨r', hr', hevolves⟩ := (h.effect he).forward h.unique hr
    rwa [← hevolves.final hfinal]
  inflight worker leaseSeconds taskTypes namespaces token c hcall hout := by
    have hdoes := h.does he
    rw [hcall, hout] at hdoes
    exact hdoes.inflight h.unique

theorem tracked_of_reach {backend : TaskBackend} (hdurable : backend.durable = true)
    (h : Machine.Reach step Machine.anyStep (start backend) s) : s.Tracked := by
  have hboth : s.Tracked ∧ s.transport.backend = backend := by
    refine h.invariant (I := fun s ↦ s.Tracked ∧ s.transport.backend = backend)
      ⟨tracked_start backend, TaskTransport.backend_empty backend⟩ ?_
    rintro s e t ⟨htracked, hbackend⟩ - hstep
    obtain ⟨he, rfl⟩ := step_eq_some.mp hstep
    refine ⟨htracked.after he (keepsTask_of_durable (by rw [hbackend]; exact hdurable)), ?_⟩
    exact (TaskTransport.backend_exec ..).trans hbackend
  exact hboth.1

/-- **Fencing of the durable transports.**  In every state of every run the submitted
tasks are in order, and every further call respects the fence of the leases. -/
theorem task_transport_fencing (backend : TaskBackend) (hdurable : backend.durable = true)
    (h : Machine.Reach step Machine.anyStep (start backend) s) :
    s.Fenced ∧ ∀ e, s.Possible e → s.StepFenced e :=
  have htracked := tracked_of_reach hdurable h
  ⟨htracked.fenced, fun _ he ↦ htracked.stepFenced he⟩

/-- A worker for one task at a time. -/
def oneTask : WorkerDescriptor where
  workerId := "worker"
  executorBackend := "thread"
  resourceBackend := "local"
  capabilities := []
  offer := .make 1 0 [] none none []
  maxInflight := 1
  status := "online"
  one_le_maxInflight := le_rfl

/-- A task with the given number of retries. -/
def plainTask (maxRetries : ℕ) : TaskEnvelope where
  taskId := "task"
  taskType := "task"
  nspace := "default"
  executorBackend := "auto"
  requirement := .make 1 0 "local" [] none none []
  maxRetries := maxRetries
  payload := ""

/-- The task is submitted at time 0. -/
def submission (maxRetries : ℕ) : TaskEvent := ⟨0, [], .submit (plainTask maxRetries)⟩

/-- The worker claims a task for ten seconds. -/
def tenSeconds (clock : Time) (token : String) : TaskEvent :=
  ⟨clock, [], .claim oneTask 10 [] [] token⟩

/-- The claim handed out at time 0. -/
def firstClaim (maxRetries : ℕ) : ClaimedTask := ⟨plainTask maxRetries, "worker", "0a", 1, 10⟩

/-- A task with one retry, under the first claim. -/
def claimedOnce : TransportState :=
  ((start .redis).after (submission 1)).after (tenSeconds 0 "0a")

/-- The claim is completed at time 20, ten seconds after its expiry. -/
def lateCompletion : TaskEvent :=
  ⟨20, ["task"], .complete (firstClaim 1) ⟨"task", "ok", "worker", "", 20, ""⟩⟩

theorem reach_claimedOnce : Machine.Reach step Machine.anyStep (start .redis) claimedOnce := by
  have hsubmit : (start .redis).Possible (submission 1) := by decide
  have hclaim : ((start .redis).after (submission 1)).Possible (tenSeconds 0 "0a") := by decide
  exact (Machine.Reach.single trivial (step_eq_some.mpr ⟨hsubmit, rfl⟩)).tail trivial
    (step_eq_some.mpr ⟨hclaim, rfl⟩)

theorem task_transport_fencing_claimedOnce :
    claimedOnce.Fenced ∧ ∀ e, claimedOnce.Possible e → claimedOnce.StepFenced e :=
  task_transport_fencing .redis rfl reach_claimedOnce

/-- A completion presented after the expiry is refused on Redis, and queues its task
again. -/
theorem lateCompletion_requeues :
    Machine.Reach step Machine.anyStep (start .redis) claimedOnce ∧
      claimedOnce.Possible lateCompletion ∧
      claimedOnce.table.map (fun r ↦ (r.status, r.leaseToken)) = [(.leased, "0a")] ∧
      (claimedOnce.table.all fun r ↦ r.leaseExpiresAt ≤ lateCompletion.clock) ∧
      (claimedOnce.after lateCompletion).table.map (fun r ↦ (r.status, r.leaseToken)) =
        [(.queued, "")] :=
  ⟨reach_claimedOnce, by decide +kernel, by decide +kernel, by decide +kernel, by decide +kernel⟩

end TransportState

end Blackbase.Resources

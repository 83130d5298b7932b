import Blackbase.Resources.Scheduler.Offers

/-!
# What the scheduler refuses

An acquire asks one worker, the first one that can run the task.  It succeeds just when that worker
has room for the task, with the device tokens that the task names or the first ones of the offer; it
never looks at the workers behind.
-/

namespace Blackbase.Resources.Scheduler

/-! ## Room on a worker -/

/-- The request fits beside the claims within an offer. -/
structure HasRoom (offer : ResourceOffer) (claims : List LeaseResources) (req : ResourceRequest) :
    Prop where
  threads : (claims.map (·.threadCount)).sum + req.threads ≤ offer.threads
  gpus : (claims.map (·.gpuCount)).sum + req.gpus ≤ offer.gpus
  memory : ∀ m ∈ asFloatOrNone offer.memoryMb,
    (claims.map (·.memory)).sum + req.memoryMb.getD 0 ≤ m

/-- The device token is held by none of the claims. -/
def Free (claims : List LeaseResources) (token : String) : Prop :=
  ∀ c ∈ claims, token ∉ c.deviceTokens

instance (claims : List LeaseResources) : DecidablePred (Free claims) := fun token ↦
  inferInstanceAs (Decidable (∀ c ∈ claims, token ∉ c.deviceTokens))

/-- The request is for GPUs and does not say which. -/
def Unnamed (req : ResourceRequest) : Prop := 0 < req.gpus ∧ req.deviceTokens = []

instance : DecidablePred Unnamed := fun req ↦
  inferInstanceAs (Decidable (0 < req.gpus ∧ req.deviceTokens = []))

/-- The device tokens that go with the request: those it names, or the first of the offer. -/
def positionalTokens (offer : ResourceOffer) (req : ResourceRequest) : List String :=
  if Unnamed req then offer.deviceTokens.take req.gpus.toNat else req.deviceTokens

/-- Enough device tokens are free: those that the request names, or as many as it is for GPUs, as
far as the offer has tokens at all. -/
def EnoughTokens (offer : ResourceOffer) (claims : List LeaseResources) (req : ResourceRequest) :
    Prop :=
  if Unnamed req then
    min req.gpus.toNat offer.deviceTokens.length ≤
      (offer.deviceTokens.filter fun token ↦ Free claims token).length
  else ∀ token ∈ req.deviceTokens, Free claims token

/-! ## The checks of the chosen worker -/

section Checks

variable {d : WorkerDescriptor} {task : TaskEnvelope}

theorem asFloatOrNone_idem (m : Option ℚ) : asFloatOrNone (asFloatOrNone m) = asFloatOrNone m := by
  rw [asFloatOrNone, asFloatOrNone, Option.filter_filter]
  simp only [Bool.and_self]

theorem acceleratorCount_take_le (tokens : List String) {n : ℤ} (hn : 0 ≤ n) :
    acceleratorCount (tokens.take n.toNat) ≤ n := by
  have hfilter : ((tokens.take n.toNat).filter isAcceleratorToken).length ≤ n.toNat :=
    (List.length_filter_le _ _).trans (List.length_take_le _ _)
  rw [acceleratorCount]
  omega

/-- The request for the worker is the one of the task, with the tokens by position. -/
theorem requestFor_spec (d : WorkerDescriptor) (task : TaskEnvelope) :
    (requestFor d task).threads = task.requirement.toResourceRequest.threads ∧
      (requestFor d task).gpus = task.requirement.toResourceRequest.gpus ∧
      (requestFor d task).memoryMb = task.requirement.toResourceRequest.memoryMb ∧
      (requestFor d task).deviceTokens =
        positionalTokens d.offer task.requirement.toResourceRequest := by
  have hthreads := task.requirement.toResourceRequest.one_le_threads
  have hgpus := task.requirement.toResourceRequest.gpus_nonneg
  by_cases h : Unnamed task.requirement.toResourceRequest
  · have hmake : requestFor d task = .make task.requirement.toResourceRequest.workers
        (some task.requirement.toResourceRequest.threads) task.requirement.toResourceRequest.gpus
        task.requirement.toResourceRequest.memoryMb
        (d.offer.deviceTokens.take task.requirement.toResourceRequest.gpus.toNat) := if_pos h
    have hcount := acceleratorCount_take_le d.offer.deviceTokens hgpus
    rw [hmake, positionalTokens, if_pos h]
    refine ⟨max_eq_right hthreads, ?_, ?_, rfl⟩
    · change max 0 (max _ (acceleratorCount _)) = _
      omega
    · exact asFloatOrNone_idem task.requirement.memoryMb
  · have hsame : requestFor d task = task.requirement.toResourceRequest := if_neg h
    rw [hsame, positionalTokens, if_neg h]
    exact ⟨rfl, rfl, rfl, rfl⟩

theorem sum_nonneg {M : Type} [AddCommMonoid M] [Preorder M] [AddLeftMono M]
    {claims : List LeaseResources} {amount : LeaseResources → M}
    (hamount : ∀ c : LeaseResources, c.Requested → 0 ≤ amount c)
    (h : ∀ c ∈ claims, c.Requested) : 0 ≤ (claims.map amount).sum :=
  sum_le_of_sublist hamount h (List.nil_sublist claims)

/-- What `satisfies` decides. -/
theorem covers_iff {offer : ResourceOffer} {threads gpus : ℤ} {tokens : List String}
    {memoryMb : Option ℚ} :
    offer.covers threads gpus tokens memoryMb = true ↔
      threads ≤ offer.threads ∧ gpus ≤ offer.gpus ∧
        (∀ token ∈ tokens, token ∈ offer.deviceTokens) ∧
        ∀ needed ∈ memoryMb, ∀ available ∈ offer.memoryMb, needed ≤ available := by
  unfold ResourceOffer.covers
  by_cases hthreads : threads > offer.threads
  · simp [hthreads]
  by_cases hgpus : gpus > offer.gpus
  · simp [hgpus]
  by_cases htokens : tokens.all (· ∈ offer.deviceTokens)
  · have hall : ∀ token ∈ tokens, token ∈ offer.deviceTokens := by simpa using htokens
    rw [if_neg hthreads, if_neg hgpus, if_neg (by simp [htokens])]
    cases memoryMb with
    | none => simpa [not_lt.mp hthreads, not_lt.mp hgpus] using hall
    | some needed =>
        cases offer.memoryMb with
        | none => simpa [not_lt.mp hthreads, not_lt.mp hgpus] using hall
        | some available => simp [not_lt.mp hthreads, not_lt.mp hgpus, and_iff_right hall]
  · rw [if_neg hthreads, if_neg hgpus, if_pos (by simpa using htokens)]
    constructor
    · intro h
      cases h
    · rintro ⟨-, -, hall, -⟩
      exact absurd (by simpa using hall) htokens

/-- What `can_run` says of the offer. -/
theorem covers_of_canRun {n : ℕ}
    (h : d.canRun task.requirement task.executorBackend n = true) :
    n < d.maxInflight ∧ task.requirement.satisfies d.offer = true := by
  rw [WorkerDescriptor.canRun] at h
  by_cases hstatus : Text.lower d.status ∉ ["online", "idle", "ready"]
  · rw [if_pos hstatus] at h
    cases h
  by_cases hcount : n ≥ d.maxInflight
  · rw [if_neg hstatus, if_pos hcount] at h
    cases h
  refine ⟨not_le.mp hcount, ?_⟩
  by_contra hsat
  rw [if_neg hstatus, if_neg hcount] at h
  simp only [Bool.not_eq_true] at hsat
  simp [hsat] at h

/-- A worker that can run the task and has room for it refuses it nowhere. -/
theorem validateRequest_of_hasRoom {n : ℕ} {claims : List LeaseResources}
    (hrun : d.canRun task.requirement task.executorBackend n = true)
    (hclaims : ∀ c ∈ claims, c.Requested)
    (hroom : HasRoom d.offer claims task.requirement.toResourceRequest) :
    validateRequest (defaultPolicy d) d.offer (requestFor d task) = .ok () := by
  obtain ⟨-, hsat⟩ := covers_of_canRun hrun
  obtain ⟨hthreads, hgpus, hmemory, htokens⟩ := requestFor_spec d task
  have hthreads_le : (requestFor d task).threads ≤ d.offer.threads := by
    have hnonneg := sum_nonneg (fun _ h ↦ LeaseResources.Requested.threadCount_nonneg h) hclaims
    have hle := hroom.threads
    omega
  have hgpus_le : (requestFor d task).gpus ≤ d.offer.gpus := by
    have hnonneg := sum_nonneg (fun _ h ↦ LeaseResources.Requested.gpuCount_nonneg h) hclaims
    have hle := hroom.gpus
    omega
  have hmemory_le : ∀ m ∈ asFloatOrNone d.offer.memoryMb, ∀ needed ∈ (requestFor d task).memoryMb,
      needed ≤ m := by
    intro m hm needed hneeded
    have hnonneg := sum_nonneg (fun _ h ↦ LeaseResources.Requested.memory_nonneg h) hclaims
    have hle := hroom.memory m hm
    rw [← hmemory, Option.mem_def.mp hneeded, Option.getD_some] at hle
    linarith
  have htokens_mem : ∀ token ∈ (requestFor d task).deviceTokens, token ∈ d.offer.deviceTokens := by
    intro token htoken
    rw [htokens, positionalTokens] at htoken
    split at htoken
    · exact List.mem_of_mem_take htoken
    · exact (covers_iff.mp hsat).2.2.1 token htoken
  have hcovers : (requestFor d task).satisfies d.offer = true := by
    refine covers_iff.mpr ⟨hthreads_le, hgpus_le, htokens_mem, ?_⟩
    intro needed hneeded available havailable
    have hasked : task.requirement.memoryMb = some needed := by
      rw [hmemory] at hneeded
      exact (Option.filter_eq_some_iff.mp hneeded).1
    exact (covers_iff.mp hsat).2.2.2 needed hasked available havailable
  have hworkers : ¬ (requestFor d task).workers > (defaultPolicy d).maxWorkers := by
    rw [workers_requestFor, maxWorkers_defaultPolicy]
    have hone := d.one_le_maxInflight
    omega
  have hmemory_any : ¬ (defaultPolicy d).maxMemoryMb.any
      (fun m ↦ (requestFor d task).memoryMb.any (· > m)) := by
    rw [maxMemoryMb_defaultPolicy, Option.any_eq_true]
    rintro ⟨m, hm, hany⟩
    obtain ⟨needed, hneeded, hlt⟩ := Option.any_eq_true _ _ |>.mp hany
    exact not_lt.mpr (hmemory_le m hm needed hneeded) (by simpa using hlt)
  rw [validateRequest, if_neg hworkers, if_neg, if_neg, if_neg hmemory_any, if_neg]
  · simp [hcovers]
  · rw [maxGpus_defaultPolicy, Option.any_some]
    simpa using hgpus_le
  · rintro ⟨hlt, -⟩
    rw [maxThreads_defaultPolicy] at hlt
    exact not_lt.mpr hthreads_le hlt

/-- The aggregate check of the chosen worker asks for room and for its tokens by position. -/
theorem admits_iff {claims : List LeaseResources}
    (hcount : (claims.map (·.workerCount)).sum + 1 ≤ d.maxInflight) :
    Admits (defaultPolicy d) d.offer claims (requestFor d task) ↔
      HasRoom d.offer claims task.requirement.toResourceRequest ∧
        ∀ token ∈ positionalTokens d.offer task.requirement.toResourceRequest,
          Free claims token := by
  obtain ⟨hthreads, hgpus, hmemory, htokens⟩ := requestFor_spec d task
  constructor
  · intro h
    refine ⟨⟨?_, ?_, ?_⟩, ?_⟩
    · have hle := h.threads (cpuOversubscribe_defaultPolicy d)
      rwa [threadLimit_defaultPolicy, hthreads] at hle
    · have hle := h.gpus (by simp)
      rwa [gpuLimit_defaultPolicy, hgpus] at hle
    · intro m hm
      have hle := h.memory m hm
      rwa [hmemory] at hle
    · intro token htoken c hc hheld
      rw [← htokens] at htoken
      exact h.devices (gpuSharing_defaultPolicy d) c hc hheld htoken
  · rintro ⟨hroom, hfree⟩
    refine ⟨?_, ?_, ?_, ?_, ?_⟩
    · rwa [workers_requestFor, maxWorkers_defaultPolicy]
    · intro _
      rw [threadLimit_defaultPolicy, hthreads]
      exact hroom.threads
    · intro _
      rw [gpuLimit_defaultPolicy, hgpus]
      exact hroom.gpus
    · intro m hm
      rw [hmemory]
      exact hroom.memory m hm
    · intro _ c hc token hheld htoken
      rw [htokens] at htoken
      exact hfree token htoken c hc hheld

end Checks

/-! ## Who can take a task -/

namespace SchedulerRun

variable {r : SchedulerRun} {task : TaskEnvelope}

/-- The worker can run the task, and beside its unreleased leases it has the threads, the GPUs, the
memory and the device tokens. -/
structure Qualifies (r : SchedulerRun) (task : TaskEnvelope) (d : WorkerDescriptor) : Prop where
  registered : d ∈ r.scheduler.listWorkers
  runs : r.scheduler.canRun task d
  room : HasRoom d.offer ((r.heldBy d.workerId).map (·.resources))
    task.requirement.toResourceRequest
  tokens : EnoughTokens d.offer ((r.heldBy d.workerId).map (·.resources))
    task.requirement.toResourceRequest

/-- What `ResourceBudgetError` is raised for. -/
def IsBudgetError : ScheduleError → Prop
  | .noWorker _ _ => True
  | .lease (.refused _) => True
  | _ => False

/-- The scheduler gives the task to somebody if anybody qualifies, and raises `ResourceBudgetError`
only if nobody does. -/
structure Complete (r : SchedulerRun) (now : Time) (task : TaskEnvelope)
    (ownerId scope uuid : String) : Prop where
  succeeds : (∃ d, r.Qualifies task d) →
    ∃ scheduled, (r.scheduler.acquire now task ownerId scope uuid).1 = .ok scheduled
  refuses : ∀ e, (r.scheduler.acquire now task ownerId scope uuid).1 = .error e →
    IsBudgetError e → ∀ d, ¬ r.Qualifies task d

/-- The first worker, in the order of registration, that can run the task has room for it beside the
leases in its store, and the tokens that the task names or the first ones of its offer are free. -/
def FirstHasRoom (r : SchedulerRun) (task : TaskEnvelope) : Prop :=
  ∃ before d after store, r.scheduler.listWorkers = before ++ d :: after ∧
    (∀ d' ∈ before, ¬ r.scheduler.canRun task d') ∧ r.scheduler.canRun task d ∧
    r.scheduler.allocators.get? d.workerId = some ⟨allocatorOf d, store⟩ ∧
    HasRoom d.offer (store.activeRows.map (·.resources)) task.requirement.toResourceRequest ∧
    ∀ token ∈ positionalTokens d.offer task.requirement.toResourceRequest,
      Free (store.activeRows.map (·.resources)) token

theorem selectWorker_eq_some {s : InMemoryResourceScheduler} {d : WorkerDescriptor} :
    s.selectWorker task = some d ↔ s.canRun task d ∧ ∃ before after,
      s.listWorkers = before ++ d :: after ∧ ∀ d' ∈ before, ¬ s.canRun task d' := by
  rw [InMemoryResourceScheduler.selectWorker, List.find?_eq_some_iff_append]
  simp only [Bool.not_eq_true, Bool.not_eq_eq_eq_not, Bool.not_true]

/-- A worker that can run the task has a place left for it. -/
theorem count_of_canRun (h : r.Tallied) {d : WorkerDescriptor} {store : InMemoryLeases}
    (hd : r.scheduler.workers.get? d.workerId = some d)
    (hstore : r.scheduler.allocators.get? d.workerId = some ⟨allocatorOf d, store⟩)
    (hrun : r.scheduler.canRun task d) :
    ((store.activeRows.map (·.resources)).map (·.workerCount)).sum + 1 ≤ d.maxInflight := by
  have hsub := h.listed d.workerId d store hd hstore
  have hlt := (covers_of_canRun hrun).1
  rw [h.inflight] at hlt
  have hle := hsub.length_le
  rw [h.sum_workerCount hsub.subset]
  omega

/-- An acquire succeeds just when the first worker that can run the task has room for it. -/
theorem acquire_isOk_iff (h : r.Tallied) (task : TaskEnvelope) (now : Time)
    (ownerId scope uuid : String) :
    (∃ scheduled, (r.scheduler.acquire now task ownerId scope uuid).1 = .ok scheduled) ↔
      r.FirstHasRoom task := by
  obtain ⟨hnone, heq⟩ | ⟨d, store, hselect, hd, hstore, -, -, hreply⟩ :=
    acquire_cases h.kept now task ownerId scope uuid
  · rw [heq]
    constructor
    · rintro ⟨scheduled, hok⟩
      cases hok
    · rintro ⟨before, d, after, -, hworkers, hbefore, hrun, -⟩
      have hsome := selectWorker_eq_some.mpr ⟨hrun, before, after, hworkers, hbefore⟩
      rw [hnone] at hsome
      cases hsome
  · obtain ⟨hrun, before, after, hworkers, hbefore⟩ := selectWorker_eq_some.mp hselect
    have hcount := count_of_canRun h hd hstore hrun
    have hclaims : ∀ c ∈ store.activeRows.map (·.resources), c.Requested := by
      intro c hc
      have hsub := (h.listed d.workerId d store hd hstore).map (·.resources)
      exact h.requested_heldBy c (hsub.subset hc)
    have hfirst : r.FirstHasRoom task ↔
        validateRequest (defaultPolicy d) d.offer (requestFor d task) = .ok () ∧
          Admits (defaultPolicy d) d.offer (store.activeRows.map (·.resources))
            (requestFor d task) := by
      rw [admits_iff hcount]
      constructor
      · rintro ⟨before', d', after', store', hworkers', hbefore', hrun', hstore', hroom, hfree⟩
        have hselect' := selectWorker_eq_some.mpr ⟨hrun', before', after', hworkers', hbefore'⟩
        obtain rfl : d = d' := Option.some.inj (hselect.symm.trans hselect')
        obtain rfl : store = store' :=
          (WorkerAllocator.mk.inj (Option.some.inj (hstore.symm.trans hstore'))).2
        exact ⟨validateRequest_of_hasRoom hrun hclaims hroom, hroom, hfree⟩
      · rintro ⟨-, hroom, hfree⟩
        exact ⟨before, d, after, store, hworkers, hbefore, hrun, hstore, hroom, hfree⟩
    rw [hfirst]
    obtain ⟨hrefused, e, heq⟩ | ⟨hrequest, hadmits, lease, after, -, -, heq⟩ := hreply
    · rw [heq]
      constructor
      · rintro ⟨scheduled, hok⟩
        cases hok
      · intro hboth
        exact absurd hboth hrefused
    · rw [heq]
      exact ⟨fun _ ↦ ⟨hrequest, hadmits⟩, fun _ ↦ ⟨_, rfl⟩⟩

/-- In every state of a run, the scheduler is complete for a task just when nobody qualifies or the
first worker that can run the task has room for it. -/
theorem complete_iff (h : Machine.Reach step Machine.anyStep start r) (now : Time)
    (task : TaskEnvelope) (ownerId scope uuid : String) :
    r.Complete now task ownerId scope uuid ↔
      (∀ d, ¬ r.Qualifies task d) ∨ r.FirstHasRoom task := by
  have htallied : r.Tallied :=
    h.invariant tallied_start fun _ _ _ ht _ hstep ↦ ht.step hstep
  have hok := acquire_isOk_iff htallied task now ownerId scope uuid
  constructor
  · intro hcomplete
    by_cases hany : ∃ d, r.Qualifies task d
    · exact .inr (hok.mp (hcomplete.succeeds hany))
    · exact .inl (not_exists.mp hany)
  · rintro (hnobody | hfirst)
    · exact ⟨fun ⟨d, hd⟩ ↦ absurd hd (hnobody d), fun _ _ _ ↦ hnobody⟩
    · obtain ⟨scheduled, hscheduled⟩ := hok.mpr hfirst
      refine ⟨fun _ ↦ ⟨scheduled, hscheduled⟩, ?_⟩
      intro e he
      rw [hscheduled] at he
      cases he

/-! ## A worker behind the first -/

/-- One worker, and nothing issued. -/
def oneWorker : SchedulerRun :=
  { start with scheduler := start.scheduler.registerWorker fourThreads }

theorem complete_one : Machine.run step start [.registerWorker fourThreads] = some oneWorker ∧
    oneWorker.Complete 0 (allThreads "t1") "" "" "a" := by
  have hrun : Machine.run step start [.registerWorker fourThreads] = some oneWorker := rfl
  have hreach : Machine.Reach step Machine.anyStep start oneWorker :=
    Machine.reach_of_run_any hrun
  refine ⟨hrun, (complete_iff hreach 0 (allThreads "t1") "" "" "a").mpr (.inr ?_)⟩
  refine ⟨[], fourThreads, [], .empty, rfl, ?_, ?_, rfl, ?_, ?_⟩
  · intro d hd
    cases hd
  · decide +kernel
  · refine ⟨by decide +kernel, by decide +kernel, ?_⟩
    intro m hm
    cases hm
  · intro token htoken
    cases htoken

/-- Another worker with four threads. -/
def secondWorker : WorkerDescriptor := { fourThreads with workerId := "v" }

/-- The first worker is busy and the second one is idle, but a task that the second could take is
refused. -/
theorem not_complete_two : ∃ r, Machine.run step start
      [.registerWorker fourThreads, .registerWorker secondWorker,
        .acquire 0 (allThreads "t1") "" "" "a"] = some r ∧
    ¬ r.Complete 0 (allThreads "t2") "" "" "b" := by
  have hrun : (Machine.run step start
      [.registerWorker fourThreads, .registerWorker secondWorker,
        .acquire 0 (allThreads "t1") "" "" "a"]).map
        (fun r ↦ (r.scheduler.listWorkers, r.heldBy "v",
          r.scheduler.canRun (allThreads "t2") secondWorker,
          (r.scheduler.acquire 0 (allThreads "t2") "" "" "b").1.toOption.isSome)) =
        some ([fourThreads, secondWorker], [], true, false) := by
    decide +kernel
  obtain ⟨r, hr, hvalues⟩ := Option.map_eq_some_iff.mp hrun
  obtain ⟨hworkers, hheld, hcan, hrefused⟩ : _ ∧ _ ∧ _ ∧ _ := by
    simpa only [Prod.mk.injEq] using hvalues
  refine ⟨r, hr, fun hcomplete ↦ ?_⟩
  have hidle : r.heldBy secondWorker.workerId = [] := hheld
  have hqualifies : r.Qualifies (allThreads "t2") secondWorker := by
    refine ⟨?_, hcan, ?_, ?_⟩
    · rw [hworkers]
      exact List.mem_cons_of_mem _ (List.mem_singleton_self _)
    · rw [hidle]
      refine ⟨by decide +kernel, by decide +kernel, ?_⟩
      intro m hm
      cases hm
    · rw [hidle, EnoughTokens, if_neg (by decide +kernel)]
      intro token htoken
      cases htoken
  obtain ⟨scheduled, hok⟩ := hcomplete.succeeds ⟨secondWorker, hqualifies⟩
  rw [hok] at hrefused
  cases hrefused

end SchedulerRun

end Blackbase.Resources.Scheduler

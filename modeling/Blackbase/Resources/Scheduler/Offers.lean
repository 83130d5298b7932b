import Blackbase.Core.Machine
import Blackbase.Resources.Scheduler.Books

/-!
# Leases within the offers

What the leases issued on a worker and not released hold together, along the runs of the scheduler.
A worker may be registered again while none of its leases is out; a worker with leases out loses
them from its store when it is registered again.
-/

namespace Blackbase.Resources.Scheduler.SchedulerRun

variable {r : SchedulerRun}

/-! ## What is asked of every state -/

/-- The unreleased leases of a worker stay within its offer and its number of tasks, no two of them
have a device token in common, the scheduler counts them, and `active_leases` lists them. -/
structure WithinOffer (r : SchedulerRun) (d : WorkerDescriptor) : Prop where
  threads : ((r.heldBy d.workerId).map (·.resources.threadCount)).sum ≤ d.offer.threads
  gpus : ((r.heldBy d.workerId).map (·.resources.gpuCount)).sum ≤ d.offer.gpus
  devices : (r.heldBy d.workerId).Pairwise fun l l' ↦
    l.resources.deviceTokens.Disjoint l'.resources.deviceTokens
  length_le : (r.heldBy d.workerId).length ≤ d.maxInflight
  inflight : r.scheduler.inflightOf d.workerId = (r.heldBy d.workerId).length
  listed : ∀ l ∈ r.heldBy d.workerId, ∀ now, l ∈ r.scheduler.activeLeases now

/-- So it is for every worker. -/
def WithinOffers (r : SchedulerRun) : Prop := ∀ d ∈ r.scheduler.listWorkers, r.WithinOffer d

/-- The call registers a worker again while a lease issued on it is out. -/
def Replaces (r : SchedulerRun) : SchedulerCall → Prop
  | .registerWorker d => ∃ e ∈ r.unreleased, e.1 = d.workerId
  | _ => False

/-! ## What good calls keep -/

/-- The stores list all the leases that are out, and these are within the limits. -/
structure Accounted (r : SchedulerRun) : Prop where
  tallied : r.Tallied
  listed : ∀ id d store, r.scheduler.workers.get? id = some d →
    r.scheduler.allocators.get? id = some ⟨allocatorOf d, store⟩ → store.activeRows = r.heldBy id
  within : ∀ id d, r.scheduler.workers.get? id = some d →
    Within (defaultPolicy d) d.offer ((r.heldBy id).map (·.resources))

theorem accounted_start : start.Accounted where
  tallied := tallied_start
  listed _ _ _ h := by cases h
  within _ _ h := by cases h

namespace Accounted

theorem registerWorker (h : r.Accounted) {d : WorkerDescriptor}
    (hidle : ∀ e ∈ r.unreleased, e.1 ≠ d.workerId) :
    Accounted { r with scheduler := r.scheduler.registerWorker d } where
  tallied := h.tallied.registerWorker d
  listed id d' store hd' hstore := by
    change (r.scheduler.workers.insert _ _).get? id = some d' at hd'
    change (r.scheduler.allocators.insert _ _).get? id = _ at hstore
    change store.activeRows = r.heldBy id
    rw [OrderedDict.get?_insert] at hd' hstore
    by_cases hid : id = d.workerId
    · rw [if_pos hid] at hstore
      rw [hid, Tallied.heldBy_eq_nil hidle, ← (WorkerAllocator.mk.inj (Option.some.inj hstore)).2]
      rfl
    · rw [if_neg hid] at hd' hstore
      exact h.listed id d' store hd' hstore
  within id d' hd' := by
    change (r.scheduler.workers.insert _ _).get? id = some d' at hd'
    change Within _ _ ((r.heldBy id).map (·.resources))
    rw [OrderedDict.get?_insert] at hd'
    by_cases hid : id = d.workerId
    · rw [hid, Tallied.heldBy_eq_nil hidle]
      exact within_nil
    · rw [if_neg hid] at hd'
      exact h.within id d' hd'

/-- A refusal changes no store. -/
theorem refused (h : r.Accounted) {d : WorkerDescriptor} {store : InMemoryLeases}
    (hstore : r.scheduler.allocators.get? d.workerId = some ⟨allocatorOf d, store⟩)
    {r' : SchedulerRun} (htallied : r'.Tallied)
    (hr' : r' = { r with scheduler := { r.scheduler with
      allocators := r.scheduler.allocators.insert d.workerId ⟨allocatorOf d, store⟩ } }) :
    r'.Accounted := by
  subst hr'
  refine ⟨htallied, ?_, h.within⟩
  intro id d' store' hd' hstore'
  refine h.listed id d' store' hd' ?_
  rw [OrderedDict.get?_insert] at hstore'
  by_cases hid : id = d.workerId
  · rw [if_pos hid] at hstore'
    rw [hid, hstore, hstore']
  · rwa [if_neg hid] at hstore'

/-- An admitted request keeps the leases of its worker within the limits. -/
theorem issued (h : r.Accounted) {d : WorkerDescriptor} {store grown : InMemoryLeases}
    {lease : ResourceLease} {req : ResourceRequest}
    (hd : r.scheduler.workers.get? d.workerId = some d)
    (hstore : r.scheduler.allocators.get? d.workerId = some ⟨allocatorOf d, store⟩)
    (hadmits : Admits (defaultPolicy d) d.offer (store.activeRows.map (·.resources)) req)
    (hresources : lease.resources = req.asDict)
    (hgrown : grown.activeRows = store.activeRows ++ [lease]) {r' : SchedulerRun}
    (htallied : r'.Tallied) (hworkers : r'.scheduler.workers = r.scheduler.workers)
    (hallocators : r'.scheduler.allocators =
      r.scheduler.allocators.insert d.workerId ⟨allocatorOf d, grown⟩)
    (hunreleased : r'.unreleased = r.unreleased ++ [(d.workerId, lease)]) : r'.Accounted := by
  have hactive := h.listed d.workerId d store hd hstore
  have hheld : ∀ id, r'.heldBy id =
      if d.workerId = id then r.heldBy id ++ [lease] else r.heldBy id := by
    intro id
    rw [← heldBy_append d.workerId lease r'.scheduler r'.drawn id, ← hunreleased]
  refine ⟨htallied, ?_, ?_⟩
  · intro id d' store' hd' hstore'
    rw [hworkers] at hd'
    rw [hallocators, OrderedDict.get?_insert] at hstore'
    rw [hheld]
    by_cases hid : id = d.workerId
    · rw [if_pos hid] at hstore'
      rw [if_pos hid.symm, hid, ← hactive, ← hgrown,
        (WorkerAllocator.mk.inj (Option.some.inj hstore')).2]
    · rw [if_neg hid] at hstore'
      rw [if_neg fun heq ↦ hid heq.symm]
      exact h.listed id d' store' hd' hstore'
  · intro id d' hd'
    rw [hworkers] at hd'
    rw [hheld]
    by_cases hid : id = d.workerId
    · obtain rfl : d = d' := Option.some.inj (hd.symm.trans (hid ▸ hd'))
      rw [if_pos hid.symm, hid, List.map_append, List.map_singleton, hresources]
      refine (h.within d.workerId d hd).append ?_
      rwa [← hactive]
    · rw [if_neg fun heq ↦ hid heq.symm]
      exact h.within id d' hd'

/-- A release takes the lease from the store of its worker. -/
theorem released (h : r.Accounted) {now : Time} {e : String × ResourceLease}
    (he : e ∈ r.unreleased) {d : WorkerDescriptor} {store : InMemoryLeases}
    (hd : r.scheduler.workers.get? e.1 = some d)
    (hstore : r.scheduler.allocators.get? e.1 = some ⟨allocatorOf d, store⟩)
    (hlasting : store.Lasting) {r' : SchedulerRun} (htallied : r'.Tallied)
    (hworkers : r'.scheduler.workers = r.scheduler.workers)
    (hallocators : r'.scheduler.allocators = r.scheduler.allocators.insert e.1
      ⟨allocatorOf d, (store.releaseLease now e.2.leaseId none).2⟩)
    (hunreleased : r'.unreleased = r.unreleased.filter fun e' ↦ e'.2.leaseId ≠ e.2.leaseId) :
    r'.Accounted := by
  have hheld : ∀ id, r'.heldBy id = (r.heldBy id).filter fun l ↦ l.leaseId ≠ e.2.leaseId := by
    intro id
    rw [← heldBy_filter e.2.leaseId r'.scheduler r'.drawn id, ← hunreleased]
  refine ⟨htallied, ?_, ?_⟩
  · intro id d' store' hd' hstore'
    rw [hworkers] at hd'
    rw [hallocators, OrderedDict.get?_insert] at hstore'
    rw [hheld]
    by_cases hid : id = e.1
    · rw [if_pos hid] at hstore'
      rw [hid, ← h.listed e.1 d store hd hstore, ← hlasting.activeRows_releaseLease now,
        (WorkerAllocator.mk.inj (Option.some.inj hstore')).2]
    · rw [if_neg hid] at hstore'
      rw [h.tallied.heldBy_filter_of_ne he hid]
      exact h.listed id d' store' hd' hstore'
  · intro id d' hd'
    rw [hworkers] at hd'
    rw [hheld]
    exact (h.within id d' hd').sublist h.tallied.requested_heldBy (List.filter_sublist.map _)

theorem step (h : r.Accounted) {c : SchedulerCall} {r' : SchedulerRun}
    (hgood : ¬ r.Replaces c) (hstep : r.step c = some r') : r'.Accounted := by
  have htallied : r'.Tallied := h.tallied.step hstep
  have hkept := h.tallied.kept
  cases c with
  | registerWorker d =>
      obtain rfl := Option.some.inj hstep
      exact h.registerWorker fun e he hid ↦ hgood ⟨e, he, hid⟩
  | acquire now task ownerId scope uuid =>
      simp only [SchedulerRun.step] at hstep
      obtain ⟨-, heq⟩ | ⟨d, store, -, hd, hstore, hlasting, hdrawn, hreply⟩ :=
        acquire_cases hkept now task ownerId scope uuid
      · rw [heq] at hstep
        obtain rfl := Option.some.inj hstep
        exact h
      · obtain ⟨-, e, heq⟩ | ⟨-, hadmits, lease, after, hresources, hgrown, heq⟩ := hreply
        · rw [heq] at hstep
          exact h.refused hstore htallied (Option.some.inj hstep).symm
        · rw [heq] at hstep
          simp only at hstep
          split at hstep
          · cases hstep
          · next hnew =>
            have hrow : store.row lease.leaseId = none :=
              Rows.lookup_eq_none.mpr fun l hl hid ↦ hnew (hid ▸ hdrawn l hl)
            obtain ⟨grown, rfl, -, -, hactive⟩ := hgrown hrow
            obtain rfl := Option.some.inj hstep
            exact h.issued hd hstore hadmits hresources hactive htallied rfl rfl rfl
  | release now leaseId =>
      obtain rfl := Option.some.inj hstep
      obtain ⟨hunknown, hsame⟩ | ⟨w, hroute, hworkers, -, -, hrest⟩ :=
        release_cases hkept now leaseId
      · rw [hsame, h.tallied.filter_of_unknown hunknown]
        exact h
      · obtain ⟨e, he, rfl, rfl⟩ := (h.tallied.routed leaseId w).mp hroute
        obtain ⟨hnone, -⟩ | ⟨d, store, hd, hstore, hlasting, -, hallocators⟩ := hrest
        · obtain ⟨d, hd⟩ := h.tallied.known e he
          rw [hnone] at hd
          cases hd
        · exact h.released he hd hstore hlasting htallied hworkers hallocators rfl

/-! ### What the books say -/

theorem mem_activeLeases (h : r.Accounted) {l : ResourceLease} {now : Time} :
    l ∈ r.scheduler.activeLeases now ↔ ∃ id, l ∈ r.heldBy id := by
  rw [InMemoryResourceScheduler.activeLeases, List.mem_flatMap]
  constructor
  · rintro ⟨⟨id, a⟩, ha, hl⟩
    have hget := OrderedDict.get?_of_mem ha
    obtain ⟨d, hd⟩ := h.tallied.kept.known id a hget
    obtain ⟨store, hstore, hlasting, -⟩ := h.tallied.kept.allocator id d hd
    obtain rfl : a = ⟨allocatorOf d, store⟩ := Option.some.inj (hget.symm.trans hstore)
    rw [hlasting.sweep_eq, hlasting.filter_active, h.listed id d store hd hstore] at hl
    exact ⟨id, hl⟩
  · rintro ⟨id, hl⟩
    obtain ⟨d, hd⟩ := h.tallied.known _ (mem_heldBy.mp hl)
    obtain ⟨store, hstore, hlasting, -⟩ := h.tallied.kept.allocator id d hd
    refine ⟨(id, ⟨allocatorOf d, store⟩), OrderedDict.mem_of_get? hstore, ?_⟩
    rw [hlasting.sweep_eq, hlasting.filter_active, h.listed id d store hd hstore]
    exact hl

theorem withinOffers (h : r.Accounted) : r.WithinOffers := by
  intro d hd
  obtain ⟨⟨id, _⟩, hmem, rfl⟩ := List.mem_map.mp hd
  rename_i d
  have hget : r.scheduler.workers.get? id = some d := OrderedDict.get?_of_mem hmem
  obtain rfl := h.tallied.kept.named id d hget
  have hwithin := h.within d.workerId d hget
  refine ⟨?_, ?_, ?_, ?_, h.tallied.inflight _, ?_⟩
  · have hthreads := hwithin.threads (cpuOversubscribe_defaultPolicy d)
    rwa [threadLimit_defaultPolicy, List.map_map] at hthreads
  · have hgpus := hwithin.gpus (by simp)
    rwa [gpuLimit_defaultPolicy, List.map_map] at hgpus
  · have hdevices := List.pairwise_map.mp (hwithin.devices (gpuSharing_defaultPolicy d))
    exact hdevices
  · have hcount := hwithin.workers
    rw [h.tallied.sum_workerCount (List.Subset.refl _), maxWorkers_defaultPolicy] at hcount
    exact_mod_cast hcount
  · intro l hl now
    exact h.mem_activeLeases.mpr ⟨_, hl⟩

end Accounted

/-! ## Runs -/

/-- A worker that is registered again loses the leases that are out from its store. -/
theorem not_withinOffers_of_replaces {r' : SchedulerRun} {c : SchedulerCall} (h : r.Accounted)
    (hbad : r.Replaces c) (hstep : r.step c = some r') : ¬ r'.WithinOffers := by
  intro hwithin
  cases c with
  | acquire now task ownerId scope uuid => exact hbad
  | release now leaseId => exact hbad
  | registerWorker d =>
      obtain ⟨⟨_, l⟩, he, rfl⟩ := hbad
      obtain rfl := Option.some.inj hstep
      have hregistered : d ∈ (r.scheduler.registerWorker d).listWorkers := by
        refine List.mem_map.mpr ⟨(d.workerId, d), OrderedDict.mem_of_get? ?_, rfl⟩
        rw [InMemoryResourceScheduler.registerWorker, OrderedDict.get?_insert, if_pos rfl]
      have hlisted := (hwithin d hregistered).listed l (mem_heldBy.mpr he) 0
      obtain ⟨⟨id, a⟩, ha, hl⟩ := List.mem_flatMap.mp hlisted
      have hget := OrderedDict.get?_of_mem ha
      rw [InMemoryResourceScheduler.registerWorker, OrderedDict.get?_insert] at hget
      by_cases hid : id = d.workerId
      · -- The new store of the worker is empty.
        rw [if_pos hid] at hget
        obtain rfl := Option.some.inj hget
        cases hl
      · -- The store of another worker lists only the leases of that worker.
        rw [if_neg hid] at hget
        have hactive : l ∈ r.scheduler.activeLeases 0 :=
          List.mem_flatMap.mpr ⟨(id, a), OrderedDict.mem_of_get? hget, hl⟩
        obtain ⟨d', hd'⟩ := h.tallied.kept.known id a hget
        obtain ⟨store, hstore, hlasting, -⟩ := h.tallied.kept.allocator id d' hd'
        obtain rfl : a = ⟨allocatorOf d', store⟩ := Option.some.inj (hget.symm.trans hstore)
        rw [hlasting.sweep_eq, hlasting.filter_active, h.listed id d' store hd' hstore] at hl
        have hpair : ((id, l) : String × ResourceLease) = (d.workerId, l) :=
          h.tallied.unique (mem_heldBy.mp hl) he rfl
        exact hid (congrArg Prod.fst hpair)

/-- The leases that are out stay within the offers in all states of a run exactly if no worker is
registered again while a lease issued on it is out. -/
theorem withinOffers_iff (calls : List SchedulerCall) :
    (∀ before, before <+: calls → ∀ r, Machine.run step start before = some r → r.WithinOffers) ↔
      ∀ before c, before ++ [c] <+: calls → ∀ r r', Machine.run step start before = some r →
        r.step c = some r' → ¬ r.Replaces c := by
  have hgood : ∀ (r : SchedulerRun) c r', r.Accounted → ¬ r.Replaces c → r.step c = some r' →
      r'.Accounted :=
    fun r c r' h hgood hstep ↦ h.step hgood hstep
  have hwithin : ∀ (r : SchedulerRun) c r', r.Accounted → r.step c = some r' →
      ((∀ r', r.step c = some r' → r'.WithinOffers) ↔ ¬ r.Replaces c) := by
    intro r c r' h hstep
    constructor
    · intro hall hbad
      exact not_withinOffers_of_replaces h hbad hstep (hall r' hstep)
    · intro hgood r'' hstep'
      exact (h.step hgood hstep').withinOffers
  have hsteps := Machine.forall_step_iff accounted_start hgood hwithin calls
  constructor
  · intro hall before c hprefix r r' hrun hstep
    refine hsteps.mp ?_ before c r r' hprefix hrun hstep
    intro before c r _ hprefix hrun _ r' hstep
    refine hall (before ++ [c]) hprefix r' ?_
    rw [Machine.run_append, hrun, Option.bind_some, Machine.run_cons, hstep]
    rfl
  · intro hall before hprefix r hrun
    induction before using List.reverseRecOn with
    | nil =>
        obtain rfl := Option.some.inj hrun
        exact accounted_start.withinOffers
    | append_singleton before c ih =>
        obtain ⟨r₀, hr₀, hstep⟩ := Machine.run_concat hrun
        refine hsteps.mpr ?_ before c r₀ r hprefix hr₀ hstep r hstep
        intro before c r₀ r hprefix hr₀ hstep
        exact hall before c hprefix r₀ r hr₀ hstep

/-! ## A worker registered again -/

theorem one_le_twoTasks : 1 ≤ 2 := by decide

/-- A worker with four threads. -/
def fourThreads : WorkerDescriptor where
  workerId := "w"
  executorBackend := "thread"
  resourceBackend := "local"
  capabilities := []
  offer := .make 4 0 [] none none []
  maxInflight := 2
  status := "online"
  one_le_maxInflight := one_le_twoTasks

/-- A task that takes four threads. -/
def allThreads (taskId : String) : TaskEnvelope where
  taskId := taskId
  taskType := "task"
  nspace := "default"
  executorBackend := "auto"
  requirement := .make 4 0 "local" [] none none []
  maxRetries := 0
  payload := "\x7b\x7d"

/-- The four threads of a worker are granted twice when it is registered again in between. -/
theorem not_withinOffers_registered_again :
    ∃ r, Machine.run step start
        [.registerWorker fourThreads, .acquire 0 (allThreads "t1") "" "" "a",
          .registerWorker fourThreads, .acquire 0 (allThreads "t2") "" "" "b"] = some r ∧
      ¬ r.WithinOffers := by
  have hrun : (Machine.run step start
      [.registerWorker fourThreads, .acquire 0 (allThreads "t1") "" "" "a",
        .registerWorker fourThreads, .acquire 0 (allThreads "t2") "" "" "b"]).map
        (fun r ↦ (r.scheduler.listWorkers,
          ((r.heldBy "w").map (·.resources.threadCount)).sum)) = some ([fourThreads], 8) := by
    decide +kernel
  obtain ⟨r, hr, hvalues⟩ := Option.map_eq_some_iff.mp hrun
  obtain ⟨hworkers, hsum⟩ := Prod.mk.inj hvalues
  refine ⟨r, hr, fun hwithin ↦ ?_⟩
  have hmem : fourThreads ∈ r.scheduler.listWorkers := by
    rw [hworkers]
    exact List.mem_singleton_self _
  have hthreads := (hwithin fourThreads hmem).threads
  rw [show r.heldBy fourThreads.workerId = r.heldBy "w" from rfl, hsum] at hthreads
  exact absurd hthreads (by decide)

end Blackbase.Resources.Scheduler.SchedulerRun

import Blackbase.Resources.Scheduler.Stores

/-!
# Calls of the scheduler

What the default policy allows, how an acquire and a release go, and what every call keeps: the
allocator of a worker is made of the descriptor it was registered with last.
-/

namespace Blackbase.Resources.Scheduler

/-! ## The default policy -/

section Policy

variable (d : WorkerDescriptor)

@[simp] theorem strict_defaultPolicy : (defaultPolicy d).strict = true := by
  change decide (Text.lower "strict" = "strict") = true
  decide

@[simp] theorem gpuSharing_defaultPolicy : (defaultPolicy d).gpuSharing = .exclusive := by
  have hlower : Text.lower "exclusive" = "exclusive" := by decide
  simp [defaultPolicy, ResourcePolicy.make, hlower]

@[simp] theorem cpuOversubscribe_defaultPolicy : (defaultPolicy d).cpuOversubscribe = false := rfl

@[simp] theorem maxWorkers_defaultPolicy : (defaultPolicy d).maxWorkers = d.maxInflight := by
  have h : (1 : ℤ) ≤ d.maxInflight := by exact_mod_cast d.one_le_maxInflight
  exact max_eq_right h

@[simp] theorem maxThreads_defaultPolicy : (defaultPolicy d).maxThreads = d.offer.threads :=
  max_eq_right d.offer.one_le_threads

@[simp] theorem maxGpus_defaultPolicy : (defaultPolicy d).maxGpus = some d.offer.gpus :=
  congrArg some (max_eq_right d.offer.gpus_nonneg)

@[simp] theorem maxMemoryMb_defaultPolicy :
    (defaultPolicy d).maxMemoryMb = asFloatOrNone d.offer.memoryMb := rfl

@[simp] theorem threadLimit_defaultPolicy :
    threadLimit (defaultPolicy d) d.offer = d.offer.threads := by
  rw [threadLimit, maxThreads_defaultPolicy, min_self]

@[simp] theorem gpuLimit_defaultPolicy : gpuLimit (defaultPolicy d) d.offer = d.offer.gpus := by
  rw [gpuLimit, maxGpus_defaultPolicy]
  exact min_self _

end Policy

/-! ## An allocator -/

namespace WorkerAllocator

/-- The allocator refuses and stays as it was, or the request passes both checks and the lease is
issued. -/
theorem acquire_cases {store : InMemoryLeases} (h : store.Lasting) (d : WorkerDescriptor)
    (now : Time) (req : ResourceRequest) (ownerId scope uuid : String) :
    (∃ e, acquire ⟨allocatorOf d, store⟩ now req ownerId scope uuid =
        (.error e, ⟨allocatorOf d, store⟩) ∧
      ¬ (validateRequest (defaultPolicy d) d.offer req = .ok () ∧
        Admits (defaultPolicy d) d.offer (store.activeRows.map (·.resources)) req)) ∨
    (validateRequest (defaultPolicy d) d.offer req = .ok () ∧
      Admits (defaultPolicy d) d.offer (store.activeRows.map (·.resources)) req ∧
      ∃ lease after,
        acquire ⟨allocatorOf d, store⟩ now req ownerId scope uuid = (.ok lease, after) ∧
        lease.resources = req.asDict ∧
        (store.row lease.leaseId = none →
          ∃ grown : InMemoryLeases, after = ⟨allocatorOf d, grown⟩ ∧ grown.Lasting ∧
            grown.leases = store.leases ++ [lease] ∧
            grown.activeRows = store.activeRows ++ [lease])) := by
  unfold acquire
  simp only [allocatorOf, strict_defaultPolicy, if_true]
  cases hrequest : validateRequest (defaultPolicy d) d.offer req with
  | error e =>
      refine .inl ⟨.refused e, rfl, ?_⟩
      rintro ⟨hok, -⟩
      cases hok
  | ok u =>
      cases hbudget : validateAggregateBudget (defaultPolicy d) d.offer req store.activeRows with
      | error e =>
          refine .inl ⟨.refused e, ?_, ?_⟩
          · simp only [h.acquireLease_refused hbudget]
          · rintro ⟨-, hadmits⟩
            rw [validateAggregateBudget_eq_ok.mpr hadmits] at hbudget
            cases hbudget
      | ok u =>
          refine .inr ⟨rfl, validateAggregateBudget_eq_ok.mp hbudget, ?_⟩
          simp only [h.acquireLease_admitted hbudget]
          refine ⟨_, _, rfl, rfl, fun hnew ↦ ?_⟩
          rw [InMemoryLeases.put_new hnew]
          exact ⟨_, rfl, h.append hnew, rfl, InMemoryLeases.activeRows_append⟩

end WorkerAllocator

/-! ## The scheduler -/

namespace InMemoryResourceScheduler

variable {s : InMemoryResourceScheduler}

theorem inflightOf_insert {workerId k : String} {n : ℕ} :
    ((s.inflight.insert k n).get? workerId).getD 0 =
      if workerId = k then n else s.inflightOf workerId := by
  rw [OrderedDict.get?_insert]
  split <;> rfl

@[simp] theorem inflightOf_registerWorker {d : WorkerDescriptor} {workerId : String} :
    (s.registerWorker d).inflightOf workerId = s.inflightOf workerId := by
  rw [inflightOf, registerWorker, OrderedDict.get?_setDefault]
  by_cases h : workerId = d.workerId
  · rw [if_pos h, inflightOf, h]
    cases s.inflight.get? d.workerId <;> rfl
  · rw [if_neg h, inflightOf]

theorem mem_of_selectWorker {task : TaskEnvelope} {d : WorkerDescriptor}
    (h : s.selectWorker task = some d) : (∃ id, s.workers.get? id = some d) ∧ s.canRun task d := by
  obtain ⟨e, he, rfl⟩ := List.mem_map.mp (List.mem_of_find?_eq_some h)
  exact ⟨⟨e.1, OrderedDict.get?_of_mem he⟩, List.find?_some h⟩

end InMemoryResourceScheduler

/-! ## What every call keeps -/

namespace SchedulerRun

/-- Every worker has an allocator made of its descriptor, the leases in its store have no expiry,
and their ids have been drawn. -/
structure Kept (r : SchedulerRun) : Prop where
  named : ∀ id d, r.scheduler.workers.get? id = some d → d.workerId = id
  allocator : ∀ id d, r.scheduler.workers.get? id = some d → ∃ store,
    r.scheduler.allocators.get? id = some ⟨allocatorOf d, store⟩ ∧ store.Lasting ∧
      ∀ l ∈ store.leases, l.leaseId ∈ r.drawn
  known : ∀ id a, r.scheduler.allocators.get? id = some a →
    ∃ d, r.scheduler.workers.get? id = some d

theorem kept_start : start.Kept where
  named _ _ h := by cases h
  allocator _ _ h := by cases h
  known _ _ h := by cases h

variable {r : SchedulerRun}

theorem heldBy_append (w : String) (l : ResourceLease) (s : InMemoryResourceScheduler)
    (drawn : List String) (id : String) :
    heldBy ⟨s, r.unreleased ++ [(w, l)], drawn⟩ id =
      if w = id then r.heldBy id ++ [l] else r.heldBy id := by
  simp only [heldBy, List.filter_append, List.map_append]
  by_cases h : w = id
  · simp [h]
  · simp [h]

theorem heldBy_filter (leaseId : String) (s : InMemoryResourceScheduler) (drawn : List String)
    (id : String) :
    heldBy ⟨s, r.unreleased.filter fun e ↦ e.2.leaseId ≠ leaseId, drawn⟩ id =
      (r.heldBy id).filter fun l ↦ l.leaseId ≠ leaseId := by
  simp only [heldBy, List.filter_map, List.filter_filter]
  congr 1
  refine List.filter_congr fun e _ ↦ ?_
  exact Bool.and_comm _ _

/-- The ways an acquire goes: nobody is chosen, the allocator of the worker refuses, or the lease is
issued. -/
theorem acquire_cases (h : r.Kept) (now : Time) (task : TaskEnvelope)
    (ownerId scope uuid : String) :
    (r.scheduler.selectWorker task = none ∧
      r.scheduler.acquire now task ownerId scope uuid =
        (.error (.noWorker task.taskId task.requirement), r.scheduler)) ∨
    ∃ d store, r.scheduler.selectWorker task = some d ∧
      r.scheduler.workers.get? d.workerId = some d ∧
      r.scheduler.allocators.get? d.workerId = some ⟨allocatorOf d, store⟩ ∧ store.Lasting ∧
      (∀ l ∈ store.leases, l.leaseId ∈ r.drawn) ∧
      ((¬ (validateRequest (defaultPolicy d) d.offer (requestFor d task) = .ok () ∧
          Admits (defaultPolicy d) d.offer (store.activeRows.map (·.resources))
            (requestFor d task)) ∧
        ∃ e, r.scheduler.acquire now task ownerId scope uuid =
          (.error (.lease e), { r.scheduler with
            allocators := r.scheduler.allocators.insert d.workerId ⟨allocatorOf d, store⟩ })) ∨
      (validateRequest (defaultPolicy d) d.offer (requestFor d task) = .ok () ∧
        Admits (defaultPolicy d) d.offer (store.activeRows.map (·.resources)) (requestFor d task) ∧
        ∃ lease after, lease.resources = (requestFor d task).asDict ∧
          (store.row lease.leaseId = none → ∃ grown : InMemoryLeases,
            after = ⟨allocatorOf d, grown⟩ ∧ grown.Lasting ∧
            grown.leases = store.leases ++ [lease] ∧
            grown.activeRows = store.activeRows ++ [lease]) ∧
          r.scheduler.acquire now task ownerId scope uuid =
            (.ok ⟨task, d, lease⟩, { r.scheduler with
              allocators := r.scheduler.allocators.insert d.workerId after
              leaseToWorker := r.scheduler.leaseToWorker.insert lease.leaseId d.workerId
              inflight := r.scheduler.inflight.insert d.workerId
                (r.scheduler.inflightOf d.workerId + 1) }))) := by
  cases hselect : r.scheduler.selectWorker task with
  | none =>
      refine .inl ⟨rfl, ?_⟩
      rw [InMemoryResourceScheduler.acquire, hselect]
  | some d =>
      obtain ⟨⟨id, hid⟩, -⟩ := InMemoryResourceScheduler.mem_of_selectWorker hselect
      obtain rfl := h.named id d hid
      obtain ⟨store, hstore, hlasting, hdrawn⟩ := h.allocator d.workerId d hid
      refine .inr ⟨d, store, rfl, hid, hstore, hlasting, hdrawn, ?_⟩
      rw [InMemoryResourceScheduler.acquire, hselect]
      simp only [hstore]
      obtain ⟨e, heq, hrefused⟩ | ⟨hrequest, hadmits, lease, after, heq, hresources, hgrown⟩ :=
        WorkerAllocator.acquire_cases hlasting d now (requestFor d task)
          (if ownerId = "" then task.taskId else ownerId)
          (if scope = "" then task.taskType else scope) uuid
      · refine .inl ⟨hrefused, e, ?_⟩
        rw [heq]
      · refine .inr ⟨hrequest, hadmits, lease, after, hresources, hgrown, ?_⟩
        rw [heq]

/-! ### One call -/

theorem Kept.registerWorker (h : r.Kept) (d : WorkerDescriptor) :
    Kept { r with scheduler := r.scheduler.registerWorker d } where
  named id d' hd' := by
    change (r.scheduler.workers.insert _ _).get? id = some d' at hd'
    rw [OrderedDict.get?_insert] at hd'
    split at hd'
    · next hid =>
      obtain rfl := Option.some.inj hd'
      exact hid.symm
    · exact h.named id d' hd'
  allocator id d' hd' := by
    change (r.scheduler.workers.insert _ _).get? id = some d' at hd'
    change ∃ store, (r.scheduler.allocators.insert _ _).get? id = _ ∧ _
    rw [OrderedDict.get?_insert] at hd' ⊢
    split at hd'
    · next hid =>
      obtain rfl := Option.some.inj hd'
      rw [if_pos hid]
      exact ⟨.empty, rfl, InMemoryLeases.lasting_empty, fun l hl ↦ by cases hl⟩
    · next hid =>
      rw [if_neg hid]
      exact h.allocator id d' hd'
  known id a ha := by
    change (r.scheduler.allocators.insert _ _).get? id = some a at ha
    change ∃ d', (r.scheduler.workers.insert _ _).get? id = some d'
    rw [OrderedDict.get?_insert] at ha ⊢
    split at ha
    · next hid =>
      rw [if_pos hid]
      exact ⟨d, rfl⟩
    · next hid =>
      rw [if_neg hid]
      exact h.known id a ha

/-- The store of one worker is replaced by one that keeps to the ids that were drawn. -/
theorem Kept.insert (h : r.Kept) {d : WorkerDescriptor} {store : InMemoryLeases}
    (hd : r.scheduler.workers.get? d.workerId = some d) (hstore : store.Lasting) {r' : SchedulerRun}
    (hworkers : r'.scheduler.workers = r.scheduler.workers)
    (hallocators : r'.scheduler.allocators =
      r.scheduler.allocators.insert d.workerId ⟨allocatorOf d, store⟩)
    (hdrawn : ∀ l ∈ store.leases, l.leaseId ∈ r'.drawn) (hsub : r.drawn ⊆ r'.drawn) : r'.Kept where
  named id d' hd' := h.named id d' (hworkers ▸ hd')
  allocator id d' hd' := by
    rw [hallocators, OrderedDict.get?_insert]
    rw [hworkers] at hd'
    by_cases hid : id = d.workerId
    · rw [if_pos hid]
      obtain rfl : d = d' := Option.some.inj (hd.symm.trans (hid ▸ hd'))
      exact ⟨store, rfl, hstore, hdrawn⟩
    · rw [if_neg hid]
      obtain ⟨store', hget, hlasting, hids⟩ := h.allocator id d' hd'
      exact ⟨store', hget, hlasting, fun l hl ↦ hsub (hids l hl)⟩
  known id a ha := by
    rw [hallocators, OrderedDict.get?_insert] at ha
    rw [hworkers]
    by_cases hid : id = d.workerId
    · exact ⟨d, hid ▸ hd⟩
    · rw [if_neg hid] at ha
      exact h.known id a ha

/-- The ways a release goes: the lease is not known, or it is taken from its worker. -/
theorem release_cases (h : r.Kept) (now : Time) (leaseId : String) :
    (r.scheduler.leaseToWorker.get? leaseId = none ∧
      r.scheduler.release now leaseId = r.scheduler) ∨
    ∃ workerId, r.scheduler.leaseToWorker.get? leaseId = some workerId ∧
      (r.scheduler.release now leaseId).workers = r.scheduler.workers ∧
      (r.scheduler.release now leaseId).leaseToWorker = r.scheduler.leaseToWorker.erase leaseId ∧
      (r.scheduler.release now leaseId).inflight = r.scheduler.inflight.insert workerId
        (r.scheduler.inflightOf workerId - 1) ∧
      ((r.scheduler.workers.get? workerId = none ∧
        (r.scheduler.release now leaseId).allocators = r.scheduler.allocators) ∨
      ∃ d store, r.scheduler.workers.get? workerId = some d ∧
        r.scheduler.allocators.get? workerId = some ⟨allocatorOf d, store⟩ ∧ store.Lasting ∧
        (∀ l ∈ store.leases, l.leaseId ∈ r.drawn) ∧
        (r.scheduler.release now leaseId).allocators = r.scheduler.allocators.insert workerId
          ⟨allocatorOf d, (store.releaseLease now leaseId none).2⟩) := by
  cases hroute : r.scheduler.leaseToWorker.get? leaseId with
  | none =>
      refine .inl ⟨rfl, ?_⟩
      rw [InMemoryResourceScheduler.release, hroute]
  | some workerId =>
      refine .inr ⟨workerId, rfl, ?_⟩
      rw [InMemoryResourceScheduler.release, hroute]
      refine ⟨rfl, rfl, rfl, ?_⟩
      cases hd : r.scheduler.workers.get? workerId with
      | none =>
          refine .inl ⟨rfl, ?_⟩
          cases ha : r.scheduler.allocators.get? workerId with
          | none => simp only [ha]
          | some a =>
              obtain ⟨d, hd'⟩ := h.known workerId a ha
              rw [hd] at hd'
              cases hd'
      | some d =>
          obtain ⟨store, hstore, hlasting, hdrawn⟩ := h.allocator workerId d hd
          refine .inr ⟨d, store, rfl, hstore, hlasting, hdrawn, ?_⟩
          simp only [hstore]
          rfl

theorem Kept.step (h : r.Kept) {c : SchedulerCall} {r' : SchedulerRun}
    (hstep : r.step c = some r') : r'.Kept := by
  cases c with
  | registerWorker d =>
      obtain rfl := Option.some.inj hstep
      exact h.registerWorker d
  | acquire now task ownerId scope uuid =>
      simp only [SchedulerRun.step] at hstep
      obtain ⟨-, heq⟩ | ⟨d, store, -, hd, -, hlasting, hdrawn, hreply⟩ :=
        acquire_cases h now task ownerId scope uuid
      · rw [heq] at hstep
        obtain rfl := Option.some.inj hstep
        exact h
      · obtain ⟨-, e, heq⟩ | ⟨-, -, lease, after, -, hgrown, heq⟩ := hreply
        · rw [heq] at hstep
          obtain rfl := Option.some.inj hstep
          exact h.insert hd hlasting rfl rfl hdrawn (List.Subset.refl _)
        · rw [heq] at hstep
          simp only at hstep
          split at hstep
          · cases hstep
          · next hnew =>
            obtain rfl := Option.some.inj hstep
            have hrow : store.row lease.leaseId = none :=
              Rows.lookup_eq_none.mpr fun l hl hid ↦ hnew (hid ▸ hdrawn l hl)
            obtain ⟨grown, rfl, hgrows, hleases, -⟩ := hgrown hrow
            refine h.insert hd hgrows rfl rfl ?_ (List.subset_cons_self _ _)
            intro l hl
            rw [hleases] at hl
            obtain hl | hl := List.mem_append.mp hl
            · exact List.mem_cons_of_mem _ (hdrawn l hl)
            · obtain rfl := List.mem_singleton.mp hl
              exact List.mem_cons_self
  | release now leaseId =>
      obtain rfl := Option.some.inj hstep
      obtain ⟨-, hsame⟩ | ⟨workerId, -, hworkers, -, -, hrest⟩ := release_cases h now leaseId
      · refine ⟨?_, ?_, ?_⟩
        · simpa only [hsame] using h.named
        · simpa only [hsame] using h.allocator
        · simpa only [hsame] using h.known
      · obtain ⟨-, hallocators⟩ | ⟨d, store, hd, -, hlasting, hdrawn, hallocators⟩ := hrest
        · refine ⟨?_, ?_, ?_⟩
          · simpa only [hworkers] using h.named
          · simpa only [hworkers, hallocators] using h.allocator
          · simpa only [hworkers, hallocators] using h.known
        · obtain rfl := h.named workerId d hd
          refine h.insert hd hlasting.releaseLease hworkers hallocators ?_ (List.Subset.refl _)
          intro l hl
          have hmem : l.leaseId ∈
              (store.releaseLease now leaseId none).2.leases.map ResourceLease.leaseId :=
            List.mem_map_of_mem hl
          rw [InMemoryLeases.leaseIds_releaseLease] at hmem
          obtain ⟨l', hl', hid⟩ := List.mem_map.mp hmem
          rw [← hid]
          exact hdrawn l' hl'

end SchedulerRun

end Blackbase.Resources.Scheduler

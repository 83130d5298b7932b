import Blackbase.Resources.Scheduler.Calls

/-!
# The books of the scheduler

The map of the leases, the counts of the tasks in flight and the stores of the workers, against the
leases that are out.  In any run every lease that is out is routed to its worker and counted there,
and a store lists no lease but these.
-/

namespace Blackbase.Resources.Scheduler

/-- The request made of a task asks for one worker. -/
@[simp] theorem workers_requestFor (d : WorkerDescriptor) (task : TaskEnvelope) :
    (requestFor d task).workers = 1 := by
  have hone : task.requirement.toResourceRequest.workers = 1 := rfl
  rw [requestFor]
  split
  · rfl
  · exact hone

namespace SchedulerRun

variable {r : SchedulerRun}

/-- The scheduler's dictionaries and the stores of its workers agree on the leases that are out. -/
structure Tallied (r : SchedulerRun) : Prop where
  kept : r.Kept
  listed : ∀ id d store, r.scheduler.workers.get? id = some d →
    r.scheduler.allocators.get? id = some ⟨allocatorOf d, store⟩ →
      store.activeRows.Sublist (r.heldBy id)
  inflight : ∀ id, r.scheduler.inflightOf id = (r.heldBy id).length
  known : ∀ e ∈ r.unreleased, ∃ d, r.scheduler.workers.get? e.1 = some d
  routed : ∀ leaseId w, r.scheduler.leaseToWorker.get? leaseId = some w ↔
    ∃ e ∈ r.unreleased, e.2.leaseId = leaseId ∧ e.1 = w
  nodup : (r.unreleased.map fun e ↦ e.2.leaseId).Nodup
  drawn : ∀ e ∈ r.unreleased, e.2.leaseId ∈ r.drawn
  requested : ∀ e ∈ r.unreleased, ∃ req : ResourceRequest, e.2.resources = req.asDict ∧
    req.workers = 1

theorem mem_heldBy {id : String} {l : ResourceLease} :
    l ∈ r.heldBy id ↔ (id, l) ∈ r.unreleased := by
  simp only [heldBy, List.mem_map, List.mem_filter, decide_eq_true_eq]
  constructor
  · rintro ⟨⟨w, _⟩, ⟨he, rfl⟩, rfl⟩
    exact he
  · intro h
    exact ⟨(id, l), ⟨h, rfl⟩, rfl⟩

theorem tallied_start : start.Tallied where
  kept := kept_start
  listed _ _ _ h := by cases h
  inflight _ := rfl
  known _ h := by cases h
  routed leaseId w := by
    constructor
    · intro h
      cases h
    · rintro ⟨e, he, -⟩
      cases he
  nodup := List.nodup_nil
  drawn _ h := by cases h
  requested _ h := by cases h

namespace Tallied

theorem unique (h : r.Tallied) {e e' : String × ResourceLease} (he : e ∈ r.unreleased)
    (he' : e' ∈ r.unreleased) (hid : e.2.leaseId = e'.2.leaseId) : e = e' :=
  List.inj_on_of_nodup_map h.nodup he he' hid

theorem requested_heldBy (h : r.Tallied) {id : String} :
    ∀ c ∈ (r.heldBy id).map (·.resources), c.Requested := by
  intro c hc
  obtain ⟨l, hl, rfl⟩ := List.mem_map.mp hc
  obtain ⟨req, hreq, -⟩ := h.requested _ (mem_heldBy.mp hl)
  exact ⟨req, hreq⟩

/-- Every lease of a worker counts as one. -/
theorem sum_workerCount (h : r.Tallied) {id : String} {leases : List ResourceLease}
    (hsub : leases ⊆ r.heldBy id) :
    ((leases.map (·.resources)).map (·.workerCount)).sum = leases.length := by
  induction leases with
  | nil => rfl
  | cons l rest ih =>
      obtain ⟨hl, hrest⟩ := List.cons_subset.mp hsub
      obtain ⟨req, hreq, hone⟩ := h.requested _ (mem_heldBy.mp hl)
      rw [List.map_cons, List.map_cons, List.sum_cons, ih hrest, hreq,
        ResourceRequest.workerCount_asDict, hone, List.length_cons]
      push_cast
      ring

/-! ### Registering -/

theorem heldBy_eq_nil {id : String} (hidle : ∀ e ∈ r.unreleased, e.1 ≠ id) : r.heldBy id = [] := by
  rw [List.eq_nil_iff_forall_not_mem]
  intro l hl
  exact hidle _ (mem_heldBy.mp hl) rfl

theorem registerWorker (h : r.Tallied) (d : WorkerDescriptor) :
    Tallied { r with scheduler := r.scheduler.registerWorker d } where
  kept := h.kept.registerWorker d
  listed id d' store hd' hstore := by
    change (r.scheduler.workers.insert _ _).get? id = some d' at hd'
    change (r.scheduler.allocators.insert _ _).get? id = _ at hstore
    change store.activeRows.Sublist (r.heldBy id)
    rw [OrderedDict.get?_insert] at hd' hstore
    by_cases hid : id = d.workerId
    · rw [if_pos hid] at hstore
      rw [← (WorkerAllocator.mk.inj (Option.some.inj hstore)).2]
      exact List.nil_sublist _
    · rw [if_neg hid] at hd' hstore
      exact h.listed id d' store hd' hstore
  inflight id := by
    change (r.scheduler.registerWorker d).inflightOf id = (r.heldBy id).length
    rw [InMemoryResourceScheduler.inflightOf_registerWorker]
    exact h.inflight id
  known e he := by
    change ∃ d', (r.scheduler.workers.insert _ _).get? e.1 = some d'
    rw [OrderedDict.get?_insert]
    by_cases hid : e.1 = d.workerId
    · rw [if_pos hid]
      exact ⟨d, rfl⟩
    · rw [if_neg hid]
      exact h.known e he
  routed := h.routed
  nodup := h.nodup
  drawn := h.drawn
  requested := h.requested

/-! ### Acquiring -/

/-- A refusal leaves the books as they are. -/
theorem refused (h : r.Tallied) {d : WorkerDescriptor} {store : InMemoryLeases}
    (hstore : r.scheduler.allocators.get? d.workerId = some ⟨allocatorOf d, store⟩)
    (hkept : Kept { r with scheduler := { r.scheduler with
      allocators := r.scheduler.allocators.insert d.workerId ⟨allocatorOf d, store⟩ } }) :
    Tallied { r with scheduler := { r.scheduler with
      allocators := r.scheduler.allocators.insert d.workerId ⟨allocatorOf d, store⟩ } } where
  kept := hkept
  listed id d' store' hd' hstore' := by
    refine h.listed id d' store' hd' ?_
    rw [OrderedDict.get?_insert] at hstore'
    by_cases hid : id = d.workerId
    · rw [if_pos hid] at hstore'
      rw [hid, hstore, hstore']
    · rwa [if_neg hid] at hstore'
  inflight := h.inflight
  known := h.known
  routed := h.routed
  nodup := h.nodup
  drawn := h.drawn
  requested := h.requested

/-- A lease of a new id is entered in all the books. -/
theorem issued (h : r.Tallied) {d : WorkerDescriptor} {store grown : InMemoryLeases}
    {lease : ResourceLease} {task : TaskEnvelope}
    (hd : r.scheduler.workers.get? d.workerId = some d)
    (hstore : r.scheduler.allocators.get? d.workerId = some ⟨allocatorOf d, store⟩)
    (hresources : lease.resources = (requestFor d task).asDict) (hnew : lease.leaseId ∉ r.drawn)
    (hgrown : grown.activeRows = store.activeRows ++ [lease]) {r' : SchedulerRun} (hkept : r'.Kept)
    (hr' : r' =
      { scheduler := { r.scheduler with
          allocators := r.scheduler.allocators.insert d.workerId ⟨allocatorOf d, grown⟩
          leaseToWorker := r.scheduler.leaseToWorker.insert lease.leaseId d.workerId
          inflight := r.scheduler.inflight.insert d.workerId
            (r.scheduler.inflightOf d.workerId + 1) }
        unreleased := r.unreleased ++ [(d.workerId, lease)]
        drawn := lease.leaseId :: r.drawn }) : r'.Tallied := by
  subst hr'
  refine ⟨hkept, ?_, ?_, ?_, ?_, ?_, ?_, ?_⟩
  · intro id d' store' hd' hstore'
    change (r.scheduler.allocators.insert _ _).get? id = _ at hstore'
    rw [OrderedDict.get?_insert] at hstore'
    rw [heldBy_append]
    by_cases hid : id = d.workerId
    · rw [if_pos hid] at hstore'
      rw [if_pos hid.symm, hid, ← (WorkerAllocator.mk.inj (Option.some.inj hstore')).2, hgrown]
      exact (h.listed d.workerId d store hd hstore).append_right [lease]
    · rw [if_neg hid] at hstore'
      rw [if_neg fun heq ↦ hid heq.symm]
      exact h.listed id d' store' hd' hstore'
  · intro id
    change ((r.scheduler.inflight.insert _ _).get? id).getD 0 = _
    rw [InMemoryResourceScheduler.inflightOf_insert, heldBy_append]
    by_cases hid : id = d.workerId
    · rw [if_pos hid, if_pos hid.symm, hid, h.inflight, List.length_append, List.length_singleton]
    · rw [if_neg hid, if_neg fun heq ↦ hid heq.symm]
      exact h.inflight id
  · intro e he
    obtain he | he := List.mem_append.mp he
    · exact h.known e he
    · obtain rfl := List.mem_singleton.mp he
      exact ⟨d, hd⟩
  · intro leaseId w
    change (r.scheduler.leaseToWorker.insert _ _).get? leaseId = some w ↔ _
    rw [OrderedDict.get?_insert]
    by_cases hid : leaseId = lease.leaseId
    · rw [if_pos hid, Option.some.injEq]
      constructor
      · rintro rfl
        exact ⟨(d.workerId, lease), List.mem_append_right _ (List.mem_singleton_self _),
          hid.symm, rfl⟩
      · rintro ⟨e, he, heq, rfl⟩
        obtain he | he := List.mem_append.mp he
        · exact absurd (h.drawn e he) (heq.trans hid ▸ hnew)
        · obtain rfl := List.mem_singleton.mp he
          rfl
    · rw [if_neg hid, h.routed]
      constructor
      · rintro ⟨e, he, heq⟩
        exact ⟨e, List.mem_append_left _ he, heq⟩
      · rintro ⟨e, he, heq, hw⟩
        obtain he | he := List.mem_append.mp he
        · exact ⟨e, he, heq, hw⟩
        · obtain rfl := List.mem_singleton.mp he
          exact absurd heq.symm hid
  · change ((r.unreleased ++ [(d.workerId, lease)]).map fun e ↦ e.2.leaseId).Nodup
    rw [List.map_append, List.nodup_append]
    refine ⟨h.nodup, List.nodup_singleton _, ?_⟩
    intro leaseId hmem leaseId' hmem' heq
    obtain ⟨e, he, rfl⟩ := List.mem_map.mp hmem
    obtain rfl := List.mem_singleton.mp hmem'
    have hid : e.2.leaseId = lease.leaseId := heq
    exact hnew (hid ▸ h.drawn e he)
  · intro e he
    obtain he | he := List.mem_append.mp he
    · exact List.mem_cons_of_mem _ (h.drawn e he)
    · obtain rfl := List.mem_singleton.mp he
      exact List.mem_cons_self
  · intro e he
    obtain he | he := List.mem_append.mp he
    · exact h.requested e he
    · obtain rfl := List.mem_singleton.mp he
      exact ⟨requestFor d task, hresources, workers_requestFor d task⟩

/-! ### Releasing -/

/-- Of leases without a common id, one goes with its id. -/
theorem length_filter_leaseId {leases : List ResourceLease} {l : ResourceLease}
    (hnodup : (leases.map ResourceLease.leaseId).Nodup) (hl : l ∈ leases) :
    (leases.filter fun l' ↦ l'.leaseId ≠ l.leaseId).length = leases.length - 1 := by
  induction leases with
  | nil => cases hl
  | cons l' rest ih =>
      obtain ⟨hhead, hrest⟩ := List.nodup_cons.mp hnodup
      obtain rfl | hmem := List.mem_cons.mp hl
      · have hself : (rest.filter fun l' ↦ l'.leaseId ≠ l.leaseId) = rest := by
          rw [List.filter_eq_self]
          intro l' hl'
          exact decide_eq_true fun hid ↦ hhead (hid ▸ List.mem_map_of_mem hl')
        rw [List.filter_cons_of_neg (by simp), hself, List.length_cons, Nat.add_sub_cancel]
      · have hne : l'.leaseId ≠ l.leaseId := by
          intro hid
          exact hhead (hid ▸ List.mem_map_of_mem hmem)
        have hpos : 0 < rest.length := List.length_pos_of_mem hmem
        rw [List.filter_cons_of_pos (by simpa using hne), List.length_cons, List.length_cons,
          ih hrest hmem]
        omega

theorem nodup_heldBy (h : r.Tallied) (id : String) :
    ((r.heldBy id).map ResourceLease.leaseId).Nodup := by
  rw [heldBy, List.map_map]
  exact h.nodup.sublist (List.filter_sublist.map _)

/-- Leases of other workers do not go with a lease of this one. -/
theorem heldBy_filter_of_ne (h : r.Tallied) {e : String × ResourceLease}
    (he : e ∈ r.unreleased) {id : String} (hid : id ≠ e.1) :
    ((r.heldBy id).filter fun l ↦ l.leaseId ≠ e.2.leaseId) = r.heldBy id := by
  rw [List.filter_eq_self]
  intro l hl
  refine decide_eq_true fun hleaseId ↦ hid ?_
  have hpair : ((id, l) : String × ResourceLease) = e :=
    h.unique (mem_heldBy.mp hl) he hleaseId
  exact congrArg Prod.fst hpair

/-- An id that is not known is that of no lease that is out. -/
theorem filter_of_unknown (h : r.Tallied) {leaseId : String}
    (hunknown : r.scheduler.leaseToWorker.get? leaseId = none) :
    (r.unreleased.filter fun e ↦ e.2.leaseId ≠ leaseId) = r.unreleased := by
  rw [List.filter_eq_self]
  intro e he
  refine decide_eq_true fun hid ↦ ?_
  have hknown := (h.routed leaseId e.1).mpr ⟨e, he, hid, rfl⟩
  rw [hunknown] at hknown
  cases hknown

/-- A lease that is out is taken from all the books. -/
theorem released (h : r.Tallied) {now : Time} {e : String × ResourceLease}
    (he : e ∈ r.unreleased) {d : WorkerDescriptor} {store : InMemoryLeases}
    (hd : r.scheduler.workers.get? e.1 = some d)
    (hstore : r.scheduler.allocators.get? e.1 = some ⟨allocatorOf d, store⟩)
    (hlasting : store.Lasting) {r' : SchedulerRun} (hkept : r'.Kept)
    (hworkers : r'.scheduler.workers = r.scheduler.workers)
    (hroutes : r'.scheduler.leaseToWorker = r.scheduler.leaseToWorker.erase e.2.leaseId)
    (hinflight : r'.scheduler.inflight = r.scheduler.inflight.insert e.1
      (r.scheduler.inflightOf e.1 - 1))
    (hallocators : r'.scheduler.allocators = r.scheduler.allocators.insert e.1
      ⟨allocatorOf d, (store.releaseLease now e.2.leaseId none).2⟩)
    (hunreleased : r'.unreleased = r.unreleased.filter fun e' ↦ e'.2.leaseId ≠ e.2.leaseId)
    (hdrawn : r'.drawn = r.drawn) : r'.Tallied := by
  have hheld : ∀ id, r'.heldBy id = (r.heldBy id).filter fun l ↦ l.leaseId ≠ e.2.leaseId := by
    intro id
    rw [← heldBy_filter e.2.leaseId r'.scheduler r'.drawn id, ← hunreleased]
  have hsub : r'.unreleased.Sublist r.unreleased := by
    rw [hunreleased]
    exact List.filter_sublist
  refine ⟨hkept, ?_, ?_, ?_, ?_, ?_, ?_, ?_⟩
  · intro id d' store' hd' hstore'
    rw [hworkers] at hd'
    rw [hallocators, OrderedDict.get?_insert] at hstore'
    rw [hheld]
    by_cases hid : id = e.1
    · rw [if_pos hid] at hstore'
      rw [hid, ← (WorkerAllocator.mk.inj (Option.some.inj hstore')).2,
        hlasting.activeRows_releaseLease now]
      exact (h.listed e.1 d store hd hstore).filter _
    · rw [if_neg hid] at hstore'
      rw [h.heldBy_filter_of_ne he hid]
      exact h.listed id d' store' hd' hstore'
  · intro id
    rw [InMemoryResourceScheduler.inflightOf, hinflight,
      InMemoryResourceScheduler.inflightOf_insert, hheld]
    by_cases hid : id = e.1
    · rw [if_pos hid, hid, h.inflight,
        length_filter_leaseId (h.nodup_heldBy e.1) (mem_heldBy.mpr he)]
    · rw [if_neg hid, h.heldBy_filter_of_ne he hid]
      exact h.inflight id
  · intro e' he'
    rw [hworkers]
    exact h.known e' (hsub.subset he')
  · intro leaseId w
    rw [hroutes, hunreleased]
    by_cases hid : leaseId = e.2.leaseId
    · rw [hid, OrderedDict.get?_erase_self]
      constructor
      · intro hnone
        cases hnone
      · rintro ⟨e', he', heq, -⟩
        exact absurd heq (of_decide_eq_true (List.mem_filter.mp he').2)
    · have hkeep : (r.scheduler.leaseToWorker.erase e.2.leaseId).get? leaseId =
          r.scheduler.leaseToWorker.get? leaseId := by
        refine Option.ext fun w ↦ ?_
        rw [OrderedDict.get?_eq_some, OrderedDict.get?_eq_some, OrderedDict.mem_erase]
        exact and_iff_left hid
      rw [hkeep, h.routed]
      constructor
      · rintro ⟨e', he', heq, hw⟩
        refine ⟨e', List.mem_filter.mpr ⟨he', decide_eq_true ?_⟩, heq, hw⟩
        exact fun hsame ↦ hid (heq.symm.trans hsame)
      · rintro ⟨e', he', heq, hw⟩
        exact ⟨e', (List.mem_filter.mp he').1, heq, hw⟩
  · exact h.nodup.sublist (hsub.map _)
  · intro e' he'
    rw [hdrawn]
    exact h.drawn e' (hsub.subset he')
  · intro e' he'
    exact h.requested e' (hsub.subset he')

/-! ### Any call -/

theorem step (h : r.Tallied) {c : SchedulerCall} {r' : SchedulerRun} (hstep : r.step c = some r') :
    r'.Tallied := by
  have hkept : r'.Kept := h.kept.step hstep
  cases c with
  | registerWorker d =>
      obtain rfl := Option.some.inj hstep
      exact h.registerWorker d
  | acquire now task ownerId scope uuid =>
      simp only [SchedulerRun.step] at hstep
      obtain ⟨-, heq⟩ | ⟨d, store, -, hd, hstore, hlasting, hdrawn, hreply⟩ :=
        acquire_cases h.kept now task ownerId scope uuid
      · rw [heq] at hstep
        obtain rfl := Option.some.inj hstep
        exact h
      · obtain ⟨-, e, heq⟩ | ⟨-, -, lease, after, hresources, hgrown, heq⟩ := hreply
        · rw [heq] at hstep
          obtain rfl := Option.some.inj hstep
          exact h.refused hstore hkept
        · rw [heq] at hstep
          simp only at hstep
          split at hstep
          · cases hstep
          · next hnew =>
            have hrow : store.row lease.leaseId = none :=
              Rows.lookup_eq_none.mpr fun l hl hid ↦ hnew (hid ▸ hdrawn l hl)
            obtain ⟨grown, rfl, -, -, hactive⟩ := hgrown hrow
            exact h.issued hd hstore hresources hnew hactive hkept (Option.some.inj hstep).symm
  | release now leaseId =>
      obtain rfl := Option.some.inj hstep
      obtain ⟨hunknown, hsame⟩ | ⟨w, hroute, hworkers, hroutes, hinflight, hrest⟩ :=
        release_cases h.kept now leaseId
      · rw [hsame, h.filter_of_unknown hunknown]
        exact h
      · obtain ⟨e, he, rfl, rfl⟩ := (h.routed leaseId w).mp hroute
        obtain ⟨hnone, -⟩ | ⟨d, store, hd, hstore, hlasting, -, hallocators⟩ := hrest
        · obtain ⟨d, hd⟩ := h.known e he
          rw [hnone] at hd
          cases hd
        · exact h.released he hd hstore hlasting hkept hworkers hroutes hinflight hallocators rfl
            rfl

end Tallied

end SchedulerRun

end Blackbase.Resources.Scheduler

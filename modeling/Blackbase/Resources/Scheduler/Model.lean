import Blackbase.Core.Holdings
import Blackbase.Resources.Lease.Admission
import Blackbase.Resources.Lease.InMemory
import Blackbase.Resources.Transport.Model

/-!
# The in-memory scheduler

`InMemoryResourceScheduler` of `resources/model.py` with the policy it makes of a worker's own
limits.  It keeps the workers, an allocator with a lease store of its own for every worker, the
worker of each lease that is out, and for every worker how many tasks it has in flight.

A worker that is registered again gets a new allocator, and with it a new lease store.
-/

namespace Blackbase.Resources

/-- `ResourceRequirement.to_resource_request`. -/
def ResourceRequirement.toResourceRequest (r : ResourceRequirement) : ResourceRequest :=
  .make 1 (some r.threads) r.gpus r.memoryMb r.deviceTokens

namespace Scheduler

/-! ## Allocators -/

/-- The policy of a worker when the scheduler was given none. -/
def defaultPolicy (worker : WorkerDescriptor) : ResourcePolicy :=
  .make worker.maxInflight (some worker.offer.threads) worker.offer.memoryMb
    (some worker.offer.gpus) "strict" "exclusive" false

/-- `ResourceAllocator(offer=offer, policy=policy)`, without its store. -/
def allocatorOf (worker : WorkerDescriptor) : ResourceAllocator where
  policy := defaultPolicy worker
  offer := worker.offer
  leaseTtlSeconds := 0

/-- `ResourceAllocator` with an `InMemoryLeaseStore`. -/
structure WorkerAllocator where
  allocator : ResourceAllocator
  leaseStore : InMemoryLeases

namespace WorkerAllocator

/-- `ResourceAllocator.acquire`; `uuid` is the random part of the id. -/
def acquire (a : WorkerAllocator) (now : Time) (req : ResourceRequest)
    (ownerId scope uuid : String) :
    Except (LeaseError ResourceBudgetError) ResourceLease × WorkerAllocator :=
  let policy := a.allocator.policy
  match if policy.strict then validateRequest policy a.allocator.offer req else .ok () with
  | .error e => (.error (.refused e), a)
  | .ok () =>
      let (reply, leaseStore) := a.leaseStore.acquireLease now
        (ResourceAllocator.candidate now req ownerId scope uuid)
        (fun active ↦ if policy.strict then
          validateAggregateBudget policy a.allocator.offer req active else .ok ())
        a.allocator.leaseTtlSeconds
      (reply, { a with leaseStore := leaseStore })

/-- `ResourceAllocator.release` of a lease id. -/
def release (a : WorkerAllocator) (now : Time) (leaseId : String) : WorkerAllocator :=
  { a with leaseStore := (a.leaseStore.releaseLease now leaseId none).2 }

end WorkerAllocator

/-! ## The scheduler -/

/-- `InMemoryResourceScheduler` with its `InMemoryWorkerRegistry`. -/
structure InMemoryResourceScheduler where
  workers : OrderedDict WorkerDescriptor
  allocators : OrderedDict WorkerAllocator
  leaseToWorker : OrderedDict String
  inflight : OrderedDict ℕ

/-- `ScheduledTask`. -/
structure ScheduledTask where
  task : TaskEnvelope
  worker : WorkerDescriptor
  lease : ResourceLease

/-- What `acquire` raises. -/
inductive ScheduleError where
  /-- `ResourceBudgetError` of `_select_worker_locked`. -/
  | noWorker (taskId : String) (requirement : ResourceRequirement)
  /-- What the allocator raises. -/
  | lease (e : LeaseError ResourceBudgetError)
  /-- `KeyError`. -/
  | key (workerId : String)

/-- The request the scheduler makes of a task for the worker it chose: a task that asks for GPUs
and names none is given the first tokens of the offer. -/
def requestFor (worker : WorkerDescriptor) (task : TaskEnvelope) : ResourceRequest :=
  let request := task.requirement.toResourceRequest
  if 0 < request.gpus ∧ request.deviceTokens = [] then
    .make request.workers (some request.threads) request.gpus request.memoryMb
      (worker.offer.deviceTokens.take request.gpus.toNat)
  else request

namespace InMemoryResourceScheduler

/-- The scheduler as its constructor leaves it. -/
def empty : InMemoryResourceScheduler := ⟨∅, ∅, ∅, ∅⟩

/-- `register_worker`. -/
def registerWorker (s : InMemoryResourceScheduler) (worker : WorkerDescriptor) :
    InMemoryResourceScheduler where
  workers := s.workers.insert worker.workerId worker
  allocators := s.allocators.insert worker.workerId ⟨allocatorOf worker, .empty⟩
  leaseToWorker := s.leaseToWorker
  inflight := s.inflight.setDefault worker.workerId 0

/-- The tasks a worker has in flight, as the scheduler counts them. -/
def inflightOf (s : InMemoryResourceScheduler) (workerId : String) : ℕ :=
  (s.inflight.get? workerId).getD 0

/-- `worker.can_run(...)` with the count of the scheduler. -/
def canRun (s : InMemoryResourceScheduler) (task : TaskEnvelope) (worker : WorkerDescriptor) :
    Bool :=
  worker.canRun task.requirement task.executorBackend (s.inflightOf worker.workerId)

/-- `registry.list_workers()`. -/
def listWorkers (s : InMemoryResourceScheduler) : List WorkerDescriptor :=
  s.workers.entries.map Prod.snd

/-- `_select_worker_locked`. -/
def selectWorker (s : InMemoryResourceScheduler) (task : TaskEnvelope) : Option WorkerDescriptor :=
  s.listWorkers.find? (s.canRun task)

/-- `acquire`. -/
def acquire (s : InMemoryResourceScheduler) (now : Time) (task : TaskEnvelope)
    (ownerId scope uuid : String) :
    Except ScheduleError ScheduledTask × InMemoryResourceScheduler :=
  match s.selectWorker task with
  | none => (.error (.noWorker task.taskId task.requirement), s)
  | some worker =>
      match s.allocators.get? worker.workerId with
      | none => (.error (.key worker.workerId), s)
      | some a =>
          match a.acquire now (requestFor worker task)
              (if ownerId = "" then task.taskId else ownerId)
              (if scope = "" then task.taskType else scope) uuid with
          | (.error e, a) =>
              (.error (.lease e), { s with allocators := s.allocators.insert worker.workerId a })
          | (.ok lease, a) =>
              (.ok ⟨task, worker, lease⟩,
                { s with
                  allocators := s.allocators.insert worker.workerId a
                  leaseToWorker := s.leaseToWorker.insert lease.leaseId worker.workerId
                  inflight := s.inflight.insert worker.workerId
                    (s.inflightOf worker.workerId + 1) })

/-- `release` of a lease id. -/
def release (s : InMemoryResourceScheduler) (now : Time) (leaseId : String) :
    InMemoryResourceScheduler :=
  match s.leaseToWorker.get? leaseId with
  | none => s
  | some workerId =>
      { s with
        allocators := match s.allocators.get? workerId with
          | none => s.allocators
          | some a => s.allocators.insert workerId (a.release now leaseId)
        leaseToWorker := s.leaseToWorker.erase leaseId
        inflight := s.inflight.insert workerId (s.inflightOf workerId - 1) }

/-- `active_leases`. -/
def activeLeases (s : InMemoryResourceScheduler) (now : Time) : List ResourceLease :=
  s.allocators.entries.flatMap fun e ↦
    (e.2.leaseStore.expireLocked now).leases.filter (·.active now)

end InMemoryResourceScheduler

/-! ## Runs -/

/-- A call on the scheduler.  `now` is what the clock reads. -/
inductive SchedulerCall where
  | registerWorker (worker : WorkerDescriptor)
  | acquire (now : Time) (task : TaskEnvelope) (ownerId scope uuid : String)
  | release (now : Time) (leaseId : String)

/-- The scheduler with what its callers know: the leases they have and have not released, each with
the worker it was issued on, and the ids of all leases they were ever given. -/
structure SchedulerRun where
  scheduler : InMemoryResourceScheduler
  unreleased : List (String × ResourceLease)
  drawn : List String

namespace SchedulerRun

/-- Nothing has been called. -/
def start : SchedulerRun := ⟨.empty, [], []⟩

/-- One call.  No lease id is drawn twice. -/
def step (r : SchedulerRun) : SchedulerCall → Option SchedulerRun
  | .registerWorker worker => some { r with scheduler := r.scheduler.registerWorker worker }
  | .acquire now task ownerId scope uuid =>
      match r.scheduler.acquire now task ownerId scope uuid with
      | (.error _, s) => some { r with scheduler := s }
      | (.ok scheduled, s) =>
          if scheduled.lease.leaseId ∈ r.drawn then none
          else some
            { scheduler := s
              unreleased := r.unreleased ++ [(scheduled.worker.workerId, scheduled.lease)]
              drawn := scheduled.lease.leaseId :: r.drawn }
  | .release now leaseId => some
      { r with
        scheduler := r.scheduler.release now leaseId
        unreleased := r.unreleased.filter fun e ↦ e.2.leaseId ≠ leaseId }

/-- The unreleased leases issued on a worker. -/
def heldBy (r : SchedulerRun) (workerId : String) : List ResourceLease :=
  (r.unreleased.filter fun e ↦ e.1 = workerId).map Prod.snd

end SchedulerRun

end Scheduler

end Blackbase.Resources

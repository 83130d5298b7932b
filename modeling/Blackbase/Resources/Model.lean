import Blackbase.Core.Text

/-!
# L0 resource objects

The parts of `resources/model.py` that the lease authorities, the admission
control and the shared budgets read: the request of one Case run, what a Project
offers, the Project's policy, and the lease issued for an admitted request.

Times are seconds since the epoch and amounts of memory are megabytes; both are
floats in the source and exact rationals here.
-/

namespace Blackbase.Resources

/-- A clock reading in seconds. -/
abbrev Time := ℚ

/-! ## Device tokens -/

/-- `_device_family`. -/
def deviceFamily (value : String) : String :=
  let normalized := Text.lower (Text.strip value)
  if Text.startsWith normalized "cuda" || Text.startsWith normalized "gpu" ||
      Text.occursIn "gpu" normalized then "gpu"
  else if Text.startsWith normalized "mps" then "mps"
  else if Text.startsWith normalized "cpu" then "cpu"
  else normalized

/-- `_is_accelerator_token`. -/
def isAcceleratorToken (value : String) : Bool :=
  deviceFamily value = "gpu" || deviceFamily value = "mps"

/-- The number of accelerator tokens among `tokens`. -/
def acceleratorCount (tokens : List String) : ℤ := (tokens.filter isAcceleratorToken).length

/-- `_as_float_or_none`: a missing or non-positive amount counts as not given. -/
def asFloatOrNone (value : Option ℚ) : Option ℚ := value.filter fun x ↦ 0 < x

theorem pos_of_asFloatOrNone {value : Option ℚ} {x : ℚ} (h : asFloatOrNone value = some x) :
    0 < x := by
  simpa using (Option.filter_eq_some_iff.mp h).2

/-! ## Requests, offers and policies -/

/-- `ResourceOffer`: what a Project or a worker can hand out.  `memoryMb`, `gpuMemoryMb`
and `gpuMemoryMbByDevice` are entries of the offer's metadata. -/
structure ResourceOffer where
  threads : ℤ
  gpus : ℤ
  deviceTokens : List String
  memoryMb : Option ℚ
  gpuMemoryMb : Option ℚ
  gpuMemoryMbByDevice : List (String × ℚ)
  one_le_threads : 1 ≤ threads
  gpus_nonneg : 0 ≤ gpus
deriving DecidableEq

/-- `ResourceOffer.__post_init__`. -/
def ResourceOffer.make (threads gpus : ℤ) (deviceTokens : List String)
    (memoryMb gpuMemoryMb : Option ℚ) (gpuMemoryMbByDevice : List (String × ℚ)) :
    ResourceOffer where
  threads := max 1 threads
  gpus := max 0 (max gpus (acceleratorCount deviceTokens))
  deviceTokens := deviceTokens
  memoryMb := memoryMb
  gpuMemoryMb := gpuMemoryMb
  gpuMemoryMbByDevice := gpuMemoryMbByDevice
  one_le_threads := le_max_left _ _
  gpus_nonneg := le_max_left _ _

/-- The amounts fit an offer; the memory counts only if the offer states its own. -/
def ResourceOffer.covers (offer : ResourceOffer) (threads gpus : ℤ) (deviceTokens : List String)
    (memoryMb : Option ℚ) : Bool :=
  if threads > offer.threads then false
  else if gpus > offer.gpus then false
  else if !(deviceTokens.all (· ∈ offer.deviceTokens)) then false
  else match memoryMb, offer.memoryMb with
    | some needed, some available => needed ≤ available
    | _, _ => true

/-- `ResourceRequest`: the resources one Case run asks for, as normalised by its
constructor. -/
structure ResourceRequest where
  workers : ℤ
  threads : ℤ
  gpus : ℤ
  memoryMb : Option ℚ
  deviceTokens : List String
  one_le_workers : 1 ≤ workers
  one_le_threads : 1 ≤ threads
  gpus_nonneg : 0 ≤ gpus
  memory_pos : ∀ m ∈ memoryMb, 0 < m

/-- `ResourceRequest.__post_init__`: `threads` defaults to the number of workers,
and every accelerator token asks for a GPU. -/
def ResourceRequest.make (workers : ℤ) (threads : Option ℤ) (gpus : ℤ) (memoryMb : Option ℚ)
    (deviceTokens : List String) : ResourceRequest where
  workers := max 1 workers
  threads := match threads with
    | none => max 1 workers
    | some t => max 1 t
  gpus := max 0 (max gpus (acceleratorCount deviceTokens))
  memoryMb := asFloatOrNone memoryMb
  deviceTokens := deviceTokens
  one_le_workers := le_max_left _ _
  one_le_threads := by cases threads <;> exact le_max_left _ _
  gpus_nonneg := le_max_left _ _
  memory_pos := fun _ hm ↦ pos_of_asFloatOrNone hm

/-- `ResourceRequirement.satisfies` for the requirement of a request. -/
def ResourceRequest.satisfies (req : ResourceRequest) (offer : ResourceOffer) : Bool :=
  offer.covers req.threads req.gpus req.deviceTokens req.memoryMb

/-- `ResourceRequirement`: the resources a task asks of a worker. -/
structure ResourceRequirement where
  threads : ℤ
  gpus : ℤ
  resourceBackend : String
  deviceTokens : List String
  memoryMb : Option ℚ
  gpuMemoryMb : Option ℚ
  capabilities : List String
deriving DecidableEq

/-- `ResourceRequirement.__post_init__`. -/
def ResourceRequirement.make (threads gpus : ℤ) (resourceBackend : String)
    (deviceTokens : List String) (memoryMb gpuMemoryMb : Option ℚ)
    (capabilities : List String) : ResourceRequirement where
  threads := max 1 threads
  gpus := max 0 (max gpus (acceleratorCount deviceTokens))
  resourceBackend := if resourceBackend = "" then "local" else resourceBackend
  deviceTokens := deviceTokens
  memoryMb := asFloatOrNone memoryMb
  gpuMemoryMb := asFloatOrNone gpuMemoryMb
  capabilities := capabilities.filter (· ≠ "")

/-- `ResourceRequirement.satisfies`. -/
def ResourceRequirement.satisfies (req : ResourceRequirement) (offer : ResourceOffer) : Bool :=
  offer.covers req.threads req.gpus req.deviceTokens req.memoryMb

/-- The readings of `gpu_sharing` the admission control tells apart, after
lower-casing. -/
inductive GpuSharing where
  | exclusive
  | shared
  | other (text : String)
deriving DecidableEq, Repr

/-- `ResourcePolicy`, as normalised by its constructor. -/
structure ResourcePolicy where
  maxWorkers : ℤ
  maxThreads : ℤ
  maxMemoryMb : Option ℚ
  maxGpus : Option ℤ
  /-- `mode.lower() == "strict"`. -/
  strict : Bool
  gpuSharing : GpuSharing
  cpuOversubscribe : Bool
  one_le_maxWorkers : 1 ≤ maxWorkers
  one_le_maxThreads : 1 ≤ maxThreads
  maxMemoryMb_pos : ∀ m ∈ maxMemoryMb, 0 < m
  maxGpus_nonneg : ∀ g ∈ maxGpus, 0 ≤ g

/-- `ResourcePolicy.__post_init__`. -/
def ResourcePolicy.make (maxWorkers : ℤ) (maxThreads : Option ℤ) (maxMemoryMb : Option ℚ)
    (maxGpus : Option ℤ) (mode gpuSharing : String) (cpuOversubscribe : Bool) :
    ResourcePolicy where
  maxWorkers := max 1 maxWorkers
  maxThreads := match maxThreads with
    | none => max 1 maxWorkers
    | some t => max 1 t
  maxMemoryMb := asFloatOrNone maxMemoryMb
  maxGpus := maxGpus.map (max 0)
  strict := Text.lower (if mode = "" then "strict" else mode) = "strict"
  gpuSharing :=
    let text := Text.lower (if gpuSharing = "" then "exclusive" else gpuSharing)
    if text = "exclusive" then .exclusive else if text = "shared" then .shared else .other text
  cpuOversubscribe := cpuOversubscribe
  one_le_maxWorkers := le_max_left _ _
  one_le_maxThreads := by cases maxThreads <;> exact le_max_left _ _
  maxMemoryMb_pos := fun _ hm ↦ pos_of_asFloatOrNone hm
  maxGpus_nonneg := by
    rintro g hg
    obtain ⟨g', -, rfl⟩ := Option.map_eq_some_iff.mp hg
    exact le_max_left _ _

/-! ## Leases -/

/-- The `resources` mapping of a lease, by the keys the admission control reads. -/
structure LeaseResources where
  workers : Option ℤ
  threads : Option ℤ
  gpus : Option ℤ
  memoryMb : Option ℚ
  deviceTokens : List String
deriving DecidableEq, Repr

/-- `ResourceRequest.as_dict`. -/
def ResourceRequest.asDict (req : ResourceRequest) : LeaseResources where
  workers := some req.workers
  threads := some req.threads
  gpus := some req.gpus
  memoryMb := req.memoryMb
  deviceTokens := req.deviceTokens

/-- `int(resources.get(key, default) or default)`. -/
def getIntOr (value : Option ℤ) (default : ℤ) : ℤ :=
  match value with
  | none => default
  | some v => if v = 0 then default else v

/-- `float(resources.get("memory_mb", 0.0) or 0.0)`. -/
def LeaseResources.memory (r : LeaseResources) : ℚ := r.memoryMb.getD 0

inductive LeaseStatus where
  | active
  | released
  | expired
deriving DecidableEq, Repr

/-- `ResourceLease`: a lease issued by the Project L0 substrate.  Its constructor
clamps the expiry and the fencing token at zero. -/
structure ResourceLease where
  leaseId : String
  ownerId : String
  scope : String
  resources : LeaseResources
  status : LeaseStatus
  createdAt : Time
  updatedAt : Time
  expiresAt : Time
  fencingToken : ℤ
  expiresAt_nonneg : 0 ≤ expiresAt
  fencingToken_nonneg : 0 ≤ fencingToken
deriving DecidableEq

/-- The expiry of a lease that has none, and a token that has not been issued. -/
theorem no_expiry_nonneg : (0 : Time) ≤ 0 := le_rfl

theorem no_token_nonneg : (0 : ℤ) ≤ 0 := le_rfl

namespace ResourceLease

/-- The expiry of a lease has not been reached by the reading `now`; an expiry of
zero or less means that the lease has none. -/
def unexpired (lease : ResourceLease) (now : Time) : Bool :=
  lease.expiresAt ≤ 0 || now < lease.expiresAt

/-- `ResourceLease.active` on a client whose own clock reads `now`. -/
def active (lease : ResourceLease) (now : Time) : Bool :=
  lease.status = .active && lease.unexpired now

/-- The lease is the one named by `fencingToken` and is active at `now`. -/
def fences (lease : ResourceLease) (fencingToken : ℤ) (now : Time) : Bool :=
  lease.status = .active && lease.fencingToken = fencingToken && lease.unexpired now

end ResourceLease

end Blackbase.Resources

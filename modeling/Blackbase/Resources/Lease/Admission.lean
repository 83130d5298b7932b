import Blackbase.Resources.Lease.Store

/-!
# Strict admission

`ResourceAllocator.acquire`: the request is checked against the policy and the offer,
and then, inside the store's admission, together with the leases the store lists as
active.

`Within` says that a list of claims fits the policy and the offer, and `Admits` that a
request fits beside the claims already there; `validateAggregateBudget` decides the
latter (`validateAggregateBudget_eq_ok`), and a request that is admitted keeps the
claims within their limits (`Within.append`).
-/

namespace Blackbase.Resources

/-! ## Amounts of a claim -/

namespace LeaseResources

/-- `int(item.get("workers", 1) or 1)`. -/
def workerCount (r : LeaseResources) : ℤ := getIntOr r.workers 1

/-- `int(item.get("threads", 1) or 1)`. -/
def threadCount (r : LeaseResources) : ℤ := getIntOr r.threads 1

/-- `int(item.get("gpus", 0) or 0)`. -/
def gpuCount (r : LeaseResources) : ℤ := getIntOr r.gpus 0

/-- The resources are those of some request. -/
def Requested (r : LeaseResources) : Prop := ∃ req : ResourceRequest, r = req.asDict

end LeaseResources

namespace ResourceRequest

@[simp] theorem workerCount_asDict (req : ResourceRequest) :
    req.asDict.workerCount = req.workers := by
  have h := req.one_le_workers
  simp only [LeaseResources.workerCount, asDict, getIntOr]
  omega

@[simp] theorem threadCount_asDict (req : ResourceRequest) :
    req.asDict.threadCount = req.threads := by
  have h := req.one_le_threads
  simp only [LeaseResources.threadCount, asDict, getIntOr]
  omega

@[simp] theorem gpuCount_asDict (req : ResourceRequest) : req.asDict.gpuCount = req.gpus := by
  simp only [LeaseResources.gpuCount, asDict, getIntOr]
  omega

@[simp] theorem memory_asDict (req : ResourceRequest) :
    req.asDict.memory = req.memoryMb.getD 0 := rfl

@[simp] theorem deviceTokens_asDict (req : ResourceRequest) :
    req.asDict.deviceTokens = req.deviceTokens := rfl

theorem requested_asDict (req : ResourceRequest) : req.asDict.Requested := ⟨req, rfl⟩

end ResourceRequest

theorem LeaseResources.Requested.workerCount_nonneg {r : LeaseResources} (h : r.Requested) :
    0 ≤ r.workerCount := by
  obtain ⟨req, rfl⟩ := h
  have := req.one_le_workers
  simp only [ResourceRequest.workerCount_asDict]
  omega

theorem LeaseResources.Requested.threadCount_nonneg {r : LeaseResources} (h : r.Requested) :
    0 ≤ r.threadCount := by
  obtain ⟨req, rfl⟩ := h
  have := req.one_le_threads
  simp only [ResourceRequest.threadCount_asDict]
  omega

theorem LeaseResources.Requested.gpuCount_nonneg {r : LeaseResources} (h : r.Requested) :
    0 ≤ r.gpuCount := by
  obtain ⟨req, rfl⟩ := h
  simpa using req.gpus_nonneg

theorem LeaseResources.Requested.memory_nonneg {r : LeaseResources} (h : r.Requested) :
    0 ≤ r.memory := by
  obtain ⟨req, rfl⟩ := h
  rw [ResourceRequest.memory_asDict]
  cases hm : req.memoryMb with
  | none => exact le_rfl
  | some m => exact (req.memory_pos m hm).le

/-! ## Limits -/

/-- `min(offer.threads, policy.max_threads)`. -/
def threadLimit (policy : ResourcePolicy) (offer : ResourceOffer) : ℤ :=
  min offer.threads policy.maxThreads

/-- `offer.gpus`, lowered to `policy.max_gpus` if that is set. -/
def gpuLimit (policy : ResourcePolicy) (offer : ResourceOffer) : ℤ :=
  match policy.maxGpus with
  | none => offer.gpus
  | some g => min offer.gpus g

/-- The claims fit the policy and the offer. -/
structure Within (policy : ResourcePolicy) (offer : ResourceOffer)
    (claims : List LeaseResources) : Prop where
  workers : (claims.map (·.workerCount)).sum ≤ policy.maxWorkers
  threads : policy.cpuOversubscribe = false →
    (claims.map (·.threadCount)).sum ≤ threadLimit policy offer
  gpus : policy.gpuSharing ≠ .shared → (claims.map (·.gpuCount)).sum ≤ gpuLimit policy offer
  memory : ∀ m ∈ policy.maxMemoryMb, (claims.map (·.memory)).sum ≤ m
  devices : policy.gpuSharing = .exclusive →
    claims.Pairwise fun a b ↦ a.deviceTokens.Disjoint b.deviceTokens

/-- The request fits beside the claims. -/
structure Admits (policy : ResourcePolicy) (offer : ResourceOffer)
    (claims : List LeaseResources) (req : ResourceRequest) : Prop where
  workers : (claims.map (·.workerCount)).sum + req.workers ≤ policy.maxWorkers
  threads : policy.cpuOversubscribe = false →
    (claims.map (·.threadCount)).sum + req.threads ≤ threadLimit policy offer
  gpus : policy.gpuSharing ≠ .shared →
    (claims.map (·.gpuCount)).sum + req.gpus ≤ gpuLimit policy offer
  memory : ∀ m ∈ policy.maxMemoryMb,
    (claims.map (·.memory)).sum + req.memoryMb.getD 0 ≤ m
  devices : policy.gpuSharing = .exclusive →
    ∀ c ∈ claims, c.deviceTokens.Disjoint req.deviceTokens

section Within

variable {policy : ResourcePolicy} {offer : ResourceOffer} {claims claims' : List LeaseResources}
  {req : ResourceRequest}

/-- Nothing claimed is within every limit. -/
theorem within_nil : Within policy offer [] where
  workers := by simpa using zero_le_one.trans policy.one_le_maxWorkers
  threads _ := by
    have h₁ := offer.one_le_threads
    have h₂ := policy.one_le_maxThreads
    simp only [List.map_nil, List.sum_nil, threadLimit]
    omega
  gpus _ := by
    rw [List.map_nil, List.sum_nil, gpuLimit]
    cases h : policy.maxGpus with
    | none => exact offer.gpus_nonneg
    | some g => exact le_min offer.gpus_nonneg (policy.maxGpus_nonneg g h)
  memory m hm := by simpa using (policy.maxMemoryMb_pos m hm).le
  devices _ := List.Pairwise.nil

/-- The order of the claims does not matter. -/
theorem Within.perm (h : Within policy offer claims) (hp : claims.Perm claims') :
    Within policy offer claims' where
  workers := by
    rw [← (hp.map (·.workerCount)).sum_eq]
    exact h.workers
  threads hc := by
    rw [← (hp.map (·.threadCount)).sum_eq]
    exact h.threads hc
  gpus hg := by
    rw [← (hp.map (·.gpuCount)).sum_eq]
    exact h.gpus hg
  memory m hm := by
    rw [← (hp.map (·.memory)).sum_eq]
    exact h.memory m hm
  devices he := (hp.pairwise_iff fun hab ↦ hab.symm).mp (h.devices he)

theorem Admits.perm (h : Admits policy offer claims req) (hp : claims.Perm claims') :
    Admits policy offer claims' req where
  workers := by
    rw [← (hp.map (·.workerCount)).sum_eq]
    exact h.workers
  threads hc := by
    rw [← (hp.map (·.threadCount)).sum_eq]
    exact h.threads hc
  gpus hg := by
    rw [← (hp.map (·.gpuCount)).sum_eq]
    exact h.gpus hg
  memory m hm := by
    rw [← (hp.map (·.memory)).sum_eq]
    exact h.memory m hm
  devices he c hc := h.devices he c (hp.mem_iff.mpr hc)

/-- An amount that no request makes negative only falls when claims are dropped. -/
theorem sum_le_of_sublist {M : Type} [AddCommMonoid M] [Preorder M] [AddLeftMono M]
    {amount : LeaseResources → M} (hamount : ∀ c : LeaseResources, c.Requested → 0 ≤ amount c)
    (hreq : ∀ c ∈ claims, c.Requested) (hs : claims'.Sublist claims) :
    (claims'.map amount).sum ≤ (claims.map amount).sum := by
  refine (hs.map amount).sum_le_sum fun x hx ↦ ?_
  obtain ⟨c, hc, rfl⟩ := List.mem_map.mp hx
  exact hamount c (hreq c hc)

/-- Dropping claims keeps the rest within the limits. -/
theorem Within.sublist (h : Within policy offer claims) (hreq : ∀ c ∈ claims, c.Requested)
    (hs : claims'.Sublist claims) : Within policy offer claims' where
  workers := (sum_le_of_sublist (fun _ h ↦ h.workerCount_nonneg) hreq hs).trans h.workers
  threads ho := (sum_le_of_sublist (fun _ h ↦ h.threadCount_nonneg) hreq hs).trans (h.threads ho)
  gpus hg := (sum_le_of_sublist (fun _ h ↦ h.gpuCount_nonneg) hreq hs).trans (h.gpus hg)
  memory m hm := (sum_le_of_sublist (fun _ h ↦ h.memory_nonneg) hreq hs).trans (h.memory m hm)
  devices he := (h.devices he).sublist hs

/-- Dropping claims leaves room for whatever fitted before. -/
theorem Admits.sublist (h : Admits policy offer claims req) (hreq : ∀ c ∈ claims, c.Requested)
    (hs : claims'.Sublist claims) : Admits policy offer claims' req where
  workers := by
    have hle := sum_le_of_sublist (fun _ h ↦ h.workerCount_nonneg) hreq hs
    exact (add_le_add_left hle _).trans h.workers
  threads ho := by
    have hle := sum_le_of_sublist (fun _ h ↦ h.threadCount_nonneg) hreq hs
    exact (add_le_add_left hle _).trans (h.threads ho)
  gpus hg := by
    have hle := sum_le_of_sublist (fun _ h ↦ h.gpuCount_nonneg) hreq hs
    exact (add_le_add_left hle _).trans (h.gpus hg)
  memory m hm := by
    have hle := sum_le_of_sublist (fun _ h ↦ h.memory_nonneg) hreq hs
    exact (add_le_add_left hle _).trans (h.memory m hm)
  devices he c hc := h.devices he c (hs.subset hc)

/-- A request fits beside the claims if they are within the limits with its own. -/
theorem Within.admits (h : Within policy offer (claims ++ [req.asDict])) :
    Admits policy offer claims req := by
  constructor
  · simpa using h.workers
  · simpa using h.threads
  · simpa using h.gpus
  · simpa using h.memory
  · intro he c hc
    exact (List.pairwise_append.mp (h.devices he)).2.2 c hc _ (List.mem_singleton_self _)

/-- An admitted request keeps the claims within the limits. -/
theorem Within.append (h : Within policy offer claims) (hreq : Admits policy offer claims req) :
    Within policy offer (claims ++ [req.asDict]) := by
  constructor
  · simpa using hreq.workers
  · simpa using hreq.threads
  · simpa using hreq.gpus
  · simpa using hreq.memory
  · intro he
    refine List.pairwise_append.mpr ⟨h.devices he, List.pairwise_singleton _ _, ?_⟩
    intro c hc d hd
    obtain rfl := List.mem_singleton.mp hd
    exact hreq.devices he c hc

end Within

/-! ## The checks -/

/-- `ResourceBudgetError`, by the check that raises it. -/
inductive ResourceBudgetError where
  | requestWorkers (workers maxWorkers : ℤ)
  | requestThreads (threads maxThreads : ℤ)
  | requestGpus (gpus maxGpus : ℤ)
  | requestMemory
  | notSatisfied
  | activeWorkers (need maxWorkers : ℤ)
  | activeThreads (need available : ℤ)
  | activeGpus (need available : ℤ)
  | activeMemory (need available : ℚ)
  | deviceConflict (overlap : List String)
deriving DecidableEq, Repr

/-- The message of the exception; `float` is how the interpreter writes a float. -/
def ResourceBudgetError.message (float : ℚ → String) : ResourceBudgetError → String
  | .requestWorkers workers maxWorkers =>
      s!"Resource request workers={workers} exceeds policy max_workers={maxWorkers}"
  | .requestThreads threads maxThreads =>
      s!"Resource request threads={threads} exceeds policy max_threads={maxThreads}"
  | .requestGpus gpus maxGpus =>
      s!"Resource request gpus={gpus} exceeds policy max_gpus={maxGpus}"
  | .requestMemory => "Resource request memory_mb exceeds policy max_memory_mb"
  | .notSatisfied => "Resource request is not satisfied by Project ResourceOffer"
  | .activeWorkers need maxWorkers =>
      s!"active lease workers over budget: need={need}, max_workers={maxWorkers}"
  | .activeThreads need available =>
      s!"active lease threads over budget: need={need}, available={available}"
  | .activeGpus need available =>
      s!"active lease gpus over budget: need={need}, available={available}"
  | .activeMemory need available =>
      "active lease memory over budget: need=" ++ float need ++ ", available=" ++ float available
  | .deviceConflict overlap =>
      "active lease device conflict: [" ++
        ", ".intercalate (overlap.map fun token ↦ s!"'{token}'") ++ "]"

/-- `_validate_request`. -/
def validateRequest (policy : ResourcePolicy) (offer : ResourceOffer) (req : ResourceRequest) :
    Except ResourceBudgetError Unit :=
  if req.workers > policy.maxWorkers then
    .error (.requestWorkers req.workers policy.maxWorkers)
  else if req.threads > policy.maxThreads ∧ policy.cpuOversubscribe = false then
    .error (.requestThreads req.threads policy.maxThreads)
  else if policy.maxGpus.any (req.gpus > ·) then
    .error (.requestGpus req.gpus (policy.maxGpus.getD 0))
  else if policy.maxMemoryMb.any fun m ↦ req.memoryMb.any (· > m) then .error .requestMemory
  else if !req.satisfies offer then .error .notSatisfied
  else .ok ()

/-- The accelerators the request wants that an active claim already holds, sorted. -/
def deviceOverlap (claims : List LeaseResources) (req : ResourceRequest) : List String :=
  (req.deviceTokens.dedup.filter fun token ↦
    claims.any fun c ↦ token ∈ c.deviceTokens).insertionSort (· ≤ ·)

/-- `_validate_aggregate_budget` for the leases listed as active. -/
def validateAggregateBudget (policy : ResourcePolicy) (offer : ResourceOffer)
    (req : ResourceRequest) (active : List ResourceLease) : Except ResourceBudgetError Unit :=
  let claims := active.map (·.resources)
  let workers := (claims.map (·.workerCount)).sum + req.workers
  let threads := (claims.map (·.threadCount)).sum + req.threads
  let gpus := (claims.map (·.gpuCount)).sum + req.gpus
  let memory := (claims.map (·.memory)).sum + req.memoryMb.getD 0
  if workers > policy.maxWorkers then .error (.activeWorkers workers policy.maxWorkers)
  else if policy.cpuOversubscribe = false ∧ threads > threadLimit policy offer then
    .error (.activeThreads threads (threadLimit policy offer))
  else if gpus > gpuLimit policy offer ∧ policy.gpuSharing ≠ .shared then
    .error (.activeGpus gpus (gpuLimit policy offer))
  else if policy.maxMemoryMb.any (memory > ·) then
    .error (.activeMemory memory (policy.maxMemoryMb.getD 0))
  else if policy.gpuSharing = .exclusive ∧ deviceOverlap claims req ≠ [] then
    .error (.deviceConflict (deviceOverlap claims req))
  else .ok ()

theorem deviceOverlap_eq_nil {claims : List LeaseResources} {req : ResourceRequest} :
    deviceOverlap claims req = [] ↔ ∀ c ∈ claims, c.deviceTokens.Disjoint req.deviceTokens := by
  have hperm := List.perm_insertionSort (· ≤ ·)
    (req.deviceTokens.dedup.filter fun token ↦ claims.any fun c ↦ token ∈ c.deviceTokens)
  rw [deviceOverlap, ← List.length_eq_zero_iff, hperm.length_eq, List.length_eq_zero_iff,
    List.filter_eq_nil_iff]
  constructor
  · intro h c hc token htoken hreq
    exact h token (List.mem_dedup.mpr hreq) (List.any_eq_true.mpr ⟨c, hc, by simpa using htoken⟩)
  · intro h token htoken hany
    obtain ⟨c, hc, hmem⟩ := List.any_eq_true.mp hany
    exact h c hc (by simpa using hmem) (List.mem_dedup.mp htoken)

/-- The aggregate check passes exactly if the request fits beside the listed claims. -/
theorem validateAggregateBudget_eq_ok {policy : ResourcePolicy} {offer : ResourceOffer}
    {req : ResourceRequest} {active : List ResourceLease} :
    validateAggregateBudget policy offer req active = .ok () ↔
      Admits policy offer (active.map (·.resources)) req := by
  have hmemory : ∀ m : ℚ, policy.maxMemoryMb.any (m > ·) = true ↔
      ∃ limit ∈ policy.maxMemoryMb, limit < m := by
    intro m
    cases policy.maxMemoryMb <;> simp
  simp only [validateAggregateBudget, hmemory]
  constructor
  · intro h
    split at h
    · cases h
    split at h
    · cases h
    split at h
    · cases h
    split at h
    · cases h
    split at h
    · cases h
    next hw ht hg hm hd =>
    exact
      { workers := not_lt.mp hw
        threads := fun ho ↦ not_lt.mp fun hlt ↦ ht ⟨ho, hlt⟩
        gpus := fun hs ↦ not_lt.mp fun hlt ↦ hg ⟨hlt, hs⟩
        memory := fun m hmem ↦ not_lt.mp fun hlt ↦ hm ⟨m, hmem, hlt⟩
        devices := fun he ↦ deviceOverlap_eq_nil.mp (not_not.mp fun hne ↦ hd ⟨he, hne⟩) }
  · intro h
    rw [if_neg (not_lt.mpr h.workers), if_neg fun ht ↦ not_lt.mpr (h.threads ht.1) ht.2,
      if_neg fun hg ↦ not_lt.mpr (h.gpus hg.2) hg.1,
      if_neg fun ⟨m, hm, hlt⟩ ↦ not_lt.mpr (h.memory m hm) hlt,
      if_neg fun hd ↦ hd.2 (deviceOverlap_eq_nil.mpr (h.devices hd.1))]

/-! ## The allocator -/

/-- `ResourceAllocator`, with the store left out. -/
structure ResourceAllocator where
  policy : ResourcePolicy
  offer : ResourceOffer
  leaseTtlSeconds : Time

namespace ResourceAllocator

/-- The id of a new lease. -/
def leaseId (ownerId scope uuid : String) : String :=
  let owner := if ownerId = "" then "case" else ownerId
  let area := if scope = "" then "project" else scope
  s!"lease-{owner}-{area}-{uuid}"

/-- The candidate for admission, built when the client's clock reads `clock`. -/
def candidate (clock : Time) (req : ResourceRequest) (ownerId scope uuid : String) :
    ResourceLease where
  leaseId := leaseId ownerId scope uuid
  ownerId := ownerId
  scope := scope
  resources := req.asDict
  status := .active
  createdAt := clock
  updatedAt := clock
  expiresAt := 0
  fencingToken := 0
  expiresAt_nonneg := no_expiry_nonneg
  fencingToken_nonneg := no_token_nonneg

/-- `ResourceAllocator.acquire` against a store; `uuid` is the random part of the id. -/
def acquire (a : ResourceAllocator) (store : LeaseStore) (now clock : Time)
    (req : ResourceRequest) (ownerId scope uuid : String) :
    Except (LeaseError ResourceBudgetError) ResourceLease × LeaseStore :=
  match if a.policy.strict then validateRequest a.policy a.offer req else .ok () with
  | .error e => (.error (.refused e), store)
  | .ok () =>
      store.acquireLease now clock (candidate clock req ownerId scope uuid)
        (fun active ↦ if a.policy.strict then
          validateAggregateBudget a.policy a.offer req active else .ok ())
        a.leaseTtlSeconds

end ResourceAllocator

end Blackbase.Resources

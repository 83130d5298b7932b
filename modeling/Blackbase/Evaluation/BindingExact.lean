import Blackbase.Evaluation.DeviceSearch

/-!
# What is bound

A provider is feasible when the problem, the mode, the capabilities, the owner of the states, the
resources, the backend and some available device fit.  When the grant can be read and the request
can be digested, trying a provider binds it exactly when it is feasible, and `bind` takes the
feasible provider of the least key.
-/

namespace Blackbase.Binding

open Project.Envelope (PyValue PyFloat Raised Runtime Payload ok_bind)
open Resources (Digest ResourceContext ResourceRequirement)

/-! ## Readable grants -/

/-- What a grant says, with every entry converted. -/
structure GrantReading extends DeviceGrant where
  threads : ℤ
  capabilities : List String
  memoryMb : Option PyFloat
  gpuMemoryMb : Option PyFloat

/-- The quantity in an entry, if it has one. -/
def readQuantity (R : Runtime) : PyValue → Except Raised (Option PyFloat)
  | .none => .ok none
  | value => (R.floatOf value).map some

/-- A grant can be read: no conversion of its entries raises. -/
structure Reads (R : Runtime) (context : ResourceContext) (grant : GrantReading) : Prop where
  threads : context.availableThreads R = .ok grant.threads
  tokens : context.texts R "device_tokens" = .ok grant.tokens
  gpus : context.grantedGpus R = .ok grant.gpus
  resolved : context.resolvedDevices R = .ok grant.resolved
  capabilities : context.texts R "capabilities" = .ok grant.capabilities
  memoryMb : readQuantity R (context.grantEntries.get "memory_mb" .none) = .ok grant.memoryMb
  gpuMemoryMb :
    readQuantity R (context.grantEntries.get "gpu_memory_mb" .none) = .ok grant.gpuMemoryMb

/-! ## Feasible providers -/

/-- A granted quantity is not below a required one. -/
def Covers (required : Option ℚ) (granted : Option PyFloat) : Prop :=
  ∀ r, required = some r → ∃ amount, granted = some amount ∧ amount.lt (.real r) = false

/-- A grant has the resources of a requirement. -/
structure Fits (R : Runtime) (context : ResourceContext) (grant : GrantReading)
    (requirement : ResourceRequirement) : Prop where
  threads : requirement.threads ≤ grant.threads
  gpus : requirement.gpus ≤ availableGpus context grant.tokens grant.gpus
  tokens : ∀ token ∈ requirement.deviceTokens, token ∈ grant.tokens
  backend : context.grantBackend R = "" ∨
    normalized requirement.resourceBackend ∈ ["", "any", "auto"] ∨
      context.grantBackend R = normalized requirement.resourceBackend
  capabilities : ∀ name ∈ requirement.capabilities, name ∈ grant.capabilities
  memoryMb : Covers requirement.memoryMb grant.memoryMb
  gpuMemoryMb : Covers requirement.gpuMemoryMb grant.gpuMemoryMb

/-- A provider can serve a request inside a context. -/
structure Feasible (R : Runtime) (context : ResourceContext) (grant : GrantReading)
    (spec : EvaluationProviderSpec) (request : EvaluationRequest) : Prop where
  problem : spec.problemIds = [] ∨ normalized request.problemId.text ∈ spec.problemIds
  mode : request.mode ∈ spec.modes
  capabilities : ∀ name ∈ request.requiredCapabilities, name ∈ spec.capabilities
  states : ∀ ref, .stateRef ref ∈ request.states →
    ref.providerId.text = spec.providerId.text ∧
      (spec.stateKinds = [] ∨ normalized ref.stateKind.text ∈ spec.stateKinds)
  resources : Fits R context grant spec.resourceRequirement
  backend : normalized context.computeBackend.text ∈ ["", "auto", "any", "generic"] ∨
    normalized spec.computeBackend.text ∈ ["generic", normalized context.computeBackend.text]
  device : ∃ device, Available R context grant.toDeviceGrant device ∧
    Compatible spec.supportedDevices device

variable {R : Runtime} {context : ResourceContext} {grant : GrantReading}
  {spec : EvaluationProviderSpec} {request : EvaluationRequest}

/-! ## The checks -/

theorem missingNames_eq_nil {required provided : List String} :
    missingNames required provided = [] ↔ ∀ name ∈ required, name ∈ provided := by
  have hsort : missingNames required provided = [] ↔
      (required.filter (· ∉ provided)).dedup = [] := by
    constructor
    · intro h
      have hperm := List.perm_insertionSort (· ≤ ·) (required.filter (· ∉ provided)).dedup
      rw [missingNames] at h
      rw [h] at hperm
      exact hperm.symm.eq_nil
    · intro h
      rw [missingNames, h]
      rfl
  rw [hsort, List.dedup_eq_nil, List.filter_eq_nil_iff]
  simp

theorem readQuantity_of_ne {value : PyValue} (h : value ≠ .none) :
    readQuantity R value = (R.floatOf value).map some := by
  cases value with
  | none => exact absurd rfl h
  | _ => rfl

theorem boundedQuantityMismatch_of_ne (name : String) (required : ℚ) {value : PyValue}
    (h : value ≠ .none) :
    boundedQuantityMismatch R name (some required) value = (do
      let amount ← R.floatOf value
      if amount.lt (.real required) then
        return some (s!"requires {name}={R.str (.float (.real required))}, " ++
          s!"grant has {R.strOf value}")
      return none) := by
  cases value with
  | none => exact absurd rfl h
  | _ => rfl

theorem boundedQuantityMismatch_eq (name : String) (required : Option ℚ) {value : PyValue}
    {granted : Option PyFloat} (hread : readQuantity R value = .ok granted) :
    ∃ mismatch, boundedQuantityMismatch R name required value = .ok mismatch ∧
      (mismatch = none ↔ Covers required granted) := by
  cases required with
  | none => exact ⟨none, rfl, by simp [Covers]⟩
  | some required =>
      by_cases hnone : value = .none
      · subst hnone
        cases hread
        exact ⟨_, rfl, by simp [Covers]⟩
      · rw [boundedQuantityMismatch_of_ne name required hnone]
        rw [readQuantity_of_ne hnone] at hread
        cases hamount : R.floatOf value with
        | error e =>
            rw [hamount] at hread
            cases hread
        | ok amount =>
            rw [hamount] at hread
            cases hread
            rw [ok_bind]
            cases hlt : amount.lt (.real required) with
            | true => exact ⟨_, rfl, by simp [Covers, hlt]⟩
            | false => exact ⟨none, rfl, by simp [Covers, hlt]⟩

theorem resourceMismatch_eq (requirement : ResourceRequirement) (hread : Reads R context grant) :
    ∃ mismatch, resourceMismatch R requirement context = .ok mismatch ∧
      (mismatch = none ↔ Fits R context grant requirement) := by
  obtain ⟨memory, hmemory, hmemoryIff⟩ := boundedQuantityMismatch_eq "memory_mb"
    requirement.memoryMb hread.memoryMb
  obtain ⟨gpuMemory, hgpuMemory, hgpuMemoryIff⟩ := boundedQuantityMismatch_eq "gpu_memory_mb"
    requirement.gpuMemoryMb hread.gpuMemoryMb
  simp only [resourceMismatch, hread.threads, hread.tokens, hread.gpus, hread.capabilities,
    hmemory, hgpuMemory, ok_bind]
  -- One check after the other; the first that fails gives the reason.
  by_cases hthreads : grant.threads < requirement.threads
  · rw [if_pos hthreads]
    exact ⟨_, rfl, iff_of_false (Option.some_ne_none _) fun h ↦ not_lt.mpr h.threads hthreads⟩
  rw [if_neg hthreads]
  by_cases hgpus : availableGpus context grant.tokens grant.gpus < requirement.gpus
  · rw [if_pos hgpus]
    exact ⟨_, rfl, iff_of_false (Option.some_ne_none _) fun h ↦ not_lt.mpr h.gpus hgpus⟩
  rw [if_neg hgpus]
  by_cases htokens : missingNames requirement.deviceTokens grant.tokens ≠ []
  · rw [if_pos htokens]
    exact ⟨_, rfl, iff_of_false (Option.some_ne_none _) fun h ↦
      htokens (missingNames_eq_nil.mpr h.tokens)⟩
  rw [if_neg htokens]
  by_cases hbackend : context.grantBackend R ≠ "" ∧
      normalized requirement.resourceBackend ∉ ["", "any", "auto"] ∧
        context.grantBackend R ≠ normalized requirement.resourceBackend
  · rw [if_pos hbackend]
    exact ⟨_, rfl, iff_of_false (Option.some_ne_none _) fun h ↦
      h.backend.elim hbackend.1 fun h ↦ h.elim hbackend.2.1 hbackend.2.2⟩
  rw [if_neg hbackend]
  by_cases hcapabilities : missingNames requirement.capabilities grant.capabilities ≠ []
  · rw [if_pos hcapabilities]
    exact ⟨_, rfl, iff_of_false (Option.some_ne_none _) fun h ↦
      hcapabilities (missingNames_eq_nil.mpr h.capabilities)⟩
  rw [if_neg hcapabilities]
  cases memory with
  | some reason =>
      refine ⟨some reason, rfl, iff_of_false (Option.some_ne_none _) fun h ↦ ?_⟩
      exact Option.some_ne_none _ (hmemoryIff.mpr h.memoryMb)
  | none =>
      refine ⟨gpuMemory, rfl, hgpuMemoryIff.trans ⟨fun hcovers ↦ ?_, Fits.gpuMemoryMb⟩⟩
      exact {
        threads := not_lt.mp hthreads
        gpus := not_lt.mp hgpus
        tokens := missingNames_eq_nil.mp (not_not.mp htokens)
        backend := by
          by_contra h
          push Not at h
          exact hbackend h
        capabilities := missingNames_eq_nil.mp (not_not.mp hcapabilities)
        memoryMb := hmemoryIff.mp rfl
        gpuMemoryMb := hcovers }

theorem stateMismatch_eq_none {state : State} :
    stateMismatch spec state = none ↔ ∀ ref, state = .stateRef ref →
      ref.providerId.text = spec.providerId.text ∧
        (spec.stateKinds = [] ∨ normalized ref.stateKind.text ∈ spec.stateKinds) := by
  cases state with
  | stateRef ref =>
      simp only [stateMismatch, State.stateRef.injEq, forall_eq']
      by_cases howner : ref.providerId.text ≠ spec.providerId.text
      · rw [if_pos howner]
        exact iff_of_false (Option.some_ne_none _) fun h ↦ howner h.1
      rw [if_neg howner]
      by_cases hkind : spec.stateKinds ≠ [] ∧ normalized ref.stateKind.text ∉ spec.stateKinds
      · rw [if_pos hkind]
        exact iff_of_false (Option.some_ne_none _) fun h ↦ h.2.elim hkind.1 hkind.2
      rw [if_neg hkind]
      refine iff_of_true rfl ⟨not_not.mp howner, ?_⟩
      by_contra h
      push Not at h
      exact hkind h
  | unknownState payload => exact iff_of_true rfl fun _ h ↦ by cases h
  | dataRef asDict => exact iff_of_true rfl fun _ h ↦ by cases h
  | inline value => exact iff_of_true rfl fun _ h ↦ by cases h

theorem requestMismatch_eq_none :
    requestMismatch R spec request = none ↔
      (spec.problemIds = [] ∨ normalized request.problemId.text ∈ spec.problemIds) ∧
      request.mode ∈ spec.modes ∧
      (∀ name ∈ request.requiredCapabilities, name ∈ spec.capabilities) ∧
      ∀ ref, .stateRef ref ∈ request.states →
        ref.providerId.text = spec.providerId.text ∧
          (spec.stateKinds = [] ∨ normalized ref.stateKind.text ∈ spec.stateKinds) := by
  simp only [requestMismatch]
  by_cases hproblem : spec.problemIds ≠ [] ∧ normalized request.problemId.text ∉ spec.problemIds
  · rw [if_pos hproblem]
    exact iff_of_false (Option.some_ne_none _) fun h ↦ h.1.elim hproblem.1 hproblem.2
  rw [if_neg hproblem]
  have hproblem' : spec.problemIds = [] ∨ normalized request.problemId.text ∈ spec.problemIds := by
    by_contra h
    push Not at h
    exact hproblem h
  by_cases hmode : request.mode ∉ spec.modes
  · rw [if_pos hmode]
    exact iff_of_false (Option.some_ne_none _) fun h ↦ hmode h.2.1
  rw [if_neg hmode]
  by_cases hmissing : missingNames request.requiredCapabilities spec.capabilities ≠ []
  · rw [if_pos hmissing]
    exact iff_of_false (Option.some_ne_none _) fun h ↦
      hmissing (missingNames_eq_nil.mpr h.2.2.1)
  rw [if_neg hmissing, stateRefMismatch, List.findSome?_eq_none_iff]
  simp only [stateMismatch_eq_none]
  constructor
  · intro h
    exact ⟨hproblem', not_not.mp hmode, missingNames_eq_nil.mp (not_not.mp hmissing),
      fun ref href ↦ h _ href ref rfl⟩
  · rintro ⟨-, -, -, h⟩ state hstate ref rfl
    exact h ref hstate

theorem backendMismatch_eq_none {computeBackend : String} :
    backendMismatch computeBackend context = none ↔
      normalized context.computeBackend.text ∈ ["", "auto", "any", "generic"] ∨
        normalized computeBackend ∈ ["generic", normalized context.computeBackend.text] := by
  simp only [backendMismatch]
  by_cases hbackend :
      normalized context.computeBackend.text ∉ ["", "auto", "any", "generic"] ∧
        normalized computeBackend ∉ ["generic", normalized context.computeBackend.text]
  · rw [if_pos hbackend]
    exact iff_of_false (Option.some_ne_none _) fun h ↦ h.elim hbackend.1 hbackend.2
  · rw [if_neg hbackend]
    refine iff_of_true rfl ?_
    by_contra h
    rw [not_or] at h
    exact hbackend h

/-! ## One provider -/

theorem selectDevice_eq (hread : Reads R context grant) {supported preferred : List String}
    {required : Option String} :
    selectDevice R supported preferred context required =
      .ok (searchDevice supported preferred required
        (availableDevices R context grant.tokens grant.resolved grant.gpus)) := by
  simp only [selectDevice, hread.tokens, hread.resolved, hread.gpus, ok_bind]
  rfl

/-- The device that is selected for a feasible provider. -/
def Selected (R : Runtime) (context : ResourceContext) (spec : EvaluationProviderSpec)
    (device : String) : Prop :=
  selectDevice R spec.supportedDevices spec.preferredDevices context none = .ok (some device)

theorem Selected.available (hread : Reads R context grant) {device : String}
    (h : Selected R context spec device) :
    Available R context grant.toDeviceGrant device ∧ Compatible spec.supportedDevices device := by
  rw [Selected, selectDevice_eq hread, Except.ok.injEq] at h
  obtain ⟨hmem, hcompatible⟩ := searchDevice_eq_some h
  exact ⟨mem_availableDevices.mp hmem, hcompatible⟩

/-- Some device is selected exactly when an available one is compatible. -/
theorem exists_selected (hread : Reads R context grant) :
    (∃ device, Selected R context spec device) ↔
      ∃ device, Available R context grant.toDeviceGrant device ∧
        Compatible spec.supportedDevices device := by
  constructor
  · rintro ⟨device, h⟩
    exact ⟨device, h.available hread⟩
  · rintro ⟨device, havailable, hcompatible⟩
    have hne := mt (searchDevice_eq_none spec.preferredDevices
      fun d hd ↦ (mem_availableDevices.mp hd).normalized).mp
        fun h ↦ h device (mem_availableDevices.mpr havailable) hcompatible
    obtain ⟨found, hfound⟩ := Option.ne_none_iff_exists'.mp hne
    exact ⟨found, by rw [Selected, selectDevice_eq hread, hfound]⟩

/-- Trying a provider binds it on the selected device when it is feasible, and rejects it
otherwise. -/
theorem tryBinding_eq (spec : EvaluationProviderSpec) (hread : Reads R context grant)
    {digest : Digest} (hdigest : request.digest R = .ok digest) :
    (∃ device, Feasible R context grant spec request ∧ Selected R context spec device ∧
      tryBinding R spec request context = .ok (.bound
        (candidate spec request context device digest).1
        (candidate spec request context device digest).2)) ∨
    ∃ reason, ¬ Feasible R context grant spec request ∧
      tryBinding R spec request context = .ok (.rejected reason) := by
  obtain ⟨resources, hresources, hresourcesIff⟩ :=
    resourceMismatch_eq spec.resourceRequirement hread
  simp only [tryBinding, hresources, selectDevice_eq hread, hdigest, ok_bind]
  cases hrequest : requestMismatch R spec request with
  | some reason =>
      refine .inr ⟨reason, fun h ↦ ?_, rfl⟩
      have hnone := requestMismatch_eq_none (R := R).mpr
        ⟨h.problem, h.mode, h.capabilities, h.states⟩
      rw [hrequest] at hnone
      cases hnone
  | none =>
  obtain ⟨hproblem, hmode, hcapabilities, hstates⟩ := requestMismatch_eq_none.mp hrequest
  cases resources with
  | some reason =>
      exact .inr ⟨reason, fun h ↦ Option.some_ne_none _ (hresourcesIff.mpr h.resources), rfl⟩
  | none =>
  cases hbackend : backendMismatch spec.computeBackend.text context with
  | some reason =>
      refine .inr ⟨reason, fun h ↦ ?_, rfl⟩
      have hnone := backendMismatch_eq_none.mpr h.backend
      rw [hbackend] at hnone
      cases hnone
  | none =>
  cases hdevice : searchDevice spec.supportedDevices spec.preferredDevices none
      (availableDevices R context grant.tokens grant.resolved grant.gpus) with
  | none =>
      refine .inr ⟨_, fun h ↦ ?_, rfl⟩
      obtain ⟨device, hselected⟩ := (exists_selected hread).mpr h.device
      rw [Selected, selectDevice_eq hread, hdevice] at hselected
      cases hselected
  | some device =>
      have hselected : Selected R context spec device := by
        rw [Selected, selectDevice_eq hread, hdevice]
      exact .inl ⟨device, {
        problem := hproblem
        mode := hmode
        capabilities := hcapabilities
        states := hstates
        resources := hresourcesIff.mp rfl
        backend := backendMismatch_eq_none.mp hbackend
        device := ⟨device, hselected.available hread⟩ }, hselected, rfl⟩

end Blackbase.Binding

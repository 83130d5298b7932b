import Blackbase.Evaluation.StateTransition

/-!
# Copy-on-write slots

The states that an applied transition leaves to its caller are those of the successor, and the
caller may still release the predecessor's slots, or abort to them.  A bound provider compares
the slots name by name: it refuses a slot that keeps the state of its own predecessor.  What
this leaves open is an exchange between names, with a new slot or with the main state.
-/

namespace Blackbase.Evaluation

universe u

variable {V : Type u}

/-- The states that the slots refer to. -/
def StateSlots.ids {ref : StateRef V} (slots : StateSlots ref) : Set String :=
  {id | ∃ name slot, slots.refs.lookup name = some slot ∧ slot.stateId = id}

/-- The successor uses no state of the predecessor's slots, and its slots do not use the main
state of the predecessor either. -/
structure CopyOnWrite (request : StateTransitionRequest V) (result : StateTransitionResult V) :
    Prop where
  slots : Disjoint result.slotRefs.ids request.slotRefs.ids
  main : request.stateRef.stateId ∉ result.slotRefs.ids
  successor : result.stateRef.stateId ∉ request.slotRefs.ids

/-- No state goes from one slot to another, from the main state to a slot or from a slot to the
main state. -/
structure NoExchange (request : StateTransitionRequest V) (result : StateTransitionResult V) :
    Prop where
  slots : ∀ name previousName slot previous, name ≠ previousName →
    result.slotRefs.refs.lookup name = some slot →
      request.slotRefs.refs.lookup previousName = some previous →
        slot.stateId ≠ previous.stateId
  main : request.stateRef.stateId ∉ result.slotRefs.ids
  successor : result.stateRef.stateId ∉ request.slotRefs.ids

/-- What the validation of a successor checks of every slot. -/
theorem ne_of_slotError {request : StateTransitionRequest V} {successor : StateRef V}
    {name : String} {slot previous : StateRef V}
    (h : slotError request successor name slot = none)
    (hprevious : request.slotRefs.refs.lookup name = some previous) :
    slot.stateId ≠ previous.stateId := by
  unfold slotError at h
  split_ifs at h
  rw [hprevious] at h
  intro heq
  simp [heq] at h

variable [DecidableEq V]

theorem slotError_of_appliedError {request : StateTransitionRequest V}
    {result : StateTransitionResult V} (h : appliedError request result = none) {name : String}
    {slot : StateRef V} (hslot : result.slotRefs.refs.lookup name = some slot) :
    slotError request result.stateRef name slot = none := by
  unfold appliedError at h
  simp only at h
  split_ifs at h
  exact List.findSome?_eq_none_iff.mp h ⟨name, slot⟩ (Dict.mem_entries.mpr hslot)

theorem appliedError_of_validate {request : StateTransitionRequest V}
    {result : StateTransitionResult V} (h : validateTransitionSuccessor request result = none)
    (happlied : result.status = .applied) : appliedError request result = none := by
  unfold validateTransitionSuccessor at h
  simp only [happlied] at h
  split_ifs at h
  exact h

/-- A slot of an accepted successor has not kept the state of its predecessor. -/
theorem ne_of_validate {request : StateTransitionRequest V} {result : StateTransitionResult V}
    (h : validateTransitionSuccessor request result = none) (happlied : result.status = .applied)
    {name : String} {slot previous : StateRef V}
    (hslot : result.slotRefs.refs.lookup name = some slot)
    (hprevious : request.slotRefs.refs.lookup name = some previous) :
    slot.stateId ≠ previous.stateId :=
  ne_of_slotError (slotError_of_appliedError (appliedError_of_validate h happlied) hslot) hprevious

theorem copyOnWrite_iff {request : StateTransitionRequest V} {result : StateTransitionResult V}
    (h : validateTransitionSuccessor request result = none) (happlied : result.status = .applied) :
    CopyOnWrite request result ↔ NoExchange request result := by
  constructor
  · intro hcopy
    refine ⟨fun name previousName slot previous _ hslot hprevious heq ↦ ?_, hcopy.main,
      hcopy.successor⟩
    exact Set.disjoint_left.mp hcopy.slots ⟨name, slot, hslot, rfl⟩
      ⟨previousName, previous, hprevious, heq.symm⟩
  · intro hexchange
    refine ⟨Set.disjoint_left.mpr ?_, hexchange.main, hexchange.successor⟩
    rintro id ⟨name, slot, hslot, rfl⟩ ⟨previousName, previous, hprevious, hid⟩
    by_cases hname : name = previousName
    · subst hname
      exact ne_of_validate h happlied hslot hprevious hid.symm
    · exact hexchange.slots name previousName slot previous hname hslot hprevious hid.symm

namespace BoundStateTransitionProvider

variable {P : Type} {D : ProtocolDigest V} {b : BoundStateTransitionProvider V P}
  {request : StateTransitionRequest V} {result : StateTransitionResult V}
  {reply : ProviderReply V (StateTransitionRequest V) (StateTransitionResult V)}

/-- What a bound provider has returned: the reply's result, which it has validated against the
request as the provider left it. -/
theorem of_execute (h : b.execute D request reply = .ok result) :
    ∃ request' binding returned, reply = .returned request' binding (.ok returned) ∧
      callError D .transition b.binding b.bindingDigest request.requestId (D.transition request)
        = none ∧
      replyError D .transition binding b.bindingDigest (D.transition request') = none ∧
        b.resultError request' binding returned = none ∧
          result = { returned with binding := some binding } := by
  unfold execute at h
  cases hcall : callError D .transition b.binding b.bindingDigest request.requestId
      (D.transition request) with
  | some e => simp [hcall] at h
  | none =>
      cases reply with
      | raised text => simp [hcall] at h
      | returned request' binding returned =>
          cases hreply : replyError D .transition binding b.bindingDigest
              (D.transition request') with
          | some e => simp [hcall, hreply] at h
          | none =>
              cases returned with
              | error typeName => simp [hcall, hreply] at h
              | ok returned =>
                  cases hresult : b.resultError request' binding returned with
                  | some e => simp [hcall, hreply, hresult] at h
                  | none =>
                      simp only [hcall, hreply, hresult] at h
                      exact ⟨request', binding, returned, rfl, rfl, hreply, hresult,
                        (Except.ok.inj h).symm⟩

theorem validate_of_resultError {binding : EvaluationBinding V}
    (h : b.resultError request binding result = none) :
    validateTransitionSuccessor request result = none := by
  unfold resultError at h
  simp only at h
  split_ifs at h <;> simp_all [Option.or_eq_none_iff]

end BoundStateTransitionProvider

/-! ## Two slots -/

/-- A state of one trajectory. -/
def tensor (id : String) (version : ℕ) (h : IsLabel id) : StateRef String where
  providerId := "provider"
  stateId := id
  stateKind := "tensor"
  scopeId := "scope"
  trajectoryId := "trajectory"
  device := "cpu"
  version := version
  transportScope := .process
  metadata := ∅
  providerId_label := by decide
  stateId_label := h

theorem label_a : IsLabel "a" := by decide

theorem label_b : IsLabel "b" := by decide

theorem tensor_local {id id' : String} {n n' : ℕ} {h : IsLabel id} {h' : IsLabel id'} :
    (tensor id n h).Local (tensor id' n' h') := ⟨rfl, rfl, rfl, rfl, rfl⟩

/-- The slots `m` and `v`. -/
def momentSlots (ref m v : StateRef String) (hm : ref.Local m) (hv : ref.Local v) :
    StateSlots ref where
  refs := ⟨[⟨"m", m⟩, ⟨"v", v⟩], by simp [List.NodupKeys, List.keys]⟩
  isLocal name slot h := by
    have hmem := Dict.mem_entries.mpr h
    rcases List.mem_pair.mp hmem with h | h
    · cases h
      exact hm
    · cases h
      exact hv
  key name h := by
    have hmem : name ∈ ["m", "v"] := h
    rcases List.mem_pair.mp hmem with rfl | rfl
    · decide
    · decide
  count := by simp [AList.keys, List.keys]

/-- A step on the state `x` with its slots. -/
def momentRequest : StateTransitionRequest String where
  requestId := "request"
  stateRef := tensor "x" 0 (by decide)
  methodId := "adam"
  operands := ∅
  slotRefs := momentSlots _ (tensor "a" 0 label_a) (tensor "b" 0 label_b)
    tensor_local tensor_local
  parameters := ∅
  stepIndex := 0
  metadata := ∅
  requestId_label := by decide
  methodId_label := by decide

/-- The successor has these states in its slots. -/
def momentResult (m v : String) (hm : IsLabel m) (hv : IsLabel v) :
    StateTransitionResult String where
  requestId := "request"
  methodId := "adam"
  status := .applied
  stateRef := tensor "x" 1 (by decide)
  slotRefs := momentSlots _ (tensor m 0 hm) (tensor v 0 hv) tensor_local tensor_local
  metrics := ∅
  binding := none
  metadata := ∅
  requestId_label := by decide
  methodId_label := by decide

def momentBinding : EvaluationBinding String where
  bindingId := "binding"
  requestId := "request"
  providerId := "provider"
  resourceContext := ∅
  device := "cpu"
  computeBackend := "generic"
  requestDigest := "70dd37c11434d9c571dd83fdd5450e5b0471f7f5ed52943e9409574fea364d33"
  matchedCapabilities := ["state.transition:adam"]
  missingPreferredCapabilities := []
  degraded := false
  audit := ∅

/-- The digests of this request and of its binding. -/
def momentDigest : ProtocolDigest String where
  transition _ := momentBinding.requestDigest
  materialization _ := "7ce005155a41089d28b8911cf56c35d259b59b84dbcbef305475f60f5485fbc2"
  binding _ := "80f70afeef3caa57646fd20afb95be9c3f2c03d38e091906de31838813dcc22e"

def momentProvider : BoundStateTransitionProvider String Unit where
  provider := ()
  binding := momentBinding
  methodSpec := { methodId := "adam", resultSlots := ["m", "v"], resultSlotStateKinds := ∅ }
  bindingDigest := momentDigest.binding momentBinding

/-- What the provider returns is accepted. -/
def accepts (result : StateTransitionResult String) : Prop :=
  momentProvider.execute momentDigest momentRequest
    (.returned momentRequest momentBinding (.ok result)) =
      .ok { result with binding := some momentBinding }

theorem of_lookup_momentSlots {ref m v slot : StateRef String} (hm : ref.Local m)
    (hv : ref.Local v) {name : String}
    (h : (momentSlots ref m v hm hv).refs.lookup name = some slot) :
    name = "m" ∧ slot = m ∨ name = "v" ∧ slot = v := by
  rcases List.mem_pair.mp (Dict.mem_entries.mpr h) with h | h
  · cases h
    exact .inl ⟨rfl, rfl⟩
  · cases h
    exact .inr ⟨rfl, rfl⟩

theorem of_mem_ids_momentSlots {ref m v : StateRef String} (hm : ref.Local m) (hv : ref.Local v)
    {id : String} (h : id ∈ (momentSlots ref m v hm hv).ids) : id = m.stateId ∨ id = v.stateId := by
  obtain ⟨name, slot, hslot, rfl⟩ := h
  rcases of_lookup_momentSlots hm hv hslot with ⟨-, rfl⟩ | ⟨-, rfl⟩
  · exact .inl rfl
  · exact .inr rfl

end Blackbase.Evaluation

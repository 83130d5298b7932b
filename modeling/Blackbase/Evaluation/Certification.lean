import Blackbase.Core.Machine
import Blackbase.Evaluation.CopyOnWrite

/-!
# Copy-on-write certifications

`EvaluationProviderRegistry` of `evaluation/registry.py`, `EvaluationGateway.transition` and
`verify_copy_on_write_predecessors` of `evaluation/conformance.py`.  Any number of threads run
transitions through the gateway, while providers are registered, replaced and unregistered.  A
transition looks its provider up when it is bound and again for each predecessor that it
materializes, and files the certification at the end; each of these is a step of its own.

A provider is an instance, known by its identity.  What it replies and what its specification
makes of a request are choices of a step.  A request is frozen, and a bound provider refuses
one whose digest has changed.
-/

namespace Blackbase.Evaluation

universe u

/-- `CopyOnWriteConformanceReport`. -/
structure CopyOnWriteConformanceReport where
  providerId : String
  methodId : String
  transitionRequestId : String
  checkedSlots : List String
  predecessorStateIds : List String
deriving DecidableEq

/-- A report that is listed, with the instances that were at work behind it. -/
structure Certification (P : Type) where
  report : CopyOnWriteConformanceReport
  transitionBy : P
  materializedBy : List P
deriving DecidableEq

/-- `EvaluationProviderRegistry`.  How often the registration of an id has changed is counted
along. -/
structure EvaluationProviderRegistry (P : Type) where
  providers : String → Option P
  certifications : String × String → Option (Certification P)
  registrations : String → ℕ

namespace EvaluationProviderRegistry

variable {P : Type} (r : EvaluationProviderRegistry P)

/-- The certifications without those of a provider id. -/
def dropCertifications (id : String) : String × String → Option (Certification P) :=
  fun key ↦ if key.1 = id then none else r.certifications key

/-- `register`. -/
def register (provider : P) (id : String) (replace : Bool) : EvaluationProviderRegistry P :=
  if (r.providers id).isSome ∧ ¬ replace then r
  else
    { providers := Function.update r.providers id (some provider)
      certifications := if replace then r.dropCertifications id else r.certifications
      registrations := Function.update r.registrations id (r.registrations id + 1) }

/-- `unregister`. -/
def unregister (id : String) : EvaluationProviderRegistry P where
  providers := Function.update r.providers id none
  certifications := r.dropCertifications id
  registrations := Function.update r.registrations id (r.registrations id + 1)

/-- `_requires_copy_on_write_certification`. -/
def requiresCertification (providerId methodId : String) : Bool :=
  (r.certifications (providerId, methodId)).isNone

/-- `_record_copy_on_write_certification`. -/
def record (c : Certification P) : EvaluationProviderRegistry P :=
  let key := (c.report.providerId, c.report.methodId)
  if (r.certifications key).isSome then r
  else { r with certifications := Function.update r.certifications key (some c) }

end EvaluationProviderRegistry

/-! ## The gateway -/

/-- A transition that has been bound, and how often the registration of its provider id had
changed by then. -/
structure BoundCall (V : Type u) (P : Type) where
  request : StateTransitionRequest V
  bound : BoundStateTransitionProvider V P
  since : ℕ

/-- The id under which the provider of the call is registered. -/
def BoundCall.providerId {V : Type u} {P : Type} (c : BoundCall V P) : String :=
  c.request.stateRef.providerId

/-- How far the verification of the predecessors has come. -/
structure Verification {V : Type u} (request : StateTransitionRequest V) (P : Type) where
  rest : List (Sigma fun _ : String ↦ StateRef V)
  checkedSlots : List String
  predecessorStateIds : List String
  materializedBy : List P
  isLocal : ∀ slot ∈ rest, request.stateRef.Local slot.2

/-- Where a thread stands in `EvaluationGateway.transition`. -/
inductive GatewayPc (V : Type u) (P : Type) where
  | idle
  | bound (call : BoundCall V P)
  | executed (call : BoundCall V P) (result : StateTransitionResult V)
  | verifying (call : BoundCall V P) (result : StateTransitionResult V)
      (v : Verification call.request P)
  | materializing (call : BoundCall V P) (result : StateTransitionResult V)
      (v : Verification call.request P) (name : String) (predecessor : StateRef V)
      (request : StateMaterializationRequest V) (bound : BoundStateMaterializationProvider V P)

namespace GatewayPc

variable {V : Type u} {P : Type}

/-- The call that is under way. -/
def call : GatewayPc V P → Option (BoundCall V P)
  | idle => none
  | bound c | executed c _ | verifying c _ _ | materializing c _ _ _ _ _ _ => some c

/-- The instances that have been looked up to materialize predecessors. -/
def materializers : GatewayPc V P → List P
  | verifying _ _ v => v.materializedBy
  | materializing _ _ v _ _ _ b => v.materializedBy ++ [b.provider]
  | _ => []

end GatewayPc

/-- The registry, and where the threads stand. -/
structure Gateway (V : Type u) (P : Type) where
  registry : EvaluationProviderRegistry P
  pc : ℕ → GatewayPc V P

/-- A step. -/
inductive GatewayStep (V : Type u) (P : Type) where
  | register (provider : P) (id : String) (replace : Bool)
  | unregister (id : String)
  /-- `bind_transition`; the outcome is what the specification makes of the request. -/
  | bind (thread : ℕ) (request : StateTransitionRequest V)
      (outcome : Option (EvaluationBinding V × StateTransitionMethodSpec))
  | execute (thread : ℕ)
      (reply : ProviderReply V (StateTransitionRequest V) (StateTransitionResult V))
  | check (thread : ℕ)
  /-- `bind_materialization` of the next predecessor. -/
  | bindSlot (thread : ℕ) (requestId : String) (outcome : Option (EvaluationBinding V))
  | materialize (thread : ℕ)
      (reply : ProviderReply V (StateMaterializationRequest V) (StateMaterializationResult V))
  | record (thread : ℕ)

namespace Gateway

variable {V : Type u} {P : Type} [DecidableEq V] [WireText V] (D : ProtocolDigest V)

/-- The thread goes on at `pc`. -/
def goto (g : Gateway V P) (thread : ℕ) (pc : GatewayPc V P) : Gateway V P :=
  { g with pc := Function.update g.pc thread pc }

/-- The slots whose predecessors are to be materialized. -/
def replacedSlots (request : StateTransitionRequest V) (result : StateTransitionResult V) :
    List (Sigma fun _ : String ↦ StateRef V) :=
  request.slotRefs.refs.entries.filter fun slot ↦
    (result.slotRefs.refs.lookup slot.1).any fun successor ↦ successor.stateId ≠ slot.2.stateId

omit [DecidableEq V] [WireText V] in
theorem local_of_mem_replacedSlots (request : StateTransitionRequest V)
    (result : StateTransitionResult V) :
    ∀ slot ∈ replacedSlots request result, request.stateRef.Local slot.2 := by
  intro slot hslot
  have hmem := List.mem_of_mem_filter hslot
  exact request.slotRefs.isLocal slot.1 slot.2 (Dict.mem_entries.mp hmem)

/-- The request that materializes a predecessor. -/
def materializationRequest (request : StateTransitionRequest V) (requestId name : String)
    (predecessor : StateRef V) : StateMaterializationRequest V where
  requestId := requestId
  stateRef := predecessor
  target := .unknownState
  releaseAfter := false
  metadata :=
    (Finmap.singleton "reason" (WireText.ofText "copy_on_write_conformance") ∪
      Finmap.singleton "slot_name" (WireText.ofText name)) ∪
        Finmap.singleton "transition_request_id" (WireText.ofText request.requestId)

/-- The certification that is filed when every predecessor has been materialized. -/
def certification (call : BoundCall V P) (result : StateTransitionResult V)
    (v : Verification call.request P) : Certification P where
  report :=
    { providerId := call.providerId
      methodId := result.methodId
      transitionRequestId := call.request.requestId
      checkedSlots := v.checkedSlots
      predecessorStateIds := v.predecessorStateIds }
  transitionBy := call.bound.provider
  materializedBy := v.materializedBy

/-- One step. -/
def step (g : Gateway V P) : GatewayStep V P → Option (Gateway V P)
  | .register provider id replace =>
      some { g with registry := g.registry.register provider id replace }
  | .unregister id => some { g with registry := g.registry.unregister id }
  | .bind thread request outcome =>
      match g.pc thread with
      | .idle =>
          match g.registry.providers request.stateRef.providerId, outcome with
          | some provider, some (binding, methodSpec) =>
              some (g.goto thread (.bound
                { request := request
                  bound :=
                    { provider := provider
                      binding := binding
                      methodSpec := methodSpec
                      bindingDigest := D.binding binding }
                  since := g.registry.registrations request.stateRef.providerId }))
          | _, _ => some g
      | _ => none
  | .execute thread reply =>
      match g.pc thread with
      | .bound call =>
          match call.bound.execute D call.request reply with
          | .error _ => some (g.goto thread .idle)
          | .ok result => some (g.goto thread (.executed call result))
      | _ => none
  | .check thread =>
      match g.pc thread with
      | .executed call result =>
          if result.status = .applied ∧ call.request.slotRefs.refs.entries ≠ [] ∧
              g.registry.requiresCertification call.providerId call.request.methodId ∧
                call.request.requestId = result.requestId then
            some (g.goto thread (.verifying call result
              { rest := replacedSlots call.request result
                checkedSlots := []
                predecessorStateIds := []
                materializedBy := []
                isLocal := local_of_mem_replacedSlots call.request result }))
          else some (g.goto thread .idle)
      | _ => none
  | .bindSlot thread requestId outcome =>
      match g.pc thread with
      | .verifying call result ⟨⟨name, predecessor⟩ :: rest, checked, ids, materializedBy, h⟩ =>
          match g.registry.providers predecessor.providerId, outcome with
          | some provider, some binding =>
              some (g.goto thread (.materializing call result
                ⟨rest, checked, ids, materializedBy, fun slot hs ↦ h slot (.tail _ hs)⟩
                name predecessor
                (materializationRequest call.request requestId name predecessor)
                { provider := provider
                  binding := binding
                  bindingDigest := D.binding binding }))
          | _, _ => some (g.goto thread .idle)
      | _ => none
  | .materialize thread reply =>
      match g.pc thread with
      | .materializing call result ⟨rest, checked, ids, materializedBy, h⟩ name predecessor
          request bound =>
          match bound.execute D request reply with
          | .error _ => some (g.goto thread .idle)
          | .ok materialized =>
              if materialized.stateRef ≠ predecessor then some (g.goto thread .idle)
              else some (g.goto thread (.verifying call result
                ⟨rest, checked ++ [name], ids ++ [predecessor.stateId],
                  materializedBy ++ [bound.provider], h⟩))
      | _ => none
  | .record thread =>
      match g.pc thread with
      | .verifying call result v =>
          if v.rest = [] then
            some { g.goto thread .idle with
              registry := g.registry.record (certification call result v) }
          else none
      | _ => none

end Gateway

/-! ## Genuine certifications -/

namespace EvaluationProviderRegistry

variable {P : Type} {r : EvaluationProviderRegistry P}

/-- The transition behind every listed certification, and the materializations, were executed by
the instance that is registered. -/
def Genuine (r : EvaluationProviderRegistry P) : Prop :=
  ∀ key c, r.certifications key = some c →
    ∃ provider, r.providers key.1 = some provider ∧ c.transitionBy = provider ∧
      ∀ materializer ∈ c.materializedBy, materializer = provider

theorem of_dropCertifications {id : String} {key : String × String} {c : Certification P}
    (h : r.dropCertifications id key = some c) : key.1 ≠ id ∧ r.certifications key = some c := by
  unfold dropCertifications at h
  split_ifs at h with hid
  exact ⟨hid, h⟩

theorem Genuine.unregister (h : r.Genuine) (id : String) : (r.unregister id).Genuine := by
  intro key c hc
  obtain ⟨hne, hlisted⟩ := of_dropCertifications hc
  obtain ⟨provider, hprovider, hby⟩ := h key c hlisted
  exact ⟨provider, (Function.update_of_ne hne _ _).trans hprovider, hby⟩

theorem Genuine.register (h : r.Genuine) (provider : P) (id : String) (replace : Bool) :
    (r.register provider id replace).Genuine := by
  unfold EvaluationProviderRegistry.register
  split_ifs with hrefused hreplace
  · exact h
  · intro key c hc
    obtain ⟨hne, hlisted⟩ := of_dropCertifications hc
    obtain ⟨registered, hregistered, hby⟩ := h key c hlisted
    exact ⟨registered, (Function.update_of_ne hne _ _).trans hregistered, hby⟩
  · -- A new id that is not registered has no certifications.
    intro key c hc
    obtain ⟨registered, hregistered, hby⟩ := h key c hc
    have hne : key.1 ≠ id := by
      rintro rfl
      simp [hregistered, hreplace] at hrefused
    exact ⟨registered, (Function.update_of_ne hne _ _).trans hregistered, hby⟩

theorem Genuine.record (h : r.Genuine) {c : Certification P}
    (hc : r.certifications (c.report.providerId, c.report.methodId) = none →
      r.providers c.report.providerId = some c.transitionBy ∧
        ∀ materializer ∈ c.materializedBy, materializer = c.transitionBy) :
    (r.record c).Genuine := by
  unfold EvaluationProviderRegistry.record
  simp only
  split_ifs with hlisted
  · exact h
  · intro key c' hc'
    obtain ⟨hprovider, hby⟩ := hc (by simpa using hlisted)
    by_cases hkey : key = (c.report.providerId, c.report.methodId)
    · subst hkey
      simp only [Function.update_self] at hc'
      obtain rfl := Option.some.inj hc'
      exact ⟨c.transitionBy, hprovider, rfl, hby⟩
    · simp only [Function.update_of_ne hkey] at hc'
      exact h key c' hc'

theorem registrations_register (provider : P) (id : String) (replace : Bool) (id' : String) :
    (r.register provider id replace).registrations id' = r.registrations id' ∧
        (r.register provider id replace).providers id' = r.providers id' ∨
      r.registrations id' < (r.register provider id replace).registrations id' := by
  unfold EvaluationProviderRegistry.register
  split_ifs with hrefused
  · exact .inl ⟨rfl, rfl⟩
  all_goals
    by_cases hid : id' = id
    · subst hid
      exact .inr (by simp)
    · exact .inl ⟨Function.update_of_ne hid _ _, Function.update_of_ne hid _ _⟩

theorem registrations_unregister (id id' : String) :
    (r.unregister id).registrations id' = r.registrations id' ∧
        (r.unregister id).providers id' = r.providers id' ∨
      r.registrations id' < (r.unregister id).registrations id' := by
  by_cases hid : id' = id
  · subst hid
    exact .inr (by simp [EvaluationProviderRegistry.unregister])
  · exact .inl ⟨Function.update_of_ne hid _ _, Function.update_of_ne hid _ _⟩

@[simp] theorem providers_record (c : Certification P) : (r.record c).providers = r.providers := by
  unfold EvaluationProviderRegistry.record
  simp only
  split_ifs <;> rfl

@[simp] theorem registrations_record (c : Certification P) :
    (r.record c).registrations = r.registrations := by
  unfold EvaluationProviderRegistry.record
  simp only
  split_ifs <;> rfl

end EvaluationProviderRegistry

namespace Gateway

variable {V : Type u} {P : Type} [DecidableEq V] [WireText V] {D : ProtocolDigest V}
  {g g' : Gateway V P}

/-- The condition on a step: a certification is filed only if the registration of its provider
id has not changed since the transition was bound. -/
def Settled (g : Gateway V P) : GatewayStep V P → Prop
  | .record thread => ∀ call result v, g.pc thread = .verifying call result v →
      g.registry.requiresCertification call.providerId result.methodId = true →
        g.registry.registrations call.providerId = call.since
  | _ => True

/-- As long as the registration has not changed, the instances that are at work behind the call
are the registered one. -/
structure Current (r : EvaluationProviderRegistry P) (call : BoundCall V P)
    (materializers : List P) : Prop where
  since_le : call.since ≤ r.registrations call.providerId
  same : r.registrations call.providerId = call.since →
    r.providers call.providerId = some call.bound.provider ∧
      ∀ materializer ∈ materializers, materializer = call.bound.provider

/-- The invariant. -/
structure Inv (g : Gateway V P) : Prop where
  genuine : g.registry.Genuine
  current : ∀ thread call, (g.pc thread).call = some call →
    Current g.registry call (g.pc thread).materializers

omit [DecidableEq V] [WireText V] in
/-- A change of the registry that counts what it does to a registration. -/
theorem Current.mono {r r' : EvaluationProviderRegistry P} {call : BoundCall V P}
    {materializers : List P} (h : Current r call materializers)
    (hr : r'.registrations call.providerId = r.registrations call.providerId ∧
        r'.providers call.providerId = r.providers call.providerId ∨
      r.registrations call.providerId < r'.registrations call.providerId) :
    Current r' call materializers := by
  rcases hr with ⟨hcount, hprovider⟩ | hlt
  · refine ⟨hcount ▸ h.since_le, fun hsame ↦ ?_⟩
    rw [hprovider]
    exact h.same (hcount.symm.trans hsame)
  · refine ⟨h.since_le.trans hlt.le, fun hsame ↦ ?_⟩
    exact absurd hsame (h.since_le.trans_lt hlt).ne'

omit [DecidableEq V] [WireText V] in
/-- A provider is looked up once more. -/
theorem Current.looked_up {r : EvaluationProviderRegistry P} {call : BoundCall V P}
    {materializers : List P} (h : Current r call materializers) {provider : P}
    (hprovider : r.providers call.providerId = some provider) :
    Current r call (materializers ++ [provider]) := by
  refine ⟨h.since_le, fun hsame ↦ ?_⟩
  obtain ⟨hregistered, hby⟩ := h.same hsame
  refine ⟨hregistered, fun materializer hm ↦ ?_⟩
  rcases List.mem_append.mp hm with hm | hm
  · exact hby materializer hm
  · rw [List.mem_singleton.mp hm]
    exact Option.some.inj (hprovider.symm.trans hregistered)

omit [DecidableEq V] [WireText V] in
/-- A thread goes on. -/
theorem Inv.goto (h : g.Inv) (thread : ℕ) (pc : GatewayPc V P)
    (hpc : ∀ call, pc.call = some call → Current g.registry call pc.materializers) :
    (g.goto thread pc).Inv where
  genuine := h.genuine
  current thread' call hcall := by
    have heq : (g.goto thread pc).pc thread' = if thread' = thread then pc else g.pc thread' :=
      Function.update_apply g.pc thread pc thread'
    rw [heq] at hcall ⊢
    split_ifs at hcall ⊢ with hthread
    · exact hpc call hcall
    · exact h.current thread' call hcall

theorem Inv.step {l : GatewayStep V P} (h : g.Inv) (hok : g.Settled l)
    (hstep : g.step D l = some g') : g'.Inv := by
  -- A call that ends leaves nothing to be checked.
  have hidle : ∀ thread, (g.goto thread .idle).Inv := fun thread ↦
    h.goto thread .idle fun call hcall ↦ nomatch hcall
  cases l with
  | register provider id replace =>
      obtain rfl := Option.some.inj hstep
      refine ⟨h.genuine.register provider id replace, fun thread call hcall ↦ ?_⟩
      exact (h.current thread call hcall).mono
        (EvaluationProviderRegistry.registrations_register provider id replace _)
  | unregister id =>
      obtain rfl := Option.some.inj hstep
      refine ⟨h.genuine.unregister id, fun thread call hcall ↦ ?_⟩
      exact (h.current thread call hcall).mono
        (EvaluationProviderRegistry.registrations_unregister id _)
  | bind thread request outcome =>
      simp only [Gateway.step] at hstep
      cases hpc : g.pc thread with
      | idle =>
          cases hprovider : g.registry.providers request.stateRef.providerId with
          | none =>
              simp only [hpc, hprovider] at hstep
              exact Option.some.inj hstep ▸ h
          | some provider =>
              cases outcome with
              | none =>
                  simp only [hpc, hprovider] at hstep
                  exact Option.some.inj hstep ▸ h
              | some bound =>
                  simp only [hpc, hprovider] at hstep
                  obtain rfl := Option.some.inj hstep
                  refine h.goto thread _ fun call hcall ↦ ?_
                  obtain rfl := Option.some.inj hcall
                  exact ⟨le_rfl, fun _ ↦ ⟨hprovider, fun _ hm ↦ nomatch hm⟩⟩
      | bound call => simp [hpc] at hstep
      | executed call result => simp [hpc] at hstep
      | verifying call result v => simp [hpc] at hstep
      | materializing call result v name predecessor request bound => simp [hpc] at hstep
  | execute thread reply =>
      simp only [Gateway.step] at hstep
      cases hpc : g.pc thread with
      | bound call =>
          have hcurrent := h.current thread call (by rw [hpc]; rfl)
          rw [hpc] at hcurrent
          cases hresult : call.bound.execute D call.request reply with
          | error e =>
              simp only [hpc, hresult] at hstep
              exact Option.some.inj hstep ▸ hidle thread
          | ok result =>
              simp only [hpc, hresult] at hstep
              obtain rfl := Option.some.inj hstep
              refine h.goto thread _ fun call' hcall ↦ ?_
              obtain rfl := Option.some.inj hcall
              exact hcurrent
      | idle => simp [hpc] at hstep
      | executed call result => simp [hpc] at hstep
      | verifying call result v => simp [hpc] at hstep
      | materializing call result v name predecessor request bound => simp [hpc] at hstep
  | check thread =>
      simp only [Gateway.step] at hstep
      cases hpc : g.pc thread with
      | executed call result =>
          have hcurrent := h.current thread call (by rw [hpc]; rfl)
          rw [hpc] at hcurrent
          simp only [hpc] at hstep
          split_ifs at hstep
          · obtain rfl := Option.some.inj hstep
            refine h.goto thread _ fun call' hcall ↦ ?_
            obtain rfl := Option.some.inj hcall
            exact hcurrent
          · exact Option.some.inj hstep ▸ hidle thread
      | idle => simp [hpc] at hstep
      | bound call => simp [hpc] at hstep
      | verifying call result v => simp [hpc] at hstep
      | materializing call result v name predecessor request bound => simp [hpc] at hstep
  | bindSlot thread requestId outcome =>
      simp only [Gateway.step] at hstep
      cases hpc : g.pc thread with
      | verifying call result v =>
          have hcurrent := h.current thread call (by rw [hpc]; rfl)
          rw [hpc] at hcurrent
          obtain ⟨rest, checked, ids, materializedBy, hlocal⟩ := v
          cases rest with
          | nil => simp [hpc] at hstep
          | cons slot rest =>
              obtain ⟨name, predecessor⟩ := slot
              -- The predecessor has the same owner as the main state.
              have howner : predecessor.providerId = call.providerId :=
                (hlocal ⟨name, predecessor⟩ (List.mem_cons_self ..)).providerId
              cases hprovider : g.registry.providers predecessor.providerId with
              | none =>
                  simp only [hpc, hprovider] at hstep
                  exact Option.some.inj hstep ▸ hidle thread
              | some provider =>
                  cases outcome with
                  | none =>
                      simp only [hpc, hprovider] at hstep
                      exact Option.some.inj hstep ▸ hidle thread
                  | some binding =>
                      simp only [hpc, hprovider] at hstep
                      obtain rfl := Option.some.inj hstep
                      refine h.goto thread _ fun call' hcall ↦ ?_
                      obtain rfl := Option.some.inj hcall
                      exact hcurrent.looked_up (howner ▸ hprovider)
      | idle => simp [hpc] at hstep
      | bound call => simp [hpc] at hstep
      | executed call result => simp [hpc] at hstep
      | materializing call result v name predecessor request bound => simp [hpc] at hstep
  | materialize thread reply =>
      simp only [Gateway.step] at hstep
      cases hpc : g.pc thread with
      | materializing call result v name predecessor request bound =>
          have hcurrent := h.current thread call (by rw [hpc]; rfl)
          rw [hpc] at hcurrent
          obtain ⟨rest, checked, ids, materializedBy, hlocal⟩ := v
          cases hresult : bound.execute D request reply with
          | error e =>
              simp only [hpc, hresult] at hstep
              exact Option.some.inj hstep ▸ hidle thread
          | ok materialized =>
              simp only [hpc, hresult] at hstep
              split_ifs at hstep
              · exact Option.some.inj hstep ▸ hidle thread
              · obtain rfl := Option.some.inj hstep
                refine h.goto thread _ fun call' hcall ↦ ?_
                obtain rfl := Option.some.inj hcall
                exact hcurrent
      | idle => simp [hpc] at hstep
      | bound call => simp [hpc] at hstep
      | executed call result => simp [hpc] at hstep
      | verifying call result v => simp [hpc] at hstep
  | record thread =>
      simp only [Gateway.step] at hstep
      cases hpc : g.pc thread with
      | verifying call result v =>
          have hcurrent := h.current thread call (by rw [hpc]; rfl)
          rw [hpc] at hcurrent
          simp only [hpc] at hstep
          split_ifs at hstep
          obtain rfl := Option.some.inj hstep
          refine ⟨h.genuine.record fun hnone ↦ ?_, fun thread' call' hcall ↦ ?_⟩
          · refine hcurrent.same (hok call result v hpc ?_)
            exact Option.isNone_iff_eq_none.mpr hnone
          · refine ((hidle thread).current thread' call' hcall).mono (.inl ⟨?_, ?_⟩)
            · exact congrFun (EvaluationProviderRegistry.registrations_record _) _
            · exact congrFun (EvaluationProviderRegistry.providers_record _) _
      | idle => simp [hpc] at hstep
      | bound call => simp [hpc] at hstep
      | executed call result => simp [hpc] at hstep
      | materializing call result v name predecessor request bound => simp [hpc] at hstep

/-- A registry without certifications, and no transition under way. -/
def Fresh (g : Gateway V P) : Prop :=
  (∀ key, g.registry.certifications key = none) ∧ ∀ thread, g.pc thread = .idle

/-- In every run in which a certification is filed only while the registration is the one that
the transition was bound under, every listed certification speaks of the registered provider. -/
theorem certifications_genuine (hg : g.Fresh) (hrun : Machine.Reach (step D) Settled g g') :
    g'.registry.Genuine := by
  have hstart : g.Inv := by
    refine ⟨fun key c hc ↦ ?_, fun thread call hcall ↦ ?_⟩
    · rw [hg.1 key] at hc
      cases hc
    · rw [hg.2 thread] at hcall
      cases hcall
  have hend : g'.Inv := hrun.invariant hstart fun _ _ _ h hok hstep ↦ h.step hok hstep
  exact hend.genuine

/-! ## One certification -/

/-- An empty registry. -/
def vacant : Gateway String ℕ where
  registry := ⟨fun _ ↦ none, fun _ ↦ none, fun _ ↦ 0⟩
  pc _ := .idle

theorem vacant_fresh : vacant.Fresh := ⟨fun _ ↦ rfl, fun _ ↦ rfl⟩

/-- The predecessor of a slot is bound and materialized. -/
def materializeSlot (predecessor : StateRef String) (name requestId : String) :
    List (GatewayStep String ℕ) :=
  let binding : EvaluationBinding String :=
    { momentBinding with
      requestId := requestId
      requestDigest := "" }
  [.bindSlot 0 requestId (some binding),
    .materialize 0 (.returned (materializationRequest momentRequest requestId name predecessor)
      binding (.ok
        { requestId := requestId
          stateRef := predecessor
          target := .unknownState
          value := "value"
          binding := none
          metadata := ∅ }))]

/-- A transition on the first provider, up to the point where its certification is filed. -/
def certifyingSteps : List (GatewayStep String ℕ) :=
  [.register 0 "provider" false,
    .bind 0 momentRequest (some (momentBinding, momentProvider.methodSpec)),
    .execute 0 (.returned momentRequest momentBinding
      (.ok (momentResult "c" "d" (by decide) (by decide)))),
    .check 0] ++
  materializeSlot (tensor "a" 0 label_a) "m" "first" ++
  materializeSlot (tensor "b" 0 label_b) "v" "second"

/-- What is listed for the transition, and who is registered. -/
def listed (g : Gateway String ℕ) : Option ℕ × Option (ℕ × List ℕ) :=
  (g.registry.providers "provider",
    (g.registry.certifications ("provider", "adam")).map fun c ↦ (c.transitionBy, c.materializedBy))

/-- A step that files nothing. -/
def silent (_ : Gateway String ℕ) : GatewayStep String ℕ → Prop
  | .record _ => False
  | _ => True

instance (g : Gateway String ℕ) (l : GatewayStep String ℕ) : Decidable (silent g l) := by
  cases l <;> unfold silent <;> infer_instance

/-- A certification that speaks of the registered provider. -/
theorem certifies_registered :
    ∃ g, Machine.Reach (step momentDigest) Settled vacant g ∧
      listed g = (some 0, some (0, [0, 0])) ∧ g.registry.Genuine := by
  -- Before the last step nothing is filed.
  let before := Machine.run (Machine.guarded (step momentDigest) silent) vacant certifyingSteps
  have hbefore : before.map (fun g ↦ ((g.pc 0).call.map fun call ↦ (call.providerId, call.since),
      g.registry.registrations "provider")) = some (some ("provider", 1), 1) := by
    decide +kernel
  have hlast : (before.bind fun g ↦ step momentDigest g (.record 0)).map listed =
      some (some 0, some (0, [0, 0])) := by
    decide +kernel
  obtain ⟨g, hrun, hseen⟩ := Option.map_eq_some_iff.mp hbefore
  obtain ⟨hcall, hcount⟩ := Prod.ext_iff.mp hseen
  rw [hrun, Option.bind_some] at hlast
  obtain ⟨g', hstep, hlisted⟩ := Option.map_eq_some_iff.mp hlast
  have hreach : Machine.Reach (step momentDigest) Settled vacant g := by
    refine (Machine.reach_of_run hrun).mono fun _ l hl ↦ ?_
    cases l
    case record => exact hl.elim
    all_goals trivial
  have hsettled : g.Settled (.record 0) := by
    intro call result v hpc _
    obtain ⟨call', hcall', heq⟩ := Option.map_eq_some_iff.mp hcall
    obtain rfl : call = call' := by
      rw [hpc] at hcall'
      exact Option.some.inj hcall'
    obtain ⟨hid, hsince⟩ := Prod.ext_iff.mp heq
    rw [show call.providerId = "provider" from hid, show call.since = 1 from hsince]
    exact hcount
  have hwhole := hreach.tail hsettled hstep
  exact ⟨g', hwhole, hlisted, certifications_genuine vacant_fresh hwhole⟩

/-- The provider is replaced before the certification of the earlier binding is filed. -/
theorem certifies_replaced :
    ∃ g, Machine.Reach (step momentDigest) Machine.anyStep vacant g ∧
      listed g = (some 1, some (0, [0, 0])) ∧ ¬ g.registry.Genuine := by
  have hrun : (Machine.run (step momentDigest) vacant
      (certifyingSteps ++ [.register 1 "provider" true, .record 0])).map listed =
        some (some 1, some (0, [0, 0])) := by
    decide +kernel
  obtain ⟨g, hg, hlisted⟩ := Option.map_eq_some_iff.mp hrun
  refine ⟨g, Machine.reach_of_run_any hg, hlisted, fun hgenuine ↦ ?_⟩
  obtain ⟨hprovider, hcertified⟩ := Prod.ext_iff.mp hlisted
  obtain ⟨c, hc, hby⟩ := Option.map_eq_some_iff.mp hcertified
  obtain ⟨provider, hregistered, htransition, -⟩ := hgenuine _ c hc
  obtain rfl : 1 = provider := Option.some.inj (hprovider.symm.trans hregistered)
  have hzero : c.transitionBy = 0 := congrArg Prod.fst hby
  omega

end Gateway

end Blackbase.Evaluation

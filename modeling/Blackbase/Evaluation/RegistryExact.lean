import Blackbase.Evaluation.BindingExact

/-!
# What a registry binds

Over every history of `register` and `unregister` calls the registry holds each provider under the
id of its specification.  `bind` then depends on the registered providers alone: the candidates
are the feasible ones, no two of them have one key, and the first of them is chosen.
-/

namespace Blackbase.Binding

open Project.Envelope (Raised Runtime)
open Resources (Digest ResourceContext ResourceRequirement)

variable {P : Type}

/-! ## The registered providers -/

namespace Registry

/-- Every provider is registered under the id of its specification. -/
def Keyed (r : Registry P) : Prop := ∀ e ∈ r.entries, e.2.spec.providerId.text = e.1

theorem Keyed.call {r : Registry P} (h : r.Keyed) (c : Call P) : (r.call c).Keyed := by
  cases c with
  | register provider spec replace =>
      simp only [Registry.call, register]
      split
      case isTrue => exact h
      case isFalse =>
        intro e he
        rcases OrderedDict.mem_of_mem_setEntry he with rfl | he
        · rfl
        · exact h e he
  | unregister id =>
      intro e he
      exact h e (OrderedDict.mem_erase.mp he).1

/-- Every history leaves a registry that is keyed by provider ids. -/
theorem keyed_after (calls : List (Call P)) : (after calls).Keyed := by
  have hrun : ∀ r : Registry P, r.Keyed → (calls.foldl call r).Keyed := by
    induction calls with
    | nil => exact fun _ h ↦ h
    | cons c calls ih => exact fun r h ↦ ih _ (h.call c)
  exact hrun ∅ fun e he ↦ absurd he List.not_mem_nil

/-- Two entries with one provider id are the same. -/
theorem Keyed.eq_of_providerId {r : Registry P} (h : r.Keyed) {e e' : String × Entry P}
    (he : e ∈ r.entries) (he' : e' ∈ r.entries)
    (hid : e.2.spec.providerId.text = e'.2.spec.providerId.text) : e = e' := by
  rw [h e he, h e' he'] at hid
  exact List.inj_on_of_nodup_map r.nodup he he' hid

/-- Registries that look alike have the same entries, in some order. -/
theorem perm_of_get? {r r' : Registry P} (h : ∀ id, r'.get? id = r.get? id) :
    r.entries.Perm r'.entries := by
  rw [List.perm_ext_iff_of_nodup r.nodup.of_map r'.nodup.of_map]
  rintro ⟨id, entry⟩
  rw [← OrderedDict.get?_eq_some, ← OrderedDict.get?_eq_some, h]

end Registry

/-! ## The choice -/

section Choice

open Registry (candidateOf rejectionOf choose)

variable {R : Runtime} {request : EvaluationRequest} {tried tried' : List (Entry P × Outcome)}

theorem candidateOf_eq_some {t : Entry P × Outcome} {c : Score × P × EvaluationBinding} :
    candidateOf t = some c ↔ t.1.provider = c.2.1 ∧ t.2 = .bound c.1 c.2.2 := by
  obtain ⟨entry, outcome⟩ := t
  cases outcome with
  | rejected reason => simp [candidateOf]
  | bound score binding =>
      obtain ⟨score', provider, binding'⟩ := c
      simp [candidateOf]
      tauto

theorem mem_candidates {c : Score × P × EvaluationBinding} :
    c ∈ tried.filterMap candidateOf ↔
      ∃ entry : Entry P, entry.provider = c.2.1 ∧ (entry, .bound c.1 c.2.2) ∈ tried := by
  simp only [List.mem_filterMap, candidateOf_eq_some]
  constructor
  · rintro ⟨⟨entry, outcome⟩, hmem, hprovider, rfl⟩
    exact ⟨entry, hprovider, hmem⟩
  · rintro ⟨entry, hprovider, hmem⟩
    exact ⟨_, hmem, hprovider, rfl⟩

theorem rejectionOf_eq_some {t : Entry P × Outcome} {r : String × String}
    (h : rejectionOf R t = some r) : r.1 = t.1.spec.providerId.text := by
  obtain ⟨entry, outcome⟩ := t
  cases outcome with
  | bound score binding => cases h
  | rejected reason =>
      cases h
      rfl

/-- Some provider is chosen exactly when one was bound. -/
theorem exists_choose :
    (∃ chosen, choose R request tried = .ok chosen) ↔
      ∃ entry score binding, (entry, .bound score binding) ∈ tried := by
  have hne : (∃ entry score binding, (entry, Outcome.bound score binding) ∈ tried) ↔
      tried.filterMap candidateOf ≠ [] := by
    constructor
    · rintro ⟨entry, score, binding, hmem⟩
      exact List.ne_nil_of_mem (a := (score, entry.provider, binding))
        (mem_candidates.mpr ⟨entry, rfl, hmem⟩)
    · intro h
      obtain ⟨c, hc⟩ := List.exists_mem_of_ne_nil _ h
      obtain ⟨entry, -, hmem⟩ := mem_candidates.mp hc
      exact ⟨entry, _, _, hmem⟩
  rw [hne, ← not_iff_not, not_not, ← Selection.sorted_eq_nil fun c ↦ c.1.key]
  simp only [choose]
  cases Selection.sorted (fun c ↦ c.1.key) (tried.filterMap candidateOf) with
  | nil => exact iff_of_true (fun ⟨_, h⟩ ↦ by cases h) rfl
  | cons c rest => exact iff_of_false (fun h ↦ h ⟨_, rfl⟩) (List.cons_ne_nil _ _)

/-- What is chosen has the least key of all that was bound. -/
theorem choose_eq_ok {provider : P} {binding : EvaluationBinding}
    (h : choose R request tried = .ok (provider, binding)) :
    ∃ entry : Entry P, entry.provider = provider ∧ ∃ score,
      (entry, .bound score binding) ∈ tried ∧ ∀ entry' score' binding',
        (entry', .bound score' binding') ∈ tried → score.key ≤ score'.key := by
  simp only [choose] at h
  cases hsorted : Selection.sorted (fun c ↦ c.1.key) (tried.filterMap candidateOf) with
  | nil =>
      rw [hsorted] at h
      cases h
  | cons c rest =>
      rw [hsorted] at h
      obtain ⟨score, provider', binding'⟩ := c
      cases h
      obtain ⟨hmem, hleast⟩ := Selection.head_sorted _ hsorted
      obtain ⟨entry, hprovider, hentry⟩ := mem_candidates.mp hmem
      refine ⟨entry, hprovider, score, hentry, fun entry' score' binding' hmem' ↦ ?_⟩
      exact hleast (score', entry'.provider, binding') (mem_candidates.mpr ⟨entry', rfl, hmem'⟩)

/-- The order in which providers are tried does not matter, as long as no two share an id. -/
theorem choose_congr (hperm : tried.Perm tried')
    (hscore : ∀ entry score binding, (entry, .bound score binding) ∈ tried →
      score.providerId = entry.spec.providerId.text)
    (hid : ∀ t ∈ tried, ∀ t' ∈ tried,
      t.1.spec.providerId.text = t'.1.spec.providerId.text → t = t') :
    choose R request tried = choose R request tried' := by
  have hcandidates : Selection.sorted (fun c ↦ c.1.key) (tried.filterMap candidateOf) =
      Selection.sorted (fun c ↦ c.1.key) (tried'.filterMap candidateOf) := by
    refine Selection.sorted_congr _ (hperm.filterMap _) fun c hc d hd hkey ↦ ?_
    rw [List.mem_filterMap] at hc hd
    obtain ⟨t, ht, htc⟩ := hc
    obtain ⟨u, hu, hud⟩ := hd
    have hids : c.1.providerId = d.1.providerId := congrArg (·.2.2.2.2) hkey
    have hct := candidateOf_eq_some.mp htc
    have hdu := candidateOf_eq_some.mp hud
    have htu : t = u := by
      refine hid t ht u hu ?_
      rw [← hscore t.1 c.1 c.2.2 (hct.2 ▸ ht), ← hscore u.1 d.1 d.2.2 (hdu.2 ▸ hu), hids]
    rw [htu, hud] at htc
    exact (Option.some.inj htc).symm
  have hrejections : Selection.sorted Prod.fst (tried.filterMap (rejectionOf R)) =
      Selection.sorted Prod.fst (tried'.filterMap (rejectionOf R)) := by
    refine Selection.sorted_congr _ (hperm.filterMap _) fun c hc d hd hkey ↦ ?_
    rw [List.mem_filterMap] at hc hd
    obtain ⟨t, ht, htc⟩ := hc
    obtain ⟨u, hu, hud⟩ := hd
    have htu : t = u := hid t ht u hu <| by
      rw [← rejectionOf_eq_some htc, ← rejectionOf_eq_some hud, hkey]
    rw [htu, hud] at htc
    exact (Option.some.inj htc).symm
  simp only [choose, hcandidates, hrejections]

end Choice

/-! ## Binding -/

/-- The binding of a registry to a request: the provider is feasible, it is bound on the device
that is selected for it, which is available and compatible, and no feasible provider comes before
it. -/
structure BindsBest (R : Runtime) (r : Registry P) (request : EvaluationRequest)
    (context : ResourceContext) (grant : GrantReading) (digest : Digest) (provider : P)
    (binding : EvaluationBinding) (entry : Entry P) (device : String) : Prop where
  registered : r.get? binding.providerId = some entry
  provider_eq : entry.provider = provider
  feasible : Feasible R context grant entry.spec request
  selected : Selected R context entry.spec device
  available : Available R context grant.toDeviceGrant binding.device
  compatible : Compatible entry.spec.supportedDevices binding.device
  binding_eq : binding = (candidate entry.spec request context device digest).2
  best : ∀ id other d, r.get? id = some other → Feasible R context grant other.spec request →
    Selected R context other.spec d →
      (candidate entry.spec request context device digest).1.key ≤
        (candidate other.spec request context d digest).1.key

section Exact

variable {R : Runtime} {r : Registry P} {request : EvaluationRequest} {supplied : ResourceContext}
  {grant : GrantReading} {digest : Digest}

theorem candidate_device {spec : EvaluationProviderSpec} {context : ResourceContext}
    {device : String} (h : device ≠ "") :
    (candidate spec request context device digest).2.device = device := if_neg h

theorem candidate_providerId {spec : EvaluationProviderSpec} {context : ResourceContext}
    {device : String} :
    (candidate spec request context device digest).2.providerId = spec.providerId.text := rfl

theorem candidate_scoreId {spec : EvaluationProviderSpec} {context : ResourceContext}
    {device : String} :
    (candidate spec request context device digest).1.providerId = spec.providerId.text := rfl

/-- Every entry is tried, and each attempt ends in an outcome. -/
theorem exists_tried (hread : Reads R (supplied.fromMapping R) grant)
    (hdigest : request.digest R = .ok digest) :
    ∃ outcome : EvaluationProviderSpec → Outcome,
      (∀ spec, tryBinding R spec request (supplied.fromMapping R) = .ok (outcome spec)) ∧
      ∀ r : Registry P, r.bind R request supplied =
        Registry.choose R request (r.entries.map fun e ↦ (e.2, outcome e.2.spec)) := by
  have htry : ∀ spec, ∃ outcome,
      tryBinding R spec request (supplied.fromMapping R) = .ok outcome := by
    intro spec
    obtain ⟨device, -, -, h⟩ | ⟨reason, -, h⟩ := tryBinding_eq spec hread hdigest
    · exact ⟨_, h⟩
    · exact ⟨_, h⟩
  choose outcome houtcome using htry
  refine ⟨outcome, houtcome, fun r ↦ ?_⟩
  have hmap : (r.entries.mapM fun e ↦ (tryBinding R e.2.spec request
      (supplied.fromMapping R)).map fun outcome ↦ (e.2, outcome)) =
        .ok (r.entries.map fun e ↦ (e.2, outcome e.2.spec)) := by
    induction r.entries with
    | nil => rfl
    | cons e rest ih =>
        rw [List.mapM_cons, houtcome, ih]
        rfl
  simp only [Registry.bind, hmap]

/-- Which outcome a specification has. -/
theorem outcome_eq_bound {outcome : EvaluationProviderSpec → Outcome}
    (hread : Reads R (supplied.fromMapping R) grant) (hdigest : request.digest R = .ok digest)
    (houtcome : ∀ spec,
      tryBinding R spec request (supplied.fromMapping R) = .ok (outcome spec))
    {spec : EvaluationProviderSpec} {score : Score} {binding : EvaluationBinding} :
    outcome spec = .bound score binding ↔
      ∃ device, Feasible R (supplied.fromMapping R) grant spec request ∧
        Selected R (supplied.fromMapping R) spec device ∧
        (score, binding) = candidate spec request (supplied.fromMapping R) device digest := by
  obtain ⟨device, hfeasible, hselected, htry⟩ | ⟨reason, hnot, htry⟩ :=
    tryBinding_eq spec hread hdigest
  · have hbound := Except.ok.inj ((houtcome spec).symm.trans htry)
    rw [hbound]
    constructor
    · intro h
      obtain ⟨rfl, rfl⟩ := Outcome.bound.inj h
      exact ⟨device, hfeasible, hselected, rfl⟩
    · rintro ⟨device', -, hselected', hcandidate⟩
      have hdevice : device = device' :=
        Option.some.inj (Except.ok.inj (hselected.symm.trans hselected'))
      rw [← hdevice] at hcandidate
      rw [← hcandidate]
  · have hrejected := Except.ok.inj ((houtcome spec).symm.trans htry)
    rw [hrejected]
    refine iff_of_false (fun h ↦ by cases h) ?_
    rintro ⟨-, hfeasible, -⟩
    exact hnot hfeasible

/-- `bind` succeeds exactly when a registered provider is feasible. -/
theorem exists_bind_iff (hread : Reads R (supplied.fromMapping R) grant)
    (hdigest : request.digest R = .ok digest) :
    (∃ bound, r.bind R request supplied = .ok bound) ↔ ∃ id entry, r.get? id = some entry ∧
      Feasible R (supplied.fromMapping R) grant entry.spec request := by
  obtain ⟨outcome, houtcome, hbind⟩ := exists_tried (P := P) hread hdigest
  rw [hbind, exists_choose]
  constructor
  · rintro ⟨entry, score, binding, hmem⟩
    obtain ⟨e, he, heq⟩ := List.mem_map.mp hmem
    obtain ⟨hentry, hbound⟩ := Prod.mk.inj heq
    obtain ⟨device, hfeasible, -⟩ := (outcome_eq_bound hread hdigest houtcome).mp hbound
    exact ⟨e.1, e.2, OrderedDict.get?_of_mem he, hfeasible⟩
  · rintro ⟨id, entry, hget, hfeasible⟩
    obtain ⟨device, hselected⟩ := (exists_selected hread).mpr hfeasible.device
    have hbound := (outcome_eq_bound hread hdigest houtcome).mpr
      ⟨device, hfeasible, hselected, Prod.mk.eta⟩
    exact ⟨entry, _, _, List.mem_map.mpr ⟨(id, entry), OrderedDict.mem_of_get? hget,
      congrArg (Prod.mk entry) hbound⟩⟩

/-- What `bind` returns is the best feasible provider. -/
theorem bindsBest_of_bind (hkeyed : r.Keyed) (hread : Reads R (supplied.fromMapping R) grant)
    (hdigest : request.digest R = .ok digest) {provider : P} {binding : EvaluationBinding}
    (h : r.bind R request supplied = .ok (provider, binding)) :
    ∃ entry device, BindsBest R r request (supplied.fromMapping R) grant digest provider binding
      entry device := by
  obtain ⟨outcome, houtcome, hbind⟩ := exists_tried (P := P) hread hdigest
  rw [hbind] at h
  obtain ⟨entry, hprovider, score, hmem, hbest⟩ := choose_eq_ok h
  obtain ⟨e, he, heq⟩ := List.mem_map.mp hmem
  obtain ⟨rfl, hbound⟩ := Prod.mk.inj heq
  obtain ⟨device, hfeasible, hselected, hcandidate⟩ :=
    (outcome_eq_bound hread hdigest houtcome).mp hbound
  obtain rfl : score = (candidate e.2.spec request _ device digest).1 :=
    congrArg Prod.fst hcandidate
  obtain rfl : binding = (candidate e.2.spec request _ device digest).2 :=
    congrArg Prod.snd hcandidate
  obtain ⟨havailable, hcompatible⟩ := hselected.available hread
  have hdevice : (candidate e.2.spec request (supplied.fromMapping R) device digest).2.device =
      device := candidate_device havailable.ne_empty
  refine ⟨e.2, device, {
    registered := by
      rw [candidate_providerId, hkeyed e he]
      exact OrderedDict.get?_of_mem he
    provider_eq := hprovider
    feasible := hfeasible
    selected := hselected
    available := by rw [hdevice]; exact havailable
    compatible := by rw [hdevice]; exact hcompatible
    binding_eq := rfl
    best := fun id other d hget hother hd ↦ ?_ }⟩
  have hbound := (outcome_eq_bound hread hdigest houtcome).mpr ⟨d, hother, hd, Prod.mk.eta⟩
  exact hbest other _ _ (List.mem_map.mpr ⟨(id, other), OrderedDict.mem_of_get? hget,
    congrArg (Prod.mk other) hbound⟩)

/-- `bind` depends on the registered providers, and not on their order. -/
theorem bind_congr {r' : Registry P} (hkeyed : r.Keyed)
    (hread : Reads R (supplied.fromMapping R) grant) (hdigest : request.digest R = .ok digest)
    (hget : ∀ id, r'.get? id = r.get? id) :
    r'.bind R request supplied = r.bind R request supplied := by
  obtain ⟨outcome, houtcome, hbind⟩ := exists_tried (P := P) hread hdigest
  rw [hbind, hbind]
  refine (choose_congr ((Registry.perm_of_get? hget).map _) ?_ ?_).symm
  · intro entry score binding hmem
    obtain ⟨e, he, heq⟩ := List.mem_map.mp hmem
    obtain ⟨rfl, hbound⟩ := Prod.mk.inj heq
    obtain ⟨device, -, -, hcandidate⟩ := (outcome_eq_bound hread hdigest houtcome).mp hbound
    have hscore : score = (candidate e.2.spec request _ device digest).1 :=
      congrArg Prod.fst hcandidate
    rw [hscore, candidate_scoreId]
  · intro t ht t' ht' hid
    obtain ⟨e, he, rfl⟩ := List.mem_map.mp ht
    obtain ⟨e', he', rfl⟩ := List.mem_map.mp ht'
    rw [hkeyed.eq_of_providerId he he' hid]

end Exact

/-- `bind` succeeds exactly when a registered provider is feasible, what it returns is the best of
the feasible ones, and histories that register the same providers give the same result. -/
theorem bind_exact {R : Runtime} (calls : List (Call P)) {request : EvaluationRequest}
    {supplied : ResourceContext} {grant : GrantReading} {digest : Digest}
    (hread : Reads R (supplied.fromMapping R) grant) (hdigest : request.digest R = .ok digest) :
    ((∃ bound, (Registry.after calls).bind R request supplied = .ok bound) ↔
      ∃ id entry, (Registry.after calls).get? id = some entry ∧
        Feasible R (supplied.fromMapping R) grant entry.spec request) ∧
    (∀ provider binding,
      (Registry.after calls).bind R request supplied = .ok (provider, binding) →
        ∃ entry device, BindsBest R (Registry.after calls) request (supplied.fromMapping R) grant
          digest provider binding entry device) ∧
    ∀ calls' : List (Call P),
      (∀ id, (Registry.after calls').get? id = (Registry.after calls).get? id) →
        (Registry.after calls').bind R request supplied =
          (Registry.after calls).bind R request supplied :=
  ⟨exists_bind_iff hread hdigest,
    fun _ _ ↦ bindsBest_of_bind (Registry.keyed_after calls) hread hdigest,
    fun _ ↦ bind_congr (Registry.keyed_after calls) hread hdigest⟩

/-! ## An opaque state -/

/-- No value of another kind converts to anything, and no text is read as a number. -/
def strictRuntime : Runtime where
  str _ := ""
  int v := .error (.typeError v.typeName)
  float
    | .text s => .error (.valueError s!"could not convert string to float: '{s}'")
    | v => .error (.typeError v.typeName)
  dict v := .error (.typeError v.typeName)
  sequence v := .error (.typeError v.typeName)
  sub x _ := x
  sha256 _ := Resources.ControlStore.zeroDigest
  jsonDigest _ := .ok Resources.ControlStore.zeroDigest

/-- A processor with one thread, and nothing granted explicitly. -/
def processor : ResourceContext where
  computeBackend := ⟨"auto", Resources.auto_ne⟩
  device := ⟨"cpu", Resources.cpu_ne⟩
  threads := 1
  namespaceName := "default"
  grant := Resources.noEntries
  lease := Resources.noEntries
  one_le_threads := by decide

/-- A provider of any problem on a processor. -/
def anyProblem : EvaluationProviderSpec where
  providerId := ⟨"local", by decide, by decide⟩
  problemIds := []
  capabilities := []
  resourceRequirement := ResourceRequirement.make 1 0 "local" [] none none []
  supportedDevices := ["cpu"]
  preferredDevices := []
  computeBackend := ⟨"generic", by decide⟩
  modes := ["evaluate"]
  priority := 0
  stateKinds := []

/-- A provider of any problem that asks for memory. -/
def largeProblem : EvaluationProviderSpec :=
  { anyProblem with
    providerId := ⟨"large", by decide, by decide⟩
    resourceRequirement := ResourceRequirement.make 1 0 "local" [] (some 1024) none [] }

/-- A processor with a quantity of memory that is no number. -/
def muchMemory : ResourceContext :=
  { processor with
    grant := {
      dict := ⟨[("memory_mb", .text "much")], by decide⟩
      frozen := fun e he ↦ by
        rw [List.mem_singleton.mp he]
        trivial } }

/-- A request to evaluate one state. -/
def evaluating (state : State) : EvaluationRequest where
  requestId := ⟨"r", by decide, by decide⟩
  problemId := ⟨"p", by decide, by decide⟩
  mode := "evaluate"
  states := [state]
  capabilities := []
  payload := Resources.noEntries
  metadata := Resources.noEntries
  states_ne := List.cons_ne_nil _ _

/-- What the grant of `processor` says. -/
def processorGrant : GrantReading where
  tokens := []
  resolved := []
  gpus := 0
  threads := 1
  capabilities := []
  memoryMb := none
  gpuMemoryMb := none

theorem reads_processor :
    Reads strictRuntime (processor.fromMapping strictRuntime) processorGrant where
  threads := rfl
  tokens := rfl
  gpus := rfl
  resolved := rfl
  capabilities := rfl
  memoryMb := rfl
  gpuMemoryMb := rfl

/-- `anyProblem` can evaluate any state but one of another provider. -/
theorem feasible_anyProblem {state : State} (h : ∀ ref, state ≠ .stateRef ref) :
    Feasible strictRuntime (processor.fromMapping strictRuntime) processorGrant anyProblem
      (evaluating state) where
  problem := .inl rfl
  mode := List.mem_singleton.mpr rfl
  capabilities := fun name hname ↦ absurd hname List.not_mem_nil
  states := fun ref href ↦ absurd (List.mem_singleton.mp href).symm (h ref)
  resources := {
    threads := by decide
    gpus := by decide +kernel
    tokens := fun token htoken ↦ absurd htoken List.not_mem_nil
    backend := .inl (by decide +kernel)
    capabilities := fun name hname ↦ absurd hname List.not_mem_nil
    memoryMb := fun r hr ↦ by cases hr
    gpuMemoryMb := fun r hr ↦ by cases hr }
  backend := .inl (by decide +kernel)
  device := ⟨"cpu", .cpu, "cpu", List.mem_singleton.mpr rfl, by decide +kernel⟩

/-- The only provider of a registry is bound to a request that can be digested. -/
theorem bind_exact_processor :
    ∃ bound, (Registry.after [.register () anyProblem false]).bind strictRuntime
      (evaluating (.unknownState .none)) processor = .ok bound :=
  (bind_exact [.register () anyProblem false] reads_processor
    (show _ = Except.ok Resources.ControlStore.zeroDigest from rfl)).1.mpr
      ⟨"local", ⟨(), anyProblem⟩, rfl, feasible_anyProblem fun _ h ↦ by cases h⟩

/-- A feasible provider is not bound to a state that cannot be digested: the `TypeError` of the wire
codec leaves `bind`.  A quantity that cannot be converted leaves it too, although the provider that
asks for it is not the only one. -/
theorem opaque_state_not_bound :
    Reads strictRuntime (processor.fromMapping strictRuntime) processorGrant ∧
    Feasible strictRuntime (processor.fromMapping strictRuntime) processorGrant anyProblem
      (evaluating (.inline (.other "object" true))) ∧
    (¬ ∃ bound, (Registry.after [.register () anyProblem false]).bind strictRuntime
      (evaluating (.inline (.other "object" true))) processor = .ok bound) ∧
    (∃ bound, (Registry.after [.register () anyProblem false]).bind strictRuntime
      (evaluating (.unknownState .none)) muchMemory = .ok bound) ∧
    ¬ ∃ bound, (Registry.after [.register () anyProblem false,
      .register () largeProblem false]).bind strictRuntime
        (evaluating (.unknownState .none)) muchMemory = .ok bound := by
  refine ⟨reads_processor, feasible_anyProblem (fun _ h ↦ by cases h), ?_, ⟨_, rfl⟩, ?_⟩
  · rintro ⟨bound, h⟩
    have hraised : (Registry.after [.register () anyProblem false]).bind strictRuntime
        (evaluating (.inline (.other "object" true))) processor =
          .error (.raised (.typeError (cannotEncode "evaluation_state.inline" "object"))) := rfl
    rw [hraised] at h
    cases h
  · rintro ⟨bound, h⟩
    have hraised : (Registry.after [.register () anyProblem false,
        .register () largeProblem false]).bind strictRuntime
          (evaluating (.unknownState .none)) muchMemory =
            .error (.raised (.valueError "could not convert string to float: 'much'")) := rfl
    rw [hraised] at h
    cases h

end Blackbase.Binding

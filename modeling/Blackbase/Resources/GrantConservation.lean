import Blackbase.Resources.GrantPool

/-!
# Sub-grants conserve their parent

What is available and what the active sub-grants hold add up to the parent's totals, in every
quantity and in the tokens.  A critical section that runs to its end keeps this, and so does one
that raises before its first write.  One that raises in between does not: what it has taken is
neither available nor held by an active sub-grant, and is never given back.
-/

namespace Blackbase.Resources.Subgrant

open Project.Envelope (Runtime)

variable {R : Runtime} {p : GrantPool} {s t : Pool}

/-! ## The ledger -/

/-- The amount of a quantity that the active sub-grants hold together. -/
def Pool.heldAmount (s : Pool) (q : Quantity) : ℚ := s.active.held fun r ↦ r.amount q

/-- The tokens that the active sub-grants hold together. -/
def Pool.heldTokens (s : Pool) : List String :=
  s.active.entries.flatMap fun e ↦ e.2.deviceTokens

/-- A pool conserves its parent. -/
structure Conserves (p : GrantPool) (s : Pool) : Prop where
  amount : ∀ q, s.available q + s.heldAmount q = p.total q
  nonneg : ∀ q, 0 ≤ s.available q
  tokens : (s.tokens ++ s.heldTokens).Perm p.tokens
  nodup : (s.tokens ++ s.heldTokens).Nodup
  idle : s.active.entries = [] → s.available = p.total ∧ s.tokens = p.tokens

/-- The writes that are made are all of a critical section, or none. -/
def Whole (updates : List Update) (writes : Option ℕ) : Prop :=
  ∀ n ∈ writes, n = 0 ∨ updates.length ≤ n

/-- No exception ends the critical section of an event between two of its writes. -/
def Uninterrupted (R : Runtime) (p : GrantPool) (s : Pool) : Event → Prop
  | .wait => True
  | .acquire id request writes =>
      Whole (p.acquireUpdates R s id (requestedResources request)) writes
  | .release id writes => ∀ resources, s.active.get? id = some resources →
      Whole (GrantPool.releaseUpdates id resources) writes

theorem made_of_whole {updates : List Update} {writes : Option ℕ} (h : Whole updates writes) :
    made updates writes = [] ∨ made updates writes = updates := by
  cases writes with
  | none => exact .inr rfl
  | some n =>
      rcases h n rfl with rfl | hle
      · exact .inl (List.take_zero (l := updates))
      · exact .inr (List.take_of_length_le hle)

/-! ## Writes -/

/-- What the five `take` writes leave. -/
theorem applyAll_take (amount : Quantity → ℚ) :
    p.applyAll s (Quantity.all.map fun q ↦ .take q (amount q)) =
      { s with available := fun q ↦ s.available q - amount q } := by
  simp only [GrantPool.applyAll, Quantity.all, List.map_cons, List.map_nil, List.foldl_cons,
    List.foldl_nil, GrantPool.apply]
  congr 1
  funext q
  cases q <;> simp [Function.update]

/-- What the five `give` writes leave. -/
theorem applyAll_give (amount : Quantity → ℚ) :
    p.applyAll s (Quantity.all.map fun q ↦ .give q (amount q)) =
      { s with available := fun q ↦ s.available q + amount q } := by
  simp only [GrantPool.applyAll, Quantity.all, List.map_cons, List.map_nil, List.foldl_cons,
    List.foldl_nil, GrantPool.apply]
  congr 1
  funext q
  cases q <;> simp [Function.update]

theorem applyAll_removeToken (tokens : List String) :
    p.applyAll s (tokens.map .removeToken) = { s with tokens := s.tokens.diff tokens } := by
  induction tokens generalizing s with
  | nil => rfl
  | cons token rest ih =>
      rw [List.diff_cons]
      exact ih

theorem applyAll_append (u v : List Update) :
    p.applyAll s (u ++ v) = p.applyAll (p.applyAll s u) v := List.foldl_append

/-- The state after a whole `acquire`. -/
theorem applyAll_acquire (id : String) (r : GrantResources) :
    p.applyAll s (p.acquireUpdates R s id r) =
      { available := fun q ↦ s.available q - r.amount q
        tokens := s.tokens.diff (GrantPool.allocatedTokens s r)
        active := s.active.insert id (p.granted R s r) } := by
  rw [GrantPool.acquireUpdates, applyAll_append, applyAll_append, applyAll_take,
    applyAll_removeToken]
  rfl

/-- The state after a sub-grant has been given back whole. -/
theorem applyAll_release (id : String) (resources : GrantResources) :
    p.applyAll s (GrantPool.releaseUpdates id resources) =
      { available := fun q ↦ s.available q + resources.amount q
        tokens := Selection.sorted p.order (s.tokens ++ resources.deviceTokens)
        active := s.active.erase id } := by
  have hcons : GrantPool.releaseUpdates id resources = [.deactivate id] ++
      (Quantity.all.map fun q ↦ .give q (resources.amount q)) ++
        [.extendTokens resources.deviceTokens, .sortTokens] := rfl
  rw [hcons, applyAll_append, applyAll_append, applyAll_give]
  rfl

/-! ## The invariant -/

/-- What a whole step keeps: the ledgers add up, nothing is negative, and the available tokens
stand in the order of the parent. -/
structure Balanced (p : GrantPool) (s : Pool) : Prop where
  amount : ∀ q, s.available q + s.heldAmount q = p.total q
  nonneg : ∀ q, 0 ≤ s.available q
  held_nonneg : ∀ e ∈ s.active.entries, ∀ q, 0 ≤ e.2.amount q
  tokens : (s.tokens : Multiset String) + s.active.held (fun r ↦ ↑r.deviceTokens) = ↑p.tokens
  ordered : p.tokens.Nodup → s.tokens.Pairwise fun a b ↦ p.order a ≤ p.order b

theorem heldTokens_eq :
    (s.heldTokens : Multiset String) = s.active.held fun r ↦ ↑r.deviceTokens := by
  unfold Pool.heldTokens OrderedDict.held
  induction s.active.entries with
  | nil => rfl
  | cons e rest ih => rw [List.flatMap_cons, ← Multiset.coe_add, ih, List.map_cons, List.sum_cons]

theorem amount_granted (r : GrantResources) (q : Quantity) :
    (p.granted R s r).amount q = r.amount q := by
  cases q <;> rfl

theorem all_quantities {f : Quantity → Bool} : Quantity.all.all f ↔ ∀ q, f q := by
  rw [List.all_eq_true]
  constructor
  · intro h q
    exact h q (by cases q <;> simp [Quantity.all])
  · exact fun h q _ ↦ h q

theorem canAllocate_iff {r : GrantResources} :
    p.canAllocate s r ↔ (∀ q, r.amount q ≤ s.available q) ∧
      (r.deviceTokens ≠ [] → ∀ token ∈ r.deviceTokens, token ∈ s.tokens) ∧
      (r.deviceTokens = [] → p.tokens ≠ [] → 0 < r.gpus → r.gpus ≤ s.tokens.length) := by
  have hall := all_quantities (f := fun q ↦ decide (r.amount q ≤ s.available q))
  simp only [decide_eq_true_eq] at hall
  unfold GrantPool.canAllocate
  by_cases hamounts : ∀ q, r.amount q ≤ s.available q
  · rw [if_pos (hall.mpr hamounts)]
    refine Iff.trans ?_ (and_iff_right hamounts).symm
    by_cases hrequested : r.deviceTokens ≠ []
    · rw [if_pos hrequested, List.all_eq_true]
      simp only [decide_eq_true_eq]
      exact ⟨fun h ↦ ⟨fun _ ↦ h, fun hnil ↦ absurd hnil hrequested⟩, fun h ↦ h.1 hrequested⟩
    · have hnil := not_not.mp hrequested
      rw [if_neg hrequested]
      by_cases hcount : p.tokens ≠ [] ∧ 0 < r.gpus
      · rw [if_pos hcount, decide_eq_true_eq]
        exact ⟨fun h ↦ ⟨fun hne ↦ absurd hnil hne, fun _ _ _ ↦ h⟩,
          fun h ↦ h.2 hnil hcount.1 hcount.2⟩
      · rw [if_neg hcount]
        exact iff_of_true rfl ⟨fun hne ↦ absurd hnil hne,
          fun _ htokens hgpus ↦ absurd ⟨htokens, hgpus⟩ hcount⟩
  · rw [if_neg (fun h ↦ hamounts (hall.mp h))]
    exact iff_of_false Bool.false_ne_true fun h ↦ hamounts h.1

/-- The tokens of a new sub-grant are available. -/
theorem allocatedTokens_subperm {r : GrantResources} (hnodup : r.deviceTokens.Nodup)
    (h : p.canAllocate s r) : (GrantPool.allocatedTokens s r).Subperm s.tokens := by
  unfold GrantPool.allocatedTokens
  by_cases hrequested : r.deviceTokens ≠ []
  · rw [if_pos hrequested]
    exact List.subperm_of_subset hnodup ((canAllocate_iff.mp h).2.1 hrequested)
  · rw [if_neg hrequested]
    by_cases hgpus : r.gpus ≠ 0
    · rw [if_pos hgpus]
      exact (List.take_sublist _ _).subperm
    · rw [if_neg hgpus]
      exact List.nil_subperm

/-- The order of the parent, when its tokens are distinct, is the order of their indices. -/
theorem order_eq (hnodup : p.tokens.Nodup) {token : String} (h : token ∈ p.tokens) :
    p.order token = p.tokens.idxOf token := by
  have hlt := List.idxOf_lt_length_iff.mpr h
  have hreverse : p.tokens.reverse.idxOf token = p.tokens.length - 1 - p.tokens.idxOf token := by
    have hbound : p.tokens.length - 1 - p.tokens.idxOf token < p.tokens.reverse.length := by
      rw [List.length_reverse]
      omega
    have hget := List.Nodup.idxOf_getElem (List.nodup_reverse.mpr hnodup) _ hbound
    rw [List.getElem_reverse] at hget
    have hindex : p.tokens.length - 1 - (p.tokens.length - 1 - p.tokens.idxOf token) =
        p.tokens.idxOf token := by omega
    simpa only [hindex, List.getElem_idxOf] using hget
  rw [GrantPool.order, if_pos h, hreverse]
  omega

theorem pairwise_order (hnodup : p.tokens.Nodup) :
    p.tokens.Pairwise fun a b ↦ p.order a ≤ p.order b := by
  rw [List.pairwise_iff_getElem]
  intro i j hi hj hij
  rw [order_eq hnodup (List.getElem_mem hi), order_eq hnodup (List.getElem_mem hj),
    hnodup.idxOf_getElem, hnodup.idxOf_getElem]
  exact hij.le

theorem balanced_initial (p : GrantPool) : Balanced p p.initial where
  amount q := add_zero _
  nonneg q := by
    cases q with
    | workers => exact Int.cast_nonneg (zero_le_one.trans p.one_le_workers)
    | threads => exact Int.cast_nonneg (zero_le_one.trans p.one_le_threads)
    | gpus => exact Int.cast_nonneg p.gpus_nonneg
    | memoryMb => exact p.memoryMb_nonneg
    | gpuMemoryMb => exact p.gpuMemoryMb_nonneg
  held_nonneg e he := absurd he List.not_mem_nil
  tokens := add_zero _
  ordered := pairwise_order

theorem amount_requested_nonneg (request : ChildRequest) (q : Quantity) :
    0 ≤ (requestedResources request).amount q := by
  cases q with
  | workers => exact Int.cast_nonneg (zero_le_one.trans request.one_le_workers)
  | threads => exact Int.cast_nonneg (zero_le_one.trans request.one_le_threads)
  | gpus => exact Int.cast_nonneg (request.gpus_nonneg.trans (le_max_left _ _))
  | memoryMb => exact le_max_left _ _
  | gpuMemoryMb => exact le_max_left _ _

/-- A whole `acquire` moves what it takes to a new sub-grant. -/
theorem Balanced.acquire (h : Balanced p s) {id : String} {r : GrantResources}
    (hnonneg : ∀ q, 0 ≤ r.amount q) (hnodup : r.deviceTokens.Nodup) (hallocate : p.canAllocate s r)
    (hnew : s.active.get? id = none) :
    Balanced p (p.applyAll s (p.acquireUpdates R s id r)) := by
  rw [applyAll_acquire]
  constructor
  · intro q
    have hheld : (s.active.insert id (p.granted R s r)).held (fun r ↦ r.amount q) =
        s.heldAmount q + r.amount q := by
      rw [OrderedDict.held_insert _ hnew, amount_granted]
      rfl
    calc s.available q - r.amount q +
          (s.active.insert id (p.granted R s r)).held (fun r ↦ r.amount q)
        = s.available q + s.heldAmount q := by rw [hheld]; ring
      _ = p.total q := h.amount q
  · intro q
    exact sub_nonneg.mpr ((canAllocate_iff.mp hallocate).1 q)
  · intro e he q
    rcases OrderedDict.mem_of_mem_setEntry he with rfl | he
    · rw [amount_granted]
      exact hnonneg q
    · exact h.held_nonneg e he q
  · -- The tokens that leave the pool are the ones of the new entry.
    have hsplit : (s.tokens.diff (GrantPool.allocatedTokens s r) : Multiset String) +
        ↑(GrantPool.allocatedTokens s r) = ↑s.tokens := by
      rw [← Multiset.coe_sub, tsub_add_cancel_of_le]
      exact allocatedTokens_subperm hnodup hallocate
    rw [OrderedDict.held_insert _ hnew, ← h.tokens, ← hsplit]
    change _ + (_ + (↑(GrantPool.allocatedTokens s r) : Multiset String)) = _
    rw [add_assoc, add_comm (OrderedDict.held _ _)]
  · intro hparent
    exact (h.ordered hparent).sublist (List.diff_sublist _ _)

/-- What a sub-grant held comes back when it ends. -/
theorem Balanced.release (h : Balanced p s) {id : String} {resources : GrantResources}
    (hactive : s.active.get? id = some resources) :
    Balanced p (p.applyAll s (GrantPool.releaseUpdates id resources)) := by
  rw [applyAll_release]
  constructor
  · intro q
    have hheld : (s.active.erase id).held (fun r ↦ r.amount q) + resources.amount q =
        s.heldAmount q := OrderedDict.held_erase _ hactive
    calc s.available q + resources.amount q + (s.active.erase id).held (fun r ↦ r.amount q)
        = s.available q + s.heldAmount q := by rw [← hheld]; ring
      _ = p.total q := h.amount q
  · intro q
    exact add_nonneg (h.nonneg q) (h.held_nonneg _ (OrderedDict.mem_of_get? hactive) q)
  · intro e he
    exact h.held_nonneg e (OrderedDict.mem_erase.mp he).1
  · have hperm := Selection.sorted_perm p.order (s.tokens ++ resources.deviceTokens)
    have hheld := OrderedDict.held_erase (fun r ↦ (r.deviceTokens : Multiset String)) hactive
    rw [Multiset.coe_eq_coe.mpr hperm, ← h.tokens, ← hheld, ← Multiset.coe_add, add_assoc,
      add_comm (↑resources.deviceTokens : Multiset String)]
  · exact fun _ ↦ Selection.pairwise_sorted p.order _

theorem step_acquire {id : String} {request : ChildRequest} {writes : Option ℕ}
    (h : (requestedResources request).deviceTokens.Nodup ∧
      p.validateStatic R (requestedResources request) ∧
      p.canAllocate s (requestedResources request) ∧ (s.active.get? id).isNone) :
    p.step R s (.acquire id request writes) = some (p.applyAll s
      (made (p.acquireUpdates R s id (requestedResources request)) writes)) := by
  simp only [GrantPool.step]
  exact if_pos h

/-- An uninterrupted step keeps the balance. -/
theorem Balanced.step (h : Balanced p s) {e : Event} (hwhole : Uninterrupted R p s e)
    (hstep : p.step R s e = some t) : Balanced p t := by
  cases e with
  | wait =>
      obtain rfl := Option.some.inj hstep
      exact h
  | acquire id request writes =>
      simp only [GrantPool.step] at hstep
      by_cases hguard : (requestedResources request).deviceTokens.Nodup ∧
          p.validateStatic R (requestedResources request) ∧
          p.canAllocate s (requestedResources request) ∧ (s.active.get? id).isNone
      · rw [if_pos hguard] at hstep
        obtain ⟨hnodup, -, hallocate, hnew⟩ := hguard
        obtain rfl := Option.some.inj hstep
        rcases made_of_whole hwhole with hmade | hmade
        · rw [hmade]
          exact h
        · rw [hmade]
          exact h.acquire (amount_requested_nonneg request) hnodup hallocate
            (Option.isNone_iff_eq_none.mp hnew)
      · rw [if_neg hguard] at hstep
        cases hstep
  | release id writes =>
      obtain ⟨resources, hactive, rfl⟩ := Option.map_eq_some_iff.mp hstep
      rcases made_of_whole (hwhole resources hactive) with hmade | hmade
      · rw [hmade]
        exact h
      · rw [hmade]
        exact h.release hactive

/-- An uninterrupted run keeps the balance. -/
theorem balanced_of_reach
    (h : Machine.Reach (p.step R) (Uninterrupted R p) p.initial s) : Balanced p s :=
  h.invariant (balanced_initial p) fun _ _ _ hb hwhole hstep ↦ hb.step hwhole hstep

/-- A pool in balance conserves its parent, when the tokens of the parent are distinct. -/
theorem Balanced.conserves (h : Balanced p s) (hnodup : p.tokens.Nodup) : Conserves p s := by
  have hperm : (s.tokens ++ s.heldTokens).Perm p.tokens := by
    rw [← Multiset.coe_eq_coe, ← Multiset.coe_add, heldTokens_eq]
    exact h.tokens
  refine ⟨h.amount, h.nonneg, hperm, hperm.nodup_iff.mpr hnodup, fun hidle ↦ ⟨?_, ?_⟩⟩
  · funext q
    have hheld : s.heldAmount q = 0 := by
      rw [Pool.heldAmount, OrderedDict.held, hidle]
      rfl
    rw [← h.amount q, hheld, add_zero]
  · have hheld : s.heldTokens = [] := by
      rw [Pool.heldTokens, hidle]
      rfl
    rw [hheld, List.append_nil] at hperm
    refine List.Perm.eq_of_pairwise ?_ (h.ordered hnodup) (pairwise_order hnodup) hperm
    intro a b ha hb hab hba
    have heq := le_antisymm hab hba
    rw [order_eq hnodup (hperm.subset ha), order_eq hnodup hb] at heq
    exact (List.idxOf_inj (hperm.subset ha)).mp heq

/-- Sub-grants conserve their parent in every uninterrupted run, when the tokens of the parent are
distinct. -/
theorem conserves_of_reach (R : Runtime) (p : GrantPool) (hnodup : p.tokens.Nodup) {s : Pool}
    (h : Machine.Reach (p.step R) (Uninterrupted R p) p.initial s) : Conserves p s :=
  (balanced_of_reach h).conserves hnodup

/-! ## Interruptions -/

/-- A write that neither touches the workers nor the active sub-grants. -/
def Update.Aside : Update → Prop
  | .take q _ => q ≠ .workers
  | .removeToken _ => True
  | _ => False

theorem applyAll_aside {updates : List Update} (h : ∀ u ∈ updates, u.Aside) :
    (p.applyAll s updates).available .workers = s.available .workers ∧
      (p.applyAll s updates).active = s.active := by
  induction updates generalizing s with
  | nil => exact ⟨rfl, rfl⟩
  | cons u rest ih =>
      obtain ⟨hworkers, hactive⟩ := ih (s := p.apply s u) fun v hv ↦ h v (List.mem_cons_of_mem _ hv)
      have hu := h u List.mem_cons_self
      refine ⟨hworkers.trans ?_, hactive.trans ?_⟩
      · cases u with
        | take q amount => exact Function.update_of_ne hu.symm _ _
        | removeToken token => rfl
        | _ => exact hu.elim
      · cases u with
        | take q amount => rfl
        | removeToken token => rfl
        | _ => exact hu.elim

/-- An `acquire` that an exception ends between two of its writes loses the workers it has
taken. -/
theorem not_conserves_of_interrupted (h : Balanced p s) {id : String} {request : ChildRequest}
    {n : ℕ} (hpos : 0 < n)
    (hlt : n < (p.acquireUpdates R s id (requestedResources request)).length) :
    ¬ Conserves p (p.applyAll s
      (made (p.acquireUpdates R s id (requestedResources request)) (some n))) := by
  intro hconserves
  set r := requestedResources request with hr
  obtain ⟨m, rfl⟩ := Nat.exists_eq_succ_of_ne_zero hpos.ne'
  set middle := (([.threads, .gpus, .memoryMb, .gpuMemoryMb] : List Quantity).map fun q ↦
    Update.take q (r.amount q)) ++ (p.granted R s r).deviceTokens.map .removeToken with hmiddle
  have hupdates : p.acquireUpdates R s id r = .take .workers (r.amount .workers) ::
      (middle ++ [.activate id (p.granted R s r)]) := rfl
  have hle : m ≤ middle.length := by
    rw [hupdates, List.length_cons, List.length_append, List.length_singleton] at hlt
    omega
  have hmade : made (p.acquireUpdates R s id r) (some (m + 1)) =
      .take .workers (r.amount .workers) :: middle.take m := by
    rw [hupdates, made, List.take_succ_cons, List.take_append_of_le_length hle]
  have haside : ∀ u ∈ middle.take m, u.Aside := by
    intro u hu
    rcases List.mem_append.mp (List.mem_of_mem_take hu) with hu | hu
    · obtain ⟨q, hq, rfl⟩ := List.mem_map.mp hu
      rintro rfl
      exact absurd hq (by decide)
    · obtain ⟨token, -, rfl⟩ := List.mem_map.mp hu
      trivial
  obtain ⟨hworkers, hactive⟩ := applyAll_aside (p := p)
    (s := p.apply s (.take .workers (r.amount .workers))) haside
  have hamount := hconserves.amount .workers
  rw [hmade] at hamount
  change (p.applyAll (p.apply s (.take .workers (r.amount .workers))) _).available .workers +
    (p.applyAll (p.apply s (.take .workers (r.amount .workers))) _).heldAmount .workers = _
      at hamount
  rw [Pool.heldAmount, hactive, hworkers, ← h.amount .workers] at hamount
  have htaken : (p.apply s (.take .workers (r.amount .workers))).available .workers =
      s.available .workers - r.amount .workers := by simp [GrantPool.apply]
  have hone : (1 : ℚ) ≤ r.amount .workers := by
    change (1 : ℚ) ≤ (request.workers : ℚ)
    exact_mod_cast request.one_le_workers
  rw [htaken] at hamount
  change s.available .workers - r.amount .workers + s.heldAmount .workers =
    s.available .workers + s.heldAmount .workers at hamount
  linarith

/-! ## Lost workers, and a token held twice -/

/-- A parent with some GPUs and tokens. -/
def parentOf (gpus : ℕ) (tokens : List String) : GrantPool where
  workers := 2
  threads := 2
  gpus := gpus
  memoryMb := 0
  gpuMemoryMb := 0
  tokens := tokens
  capabilities := []
  backend := "local"
  computeBackend := "auto"
  device := "cpu"
  resolvedDevices := []
  one_le_workers := one_le_two
  one_le_threads := one_le_two
  gpus_nonneg := Int.natCast_nonneg gpus
  memoryMb_nonneg := le_rfl
  gpuMemoryMb_nonneg := le_rfl

theorem noGpuMemory_pos : ∀ m ∈ (none : Option ℚ), 0 < m := by
  intro m hm
  cases hm

/-- A request for one worker, some GPUs and some tokens. -/
def requestOf (gpus : ℤ) (tokens : List String) : ChildRequest where
  toResourceRequest := ResourceRequest.make 1 none gpus none tokens
  gpuMemoryMb := none
  backend := ⟨"local", local_ne⟩
  computeBackend := ⟨"auto", auto_ne⟩
  device := ⟨"cpu", cpu_ne⟩
  capabilities := []
  gpuMemory_pos := noGpuMemory_pos

/-- Nothing but texts is converted. -/
def plain : Runtime where
  str _ := ""
  int v := .error (.typeError v.typeName)
  float v := .error (.typeError v.typeName)
  dict v := .error (.typeError v.typeName)
  sequence v := .error (.typeError v.typeName)
  sub x _ := x
  sha256 _ := ControlStore.zeroDigest
  jsonDigest _ := .ok ControlStore.zeroDigest

/-- A pool that has given out one whole sub-grant conserves its parent. -/
theorem conserves_after_acquire :
    ∃ s, (parentOf 0 []).step plain (parentOf 0 []).initial (.acquire "a" (requestOf 0 []) none) =
      some s ∧ Conserves (parentOf 0 []) s := by
  obtain ⟨s, hs⟩ : ∃ s, (parentOf 0 []).step plain (parentOf 0 []).initial
      (.acquire "a" (requestOf 0 []) none) = some s := ⟨_, rfl⟩
  have hwhole : Uninterrupted plain (parentOf 0 []) (parentOf 0 []).initial
      (.acquire "a" (requestOf 0 []) none) := fun n hn ↦ by cases hn
  exact ⟨s, hs, conserves_of_reach plain _ List.nodup_nil (.single hwhole hs)⟩

/-- Two sub-grants of one GPU, of a parent that lists one token twice. -/
theorem two_holders :
    ∃ s t, (parentOf 2 ["gpu:0", "gpu:0"]).step plain (parentOf 2 ["gpu:0", "gpu:0"]).initial
        (.acquire "a" (requestOf 1 []) none) = some s ∧
      (parentOf 2 ["gpu:0", "gpu:0"]).step plain s (.acquire "b" (requestOf 1 []) none) = some t ∧
      t.heldTokens = ["gpu:0", "gpu:0"] := by
  refine ⟨_, _, step_acquire ?_, step_acquire ?_, ?_⟩
  · decide +kernel
  · decide +kernel
  · decide +kernel

/-- An `acquire` that raises after its first write loses a worker, and a parent that lists one token
twice gives it to two sub-grants. -/
theorem not_conserved :
    (∃ s, Machine.Reach ((parentOf 0 []).step plain) Machine.anyStep (parentOf 0 []).initial s ∧
      ¬ Conserves (parentOf 0 []) s) ∧
    ∃ s, Machine.Reach ((parentOf 2 ["gpu:0", "gpu:0"]).step plain)
        (Uninterrupted plain (parentOf 2 ["gpu:0", "gpu:0"]))
        (parentOf 2 ["gpu:0", "gpu:0"]).initial s ∧
      ¬ Conserves (parentOf 2 ["gpu:0", "gpu:0"]) s := by
  constructor
  · have hstep : (parentOf 0 []).step plain (parentOf 0 []).initial
        (.acquire "a" (requestOf 0 []) (some 1)) = some ((parentOf 0 []).applyAll
          (parentOf 0 []).initial (made ((parentOf 0 []).acquireUpdates plain
            (parentOf 0 []).initial "a" (requestedResources (requestOf 0 []))) (some 1))) := rfl
    exact ⟨_, .single trivial hstep,
      not_conserves_of_interrupted (balanced_initial _) Nat.one_pos (by decide)⟩
  · obtain ⟨s, t, hs, ht, htokens⟩ := two_holders
    refine ⟨t, (Machine.Reach.refl.tail ?_ hs).tail ?_ ht, fun h ↦ ?_⟩
    · exact fun n hn ↦ by cases hn
    · exact fun n hn ↦ by cases hn
    · have hnodup := (List.nodup_append.mp h.nodup).2.1
      rw [htokens] at hnodup
      exact absurd hnodup (by decide)

end Blackbase.Resources.Subgrant

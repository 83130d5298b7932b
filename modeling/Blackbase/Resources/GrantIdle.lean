import Blackbase.Resources.GrantConservation

/-!
# Requests to an idle pool

A request passes the static checks when its GPUs are within the count of the parent, but it is
served by named tokens when the parent has some.  An idle pool therefore serves every valid request
exactly when its parent has no tokens or as many as GPUs.  A pool over a sub-grant that was asked
for by some tokens and more GPUs than tokens is not of this kind.
-/

namespace Blackbase.Resources.Subgrant

open Project.Envelope (PyValue Raised Runtime Payload Filled obj)

variable {R : Runtime} {p : GrantPool} {s : Pool}

/-- An idle pool has everything that its parent has. -/
theorem idle_of_reach (h : Machine.Reach (p.step R) (Uninterrupted R p) p.initial s)
    (hidle : s.active.entries = []) : s.available = p.total ∧ s.tokens.Perm p.tokens := by
  have hbalanced := balanced_of_reach h
  constructor
  · funext q
    have hheld : s.heldAmount q = 0 := by
      rw [Pool.heldAmount, OrderedDict.held, hidle]
      rfl
    rw [← hbalanced.amount q, hheld, add_zero]
  · have htokens := hbalanced.tokens
    rw [OrderedDict.held, hidle, List.map_nil, List.sum_nil, add_zero] at htokens
    exact Multiset.coe_eq_coe.mp htokens

theorem validateStatic_iff {r : GrantResources} :
    p.validateStatic R r ↔ (∀ q, r.amount q ≤ p.total q) ∧
      (∀ token ∈ r.deviceTokens, token ∈ p.tokens) ∧
      (∀ name ∈ r.capabilities, name ∈ p.capabilities) ∧
      Text.lower r.backend ∈ ["", "auto", "any", Text.lower p.backend] ∧
      (isGenericResourceValue (Text.lower p.computeBackend) ∨
        isGenericResourceValue (Text.lower r.computeBackend) ∨
          Text.lower r.computeBackend = Text.lower p.computeBackend) ∧
      p.deviceAllowed R r := by
  have hall := all_quantities (f := fun q ↦ decide (r.amount q ≤ p.total q))
  simp only [decide_eq_true_eq] at hall
  simp only [GrantPool.validateStatic, Bool.and_eq_true, Bool.or_eq_true, decide_eq_true_eq, hall,
    List.all_eq_true, and_assoc, or_assoc]

/-- A request that names no tokens is served by their number. -/
theorem canAllocate_of_idle {r : GrantResources}
    (h : Machine.Reach (p.step R) (Uninterrupted R p) p.initial s)
    (hidle : s.active.entries = []) (hvalid : p.validateStatic R r) :
    p.canAllocate s r ↔ r.deviceTokens ≠ [] ∨ p.tokens = [] ∨ r.gpus ≤ p.tokens.length := by
  obtain ⟨havailable, htokens⟩ := idle_of_reach h hidle
  obtain ⟨hamount, hrequested, -⟩ := validateStatic_iff.mp hvalid
  rw [canAllocate_iff, havailable, htokens.length_eq]
  constructor
  · rintro ⟨-, -, hcount⟩
    by_contra hnot
    push Not at hnot
    obtain ⟨hnone, hparent, hlt⟩ := hnot
    have hpos : 0 < r.gpus := lt_of_le_of_lt (Int.natCast_nonneg _) hlt
    exact absurd (hcount hnone hparent hpos) (not_le.mpr hlt)
  · intro hcond
    refine ⟨hamount, fun _ token htoken ↦ htokens.symm.subset (hrequested token htoken), ?_⟩
    intro hnone hparent _
    rcases hcond with h | h | h
    · exact absurd hnone h
    · exact absurd h hparent
    · exact h

/-- A request for all the GPUs of a parent, by their number. -/
def allGpus (p : GrantPool) : ChildRequest where
  toResourceRequest := ResourceRequest.make 1 none p.gpus none []
  gpuMemoryMb := none
  backend := ⟨"auto", auto_ne⟩
  computeBackend := ⟨"auto", auto_ne⟩
  device := ⟨"cpu", cpu_ne⟩
  capabilities := []
  gpuMemory_pos := noGpuMemory_pos

theorem gpus_allGpus (p : GrantPool) : (requestedResources (allGpus p)).gpus = p.gpus := by
  change max (max 0 (max p.gpus (acceleratorCount []))) (([] : List String).length : ℤ) = p.gpus
  have hcount : acceleratorCount [] = 0 := rfl
  have hpos := p.gpus_nonneg
  rw [hcount, List.length_nil, max_eq_left hpos, max_eq_right hpos]
  exact max_eq_left hpos

theorem validateStatic_allGpus (R : Runtime) (p : GrantPool) :
    p.validateStatic R (requestedResources (allGpus p)) := by
  refine validateStatic_iff.mpr ⟨fun q ↦ ?_, fun _ h ↦ absurd h List.not_mem_nil,
    fun _ h ↦ absurd h List.not_mem_nil, ?_, .inr (.inl ?_), ?_⟩
  · cases q with
    | workers => exact Int.cast_le.mpr p.one_le_workers
    | threads => exact Int.cast_le.mpr p.one_le_threads
    | gpus =>
        change ((requestedResources (allGpus p)).gpus : ℚ) ≤ p.gpus
        rw [gpus_allGpus]
    | memoryMb => exact p.memoryMb_nonneg
    | gpuMemoryMb => exact p.gpuMemoryMb_nonneg
  · have hauto : Text.lower "auto" = "auto" := by decide
    change Text.lower "auto" ∈ _
    rw [hauto]
    simp
  · have hauto : isGenericResourceValue (Text.lower "auto") = true := by decide +kernel
    exact hauto
  · have hcpu : isAcceleratorDevice "cpu" = false := by decide +kernel
    have hdevice : (requestedResources (allGpus p)).device = "cpu" := rfl
    rw [GrantPool.deviceAllowed, hdevice, hcpu]
    rfl

/-- Two GPUs by their tokens. -/
def twoGpuItems : List (String × PyValue) :=
  [("threads", .int 2), ("gpus", .int 2), ("device_tokens", .tuple [.text "gpu:0", .text "gpu:1"])]

theorem nodup_twoGpuItems : (twoGpuItems.map Prod.fst).Nodup := by decide

theorem frozen_twoGpuItems : ∀ e ∈ twoGpuItems, e.2.Frozen := by
  intro e he
  simp only [twoGpuItems, List.mem_cons, List.not_mem_nil, or_false] at he
  rcases he with rfl | rfl | rfl <;> simp [PyValue.Frozen, Project.Envelope.FrozenItems]

theorem one_le_twoThreads : (1 : ℤ) ≤ 2 := by decide

/-- A context that grants two GPUs by their tokens. -/
def twoGpus : ResourceContext where
  computeBackend := ⟨"auto", auto_ne⟩
  device := ⟨"cpu", cpu_ne⟩
  threads := 2
  namespaceName := "root"
  grant := { dict := ⟨twoGpuItems, nodup_twoGpuItems⟩, frozen := frozen_twoGpuItems }
  lease := noEntries
  one_le_threads := one_le_twoThreads

end Blackbase.Resources.Subgrant

import Blackbase.Core.Precedence
import Mathlib.Data.Fintype.Pigeonhole
import Mathlib.Data.Set.Finite.List

/-!
# Cycles and levels of a dependency relation

Nodes that each wait for another one of them contain a cycle, and nodes that stand in an order
behind what they depend on contain none.  The level of a node is the length of the longest chain
of dependencies below it.
-/

universe u

namespace Precedence

variable {α : Type u} {deps : α → List α} {order nodes left : List α} {a b : α}

/-- `a` depends on `b`, through any number of nodes. -/
def DependsOn (deps : α → List α) (a b : α) : Prop := Relation.TransGen (fun a b ↦ b ∈ deps a) a b

/-- A node depends on itself. -/
def Cyclic (deps : α → List α) (nodes : List α) : Prop := ∃ a ∈ nodes, DependsOn deps a a

/-- Nodes each of which waits for one of them contain a cycle. -/
theorem cyclic_of_blocked (hne : left ≠ []) (hblocked : ∀ a ∈ left, ∃ d ∈ deps a, d ∈ left) :
    Cyclic deps left := by
  choose! next hdep hmem using hblocked
  obtain ⟨a, ha⟩ := List.exists_mem_of_ne_nil left hne
  have hiter : ∀ n, next^[n] a ∈ left := by
    intro n
    induction n with
    | zero => exact ha
    | succ n ih =>
        rw [Function.iterate_succ_apply']
        exact hmem _ ih
  have hchain : ∀ m n, DependsOn deps (next^[m] a) (next^[m + n + 1] a) := by
    intro m n
    induction n with
    | zero =>
        refine Relation.TransGen.single ?_
        rw [Nat.add_zero, Function.iterate_succ_apply']
        exact hdep _ (hiter m)
    | succ n ih =>
        refine ih.tail ?_
        rw [← Nat.add_assoc, Function.iterate_succ_apply' next (m + n + 1)]
        exact hdep _ (hiter _)
  -- Two of the nodes that are met on the way are the same.
  let visit : ℕ → {b // b ∈ left} := fun n ↦ ⟨next^[n] a, hiter n⟩
  have hfinite : Finite {b // b ∈ left} := left.finite_toSet
  obtain ⟨m, n, hmn, hsame⟩ := Finite.exists_ne_map_eq_of_infinite visit
  have hsame : next^[m] a = next^[n] a := congrArg Subtype.val hsame
  rcases Nat.lt_or_gt_of_ne hmn with hlt | hlt
  · obtain ⟨k, rfl⟩ := Nat.exists_eq_add_of_lt hlt
    refine ⟨next^[m] a, hiter m, ?_⟩
    have h := hchain m k
    rwa [← hsame] at h
  · obtain ⟨k, rfl⟩ := Nat.exists_eq_add_of_lt hlt
    refine ⟨next^[n] a, hiter n, ?_⟩
    have h := hchain n k
    rwa [hsame] at h

section Order

variable [DecidableEq α]

/-- In an order, a node stands behind everything it depends on. -/
theorem Ordered.of_dependsOn (h : Ordered deps order) (ha : a ∈ order)
    (hab : DependsOn deps a b) : b ∈ order ∧ order.idxOf b < order.idxOf a := by
  induction hab with
  | single hd => exact h a ha _ hd
  | tail _ hd ih =>
      obtain ⟨hmem, hlt⟩ := h _ ih.1 _ hd
      exact ⟨hmem, hlt.trans ih.2⟩

/-- The nodes of an order contain no cycle. -/
theorem Ordered.not_cyclic (h : Ordered deps order) : ¬ Cyclic deps order := by
  rintro ⟨a, ha, hcycle⟩
  exact lt_irrefl _ (h.of_dependsOn ha hcycle).2

end Order

/-! ## Levels -/

/-- One more than the highest level among `ds`. -/
def levelOver (level : α → ℕ) (ds : List α) : ℕ := (ds.map fun d ↦ level d + 1).foldr max 0

theorem lt_levelOver {level : α → ℕ} {ds : List α} {d : α} (h : d ∈ ds) :
    level d < levelOver level ds := by
  induction ds with
  | nil => cases h
  | cons e rest ih =>
      rw [levelOver, List.map_cons, List.foldr_cons, ← levelOver]
      rcases List.mem_cons.mp h with rfl | hrest
      · exact Nat.lt_of_succ_le (le_max_left _ _)
      · exact (ih hrest).trans_le (le_max_right _ _)

theorem levelOver_le {level : α → ℕ} {ds : List α} {k : ℕ} (h : ∀ d ∈ ds, level d < k) :
    levelOver level ds ≤ k := by
  induction ds with
  | nil => exact Nat.zero_le k
  | cons e rest ih =>
      rw [levelOver, List.map_cons, List.foldr_cons, ← levelOver]
      exact max_le (h e List.mem_cons_self) (ih fun d hd ↦ h d (List.mem_cons_of_mem _ hd))

theorem levelOver_congr {level level' : α → ℕ} {ds : List α}
    (h : ∀ d ∈ ds, level d = level' d) : levelOver level ds = levelOver level' ds := by
  have hmap : ds.map (fun d ↦ level d + 1) = ds.map fun d ↦ level' d + 1 :=
    List.map_congr_left fun d hd ↦ congrArg (· + 1) (h d hd)
  rw [levelOver, levelOver, hmap]

/-- `level` is the length of the longest chain of dependencies below each of the nodes. -/
def IsLevel (deps : α → List α) (nodes : List α) (level : α → ℕ) : Prop :=
  ∀ a ∈ nodes, level a = levelOver level (deps a)

/-- The nodes of an order have levels. -/
theorem Ordered.exists_level [DecidableEq α] (h : Ordered deps order) (hnodup : order.Nodup) :
    ∃ level, IsLevel deps order level := by
  induction order using List.reverseRecOn with
  | nil => exact ⟨fun _ ↦ 0, fun _ ha ↦ absurd ha List.not_mem_nil⟩
  | append_singleton front a ih =>
      have ha : a ∉ front := fun hmem ↦
        List.disjoint_of_nodup_append hnodup hmem (List.mem_singleton_self a)
      have hfront : Ordered deps front := by
        intro b hb d hd
        obtain ⟨hmem, hlt⟩ := h b (List.mem_append_left _ hb) d hd
        rw [List.idxOf_append_of_mem hb] at hlt
        have hd' : d ∈ front := by
          by_contra hout
          rw [List.idxOf_append_of_notMem hout] at hlt
          have := List.idxOf_lt_length_of_mem hb
          omega
        rw [List.idxOf_append_of_mem hd'] at hlt
        exact ⟨hd', hlt⟩
      have hlast : ∀ d ∈ deps a, d ∈ front := by
        intro d hd
        obtain ⟨hmem, hlt⟩ := h a (by simp) d hd
        rcases List.mem_append.mp hmem with hd' | hd'
        · exact hd'
        · obtain rfl := List.mem_singleton.mp hd'
          exact absurd hlt (lt_irrefl _)
      obtain ⟨level, hlevel⟩ := ih hfront (List.Nodup.of_append_left hnodup)
      have hkeep : ∀ d ∈ front, Function.update level a (levelOver level (deps a)) d = level d :=
        fun d hd ↦ Function.update_of_ne (ne_of_mem_of_not_mem hd ha) _ _
      refine ⟨Function.update level a (levelOver level (deps a)), fun b hb ↦ ?_⟩
      rcases List.mem_append.mp hb with hb | hb
      · rw [hkeep b hb, hlevel b hb]
        exact levelOver_congr fun d hd ↦ (hkeep d (hfront b hb d hd).1).symm
      · obtain rfl := List.mem_singleton.mp hb
        rw [Function.update_self]
        exact levelOver_congr fun d hd ↦ (hkeep d (hlast d hd)).symm

/-- Nodes are listed by their level, and by their place in `nodes` within a level. -/
def Layered [DecidableEq α] (nodes : List α) (level : α → ℕ) (order : List α) : Prop :=
  order.Pairwise fun a b ↦
    level a < level b ∨ level a = level b ∧ nodes.idxOf a < nodes.idxOf b

/-- A level can be listed behind the lower ones. -/
theorem Layered.append [DecidableEq α] {level : α → ℕ} {now : List α} {k : ℕ}
    (h : Layered nodes level order) (hlow : ∀ a ∈ order, level a < k)
    (hnow : ∀ a ∈ now, level a = k)
    (hplace : now.Pairwise fun a b ↦ nodes.idxOf a < nodes.idxOf b) :
    Layered nodes level (order ++ now) := by
  refine List.pairwise_append.mpr ⟨h, ?_, fun a ha b hb ↦ .inl ?_⟩
  · refine hplace.imp_of_mem fun ha hb hlt ↦ .inr ⟨?_, hlt⟩
    rw [hnow _ ha, hnow _ hb]
  · rw [hnow b hb]
    exact hlow a ha

end Precedence

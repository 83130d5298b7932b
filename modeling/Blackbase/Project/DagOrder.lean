import Blackbase.Core.Levels
import Blackbase.Project.DagPlan

/-!
# The order of a DAG Stage

`_stable_topological_order` decides exactly whether the dependencies contain a cycle.  Each turn
of its loop places the Cases of one level, in the order in which they were declared; a turn that
can place none has found Cases that wait for one another.
-/

namespace Blackbase.Project

open Precedence

section Order

variable {cases order : List String} {deps : String → List String} {n : ℕ}

/-- The Cases placed so far: each once, and none that is not of the Stage. -/
structure Placed (cases order : List String) : Prop where
  nodup : order.Nodup
  subset : ∀ c ∈ order, c ∈ cases

/-- The Cases the next turn places. -/
def nextWave (cases : List String) (deps : String → List String) (order : List String) :
    List String :=
  cases.filter fun name ↦ (leftAfter cases deps order).lookup name = some []

theorem mem_nextWave {c : String} :
    c ∈ nextWave cases deps order ↔ c ∈ cases ∧ c ∉ order ∧ ∀ d ∈ deps c, d ∈ order :=
  mem_ready

/-- The Cases that are not placed. -/
def waiting (cases order : List String) : List String := cases.filter (· ∉ order)

theorem mem_waiting {c : String} : c ∈ waiting cases order ↔ c ∈ cases ∧ c ∉ order := by
  simp [waiting]

theorem leftAfter_eq_nil : leftAfter cases deps order = [] ↔ waiting cases order = [] :=
  List.map_eq_nil_iff

/-- One turn of the loop. -/
theorem topologicalLoop_succ :
    topologicalLoop cases (n + 1) (leftAfter cases deps order) order =
      if waiting cases order = [] then .ok order
      else if nextWave cases deps order = [] then
        .error (.cycle (cases.filter fun name ↦
          ((leftAfter cases deps order).lookup name).isSome))
      else topologicalLoop cases n (leftAfter cases deps (order ++ nextWave cases deps order))
        (order ++ nextWave cases deps order) := by
  rw [topologicalLoop]
  dsimp only
  rw [leftAfter_append]
  simp only [leftAfter_eq_nil]
  rfl

theorem Placed.nil : Placed cases [] := ⟨List.nodup_nil, fun _ h ↦ absurd h List.not_mem_nil⟩

theorem Placed.append (h : Placed cases order) (hcases : cases.Nodup) :
    Placed cases (order ++ nextWave cases deps order) where
  nodup := h.nodup.append (hcases.filter _) fun _ hc hnew ↦ (mem_nextWave.mp hnew).2.1 hc
  subset := fun c hc ↦
    (List.mem_append.mp hc).elim (h.subset c) fun hnew ↦ (mem_nextWave.mp hnew).1

theorem Placed.length_le (h : Placed cases order) : order.length ≤ cases.length :=
  (List.subperm_of_subset h.nodup h.subset).length_le

/-- A turn that places nothing, with Cases left, has found a cycle. -/
theorem cyclic_of_stuck (hdeps : ∀ c ∈ cases, ∀ d ∈ deps c, d ∈ cases)
    (hleft : waiting cases order ≠ []) (hwave : nextWave cases deps order = []) :
    Cyclic deps cases := by
  have hblocked : ∀ c ∈ waiting cases order, ∃ d ∈ deps c, d ∈ waiting cases order := by
    intro c hc
    obtain ⟨hcase, hout⟩ := mem_waiting.mp hc
    by_contra hfree
    push Not at hfree
    have hready : c ∈ nextWave cases deps order := by
      refine mem_nextWave.mpr ⟨hcase, hout, fun d hd ↦ ?_⟩
      by_contra hd'
      exact hfree d hd (mem_waiting.mpr ⟨hdeps c hcase d hd, hd'⟩)
    rw [hwave] at hready
    cases hready
  obtain ⟨c, hc, hcycle⟩ := cyclic_of_blocked hleft hblocked
  exact ⟨c, (mem_waiting.mp hc).1, hcycle⟩

/-- With more turns than there are Cases to place, the number of turns makes no difference. -/
theorem topologicalLoop_enough (hcases : cases.Nodup) (n : ℕ) :
    ∀ order, Placed cases order → cases.length < n + order.length →
      topologicalLoop cases (n + 1) (leftAfter cases deps order) order =
        topologicalLoop cases n (leftAfter cases deps order) order := by
  induction n with
  | zero =>
      intro order horder hlength
      have := horder.length_le
      omega
  | succ n ih =>
      intro order horder hlength
      have hshort : topologicalLoop cases (n + 1) (leftAfter cases deps order) order = _ :=
        topologicalLoop_succ
      rw [topologicalLoop_succ, hshort]
      split_ifs with hleft hwave
      · rfl
      · rfl
      · refine ih _ (horder.append hcases) ?_
        have hpos := List.length_pos_iff.mpr hwave
        rw [List.length_append]
        omega

/-- The loop raises only for a cycle. -/
theorem topologicalLoop_raises (hcases : cases.Nodup)
    (hdeps : ∀ c ∈ cases, ∀ d ∈ deps c, d ∈ cases) (n : ℕ) :
    ∀ order, Placed cases order → cases.length < n + order.length →
      Attempt.Ends (fun _ ↦ True) (fun _ ↦ Cyclic deps cases)
        (topologicalLoop cases n (leftAfter cases deps order) order) := by
  induction n with
  | zero =>
      intro order horder hlength
      have := horder.length_le
      omega
  | succ n ih =>
      intro order horder hlength
      rw [topologicalLoop_succ]
      split_ifs with hleft hwave
      · trivial
      · exact cyclic_of_stuck hdeps hleft hwave
      · refine ih _ (horder.append hcases) ?_
        have hpos := List.length_pos_iff.mpr hwave
        rw [List.length_append]
        omega

/-- The Cases placed after `k` turns are those below level `k`, level by level. -/
structure PlacedTo (cases : List String) (level : String → ℕ) (k : ℕ) (order : List String) :
    Prop where
  low : ∀ c ∈ order, level c < k
  high : ∀ c ∈ cases, c ∉ order → k ≤ level c
  layered : Layered cases level order

theorem PlacedTo.append {level : String → ℕ} {k : ℕ} (hcases : cases.Nodup)
    (hdeps : ∀ c ∈ cases, ∀ d ∈ deps c, d ∈ cases) (hlevel : IsLevel deps cases level)
    (h : PlacedTo cases level k order) :
    PlacedTo cases level (k + 1) (order ++ nextWave cases deps order) := by
  have hnow : ∀ c ∈ nextWave cases deps order, level c = k := by
    intro c hc
    obtain ⟨hcase, hout, hfree⟩ := mem_nextWave.mp hc
    refine le_antisymm ?_ (h.high c hcase hout)
    rw [hlevel c hcase]
    exact levelOver_le fun d hd ↦ h.low d (hfree d hd)
  refine ⟨fun c hc ↦ ?_, fun c hcase hout ↦ ?_, h.layered.append h.low hnow ?_⟩
  · rcases List.mem_append.mp hc with hold | hnew
    · exact (h.low c hold).trans (Nat.lt_succ_self k)
    · exact (hnow c hnew).trans_lt (Nat.lt_succ_self k)
  · -- It waits for a Case that was not placed before.
    rw [List.mem_append, not_or] at hout
    have hblocked : ∃ d ∈ deps c, d ∉ order := by
      by_contra hfree
      push Not at hfree
      exact hout.2 (mem_nextWave.mpr ⟨hcase, hout.1, hfree⟩)
    obtain ⟨d, hd, hdout⟩ := hblocked
    rw [hlevel c hcase]
    exact (Nat.succ_le_succ (h.high d (hdeps c hcase d hd) hdout)).trans (lt_levelOver hd)
  · have hsorted : cases.Pairwise fun a b ↦ cases.idxOf a < cases.idxOf b := by
      rw [List.pairwise_iff_getElem]
      intro i j hi hj hij
      rw [hcases.idxOf_getElem i hi, hcases.idxOf_getElem j hj]
      exact hij
    exact hsorted.filter _

/-- The loop places the Cases level by level. -/
theorem topologicalLoop_layered {level : String → ℕ} (hcases : cases.Nodup)
    (hdeps : ∀ c ∈ cases, ∀ d ∈ deps c, d ∈ cases) (hlevel : IsLevel deps cases level) (n : ℕ) :
    ∀ k order, PlacedTo cases level k order →
      Attempt.Ends (Layered cases level) (fun _ ↦ True)
        (topologicalLoop cases n (leftAfter cases deps order) order) := by
  induction n with
  | zero => exact fun _ _ _ ↦ trivial
  | succ n ih =>
      intro k order horder
      rw [topologicalLoop_succ]
      split_ifs with hleft hwave
      · exact horder.layered
      · trivial
      · exact ih (k + 1) _ (horder.append hcases hdeps hlevel)

end Order

/-- What the planning of a list of Cases should be: the loop ends, it raises exactly for a cycle,
and the order it returns otherwise is one of the Cases behind their dependencies that keeps the
declared order within a level. -/
structure ExactOrder (cases : List String) (deps : String → List String) : Prop where
  terminates : ∀ n, cases.length < n →
    topologicalLoop cases n (cases.map fun c ↦ (c, deps c)) [] =
      stableTopologicalOrder cases (cases.map fun c ↦ (c, deps c))
  raises_iff : (∃ e, stableTopologicalOrder cases (cases.map fun c ↦ (c, deps c)) = .error e) ↔
    Cyclic deps cases
  perm : ∀ order, stableTopologicalOrder cases (cases.map fun c ↦ (c, deps c)) = .ok order →
    order.Perm cases
  ordered : ∀ order, stableTopologicalOrder cases (cases.map fun c ↦ (c, deps c)) = .ok order →
    Ordered deps order
  leveled : ∀ order, stableTopologicalOrder cases (cases.map fun c ↦ (c, deps c)) = .ok order →
    (∃ level, IsLevel deps cases level) ∧
      ∀ level, IsLevel deps cases level → Layered cases level order

theorem exactOrder {cases : List String} {deps : String → List String} (hcases : cases.Nodup)
    (hdeps : ∀ c ∈ cases, ∀ d ∈ deps c, d ∈ cases) : ExactOrder cases deps := by
  have hspec := @topologicalLoop_spec cases deps hcases (cases.length + 1) [] List.nodup_nil
    (fun _ hc ↦ absurd hc List.not_mem_nil) Ordered.nil
  have hraises := topologicalLoop_raises hcases hdeps (cases.length + 1) [] Placed.nil
    (Nat.lt_succ_self _)
  rw [leftAfter_nil] at hspec hraises
  have hok : ∀ order, stableTopologicalOrder cases (cases.map fun c ↦ (c, deps c)) = .ok order →
      order.Perm cases ∧ Ordered deps order := by
    intro order horder
    rw [stableTopologicalOrder] at horder
    rw [horder] at hspec
    exact hspec
  refine {
    terminates := ?_
    raises_iff := ⟨?_, ?_⟩
    perm := fun order horder ↦ (hok order horder).1
    ordered := fun order horder ↦ (hok order horder).2
    leveled := fun order horder ↦ ⟨?_, fun level hlevel ↦ ?_⟩ }
  · intro n hn
    induction n, hn using Nat.le_induction with
    | base => rfl
    | succ n hn ih =>
        rw [← ih, ← leftAfter_nil]
        exact topologicalLoop_enough hcases n [] Placed.nil hn
  · rintro ⟨e, he⟩
    rw [stableTopologicalOrder] at he
    rw [he] at hraises
    exact hraises
  · rintro ⟨c, hc, hcycle⟩
    cases hresult : stableTopologicalOrder cases (cases.map fun c ↦ (c, deps c)) with
    | error e => exact ⟨e, rfl⟩
    | ok order =>
        obtain ⟨hperm, hordered⟩ := hok order hresult
        exact absurd ⟨c, hperm.symm.subset hc, hcycle⟩ hordered.not_cyclic
  · obtain ⟨hperm, hordered⟩ := hok order horder
    obtain ⟨level, hlevel⟩ := hordered.exists_level (hperm.nodup_iff.mpr hcases)
    exact ⟨level, fun c hc ↦ hlevel c (hperm.symm.subset hc)⟩
  · have hlayered := topologicalLoop_layered hcases hdeps hlevel (cases.length + 1) 0 []
      ⟨fun _ hc ↦ absurd hc List.not_mem_nil, fun _ _ _ ↦ Nat.zero_le _, List.Pairwise.nil⟩
    rw [leftAfter_nil] at hlayered
    rw [stableTopologicalOrder] at horder
    rw [horder] at hlayered
    exact hlayered

end Blackbase.Project

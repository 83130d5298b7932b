import Mathlib.Data.List.Basic
import Mathlib.Logic.Relation

/-!
# Graphs of objects

A memory is the list of the objects created so far, and an object refers to others by their
places in it.  New objects are added at the end, so a memory that has grown has the old one for a
prefix, and what was reachable stays what it was.
-/

universe u

namespace ObjectGraph

open Relation

variable {O : Type u} (refs : O → List ℕ)

/-- The object at `i` refers to the one at `j`. -/
def Points (m : List O) (i j : ℕ) : Prop := ∃ o, m[i]? = some o ∧ j ∈ refs o

/-- The object at `j` can be reached from the one at `i`. -/
abbrev Reaches (m : List O) : ℕ → ℕ → Prop := ReflTransGen (Points refs m)

/-- Every reference is to an object of the memory. -/
def Closed (m : List O) : Prop := ∀ i j, Points refs m i j → j < m.length

/-- Every path from the object ends. -/
def Grounded (m : List O) (i : ℕ) : Prop := Acc (flip (Points refs m)) i

/-- Some object that can be reached can be reached again from itself. -/
def Cyclic (m : List O) (i : ℕ) : Prop := ∃ c, Reaches refs m i c ∧ TransGen (Points refs m) c c

variable {refs} {m m' : List O} {i j : ℕ}

theorem Points.lt (h : Points refs m i j) : i < m.length := by
  obtain ⟨o, ho, -⟩ := h
  exact (List.getElem?_eq_some_iff.mp ho).1

theorem getElem?_of_growth (hp : m <+: m') (hi : i < m.length) : m'[i]? = m[i]? := by
  obtain ⟨t, rfl⟩ := hp
  exact List.getElem?_append_left hi

theorem getElem?_growth_of_eq_some {o : O} (hp : m <+: m') (h : m[i]? = some o) :
    m'[i]? = some o := by
  rw [getElem?_of_growth hp (List.getElem?_eq_some_iff.mp h).1, h]

theorem points_iff (h : m[i]? = m'[i]?) : Points refs m i j ↔ Points refs m' i j := by
  unfold Points
  rw [h]

theorem points_iff_of_growth (hp : m <+: m') (hi : i < m.length) :
    Points refs m' i j ↔ Points refs m i j :=
  points_iff (getElem?_of_growth hp hi)

theorem points_iff_mem {o : O} (h : m[i]? = some o) : Points refs m i j ↔ j ∈ refs o := by
  constructor
  · rintro ⟨o', ho', hj⟩
    rw [h] at ho'
    obtain rfl := Option.some.inj ho'
    exact hj
  · intro hj
    exact ⟨o, h, hj⟩

theorem Closed.reaches_lt (hm : Closed refs m) (hi : i < m.length) (h : Reaches refs m i j) :
    j < m.length := by
  induction h with
  | refl => exact hi
  | tail _ hj _ => exact hm _ _ hj

/-- What can be reached stays what it was when the memory grows. -/
theorem Closed.reaches_iff_of_growth (hm : Closed refs m) (hp : m <+: m') (hi : i < m.length) :
    Reaches refs m' i j ↔ Reaches refs m i j := by
  constructor
  · intro h
    induction h with
    | refl => exact .refl
    | tail _ hj ih =>
        have hlt := hm.reaches_lt hi ih
        exact ih.tail ((points_iff_of_growth hp hlt).mp hj)
  · intro h
    induction h with
    | refl => exact .refl
    | tail _ hj ih => exact ih.tail ((points_iff_of_growth hp hj.lt).mpr hj)

/-! ## Cycles -/

theorem grounded_of_points (h : ∀ j, Points refs m i j → Grounded refs m j) :
    Grounded refs m i :=
  Acc.intro i h

theorem Grounded.of_reaches (h : Grounded refs m i) (hj : Reaches refs m i j) :
    Grounded refs m j := by
  induction hj with
  | refl => exact h
  | tail _ hk ih => exact ih.inv hk

theorem Grounded.not_transGen (h : Grounded refs m i) : ¬ TransGen (Points refs m) i i := by
  induction h with
  | intro i _ ih =>
      intro hcycle
      obtain ⟨j, hj, hrest⟩ := TransGen.head'_iff.mp hcycle
      exact ih j hj (TransGen.tail' hrest hj)

theorem Grounded.not_cyclic (h : Grounded refs m i) : ¬ Cyclic refs m i := by
  rintro ⟨c, hc, hcycle⟩
  exact (h.of_reaches hc).not_transGen hcycle

/-- An object that only refers to earlier ones, which do the same, is in no cycle. -/
theorem grounded_of_earlier (h : ∀ j, Reaches refs m i j → ∀ k, Points refs m j k → k < j) :
    Grounded refs m i := by
  induction i using Nat.strongRecOn with
  | _ i ih =>
      refine grounded_of_points fun j hj ↦ ih j (h i .refl j hj) ?_
      intro k hk
      exact h k (hk.head hj)

/-- With more references come more paths and more cycles. -/
theorem Cyclic.mono {refs' : O → List ℕ} (hsub : ∀ o j, j ∈ refs o → j ∈ refs' o)
    (h : Cyclic refs m i) : Cyclic refs' m i := by
  have hpoints : ∀ a b, Points refs m a b → Points refs' m a b := by
    rintro a b ⟨o, ho, hb⟩
    exact ⟨o, ho, hsub o b hb⟩
  obtain ⟨c, hc, hcycle⟩ := h
  exact ⟨c, ReflTransGen.mono hpoints _ _ hc, TransGen.mono hpoints _ _ hcycle⟩

end ObjectGraph

import Mathlib

/-!
# Picking the elements at some positions

The elements of a list at given positions, in the order of the positions.  Picking positions out of
positions and then elements, or elements out of the elements that were picked, is the same; at
increasing positions the elements are what a filter by the position leaves; and increasing positions
are put together again from the ones in consecutive ranges.
-/

universe u

namespace Positions

variable {α : Type u}

/-- The elements of a list at some positions. -/
def pick (is : List ℕ) (xs : List α) : List α := is.filterMap (xs[·]?)

/-- The elements whose position is among some positions. -/
def keep (is : List ℕ) (xs : List α) : List α :=
  (xs.zipIdx.filter fun e ↦ e.2 ∈ is).map Prod.fst

variable {is js : List ℕ} {xs : List α}

theorem pick_cons {i : ℕ} (hi : i < xs.length) :
    pick (i :: is) xs = xs.get ⟨i, hi⟩ :: pick is xs := by
  rw [pick, List.filterMap_cons, List.getElem?_eq_getElem hi]
  rfl

theorem length_pick (h : ∀ i ∈ is, i < xs.length) : (pick is xs).length = is.length := by
  induction is with
  | nil => rfl
  | cons i is ih =>
      rw [pick_cons (h i List.mem_cons_self), List.length_cons, List.length_cons,
        ih fun j hj ↦ h j (List.mem_cons_of_mem _ hj)]

/-- What stands at a position of the picked elements. -/
theorem getElem?_pick (h : ∀ i ∈ is, i < xs.length) (n : ℕ) :
    (pick is xs)[n]? = is[n]?.bind (xs[·]?) := by
  induction is generalizing n with
  | nil => simp [pick]
  | cons i is ih =>
      have hi := h i List.mem_cons_self
      rw [pick_cons hi]
      cases n with
      | zero => simp [hi]
      | succ n => simpa using ih (fun j hj ↦ h j (List.mem_cons_of_mem _ hj)) n

/-- Picking twice is picking at the picked positions. -/
theorem pick_pick (h : ∀ j ∈ js, j < xs.length) :
    pick is (pick js xs) = pick (pick is js) xs := by
  have hread : (fun i ↦ (pick js xs)[i]?) = fun i ↦ js[i]?.bind (xs[·]?) :=
    funext (getElem?_pick h)
  rw [pick, hread, pick, pick, List.filterMap_filterMap]

theorem mem_of_mem_pick {x : α} (h : x ∈ pick is xs) : x ∈ xs := by
  obtain ⟨i, -, hi⟩ := List.mem_filterMap.mp h
  exact List.mem_of_getElem? hi

/-- Filtering by the position, when positions are counted from `k`. -/
theorem filterMap_eq_keep {k : ℕ} (hincreasing : is.Pairwise (· < ·)) (hk : ∀ i ∈ is, k ≤ i) :
    is.filterMap (fun i ↦ xs[i - k]?) = ((xs.zipIdx k).filter fun e ↦ e.2 ∈ is).map Prod.fst := by
  induction xs generalizing is k with
  | nil => simp
  | cons x xs ih =>
      have hshift : ∀ is' : List ℕ, (∀ i ∈ is', k + 1 ≤ i) →
          is'.filterMap (fun i ↦ (x :: xs)[i - k]?) = is'.filterMap fun i ↦ xs[i - (k + 1)]? := by
        intro is' h
        refine List.filterMap_congr fun i hi ↦ ?_
        have hi' := h i hi
        obtain ⟨n, rfl⟩ := Nat.exists_eq_add_of_le hi'
        have hleft : k + 1 + n - k = n + 1 := by omega
        have hright : k + 1 + n - (k + 1) = n := by omega
        rw [hleft, hright, List.getElem?_cons_succ]
      rw [List.zipIdx_cons]
      by_cases hmem : k ∈ is
      · -- The first position asked for is this one.
        cases is with
        | nil => cases hmem
        | cons i rest =>
            obtain ⟨hhead, hrest⟩ := List.pairwise_cons.mp hincreasing
            have hik : i = k := by
              rcases List.mem_cons.mp hmem with rfl | hin
              · rfl
              · exact absurd (hhead k hin) (not_lt.mpr (hk i List.mem_cons_self))
            subst hik
            have habove : ∀ j ∈ rest, i + 1 ≤ j := fun j hj ↦ hhead j hj
            have hsame : ((xs.zipIdx (i + 1)).filter fun e ↦ e.2 ∈ i :: rest) =
                (xs.zipIdx (i + 1)).filter fun e ↦ e.2 ∈ rest := by
              refine List.filter_congr fun e he ↦ ?_
              have hle := List.le_snd_of_mem_zipIdx he
              have hne : e.2 ≠ i := by omega
              simp [hne]
            rw [List.filterMap_cons, Nat.sub_self, List.getElem?_cons_zero,
              List.filter_cons_of_pos (by simp), List.map_cons, hsame, hshift rest habove,
              ih hrest habove]
      · have habove : ∀ j ∈ is, k + 1 ≤ j := by
          intro j hj
          have hne : j ≠ k := fun h ↦ hmem (h ▸ hj)
          have hle := hk j hj
          omega
        rw [List.filter_cons_of_neg (by simpa using hmem), hshift is habove, ih hincreasing habove]

/-- At increasing positions, picking is filtering by the position. -/
theorem pick_eq_keep (hincreasing : is.Pairwise (· < ·)) : pick is xs = keep is xs := by
  have h : is.filterMap (fun i ↦ xs[i - 0]?) = keep is xs :=
    filterMap_eq_keep hincreasing fun i _ ↦ Nat.zero_le i
  simp only [Nat.sub_zero] at h
  exact h

/-- At increasing positions a sublist is picked. -/
theorem pick_sublist (hincreasing : is.Pairwise (· < ·)) : (pick is xs).Sublist xs := by
  have hsub := (List.filter_sublist (p := fun e ↦ decide (e.2 ∈ is)) (l := xs.zipIdx)).map Prod.fst
  rw [List.zipIdx_map_fst] at hsub
  rw [pick_eq_keep hincreasing]
  exact hsub

/-- The positions in a range. -/
def within (is : List ℕ) (a b : ℕ) : List ℕ := is.filter fun i ↦ a ≤ i ∧ i < b

/-- Consecutive ranges from one number to another. -/
inductive Ranges : ℕ → ℕ → List (ℕ × ℕ) → Prop
  | nil (a : ℕ) : Ranges a a []
  | cons {a b c : ℕ} {rest : List (ℕ × ℕ)} (h : a ≤ b) (hrest : Ranges b c rest) :
      Ranges a c ((a, b) :: rest)

theorem within_cons (i : ℕ) (is : List ℕ) (a b : ℕ) :
    within (i :: is) a b = if a ≤ i ∧ i < b then i :: within is a b else within is a b := by
  simp [within, List.filter_cons]

theorem within_eq_nil {a b : ℕ} (h : ∀ i ∈ is, b ≤ i) : within is a b = [] := by
  refine List.filter_eq_nil_iff.mpr fun i hi hmem ↦ ?_
  have hle := h i hi
  have hlt := of_decide_eq_true hmem
  omega

theorem within_append (h : is.Pairwise (· < ·)) {a b c : ℕ} (hab : a ≤ b) (hbc : b ≤ c) :
    within is a b ++ within is b c = within is a c := by
  induction is with
  | nil => rfl
  | cons i is ih =>
      obtain ⟨hhead, hrest⟩ := List.pairwise_cons.mp h
      rcases lt_or_ge i b with hlt | hge
      · have hright : ¬ (b ≤ i ∧ i < c) := fun hi ↦ absurd hlt (not_lt.mpr hi.1)
        by_cases hai : a ≤ i
        · rw [within_cons i is a b, if_pos ⟨hai, hlt⟩, within_cons i is b c, if_neg hright,
            within_cons i is a c, if_pos ⟨hai, hlt.trans_le hbc⟩, List.cons_append, ih hrest]
        · rw [within_cons i is a b, if_neg fun hi ↦ hai hi.1, within_cons i is b c, if_neg hright,
            within_cons i is a c, if_neg fun hi ↦ hai hi.1, ih hrest]
      · -- From here on, no position is in the first range.
        have hfrom : ∀ j ∈ i :: is, b ≤ j := by
          intro j hj
          rcases List.mem_cons.mp hj with rfl | hin
          · exact hge
          · exact hge.trans (hhead j hin).le
        rw [within_eq_nil hfrom, List.nil_append]
        refine List.filter_congr fun j hj ↦ ?_
        have hb := hfrom j hj
        have ha := hab.trans hb
        simp [hb, ha]

theorem Ranges.le {a c : ℕ} {ranges : List (ℕ × ℕ)} (h : Ranges a c ranges) : a ≤ c := by
  induction h with
  | nil => exact le_rfl
  | cons h _ ih => exact h.trans ih

/-- Increasing positions are those of consecutive ranges, one after the other. -/
theorem flatMap_within (h : is.Pairwise (· < ·)) {a c : ℕ} {ranges : List (ℕ × ℕ)}
    (hranges : Ranges a c ranges) :
    ranges.flatMap (fun r ↦ within is r.1 r.2) = within is a c := by
  induction hranges with
  | nil a =>
      refine (List.filter_eq_nil_iff.mpr fun i _ hmem ↦ ?_).symm
      have hi := of_decide_eq_true hmem
      omega
  | cons hab hrest ih => rw [List.flatMap_cons, ih, within_append h hab hrest.le]

end Positions

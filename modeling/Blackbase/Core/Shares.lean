import Mathlib

/-!
# Shares of a stock

What the members of a list hold together.  A member that changes changes the sum by what it takes
or gives back, so that what is free and what is held stay the whole stock.
-/

universe u

namespace Shares

variable {α : Type u} {share share' : α → ℕ} {l : List α} {a b : α} {i : ℕ}

/-- What the members hold together. -/
def held (share : α → ℕ) (l : List α) : ℕ := (l.map share).sum

@[simp] theorem held_nil : held share [] = 0 := rfl

@[simp] theorem held_cons (a : α) (l : List α) : held share (a :: l) = share a + held share l :=
  List.sum_cons

@[simp] theorem held_append (l l' : List α) :
    held share (l ++ l') = held share l + held share l' := by
  rw [held, List.map_append, List.sum_append, held, held]

/-- One member changes. -/
theorem held_set (share : α → ℕ) (h : l[i]? = some a) (b : α) :
    held share (l.set i b) + share a = held share l + share b := by
  induction l generalizing i with
  | nil => cases h
  | cons c rest ih =>
      cases i with
      | zero =>
          obtain rfl : c = a := by simpa using h
          rw [List.set_cons_zero, held_cons, held_cons]
          omega
      | succ i =>
          have hrest : rest[i]? = some a := by simpa using h
          rw [List.set_cons_succ, held_cons, held_cons, add_assoc, ih hrest, add_assoc]

theorem held_le (h : ∀ a ∈ l, share a ≤ share' a) : held share l ≤ held share' l := by
  induction l with
  | nil => exact Nat.le_refl 0
  | cons a rest ih =>
      rw [held_cons, held_cons]
      exact Nat.add_le_add (h a List.mem_cons_self)
        (ih fun b hb ↦ h b (List.mem_cons_of_mem _ hb))

/-- If anything is held, a member holds it. -/
theorem exists_of_held_pos (h : 0 < held share l) :
    ∃ (i : ℕ) (a : α), l[i]? = some a ∧ 0 < share a := by
  induction l with
  | nil => exact absurd h (Nat.lt_irrefl 0)
  | cons a rest ih =>
      rcases Nat.eq_zero_or_pos (share a) with hzero | hpos
      · rw [held_cons, hzero, zero_add] at h
        obtain ⟨i, b, hb, hshare⟩ := ih h
        exact ⟨i + 1, b, by simpa using hb, hshare⟩
      · exact ⟨0, a, rfl, hpos⟩

/-- No member holds more than all. -/
theorem share_le_held (share : α → ℕ) (h : a ∈ l) : share a ≤ held share l := by
  induction l with
  | nil => cases h
  | cons b rest ih =>
      rw [held_cons]
      rcases List.mem_cons.mp h with rfl | h
      · exact Nat.le_add_right _ _
      · exact Nat.le_trans (ih h) (Nat.le_add_left _ _)

/-- What is asked of every member is asked of the changed one. -/
theorem forall_set {P : α → Prop} (h : ∀ c ∈ l, P c) (hb : P b) : ∀ c ∈ l.set i b, P c := by
  intro c hc
  rcases List.mem_or_eq_of_mem_set hc with hc | rfl
  · exact h c hc
  · exact hb

end Shares

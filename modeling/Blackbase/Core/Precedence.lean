import Mathlib.Data.List.Basic
import Mathlib.Data.List.Nodup
import Mathlib.Logic.Relation

/-!
# Orders of nodes and of events

A list of nodes in which every node stands behind what it depends on, and a log in which every
event is justified by the ones before it.  Both are built by appending.
-/

universe u

/-! ## Nodes -/

namespace Precedence

variable {α : Type u} [DecidableEq α] {deps : α → List α} {order now : List α}

/-- Every node of the list stands behind its dependencies. -/
def Ordered (deps : α → List α) (order : List α) : Prop :=
  ∀ a ∈ order, ∀ d ∈ deps a, d ∈ order ∧ order.idxOf d < order.idxOf a

theorem Ordered.nil : Ordered deps [] := fun _ h ↦ absurd h List.not_mem_nil

/-- Nodes that depend on placed nodes only can be placed next. -/
theorem Ordered.append (h : Ordered deps order)
    (hdeps : ∀ a ∈ now, ∀ d ∈ deps a, d ∈ order) : Ordered deps (order ++ now) := by
  intro a ha d hd
  by_cases hold : a ∈ order
  · obtain ⟨hmem, hlt⟩ := h a hold d hd
    refine ⟨List.mem_append_left _ hmem, ?_⟩
    rwa [List.idxOf_append_of_mem hmem, List.idxOf_append_of_mem hold]
  · have hnow : a ∈ now := (List.mem_append.mp ha).resolve_left hold
    have hmem : d ∈ order := hdeps a hnow d hd
    refine ⟨List.mem_append_left _ hmem, ?_⟩
    rw [List.idxOf_append_of_mem hmem, List.idxOf_append_of_notMem hold]
    exact Nat.lt_of_lt_of_le (List.idxOf_lt_length_of_mem hmem) (Nat.le_add_right _ _)

/-- Among some of the nodes there is one that depends on none of them. -/
theorem Ordered.exists_source (h : Ordered deps order) {some : List α} (hne : some ≠ [])
    (hsub : ∀ a ∈ some, a ∈ order) : ∃ a ∈ some, ∀ d ∈ deps a, d ∉ some := by
  induction hn : some.length using Nat.strongRecOn generalizing some with
  | _ n ih =>
      obtain ⟨b, hb⟩ := List.exists_mem_of_ne_nil some hne
      -- The nodes in front of `b` are fewer.
      by_cases hfront : some.filter (fun a ↦ order.idxOf a < order.idxOf b) = []
      · refine ⟨b, hb, fun d hd hmem ↦ ?_⟩
        have hlt := (h b (hsub b hb) d hd).2
        exact List.filter_eq_nil_iff.mp hfront d hmem (decide_eq_true hlt)
      · have hlen : (some.filter fun a ↦ order.idxOf a < order.idxOf b).length < n := by
          rw [← hn]
          exact List.length_filter_lt_length_iff_exists.mpr ⟨b, hb, by simp⟩
        obtain ⟨a, ha, hfree⟩ := ih _ hlen hfront
          (fun a ha ↦ hsub a (List.mem_filter.mp ha).1) rfl
        obtain ⟨hmem, hlt⟩ := List.mem_filter.mp ha
        refine ⟨a, hmem, fun d hd hd' ↦ hfree d hd ?_⟩
        have hdlt := (h a (hsub a hmem) d hd).2
        exact List.mem_filter.mpr
          ⟨hd', decide_eq_true (Nat.lt_trans hdlt (of_decide_eq_true hlt))⟩

end Precedence

/-! ## Events -/

namespace Log

variable {ε : Type u} {P : List ε → ε → Prop} {log : List ε} {e : ε}

/-- What comes before an event of the log justifies it. -/
def Justified (P : List ε → ε → Prop) (log : List ε) : Prop :=
  ∀ before e after, log = before ++ e :: after → P before e

theorem Justified.nil : Justified P [] := by
  intro before e after h
  cases before <;> cases h

theorem Justified.concat (h : Justified P log) (he : P log e) : Justified P (log ++ [e]) := by
  intro before e' after heq
  rcases List.eq_nil_or_concat after with rfl | ⟨after', last, rfl⟩
  · obtain ⟨rfl, hlast⟩ := List.append_inj' heq rfl
    cases hlast
    exact he
  · have hsplit : log ++ [e] = (before ++ e' :: after') ++ [last] := by simpa using heq
    exact h before e' after' (List.append_inj' hsplit rfl).1

theorem Justified.of_append {more : List ε} (h : Justified P (log ++ more)) : Justified P log := by
  intro before e' after heq
  exact h before e' (after ++ more) (by simp [heq])

end Log

import Mathlib

/-!
# Computations that count what they visit

A computation may visit so many nodes and no more; the visit that goes over the limit raises.
`Takes` says what such a computation does from any count within the limit: it visits `k` nodes and
returns `a`, or raises because there are not so many left.
-/

universe u v

/-- A computation with a count. -/
abbrev Counted (ε : Type u) (α : Type) := StateT ℕ (Except ε) α

namespace Counted

variable {ε : Type u} {α β : Type}

/-- One more node is visited. -/
def visit (limit : ℕ) (excess : ε) : Counted ε Unit := fun n ↦
  if limit < n + 1 then .error excess else .ok ((), n + 1)

/-- The computation visits `k` nodes and returns `a`. -/
def Takes (limit : ℕ) (excess : ε) (k : ℕ) (a : α) (m : Counted ε α) : Prop :=
  ∀ n ≤ limit, m n = if n + k ≤ limit then .ok (a, n + k) else .error excess

variable {limit k l : ℕ} {excess : ε} {a : α} {b : β} {m : Counted ε α}

theorem Takes.visit : Takes limit excess 1 () (visit limit excess) := by
  intro n _
  by_cases h : n + 1 ≤ limit
  · rw [Counted.visit, if_pos h, if_neg (Nat.not_lt.mpr h)]
  · rw [Counted.visit, if_neg h, if_pos (Nat.lt_of_not_le h)]

/-- What visits nothing. -/
theorem Takes.pure (a : α) : Takes limit excess 0 a (Pure.pure a : Counted ε α) := by
  intro n hn
  rw [Nat.add_zero, if_pos hn]
  rfl

/-- One computation after another. -/
theorem Takes.bind {f : α → Counted ε β} (hm : Takes limit excess k a m)
    (hf : Takes limit excess l b (f a)) : Takes limit excess (k + l) b (m >>= f) := by
  intro n hn
  have hbind : (m >>= f) n = m n >>= fun p ↦ f p.1 p.2 := rfl
  rw [hbind, hm n hn]
  by_cases hk : n + k ≤ limit
  · rw [if_pos hk, ← Nat.add_assoc, ← hf (n + k) hk]
    rfl
  · rw [if_neg hk, if_neg (by omega)]
    rfl

/-- What is done last visits nothing. -/
theorem Takes.bind_pure {f : α → Counted ε β} (hm : Takes limit excess k a m)
    (hf : f a = Pure.pure b) : Takes limit excess k b (m >>= f) := by
  have hlast : Takes limit excess 0 b (f a) := hf ▸ Takes.pure b
  exact hm.bind hlast

/-- A computation that begins with a visit. -/
theorem Takes.visit_bind {f : Unit → Counted ε β} (hf : Takes limit excess l b (f ())) :
    Takes limit excess (1 + l) b (Counted.visit limit excess >>= f) :=
  Takes.visit.bind hf

/-- A visit to what has nothing below it. -/
theorem Takes.visit_pure {f : Unit → Counted ε α} (hf : f () = Pure.pure a) :
    Takes limit excess 1 a (Counted.visit limit excess >>= f) :=
  Takes.visit_bind (hf ▸ Takes.pure a)

/-- From the start, what is returned is decided by the number of nodes. -/
theorem Takes.run (hm : Takes limit excess k a m) :
    (m.run 0).map Prod.fst = if k ≤ limit then .ok a else .error excess := by
  have h := hm 0 (Nat.zero_le _)
  rw [Nat.zero_add] at h
  change (m 0).map Prod.fst = _
  rw [h]
  by_cases hk : k ≤ limit
  · rw [if_pos hk, if_pos hk]
    rfl
  · rw [if_neg hk, if_neg hk]
    rfl

end Counted

import Blackbase.Core.OrderedDict
import Mathlib.Algebra.BigOperators.Group.List.Basic

/-!
# What the entries of a dictionary hold

Taking an entry out of a dictionary, and the sum of what its entries hold.  A new entry adds what it
holds to the sum, and an entry that is taken out brings it back: what is left of a stock and what
the entries hold together stay what the stock was.
-/

universe u v

namespace OrderedDict

variable {α : Type u} {d : OrderedDict α} {k : String} {a : α}

/-- `d.pop(k, None)`. -/
def erase (d : OrderedDict α) (k : String) : OrderedDict α where
  entries := d.entries.filter fun e ↦ e.1 ≠ k
  nodup := d.nodup.sublist (List.filter_sublist.map Prod.fst)

theorem mem_erase {e : String × α} : e ∈ (d.erase k).entries ↔ e ∈ d.entries ∧ e.1 ≠ k := by
  simp [erase]

@[simp] theorem get?_erase_self : (d.erase k).get? k = none := by
  rw [Option.eq_none_iff_forall_ne_some]
  intro b hb
  exact (mem_erase.mp (mem_of_get? hb)).2 rfl

theorem notMem_keys_of_get? (h : d.get? k = none) : k ∉ d.entries.map Prod.fst := by
  intro hk
  obtain ⟨⟨_, b⟩, he, rfl⟩ := List.mem_map.mp hk
  rw [get?_of_mem he] at h
  cases h

/-- A new entry stands at the end. -/
theorem entries_insert_new (h : d.get? k = none) :
    (d.insert k a).entries = d.entries ++ [(k, a)] :=
  setEntry_of_notMem (notMem_keys_of_get? h)

variable {M : Type v} [AddCommMonoid M] (value : α → M)

/-- What the entries hold together. -/
def held (d : OrderedDict α) : M := (d.entries.map fun e ↦ value e.2).sum

@[simp] theorem held_empty : (∅ : OrderedDict α).held value = 0 := rfl

theorem held_insert (h : d.get? k = none) :
    (d.insert k a).held value = d.held value + value a := by
  simp [held, entries_insert_new h]

theorem held_erase (h : d.get? k = some a) :
    (d.erase k).held value + value a = d.held value := by
  have hmem := mem_of_get? h
  obtain ⟨l, nodup⟩ := d
  simp only [held, erase]
  clear h
  change (k, a) ∈ l at hmem
  induction l with
  | nil => cases hmem
  | cons e rest ih =>
      obtain ⟨hhead, hrest⟩ := List.nodup_cons.mp nodup
      rcases List.mem_cons.mp hmem with rfl | hin
      · have hself : rest.filter (fun e ↦ e.1 ≠ k) = rest := by
          rw [List.filter_eq_self]
          intro e he
          exact decide_eq_true fun hk ↦ hhead (List.mem_map.mpr ⟨e, he, hk⟩)
        rw [List.filter_cons_of_neg (by simp), hself, List.map_cons, List.sum_cons, add_comm]
      · have hne : e.1 ≠ k := fun hk ↦ hhead (List.mem_map.mpr ⟨_, hin, hk.symm⟩)
        rw [List.filter_cons_of_pos (by simpa using hne), List.map_cons, List.map_cons,
          List.sum_cons, List.sum_cons, add_assoc, ih hrest hin]

end OrderedDict

import Mathlib.Data.List.AList

/-!
# Dictionaries keyed by text

`AList` under the operations programs use of a dictionary with text keys: `update`, in which
the later entries win, and a map over the entries.  Everything is read off `lookup`.
-/

universe u v

/-- A dictionary with text keys. -/
abbrev Dict (α : Type u) := AList fun _ : String ↦ α

namespace Dict

variable {α : Type u} {β : Type v}

/-- Map the values, with their keys. -/
def mapWithKey (f : String → α → β) (d : Dict α) : Dict β where
  entries := d.entries.map fun e ↦ ⟨e.1, f e.1 e.2⟩
  nodupKeys := by
    have hkeys : (d.entries.map fun e ↦ (⟨e.1, f e.1 e.2⟩ : Sigma fun _ : String ↦ β)).keys =
        d.entries.keys := by
      simp [List.keys, Function.comp_def]
    rw [List.NodupKeys, hkeys]
    exact d.keys_nodup

@[simp] theorem mem_mapWithKey {f : String → α → β} {d : Dict α} {k : String} :
    k ∈ mapWithKey f d ↔ k ∈ d := by
  simp [AList.mem_keys, AList.keys, mapWithKey, List.keys, Function.comp_def]

theorem mem_entries {d : Dict α} {k : String} {a : α} :
    ⟨k, a⟩ ∈ d.entries ↔ d.lookup k = some a := by
  rw [← AList.mem_lookup_iff, Option.mem_def]

@[simp] theorem lookup_mapWithKey (f : String → α → β) (d : Dict α) (k : String) :
    (mapWithKey f d).lookup k = (d.lookup k).map (f k) := by
  ext b
  rw [← mem_entries, Option.map_eq_some_iff]
  simp only [mapWithKey, List.mem_map, Sigma.mk.injEq]
  constructor
  · rintro ⟨⟨k', a⟩, hmem, rfl, hb⟩
    exact ⟨a, mem_entries.mp hmem, eq_of_heq hb⟩
  · rintro ⟨a, ha, rfl⟩
    exact ⟨⟨k, a⟩, mem_entries.mpr ha, rfl, HEq.rfl⟩

/-- `d.update(e)`. -/
def update (d e : Dict α) : Dict α := e ∪ d

@[simp] theorem lookup_update (d e : Dict α) (k : String) :
    (update d e).lookup k = (e.lookup k).or (d.lookup k) := by
  unfold update
  by_cases hk : k ∈ e
  · rw [AList.lookup_union_left hk]
    obtain ⟨a, ha⟩ := Option.isSome_iff_exists.mp (AList.lookup_isSome.mpr hk)
    simp [ha]
  · rw [AList.lookup_union_right hk, AList.lookup_eq_none.mpr hk, Option.none_or]

@[simp] theorem mem_update {d e : Dict α} {k : String} : k ∈ update d e ↔ k ∈ e ∨ k ∈ d :=
  AList.mem_union

theorem mem_iff {d : Dict α} {k : String} : k ∈ d ↔ ∃ a, d.lookup k = some a := by
  rw [← AList.lookup_isSome, Option.isSome_iff_exists]

end Dict

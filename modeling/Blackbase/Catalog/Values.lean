import Blackbase.Catalog.Model

/-!
# Values of a catalog file

What the writer puts out for a value is the spelling of a TOML value that the reader reads back.
What is read back is the value without `None`, with the items of its mappings in the order of
their keys, and with lists for its tuples.
-/

namespace Blackbase.Catalog

open Toml (Value Table)

variable {F : Type} (R : Runtime F)

/-! ## Values that are read back -/

/-- Floats as they are written and read. -/
def floats : Toml.Floats F where
  parse := R.parseFloat
  text := floatText R
  isFloat_text x := by
    unfold floatText
    cases hnan : R.isNan x with
    | true => exact (by decide : Toml.isFloat "nan".toList)
    | false =>
        cases hinf : R.isInf x with
        | true =>
            cases R.isPositive x with
            | true => exact (by decide : Toml.isFloat "+inf".toList)
            | false => exact (by decide : Toml.isFloat "-inf".toList)
        | false => simpa using R.isFloat_repr x hnan hinf
  parse_text x := by
    unfold floatText
    cases hnan : R.isNan x with
    | true => exact R.parseFloat_nan x hnan
    | false =>
        cases hinf : R.isInf x with
        | true =>
            cases hpos : R.isPositive x with
            | true => exact R.parseFloat_inf x hnan hinf hpos
            | false => exact R.parseFloat_negInf x hnan hinf hpos
        | false => exact R.parseFloat_repr x hnan hinf

namespace CatalogValue

mutual

/-- The value with lists for its tuples. -/
def asLists : CatalogValue F → CatalogValue F
  | .mapping items => .mapping (asListsPairs items)
  | .tuple items => .list (asListsItems items)
  | .list items => .list (asListsItems items)
  | v => v

def asListsItems : List (CatalogValue F) → List (CatalogValue F)
  | [] => []
  | v :: rest => v.asLists :: asListsItems rest

def asListsPairs : List (String × CatalogValue F) → List (String × CatalogValue F)
  | [] => []
  | (k, v) :: rest => (k, v.asLists) :: asListsPairs rest

end

mutual

/-- Nothing in the value keeps it from being written and read: no value of another type, no
integer with too many digits, and no character DEL in its texts and keys. -/
def Writable : CatalogValue F → Prop
  | .text s => Toml.del ∉ s.toList
  | .int n => Toml.Short n
  | .none | .bool _ | .float _ => True
  | .list items => WritableItems items
  | .tuple items => WritableItems items
  | .mapping items => WritablePairs items
  | .other _ => False

def WritableItems : List (CatalogValue F) → Prop
  | [] => True
  | v :: rest => v.Writable ∧ WritableItems rest

def WritablePairs : List (String × CatalogValue F) → Prop
  | [] => True
  | (k, v) :: rest => Toml.del ∉ k.toList ∧ v.Writable ∧ WritablePairs rest

end

/-- The value as it comes back. -/
def readBack (v : CatalogValue F) : CatalogValue F := v.withoutNone.sorted.asLists

/-- The value is written as a TOML value that is read back as the value itself, with lists for
its tuples. -/
structure WrittenAs (v : CatalogValue F) (t : Value F) : Prop where
  write : writeValue R v = .ok (Toml.spell (floats R) t)
  plain : t.Plain
  back : ofToml t = v.asLists

variable {R}

theorem exists_writtenAs_items {items : List (CatalogValue F)}
    (h : ∀ v ∈ items, ∃ t, v.WrittenAs R t) :
    ∃ ts, writeItems R items = .ok (Toml.spellItems (floats R) ts) ∧ Toml.PlainItems ts ∧
      ofTomlItems ts = asListsItems items := by
  induction items with
  | nil => exact ⟨[], rfl, trivial, rfl⟩
  | cons v rest ih =>
      obtain ⟨t, ht⟩ := h v List.mem_cons_self
      obtain ⟨ts, hwrite, hplain, hback⟩ := ih fun v' hv' ↦ h v' (List.mem_cons_of_mem _ hv')
      refine ⟨t :: ts, ?_, ⟨ht.plain, hplain⟩, ?_⟩
      · rw [writeItems, ht.write, hwrite]
        rfl
      · rw [ofTomlItems, asListsItems, ht.back, hback]

theorem map_fst_ofTomlPairs (ts : Table F) :
    (ofTomlPairs ts).map Prod.fst = ts.map Prod.fst := by
  induction ts with
  | nil => rfl
  | cons e rest ih => simp [ofTomlPairs, ih]

theorem map_fst_asListsPairs (items : Items F) :
    (asListsPairs items).map Prod.fst = items.map Prod.fst := by
  induction items with
  | nil => rfl
  | cons e rest ih => simp [asListsPairs, ih]

theorem sortedPairs_eq (items : Items F) :
    sortedPairs items = items.map fun e ↦ (e.1, e.2.sorted) := by
  induction items with
  | nil => rfl
  | cons e rest ih => simp [sortedPairs, ih]

theorem exists_writtenAs_pairs {items : Items F} (hnodup : (items.map Prod.fst).Nodup)
    (h : ∀ e ∈ items, Toml.del ∉ e.1.toList ∧ ∃ t, e.2.WrittenAs R t) :
    ∃ ts, writePairs R items = .ok (Toml.spellPairs (floats R) ts) ∧ Toml.PlainPairs ts ∧
      ofTomlPairs ts = asListsPairs items := by
  induction items with
  | nil => exact ⟨[], rfl, trivial, rfl⟩
  | cons e rest ih =>
      obtain ⟨k, v⟩ := e
      obtain ⟨hfresh, hnodup⟩ := List.nodup_cons.mp hnodup
      obtain ⟨hk, t, ht⟩ := h (k, v) List.mem_cons_self
      obtain ⟨ts, hwrite, hplain, hback⟩ :=
        ih hnodup fun e' he' ↦ h e' (List.mem_cons_of_mem _ he')
      have hkeys : ts.map Prod.fst = rest.map Prod.fst := by
        rw [← map_fst_ofTomlPairs, hback, map_fst_asListsPairs]
      refine ⟨(k, t) :: ts, ?_, ⟨hkeys ▸ hfresh, hk, ht.plain, hplain⟩, ?_⟩
      · rw [writePairs, ht.write, hwrite]
        rfl
      · rw [ofTomlPairs, asListsPairs, ht.back, hback]

theorem exists_writtenAs_mapping {items : Items F}
    (h : ∀ e ∈ withoutNonePairs items, Toml.del ∉ e.1.toList ∧ ∃ t, e.2.sorted.WrittenAs R t) :
    ∃ t, (CatalogValue.mapping items).withoutNone.sorted.WrittenAs R t := by
  have hperm := List.mergeSort_perm
    (sortedPairs (OrderedDict.ofList (withoutNonePairs items)).entries) fun e e' ↦ e.1 ≤ e'.1
  have hnodup : (((sortedPairs (OrderedDict.ofList (withoutNonePairs items)).entries).mergeSort
      fun e e' ↦ e.1 ≤ e'.1).map Prod.fst).Nodup := by
    refine (hperm.map Prod.fst).nodup_iff.mpr ?_
    rw [sortedPairs_eq, List.map_map]
    exact (OrderedDict.ofList (withoutNonePairs items)).nodup
  obtain ⟨ts, hwrite, hplain, hback⟩ := exists_writtenAs_pairs hnodup fun e he ↦ by
    have hmem := hperm.mem_iff.mp he
    rw [sortedPairs_eq] at hmem
    obtain ⟨e', he', rfl⟩ := List.mem_map.mp hmem
    exact h e' (OrderedDict.mem_of_mem_ofList he')
  refine ⟨.table ts, ?_, hplain, ?_⟩
  · simp only [withoutNone, sorted, writeValue, hwrite]
    rfl
  · rw [ofToml, hback]
    rfl

theorem withoutNoneItems_cons {v : CatalogValue F} (h : v ≠ .none)
    (rest : List (CatalogValue F)) :
    withoutNoneItems (v :: rest) = v.withoutNone :: withoutNoneItems rest := by
  cases v with
  | none => exact absurd rfl h
  | _ => rfl

theorem withoutNonePairs_cons {v : CatalogValue F} (h : v ≠ .none) (k : String) (rest : Items F) :
    withoutNonePairs ((k, v) :: rest) = (k, v.withoutNone) :: withoutNonePairs rest := by
  cases v with
  | none => exact absurd rfl h
  | _ => rfl

mutual

/-- A writable value is written as a TOML value that is read back. -/
theorem exists_writtenAs : ∀ v : CatalogValue F, v.Writable → v ≠ .none →
    ∃ t, v.withoutNone.sorted.WrittenAs R t
  | .none, _, hne => absurd rfl hne
  | .text s, h, _ => ⟨.string s, rfl, h, rfl⟩
  | .bool true, _, _ => ⟨.boolean true, rfl, trivial, rfl⟩
  | .bool false, _, _ => ⟨.boolean false, rfl, trivial, rfl⟩
  | .int n, h, _ => ⟨.integer n, if_pos h, h, rfl⟩
  | .float x, _, _ => ⟨.float x, rfl, trivial, rfl⟩
  | .list items, h, _ => by
      obtain ⟨ts, hwrite, hplain, hback⟩ :=
        exists_writtenAs_items (exists_writtenAs_sortedItems items h)
      refine ⟨.array ts, ?_, hplain, ?_⟩
      · simp only [withoutNone, sorted, writeValue, hwrite]
        rfl
      · rw [ofToml, hback]
        rfl
  | .tuple items, h, _ => by
      obtain ⟨ts, hwrite, hplain, hback⟩ :=
        exists_writtenAs_items (exists_writtenAs_sortedItems items h)
      refine ⟨.array ts, ?_, hplain, ?_⟩
      · simp only [withoutNone, sorted, writeValue, hwrite]
        rfl
      · rw [ofToml, hback]
        rfl
  | .mapping items, h, _ => exists_writtenAs_mapping (exists_writtenAs_of_mem items h)
  | .other _, h, _ => False.elim h

theorem exists_writtenAs_sortedItems : ∀ items : List (CatalogValue F), WritableItems items →
    ∀ v ∈ sortedItems (withoutNoneItems items), ∃ t, v.WrittenAs R t
  | [], _, _, hv => absurd hv List.not_mem_nil
  | v :: rest, h, w, hw => by
      have hrest := exists_writtenAs_sortedItems rest h.2
      by_cases hne : v = .none
      · subst hne
        exact hrest w hw
      · rw [withoutNoneItems_cons hne, sortedItems, List.mem_cons] at hw
        rcases hw with rfl | hw
        · exact exists_writtenAs v h.1 hne
        · exact hrest w hw

theorem exists_writtenAs_of_mem : ∀ items : Items F, WritablePairs items →
    ∀ e ∈ withoutNonePairs items, Toml.del ∉ e.1.toList ∧ ∃ t, e.2.sorted.WrittenAs R t
  | [], _, _, he => absurd he List.not_mem_nil
  | (k, v) :: rest, h, e, he => by
      have hrest := exists_writtenAs_of_mem rest h.2.2
      by_cases hne : v = .none
      · subst hne
        exact hrest e he
      · rw [withoutNonePairs_cons hne, List.mem_cons] at he
        rcases he with rfl | he
        · exact ⟨h.1, exists_writtenAs v h.2.1 hne⟩
        · exact hrest e he

end

end CatalogValue

end Blackbase.Catalog

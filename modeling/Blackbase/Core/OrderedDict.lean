import Mathlib.Data.List.Nodup
import Mathlib.Data.List.Basic

/-!
# Dictionaries in the order of insertion

A dictionary with text keys that remembers the order in which its keys were first set.  Setting
a key that is there replaces its value in place.  `ofList` sets the entries of a list one after
the other; a list without a repeated key is what it makes of it.
-/

universe u v w

/-- A dictionary with text keys, in the order of insertion. -/
structure OrderedDict (α : Type u) where
  entries : List (String × α)
  nodup : (entries.map Prod.fst).Nodup

namespace OrderedDict

variable {α : Type u} {β : Type v}

@[ext] theorem ext {d e : OrderedDict α} (h : d.entries = e.entries) : d = e := by
  cases d
  cases e
  obtain rfl : _ = _ := h
  rfl

/-- The empty dictionary. -/
def empty : OrderedDict α where
  entries := []
  nodup := List.nodup_nil

instance : EmptyCollection (OrderedDict α) := ⟨empty⟩

@[simp] theorem entries_empty : (∅ : OrderedDict α).entries = [] := rfl

/-- `d.get(k)`. -/
def get? (d : OrderedDict α) (k : String) : Option α := d.entries.lookup k

@[simp] theorem get?_empty (k : String) : (∅ : OrderedDict α).get? k = none := rfl

/-- The entries of a list with the value at `k` set to `a`. -/
def setEntry (k : String) (a : α) : List (String × α) → List (String × α)
  | [] => [(k, a)]
  | e :: rest => if e.1 = k then (k, a) :: rest else e :: setEntry k a rest

theorem mem_keys_setEntry {k : String} {a : α} {l : List (String × α)} {k' : String} :
    k' ∈ (setEntry k a l).map Prod.fst ↔ k' = k ∨ k' ∈ l.map Prod.fst := by
  induction l with
  | nil => simp [setEntry]
  | cons e rest ih =>
      unfold setEntry
      split
      · next h => simp [h]
      · rw [List.map_cons, List.mem_cons, ih, List.map_cons, List.mem_cons]
        tauto

theorem nodup_setEntry {k : String} {a : α} {l : List (String × α)}
    (h : (l.map Prod.fst).Nodup) : ((setEntry k a l).map Prod.fst).Nodup := by
  induction l with
  | nil => simp [setEntry]
  | cons e rest ih =>
      obtain ⟨hhead, hrest⟩ := List.nodup_cons.mp h
      unfold setEntry
      split
      · next hk =>
          subst hk
          exact List.nodup_cons.mpr ⟨hhead, hrest⟩
      · next hk =>
          refine List.nodup_cons.mpr ⟨?_, ih hrest⟩
          rw [mem_keys_setEntry]
          rintro (heq | hmem)
          · exact hk heq
          · exact hhead hmem

theorem setEntry_of_notMem {k : String} {a : α} {l : List (String × α)}
    (h : k ∉ l.map Prod.fst) : setEntry k a l = l ++ [(k, a)] := by
  induction l with
  | nil => rfl
  | cons e rest ih =>
      rw [List.map_cons, List.mem_cons, not_or] at h
      rw [setEntry, if_neg fun heq ↦ h.1 heq.symm, ih h.2, List.cons_append]

theorem lookup_cons (e : String × α) (rest : List (String × α)) (k : String) :
    (e :: rest).lookup k = if k = e.1 then some e.2 else rest.lookup k := by
  rw [List.lookup_cons]
  by_cases h : k = e.1
  · simp [h]
  · rw [if_neg h, beq_eq_false_iff_ne.mpr h]

theorem lookup_setEntry (k : String) (a : α) (l : List (String × α)) (k' : String) :
    (setEntry k a l).lookup k' = if k' = k then some a else l.lookup k' := by
  induction l with
  | nil => rw [setEntry, lookup_cons]
  | cons e rest ih =>
      unfold setEntry
      by_cases hk : e.1 = k
      · rw [if_pos hk, lookup_cons, lookup_cons, hk]
        split <;> rfl
      · rw [if_neg hk, lookup_cons, lookup_cons, ih]
        split
        · next h => rw [if_neg fun heq ↦ hk (h.symm.trans heq)]
        · rfl

/-- `d[k] = a`. -/
def insert (d : OrderedDict α) (k : String) (a : α) : OrderedDict α where
  entries := setEntry k a d.entries
  nodup := nodup_setEntry d.nodup

@[simp] theorem get?_insert (d : OrderedDict α) (k : String) (a : α) (k' : String) :
    (d.insert k a).get? k' = if k' = k then some a else d.get? k' :=
  lookup_setEntry k a d.entries k'

theorem mem_of_mem_setEntry {k : String} {a : α} {l : List (String × α)} {e : String × α}
    (h : e ∈ setEntry k a l) : e = (k, a) ∨ e ∈ l := by
  induction l with
  | nil => exact .inl (List.mem_singleton.mp h)
  | cons e₀ rest ih =>
      unfold setEntry at h
      split at h
      · rcases List.mem_cons.mp h with heq | hmem
        · exact .inl heq
        · exact .inr (List.mem_cons_of_mem _ hmem)
      · rcases List.mem_cons.mp h with heq | hmem
        · exact .inr (heq ▸ List.mem_cons_self)
        · exact (ih hmem).imp_right (List.mem_cons_of_mem _)

/-- `d.setdefault(k, a)`. -/
def setDefault (d : OrderedDict α) (k : String) (a : α) : OrderedDict α :=
  if (d.get? k).isSome then d else d.insert k a

@[simp] theorem get?_setDefault (d : OrderedDict α) (k : String) (a : α) (k' : String) :
    (d.setDefault k a).get? k' = if k' = k then some ((d.get? k).getD a) else d.get? k' := by
  unfold setDefault
  by_cases h : k' = k
  · subst h
    cases hk : d.get? k' <;> simp [hk]
  · cases hk : d.get? k <;> simp [h]

/-- The dictionary a comprehension builds from its entries. -/
def ofList (l : List (String × α)) : OrderedDict α :=
  l.foldl (fun d e ↦ d.insert e.1 e.2) ∅

theorem entries_foldl_insert {l : List (String × α)} {d : OrderedDict α}
    (h : ((d.entries ++ l).map Prod.fst).Nodup) :
    (l.foldl (fun d e ↦ d.insert e.1 e.2) d).entries = d.entries ++ l := by
  induction l generalizing d with
  | nil => simp
  | cons e rest ih =>
      have hkey : e.1 ∉ d.entries.map Prod.fst := by
        rw [List.map_append, List.map_cons] at h
        exact fun hmem ↦ List.disjoint_of_nodup_append h hmem List.mem_cons_self
      have hset : (d.insert e.1 e.2).entries = d.entries ++ [e] := setEntry_of_notMem hkey
      have happend : d.entries ++ e :: rest = (d.insert e.1 e.2).entries ++ rest := by
        rw [hset, List.append_assoc, List.singleton_append]
      rw [happend] at h
      rw [List.foldl_cons, ih h, ← happend]

/-- A list without a repeated key is not changed. -/
theorem entries_ofList {l : List (String × α)} (h : (l.map Prod.fst).Nodup) :
    (ofList l).entries = l := by
  rw [ofList, entries_foldl_insert (by simpa using h), entries_empty, List.nil_append]

@[simp] theorem ofList_entries (d : OrderedDict α) : ofList d.entries = d :=
  ext (entries_ofList d.nodup)

/-- A comprehension holds no other entries than its list. -/
theorem mem_of_mem_ofList {l : List (String × α)} {e : String × α}
    (h : e ∈ (ofList l).entries) : e ∈ l := by
  have hfold : ∀ (l : List (String × α)) (d : OrderedDict α),
      e ∈ (l.foldl (fun d e ↦ d.insert e.1 e.2) d).entries → e ∈ d.entries ∨ e ∈ l := by
    intro l
    induction l with
    | nil => exact fun d h ↦ .inl h
    | cons e₀ rest ih =>
        intro d h
        rcases ih _ h with hmem | hmem
        · rcases mem_of_mem_setEntry hmem with rfl | hmem
          · exact .inr List.mem_cons_self
          · exact .inl hmem
        · exact .inr (List.mem_cons_of_mem _ hmem)
  rcases hfold l ∅ h with hmem | hmem
  · cases hmem
  · exact hmem

theorem lookup_of_mem {l : List (String × α)} (hl : (l.map Prod.fst).Nodup) {k : String} {a : α}
    (h : (k, a) ∈ l) : l.lookup k = some a := by
  induction l with
  | nil => cases h
  | cons e rest ih =>
      obtain ⟨hhead, hrest⟩ := List.nodup_cons.mp hl
      rw [lookup_cons]
      rcases List.mem_cons.mp h with rfl | hmem
      · exact if_pos rfl
      · have hne : k ≠ e.1 := by
          rintro rfl
          exact hhead (List.mem_map.mpr ⟨_, hmem, rfl⟩)
        rw [if_neg hne, ih hrest hmem]

theorem get?_of_mem {d : OrderedDict α} {k : String} {a : α} (h : (k, a) ∈ d.entries) :
    d.get? k = some a :=
  lookup_of_mem d.nodup h

theorem mem_of_get? {d : OrderedDict α} {k : String} {a : α} (h : d.get? k = some a) :
    (k, a) ∈ d.entries := by
  obtain ⟨l, nodup⟩ := d
  change l.lookup k = some a at h
  change (k, a) ∈ l
  clear nodup
  induction l with
  | nil => cases h
  | cons e rest ih =>
      rw [lookup_cons] at h
      by_cases hk : k = e.1
      · subst hk
        obtain rfl : e.2 = a := by simpa using h
        exact List.mem_cons_self
      · exact List.mem_cons_of_mem _ (ih (by simpa [hk] using h))

theorem get?_eq_some {d : OrderedDict α} {k : String} {a : α} :
    d.get? k = some a ↔ (k, a) ∈ d.entries :=
  ⟨mem_of_get?, get?_of_mem⟩

theorem mem_keys {d : OrderedDict α} {k : String} :
    k ∈ d.entries.map Prod.fst ↔ d.get? k ≠ none := by
  rw [ne_eq, Option.eq_none_iff_forall_not_mem]
  constructor
  · intro h hnone
    obtain ⟨e, he, rfl⟩ := List.mem_map.mp h
    exact hnone e.2 (get?_of_mem he)
  · intro h
    by_contra hk
    refine h fun a ha ↦ hk ?_
    exact List.mem_map_of_mem (f := Prod.fst) (mem_of_get? ha)

/-! ## Folds -/

/-- A fold that inserts what `f` gives for each entry, read at one key. -/
theorem get?_foldl_insert {f : α → β} {l : List (String × α)} (hl : (l.map Prod.fst).Nodup)
    (d : OrderedDict β) (k : String) :
    (l.foldl (fun d e ↦ d.insert e.1 (f e.2)) d).get? k =
      ((l.lookup k).map f).or (d.get? k) := by
  induction l generalizing d with
  | nil => simp
  | cons e rest ih =>
      obtain ⟨hhead, hrest⟩ := List.nodup_cons.mp hl
      rw [List.foldl_cons, ih hrest, get?_insert, lookup_cons]
      by_cases hk : k = e.1
      · subst hk
        have hnone : rest.lookup e.1 = none := by
          rw [List.lookup_eq_none_iff]
          intro p hp
          simp only [bne_iff_ne, ne_eq]
          rintro heq
          exact hhead (List.mem_map.mpr ⟨p, hp, heq.symm⟩)
        simp [hnone]
      · simp [hk]

/-! ## Maps -/

/-- Map the values. -/
def map (f : α → β) (d : OrderedDict α) : OrderedDict β where
  entries := d.entries.map fun e ↦ (e.1, f e.2)
  nodup := by
    have hkeys : (d.entries.map fun e ↦ (e.1, f e.2)).map Prod.fst = d.entries.map Prod.fst := by
      rw [List.map_map]
      rfl
    rw [hkeys]
    exact d.nodup

theorem entries_map (f : α → β) (d : OrderedDict α) :
    (d.map f).entries = d.entries.map fun e ↦ (e.1, f e.2) := rfl

@[simp] theorem get?_map (f : α → β) (d : OrderedDict α) (k : String) :
    (d.map f).get? k = (d.get? k).map f := by
  rw [get?, entries_map, get?]
  induction d.entries with
  | nil => rfl
  | cons e rest ih =>
      rw [List.map_cons, lookup_cons, lookup_cons, ih]
      by_cases hk : k = e.1
      · rw [if_pos hk, if_pos hk, Option.map_some]
      · rw [if_neg hk, if_neg hk]

theorem map_map {γ : Type w} (g : β → γ) (f : α → β) (d : OrderedDict α) :
    (d.map f).map g = d.map (g ∘ f) :=
  ext (List.map_map ..)

theorem map_id (d : OrderedDict α) : d.map id = d := ext (List.map_id _)

/-- Two dictionaries with the same keys and related values, in whatever order. -/
def sameBy (same : α → β → Bool) (d : OrderedDict α) (e : OrderedDict β) : Bool :=
  d.entries.length = e.entries.length &&
    d.entries.all fun p ↦ ((e.get? p.1).map (same p.2)).getD false

theorem sameBy_self {same : α → α → Bool} (h : ∀ a, same a a = true) (d : OrderedDict α) :
    d.sameBy same d = true := by
  rw [sameBy, Bool.and_eq_true]
  refine ⟨decide_eq_true rfl, List.all_eq_true.mpr fun p hp ↦ ?_⟩
  rw [get?_of_mem (k := p.1) (a := p.2) hp]
  exact h p.2

end OrderedDict

import Blackbase.Core.Rows

/-!
# Key families with a set of members

The layout programs use for a table in a key-value store: one key for each record,
and a set of the ids under which a record is stored.  `Keyspace.listed` reads the
members back as a table of rows; on a well-formed key space every write is the
corresponding write on these rows, so that what is known of `Rows` applies.

The members are a list without repetitions.  A store returns them in no particular
order; what is proved here does not depend on it.
-/

universe u v

/-- The members of an id set and the records stored under the keys of a family. -/
structure Keyspace (κ : Type u) (ρ : Type v) where
  members : List κ
  get : κ → Option ρ

namespace Keyspace

variable {κ : Type u} {ρ : Type v} [DecidableEq κ] {key : ρ → κ}

/-- No key is set. -/
def empty : Keyspace κ ρ := ⟨[], fun _ ↦ none⟩

/-- Write the key of `k`. -/
def set (s : Keyspace κ ρ) (k : κ) (r : ρ) : Keyspace κ ρ :=
  { s with get := Function.update s.get k (some r) }

/-- Add `k` to the members. -/
def add (s : Keyspace κ ρ) (k : κ) : Keyspace κ ρ :=
  { s with members := if k ∈ s.members then s.members else s.members ++ [k] }

/-- The records of all members. -/
def listed (s : Keyspace κ ρ) : List ρ := s.members.filterMap s.get

/-- The members are exactly the ids under which a record is stored, and a record is
stored under its own key. -/
structure Wf (key : ρ → κ) (s : Keyspace κ ρ) : Prop where
  nodup : s.members.Nodup
  stored : ∀ k ∈ s.members, ∃ r, s.get k = some r
  member : ∀ k r, s.get k = some r → k ∈ s.members
  keyed : ∀ k r, s.get k = some r → key r = k

omit [DecidableEq κ] in
theorem wf_empty : (empty : Keyspace κ ρ).Wf key := by
  constructor <;> simp [empty]

@[simp] theorem set_get_self (s : Keyspace κ ρ) (k : κ) (r : ρ) : (s.set k r).get k = some r := by
  simp [set]

theorem set_get_ne (s : Keyspace κ ρ) {k k' : κ} (r : ρ) (h : k' ≠ k) :
    (s.set k r).get k' = s.get k' := by
  simp [set, h]

@[simp] theorem set_members (s : Keyspace κ ρ) (k : κ) (r : ρ) :
    (s.set k r).members = s.members := rfl

@[simp] theorem add_get (s : Keyspace κ ρ) (k : κ) : (s.add k).get = s.get := rfl

/-! ## Reading -/

section Wf

variable {s : Keyspace κ ρ} (hs : s.Wf key)

include hs

omit [DecidableEq κ] in
theorem Wf.map_key : s.listed.map key = s.members := by
  rw [listed, List.map_filterMap]
  calc _ = s.members.filterMap some := by
        refine List.filterMap_congr fun k hk ↦ ?_
        obtain ⟨r, hr⟩ := hs.stored k hk
        rw [hr, Option.map_some, hs.keyed k r hr]
    _ = s.members := List.filterMap_some

omit [DecidableEq κ] in
theorem Wf.unique : Rows.Unique key s.listed := by
  rw [Rows.Unique, hs.map_key]
  exact hs.nodup

omit [DecidableEq κ] in
theorem Wf.mem_listed {r : ρ} : r ∈ s.listed ↔ s.get (key r) = some r := by
  rw [listed, List.mem_filterMap]
  constructor
  · rintro ⟨k, -, hk⟩
    rwa [hs.keyed k r hk]
  · exact fun h ↦ ⟨_, hs.member _ r h, h⟩

/-- Reading a key is a lookup among the rows. -/
theorem Wf.get_eq (k : κ) : s.get k = Rows.lookup key k s.listed := by
  cases h : s.get k with
  | none =>
      refine (Rows.lookup_eq_none.mpr fun r hr hk ↦ ?_).symm
      rw [← hk, hs.mem_listed.mp hr] at h
      cases h
  | some r =>
      obtain rfl := hs.keyed k r h
      exact (Rows.lookup_of_mem hs.unique (hs.mem_listed.mpr h)).symm

omit [DecidableEq κ] in
theorem Wf.notMem {k : κ} (h : s.get k = none) : k ∉ s.members := by
  intro hk
  obtain ⟨r, hr⟩ := hs.stored k hk
  rw [h] at hr
  cases hr

/-! ## Writing -/

/-- Overwriting a stored record. -/
theorem Wf.set {k : κ} {r r' : ρ} (hr : s.get k = some r) (hk : key r' = k) :
    (s.set k r').Wf key where
  nodup := hs.nodup
  stored k' hk' := by
    by_cases h : k' = k
    · exact ⟨r', by simp [h]⟩
    · rw [set_get_ne s r' h]
      exact hs.stored k' hk'
  member k' x hx := by
    by_cases h : k' = k
    · exact h ▸ hs.member k r hr
    · rw [set_get_ne s r' h] at hx
      exact hs.member k' x hx
  keyed k' x hx := by
    by_cases h : k' = k
    · rw [h, set_get_self] at hx
      obtain rfl := Option.some.inj hx
      exact hk.trans h.symm
    · rw [set_get_ne s r' h] at hx
      exact hs.keyed k' x hx

/-- Overwriting a stored record is an update of its row. -/
theorem Wf.listed_set {k : κ} {r : ρ} (f : ρ → ρ) (hr : s.get k = some r) :
    (s.set k (f r)).listed = Rows.update key k f s.listed := by
  rw [listed, listed, Rows.update, List.map_filterMap]
  refine List.filterMap_congr fun k' hk' ↦ ?_
  obtain ⟨x, hx⟩ := hs.stored k' hk'
  by_cases h : k' = k
  · subst h
    obtain rfl : r = x := Option.some.inj (hr.symm.trans hx)
    simp [hr, hs.keyed k' r hr]
  · simp [set_get_ne s _ h, hx, hs.keyed k' x hx, h]

/-- Storing a record under a fresh id. -/
theorem Wf.insert {r : ρ} (hfresh : s.get (key r) = none) :
    ((s.set (key r) r).add (key r)).Wf key := by
  have hnot := hs.notMem hfresh
  have hmembers : ((s.set (key r) r).add (key r)).members = s.members ++ [key r] := by
    simp [add, hnot]
  constructor
  · rw [hmembers]
    exact List.Nodup.append hs.nodup (List.nodup_singleton _) (by simpa using hnot)
  · intro k hk
    rw [hmembers, List.mem_append, List.mem_singleton] at hk
    by_cases h : k = key r
    · exact ⟨r, by simp [h]⟩
    · rw [add_get, set_get_ne s r h]
      exact hs.stored k (hk.resolve_right h)
  · intro k x hx
    rw [hmembers, List.mem_append, List.mem_singleton]
    by_cases h : k = key r
    · exact .inr h
    · rw [add_get, set_get_ne s r h] at hx
      exact .inl (hs.member k x hx)
  · intro k x hx
    by_cases h : k = key r
    · rw [h, add_get, set_get_self] at hx
      obtain rfl := Option.some.inj hx
      exact h.symm
    · rw [add_get, set_get_ne s r h] at hx
      exact hs.keyed k x hx

theorem Wf.listed_insert {r : ρ} (hfresh : s.get (key r) = none) :
    ((s.set (key r) r).add (key r)).listed = s.listed ++ [r] := by
  have hnot := hs.notMem hfresh
  have hmembers : ((s.set (key r) r).add (key r)).members = s.members ++ [key r] := by
    simp [add, hnot]
  rw [listed, hmembers, List.filterMap_append, listed]
  congr 1
  · refine List.filterMap_congr fun k hk ↦ ?_
    have hne : k ≠ key r := fun h ↦ hnot (h ▸ hk)
    rw [add_get, set_get_ne s r hne]
  · simp

/-- Storing a record under an id that is already there overwrites it. -/
theorem Wf.add_of_stored {k : κ} {r r' : ρ} (hr : s.get k = some r) :
    (s.set k r').add k = s.set k r' := by
  simp [add, Keyspace.set, hs.member k r hr]

/-- Storing a record replaces whatever is stored under its id. -/
theorem Wf.put (r : ρ) : ((s.set (key r) r).add (key r)).Wf key ∧
    ((s.set (key r) r).add (key r)).listed.Perm
      ((s.listed.filter fun x ↦ key x ≠ key r) ++ [r]) := by
  cases h : s.get (key r) with
  | none =>
      have hkeep : (s.listed.filter fun x ↦ key x ≠ key r) = s.listed := by
        refine List.filter_eq_self.mpr fun x hx ↦ ?_
        rw [hs.get_eq] at h
        simpa using Rows.lookup_eq_none.mp h x hx
      rw [hs.listed_insert h, hkeep]
      exact ⟨hs.insert h, .refl _⟩
  | some a =>
      have hrow := h
      rw [hs.get_eq] at hrow
      rw [hs.add_of_stored h, hs.listed_set (fun _ ↦ r) h]
      exact ⟨hs.set h rfl, Rows.update_const_perm hs.unique hrow⟩

end Wf

/-- Rewriting some of the stored records one after the other rewrites their rows. -/
theorem Wf.foldl_set {f : ρ → ρ} (hf : ∀ r, key (f r) = key r) {rows : List ρ}
    (hrows : Rows.Unique key rows) {s : Keyspace κ ρ} (hs : s.Wf key)
    (hmem : ∀ r ∈ rows, s.get (key r) = some r) :
    (rows.foldl (fun s r ↦ s.set (key r) (f r)) s).Wf key ∧
      (rows.foldl (fun s r ↦ s.set (key r) (f r)) s).listed =
        s.listed.map fun r ↦ if key r ∈ rows.map key then f r else r := by
  induction rows generalizing s with
  | nil => exact ⟨hs, by simp⟩
  | cons a rows ih =>
      have hu : key a ∉ rows.map key ∧ Rows.Unique key rows := by
        simpa [Rows.Unique, List.nodup_cons] using hrows
      have ha := hmem a List.mem_cons_self
      have hs' := hs.set ha (hf a)
      obtain ⟨hwf, hlisted⟩ := ih hu.2 hs' fun r hr ↦ by
        have hne : key r ≠ key a := fun h ↦ hu.1 (h ▸ List.mem_map_of_mem hr)
        rw [set_get_ne s _ hne]
        exact hmem r (List.mem_cons_of_mem a hr)
      refine ⟨hwf, hlisted.trans ?_⟩
      rw [hs.listed_set f ha, Rows.update, List.map_map]
      refine List.map_congr_left fun r _ ↦ ?_
      rw [Function.comp_apply, List.map_cons]
      by_cases h : key r = key a
      · rw [if_pos h, hf, h, if_neg hu.1, if_pos List.mem_cons_self]
      · simp only [List.mem_cons, h, false_or, ↓reduceIte]

/-- Rewriting the records that satisfy `p`, one key after the other in any order. -/
theorem Wf.sweep {f : ρ → ρ} (hf : ∀ r, key (f r) = key r) {s : Keyspace κ ρ} (hs : s.Wf key)
    {p : ρ → Bool} {rows : List ρ} (hrows : rows.Perm (s.listed.filter p)) :
    (rows.foldl (fun s r ↦ s.set (key r) (f r)) s).Wf key ∧
      (rows.foldl (fun s r ↦ s.set (key r) (f r)) s).listed =
        s.listed.map fun r ↦ if p r then f r else r := by
  have hunique : Rows.Unique key rows := (hrows.map key).nodup_iff.mpr (hs.unique.filter p)
  obtain ⟨hwf, hlisted⟩ := Wf.foldl_set hf hunique hs fun r hr ↦
    hs.mem_listed.mp (List.mem_of_mem_filter (hrows.subset hr))
  refine ⟨hwf, hlisted.trans (List.map_congr_left fun r hr ↦ ?_)⟩
  have hiff : key r ∈ rows.map key ↔ p r := by
    rw [List.mem_map]
    constructor
    · rintro ⟨a, ha, hk⟩
      obtain ⟨ha, hpa⟩ := List.mem_filter.mp (hrows.subset ha)
      have h := hs.mem_listed.mp ha
      rw [hk, hs.mem_listed.mp hr] at h
      obtain rfl := Option.some.inj h
      exact hpa
    · exact fun hp ↦ ⟨r, hrows.symm.subset (List.mem_filter.mpr ⟨hr, hp⟩), rfl⟩
  simp only [hiff]

end Keyspace

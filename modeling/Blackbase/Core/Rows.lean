import Mathlib

/-!
# Keyed rows

A table is a list of rows together with the function reading a row's primary
key.  The list keeps the order in which the rows were inserted; the key is
unique in every table a program builds through `Rows.update` and through
appending a row under a fresh key, which is what `Rows.Unique` records.

Only what the proofs over such tables need is here: how a lookup sees an update
and an insertion, that both keep the key unique, and what they do to a sum taken
over the whole table.
-/

universe u v

namespace Rows

variable {κ : Type u} {ρ : Type v} [DecidableEq κ] (key : ρ → κ)

/-- The row stored under `k`. -/
def lookup (k : κ) (rows : List ρ) : Option ρ := rows.find? fun r ↦ key r = k

/-- Rewrite the row stored under `k`; the other rows are left alone. -/
def update (k : κ) (f : ρ → ρ) (rows : List ρ) : List ρ :=
  rows.map fun r ↦ if key r = k then f r else r

/-- No two rows share a key. -/
def Unique (rows : List ρ) : Prop := (rows.map key).Nodup

variable {key}

@[simp] theorem lookup_nil (k : κ) : lookup key k [] = none := rfl

theorem lookup_cons (k : κ) (r : ρ) (rows : List ρ) :
    lookup key k (r :: rows) = if key r = k then some r else lookup key k rows := by
  by_cases h : key r = k <;> simp [lookup, h]

theorem key_of_lookup {k : κ} {rows : List ρ} {r : ρ} (h : lookup key k rows = some r) :
    key r = k := by
  simpa using List.find?_some h

theorem mem_of_lookup {k : κ} {rows : List ρ} {r : ρ} (h : lookup key k rows = some r) :
    r ∈ rows := List.mem_of_find?_eq_some h

theorem lookup_eq_none {k : κ} {rows : List ρ} :
    lookup key k rows = none ↔ ∀ r ∈ rows, key r ≠ k := by
  simp [lookup]

/-- Under a unique key, the rows of a table are exactly what its lookups find. -/
theorem lookup_of_mem {rows : List ρ} (hu : Unique key rows) {r : ρ} (hr : r ∈ rows) :
    lookup key (key r) rows = some r := by
  induction rows with
  | nil => cases hr
  | cons a rows ih =>
      rw [lookup_cons]
      have hu' : key a ∉ rows.map key ∧ Unique key rows := by
        simpa [Unique, List.nodup_cons] using hu
      rcases List.mem_cons.mp hr with rfl | hr
      · simp
      · have hne : key a ≠ key r := fun he ↦ hu'.1 (he ▸ List.mem_map_of_mem hr)
        rw [if_neg hne, ih hu'.2 hr]

/-- Rows that share their key are the same row. -/
theorem Unique.eq_of_key {rows : List ρ} (hu : Unique key rows) {r r' : ρ} (hr : r ∈ rows)
    (hr' : r' ∈ rows) (hkey : key r = key r') : r = r' := by
  have h := lookup_of_mem hu hr
  rw [hkey, lookup_of_mem hu hr'] at h
  exact (Option.some.inj h).symm

/-! ## Insertion -/

theorem lookup_append (k : κ) (rows : List ρ) (r : ρ) :
    lookup key k (rows ++ [r]) =
      (lookup key k rows).or (if key r = k then some r else none) := by
  induction rows with
  | nil => simp [lookup_cons]
  | cons a rows ih =>
      rw [List.cons_append, lookup_cons, lookup_cons, ih]
      split <;> simp

theorem Unique.append {rows : List ρ} (hu : Unique key rows) {r : ρ}
    (hr : lookup key (key r) rows = none) : Unique key (rows ++ [r]) := by
  rw [lookup_eq_none] at hr
  simp only [Unique, List.map_append, List.map_cons, List.map_nil]
  refine List.Nodup.append hu (List.nodup_singleton _) ?_
  intro k hk hk'
  obtain ⟨a, ha, rfl⟩ := List.mem_map.mp hk
  exact hr a ha (List.mem_singleton.mp hk')

/-! ## Update -/

theorem lookup_update {k k' : κ} {f : ρ → ρ} (hf : ∀ r, key r = k → key (f r) = k)
    (rows : List ρ) :
    lookup key k' (update key k f rows) =
      if k' = k then (lookup key k' rows).map f else lookup key k' rows := by
  induction rows with
  | nil => simp [update]
  | cons a rows ih =>
      have hcons : update key k f (a :: rows) =
          (if key a = k then f a else a) :: update key k f rows := rfl
      rw [hcons, lookup_cons, lookup_cons, ih]
      by_cases ha : key a = k
      · by_cases hk : k' = k
        · simp [ha, hf a ha, hk]
        · simp [ha, hf a ha, hk, Ne.symm hk]
      · by_cases hk : k' = k
        · simp [ha, hk]
        · simp [ha, hk]

omit [DecidableEq κ] in
theorem map_key_map {f : ρ → ρ} (hf : ∀ r, key (f r) = key r) (rows : List ρ) :
    (rows.map f).map key = rows.map key := by
  simp [hf]

theorem map_key_update {k : κ} {f : ρ → ρ} (hf : ∀ r, key r = k → key (f r) = k)
    (rows : List ρ) : (update key k f rows).map key = rows.map key := by
  refine map_key_map (fun r ↦ ?_) rows
  split
  · next h => rw [hf r h, h]
  · rfl

theorem Unique.update {rows : List ρ} (hu : Unique key rows) {k : κ} {f : ρ → ρ}
    (hf : ∀ r, key r = k → key (f r) = k) : Unique key (update key k f rows) := by
  rw [Unique, map_key_update hf]
  exact hu

omit [DecidableEq κ] in
theorem Unique.map {rows : List ρ} (hu : Unique key rows) {f : ρ → ρ}
    (hf : ∀ r, key (f r) = key r) : Unique key (rows.map f) := by
  rw [Unique, map_key_map hf]
  exact hu

/-- A lookup commutes with a rewrite of every row that keeps the keys. -/
theorem lookup_map {f : ρ → ρ} (hf : ∀ r, key (f r) = key r) (k : κ) (rows : List ρ) :
    lookup key k (rows.map f) = (lookup key k rows).map f := by
  induction rows with
  | nil => rfl
  | cons a rows ih =>
      rw [List.map_cons, lookup_cons, lookup_cons, hf, ih]
      split <;> rfl

/-- An update under a key the table does not hold changes nothing. -/
theorem update_of_lookup_eq_none {k : κ} {f : ρ → ρ} {rows : List ρ}
    (h : lookup key k rows = none) : update key k f rows = rows := by
  rw [lookup_eq_none] at h
  calc update key k f rows = rows.map id :=
        List.map_congr_left fun r hr ↦ by simp [h r hr]
    _ = rows := List.map_id rows

/-- An update only depends on what it does to the row it finds. -/
theorem update_congr {k : κ} {f g : ρ → ρ} {rows : List ρ} (hu : Unique key rows) {r : ρ}
    (hr : lookup key k rows = some r) (hfg : f r = g r) :
    update key k f rows = update key k g rows := by
  refine List.map_congr_left fun a ha ↦ ?_
  split
  · next hk =>
      have ha' := lookup_of_mem hu ha
      rw [hk] at ha'
      obtain rfl : r = a := Option.some.inj (hr.symm.trans ha')
      exact hfg
  · rfl

/-- An update only rewrites the row it finds, so only that row's key matters. -/
theorem Unique.update_row {rows : List ρ} (hu : Unique key rows) {k : κ} {f : ρ → ρ} {r : ρ}
    (hr : lookup key k rows = some r) (hf : key (f r) = k) :
    Unique key (Rows.update key k f rows) := by
  have hconst : Rows.update key k f rows = Rows.update key k (fun _ ↦ f r) rows :=
    update_congr hu hr rfl
  rw [hconst]
  exact hu.update fun _ _ ↦ hf

/-- The rows of an updated table: the rewritten one, and the others as they were. -/
theorem mem_update {k : κ} {f : ρ → ρ} {rows : List ρ} (hu : Unique key rows) {r : ρ}
    (hr : lookup key k rows = some r) {x : ρ} :
    x ∈ update key k f rows ↔ x = f r ∨ x ∈ rows ∧ key x ≠ k := by
  have hfound : ∀ a ∈ rows, key a = k → a = r := by
    intro a ha hk
    have h := lookup_of_mem hu ha
    rw [hk, hr] at h
    exact (Option.some.inj h).symm
  constructor
  · intro hx
    obtain ⟨a, ha, rfl⟩ := List.mem_map.mp hx
    by_cases hk : key a = k
    · rw [if_pos hk, hfound a ha hk]
      exact .inl rfl
    · rw [if_neg hk]
      exact .inr ⟨ha, hk⟩
  · rintro (rfl | ⟨hx, hk⟩)
    · exact List.mem_map.mpr ⟨r, mem_of_lookup hr, if_pos (key_of_lookup hr)⟩
    · exact List.mem_map.mpr ⟨x, hx, if_neg hk⟩

/-- Overwriting a row is dropping it and appending the new one, up to the order. -/
theorem update_const_perm {k : κ} {r : ρ} {rows : List ρ} (hu : Unique key rows) {a : ρ}
    (ha : lookup key k rows = some a) :
    (update key k (fun _ ↦ r) rows).Perm ((rows.filter fun x ↦ key x ≠ k) ++ [r]) := by
  induction rows with
  | nil => cases ha
  | cons b rows ih =>
      have hcons : update key k (fun _ ↦ r) (b :: rows) =
          (if key b = k then r else b) :: update key k (fun _ ↦ r) rows := rfl
      have hu' : key b ∉ rows.map key ∧ Unique key rows := by
        simpa [Unique, List.nodup_cons] using hu
      rw [lookup_cons] at ha
      by_cases hb : key b = k
      · have hnone : lookup key k rows = none := lookup_eq_none.mpr fun x hx he ↦
          hu'.1 (hb ▸ he ▸ List.mem_map_of_mem hx)
        have hfilter : (rows.filter fun x ↦ key x ≠ k) = rows :=
          List.filter_eq_self.mpr fun x hx ↦ by simpa using lookup_eq_none.mp hnone x hx
        have hdrop : ((b :: rows).filter fun x ↦ key x ≠ k) = rows := by
          simpa [List.filter_cons, hb] using hfilter
        rw [hcons, if_pos hb, update_of_lookup_eq_none hnone, hdrop]
        exact (List.perm_append_singleton r rows).symm
      · have hkeep : ((b :: rows).filter fun x ↦ key x ≠ k) =
            b :: rows.filter fun x ↦ key x ≠ k := by
          simp [hb]
        rw [if_neg hb] at ha
        rw [hcons, if_neg hb, hkeep, List.cons_append]
        exact (ih hu'.2 ha).cons b

/-- An update makes at most one more row satisfy a test. -/
theorem countP_update_le {rows : List ρ} (hu : Unique key rows) {k : κ} {f : ρ → ρ} {r : ρ}
    (hr : lookup key k rows = some r) (p : ρ → Bool) :
    (update key k f rows).countP p ≤ rows.countP p + 1 := by
  have hconst : update key k f rows = update key k (fun _ ↦ f r) rows := update_congr hu hr rfl
  rw [hconst, (update_const_perm hu hr).countP_eq, List.countP_append]
  exact Nat.add_le_add List.filter_sublist.countP_le List.countP_le_length

omit [DecidableEq κ] in
theorem Unique.filter {rows : List ρ} (hu : Unique key rows) (p : ρ → Bool) :
    Unique key (rows.filter p) :=
  List.Nodup.sublist (List.filter_sublist.map key) hu

theorem lookup_filter {rows : List ρ} (hu : Unique key rows) (p : ρ → Bool) (k : κ) :
    lookup key k (rows.filter p) = (lookup key k rows).filter p := by
  cases hr : lookup key k rows with
  | none =>
      rw [Option.filter_none, lookup_eq_none]
      exact fun r h ↦ lookup_eq_none.mp hr r (List.mem_of_mem_filter h)
  | some r =>
      obtain rfl := key_of_lookup hr
      have hmem := mem_of_lookup hr
      rw [Option.filter_some]
      split
      · next hp => exact lookup_of_mem (hu.filter p) (List.mem_filter.mpr ⟨hmem, hp⟩)
      · next hp =>
          refine lookup_eq_none.mpr fun a ha hk ↦ hp ?_
          obtain ⟨ha, hpa⟩ := List.mem_filter.mp ha
          have ha' := lookup_of_mem hu ha
          rw [hk, hr] at ha'
          obtain rfl := Option.some.inj ha'
          exact hpa

/-- What an update adds to a sum over the table: the change of the one row it
rewrites. -/
theorem sum_update {k : κ} {f : ρ → ρ} {rows : List ρ} (hu : Unique key rows) {r : ρ}
    (hr : lookup key k rows = some r) (g : ρ → ℤ) :
    ((update key k f rows).map g).sum = (rows.map g).sum + (g (f r) - g r) := by
  induction rows with
  | nil => simp at hr
  | cons a rows ih =>
      have hcons : update key k f (a :: rows) =
          (if key a = k then f a else a) :: update key k f rows := rfl
      have hu' : key a ∉ rows.map key ∧ Unique key rows := by
        simpa [Unique, List.nodup_cons] using hu
      rw [lookup_cons] at hr
      rw [hcons, List.map_cons, List.sum_cons, List.map_cons, List.sum_cons]
      by_cases ha : key a = k
      · rw [if_pos ha] at hr
        obtain rfl : a = r := Option.some.inj hr
        have hnone : lookup key k rows = none := lookup_eq_none.mpr fun b hb he ↦
          hu'.1 (ha ▸ he ▸ List.mem_map_of_mem hb)
        rw [if_pos ha, update_of_lookup_eq_none hnone]
        omega
      · rw [if_neg ha] at hr ⊢
        rw [ih hu'.2 hr]
        omega

/-! ## A declared order of the keys -/

theorem pairwise_idxOf {order : List κ} (h : order.Nodup) :
    order.Pairwise fun k k' ↦ order.idxOf k ≤ order.idxOf k' := by
  rw [List.pairwise_iff_getElem]
  intro i j hi hj hij
  rw [h.idxOf_getElem i hi, h.idxOf_getElem j hj]
  exact hij.le

/-- Rows sorted by a declared order of their keys are what a lookup of each declared key finds. -/
theorem mergeSort_eq_filterMap_lookup {order : List κ} {rows : List ρ} (horder : order.Nodup)
    (hu : Unique key rows) (hmem : ∀ r ∈ rows, key r ∈ order) :
    (rows.mergeSort fun r r' ↦ order.idxOf (key r) ≤ order.idxOf (key r')) =
      order.filterMap fun k ↦ lookup key k rows := by
  have hperm : rows.Perm (order.filterMap fun k ↦ lookup key k rows) := by
    refine (List.perm_ext_iff_of_nodup hu.of_map ?_).mpr fun r ↦ ?_
    · refine horder.filterMap fun k k' r hk hk' ↦ ?_
      exact (key_of_lookup hk).symm.trans (key_of_lookup hk')
    · rw [List.mem_filterMap]
      constructor
      · exact fun hr ↦ ⟨key r, hmem r hr, lookup_of_mem hu hr⟩
      · rintro ⟨k, -, hk⟩
        exact mem_of_lookup hk
  have hsorted : (rows.mergeSort fun r r' ↦ order.idxOf (key r) ≤ order.idxOf (key r')).Pairwise
      fun r r' ↦ order.idxOf (key r) ≤ order.idxOf (key r') := by
    refine (List.pairwise_mergeSort (fun r r' r'' hle hle' ↦ ?_) (fun r r' ↦ ?_) rows).imp
      of_decide_eq_true
    · simp only [decide_eq_true_eq] at *
      exact hle.trans hle'
    · simpa using le_total _ _
  have hdeclared : (order.filterMap fun k ↦ lookup key k rows).Pairwise
      fun r r' ↦ order.idxOf (key r) ≤ order.idxOf (key r') := by
    refine List.pairwise_filterMap.mpr ((pairwise_idxOf horder).imp fun {k k'} hle r hr r' hr' ↦ ?_)
    rw [key_of_lookup hr, key_of_lookup hr']
    exact hle
  refine List.Perm.eq_of_pairwise ?_ hsorted hdeclared ((List.mergeSort_perm _ _).trans hperm)
  intro r r' hr hr' hle hge
  have hr := (List.mergeSort_perm _ _).mem_iff.mp hr
  have hr' := hperm.mem_iff.mpr hr'
  exact hu.eq_of_key hr hr' ((List.idxOf_inj (hmem r hr)).mp (le_antisymm hle hge))

end Rows

import Blackbase.Core.Dict

/-!
# Filling a dictionary

A registration assigns a value to a name, or sets it where the name is free.  What a list of
registrations leaves under a name is read off two values: the last one assigned to it, and where
there is none the first one set.  `lookup_applyAll_iff` compares a dictionary that was filled in
one order with what the same registrations leave in another: `mid` is entered at the end, though
its place is between `before` and `after`.

Reading a dictionary in the order of its names is here too.
-/

universe u

/-- `d[name] = value`, or `d.setdefault(name, value)`. -/
inductive Registration (α : Type u) where
  | assign (name : String) (value : α)
  | setDefault (name : String) (value : α)

namespace Registration

variable {α : Type u}

/-- Enter a registration. -/
def apply (d : Dict α) : Registration α → Dict α
  | assign name value => d.insert name value
  | setDefault name value => if name ∈ d then d else d.insert name value

/-- Enter registrations one after the other. -/
def applyAll (d : Dict α) (rs : List (Registration α)) : Dict α := rs.foldl apply d

/-- The value that is assigned to `name`. -/
def assignment (name : String) : Registration α → Option α
  | assign n v => if n = name then some v else none
  | setDefault _ _ => none

/-- The value that is set under `name`. -/
def default (name : String) : Registration α → Option α
  | assign _ _ => none
  | setDefault n v => if n = name then some v else none

/-- The last value assigned to `name`. -/
def lastAssigned (name : String) (rs : List (Registration α)) : Option α :=
  (rs.filterMap (assignment name)).getLast?

/-- The first value set under `name`. -/
def firstDefault (name : String) (rs : List (Registration α)) : Option α :=
  (rs.filterMap (default name)).head?

/-- What the registrations leave under `name` in an empty dictionary. -/
def resolve (name : String) (rs : List (Registration α)) : Option α :=
  (lastAssigned name rs).or (firstDefault name rs)

variable {name : String} {d : Dict α} {rs ss before mid mid' after : List (Registration α)}

@[simp] theorem lastAssigned_nil : lastAssigned name ([] : List (Registration α)) = none := rfl

@[simp] theorem firstDefault_nil : firstDefault name ([] : List (Registration α)) = none := rfl

theorem lastAssigned_append :
    lastAssigned name (rs ++ ss) = (lastAssigned name ss).or (lastAssigned name rs) := by
  rw [lastAssigned, List.filterMap_append, List.getLast?_append]
  rfl

theorem firstDefault_append :
    firstDefault name (rs ++ ss) = (firstDefault name rs).or (firstDefault name ss) := by
  rw [firstDefault, List.filterMap_append, List.head?_append]
  rfl

theorem lastAssigned_cons (r : Registration α) :
    lastAssigned name (r :: rs) = (lastAssigned name rs).or (assignment name r) := by
  rw [← List.singleton_append, lastAssigned_append]
  cases h : assignment name r <;> simp [lastAssigned, h]

theorem firstDefault_cons (r : Registration α) :
    firstDefault name (r :: rs) = (default name r).or (firstDefault name rs) := by
  rw [← List.singleton_append, firstDefault_append]
  cases h : default name r <;> simp [firstDefault, h]

theorem lookup_apply (r : Registration α) :
    (apply d r).lookup name = (assignment name r).or ((d.lookup name).or (default name r)) := by
  cases r with
  | assign n v =>
      by_cases hn : n = name
      · subst hn
        simp [apply, assignment, default]
      · simp [apply, assignment, default, hn, AList.lookup_insert_ne (Ne.symm hn)]
  | setDefault n v =>
      by_cases hn : n = name
      · subst hn
        by_cases hd : n ∈ d
        · obtain ⟨w, hw⟩ := Dict.mem_iff.mp hd
          simp [apply, assignment, default, hd, hw]
        · simp [apply, assignment, default, hd, AList.lookup_eq_none.mpr hd]
      · by_cases hd : n ∈ d
        · simp [apply, assignment, default, hn, hd]
        · simp [apply, assignment, default, hn, hd, AList.lookup_insert_ne (Ne.symm hn)]

/-- What registrations leave under a name. -/
theorem lookup_applyAll : (applyAll d rs).lookup name =
    (lastAssigned name rs).or ((d.lookup name).or (firstDefault name rs)) := by
  induction rs generalizing d with
  | nil => simp [applyAll]
  | cons r rs ih =>
      have hcons : applyAll d (r :: rs) = applyAll (apply d r) rs := rfl
      rw [hcons, ih, lookup_apply, lastAssigned_cons, firstDefault_cons]
      simp only [Option.or_assoc]

theorem lookup_applyAll_empty : (applyAll ∅ rs).lookup name = resolve name rs := by
  rw [lookup_applyAll]
  rfl

theorem resolve_append_left (h : lastAssigned name (rs ++ ss) = none) :
    resolve name (rs ++ ss) = (firstDefault name rs).or (firstDefault name ss) := by
  rw [resolve, h, firstDefault_append]
  rfl

/-- Two arrangements of the registrations under one entry: they assign the same names, and set each
name to the same value first. -/
structure Rearranged (mid mid' : List (Registration α)) : Prop where
  assigned : ∀ name, lastAssigned name mid' = none ↔ lastAssigned name mid = none
  default : ∀ name, firstDefault name mid' = firstDefault name mid

/-- `mid'` is entered into what `before` and `after` have left, and `mid` between them leaves the
same under `name`, exactly if `after` assigns nothing else to what `mid'` assigns, and sets nothing
else where `mid'` is the first to set a free name. -/
theorem lookup_applyAll_iff (hmid : Rearranged mid mid')
    (hd : d.lookup name = resolve name (before ++ after)) :
    (applyAll d mid').lookup name = resolve name (before ++ mid ++ after) ↔
      (∀ v, lastAssigned name mid' = some v → lastAssigned name (mid ++ after) = some v) ∧
      (lastAssigned name (before ++ mid ++ after) = none → firstDefault name before = none →
        ∀ v w, firstDefault name mid' = some v → firstDefault name after = some w → w = v) := by
  have hset := hmid.default name
  rw [lookup_applyAll, hd]
  cases hassigned : lastAssigned name mid' with
  | some v =>
      have hsome : lastAssigned name (mid ++ after) ≠ none := by
        rw [lastAssigned_append, Ne, Option.or_eq_none_iff]
        rintro ⟨-, hnone⟩
        exact absurd ((hmid.assigned name).mpr hnone) (by simp [hassigned])
      obtain ⟨w, hw⟩ := Option.ne_none_iff_exists'.mp hsome
      have hall : lastAssigned name (before ++ mid ++ after) = some w := by
        rw [List.append_assoc, lastAssigned_append, hw, Option.some_or]
      rw [Option.some_or, resolve, hall, Option.some_or, hw]
      simp [eq_comm]
  | none =>
      have hmidNone := (hmid.assigned name).mp hassigned
      rw [Option.none_or]
      simp only [reduceCtorEq, false_implies, implies_true, true_and]
      have hassign : lastAssigned name (before ++ mid ++ after) =
          lastAssigned name (before ++ after) := by
        simp only [lastAssigned_append, hmidNone, Option.none_or]
      rw [hassign]
      cases hother : lastAssigned name (before ++ after) with
      | some v =>
          rw [resolve, resolve, hassign, hother]
          simp
      | none =>
          rw [resolve_append_left hother, resolve_append_left (hassign.trans hother),
            firstDefault_append, hset]
          cases firstDefault name before <;> cases firstDefault name mid <;>
            cases firstDefault name after <;> simp

/-- Entering `mid'` again, after what was entered resolves as it should. -/
theorem lookup_applyAll_again_iff (hmid : Rearranged mid mid')
    (hd : d.lookup name = resolve name (before ++ mid ++ after)) :
    (applyAll d mid').lookup name = resolve name (before ++ mid ++ after) ↔
      ∀ v, lastAssigned name mid' = some v → lastAssigned name (mid ++ after) = some v := by
  have hset := hmid.default name
  rw [lookup_applyAll, hd]
  cases hassigned : lastAssigned name mid' with
  | some v =>
      have hsome : lastAssigned name (mid ++ after) ≠ none := by
        rw [lastAssigned_append, Ne, Option.or_eq_none_iff]
        rintro ⟨-, hnone⟩
        exact absurd ((hmid.assigned name).mpr hnone) (by simp [hassigned])
      obtain ⟨w, hw⟩ := Option.ne_none_iff_exists'.mp hsome
      have hall : lastAssigned name (before ++ mid ++ after) = some w := by
        rw [List.append_assoc, lastAssigned_append, hw, Option.some_or]
      rw [Option.some_or, resolve, hall, Option.some_or, hw]
      simp [eq_comm]
  | none =>
      rw [Option.none_or, hset, resolve]
      simp only [reduceCtorEq, false_implies, implies_true, iff_true, firstDefault_append]
      cases lastAssigned name (before ++ mid ++ after) <;> cases firstDefault name before <;>
        cases firstDefault name mid <;> simp

end Registration

/-! ## Names in order -/

namespace Dict

variable {α : Type u}

/-- The entries by name. -/
def byName (d : Dict α) : List (Sigma fun _ : String ↦ α) :=
  d.entries.mergeSort fun e f ↦ e.1 ≤ f.1

theorem byName_perm (d : Dict α) : d.byName.Perm d.entries := List.mergeSort_perm _ _

/-- A dictionary as it is read back from a document whose keys are sorted. -/
def sorted (d : Dict α) : Dict α where
  entries := d.byName
  nodupKeys := (List.perm_nodupKeys d.byName_perm).mpr d.nodupKeys

@[simp] theorem lookup_sorted (d : Dict α) (name : String) :
    d.sorted.lookup name = d.lookup name :=
  AList.perm_lookup (show d.sorted.entries.Perm d.entries from d.byName_perm)

theorem sorted_singleton (name : String) (value : α) :
    sorted (AList.singleton name value : Dict α) = (AList.singleton name value : Dict α) :=
  AList.ext (List.mergeSort_singleton _)

theorem mem_entries_sorted {d : Dict α} {e : Sigma fun _ : String ↦ α} :
    e ∈ d.sorted.entries ↔ e ∈ d.entries := d.byName_perm.mem_iff

/-- `d == e`. -/
def Same (d e : Dict α) : Prop := ∀ name, d.lookup name = e.lookup name

theorem same_iff_perm {d e : Dict α} : d.Same e ↔ d.entries.Perm e.entries := by
  constructor
  · intro h
    refine (List.perm_ext_iff_of_nodup d.nodupKeys.nodup e.nodupKeys.nodup).mpr ?_
    rintro ⟨name, value⟩
    rw [mem_entries, mem_entries, h name]
  · intro h name
    exact AList.perm_lookup h

instance [DecidableEq α] (d e : Dict α) : Decidable (d.Same e) :=
  decidable_of_iff _ same_iff_perm.symm

end Dict

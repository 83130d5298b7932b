import Mathlib

/-!
# Choosing by a key

Sorting by a key, and what its first element is: an element whose key is least.  Which element is
chosen, and the whole sorted list, depends on the elements alone and not on the order they are
listed in, as long as no two of them share a key.  Where they do, going through the sorted list up
to a bound ends at the last one listed.
-/

namespace Selection

universe u v

variable {α : Type u} {κ : Type v} [LinearOrder κ] (key : α → κ)

/-- The elements of a list, sorted by their keys. -/
def sorted (l : List α) : List α := l.insertionSort fun a b ↦ key a ≤ key b

theorem sorted_perm (l : List α) : (sorted key l).Perm l := List.perm_insertionSort _ l

theorem pairwise_sorted (l : List α) : (sorted key l).Pairwise fun a b ↦ key a ≤ key b :=
  haveI : Std.Total fun a b : α ↦ key a ≤ key b := ⟨fun a b ↦ le_total (key a) (key b)⟩
  haveI : IsTrans α fun a b : α ↦ key a ≤ key b := ⟨fun _ _ _ ↦ le_trans⟩
  List.pairwise_insertionSort _ l

/-- The keys increase, when no two elements share one. -/
theorem strict_of_nodup {l : List α} (h : (l.map key).Nodup) :
    ((sorted key l).map key).Pairwise (· < ·) := by
  have hnodup : ((sorted key l).map key).Nodup := ((sorted_perm key l).map key).nodup_iff.mpr h
  have hle : ((sorted key l).map key).Pairwise (· ≤ ·) :=
    List.pairwise_map.mpr (pairwise_sorted key l)
  exact (hle.and hnodup).imp fun h ↦ lt_of_le_of_ne h.1 h.2

@[simp] theorem sorted_eq_nil {l : List α} : sorted key l = [] ↔ l = [] := by
  constructor
  · intro h
    have hperm := sorted_perm key l
    rw [h] at hperm
    exact hperm.symm.eq_nil
  · rintro rfl
    rfl

/-- The first of the sorted elements is one with the least key. -/
theorem head_sorted {l rest : List α} {a : α} (h : sorted key l = a :: rest) :
    a ∈ l ∧ ∀ b ∈ l, key a ≤ key b := by
  have hperm := sorted_perm key l
  have hpairwise := pairwise_sorted key l
  rw [h] at hperm hpairwise
  refine ⟨hperm.subset (List.mem_cons_self ..), fun b hb ↦ ?_⟩
  rcases List.mem_cons.mp (hperm.symm.subset hb) with rfl | hrest
  · exact le_rfl
  · exact (List.pairwise_cons.mp hpairwise).1 b hrest

/-- Lists of the same elements are sorted alike, when no two elements share a key. -/
theorem sorted_congr {l l' : List α} (hperm : l.Perm l')
    (hkey : ∀ a ∈ l, ∀ b ∈ l, key a = key b → a = b) : sorted key l = sorted key l' := by
  refine List.Perm.eq_of_pairwise ?_ (pairwise_sorted key l) (pairwise_sorted key l')
    ((sorted_perm key l).trans (hperm.trans (sorted_perm key l').symm))
  intro a b ha hb hab hba
  refine hkey a ((sorted_perm key l).subset ha) b ?_ (le_antisymm hab hba)
  exact hperm.symm.subset ((sorted_perm key l').subset hb)

/-! ## The last within a bound -/

/-- The last of the elements with the greatest key. -/
def lastGreatest : List α → Option α
  | [] => none
  | a :: rest =>
      match lastGreatest rest with
      | none => some a
      | some b => if key a ≤ key b then some b else some a

theorem lastGreatest_map {β : Type*} (f : β → α) (l : List β) :
    lastGreatest key (l.map f) = (lastGreatest (key ∘ f) l).map f := by
  induction l with
  | nil => rfl
  | cons b rest ih =>
      rw [List.map_cons, lastGreatest, lastGreatest, ih]
      rcases lastGreatest (key ∘ f) rest with _ | c
      · rfl
      · simp only [Option.map_some, Function.comp_apply]
        split_ifs <;> rfl

/-- A sorted list is gone through up to the first element beyond a bound; `selected` is the last
one passed. -/
def scan (bound : κ) : Option α → List α → Option α
  | selected, [] => selected
  | selected, a :: rest => if bound < key a then selected else scan bound (some a) rest

theorem scan_of_lt {bound : κ} {selected : Option α} {l : List α} (h : ∀ a ∈ l, bound < key a) :
    scan key bound selected l = selected := by
  cases l with
  | nil => rfl
  | cons a rest => rw [scan, if_pos (h a List.mem_cons_self)]

/-- What was selected before matters only when nothing is passed. -/
theorem scan_selected (bound : κ) (selected : Option α) (l : List α) :
    scan key bound selected l = (scan key bound none l).or selected := by
  induction l generalizing selected with
  | nil => rfl
  | cons a rest ih =>
      by_cases h : bound < key a
      · rw [scan, scan, if_pos h, if_pos h, Option.none_or]
      · rw [scan, scan, if_neg h, if_neg h, ih (some a)]
        cases scan key bound none rest <;> rfl

/-- What is selected has a key that no element of the list in front of it exceeds. -/
theorem le_of_scan {bound : κ} {l : List α} (hl : l.Pairwise fun a b ↦ key a ≤ key b) {a b : α}
    (hscan : scan key bound none l = some b) (ha : ∀ c ∈ l, key a ≤ key c) : key a ≤ key b := by
  induction l with
  | nil => cases hscan
  | cons c rest ih =>
      rw [scan] at hscan
      split_ifs at hscan with hlt
      rw [scan_selected] at hscan
      rcases h : scan key bound none rest with _ | d
      · rw [h] at hscan
        obtain rfl := Option.some.inj hscan
        exact ha c List.mem_cons_self
      · rw [h] at hscan
        obtain rfl := Option.some.inj hscan
        exact ih (List.pairwise_cons.mp hl).2 h fun c' hc' ↦ ha c' (List.mem_cons_of_mem _ hc')

/-- One element more in a sorted list. -/
theorem scan_orderedInsert {bound : κ} {a : α} {l : List α}
    (hl : l.Pairwise fun a b ↦ key a ≤ key b) :
    scan key bound none (l.orderedInsert (fun a b ↦ key a ≤ key b) a) =
      if bound < key a then scan key bound none l
      else match scan key bound none l with
        | none => some a
        | some b => if key a ≤ key b then some b else some a := by
  induction l with
  | nil =>
      rw [List.orderedInsert, scan]
      rfl
  | cons b rest ih =>
      obtain ⟨hb, hrest⟩ := List.pairwise_cons.mp hl
      rw [List.orderedInsert]
      by_cases hab : key a ≤ key b
      · -- the new element stands in front, and nothing behind it has a smaller key
        rw [if_pos hab, scan]
        by_cases ha : bound < key a
        · have hall : ∀ c ∈ b :: rest, bound < key c := by
            intro c hc
            rcases List.mem_cons.mp hc with rfl | hc
            · exact ha.trans_le hab
            · exact ha.trans_le (hab.trans (hb c hc))
          rw [if_pos ha, if_pos ha, scan_of_lt key hall]
        · rw [if_neg ha, if_neg ha, scan_selected]
          rcases h : scan key bound none (b :: rest) with _ | c
          · rfl
          · have hac : key a ≤ key c := by
              refine le_of_scan key hl h fun d hd ↦ ?_
              rcases List.mem_cons.mp hd with rfl | hd
              · exact hab
              · exact hab.trans (hb d hd)
            simp only [if_pos hac]
            rfl
      · have hba : key b ≤ key a := le_of_not_ge hab
        rw [if_neg hab, scan]
        by_cases hbound : bound < key b
        · have ha : bound < key a := hbound.trans_le hba
          rw [if_pos hbound, if_pos ha, scan, if_pos hbound]
        · rw [if_neg hbound, scan_selected, ih hrest, scan, if_neg hbound,
            scan_selected key bound (some b) rest]
          by_cases ha : bound < key a
          · rw [if_pos ha, if_pos ha]
          · rw [if_neg ha, if_neg ha]
            rcases h : scan key bound none rest with _ | c
            · simp only [Option.none_or, if_neg hab]
              rfl
            · simp only [Option.some_or]
              split_ifs <;> rfl

/-- **Going through the sorted elements up to a bound** ends at the last of those with the greatest
key within the bound. -/
theorem scan_sorted (bound : κ) (l : List α) :
    scan key bound none (sorted key l) =
      lastGreatest key (l.filter fun a ↦ decide (key a ≤ bound)) := by
  induction l with
  | nil => rfl
  | cons a rest ih =>
      have hsorted : sorted key (a :: rest) =
          (sorted key rest).orderedInsert (fun a b ↦ key a ≤ key b) a := rfl
      rw [hsorted, scan_orderedInsert key (pairwise_sorted key rest), ih, List.filter_cons]
      by_cases h : bound < key a
      · rw [if_pos h, if_neg (by simpa using h)]
      · rw [if_neg h, if_pos (by simpa using h), lastGreatest]

end Selection

import Blackbase.Core.Text

/-!
# Case folding

Case folding replaces every character by some others.  Its table is a parameter that promises what
the tables of Unicode do: what a character is folded to is not empty and is folded to itself, and
white space stays white space.  Folding twice is folding once, and it commutes with stripping.
-/

namespace Text

universe u v

/-- A table for case folding. -/
structure CaseFolding where
  fold : Char → List Char
  fold_ne_nil : ∀ c, fold c ≠ []
  fold_fold : ∀ c, ∀ d ∈ fold c, fold d = [d]
  isSpace_fold : ∀ c, ∀ d ∈ fold c, isSpace d = isSpace c

/-- The table that only folds the ASCII letters. -/
def CaseFolding.ascii : CaseFolding where
  fold c := [c.toLower]
  fold_ne_nil _ := List.cons_ne_nil _ _
  fold_fold c d hd := by
    obtain rfl := List.mem_singleton.mp hd
    simp
  isSpace_fold c d hd := by
    obtain rfl := List.mem_singleton.mp hd
    exact isSpace_toLower c

/-- Every character of a text is folded. -/
def casefold (F : CaseFolding) (s : String) : String := String.ofList (s.toList.flatMap F.fold)

variable {F : CaseFolding}

@[simp] theorem casefold_casefold (s : String) : casefold F (casefold F s) = casefold F s := by
  have hone : ∀ c, (F.fold c).flatMap F.fold = F.fold c := by
    intro c
    have hmap : (F.fold c).flatMap F.fold = (F.fold c).flatMap fun d ↦ [d] :=
      List.flatMap_congr (F.fold_fold c)
    rw [hmap, List.flatMap_singleton']
  simp only [casefold, String.toList_ofList, List.flatMap_assoc, hone]

theorem casefold_eq_empty {s : String} : casefold F s = "" ↔ s = "" := by
  rw [← String.toList_eq_nil_iff, casefold, String.toList_ofList, List.flatMap_eq_nil_iff,
    ← String.toList_eq_nil_iff]
  constructor
  · intro h
    exact List.eq_nil_iff_forall_not_mem.mpr fun c hc ↦ F.fold_ne_nil c (h c hc)
  · intro h c hc
    rw [h] at hc
    cases hc

/-- What begins the blocks that a test passes is dropped with the blocks. -/
theorem dropWhile_flatMap {α : Type u} {β : Type v} {f : α → List β} {p : β → Bool} {q : α → Bool}
    (hne : ∀ a, f a ≠ []) (hp : ∀ a, ∀ b ∈ f a, p b = q a) (l : List α) :
    (l.flatMap f).dropWhile p = (l.dropWhile q).flatMap f := by
  induction l with
  | nil => rfl
  | cons a rest ih =>
      rw [List.flatMap_cons, List.dropWhile_cons]
      by_cases hq : q a = true
      · have hall : ∀ b ∈ f a, p b = true := fun b hb ↦ (hp a b hb).trans hq
        rw [if_pos hq, List.dropWhile_append_of_pos hall, ih]
      · obtain ⟨b, rest', hcons⟩ := List.exists_cons_of_ne_nil (hne a)
        have hb : ¬ p b = true := by
          rw [hp a b (hcons ▸ List.mem_cons_self)]
          exact hq
        rw [if_neg hq, List.flatMap_cons, hcons, List.cons_append, List.dropWhile_cons_of_neg hb]

theorem strip_casefold (s : String) : strip (casefold F s) = casefold F (strip s) := by
  have hfront := dropWhile_flatMap F.fold_ne_nil F.isSpace_fold s.toList
  have hback := dropWhile_flatMap (f := fun c ↦ (F.fold c).reverse)
    (fun c hnil ↦ F.fold_ne_nil c (List.reverse_eq_nil_iff.mp hnil))
    (fun c d hd ↦ F.isSpace_fold c d (List.mem_reverse.mp hd))
    (s.toList.dropWhile isSpace).reverse
  simp only [strip, casefold, String.toList_ofList, hfront, List.reverse_flatMap]
  rw [show (List.reverse ∘ F.fold) = fun c ↦ (F.fold c).reverse from rfl, hback]
  simp [List.reverse_flatMap, Function.comp_def]

/-- A text is stripped if its folded one is. -/
theorem strip_of_strip_casefold {s : String} (h : strip (casefold F s) = casefold F s) :
    strip s = s := by
  obtain ⟨front, hfront⟩ := List.dropWhile_suffix isSpace (l := s.toList)
  obtain ⟨back, hback⟩ := List.rdropWhile_prefix isSpace (s.toList.dropWhile isSpace)
  rw [← hback, ← toList_strip] at hfront
  -- what is folded from the two ends has no characters, so that they have none
  rw [strip_casefold, ← String.toList_inj, casefold, casefold, String.toList_ofList,
    String.toList_ofList, ← hfront, List.flatMap_append, List.flatMap_append] at h
  have hlength := congrArg List.length h
  rw [List.length_append, List.length_append] at hlength
  have hnil (l : List Char) (hl : (l.flatMap F.fold).length = 0) : l = [] := by
    rw [List.length_eq_zero_iff, List.flatMap_eq_nil_iff] at hl
    exact List.eq_nil_iff_forall_not_mem.mpr fun c hc ↦ F.fold_ne_nil c (hl c hc)
  rw [hnil front (by omega), hnil back (by omega), List.nil_append, List.append_nil] at hfront
  exact String.toList_inj.mp hfront

end Text

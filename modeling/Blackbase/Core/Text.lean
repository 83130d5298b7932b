import Mathlib

/-!
# Text operations

The few string operations the models need, on lists of characters so that they
evaluate: stripping white space from both ends, lower-casing, and the tests for a
prefix and for an infix.
-/

namespace Text

/-- The white space characters removed by a default strip. -/
def isSpace (c : Char) : Bool :=
  c.toNat ∈ [0x09, 0x0a, 0x0b, 0x0c, 0x0d, 0x1c, 0x1d, 0x1e, 0x1f, 0x20, 0x85, 0xa0, 0x1680,
    0x2000, 0x2001, 0x2002, 0x2003, 0x2004, 0x2005, 0x2006, 0x2007, 0x2008, 0x2009, 0x200a,
    0x2028, 0x2029, 0x202f, 0x205f, 0x3000]

/-- Remove white space from both ends. -/
def strip (s : String) : String :=
  String.ofList (((s.toList.dropWhile isSpace).reverse.dropWhile isSpace).reverse)

/-- Lower-case the ASCII letters. -/
def lower (s : String) : String := String.ofList (s.toList.map Char.toLower)

/-- `s` begins with `p`. -/
def startsWith (s p : String) : Bool := p.toList.isPrefixOf s.toList

/-- `p` occurs in `s`. -/
def occursIn (p s : String) : Bool := s.toList.tails.any p.toList.isPrefixOf

theorem toList_strip (s : String) :
    (strip s).toList = (s.toList.dropWhile isSpace).rdropWhile isSpace := by
  simp [strip, List.rdropWhile]

/-- A text that neither begins nor ends with white space is not changed. -/
theorem strip_eq_self {s : String} (hs : ∀ h : s.toList ≠ [], ¬ isSpace (s.toList.head h))
    (he : ∀ h : s.toList ≠ [], ¬ isSpace (s.toList.getLast h)) : strip s = s := by
  have hd : s.toList.dropWhile isSpace = s.toList :=
    List.dropWhile_eq_self_iff.mpr fun hl ↦ by
      simpa [List.head_eq_getElem] using hs (List.ne_nil_of_length_pos hl)
  have hr : s.toList.rdropWhile isSpace = s.toList := List.rdropWhile_eq_self_iff.mpr he
  rw [← String.toList_inj, toList_strip, hd, hr]

/-- Stripping a second time changes nothing. -/
@[simp] theorem strip_strip (s : String) : strip (strip s) = strip s := by
  have key := toList_strip s
  have hprefix : (strip s).toList <+: s.toList.dropWhile isSpace := by
    rw [key]
    exact List.rdropWhile_prefix _ _
  refine strip_eq_self (fun h ↦ ?_) fun h ↦ ?_
  · -- The first character kept is the first one of the text with its front stripped.
    have hne : s.toList.dropWhile isSpace ≠ [] := by
      intro hnil
      rw [hnil] at hprefix
      exact h (List.prefix_nil.mp hprefix)
    rw [List.IsPrefix.head hprefix h]
    exact List.head_dropWhile_not isSpace hne ▸ Bool.false_ne_true
  · have hlast := List.rdropWhile_last_not isSpace (s.toList.dropWhile isSpace) (key ▸ h)
    simpa [key] using hlast

/-! ## Lower case -/

theorem isSpace_of_letter {c : Char} (h : 65 ≤ c.toNat ∧ c.toNat ≤ 122) : isSpace c = false := by
  simp only [isSpace, List.mem_cons, List.not_mem_nil, or_false, decide_eq_false_iff_not]
  omega

/-- White space has no case. -/
theorem isSpace_toLower (c : Char) : isSpace c.toLower = isSpace c := by
  by_cases h : c.isUpper
  · have hrange : 65 ≤ c.toNat ∧ c.toNat ≤ 90 := by
      simpa [Char.isUpper, UInt32.le_iff_toNat_le] using h
    have hvalid : (c.toNat + 32).isValidChar := by left; omega
    have hlow : c.toLower.toNat = c.toNat + 32 := by
      rw [Char.toLower_eq_of_isUpper h, Char.toNat_ofNat, if_pos hvalid]
    rw [isSpace_of_letter (c := c) (by omega), isSpace_of_letter (by omega)]
  · rw [Char.toLower_eq_of_not_isUpper h]

@[simp] theorem lower_lower (s : String) : lower (lower s) = lower s := by
  simp [lower, Function.comp_def]

/-- Stripping and lower-casing commute. -/
theorem strip_lower (s : String) : strip (lower s) = lower (strip s) := by
  have hcomp : isSpace ∘ Char.toLower = isSpace := funext isSpace_toLower
  simp [strip, lower, List.dropWhile_map, hcomp, ← List.map_reverse]

example : strip " shared budget\t" = "shared budget" := by decide
example : occursIn "gpu" (lower "my-GPU") = true := by decide

end Text

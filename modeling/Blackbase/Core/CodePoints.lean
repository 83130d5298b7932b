import Mathlib

/-!
# Texts in which surrogates may stand alone

A text is a list of code points; a surrogate may be one of them, as it may in the strings of some
languages.  Such a text has no encoding as UTF-8 of its own: the encoding that replaces writes a
question mark for every surrogate, and a text is *whole* when there is nothing to replace.
-/

/-- A code point: a scalar value, or a surrogate. -/
inductive CodePoint where
  | scalar (c : Char)
  | surrogate (n : Fin 2048)
deriving DecidableEq

namespace CodePoint

/-- The character that is encoded for a code point. -/
def replaced : CodePoint → Char
  | scalar c => c
  | surrogate _ => '?'

/-- The number of a code point. -/
def toNat : CodePoint → ℕ
  | scalar c => c.toNat
  | surrogate n => 0xd800 + n

def isScalar : CodePoint → Bool
  | scalar _ => true
  | surrogate _ => false

end CodePoint

/-- A text of code points. -/
abbrev PointText := List CodePoint

instance : LawfulBEq PointText := List.instLawfulBEq

namespace PointText

/-- The bytes of characters. -/
def utf8 (cs : List Char) : List UInt8 := cs.flatMap String.utf8EncodeChar

def ofChars (cs : List Char) : PointText := cs.map .scalar

def ofString (s : String) : PointText := ofChars s.toList

/-- The characters that are encoded for a text. -/
def replaced (t : PointText) : List Char := t.map CodePoint.replaced

/-- The encoding that replaces surrogates. -/
def bytes (t : PointText) : List UInt8 := utf8 t.replaced

/-- No surrogate stands alone. -/
def isWhole (t : PointText) : Bool := t.all CodePoint.isScalar

@[simp] theorem replaced_ofChars (cs : List Char) : replaced (ofChars cs) = cs := by
  rw [replaced, ofChars, List.map_map]
  exact List.map_id cs

theorem isWhole_ofChars (cs : List Char) : (ofChars cs).isWhole := by
  simp [isWhole, ofChars, CodePoint.isScalar]

theorem utf8_injective {cs cs' : List Char} (h : utf8 cs = utf8 cs') : cs = cs' := by
  have hbytes : cs.utf8Encode = cs'.utf8Encode := congrArg List.toByteArray h
  have hlists := String.toByteArray_inj.mp
    ((String.toByteArray_ofList (l := cs)).trans
      (hbytes.trans (String.toByteArray_ofList (l := cs')).symm))
  exact String.ofList_injective hlists

/-- A whole text is the text of the characters that are encoded for it. -/
theorem ofChars_replaced {t : PointText} (h : t.isWhole) : ofChars t.replaced = t := by
  induction t with
  | nil => rfl
  | cons p rest ih =>
      rw [isWhole, List.all_cons, Bool.and_eq_true] at h
      cases p with
      | scalar c => exact congrArg (CodePoint.scalar c :: ·) (ih h.2)
      | surrogate n => exact absurd h.1 Bool.false_ne_true

/-- Whole texts with the same bytes are the same. -/
theorem bytes_injective {t t' : PointText} (h : t.isWhole) (h' : t'.isWhole)
    (hbytes : t.bytes = t'.bytes) : t = t' := by
  rw [← ofChars_replaced h, ← ofChars_replaced h', utf8_injective hbytes]

/-- The longest part at the beginning of a text whose bytes are not more than a number. -/
def fitting : ℕ → List Char → List Char
  | _, [] => []
  | n, c :: rest => if c.utf8Size ≤ n then c :: fitting (n - c.utf8Size) rest else []

theorem length_utf8_fitting (n : ℕ) (cs : List Char) : (utf8 (fitting n cs)).length ≤ n := by
  induction cs generalizing n with
  | nil => exact Nat.zero_le n
  | cons c rest ih =>
      unfold fitting
      split
      · next h =>
          have hrest := ih (n - c.utf8Size)
          rw [utf8, List.flatMap_cons, List.length_append, String.length_utf8EncodeChar]
          rw [utf8] at hrest
          omega
      · exact Nat.zero_le n

end PointText

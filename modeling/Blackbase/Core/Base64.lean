import Mathlib.Data.List.Basic

/-!
# Base64

Bytes as text, three bytes in four characters, with `=` for the bytes that are missing in the last
group.  Decoding is strict: it refuses every other character, a group that is not full, and
anything behind the padding.  The bits that the padding leaves unused are not looked at.
-/

namespace Base64

/-! ## Digits -/

/-- The alphabet, in the order of its values. -/
def alphabet : List Char :=
  "ABCDEFGHIJKLMNOPQRSTUVWXYZabcdefghijklmnopqrstuvwxyz0123456789+/".toList

/-- The character of a value below 64. -/
def digit (n : ℕ) : Char := alphabet.getD n '='

/-- The value of a character. -/
def value (c : Char) : Option ℕ := alphabet.idxOf? c

theorem value_digit_all : ∀ n < 64, value (digit n) = some n := by decide +kernel

@[simp] theorem value_digit {n : ℕ} (h : n < 64) : value (digit n) = some n := value_digit_all n h

theorem digit_ne_pad_all : ∀ n < 64, digit n ≠ '=' := by decide +kernel

@[simp] theorem digit_ne_pad {n : ℕ} (h : n < 64) : digit n ≠ '=' := digit_ne_pad_all n h

/-! ## Groups -/

/-- The characters of some bytes. -/
def encodeList : List UInt8 → List Char
  | [] => []
  | [x] => [digit (x.toNat / 4), digit (x.toNat % 4 * 16), '=', '=']
  | [x, y] =>
      [digit (x.toNat / 4), digit (x.toNat % 4 * 16 + y.toNat / 16), digit (y.toNat % 16 * 4), '=']
  | x :: y :: z :: rest =>
      digit (x.toNat / 4) :: digit (x.toNat % 4 * 16 + y.toNat / 16) ::
        digit (y.toNat % 16 * 4 + z.toNat / 64) :: digit (z.toNat % 64) :: encodeList rest

/-- The byte of two values, the second one's upper bits. -/
def first (a b : ℕ) : UInt8 := UInt8.ofNat (a * 4 + b / 16)

/-- The byte in the middle of a group. -/
def second (b c : ℕ) : UInt8 := UInt8.ofNat (b % 16 * 16 + c / 4)

/-- The last byte of a group. -/
def third (c d : ℕ) : UInt8 := UInt8.ofNat (c % 4 * 64 + d)

/-- The bytes of some characters. -/
def decodeList : List Char → Option (List UInt8)
  | [] => some []
  | a :: b :: c :: d :: rest => do
      let a ← value a
      let b ← value b
      if c = '=' then
        if d = '=' ∧ rest = [] then some [first a b] else none
      else
        let c ← value c
        if d = '=' then
          if rest = [] then some [first a b, second b c] else none
        else
          let d ← value d
          let bytes ← decodeList rest
          some (first a b :: second b c :: third c d :: bytes)
  | _ => none

theorem first_digits (x y : UInt8) :
    first (x.toNat / 4) (x.toNat % 4 * 16 + y.toNat / 16) = x := by
  have hx := x.toNat_lt
  have hy := y.toNat_lt
  have h : x.toNat / 4 * 4 + (x.toNat % 4 * 16 + y.toNat / 16) / 16 = x.toNat := by omega
  rw [first, h, UInt8.ofNat_toNat]

theorem first_digits_zero (x : UInt8) : first (x.toNat / 4) (x.toNat % 4 * 16) = x := by
  have hx := x.toNat_lt
  have h : x.toNat / 4 * 4 + x.toNat % 4 * 16 / 16 = x.toNat := by omega
  rw [first, h, UInt8.ofNat_toNat]

theorem second_digits (x y z : UInt8) :
    second (x.toNat % 4 * 16 + y.toNat / 16) (y.toNat % 16 * 4 + z.toNat / 64) = y := by
  have hy := y.toNat_lt
  have hz := z.toNat_lt
  have h : (x.toNat % 4 * 16 + y.toNat / 16) % 16 * 16 +
      (y.toNat % 16 * 4 + z.toNat / 64) / 4 = y.toNat := by omega
  rw [second, h, UInt8.ofNat_toNat]

theorem second_digits_zero (x y : UInt8) :
    second (x.toNat % 4 * 16 + y.toNat / 16) (y.toNat % 16 * 4) = y := by
  have hy := y.toNat_lt
  have h : (x.toNat % 4 * 16 + y.toNat / 16) % 16 * 16 + y.toNat % 16 * 4 / 4 = y.toNat := by
    omega
  rw [second, h, UInt8.ofNat_toNat]

theorem third_digits (y z : UInt8) :
    third (y.toNat % 16 * 4 + z.toNat / 64) (z.toNat % 64) = z := by
  have hz := z.toNat_lt
  have h : (y.toNat % 16 * 4 + z.toNat / 64) % 4 * 64 + z.toNat % 64 = z.toNat := by omega
  rw [third, h, UInt8.ofNat_toNat]

theorem decodeList_encodeList (bytes : List UInt8) :
    decodeList (encodeList bytes) = some bytes := by
  induction bytes using encodeList.induct with
  | case1 => rfl
  | case2 x =>
      have hx := x.toNat_lt
      rw [encodeList, decodeList, value_digit (by omega), value_digit (by omega)]
      simp [first_digits_zero]
  | case3 x y =>
      have hx := x.toNat_lt
      have hy := y.toNat_lt
      rw [encodeList, decodeList, value_digit (by omega), value_digit (by omega),
        value_digit (by omega)]
      simp [digit_ne_pad (show y.toNat % 16 * 4 < 64 by omega), first_digits, second_digits_zero]
  | case4 x y z rest ih =>
      have hx := x.toNat_lt
      have hy := y.toNat_lt
      have hz := z.toNat_lt
      rw [encodeList, decodeList, value_digit (by omega), value_digit (by omega),
        value_digit (by omega), value_digit (by omega), ih]
      simp [digit_ne_pad (show y.toNat % 16 * 4 + z.toNat / 64 < 64 by omega),
        digit_ne_pad (show z.toNat % 64 < 64 by omega), first_digits, second_digits, third_digits]

/-! ## Texts -/

/-- The text of some bytes. -/
def encode (bytes : List UInt8) : String := String.ofList (encodeList bytes)

/-- The bytes of a text. -/
def decode (s : String) : Option (List UInt8) := decodeList s.toList

/-- What was encoded comes back. -/
@[simp] theorem decode_encode (bytes : List UInt8) : decode (encode bytes) = some bytes := by
  rw [decode, encode, String.toList_ofList, decodeList_encodeList]

example : encode [0x62, 0x61, 0x73, 0x65] = "YmFzZQ==" := by decide

end Base64

import Blackbase.Core.Toml.Reading

/-!
# Writing TOML that is read back

One way to write TOML values: strings with the escapes of JSON, arrays and inline tables on one
line.  A value without the character DEL in its strings, whose integers are not too long and whose
tables have no key twice, is read back as it was written.  The proof is an induction on the fuel
of the reader; the text of a value is never shorter than the fuel that reading it takes.
-/

namespace Toml

variable {F : Type}

/-- How floats are read and written.  A float that is written is read back. -/
structure Floats (F : Type) where
  parse : String → F
  text : F → String
  isFloat_text : ∀ x, isFloat (text x).toList
  parse_text : ∀ x, parse (text x) = x

/-! ## Writing -/

/-- A character between quotes. -/
def quoteChar (c : Char) : List Char :=
  if c = '\\' then ['\\', '\\']
  else if c = '"' then ['\\', '"']
  else if c = '\x08' then ['\\', 'b']
  else if c = '\x0c' then ['\\', 'f']
  else if c = '\n' then ['\\', 'n']
  else if c = '\r' then ['\\', 'r']
  else if c = '\t' then ['\\', 't']
  else if c.toNat < 0x20 then
    ['\\', 'u', '0', '0', Nat.digitChar (c.toNat / 16), Nat.digitChar (c.toNat % 16)]
  else [c]

/-- A string in its quotes. -/
def quote (s : String) : List Char := '"' :: (s.toList.flatMap quoteChar ++ ['"'])

/-- Texts with a separator between them. -/
def joinWith (separator : List Char) : List (List Char) → List Char
  | [] => []
  | [t] => t
  | t :: rest => t ++ (separator ++ joinWith separator rest)

def integerText (n : ℤ) : List Char :=
  if n < 0 then '-' :: Nat.toDigits 10 n.natAbs else Nat.toDigits 10 n.natAbs

section Spell

variable (P : Floats F)

mutual

/-- The text of a value. -/
def spell : Value F → List Char
  | .string s => quote s
  | .boolean true => ['t', 'r', 'u', 'e']
  | .boolean false => ['f', 'a', 'l', 's', 'e']
  | .integer n => integerText n
  | .float x => (P.text x).toList
  | .array items => '[' :: (joinWith [',', ' '] (spellItems items) ++ [']'])
  | .table items => '{' :: ' ' :: (joinWith [',', ' '] (spellPairs items) ++ [' ', '}'])

def spellItems : List (Value F) → List (List Char)
  | [] => []
  | v :: rest => spell v :: spellItems rest

def spellPairs : List (String × Value F) → List (List Char)
  | [] => []
  | (k, v) :: rest => (quote k ++ ([' ', '=', ' '] ++ spell v)) :: spellPairs rest

end

end Spell

/-! ## What can be written -/

/-- The one character that may not stand in a string and has no escape. -/
def del : Char := '\x7f'

/-- An integer that is not too long to be read. -/
def Short (n : ℤ) : Prop := (Nat.toDigits 10 n.natAbs).length ≤ digitLimit

mutual

/-- A value that is read back. -/
def Value.Plain : Value F → Prop
  | .string s => del ∉ s.toList
  | .integer n => Short n
  | .boolean _ | .float _ => True
  | .array items => PlainItems items
  | .table items => PlainPairs items

def PlainItems : List (Value F) → Prop
  | [] => True
  | v :: rest => v.Plain ∧ PlainItems rest

def PlainPairs : List (String × Value F) → Prop
  | [] => True
  | (k, v) :: rest => k ∉ rest.map Prod.fst ∧ del ∉ k.toList ∧ v.Plain ∧ PlainPairs rest

end

/-! ## Strings -/

theorem scalar_control : ∀ n < 0x20,
    scalar ['0', '0', Nat.digitChar (n / 16), Nat.digitChar (n % 16)] = some (Char.ofNat n) := by
  decide

theorem stringBody_end (rest : List Char) : stringBody ('"' :: rest) = some ([], rest) := by
  unfold stringBody
  exact if_pos rfl

theorem stringBody_legal {c : Char} (hquote : c ≠ '"') (hback : c ≠ '\\')
    (hlegal : illegal c = false) (rest : List Char) :
    stringBody (c :: rest) = prepend (some c) (stringBody rest) := by
  conv_lhs => unfold stringBody
  rw [if_neg hquote, if_neg hback, hlegal]
  rfl

/-- A character that is written is the next one that is read. -/
theorem stringBody_quoteChar {c : Char} (hc : c ≠ del) (rest : List Char) :
    stringBody (quoteChar c ++ rest) = prepend (some c) (stringBody rest) := by
  unfold quoteChar
  split
  · next h => subst h; simp [stringBody, escaped]
  split
  · next h => subst h; simp [stringBody, escaped]
  split
  · next h => subst h; simp [stringBody, escaped]
  split
  · next h => subst h; simp [stringBody, escaped]
  split
  · next h => subst h; simp [stringBody, escaped]
  split
  · next h => subst h; simp [stringBody, escaped]
  split
  · next h => subst h; simp [stringBody, escaped]
  split
  · next h => simp [stringBody, scalar_control _ h]
  · next hback hquote _ _ _ _ _ hcontrol =>
      have hlegal : illegal c = false := by
        have hdel : c.toNat ≠ 0x7f := by
          intro h
          exact hc (Char.toNat_inj.mp h)
        simp [illegal, hcontrol, hdel]
      exact stringBody_legal hquote hback hlegal rest

/-- No written character begins with a quote. -/
theorem head?_quoteChar (c : Char) : ∃ d rest, quoteChar c = d :: rest ∧ d ≠ '"' := by
  unfold quoteChar
  split
  · exact ⟨_, _, rfl, by decide⟩
  split
  · exact ⟨_, _, rfl, by decide⟩
  split
  · exact ⟨_, _, rfl, by decide⟩
  split
  · exact ⟨_, _, rfl, by decide⟩
  split
  · exact ⟨_, _, rfl, by decide⟩
  split
  · exact ⟨_, _, rfl, by decide⟩
  split
  · exact ⟨_, _, rfl, by decide⟩
  split
  · exact ⟨_, _, rfl, by decide⟩
  · next hquote _ _ _ _ _ _ => exact ⟨c, [], rfl, hquote⟩

theorem stringBody_quoted {s : List Char} (hs : del ∉ s) (rest : List Char) :
    stringBody (s.flatMap quoteChar ++ '"' :: rest) = some (s, rest) := by
  induction s with
  | nil => exact stringBody_end rest
  | cons c s ih =>
      rw [List.mem_cons, not_or] at hs
      rw [List.flatMap_cons, List.append_assoc, stringBody_quoteChar (Ne.symm hs.1), ih hs.2]
      rfl

theorem basicString_quote {s : String} (hs : del ∉ s.toList) (rest : List Char) :
    basicString (quote s ++ rest) = some (s, rest) := by
  have hbody := stringBody_quoted hs rest
  simp only [quote, List.cons_append, List.append_assoc, List.nil_append, basicString, hbody,
    Option.map_some, String.ofList_toList]

theorem key_quote {s : String} (hs : del ∉ s.toList) (rest : List Char) :
    key (quote s ++ rest) = some (s, rest) := by
  have hhead : (quote s ++ rest).head? = some '"' := rfl
  rw [key, if_pos hhead, basicString_quote hs]


/-! ## Values without a mark at their beginning -/

/-- What stands behind a value. -/
def Delimited (rest : List Char) : Prop := ∀ c ∈ rest.head?, c ∈ [',', ']', '}', ' ', '\n']

theorem not_isBareChar_of_delimited {rest : List Char} (h : Delimited rest) :
    ∀ c ∈ rest.head?, isBareChar c = false := by
  intro c hc
  have hmem := h c hc
  simp only [List.mem_cons, List.not_mem_nil, or_false] at hmem
  rcases hmem with rfl | rfl | rfl | rfl | rfl <;> rfl

/-- A run of characters ends where a character of another kind stands. -/
theorem takeWhile_dropWhile_append {p : Char → Bool} {token rest : List Char}
    (htoken : ∀ c ∈ token, p c) (hrest : ∀ c ∈ rest.head?, p c = false) :
    (token ++ rest).takeWhile p = token ∧ (token ++ rest).dropWhile p = rest := by
  have hhead : rest.takeWhile p = [] ∧ rest.dropWhile p = rest := by
    cases rest with
    | nil => exact ⟨rfl, rfl⟩
    | cons c rest =>
        have hc := hrest c rfl
        exact ⟨List.takeWhile_cons_of_neg (by simp [hc]), List.dropWhile_cons_of_neg (by simp [hc])⟩
  rw [List.takeWhile_append_of_pos htoken, List.dropWhile_append_of_pos htoken, hhead.1, hhead.2,
    List.append_nil]
  exact ⟨rfl, rfl⟩

theorem ne_mark_of_isBareChar {c : Char} (h : isBareChar c) : c ≠ '"' ∧ c ≠ '[' ∧ c ≠ '{' := by
  refine ⟨?_, ?_, ?_⟩ <;> rintro rfl <;> exact absurd h (by decide)

theorem value_bare (parseFloat : String → F) {token rest : List Char} (hne : token ≠ [])
    (htoken : ∀ c ∈ token, isBareChar c) (hrest : Delimited rest) (fuel : ℕ) :
    value parseFloat (fuel + 1) (token ++ rest) =
      (bareValue parseFloat token).map fun v ↦ (v, rest) := by
  obtain ⟨htake, hdrop⟩ :=
    takeWhile_dropWhile_append htoken (not_isBareChar_of_delimited hrest)
  cases token with
  | nil => exact absurd rfl hne
  | cons c token =>
      obtain ⟨hquote, hbracket, hbrace⟩ := ne_mark_of_isBareChar (htoken c List.mem_cons_self)
      rw [List.cons_append] at htake hdrop ⊢
      rw [value, if_neg hquote, if_neg hbracket, if_neg hbrace, htake, hdrop]

/-! ## Numbers -/

theorem isBareChar_of_isDigit {c : Char} (h : c.isDigit) : isBareChar c := by
  simp [isBareChar, Char.isAlphanum, h]

theorem isBareChar_of_sign {c : Char} (h : c = '+' ∨ c = '-') : isBareChar c := by
  rcases h with rfl | rfl <;> rfl

/-- What holds of a text without its sign holds of the text. -/
theorem forall_isBareChar_of_unsigned {text : List Char}
    (h : ∀ c ∈ unsigned text, isBareChar c) : ∀ c ∈ text, isBareChar c := by
  unfold unsigned at h
  split at h
  · next rest => exact List.forall_mem_cons.mpr ⟨rfl, h⟩
  · next rest => exact List.forall_mem_cons.mpr ⟨rfl, h⟩
  · exact h

theorem forall_isBareChar_of_dropWhile {text : List Char}
    (h : ∀ c ∈ text.dropWhile Char.isDigit, isBareChar c) : ∀ c ∈ text, isBareChar c := by
  intro c hc
  rw [← List.takeWhile_append_dropWhile (p := Char.isDigit) (l := text), List.mem_append] at hc
  rcases hc with hc | hc
  · exact isBareChar_of_isDigit (List.mem_takeWhile_imp hc)
  · exact h c hc

theorem isBareChar_of_isExponent {text : List Char} (h : isExponent text) :
    ∀ c ∈ text, isBareChar c := by
  cases text with
  | nil => exact fun c hc ↦ absurd hc List.not_mem_nil
  | cons e rest =>
      simp only [isExponent, Bool.and_eq_true, Bool.or_eq_true, beq_iff_eq, List.all_eq_true] at h
      obtain ⟨⟨he, -⟩, hdigits⟩ := h
      refine List.forall_mem_cons.mpr ⟨?_, ?_⟩
      · rcases he with rfl | rfl <;> rfl
      · exact forall_isBareChar_of_unsigned fun c hc ↦ isBareChar_of_isDigit (hdigits c hc)

/-- The text of a float is written without a mark. -/
theorem isBareChar_of_isFloat {text : List Char} (h : isFloat text) : ∀ c ∈ text, isBareChar c := by
  refine forall_isBareChar_of_unsigned ?_
  simp only [isFloat, Bool.or_eq_true, beq_iff_eq, Bool.and_eq_true] at h
  rcases h with (h | h) | ⟨-, h⟩
  · rw [h]
    exact List.all_eq_true.mp rfl
  · rw [h]
    exact List.all_eq_true.mp rfl
  · refine forall_isBareChar_of_dropWhile ?_
    split at h
    · next rest hrest =>
        rw [hrest]
        rw [Bool.and_eq_true] at h
        refine List.forall_mem_cons.mpr ⟨rfl, ?_⟩
        exact forall_isBareChar_of_dropWhile (isBareChar_of_isExponent h.2)
    · rw [Bool.and_eq_true] at h
      exact isBareChar_of_isExponent h.2

/-- A number in front of which nothing is missing does not begin with a zero. -/
theorem head?_toDigits {n : ℕ} (hn : 0 < n) : (Nat.toDigits 10 n).head? ≠ some '0' := by
  induction n using Nat.strong_induction_on with
  | _ n ih =>
    rw [Nat.toDigits_eq_if (by decide)]
    split
    · next hlt =>
        intro h
        rw [List.head?_cons, Option.some.injEq, Nat.digitChar_eq_zero] at h
        exact absurd h hn.ne'
    · next hge =>
        have hdiv : 0 < n / 10 := Nat.div_pos (not_lt.mp hge) (by decide)
        rw [List.head?_append_of_ne_nil _ Nat.toDigits_ne_nil]
        exact ih (n / 10) (Nat.div_lt_self hn (by decide)) hdiv

theorem isDigit_toDigits {n : ℕ} : ∀ c ∈ Nat.toDigits 10 n, c.isDigit :=
  fun _ hc ↦ Nat.isDigit_of_mem_toDigits (by decide) (by decide) hc

theorem isDigits_toDigits (n : ℕ) : isDigits (Nat.toDigits 10 n) := by
  have hlead : (Nat.toDigits 10 n).length = 1 ∨ (Nat.toDigits 10 n).head? ≠ some '0' := by
    rcases Nat.eq_zero_or_pos n with rfl | hn
    · exact .inl rfl
    · exact .inr (head?_toDigits hn)
  simp only [isDigits, Bool.and_eq_true, bne_iff_ne, ne_eq, List.all_eq_true, Bool.or_eq_true,
    beq_iff_eq]
  exact ⟨⟨Nat.toDigits_ne_nil, isDigit_toDigits⟩, hlead⟩

theorem not_sign_of_isDigit {c : Char} (h : c.isDigit) : c ≠ '+' ∧ c ≠ '-' := by
  constructor <;> rintro rfl <;> exact absurd h (by decide)

theorem unsigned_of_head? {text : List Char} (h : ∀ c ∈ text.head?, c.isDigit) :
    unsigned text = text := by
  unfold unsigned
  split
  · exact absurd (h _ rfl) (by decide)
  · exact absurd (h _ rfl) (by decide)
  · rfl

theorem unsigned_toDigits (n : ℕ) : unsigned (Nat.toDigits 10 n) = Nat.toDigits 10 n :=
  unsigned_of_head? fun _ hc ↦ isDigit_toDigits _ (List.mem_of_mem_head? hc)

theorem unsigned_integerText (n : ℤ) : unsigned (integerText n) = Nat.toDigits 10 n.natAbs := by
  unfold integerText
  split
  · rfl
  · exact unsigned_toDigits _

/-- Digits alone are no float. -/
theorem not_isFloat_of_digits {token : List Char} (h : ∀ c ∈ unsigned token, c.isDigit) :
    isFloat token = false := by
  have hdrop : (unsigned token).dropWhile Char.isDigit = [] := List.dropWhile_eq_nil_iff.mpr h
  have hinf : unsigned token ≠ ['i', 'n', 'f'] := by
    intro heq
    exact absurd (h 'i' (heq ▸ List.mem_cons_self)) (by decide)
  have hnan : unsigned token ≠ ['n', 'a', 'n'] := by
    intro heq
    exact absurd (h 'n' (heq ▸ List.mem_cons_self)) (by decide)
  simp [isFloat, hdrop, hinf, hnan]

theorem integerOf_integerText {n : ℤ} (hn : Short n) : integerOf (integerText n) = some n := by
  have hhead : (integerText n).head? = some '-' ↔ n < 0 := by
    unfold integerText
    split
    · next h => simp [h]
    · next h =>
        refine iff_of_false (fun hhead ↦ ?_) h
        exact (not_sign_of_isDigit (isDigit_toDigits _ (List.mem_of_head? hhead))).2 rfl
  have hdigits : isDigits (Nat.toDigits 10 n.natAbs) && decide
      ((Nat.toDigits 10 n.natAbs).length ≤ digitLimit) := by
    rw [Bool.and_eq_true, decide_eq_true_eq]
    exact ⟨isDigits_toDigits _, hn⟩
  rw [integerOf, unsigned_integerText, if_pos hdigits, Nat.ofDigitChars_ten_toDigits]
  dsimp only
  by_cases h : n < 0
  · rw [if_pos (hhead.mpr h)]
    congr 1
    omega
  · rw [if_neg (hhead.not.mpr h)]
    congr 1
    omega

theorem bareValue_integerText (parseFloat : String → F) {n : ℤ} (hn : Short n) :
    bareValue parseFloat (integerText n) = some (.integer n) := by
  have hdigit : ∀ c ∈ unsigned (integerText n), c.isDigit := by
    rw [unsigned_integerText]
    exact isDigit_toDigits
  have htrue : integerText n ≠ ['t', 'r', 'u', 'e'] := by
    intro h
    exact absurd (hdigit 't' (h ▸ List.mem_cons_self)) (by decide)
  have hfalse : integerText n ≠ ['f', 'a', 'l', 's', 'e'] := by
    intro h
    exact absurd (hdigit 'f' (h ▸ List.mem_cons_self)) (by decide)
  rw [bareValue, if_neg htrue, if_neg hfalse, not_isFloat_of_digits hdigit, if_neg (by decide),
    integerOf_integerText hn]
  rfl

theorem bareValue_float (parseFloat : String → F) {token : List Char} (h : isFloat token) :
    bareValue parseFloat token = some (.float (parseFloat (String.ofList token))) := by
  have htrue : token ≠ ['t', 'r', 'u', 'e'] := by
    rintro rfl
    exact absurd h (by decide)
  have hfalse : token ≠ ['f', 'a', 'l', 's', 'e'] := by
    rintro rfl
    exact absurd h (by decide)
  rw [bareValue, if_neg htrue, if_neg hfalse, if_pos h]

/-! ## Values -/

theorem isBareChar_integerText (n : ℤ) : ∀ c ∈ integerText n, isBareChar c := by
  refine forall_isBareChar_of_unsigned ?_
  rw [unsigned_integerText]
  exact fun c hc ↦ isBareChar_of_isDigit (isDigit_toDigits c hc)

theorem integerText_ne_nil (n : ℤ) : integerText n ≠ [] := by
  unfold integerText
  split
  · exact List.cons_ne_nil _ _
  · exact Nat.toDigits_ne_nil

section Reading

variable (P : Floats F)

theorem text_ne_nil (x : F) : (P.text x).toList ≠ [] := by
  intro h
  have hfloat := P.isFloat_text x
  rw [h] at hfloat
  exact absurd hfloat (by decide)

/-- A text that begins with a character that is neither a gap nor the end of an array. -/
def Opens (text : List Char) : Prop := ∃ c rest, text = c :: rest ∧ isGap c = false ∧ c ≠ ']'

theorem Opens.append {text : List Char} (h : Opens text) (rest : List Char) :
    Opens (text ++ rest) := by
  obtain ⟨c, tail, rfl, hgap, hclose⟩ := h
  exact ⟨c, tail ++ rest, rfl, hgap, hclose⟩

theorem Opens.skipGap {text : List Char} (h : Opens text) : skipGap text = text := by
  obtain ⟨c, rest, rfl, hgap, -⟩ := h
  exact List.dropWhile_cons_of_neg (by simp [hgap])

theorem Opens.skipBlanks {text : List Char} (h : Opens text) : skipBlanks text = text := by
  obtain ⟨c, rest, rfl, hgap, -⟩ := h
  rw [isGap, Bool.or_eq_false_iff] at hgap
  exact List.dropWhile_cons_of_neg (by simp [hgap.1])

theorem Opens.head?_ne {text : List Char} (h : Opens text) : text.head? ≠ some ']' := by
  obtain ⟨c, rest, rfl, -, hclose⟩ := h
  rw [List.head?_cons, ne_eq, Option.some.injEq]
  exact hclose

theorem opens_of_isBareChar {text : List Char} (hne : text ≠ [])
    (h : ∀ c ∈ text, isBareChar c) : Opens text := by
  cases text with
  | nil => exact absurd rfl hne
  | cons c rest =>
      have hc := h c List.mem_cons_self
      refine ⟨c, rest, rfl, ?_, ?_⟩
      · by_contra hgap
        rw [Bool.not_eq_false] at hgap
        simp only [isGap, isBlank, Bool.or_eq_true, beq_iff_eq] at hgap
        rcases hgap with (rfl | rfl) | rfl <;> exact absurd hc (by decide)
      · rintro rfl
        exact absurd hc (by decide)

theorem opens_quote (s : String) : Opens (quote s) := ⟨'"', _, rfl, rfl, by decide⟩

theorem opens_spell (v : Value F) : Opens (spell P v) := by
  cases v with
  | string s => exact opens_quote s
  | boolean b => cases b <;> exact ⟨_, _, rfl, rfl, by decide⟩
  | integer n => exact opens_of_isBareChar (integerText_ne_nil n) (isBareChar_integerText n)
  | float x =>
      exact opens_of_isBareChar (text_ne_nil P x) (isBareChar_of_isFloat (P.isFloat_text x))
  | array items => exact ⟨'[', _, rfl, rfl, by decide⟩
  | table items => exact ⟨'{', _, rfl, rfl, by decide⟩

theorem delimited_of_mem {c : Char} (h : c ∈ [',', ']', '}', ' ', '\n']) (rest : List Char) :
    Delimited (c :: rest) := by
  intro d hd
  rw [List.head?_cons, Option.mem_some_iff] at hd
  exact hd ▸ h

/-- The text of a first item and of those behind it. -/
theorem joinWith_cons_append (t : List Char) (rest : List (List Char)) (tail : List Char) :
    joinWith [',', ' '] (t :: rest) ++ tail =
      t ++ if rest = [] then tail else ',' :: ' ' :: (joinWith [',', ' '] rest ++ tail) := by
  cases rest with
  | nil => rfl
  | cons u rest => simp [joinWith]

theorem length_le_joinWith (t : List Char) (rest : List (List Char)) :
    t.length ≤ (joinWith [',', ' '] (t :: rest)).length ∧
      (rest ≠ [] → (joinWith [',', ' '] rest).length + 2 + t.length =
        (joinWith [',', ' '] (t :: rest)).length) := by
  cases rest with
  | nil => exact ⟨le_rfl, fun h ↦ absurd rfl h⟩
  | cons u rest =>
      simp only [joinWith, List.length_append, List.length_cons, List.length_nil]
      exact ⟨by omega, fun _ ↦ by omega⟩

theorem value_string {s : String} (hs : del ∉ s.toList) {rest : List Char} (hrest : Delimited rest)
    (fuel : ℕ) : value P.parse (fuel + 1) (quote s ++ rest) = some (.string s, rest) := by
  have hread := basicString_quote hs rest
  have hquotes : (s.toList.flatMap quoteChar ++ ['"'] ++ rest).take 2 ≠ ['"', '"'] := by
    cases hchars : s.toList with
    | nil =>
        cases rest with
        | nil => exact fun h ↦ absurd h (by simp)
        | cons d rest =>
            intro h
            have hd : d = '"' := by simpa [hchars] using h
            exact absurd (hrest d rfl) (by rw [hd]; decide)
    | cons c cs =>
        obtain ⟨d, tail, hc, hd⟩ := head?_quoteChar c
        intro h
        rw [List.flatMap_cons, hc] at h
        exact hd (by simpa using congrArg List.head? h)
  rw [quote, List.cons_append] at hread ⊢
  rw [value, if_pos rfl, if_neg hquotes, hread]
  rfl

/-! ### Steps of the reader -/

section Steps

variable (parseFloat : String → F) {fuel : ℕ} {text rest tail : List Char} {k : String}
  {v : Value F} {vs : List (Value F)} {items : Table F}

theorem value_array (text : List Char) :
    value parseFloat (fuel + 1) ('[' :: text) =
      (arrayItems parseFloat fuel (skipGap text)).map fun r ↦ (.array r.1, r.2) := by
  rw [value, if_neg (by decide), if_pos rfl]

theorem value_table (h : (skipBlanks text).head? ≠ some '}') :
    value parseFloat (fuel + 1) ('{' :: text) =
      (tableItems parseFloat fuel (skipBlanks text)).map fun r ↦ (.table r.1, r.2) := by
  rw [value, if_neg (by decide), if_neg (by decide), if_pos rfl]
  split
  · next heq =>
      rw [heq] at h
      exact absurd rfl h
  · rfl

variable {parseFloat}

theorem arrayItems_last (hhead : text.head? ≠ some ']')
    (hv : value parseFloat fuel text = some (v, ']' :: rest)) :
    arrayItems parseFloat (fuel + 1) text = some ([v], rest) := by
  rw [arrayItems, if_neg hhead, hv]
  rfl

theorem arrayItems_cons (hhead : text.head? ≠ some ']')
    (hv : value parseFloat fuel text = some (v, ',' :: rest))
    (hvs : arrayItems parseFloat fuel (skipGap rest) = some (vs, tail)) :
    arrayItems parseFloat (fuel + 1) text = some (v :: vs, tail) := by
  have hgap : skipGap (',' :: rest) = ',' :: rest := rfl
  rw [arrayItems, if_neg hhead, hv]
  simp only [Option.bind_eq_bind, Option.bind_some, hgap, hvs]

variable {afterKey afterSign : List Char} (hkey : key text = some (k, afterKey))
  (hsign : skipBlanks afterKey = '=' :: afterSign)

include hkey hsign

theorem tableItems_last
    (hv : value parseFloat fuel (skipBlanks afterSign) = some (v, rest))
    (hend : skipBlanks rest = '}' :: tail) :
    tableItems parseFloat (fuel + 1) text = some ([(k, v)], tail) := by
  rw [tableItems, hkey]
  simp only [Option.bind_eq_bind, Option.bind_some, hsign, hv, hend]

theorem tableItems_cons
    (hv : value parseFloat fuel (skipBlanks afterSign) = some (v, ',' :: rest))
    (hitems : tableItems parseFloat fuel (skipBlanks rest) = some (items, tail))
    (hfresh : k ∉ items.map Prod.fst) :
    tableItems parseFloat (fuel + 1) text = some ((k, v) :: items, tail) := by
  have hcomma : skipBlanks (',' :: rest) = ',' :: rest := rfl
  rw [tableItems, hkey]
  simp only [Option.bind_eq_bind, Option.bind_some, hsign, hv, hcomma, hitems, if_neg hfresh]

end Steps

/-- What reading with some fuel gives on the texts that are short enough for it. -/
structure Reads (fuel : ℕ) : Prop where
  value : ∀ v rest, v.Plain → Delimited rest → (spell P v).length ≤ fuel →
    value P.parse fuel (spell P v ++ rest) = some (v, rest)
  items : ∀ items rest, PlainItems items →
    (joinWith [',', ' '] (spellItems P items)).length + 1 ≤ fuel →
    arrayItems P.parse fuel (joinWith [',', ' '] (spellItems P items) ++ ']' :: rest) =
      some (items, rest)
  pairs : ∀ items rest, items ≠ [] → PlainPairs items →
    (joinWith [',', ' '] (spellPairs P items)).length + 1 ≤ fuel →
    tableItems P.parse fuel (joinWith [',', ' '] (spellPairs P items) ++ ' ' :: '}' :: rest) =
      some (items, rest)

variable {P} {fuel : ℕ}

/-- One more unit of fuel for a value. -/
theorem Reads.value_succ (h : Reads P fuel) {v : Value F} {rest : List Char} (hv : v.Plain)
    (hrest : Delimited rest) (hlen : (spell P v).length ≤ fuel + 1) :
    Toml.value P.parse (fuel + 1) (spell P v ++ rest) = some (v, rest) := by
  cases v with
  | string s => exact value_string P hv hrest fuel
  | boolean b =>
      cases b
      · exact value_bare P.parse (List.cons_ne_nil _ _) (List.all_eq_true.mp rfl) hrest fuel
      · exact value_bare P.parse (List.cons_ne_nil _ _) (List.all_eq_true.mp rfl) hrest fuel
  | integer n =>
      have hbare := value_bare P.parse (integerText_ne_nil n) (isBareChar_integerText n) hrest fuel
      rw [bareValue_integerText P.parse hv] at hbare
      exact hbare
  | float x =>
      have hbare := value_bare P.parse (text_ne_nil P x) (isBareChar_of_isFloat (P.isFloat_text x))
        hrest fuel
      rw [bareValue_float P.parse (P.isFloat_text x), String.ofList_toList, P.parse_text] at hbare
      exact hbare
  | array items =>
      simp only [spell, List.length_cons, List.length_append, List.length_nil] at hlen
      have hgap : skipGap (joinWith [',', ' '] (spellItems P items) ++ ']' :: rest) =
          joinWith [',', ' '] (spellItems P items) ++ ']' :: rest := by
        cases items with
        | nil => rfl
        | cons v items =>
            rw [spellItems, joinWith_cons_append]
            exact ((opens_spell P v).append _).skipGap
      simp only [spell, List.cons_append, List.append_assoc, List.nil_append]
      rw [value_array, hgap, h.items items rest hv (by omega)]
      rfl
  | table items =>
      simp only [spell, List.length_cons, List.length_append, List.length_nil] at hlen
      cases items with
      | nil => rfl
      | cons item items =>
          obtain ⟨k, v⟩ := item
          have hopens : Opens (joinWith [',', ' '] (spellPairs P ((k, v) :: items)) ++
              ' ' :: '}' :: rest) := by
            rw [spellPairs, joinWith_cons_append]
            exact ((opens_quote k).append _).append _
          have hblank : skipBlanks (' ' :: (joinWith [',', ' '] (spellPairs P ((k, v) :: items)) ++
              ' ' :: '}' :: rest)) = joinWith [',', ' '] (spellPairs P ((k, v) :: items)) ++
              ' ' :: '}' :: rest := hopens.skipBlanks
          have hhead : (joinWith [',', ' '] (spellPairs P ((k, v) :: items)) ++
              ' ' :: '}' :: rest).head? ≠ some '}' := by
            rw [spellPairs, joinWith_cons_append]
            exact fun h ↦ absurd (Option.some.inj h) (by decide)
          simp only [spell, List.cons_append, List.append_assoc, List.nil_append]
          rw [value_table P.parse (by rw [hblank]; exact hhead), hblank,
            h.pairs ((k, v) :: items) rest (List.cons_ne_nil _ _) hv (by omega)]
          rfl

theorem Reads.items_succ (h : Reads P fuel) {items : List (Value F)} {rest : List Char}
    (hitems : PlainItems items)
    (hlen : (joinWith [',', ' '] (spellItems P items)).length + 1 ≤ fuel + 1) :
    arrayItems P.parse (fuel + 1) (joinWith [',', ' '] (spellItems P items) ++ ']' :: rest) =
      some (items, rest) := by
  cases items with
  | nil => rfl
  | cons v items =>
      obtain ⟨hv, hitems⟩ := hitems
      obtain ⟨hfirst, hothers⟩ := length_le_joinWith (spell P v) (spellItems P items)
      rw [spellItems] at hlen
      rw [spellItems, joinWith_cons_append]
      cases items with
      | nil =>
          rw [spellItems, if_pos rfl]
          exact arrayItems_last ((opens_spell P v).append _).head?_ne
            (h.value v (']' :: rest) hv (delimited_of_mem (by decide) _) (by omega))
      | cons w items =>
          have hne : spellItems P (w :: items) ≠ [] := List.cons_ne_nil _ _
          have hlen' := hothers hne
          have hgap : skipGap (' ' :: (joinWith [',', ' '] (spellItems P (w :: items)) ++
              ']' :: rest)) = joinWith [',', ' '] (spellItems P (w :: items)) ++ ']' :: rest := by
            rw [spellItems, joinWith_cons_append]
            exact ((opens_spell P w).append _).skipGap
          rw [if_neg hne]
          exact arrayItems_cons ((opens_spell P v).append _).head?_ne
            (h.value v _ hv (delimited_of_mem (by decide) _) (by omega))
            (by rw [hgap]; exact h.items (w :: items) rest hitems (by omega))

theorem Reads.pairs_succ (h : Reads P fuel) {items : List (String × Value F)} {rest : List Char}
    (hne : items ≠ []) (hitems : PlainPairs items)
    (hlen : (joinWith [',', ' '] (spellPairs P items)).length + 1 ≤ fuel + 1) :
    tableItems P.parse (fuel + 1)
      (joinWith [',', ' '] (spellPairs P items) ++ ' ' :: '}' :: rest) = some (items, rest) := by
  cases items with
  | nil => exact absurd rfl hne
  | cons item items =>
      obtain ⟨k, v⟩ := item
      obtain ⟨hfresh, hk, hv, hitems⟩ := hitems
      obtain ⟨hfirst, hothers⟩ :=
        length_le_joinWith (quote k ++ ([' ', '=', ' '] ++ spell P v)) (spellPairs P items)
      simp only [List.length_append, List.length_cons, List.length_nil] at hfirst hothers
      rw [spellPairs] at hlen
      rw [spellPairs, joinWith_cons_append]
      have hblank : ∀ tail, skipBlanks (' ' :: (spell P v ++ tail)) = spell P v ++ tail :=
        fun tail ↦ ((opens_spell P v).append tail).skipBlanks
      cases items with
      | nil =>
          rw [spellPairs, if_pos rfl, List.append_assoc]
          have hread := h.value v (' ' :: '}' :: rest) hv (delimited_of_mem (by decide) _)
            (by omega)
          exact tableItems_last (key_quote hk _) rfl ((hblank _).symm ▸ hread) rfl
      | cons item items =>
          have hne : spellPairs P (item :: items) ≠ [] := List.cons_ne_nil _ _
          have hlen' := hothers hne
          have hcomma : skipBlanks (' ' :: (joinWith [',', ' '] (spellPairs P (item :: items)) ++
              ' ' :: '}' :: rest)) = joinWith [',', ' '] (spellPairs P (item :: items)) ++
              ' ' :: '}' :: rest := by
            rw [spellPairs, joinWith_cons_append]
            exact (((opens_quote item.1).append _).append _).skipBlanks
          rw [if_neg hne, List.append_assoc]
          have hread := h.value v (',' :: ' ' ::
            (joinWith [',', ' '] (spellPairs P (item :: items)) ++ ' ' :: '}' :: rest)) hv
            (delimited_of_mem (by decide) _) (by omega)
          have hmore := h.pairs (item :: items) rest (List.cons_ne_nil _ _) hitems (by omega)
          exact tableItems_cons (key_quote hk _) rfl ((hblank _).symm ▸ hread)
            (by rw [hcomma]; exact hmore) hfresh

variable (P)

theorem reads (fuel : ℕ) : Reads P fuel := by
  induction fuel with
  | zero =>
      refine ⟨fun v rest _ _ hlen ↦ ?_, fun _ _ _ hlen ↦ absurd hlen (by omega),
        fun _ _ _ _ hlen ↦ absurd hlen (by omega)⟩
      obtain ⟨c, tail, hspell, -⟩ := opens_spell P v
      rw [hspell, List.length_cons] at hlen
      exact absurd hlen (by omega)
  | succ fuel ih =>
      exact ⟨fun _ _ hv hrest hlen ↦ ih.value_succ hv hrest hlen,
        fun _ _ hitems hlen ↦ ih.items_succ hitems hlen,
        fun _ _ hne hitems hlen ↦ ih.pairs_succ hne hitems hlen⟩

/-- A value that is written is read back. -/
theorem value_spell {v : Value F} {rest : List Char} (hv : v.Plain) (hrest : Delimited rest) :
    value P.parse ((spell P v ++ rest).length + 1) (spell P v ++ rest) = some (v, rest) := by
  refine (reads P _).value v rest hv hrest ?_
  rw [List.length_append]
  omega

end Reading

end Toml

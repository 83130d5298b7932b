import Mathlib

/-!
# Reading TOML

A reader for a part of TOML: `[[name]]` headers, keys of one part, basic strings of one line,
truth values, decimal integers, floats, arrays and inline tables.  Whatever is outside of this
part, such as comments, dotted keys, dates and literal strings, is refused; what is accepted is
read as TOML reads it.  How the text of a float is rounded is a parameter.

The functions that read take the rest of the text and return what they read with what is left
of it.  Those that follow the nesting of the values take an amount of fuel, for which the length
of the text is enough.
-/

namespace Toml

/-- A TOML value, with floats of some type. -/
inductive Value (F : Type) where
  | string (s : String)
  | boolean (b : Bool)
  | integer (n : ℤ)
  | float (x : F)
  | array (items : List (Value F))
  | table (items : List (String × Value F))

/-- The keys of a table with their values. -/
abbrev Table (F : Type) := List (String × Value F)

variable {F : Type}

/-! ## Blanks -/

def isBlank (c : Char) : Bool := c == ' ' || c == '\t'

def isGap (c : Char) : Bool := isBlank c || c == '\n'

/-- What is left after the blanks of a line. -/
def skipBlanks (text : List Char) : List Char := text.dropWhile isBlank

/-- What is left after blanks and ends of lines. -/
def skipGap (text : List Char) : List Char := text.dropWhile isGap

/-! ## Strings and keys -/

def hexValue (c : Char) : Option ℕ :=
  if '0' ≤ c ∧ c ≤ '9' then some (c.toNat - 48)
  else if 'a' ≤ c ∧ c ≤ 'f' then some (c.toNat - 87)
  else if 'A' ≤ c ∧ c ≤ 'F' then some (c.toNat - 55)
  else none

/-- The scalar value with the number that hexadecimal digits write. -/
def scalar (digits : List Char) : Option Char := do
  let values ← digits.mapM hexValue
  let n := values.foldl (fun n d ↦ 16 * n + d) 0
  if n.isValidChar then some (Char.ofNat n) else none

/-- The escapes of two characters. -/
def escaped : Char → Option Char
  | 'b' => some '\x08'
  | 't' => some '\t'
  | 'n' => some '\n'
  | 'f' => some '\x0c'
  | 'r' => some '\r'
  | '"' => some '"'
  | '\\' => some '\\'
  | _ => none

/-- The characters that no basic string holds as they are. -/
def illegal (c : Char) : Bool := c != '\t' && (c.toNat < 0x20 || c.toNat == 0x7f)

/-- A first character in front of what the rest of a string reads as. -/
def prepend (c : Option Char) (rest : Option (List Char × List Char)) :
    Option (List Char × List Char) := do
  let c ← c
  let (cs, rest) ← rest
  some (c :: cs, rest)

/-- A basic string after its opening quote. -/
def stringBody : List Char → Option (List Char × List Char)
  | [] => none
  | c :: rest =>
    if c = '"' then some ([], rest)
    else if c = '\\' then
      match rest with
      | 'u' :: h₁ :: h₂ :: h₃ :: h₄ :: rest => prepend (scalar [h₁, h₂, h₃, h₄]) (stringBody rest)
      | 'U' :: h₁ :: h₂ :: h₃ :: h₄ :: h₅ :: h₆ :: h₇ :: h₈ :: rest =>
          prepend (scalar [h₁, h₂, h₃, h₄, h₅, h₆, h₇, h₈]) (stringBody rest)
      | e :: rest => prepend (escaped e) (stringBody rest)
      | [] => none
    else if illegal c then none
    else prepend (some c) (stringBody rest)

/-- A basic string with its quotes. -/
def basicString : List Char → Option (String × List Char)
  | '"' :: rest => (stringBody rest).map fun r ↦ (String.ofList r.1, r.2)
  | _ => none

def isBareKeyChar (c : Char) : Bool := c.isAlphanum || c == '_' || c == '-'

/-- A key of one part. -/
def key (text : List Char) : Option (String × List Char) :=
  if text.head? = some '"' then basicString text
  else
    let bare := text.takeWhile isBareKeyChar
    if bare = [] then none else some (String.ofList bare, text.dropWhile isBareKeyChar)

/-! ## Numbers -/

/-- The number of digits that an integer is read with at most. -/
def digitLimit : ℕ := 4300

/-- What a sign stands in front of. -/
def unsigned : List Char → List Char
  | '+' :: rest => rest
  | '-' :: rest => rest
  | text => text

/-- Digits without a leading zero. -/
def isDigits (text : List Char) : Bool :=
  text != [] && text.all Char.isDigit && (text.length == 1 || text.head? != some '0')

def integerOf (token : List Char) : Option ℤ :=
  let digits := unsigned token
  if isDigits digits && digits.length ≤ digitLimit then
    let n : ℤ := Nat.ofDigitChars 10 digits 0
    some (if token.head? = some '-' then -n else n)
  else none

/-- Nothing, or an exponent. -/
def isExponent : List Char → Bool
  | [] => true
  | c :: rest => (c == 'e' || c == 'E') && unsigned rest != [] && (unsigned rest).all Char.isDigit

/-- The text of a float: digits with a fraction, an exponent or both, or a special value. -/
def isFloat (token : List Char) : Bool :=
  let text := unsigned token
  let afterDigits := text.dropWhile Char.isDigit
  text == ['i', 'n', 'f'] || text == ['n', 'a', 'n'] ||
    isDigits (text.takeWhile Char.isDigit) &&
      match afterDigits with
      | '.' :: rest =>
          rest.takeWhile Char.isDigit != [] && isExponent (rest.dropWhile Char.isDigit)
      | rest => rest != [] && isExponent rest

/-- The characters of the values that are written without a mark at their beginning. -/
def isBareChar (c : Char) : Bool := c.isAlphanum || c ∈ ['+', '-', '.', '_', ':']

/-- A value that stands without quotes and brackets. -/
def bareValue (parseFloat : String → F) (token : List Char) : Option (Value F) :=
  if token = ['t', 'r', 'u', 'e'] then some (.boolean true)
  else if token = ['f', 'a', 'l', 's', 'e'] then some (.boolean false)
  else if isFloat token then some (.float (parseFloat (String.ofList token)))
  else (integerOf token).map .integer

/-! ## Values -/

section Values

variable (parseFloat : String → F)

mutual

/-- A value at the beginning of the text. -/
def value : ℕ → List Char → Option (Value F × List Char)
  | 0, _ => none
  | _ + 1, [] => none
  | fuel + 1, c :: rest =>
    if c = '"' then
      -- Three quotes open a string of several lines.
      if rest.take 2 = ['"', '"'] then none
      else (basicString (c :: rest)).map fun r ↦ (.string r.1, r.2)
    else if c = '[' then (arrayItems fuel (skipGap rest)).map fun r ↦ (.array r.1, r.2)
    else if c = '{' then
      match skipBlanks rest with
      | '}' :: rest => some (.table [], rest)
      | rest => (tableItems fuel rest).map fun r ↦ (.table r.1, r.2)
    else
      (bareValue parseFloat ((c :: rest).takeWhile isBareChar)).map fun v ↦
        (v, (c :: rest).dropWhile isBareChar)

/-- The items of an array up to its closing bracket. -/
def arrayItems : ℕ → List Char → Option (List (Value F) × List Char)
  | 0, _ => none
  | fuel + 1, text =>
    if text.head? = some ']' then some ([], text.tail)
    else do
      let (v, rest) ← value fuel text
      match skipGap rest with
      | ']' :: rest => some ([v], rest)
      | ',' :: rest =>
          let (vs, rest) ← arrayItems fuel (skipGap rest)
          some (v :: vs, rest)
      | _ => none

/-- The items of an inline table up to its closing brace. -/
def tableItems : ℕ → List Char → Option (Table F × List Char)
  | 0, _ => none
  | fuel + 1, text => do
    let (k, rest) ← key text
    match skipBlanks rest with
    | '=' :: rest =>
      let (v, rest) ← value fuel (skipBlanks rest)
      match skipBlanks rest with
      | '}' :: rest => some ([(k, v)], rest)
      | ',' :: rest =>
          let (items, rest) ← tableItems fuel (skipBlanks rest)
          if k ∈ items.map Prod.fst then none else some ((k, v) :: items, rest)
      | _ => none
    | _ => none

end

end Values

/-! ## Documents -/

/-- What has been read of a document: the values in front of all headers, and the tables of the
headers, the last one first. -/
structure Document (F : Type) where
  values : Table F
  blocks : List (String × Table F)

namespace Document

def empty : Document F := ⟨[], []⟩

/-- `[[name]]`. -/
def addBlock (d : Document F) (name : String) : Option (Document F) :=
  if name ∈ d.values.map Prod.fst then none else some { d with blocks := (name, []) :: d.blocks }

/-- `name = value`, in the table of the last header. -/
def assign (d : Document F) (name : String) (v : Value F) : Option (Document F) :=
  match d.blocks with
  | [] =>
      if name ∈ d.values.map Prod.fst then none
      else some { d with values := d.values ++ [(name, v)] }
  | (header, items) :: older =>
      if name ∈ items.map Prod.fst then none
      else some { d with blocks := (header, items ++ [(name, v)]) :: older }

/-- The tables under one header. -/
def tablesOf (d : Document F) (name : String) : List (Value F) :=
  (d.blocks.reverse.filter fun b ↦ b.1 = name).map fun b ↦ .table b.2

/-- The document as a table. -/
def toTable (d : Document F) : Table F :=
  d.values ++ (d.blocks.map Prod.fst).dedup.reverse.map fun name ↦ (name, .array (d.tablesOf name))

end Document

section Documents

variable (parseFloat : String → F)

/-- A header, or a key with its value. -/
def statement (text : List Char) (d : Document F) : Option (Document F × List Char) :=
  match text with
  | '[' :: '[' :: rest => do
    let (name, rest) ← key (skipBlanks rest)
    match skipBlanks rest with
    | ']' :: ']' :: rest =>
      let d ← d.addBlock name
      some (d, rest)
    | _ => none
  | text => do
    let (name, rest) ← key text
    match skipBlanks rest with
    | '=' :: rest =>
      let rest := skipBlanks rest
      let (v, rest) ← value parseFloat (rest.length + 1) rest
      let d ← d.assign name v
      some (d, rest)
    | _ => none

/-- The end of a line, or of the text. -/
def endOfLine (text : List Char) : Option (List Char) :=
  match skipBlanks text with
  | [] => some []
  | '\n' :: rest => some rest
  | _ => none

/-- The statements of a text, one after the other. -/
def statements : ℕ → List Char → Document F → Option (Document F)
  | 0, _, _ => none
  | fuel + 1, text, d =>
    match skipBlanks text with
    | [] => some d
    | '\n' :: rest => statements fuel rest d
    | text => do
      let (d, rest) ← statement parseFloat text d
      let rest ← endOfLine rest
      statements fuel rest d

/-- The table that a text is. -/
def loads (text : String) : Option (Table F) :=
  (statements parseFloat (text.toList.length + 1) text.toList .empty).map Document.toTable

end Documents

end Toml

import ScriptMachine.Text.Hex

/-!
# Structured text

A reader of the JSON format. It accepts exactly the grammar: no comments, no trailing commas, no
control characters in strings and nothing after the value. Numbers keep their numerals, since
whether one is an integer is decided by how it is written. An escape may name one half of a pair
that only together encodes a character; a string with a lone half has no text, which matters only
where the text is used.
-/

namespace ScriptMachine

/-- A value of the format. -/
inductive Json where
  | null
  | bool (value : Bool)
  | number (numeral : String)
  /-- A string; it has no text if it holds half of a pair. -/
  | string (text : Option String)
  | array (items : List Json)
  | object (members : List (Option String × Json))

namespace Json

/-- Whether a character separates tokens. -/
def isBlank (c : Char) : Bool := c == ' ' || c == '\n' || c == '\t' || c == '\r'

/-- Drops separating characters. -/
def skip (text : List Char) : List Char := text.dropWhile isBlank

/-- The value of four hexadecimal digits. -/
def hexWord? (a b c d : Char) : Option Nat := do
  return ((← Hex.digit? a) * 16 + (← Hex.digit? b)) * 256 + (← Hex.digit? c) * 16 + (← Hex.digit? d)

/-- The character that a short escape stands for. -/
def shortEscape? : Char → Option Char
  | '"' => some '"'
  | '\\' => some '\\'
  | '/' => some '/'
  | 'b' => some '\x08'
  | 'f' => some '\x0c'
  | 'n' => some '\n'
  | 'r' => some '\r'
  | 't' => some '\t'
  | _ => none

/-- Reads a string after its opening quote. The characters read so far come in reverse, or are
absent if they include half of a pair. -/
def stringRest (read : Option (List Char)) : List Char → Option (Option String × List Char)
  | '"' :: rest => some (read.map fun characters => String.ofList characters.reverse, rest)
  | '\\' :: 'u' :: a :: b :: c :: d :: rest =>
    match hexWord? a b c d with
    | none => none
    | some unit =>
      if 0xD800 ≤ unit && unit < 0xDC00 then
        match rest with
        | '\\' :: 'u' :: e :: f :: g :: h :: tail =>
          match hexWord? e f g h with
          | none => none
          | some low =>
            if 0xDC00 ≤ low && low < 0xE000 then
              let point := 0x10000 + (unit - 0xD800) * 0x400 + (low - 0xDC00)
              stringRest (read.map (Char.ofNat point :: ·)) tail
            else stringRest none ('\\' :: 'u' :: e :: f :: g :: h :: tail)
        | rest => stringRest none rest
      else if 0xDC00 ≤ unit && unit < 0xE000 then stringRest none rest
      else stringRest (read.map (Char.ofNat unit :: ·)) rest
  | '\\' :: escape :: rest =>
    match shortEscape? escape with
    | none => none
    | some c => stringRest (read.map (c :: ·)) rest
  | c :: rest => if c < ' ' then none else stringRest (read.map (c :: ·)) rest
  | [] => none
termination_by text => text.length

/-- Reads one digit or more. -/
def digits (text : List Char) : Option (List Char × List Char) :=
  match text.span Char.isDigit with
  | ([], _) => none
  | result => some result

/-- Reads the whole part of a numeral: zero alone, or digits that start with another one. -/
def wholePart : List Char → Option (List Char × List Char)
  | '0' :: rest => some (['0'], rest)
  | text => digits text

/-- Reads the fraction of a numeral, if there is one. -/
def fractionPart : List Char → Option (List Char × List Char)
  | '.' :: rest => (digits rest).map fun (read, rest) => ('.' :: read, rest)
  | rest => some ([], rest)

/-- Reads the exponent of a numeral, if there is one. -/
def exponentPart : List Char → Option (List Char × List Char)
  | [] => some ([], [])
  | mark :: rest =>
    if mark == 'e' || mark == 'E' then
      match rest with
      | sign :: tail =>
        if sign == '+' || sign == '-' then
          (digits tail).map fun (read, rest) => (mark :: sign :: read, rest)
        else (digits rest).map fun (read, rest) => (mark :: read, rest)
      | [] => none
    else some ([], mark :: rest)

/-- Reads a numeral. A digit may not follow it. -/
def numeral (text : List Char) : Option (List Char × List Char) := do
  let (sign, text) := match text with
    | '-' :: rest => (['-'], rest)
    | text => ([], text)
  let (whole, text) ← wholePart text
  let (fraction, text) ← fractionPart text
  let (exponent, text) ← exponentPart text
  if (text.head?.map Char.isDigit).getD false then none
  else some (sign ++ whole ++ fraction ++ exponent, text)

/-- Reads the given word. -/
def word (value : Json) (expected text : List Char) : Option (Json × List Char) :=
  if expected.isPrefixOf text then some (value, text.drop expected.length) else none

mutual

/-- Reads a value. The bound on the nesting is never reached when it is the length of the text. -/
def value : Nat → List Char → Option (Json × List Char)
  | 0, _ => none
  | bound + 1, text =>
    match text with
    | '"' :: rest => (stringRest (some []) rest).map fun (text, rest) => (string text, rest)
    | '[' :: rest =>
      match skip rest with
      | ']' :: rest => some (array [], rest)
      | rest => (items bound rest).map fun (items, rest) => (array items, rest)
    | '\x7b' :: rest =>
      match skip rest with
      | '\x7d' :: rest => some (object [], rest)
      | rest => (members bound rest).map fun (members, rest) => (object members, rest)
    | 'n' :: _ => word null ['n', 'u', 'l', 'l'] text
    | 't' :: _ => word (bool true) ['t', 'r', 'u', 'e'] text
    | 'f' :: _ => word (bool false) ['f', 'a', 'l', 's', 'e'] text
    | text => (numeral text).map fun (numeral, rest) => (number (String.ofList numeral), rest)

/-- Reads the items of an array that is not empty. -/
def items : Nat → List Char → Option (List Json × List Char)
  | 0, _ => none
  | bound + 1, text => do
    let (first, rest) ← value bound text
    match skip rest with
    | ']' :: rest => some ([first], rest)
    | ',' :: rest =>
      let (others, rest) ← items bound (skip rest)
      some (first :: others, rest)
    | _ => none

/-- Reads the members of an object that is not empty. -/
def members : Nat → List Char → Option (List (Option String × Json) × List Char)
  | 0, _ => none
  | bound + 1, text =>
    match text with
    | '"' :: rest => do
      let (key, rest) ← stringRest (some []) rest
      match skip rest with
      | ':' :: rest =>
        let (first, rest) ← value bound (skip rest)
        match skip rest with
        | '\x7d' :: rest => some ([(key, first)], rest)
        | ',' :: rest =>
          let (others, rest) ← members bound (skip rest)
          some ((key, first) :: others, rest)
        | _ => none
      | _ => none
    | _ => none

end

/-- The value that a whole text writes. -/
def parse? (text : String) : Option Json := do
  let characters := text.toList
  let (result, rest) ← value (characters.length + 1) (skip characters)
  if (skip rest).isEmpty then some result else none

/-- The number that a numeral of digits alone stands for. -/
def natural? : Json → Option Nat
  | number numeral => if numeral.all Char.isDigit then numeral.toNat? else none
  | _ => none

/-- The text of a string. -/
def text? : Json → Option String
  | string text => text
  | _ => none

/-- The truth value. -/
def bool? : Json → Option Bool
  | bool value => some value
  | _ => none

end Json

end ScriptMachine

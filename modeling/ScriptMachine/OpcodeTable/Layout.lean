import ScriptMachine.OpcodeTable.Spec
import ScriptMachine.Text.Lines
import ScriptMachine.Text.Numeral

/-!
# Layout of opcode tables

A table has an entry for every byte from zero on, so the specified bytes are exactly the positions
of the entries. Entries are put in the order of their bytes before anything is compared.
-/

namespace ScriptMachine.OpcodeTable

/-- Why a text is no hexadecimal byte. -/
inductive ByteError where
  | empty
  | invalidDigit
  | tooLarge
  deriving DecidableEq

/-- The text that reports a malformed byte. -/
def ByteError.message : ByteError → String
  | empty => "cannot parse integer from empty string"
  | invalidDigit => "invalid digit found in string"
  | tooLarge => "number too large to fit in target type"

/-- Why no table can be made from a specification. -/
inductive TableError where
  | unsupportedVersion (version : Nat)
  | invalidByte (text : String) (error : ByteError)
  | duplicateByte (byte : UInt8) (first second : String)
  | duplicateName (name : String)
  /-- The byte of this opcode is not its position. -/
  | gap (name : String) (byte : UInt8) (position : Nat)
  | unknownShape (operands : String)
  | missingDoc (name : String)
  deriving DecidableEq

/-- The text that reports a specification without a table. -/
def TableError.message : TableError → String
  | unsupportedVersion version => s!"unsupported opcodes.json version {version}"
  | invalidByte text error =>
    s!"invalid opcode byte '{text}'\n\nCaused by:\n    " ++ error.message
  | duplicateByte byte first second =>
    "duplicate opcode byte " ++ Numeral.hexByte byte ++ s!": {first} and {second}"
  | duplicateName name => s!"duplicate opcode name '{name}'"
  | gap name byte position =>
    s!"opcode bytes must be contiguous from 0x00; {name} has byte " ++ Numeral.hexByte byte
      ++ s!" at position {position}"
  | unknownShape operands => s!"unknown operand shape '{operands}'"
  | missingDoc name => s!"missing doc for opcode {name}"

/-- Reads on in a hexadecimal byte. A character that is no digit is noticed before a digit that is
one too many. -/
def byteFrom (read : Nat) : List Char → Except ByteError Nat
  | [] => .ok read
  | c :: rest =>
    match Hex.digit? c with
    | none => .error .invalidDigit
    | some digit =>
      if read * 16 + digit < 256 then byteFrom (read * 16 + digit) rest else .error .tooLarge

/-- Reads a byte of hexadecimal digits, which a plus sign may precede. -/
def unsignedByte : List Char → Except ByteError Nat
  | [] => .error .empty
  | ['+'] => .error .invalidDigit
  | '+' :: digits => byteFrom 0 digits
  | digits => byteFrom 0 digits

/-- Drops the mark of hexadecimal numerals. -/
def dropMark : List Char → List Char
  | '0' :: 'x' :: rest => rest
  | '0' :: 'X' :: rest => rest
  | text => text

/-- Reads the byte of an opcode, with or without the mark and blanks around it. -/
def parseByte (text : String) : Except TableError UInt8 :=
  let trimmed := Text.trim text.toList
  match unsignedByte (dropMark trimmed) with
  | .ok byte => .ok (UInt8.ofNat byte)
  | .error error => .error (.invalidByte (String.ofList trimmed) error)

/-- An opcode and its byte. -/
structure Row where
  byte : UInt8
  opcode : OpcodeSpec
  deriving DecidableEq

/-- The order of rows: by byte and then by name. -/
def Row.le (a b : Row) : Bool :=
  a.byte < b.byte || (a.byte == b.byte && a.opcode.name ≤ b.opcode.name)

/-- Compares each row with the next. -/
def checkNeighbours : List Row → Except TableError Unit
  | a :: b :: rest =>
    if a.byte = b.byte then .error (.duplicateByte a.byte a.opcode.name b.opcode.name)
    else if a.opcode.name = b.opcode.name then .error (.duplicateName a.opcode.name)
    else checkNeighbours (b :: rest)
  | _ => .ok ()

/-- Compares the byte of each row with its position. -/
def checkPositions : Nat → List Row → Except TableError Unit
  | _, [] => .ok ()
  | position, row :: rest =>
    if row.byte.toNat = position then checkPositions (position + 1) rest
    else .error (.gap row.opcode.name row.byte position)

/-- The rows of a table, in the order of their bytes. -/
def layout (opcodes : List OpcodeSpec) : Except TableError (List Row) := do
  let rows ← opcodes.mapM fun opcode => return { byte := ← parseByte opcode.byte, opcode }
  let rows := rows.mergeSort Row.le
  checkNeighbours rows
  checkPositions 0 rows
  return rows

end ScriptMachine.OpcodeTable

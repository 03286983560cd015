import ScriptMachine.Text.Json

/-!
# Specifications of opcode tables

A specification lists opcodes with their bytes, operands and descriptions. It is written as a JSON
object or, since the fields have an order, as an array of them. An object may hold other members,
but no field twice; in an array every field stands in its place.
-/

namespace ScriptMachine.OpcodeTable

/-- The specification of one opcode. -/
structure OpcodeSpec where
  name : String
  mnemonic : String
  /-- The encoding, in hexadecimal. -/
  byte : String
  /-- The shape of the operands. -/
  operands : String
  /-- Control never falls through to the next instruction. -/
  terminator : Bool
  /-- The description, of any number of lines. -/
  doc : Option String
  deriving DecidableEq

/-- The specification of an opcode table. -/
structure Spec where
  version : Nat
  opcodes : List OpcodeSpec

/-- The values of the fields of a record, in order; each is absent if it is not given. -/
def fields? (names : List String) : Json → Option (List (Option Json))
  | .object members =>
    if members.all fun (key, _) => key.isSome then
      names.mapM fun name =>
        match members.filter fun (key, _) => key == some name with
        | [] => some none
        | [(_, value)] => some (some value)
        | _ => none
    else none
  | .array items => if items.length = names.length then some (items.map some) else none
  | _ => none

/-- A text that may be absent or null. -/
def optionalText? : Option Json → Option (Option String)
  | none | some .null => some none
  | some json => json.text?.map some

/-- Reads the specification of one opcode. -/
def OpcodeSpec.ofJson? (json : Json) : Option OpcodeSpec :=
  match fields? ["name", "mnemonic", "byte", "operands", "terminator", "doc"] json with
  | some [some name, some mnemonic, some byte, some operands, some terminator, doc] => do
    return {
      name := ← name.text?
      mnemonic := ← mnemonic.text?
      byte := ← byte.text?
      operands := ← operands.text?
      terminator := ← terminator.bool?
      doc := ← optionalText? doc }
  | _ => none

/-- Reads a specification. The version is a number of thirty-two bits. -/
def Spec.ofJson? (json : Json) : Option Spec :=
  match fields? ["version", "opcodes"] json with
  | some [some version, some (.array opcodes)] => do
    let version ← version.natural?
    if version < UInt32.size then
      return { version, opcodes := ← opcodes.mapM OpcodeSpec.ofJson? }
    else none
  | _ => none

/-- Reads a specification from its text. -/
def Spec.parse? (text : String) : Option Spec := (Json.parse? text).bind Spec.ofJson?

end ScriptMachine.OpcodeTable

import ScriptMachine.Instruction.Opcode
import ScriptMachine.OpcodeTable.Layout

/-!
# Rendered opcode tables

A table is rendered as the source text of a module that defines the opcodes: the metadata of every
opcode, the enumeration itself, the list of all opcodes, and the decoding of a byte. The four parts
follow the rows of the layout in order.
-/

namespace ScriptMachine.OpcodeTable

/-- The operand shape that a specification names. -/
def shape? : String → Option OperandShape
  | "none" => some .none
  | "u8" => some .unsigned8
  | "i8" => some .signed8
  | "rel8" => some .delta8
  | "i32" => some .signed32
  | "rel32" => some .delta32
  | "call" => some .call
  | _ => none

/-- What precedes the rows: the operand shapes, the type of metadata and the number of opcodes. -/
def preamble (count : Nat) : List String := [
  "// Copyright 2026 the Coop VM Authors",
  "// SPDX-License-Identifier: Apache-2.0 OR MIT",
  "",
  "// @generated by coop_vm_codegen. Do not edit by hand.",
  "",
  "/// Operand encodings that follow an opcode byte.",
  "#[derive(Copy, Clone, Debug, PartialEq, Eq)]",
  "pub enum OperandShape \x7b",
  "    /// No operand.",
  "    None,",
  "    /// One unsigned byte index.",
  "    U8,",
  "    /// One signed byte immediate.",
  "    I8,",
  "    /// One signed byte branch delta.",
  "    Rel8,",
  "    /// A little-endian `i32` immediate.",
  "    I32,",
  "    /// A little-endian `i32` branch delta.",
  "    Rel32,",
  "    /// An argument count byte followed by a callee index byte.",
  "    Call,",
  "\x7d",
  "",
  "/// Static metadata for one opcode.",
  "#[derive(Copy, Clone, Debug, PartialEq, Eq)]",
  "pub struct OpcodeInfo \x7b",
  "    /// Stable, parseable opcode name.",
  "    pub mnemonic: &'static str,",
  "    /// Operand encoding following the opcode byte.",
  "    pub shape: OperandShape,",
  "    /// `true` if control never falls through to the next instruction.",
  "    pub is_terminator: bool,",
  "\x7d",
  "",
  "/// Number of defined opcodes.",
  s!"pub const OPCODE_COUNT: usize = {count};",
  ""]

/-- The metadata of one opcode. -/
def metadataLine (row : Row) : Except TableError String :=
  match shape? row.opcode.operands with
  | none => .error (.unknownShape row.opcode.operands)
  | some shape =>
    .ok ("    OpcodeInfo \x7b mnemonic: \"" ++ row.opcode.mnemonic ++ "\", shape: OperandShape::"
      ++ shape.name ++ ", is_terminator: " ++ toString row.opcode.terminator ++ " \x7d, // "
      ++ Numeral.hexByte row.byte ++ " " ++ row.opcode.name)

/-- One line of a description. -/
def docLine (line : String) : String := if line.isEmpty then "    ///" else "    /// " ++ line

/-- The description and the declaration of one opcode. -/
def variantLines (row : Row) : Except TableError (List String) :=
  match row.opcode.doc with
  | none => .error (.missingDoc row.opcode.name)
  | some doc =>
    .ok ((Text.lines doc).map docLine
      ++ ["    " ++ row.opcode.name ++ " = " ++ Numeral.hexByte row.byte ++ ","])

/-- One opcode in the list of all. -/
def listLine (row : Row) : String := "        Self::" ++ row.opcode.name ++ ","

/-- The decoding of one byte. -/
def decodeLine (row : Row) : String :=
  "            " ++ Numeral.hexByte row.byte ++ " => Self::" ++ row.opcode.name ++ ","

/-- The parts of a table that have an entry for every row, in the order of the rows. -/
structure Parts where
  metadata : List String
  variants : List (List String)
  /-- The list of all opcodes. -/
  listed : List String
  decoded : List String

/-- The lines of a table of the given number of opcodes. -/
def Parts.lines (parts : Parts) (count : Nat) : List String :=
  preamble count
    ++ [s!"static OPCODE_INFO_BY_BYTE: [OpcodeInfo; {count}] = ["]
    ++ parts.metadata
    ++ ["];",
      "",
      "/// Bytecode opcode byte.",
      "#[derive(Copy, Clone, Debug, PartialEq, Eq, Hash)]",
      "#[repr(u8)]",
      "pub enum Opcode \x7b"]
    ++ parts.variants.flatten
    ++ ["\x7d",
      "",
      "impl Opcode \x7b",
      "    /// Every opcode, in byte order.",
      s!"    pub const ALL: [Self; {count}] = ["]
    ++ parts.listed
    ++ ["    ];",
      "",
      "    /// Decodes an opcode byte.",
      "    #[must_use]",
      "    pub fn from_u8(b: u8) -> Option<Self> \x7b",
      "        Some(match b \x7b"]
    ++ parts.decoded
    ++ ["            _ => return None,",
      "        \x7d)",
      "    \x7d",
      "",
      "    /// Returns opcode metadata for this opcode.",
      "    #[must_use]",
      "    pub fn info(self) -> &'static OpcodeInfo \x7b",
      "        &OPCODE_INFO_BY_BYTE[usize::from(self as u8)]",
      "    \x7d",
      "\x7d"]

/-- The lines of the table of the given rows. -/
def tableLines (rows : List Row) : Except TableError (List String) := do
  let metadata ← rows.mapM metadataLine
  let variants ← rows.mapM variantLines
  let parts : Parts :=
    { metadata, variants, listed := rows.map listLine, decoded := rows.map decodeLine }
  return parts.lines rows.length

/-- Renders the table of a specification. -/
def generate (spec : Spec) : Except TableError String := do
  if spec.version ≠ 1 then throw (.unsupportedVersion spec.version)
  let rows ← layout spec.opcodes
  let lines ← tableLines rows
  return String.join (lines.map (· ++ "\n"))

end ScriptMachine.OpcodeTable

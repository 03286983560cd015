import ScriptMachine.Instruction.Basic
import ScriptMachine.Text.Numeral

/-!
# Encoded instructions

Code is a flat sequence of bytes in which every instruction is its opcode byte followed by its
operand bytes; words are little-endian. `Instruction.decode` reads the instruction at an offset
and `Instruction.encode` writes one. `Code.instructions` reads a whole sequence from its start and
stops at the first offset where no instruction can be read. A decoded instruction always ends
where its length says, so reading moves forward.
-/

namespace ScriptMachine

/-- An encoded instruction sequence. -/
abbrev Code := Array UInt8

/-- Why no instruction can be read at an offset. -/
inductive DecodeError where
  /-- The code ends before the instruction does. -/
  | truncated (pc : Nat)
  /-- The byte is no opcode. -/
  | unknownOpcode (pc : Nat) (byte : UInt8)
  deriving DecidableEq

/-- The name of a decoding error in records. -/
def DecodeError.name : DecodeError → String
  | truncated _ => "UnexpectedEnd"
  | unknownOpcode _ _ => "UnknownOpcode"

/-- The text that reports a decoding error. -/
def DecodeError.message : DecodeError → String
  | truncated pc => s!"truncated instruction at pc {pc}"
  | unknownOpcode pc byte => "unknown opcode " ++ Numeral.hexByte byte ++ s!" at pc {pc}"

/-- The four bytes of a word, the lowest one first. -/
def wordBytes (word : Int32) : List UInt8 :=
  let bits := word.toUInt32
  [bits.toUInt8, (bits >>> 8).toUInt8, (bits >>> 16).toUInt8, (bits >>> 24).toUInt8]

/-- The word that four bytes hold, the lowest one first. -/
def wordOfBytes (b0 b1 b2 b3 : UInt8) : Int32 :=
  (b0.toUInt32 ||| b1.toUInt32 <<< 8 ||| b2.toUInt32 <<< 16 ||| b3.toUInt32 <<< 24).toInt32

/-- The instruction that an opcode forms with operand bytes, if they have the opcode's shape. -/
def Opcode.withOperands : Opcode → List UInt8 → Option Instruction
  | .nop, [] => some .nop
  | .pop, [] => some .pop
  | .dup, [] => some .dup
  | .globalLoad, [index] => some (.globalLoad index)
  | .globalStore, [index] => some (.globalStore index)
  | .localLoad, [index] => some (.localLoad index)
  | .localStore, [index] => some (.localStore index)
  | .specialLoad, [index] => some (.specialLoad index)
  | .threadLoad, [index] => some (.threadLoad index)
  | .const, [b0, b1, b2, b3] => some (.const (wordOfBytes b0 b1 b2 b3))
  | .const8, [value] => some (.const8 value.toInt8)
  | .unary op, [] => some (.unary op)
  | .binary op, [] => some (.binary op)
  | .branch test, [delta] => some (.branch test delta.toInt8)
  | .longBranch test, [b0, b1, b2, b3] => some (.longBranch test (wordOfBytes b0 b1 b2 b3))
  | .loopCheck, [] => some .loopCheck
  | .native kind result, [argc, method] => some (.native kind result argc method)
  | .script result, [argc, callee] => some (.script result argc callee)
  | .ret result, [] => some (.ret result)
  | _, _ => none

namespace Instruction

/-- The operand bytes. -/
def operandBytes : Instruction → List UInt8
  | globalLoad index | globalStore index | localLoad index | localStore index
  | specialLoad index | threadLoad index => [index]
  | const value => wordBytes value
  | const8 value => [value.toUInt8]
  | branch _ delta => [delta.toUInt8]
  | longBranch _ delta => wordBytes delta
  | native _ _ argc method => [argc, method]
  | script _ argc callee => [argc, callee]
  | nop | pop | dup | unary _ | binary _ | loopCheck | ret _ => []

/-- The encoding: the opcode byte and the operand bytes. -/
def encode (instruction : Instruction) : List UInt8 :=
  instruction.opcode.byte :: instruction.operandBytes

/-- Reads the instruction at an offset, together with the offset of the next one. -/
def decode (code : Code) (pc : Nat) : Except DecodeError (Instruction × Nat) :=
  match code[pc]? with
  | none => .error (.truncated pc)
  | some byte =>
    match Opcode.ofByte? byte with
    | none => .error (.unknownOpcode pc byte)
    | some op =>
      let next := pc + op.length
      match op.withOperands (code.extract (pc + 1) next).toList with
      | none => .error (.truncated pc)
      | some instruction => .ok (instruction, next)

end Instruction

/-- The instructions read from the start of some code, each with its offset, and the error that
ended the reading before the end of the code, if there was one. -/
structure Decoded where
  instructions : Array (Nat × Instruction)
  error : Option DecodeError

/-- The next instruction begins where the decoded one ends. -/
theorem Instruction.next_of_decode {code : Code} {pc next : Nat} {instruction : Instruction}
    (h : decode code pc = .ok (instruction, next)) : pc < code.size ∧ pc < next := by
  unfold decode at h
  split at h
  · cases h
  · rename_i byte present
    split at h
    · cases h
    · rename_i op _
      dsimp only at h
      split at h
      · cases h
      · cases h
        exact ⟨(Array.getElem?_eq_some_iff.1 present).1, Nat.lt_add_of_pos_right op.length_pos⟩

namespace Code

/-- Reads on from an offset, after the given instructions. -/
def decodeFrom (code : Code) (pc : Nat) (read : Array (Nat × Instruction)) : Decoded :=
  if pc < code.size then
    match _ : Instruction.decode code pc with
    | .error e => ⟨read, some e⟩
    | .ok (instruction, next) => decodeFrom code next (read.push (pc, instruction))
  else ⟨read, none⟩
termination_by code.size - pc
decreasing_by
  have := Instruction.next_of_decode (by assumption)
  omega

/-- The instructions of some code, read from its first byte. -/
def instructions (code : Code) : Decoded := code.decodeFrom 0 #[]

end Code

end ScriptMachine

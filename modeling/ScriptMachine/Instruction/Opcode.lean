/-!
# Opcodes

An opcode is the first byte of an encoded instruction. It fixes the shape of the operands that
follow, hence the encoded length, and whether control may fall through to the next instruction.
The forty-seven opcodes occupy the bytes from zero without a gap, so `Opcode.all` is at once the
list of opcodes and the decoding table: `ofByte?_byte` and `byte_of_ofByte?` say that looking a
byte up in it and reading an opcode's byte are inverse to each other.
-/

namespace ScriptMachine

/-- An operation that replaces the top of the operand stack. -/
inductive UnaryOp where
  /-- One when the operand is zero, and zero otherwise. -/
  | isZero
  /-- Wrapping negation. -/
  | neg
  /-- Complement of every bit. -/
  | complement
  deriving DecidableEq

/-- An operation that replaces the two topmost operands by one result. -/
inductive BinaryOp where
  | add
  | sub
  | mul
  | div
  | mod
  | bitAnd
  | bitOr
  | bitXor
  /-- Arithmetic shift to the right. -/
  | shiftRight
  | shiftLeft
  /-- One when both operands are nonzero. -/
  | both
  /-- One when at least one operand is nonzero. -/
  | either
  | lt
  | le
  | gt
  | ge
  | eq
  | ne
  deriving DecidableEq

/-- The condition under which a branch is taken. -/
inductive Test where
  /-- The popped operand is zero. -/
  | zero
  /-- The popped operand is not zero. -/
  | nonzero
  /-- Nothing is popped and the branch is always taken. -/
  | always
  deriving DecidableEq

/-- What a call leaves on the caller's operand stack. -/
inductive ResultKind where
  | void
  | int
  deriving DecidableEq

/-- Whether a native method receives an object below its arguments. -/
inductive MethodKind where
  | object
  | static
  deriving DecidableEq

/-- The operands that follow an opcode byte. -/
inductive OperandShape where
  | none
  /-- An unsigned byte that indexes a table. -/
  | unsigned8
  /-- A signed byte that is pushed. -/
  | signed8
  /-- A signed byte that is added to the offset of the next instruction. -/
  | delta8
  /-- A little-endian word that is pushed. -/
  | signed32
  /-- A little-endian word that is added to the offset of the next instruction. -/
  | delta32
  /-- An argument count and the index of the callee. -/
  | call
  deriving DecidableEq

/-- The number of operand bytes. -/
def OperandShape.size : OperandShape → Nat
  | .none => 0
  | .unsigned8 | .signed8 | .delta8 => 1
  | .call => 2
  | .signed32 | .delta32 => 4

/-- The name under which opcode tables list a shape. -/
def OperandShape.name : OperandShape → String
  | .none => "None"
  | .unsigned8 => "U8"
  | .signed8 => "I8"
  | .delta8 => "Rel8"
  | .signed32 => "I32"
  | .delta32 => "Rel32"
  | .call => "Call"

/-- The operation selected by the first byte of an instruction. -/
inductive Opcode where
  | nop
  | pop
  | dup
  | globalLoad
  | globalStore
  | localLoad
  | localStore
  | specialLoad
  | threadLoad
  /-- Pushes a word. -/
  | const
  /-- Pushes a sign-extended byte. -/
  | const8
  | unary (op : UnaryOp)
  | binary (op : BinaryOp)
  /-- Branches by a signed byte. -/
  | branch (test : Test)
  /-- Branches by a signed word. -/
  | longBranch (test : Test)
  /-- Spends one unit of the loop budget of the run. -/
  | loopCheck
  /-- Calls a native method of the executing function. -/
  | native (kind : MethodKind) (result : ResultKind)
  /-- Calls a script function of the domain. -/
  | script (result : ResultKind)
  /-- Leaves the current frame. -/
  | ret (result : ResultKind)
  deriving DecidableEq

namespace Opcode

/-- The identity of an opcode in tables and listings. -/
structure Entry where
  /-- The encoding. -/
  byte : UInt8
  /-- The name in opcode tables. -/
  name : String
  /-- The name in listings. -/
  mnemonic : String

/-- The table row of every opcode. -/
def entry : Opcode → Entry
  | nop => ⟨0x00, "Nop", "nop"⟩
  | pop => ⟨0x01, "Pop", "pop"⟩
  | dup => ⟨0x02, "Dup", "dup"⟩
  | globalLoad => ⟨0x03, "IVLoad", "iv_load"⟩
  | globalStore => ⟨0x04, "IVStore", "iv_store"⟩
  | localLoad => ⟨0x05, "ILLoad", "il_load"⟩
  | localStore => ⟨0x06, "ILStore", "il_store"⟩
  | specialLoad => ⟨0x07, "ISLoad", "is_load"⟩
  | threadLoad => ⟨0x08, "ITLoad", "it_load"⟩
  | const => ⟨0x09, "IntConst", "int_const"⟩
  | const8 => ⟨0x0A, "IntConst8", "int_const8"⟩
  | binary .add => ⟨0x0B, "IntAdd", "int_add"⟩
  | binary .sub => ⟨0x0C, "IntSub", "int_sub"⟩
  | binary .mul => ⟨0x0D, "IntMul", "int_mul"⟩
  | binary .div => ⟨0x0E, "IntDiv", "int_div"⟩
  | binary .mod => ⟨0x0F, "IntMod", "int_mod"⟩
  | binary .bitAnd => ⟨0x10, "IntAnd", "int_and"⟩
  | binary .bitOr => ⟨0x11, "IntOr", "int_or"⟩
  | binary .bitXor => ⟨0x12, "IntXor", "int_xor"⟩
  | binary .shiftRight => ⟨0x13, "IntAsr", "int_asr"⟩
  | binary .shiftLeft => ⟨0x14, "IntAsl", "int_asl"⟩
  | unary .isZero => ⟨0x15, "Not", "not"⟩
  | binary .both => ⟨0x16, "And", "and"⟩
  | binary .either => ⟨0x17, "Or", "or"⟩
  | binary .lt => ⟨0x18, "IntLt", "int_lt"⟩
  | binary .le => ⟨0x19, "IntLe", "int_le"⟩
  | binary .gt => ⟨0x1A, "IntGt", "int_gt"⟩
  | binary .ge => ⟨0x1B, "IntGe", "int_ge"⟩
  | binary .eq => ⟨0x1C, "IntEq", "int_eq"⟩
  | binary .ne => ⟨0x1D, "IntNe", "int_ne"⟩
  | unary .neg => ⟨0x1E, "IntNeg", "int_neg"⟩
  | unary .complement => ⟨0x1F, "IntNot", "int_not"⟩
  | branch .zero => ⟨0x20, "Jz", "jz"⟩
  | branch .nonzero => ⟨0x21, "Jnz", "jnz"⟩
  | branch .always => ⟨0x22, "Jmp", "jmp"⟩
  | longBranch .zero => ⟨0x23, "Ljz", "ljz"⟩
  | longBranch .nonzero => ⟨0x24, "Ljnz", "ljnz"⟩
  | longBranch .always => ⟨0x25, "Ljmp", "ljmp"⟩
  | loopCheck => ⟨0x26, "LoopChk", "loop_chk"⟩
  | native .object .void => ⟨0x27, "MethodCallVoid", "method_call_void"⟩
  | native .object .int => ⟨0x28, "MethodCallInt", "method_call_int"⟩
  | native .static .void => ⟨0x29, "StaticMethodCallVoid", "static_method_call_void"⟩
  | native .static .int => ⟨0x2A, "StaticMethodCallInt", "static_method_call_int"⟩
  | script .void => ⟨0x2B, "FunctionCallVoid", "function_call_void"⟩
  | script .int => ⟨0x2C, "FunctionCallInt", "function_call_int"⟩
  | ret .void => ⟨0x2D, "ReturnVoid", "return_void"⟩
  | ret .int => ⟨0x2E, "ReturnInt", "return_int"⟩

/-- The byte that encodes an opcode. -/
def byte (op : Opcode) : UInt8 := op.entry.byte

/-- The name of an opcode in opcode tables. -/
def name (op : Opcode) : String := op.entry.name

/-- The name of an opcode in listings. -/
def mnemonic (op : Opcode) : String := op.entry.mnemonic

/-- Every opcode, at the position that is its byte. -/
def all : Array Opcode := #[
  nop, pop, dup, globalLoad, globalStore, localLoad, localStore, specialLoad, threadLoad,
  const, const8,
  binary .add, binary .sub, binary .mul, binary .div, binary .mod,
  binary .bitAnd, binary .bitOr, binary .bitXor, binary .shiftRight, binary .shiftLeft,
  unary .isZero, binary .both, binary .either,
  binary .lt, binary .le, binary .gt, binary .ge, binary .eq, binary .ne,
  unary .neg, unary .complement,
  branch .zero, branch .nonzero, branch .always,
  longBranch .zero, longBranch .nonzero, longBranch .always,
  loopCheck,
  native .object .void, native .object .int, native .static .void, native .static .int,
  script .void, script .int, ret .void, ret .int]

/-- The opcode that a byte encodes, if there is one. -/
def ofByte? (b : UInt8) : Option Opcode := all[b.toNat]?

/-- The shape of the operands. -/
def shape : Opcode → OperandShape
  | nop | pop | dup | unary _ | binary _ | loopCheck | ret _ => .none
  | globalLoad | globalStore | localLoad | localStore | specialLoad | threadLoad => .unsigned8
  | const => .signed32
  | const8 => .signed8
  | branch _ => .delta8
  | longBranch _ => .delta32
  | native _ _ | script _ => .call

/-- The encoded length, the opcode byte included. -/
def length (op : Opcode) : Nat := 1 + op.shape.size

/-- A terminator never falls through to the next instruction. -/
def isTerminator : Opcode → Bool
  | branch .always | longBranch .always | ret _ => true
  | _ => false

/-- Calls are the opcodes with an argument count. -/
def isCall (op : Opcode) : Bool := op.shape == .call

theorem length_pos (op : Opcode) : 0 < op.length := by
  unfold length
  omega

/-- Every opcode stands in the table at its own byte. -/
theorem ofByte?_byte (op : Opcode) : ofByte? op.byte = some op := by
  cases op with
  | unary op => cases op <;> rfl
  | binary op => cases op <;> rfl
  | branch test => cases test <;> rfl
  | longBranch test => cases test <;> rfl
  | native kind result => cases kind <;> cases result <;> rfl
  | script result => cases result <;> rfl
  | ret result => cases result <;> rfl
  | _ => rfl

/-- The table holds each opcode at no other position. -/
theorem byte_of_ofByte? {b : UInt8} {op : Opcode} (h : ofByte? b = some op) : op.byte = b := by
  have entries : ∀ i : Fin all.size, all[i].byte.toNat = i.val := by decide
  obtain ⟨bound, rfl⟩ := Array.getElem?_eq_some_iff.1 h
  exact UInt8.toNat_inj.1 (entries ⟨b.toNat, bound⟩)

end Opcode

end ScriptMachine

import ScriptMachine.Instruction.Opcode

/-!
# Instructions

An instruction is an opcode together with operands of the opcode's shape. This module says what
each instruction takes from the operand stack and what it leaves there, and where a branch goes:
a delta counts from the offset of the instruction after the branch.
-/

namespace ScriptMachine

/-- A decoded instruction. -/
inductive Instruction where
  | nop
  | pop
  | dup
  | globalLoad (index : UInt8)
  | globalStore (index : UInt8)
  | localLoad (index : UInt8)
  | localStore (index : UInt8)
  | specialLoad (index : UInt8)
  | threadLoad (index : UInt8)
  | const (value : Int32)
  | const8 (value : Int8)
  | unary (op : UnaryOp)
  | binary (op : BinaryOp)
  | branch (test : Test) (delta : Int8)
  | longBranch (test : Test) (delta : Int32)
  | loopCheck
  | native (kind : MethodKind) (result : ResultKind) (argc method : UInt8)
  | script (result : ResultKind) (argc callee : UInt8)
  | ret (result : ResultKind)
  deriving DecidableEq

namespace Instruction

/-- The opcode that the encoding starts with. -/
def opcode : Instruction → Opcode
  | nop => .nop
  | pop => .pop
  | dup => .dup
  | globalLoad _ => .globalLoad
  | globalStore _ => .globalStore
  | localLoad _ => .localLoad
  | localStore _ => .localStore
  | specialLoad _ => .specialLoad
  | threadLoad _ => .threadLoad
  | const _ => .const
  | const8 _ => .const8
  | unary op => .unary op
  | binary op => .binary op
  | branch test _ => .branch test
  | longBranch test _ => .longBranch test
  | loopCheck => .loopCheck
  | native kind result _ _ => .native kind result
  | script result _ _ => .script result
  | ret result => .ret result

/-- The encoded length. -/
def length (instruction : Instruction) : Nat := instruction.opcode.length

/-- Whether control never falls through to the next instruction. -/
def isTerminator (instruction : Instruction) : Bool := instruction.opcode.isTerminator

/-- The distance of a branch, counted from the offset of the next instruction. -/
def delta? : Instruction → Option Int
  | branch _ delta => some delta.toInt
  | longBranch _ delta => some delta.toInt
  | _ => none

end Instruction

/-- The number of results a call pushes. -/
def ResultKind.count : ResultKind → Nat
  | .void => 0
  | .int => 1

/-- The number of stack slots a native call takes below its arguments. -/
def MethodKind.receivers : MethodKind → Nat
  | .object => 1
  | .static => 0

/-- The number of operands a branch tests. -/
def Test.operands : Test → Nat
  | .zero | .nonzero => 1
  | .always => 0

/-- How many operands an instruction takes from the stack, and how many it leaves in their
place. -/
structure StackEffect where
  pops : Nat
  pushes : Nat
  deriving DecidableEq

/-- The stack effect of an instruction. Returning takes the returned value; the callee's frame
is gone after that, so nothing counts as pushed there. -/
def Instruction.stackEffect : Instruction → StackEffect
  | nop | loopCheck => ⟨0, 0⟩
  | pop | globalStore _ | localStore _ => ⟨1, 0⟩
  | dup => ⟨1, 2⟩
  | globalLoad _ | localLoad _ | specialLoad _ | threadLoad _ | const _ | const8 _ => ⟨0, 1⟩
  | unary _ => ⟨1, 1⟩
  | binary _ => ⟨2, 1⟩
  | branch test _ | longBranch test _ => ⟨test.operands, 0⟩
  | native kind result argc _ => ⟨argc.toNat + kind.receivers, result.count⟩
  | script result argc _ => ⟨argc.toNat, result.count⟩
  | ret result => ⟨result.count, 0⟩

/-- The number of byte offsets that code can be addressed by. -/
def offsetLimit : Nat := Nat.pow 2 63

/-- The offset that a branch leads to, from the offset of the next instruction and the delta.
There is none below zero, and none at or above the largest addressable offset. -/
def branchTarget? (next : Nat) (delta : Int) : Option Nat :=
  let target := (next : Int) + delta
  if next < offsetLimit ∧ 0 ≤ target ∧ target < offsetLimit then some target.toNat else none

end ScriptMachine

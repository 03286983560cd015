import ScriptMachine.Instruction.Opcode

/-!
# Arithmetic

Every script value is a signed word of thirty-two bits. Sums, differences, products and negation
wrap around. Division truncates toward zero and is total: a zero divisor gives zero, both for the
quotient and for the remainder. Shift counts are taken modulo thirty-two, and the logical and
comparing operations answer one for truth and zero for falsehood.
-/

namespace ScriptMachine

/-- Truth as a script value. -/
def truth (b : Bool) : Int32 := if b then 1 else 0

/-- The quotient rounded toward zero, or zero when there is none. -/
def divide (a b : Int32) : Int32 := if b = 0 then 0 else a / b

/-- The remainder of the quotient rounded toward zero, or zero when there is none. -/
def remainder (a b : Int32) : Int32 := if b = 0 then 0 else a % b

/-- The effective shift count: the five low bits, a number below thirty-two. -/
def shiftCount (b : Int32) : Int32 := b &&& 31

/-- The result that replaces the operand. -/
def UnaryOp.eval : UnaryOp → Int32 → Int32
  | .isZero, a => truth (a == 0)
  | .neg, a => -a
  | .complement, a => ~~~a

/-- The result that replaces the operands, the lower one first. -/
def BinaryOp.eval : BinaryOp → Int32 → Int32 → Int32
  | .add, a, b => a + b
  | .sub, a, b => a - b
  | .mul, a, b => a * b
  | .div, a, b => divide a b
  | .mod, a, b => remainder a b
  | .bitAnd, a, b => a &&& b
  | .bitOr, a, b => a ||| b
  | .bitXor, a, b => a ^^^ b
  | .shiftRight, a, b => a >>> shiftCount b
  | .shiftLeft, a, b => a <<< shiftCount b
  | .both, a, b => truth (a != 0 && b != 0)
  | .either, a, b => truth (a != 0 || b != 0)
  | .lt, a, b => truth (decide (a < b))
  | .le, a, b => truth (decide (a ≤ b))
  | .gt, a, b => truth (decide (b < a))
  | .ge, a, b => truth (decide (b ≤ a))
  | .eq, a, b => truth (a == b)
  | .ne, a, b => truth (a != b)

/-- Whether a branch with this test is taken on the popped operand. -/
def Test.holds : Test → Int32 → Bool
  | .zero, a => a == 0
  | .nonzero, a => a != 0
  | .always, _ => true

end ScriptMachine

import ScriptMachine.Arithmetic
import ScriptMachine.Domain.Basic

/-!
# Effects of instructions

What a single instruction does follows from the operand stack, the registers of the frame and the
variables within reach. An effect either changes the stack and goes on, or names what the run has
to do next: branch, write a global, spend loop budget, call, return. Reading or writing outside the
operand stack is an effect of its own, which stops the machine; verified code never has it.
-/

namespace ScriptMachine

/-- What an instruction asks the run to do. -/
inductive Effect where
  /-- Go on with the next instruction, over this stack and with this height. -/
  | advance (stack : Array Int32) (sp : Nat)
  /-- Write a global and go on with this height. -/
  | writeGlobal (index : Nat) (value : Int32) (sp : Nat)
  /-- Go on at a distance from the next instruction, with this height. -/
  | jump (delta : Int) (sp : Nat)
  /-- Spend one unit of the loop budget. -/
  | spend
  /-- Call a native method with the slots from `base` to `sp`. -/
  | native (kind : MethodKind) (result : ResultKind) (method : UInt8) (base : Nat)
  /-- Call a script function with the slots from the height less `argc`. -/
  | script (result : ResultKind) (callee : FunctionId) (argc : Nat)
  /-- Leave the frame, over this stack. -/
  | ret (stack : Array Int32)
  /-- The instruction cannot be executed. -/
  | invalid
  /-- The instruction would leave the operand stack. -/
  | outOfBounds

/-- What an instruction can read beside the operand stack. -/
structure Variables where
  globals : Array Int32
  specials : Array Int32
  /-- The variables of the running thread. -/
  thread : Array Int32

namespace Effect

/-- Pushes a value. -/
def push (stack : Array Int32) (sp : Nat) (value : Int32) : Effect :=
  if sp < stack.size then advance (stack.set! sp value) (sp + 1) else outOfBounds

/-- Pushes a variable, if there is one at the index. -/
def pushVariable (stack : Array Int32) (sp : Nat) (values : Array Int32) (index : UInt8) :
    Effect :=
  match values[index.toNat]? with
  | some value => push stack sp value
  | none => invalid

/-- Reads the topmost operand. -/
def top? (stack : Array Int32) (sp : Nat) : Option Int32 :=
  if sp = 0 then none else stack[sp - 1]?

/-- Goes on with the topmost operand, or stops if there is none. -/
def withTop (stack : Array Int32) (sp : Nat) (next : Int32 → Effect) : Effect :=
  match top? stack sp with
  | some value => next value
  | none => outOfBounds

/-- Branches if the test holds of the topmost operand, which is popped. A branch that is always
taken has no operand. -/
def branchOn (stack : Array Int32) (sp : Nat) (test : Test) (delta : Int) : Effect :=
  match test with
  | .always => jump delta sp
  | .zero | .nonzero =>
    withTop stack sp fun value =>
      if test.holds value then jump delta (sp - 1) else advance stack (sp - 1)

end Effect

open Effect in
/-- The effect of an instruction in a frame whose locals start at `base`. -/
def Instruction.effect (reach : Variables) (base : Nat) (stack : Array Int32) (sp : Nat) :
    Instruction → Effect
  | .nop => .advance stack sp
  | .pop => if sp = 0 then .outOfBounds else .advance stack (sp - 1)
  | .dup => withTop stack sp fun value => push stack sp value
  | .globalLoad index => pushVariable stack sp reach.globals index
  | .globalStore index =>
    if sp = 0 then .outOfBounds
    else if index.toNat < reach.globals.size then
      withTop stack sp fun value => .writeGlobal index.toNat value (sp - 1)
    else .invalid
  | .localLoad index =>
    match stack[base + index.toNat]? with
    | some value => push stack sp value
    | none => .outOfBounds
  | .localStore index =>
    withTop stack sp fun value =>
      let slot := base + index.toNat
      if slot < stack.size then .advance (stack.set! slot value) (sp - 1) else .outOfBounds
  | .specialLoad index => pushVariable stack sp reach.specials index
  | .threadLoad index => pushVariable stack sp reach.thread index
  | .const value => push stack sp value
  | .const8 value => push stack sp value.toInt32
  | .unary op => withTop stack sp fun value => .advance (stack.set! (sp - 1) (op.eval value)) sp
  | .binary op =>
    withTop stack sp fun b =>
      withTop stack (sp - 1) fun a => .advance (stack.set! (sp - 2) (op.eval a b)) (sp - 1)
  | .branch test delta => branchOn stack sp test delta.toInt
  | .longBranch test delta => branchOn stack sp test delta.toInt
  | .loopCheck => .spend
  | .native kind result argc method =>
    if sp < argc.toNat + kind.receivers then .outOfBounds
    else .native kind result method (sp - (argc.toNat + kind.receivers))
  | .script result argc callee => .script result ⟨callee.toNat⟩ argc.toNat
  | .ret .void => .ret stack
  | .ret .int =>
    withTop stack sp fun value =>
      if base < stack.size then .ret (stack.set! base value) else .outOfBounds

end ScriptMachine

import ScriptMachine.Proofs.Assembling
import ScriptMachine.Proofs.Integers
import ScriptMachine.Proofs.StraightLine

/-!
# Arithmetic expressions

An expression is a tree of operations over constants. Its value is what the operations give over the
integers, where every intermediate result is reduced to the signed range of a word. It is compiled
to the statements of its operands, each after the other, and that of its operation behind them. The
instructions are then without branches and leave one operand, and the operand depth that they need
is the one with which the tree is evaluated from left to right.
-/

namespace ScriptMachine

/-- An arithmetic expression over constants. -/
inductive Expression where
  | constant (value : Int32)
  | unary (op : UnaryOp) (operand : Expression)
  | binary (op : BinaryOp) (left right : Expression)

/-- The instruction that pushes a constant by the shorter of the two encodings that can hold it. -/
def Instruction.push (value : Int32) : Instruction :=
  if value.toInt8.toInt32 = value then .const8 value.toInt8 else .const value

namespace Expression

/-- The statements that compute an expression: those of the operands, then that of the operation. -/
def statements : Expression → List Statement
  | constant value => [.push value]
  | unary op operand => operand.statements ++ [.emit (.unary op)]
  | binary op left right => left.statements ++ right.statements ++ [.emit (.binary op)]

/-- The operands that lie on the stack at once when the expression is evaluated, at the most. -/
def depth : Expression → Nat
  | constant _ => 1
  | unary _ operand => operand.depth
  | binary _ left right => max left.depth (1 + right.depth)

/-- The value over the integers, with every intermediate result reduced to the signed range of a
word. -/
def value : Expression → Int
  | constant value => value.toInt
  | unary op operand => reduced (op.value operand.value)
  | binary op left right => reduced (op.value left.value right.value)

/-- The word that the operations on words give. -/
def word : Expression → Int32
  | constant value => value
  | unary op operand => op.eval operand.word
  | binary op left right => op.eval left.word right.word

/-- The instructions that compute an expression. -/
def instructions : Expression → List Instruction
  | constant value => [.push value]
  | unary op operand => operand.instructions ++ [.unary op]
  | binary op left right => left.instructions ++ right.instructions ++ [.binary op]

/-- The word stands for the value. -/
theorem toInt_word (expression : Expression) : expression.word.toInt = expression.value := by
  induction expression with
  | constant value => rfl
  | unary op operand ih => rw [word, op.toInt_eval, ih, value]
  | binary op left right ihl ihr => rw [word, op.toInt_eval, ihl, ihr, value]

/-! ## Assembling -/

/-- A constant is pushed by one instruction. -/
theorem push_eq (value : Int32) : Statement.push value = .emit (.push value) := by
  simp only [Statement.push, Instruction.push]
  split <;> rfl

/-- Each statement appends its instruction. -/
theorem statements_eq (expression : Expression) :
    expression.statements = expression.instructions.map .emit := by
  induction expression with
  | constant value => simp only [statements, instructions, push_eq, List.map_singleton]
  | unary op operand ih =>
    simp only [statements, instructions, ih, List.map_append, List.map_singleton]
  | binary op left right ihl ihr =>
    simp only [statements, instructions, ihl, ihr, List.map_append, List.map_singleton]

end Expression

/-- Statements without labels and calls are assembled to their instructions. -/
theorem Assembler.finish_emits (instructions : List Instruction) :
    (({} : Assembler).applyAll (instructions.map .emit)).finish =
      .ok (instructions.flatMap Instruction.encode).toArray := by
  have plain : ∀ (pc : Nat) (labels : Array (Option Nat)),
      (∀ entry ∈ Statement.emissions pc (instructions.map .emit),
        Statement.oversized? entry = none) ∧
      List.Forall₂ (fun entry instruction => Statement.complete labels entry = .ok instruction)
        (Statement.emissions pc (instructions.map .emit)) instructions := by
    induction instructions with
    | nil => exact fun pc labels => ⟨by simp [Statement.emissions], .nil⟩
    | cons instruction rest ih =>
      intro pc labels
      have appends : 0 < (Statement.emit instruction).size := instruction.opcode.length_pos
      obtain ⟨small, completed⟩ := ih (pc + (Statement.emit instruction).size) labels
      rw [List.map_cons, Statement.emissions, if_pos appends]
      refine ⟨fun entry listed => ?_, .cons rfl completed⟩
      rcases List.mem_cons.1 listed with rfl | later
      · rfl
      · exact small entry later
  exact finish_eq_ok.2 ⟨(plain 0 #[]).1, instructions, (plain 0 _).2, rfl⟩

namespace Expression

/-- The statements of a function that answers the expression. -/
def body (expression : Expression) : List Statement :=
  expression.statements ++ [.emit (.ret .int)]

/-- The code of a function that answers the expression. -/
def code (expression : Expression) : Code :=
  ((expression.instructions ++ [Instruction.ret .int]).flatMap Instruction.encode).toArray

/-- Such a function is assembled. -/
theorem finish_body (expression : Expression) :
    (({} : Assembler).applyAll expression.body).finish = .ok expression.code := by
  have emits : expression.body =
      (expression.instructions ++ [Instruction.ret .int]).map .emit := by
    rw [body, statements_eq, List.map_append, List.map_singleton]
  rw [emits]
  exact Assembler.finish_emits _

/-! ## Depths -/

open Code

variable {instruction : Instruction}

/-- The stack effect of pushing a constant. -/
theorem stackEffect_push (value : Int32) : (Instruction.push value).stackEffect = ⟨0, 1⟩ := by
  unfold Instruction.push
  split <;> rfl

/-- Every operation finds its operands, the deepest depth is that of the tree, and one operand is
left. -/
theorem depths (expression : Expression) (before : Nat) :
    Supplied before expression.instructions ∧
      deepest before expression.instructions = before + expression.depth ∧
      depthAfter before expression.instructions = before + 1 := by
  induction expression generalizing before with
  | constant value =>
    have pushed : (Instruction.push value).after before = before + 1 := by
      rw [Instruction.after, stackEffect_push, Nat.sub_zero]
    refine ⟨⟨?_, trivial⟩, ?_, pushed⟩
    · rw [stackEffect_push]
      exact Nat.zero_le _
    · rw [instructions, deepest, deepest, pushed, depth]
      omega
  | unary op operand ih =>
    obtain ⟨supplied, deep, left⟩ := ih before
    have kept : (Instruction.unary op).after (before + 1) = before + 1 := rfl
    refine ⟨supplied_append.2 ⟨supplied, ?_⟩, ?_, ?_⟩
    · rw [left]
      exact ⟨Nat.le_add_left 1 before, trivial⟩
    · have ends := @depthAfter_le_deepest before operand.instructions
      rw [left, deep] at ends
      rw [instructions, deepest_append, left, deep, deepest, deepest, kept, depth]
      omega
    · rw [instructions, depthAfter_append, left]
      rfl
  | binary op left right ihl ihr =>
    obtain ⟨supplied, deep, first⟩ := ihl before
    obtain ⟨supplied', deep', second⟩ := ihr (before + 1)
    have joined : (Instruction.binary op).after (before + 1 + 1) = before + 1 := rfl
    refine ⟨supplied_append.2 ⟨supplied_append.2 ⟨supplied, first ▸ supplied'⟩, ?_⟩, ?_, ?_⟩
    · rw [depthAfter_append, first, second]
      exact ⟨Nat.le_add_left 2 before, trivial⟩
    · have ends := @depthAfter_le_deepest (before + 1) right.instructions
      rw [second, deep'] at ends
      rw [instructions, deepest_append, deepest_append, depthAfter_append, first, second, deep,
        deep', deepest, deepest, joined, depth]
      omega
    · rw [instructions, depthAfter_append, depthAfter_append, first, second]
      rfl

/-- An instruction that computes part of an expression pushes a constant or is an operation. -/
theorem cases_of_mem {expression : Expression} (listed : instruction ∈ expression.instructions) :
    (∃ value, instruction = .push value) ∨ (∃ op, instruction = .unary op) ∨
      ∃ op, instruction = .binary op := by
  induction expression with
  | constant value => exact .inl ⟨value, List.mem_singleton.1 listed⟩
  | unary op operand ih =>
    rcases List.mem_append.1 listed with inside | last
    · exact ih inside
    · exact .inr (.inl ⟨op, List.mem_singleton.1 last⟩)
  | binary op left right ihl ihr =>
    rcases List.mem_append.1 listed with inside | last
    · exact (List.mem_append.1 inside).elim ihl ihr
    · exact .inr (.inr ⟨op, List.mem_singleton.1 last⟩)

/-- The code of a function that answers an expression is executed in order. -/
theorem straight {ν : Type} (expression : Expression) {definition : Definition ν}
    (code : definition.code = expression.code) :
    definition.Straight expression.instructions .int := by
  obtain ⟨supplied, _, left⟩ := expression.depths 0
  refine ⟨code, fun instruction listed => ?_, fun instruction listed => ?_,
    supplied_append.2 ⟨supplied, ?_⟩⟩
  · rcases cases_of_mem listed with ⟨value, rfl⟩ | ⟨op, rfl⟩ | ⟨op, rfl⟩
    · unfold Instruction.push
      split <;> exact ⟨rfl, rfl⟩
    · exact ⟨rfl, rfl⟩
    · exact ⟨rfl, rfl⟩
  · rcases cases_of_mem listed with ⟨value, rfl⟩ | ⟨op, rfl⟩ | ⟨op, rfl⟩
    · unfold Instruction.push
      split <;> trivial
    · trivial
    · trivial
  · rw [left]
    exact ⟨Nat.le_refl 1, trivial⟩

/-- Verification computes the locals and the evaluation depth of the tree. -/
theorem verify_eq_ok {ν : Type} (expression : Expression) {definition : Definition ν}
    {limits : VerificationLimits} (code : definition.code = expression.code)
    (fits : definition.code.size ≤ limits.codeLength) (addressable : definition.locals ≤ 256)
    (paired : definition.params ≤ definition.locals)
    (bounded : definition.locals + expression.depth ≤ limits.stackSlots) :
    definition.verify limits = .ok (definition.locals + expression.depth) := by
  have deep : deepest 0 expression.instructions = expression.depth := by
    rw [(expression.depths 0).2.1, Nat.zero_add]
  rw [← deep] at bounded ⊢
  exact (expression.straight code).verify_eq_ok fits addressable paired bounded

end Expression

end ScriptMachine

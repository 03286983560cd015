import ScriptMachine.Machine.Effect
import ScriptMachine.Proofs.Settling

/-!
# Operands of instructions

The slots of the operand stack that an instruction touches follow from the base of the frame and the
height of the stack. An instruction with its slots inside the stack and its operands above the base
of the frame has an effect that agrees with its stack effect; it never leaves the stack, and it
cannot be executed only when it names a variable that is not there.
-/

namespace ScriptMachine

variable {ν : Type}

namespace Instruction

/-- The slots of the operand stack that an instruction reads or writes. A native call reads the
window of its arguments. A call with a result writes the slot below them. -/
def slots (base sp : Nat) : Instruction → List Nat
  | nop | pop | loopCheck | ret .void => []
  | dup => [sp - 1, sp]
  | globalLoad _ | specialLoad _ | threadLoad _ | const _ | const8 _ => [sp]
  | globalStore _ | unary _ => [sp - 1]
  | localLoad index => [base + index.toNat, sp]
  | localStore index => [sp - 1, base + index.toNat]
  | binary _ => [sp - 1, sp - 2]
  | branch test _ | longBranch test _ => (List.range' (sp - test.operands) test.operands)
  | native kind result argc _ =>
    let start := sp - (argc.toNat + kind.receivers)
    List.range' start (argc.toNat + kind.receivers) ++ List.range' start result.count
  | script result argc _ => List.range' (sp - argc.toNat) result.count
  | ret .int => [sp - 1, base]

/-- An instruction names a variable that is not there. -/
def Misses (reach : Variables) : Instruction → Prop
  | globalLoad index | globalStore index => reach.globals.size ≤ index.toNat
  | specialLoad index => reach.specials.size ≤ index.toNat
  | threadLoad index => reach.thread.size ≤ index.toNat
  | _ => False

/-- A stack effect is the same at every height. -/
theorem after_add (instruction : Instruction) {low before : Nat}
    (enough : instruction.stackEffect.pops ≤ before) :
    instruction.after (low + before) = low + instruction.after before := by
  unfold after
  omega

/-- The slots of an instruction with its operands above the locals, that leaves its results within
the stack, lie inside the stack. -/
theorem slots_inside {definition : Definition ν} {instruction : Instruction}
    {base sp size : Nat} (inRange : definition.InRange instruction)
    (enough : base + definition.locals + instruction.stackEffect.pops ≤ sp) (height : sp ≤ size)
    (room : instruction.after sp ≤ size) : ∀ slot ∈ instruction.slots base sp, slot < size := by
  unfold after at room
  intro slot touched
  cases instruction with
  | localLoad index | localStore index =>
    simp only [Definition.InRange] at inRange
    simp only [stackEffect] at enough room
    simp only [slots, List.mem_cons, List.not_mem_nil, or_false] at touched
    omega
  | branch test delta | longBranch test delta =>
    simp only [stackEffect] at enough room
    simp only [slots, List.mem_range'_1] at touched
    omega
  | native kind result argc method =>
    simp only [stackEffect] at enough room
    simp only [slots, List.mem_append, List.mem_range'_1] at touched
    omega
  | script result argc callee =>
    simp only [stackEffect] at enough room
    simp only [slots, List.mem_range'_1] at touched
    omega
  | ret result =>
    cases result with
    | void => simp [slots] at touched
    | int =>
      simp only [stackEffect, ResultKind.count] at enough room
      simp only [slots, List.mem_cons, List.not_mem_nil, or_false] at touched
      omega
  | nop | pop | loopCheck => simp [slots] at touched
  | dup | globalLoad _ | globalStore _ | specialLoad _ | threadLoad _ | const _
  | const8 _ | unary _ | binary _ =>
    simp only [stackEffect] at enough room
    simp only [slots, List.mem_cons, List.not_mem_nil, or_false] at touched
    omega

end Instruction

namespace Effect

/-- An effect is what an instruction may ask for over a stack of this size and with this height. -/
def Agrees (reach : Variables) (instruction : Instruction) (size sp : Nat) : Effect → Prop
  | advance stack height =>
    stack.size = size ∧ height = instruction.after sp ∧ instruction.isTerminator = false
  | writeGlobal index _ height =>
    index < reach.globals.size ∧ height = instruction.after sp ∧
      instruction.isTerminator = false
  | jump delta height => instruction.delta? = some delta ∧ height = instruction.after sp
  | spend => sp = instruction.after sp ∧ instruction.isTerminator = false
  | native kind result method start =>
    (∃ argc, instruction = .native kind result argc method) ∧
      start + result.count = instruction.after sp
  | script result callee argc =>
    (∃ count index, instruction = .script result count index ∧ callee = ⟨index.toNat⟩ ∧
      argc = count.toNat) ∧ argc ≤ sp ∧ sp - argc + result.count = instruction.after sp
  | ret stack => stack.size = size
  | invalid => instruction.Misses reach
  | outOfBounds => False

variable {reach : Variables} {instruction : Instruction} {size sp : Nat}
  {stack : Array Int32}

/-- Pushing inside the stack. -/
theorem push_eq (inside : sp < stack.size) (value : Int32) :
    push stack sp value = advance (stack.set! sp value) (sp + 1) := if_pos inside

/-- There is a topmost operand inside the stack. -/
theorem withTop_eq (filled : 0 < sp) (inside : sp - 1 < stack.size) (next : Int32 → Effect) :
    withTop stack sp next = next stack[sp - 1] := by
  have lowest : sp ≠ 0 := by omega
  simp only [withTop, top?, lowest, ↓reduceIte, Array.getElem?_eq_getElem inside]

/-- A branch on an operand inside the stack. -/
theorem agrees_branchOn {test : Test} {delta : Int} (branches : instruction.delta? = some delta)
    (effect : instruction.stackEffect = ⟨test.operands, 0⟩)
    (falls : test ≠ .always → instruction.isTerminator = false)
    (enough : test.operands ≤ sp) (inside : ∀ slot ∈ List.range' (sp - test.operands) test.operands,
      slot < stack.size) :
    (branchOn stack sp test delta).Agrees reach instruction stack.size sp := by
  have height : instruction.after sp = sp - test.operands := by
    rw [Instruction.after, effect]
    rfl
  unfold branchOn
  cases test with
  | always => exact ⟨branches, height.symm⟩
  | zero | nonzero =>
    simp only [Test.operands] at height enough inside
    dsimp only
    rw [withTop_eq enough (inside _ (by simp))]
    split
    · exact ⟨branches, height.symm⟩
    · exact ⟨rfl, height.symm, falls (by simp)⟩

/-- Pushing a variable, if it is there. -/
theorem agrees_pushVariable {values : Array Int32} {index : UInt8} (inside : sp < stack.size)
    (effect : instruction.stackEffect = ⟨0, 1⟩) (falls : instruction.isTerminator = false)
    (misses : values.size ≤ index.toNat → instruction.Misses reach) :
    (pushVariable stack sp values index).Agrees reach instruction stack.size sp := by
  unfold pushVariable
  split
  · rw [push_eq inside]
    exact ⟨by simp, by rw [Instruction.after, effect]; rfl, falls⟩
  · rename_i missing
    exact misses (Array.getElem?_eq_none_iff.1 missing)

end Effect

/-! ### Family by family -/

namespace Instruction

/-- The instructions fall into families by what they do to the operand stack. -/
inductive Family where
  | control
  | load
  | store
  | operator
  | branch
  | call

/-- The family of an instruction. A duplicate is a load from the stack, and a return belongs to the
calls. -/
def family : Instruction → Family
  | nop | loopCheck | pop => .control
  | dup | globalLoad _ | specialLoad _ | threadLoad _ | localLoad _ | const _ | const8 _ => .load
  | globalStore _ | localStore _ => .store
  | unary _ | binary _ => .operator
  | branch _ _ | longBranch _ _ => .branch
  | native _ _ _ _ | script _ _ _ | ret _ => .call

variable (reach : Variables) {instruction : Instruction} {base sp : Nat} {stack : Array Int32}

/-- The effect of an instruction that moves no operand. -/
theorem effect_agrees_control (controls : instruction.family = .control)
    (enough : base + instruction.stackEffect.pops ≤ sp) :
    (instruction.effect reach base stack sp).Agrees reach instruction stack.size sp := by
  cases instruction with
  | nop => exact ⟨rfl, rfl, rfl⟩
  | loopCheck => exact ⟨rfl, rfl⟩
  | pop =>
    simp only [stackEffect] at enough
    have filled : sp ≠ 0 := by omega
    simp only [effect, filled, ↓reduceIte]
    exact ⟨rfl, rfl, rfl⟩
  | _ => cases controls

section

variable (enough : base + instruction.stackEffect.pops ≤ sp)
  (inside : ∀ slot ∈ instruction.slots base sp, slot < stack.size)

include enough inside

/-- The effect of a load. -/
theorem effect_agrees_load (loads : instruction.family = .load) :
    (instruction.effect reach base stack sp).Agrees reach instruction stack.size sp := by
  cases instruction with
  | dup =>
    simp only [stackEffect] at enough
    have top : sp - 1 < stack.size := inside _ (by simp [slots])
    have above : sp < stack.size := inside _ (by simp [slots])
    simp only [effect]
    rw [Effect.withTop_eq (by omega) top, Effect.push_eq above]
    refine ⟨by simp, ?_, rfl⟩
    simp only [after, stackEffect]
    omega
  | globalLoad index | specialLoad index | threadLoad index =>
    exact Effect.agrees_pushVariable (inside _ (by simp [slots])) rfl rfl id
  | localLoad index =>
    have slot : base + index.toNat < stack.size := inside _ (by simp [slots])
    have above : sp < stack.size := inside _ (by simp [slots])
    simp only [effect, Array.getElem?_eq_getElem slot]
    rw [Effect.push_eq above]
    exact ⟨by simp, rfl, rfl⟩
  | const value | const8 value =>
    have above : sp < stack.size := inside _ (by simp [slots])
    simp only [effect]
    rw [Effect.push_eq above]
    exact ⟨by simp, rfl, rfl⟩
  | _ => cases loads

/-- The effect of a store. -/
theorem effect_agrees_store (stores : instruction.family = .store) :
    (instruction.effect reach base stack sp).Agrees reach instruction stack.size sp := by
  cases instruction with
  | globalStore index =>
    simp only [stackEffect] at enough
    have filled : sp ≠ 0 := by omega
    have top : sp - 1 < stack.size := inside _ (by simp [slots])
    simp only [effect, filled, ↓reduceIte]
    split
    · rename_i present
      rw [Effect.withTop_eq (by omega) top]
      exact ⟨present, rfl, rfl⟩
    · rename_i missing
      exact Nat.le_of_not_lt missing
  | localStore index =>
    simp only [stackEffect] at enough
    have top : sp - 1 < stack.size := inside _ (by simp [slots])
    have slot : base + index.toNat < stack.size := inside _ (by simp [slots])
    simp only [effect]
    rw [Effect.withTop_eq (by omega) top]
    simp only [slot, ↓reduceIte]
    exact ⟨by simp, rfl, rfl⟩
  | _ => cases stores

/-- The effect of an operator. -/
theorem effect_agrees_operator (operates : instruction.family = .operator) :
    (instruction.effect reach base stack sp).Agrees reach instruction stack.size sp := by
  cases instruction with
  | unary op =>
    simp only [stackEffect] at enough
    have top : sp - 1 < stack.size := inside _ (by simp [slots])
    simp only [effect]
    rw [Effect.withTop_eq (by omega) top]
    refine ⟨by simp, ?_, rfl⟩
    simp only [after, stackEffect]
    omega
  | binary op =>
    simp only [stackEffect] at enough
    have top : sp - 1 < stack.size := inside _ (by simp [slots])
    have second : sp - 1 - 1 < stack.size := inside (sp - 2) (by simp [slots])
    simp only [effect]
    rw [Effect.withTop_eq (by omega) top, Effect.withTop_eq (by omega) second]
    refine ⟨by simp, ?_, rfl⟩
    simp only [after, stackEffect]
    omega
  | _ => cases operates

/-- The effect of a branch. -/
theorem effect_agrees_branch (branches : instruction.family = .branch) :
    (instruction.effect reach base stack sp).Agrees reach instruction stack.size sp := by
  cases instruction with
  | branch test delta | longBranch test delta =>
    simp only [stackEffect] at enough
    exact Effect.agrees_branchOn rfl rfl (by cases test <;> simp [isTerminator, opcode,
      Opcode.isTerminator]) (by omega) inside
  | _ => cases branches

/-- The effect of a call or a return. -/
theorem effect_agrees_call (calls : instruction.family = .call) :
    (instruction.effect reach base stack sp).Agrees reach instruction stack.size sp := by
  cases instruction with
  | native kind result argc method =>
    simp only [stackEffect] at enough
    have filled : ¬sp < argc.toNat + kind.receivers := by omega
    simp only [effect, filled, ↓reduceIte]
    exact ⟨⟨argc, rfl⟩, rfl⟩
  | script result argc callee =>
    simp only [stackEffect] at enough
    exact ⟨⟨argc, callee, rfl, rfl, rfl⟩, by omega, rfl⟩
  | ret result =>
    cases result with
    | void => exact rfl
    | int =>
      simp only [stackEffect, ResultKind.count] at enough
      have top : sp - 1 < stack.size := inside _ (by simp [slots])
      have bottom : base < stack.size := inside _ (by simp [slots])
      simp only [effect]
      rw [Effect.withTop_eq (by omega) top, if_pos bottom]
      simp [Effect.Agrees]
  | _ => cases calls

end

/-- The effect of an instruction with its operands above the base of the frame and its slots inside
the stack. -/
theorem effect_agrees (instruction : Instruction)
    (enough : base + instruction.stackEffect.pops ≤ sp)
    (inside : ∀ slot ∈ instruction.slots base sp, slot < stack.size) :
    (instruction.effect reach base stack sp).Agrees reach instruction stack.size sp := by
  cases member : instruction.family with
  | control => exact effect_agrees_control reach member enough
  | load => exact effect_agrees_load reach enough inside member
  | store => exact effect_agrees_store reach enough inside member
  | operator => exact effect_agrees_operator reach enough inside member
  | branch => exact effect_agrees_branch reach enough inside member
  | call => exact effect_agrees_call reach enough inside member

end Instruction

end ScriptMachine

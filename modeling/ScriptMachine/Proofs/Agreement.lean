import ScriptMachine.Proofs.Safety

/-!
# Operand stacks that agree

Two operand stacks agree below a height if they hold the same in every slot below it; their lengths
and whatever lies above may differ. An instruction of a verified function reads nothing at or above
the height of the stack. So over stacks that agree below this height it has the same effect, and the
stacks that it leaves agree below the new height.
-/

namespace ScriptMachine

variable {ν : Type}

/-- Two operand stacks hold the same in every slot below a height. -/
def Agree (height : Nat) (first second : Array Int32) : Prop :=
  ∀ slot < height, first[slot]? = second[slot]?

namespace Agree

variable {height : Nat} {first second : Array Int32}

/-- Stacks agree below every lower height. -/
theorem mono (agree : Agree height first second) {lower : Nat} (upTo : lower ≤ height) :
    Agree lower first second := fun slot below => agree slot (Nat.lt_of_lt_of_le below upTo)

/-- Writing the same value to the same slot. -/
theorem set (agree : Agree height first second) (slot : Nat) (value : Int32) :
    Agree height (first.set! slot value) (second.set! slot value) := by
  intro other below
  have same := agree other below
  simp only [Array.set!_eq_setIfInBounds, Array.getElem?_setIfInBounds]
  by_cases here : slot = other
  · subst here
    have inside : slot < first.size ↔ slot < second.size := by
      rw [← not_iff_not, Nat.not_lt, Nat.not_lt, ← Array.getElem?_eq_none_iff,
        ← Array.getElem?_eq_none_iff, same]
    simp only [↓reduceIte, inside]
  · rw [if_neg here, if_neg here, same]

/-- Writing the same value to the slot at the height. -/
theorem push (agree : Agree height first second) (inside : height < first.size)
    (inside' : height < second.size) (value : Int32) :
    Agree (height + 1) (first.set! height value) (second.set! height value) := by
  intro slot below
  rcases Nat.lt_succ_iff_lt_or_eq.1 below with lower | rfl
  · exact agree.set height value slot lower
  · simp [inside, inside']

/-- The same operand is read. -/
theorem getElem_eq (agree : Agree height first second) {slot : Nat} (below : slot < height)
    (inside : slot < first.size) (inside' : slot < second.size) : first[slot] = second[slot] := by
  have same := agree slot below
  rw [Array.getElem?_eq_getElem inside, Array.getElem?_eq_getElem inside'] at same
  exact Option.some.inj same

/-- The same arguments are read. -/
theorem extract_eq (agree : Agree height first second) (start : Nat) (inside : height ≤ first.size)
    (inside' : height ≤ second.size) :
    first.extract start height = second.extract start height := by
  refine Array.ext ?_ fun index below below' => ?_
  · simp only [Array.size_extract]
    omega
  · simp only [Array.size_extract] at below
    simp only [Array.getElem_extract]
    exact agree.getElem_eq (by omega) (by omega) (by omega)

/-- Clearing the same slots from the height on. -/
theorem clearRange {count : Nat} (agree : Agree height first second)
    (inside : height + count ≤ first.size) (inside' : height + count ≤ second.size) :
    Agree (height + count) (clearRange first height count) (clearRange second height count) := by
  induction count generalizing height first second with
  | zero => exact agree
  | succ count ih =>
    have cleared := ih (agree.push (by omega) (by omega) 0) (by simp; omega) (by simp; omega)
    rw [Nat.add_right_comm] at cleared
    exact cleared

/-- Storing the same result at the height. -/
theorem storeResult {stored stored' : Array Int32} {result : ResultKind} {value : Int32}
    (agree : Agree height first second)
    (done : Config.storeResult first result height value = .ok stored)
    (done' : Config.storeResult second result height value = .ok stored') :
    Agree (height + result.count) stored stored' := by
  cases result with
  | void =>
    cases done
    cases done'
    exact agree
  | int =>
    simp only [Config.storeResult] at done done'
    split at done
    · split at done'
      · cases done
        cases done'
        exact agree.push ‹_› ‹_› value
      · cases done'
    · cases done

end Agree

/-- An operand stack that has been lengthened by zeros, in the slots below its new length. -/
theorem getElem?_lengthened {stack : Array Int32} {size slot : Nat} (below : slot < size) :
    (stack ++ Array.replicate (size - stack.size) 0)[slot]? = some (stack[slot]?.getD 0) := by
  rcases Nat.lt_or_ge slot stack.size with inside | outside
  · rw [Array.getElem?_append_left inside, Array.getElem?_eq_getElem inside]
    rfl
  · rw [Array.getElem?_append_right outside, Array.getElem?_replicate, if_pos (by omega),
      Array.getElem?_eq_none outside]
    rfl

/-- Stacks that agree on the parameters of a frame agree on all its locals once they have been
prepared for it. -/
theorem Agree.prepareStack {frame : Frame ν} {first second : Array Int32}
    (agree : Agree (frame.base + min frame.function.params frame.function.locals) first second) :
    Agree (frame.base + frame.function.locals) (frame.prepareStack first)
      (frame.prepareStack second) := by
  have room := frame.function.locals_le_stackSlots
  have lengthened : Agree (frame.base + min frame.function.params frame.function.locals)
      (first ++ Array.replicate (frame.base + frame.function.stackSlots - first.size) 0)
      (second ++ Array.replicate (frame.base + frame.function.stackSlots - second.size) 0) := by
    intro slot below
    have within : slot < frame.base + frame.function.stackSlots := by omega
    rw [getElem?_lengthened within, getElem?_lengthened within, agree slot below]
  have cleared := @Agree.clearRange _ _ _
    (frame.function.locals - min frame.function.params frame.function.locals) lengthened
    (by simp only [Array.size_append, Array.size_replicate]; omega)
    (by simp only [Array.size_append, Array.size_replicate]; omega)
  rw [show frame.base + min frame.function.params frame.function.locals +
    (frame.function.locals - min frame.function.params frame.function.locals) =
      frame.base + frame.function.locals by omega] at cleared
  exact cleared

namespace Effect

/-- The effects of an instruction over two operand stacks of a height are the same, and the stacks
that they leave agree below the new height. A frame leaves its result, if it
has one, at its base. -/
inductive Tallies (instruction : Instruction) (base sp : Nat) : Effect → Effect → Prop where
  | advance {first second : Array Int32} {height : Nat} (agree : Agree height first second) :
    Tallies instruction base sp (.advance first height) (.advance second height)
  | writeGlobal (index : Nat) (value : Int32) {height : Nat} (within : height ≤ sp) :
    Tallies instruction base sp (.writeGlobal index value height) (.writeGlobal index value height)
  | jump (delta : Int) {height : Nat} (within : height ≤ sp) :
    Tallies instruction base sp (.jump delta height) (.jump delta height)
  | spend : Tallies instruction base sp .spend .spend
  | native (kind : MethodKind) (result : ResultKind) (method : UInt8) {start : Nat}
    (within : start ≤ sp) :
    Tallies instruction base sp (.native kind result method start)
      (.native kind result method start)
  | script {result : ResultKind} {argc callee : UInt8}
    (calls : instruction = .script result argc callee) :
    Tallies instruction base sp (.script result ⟨callee.toNat⟩ argc.toNat)
      (.script result ⟨callee.toNat⟩ argc.toNat)
  | ret {first second : Array Int32} {result : ResultKind} (returns : instruction = .ret result)
    (agree : Agree (base + result.count) first second) :
    Tallies instruction base sp (.ret first) (.ret second)
  | invalid : Tallies instruction base sp .invalid .invalid

variable {instruction : Instruction} {base sp height : Nat} {first second : Array Int32}

/-- Pushing the same value. -/
theorem tallies_push (agree : Agree height first second) (inside : height < first.size)
    (inside' : height < second.size) (value : Int32) :
    Tallies instruction base sp (push first height value) (push second height value) := by
  rw [push_eq inside, push_eq inside']
  exact .advance (agree.push inside inside' value)

/-- Pushing the same variable, if it is there. -/
theorem tallies_pushVariable (agree : Agree height first second) (inside : height < first.size)
    (inside' : height < second.size) (values : Array Int32) (index : UInt8) :
    Tallies instruction base sp (pushVariable first height values index)
      (pushVariable second height values index) := by
  unfold pushVariable
  cases values[index.toNat]? with
  | none => exact .invalid
  | some value => exact tallies_push agree inside inside' value

/-- Going on with the topmost operand, which is the same. -/
theorem tallies_withTop (agree : Agree height first second) (filled : 0 < height)
    (inside : height - 1 < first.size) (inside' : height - 1 < second.size)
    {next next' : Int32 → Effect}
    (goes : ∀ value, Tallies instruction base sp (next value) (next' value)) :
    Tallies instruction base sp (withTop first height next) (withTop second height next') := by
  rw [withTop_eq filled inside, withTop_eq filled inside',
    agree.getElem_eq (by omega) inside inside']
  exact goes _

/-- Branching on the topmost operand, if the test has one. -/
theorem tallies_branchOn {test : Test} (agree : Agree height first second) (within : height ≤ sp)
    (enough : test.operands ≤ height)
    (inside : ∀ slot ∈ List.range' (height - test.operands) test.operands, slot < first.size)
    (inside' : ∀ slot ∈ List.range' (height - test.operands) test.operands, slot < second.size)
    (delta : Int) :
    Tallies instruction base sp (branchOn first height test delta)
      (branchOn second height test delta) := by
  unfold branchOn
  cases test with
  | always => exact .jump _ within
  | zero | nonzero =>
    simp only [Test.operands] at enough inside inside'
    refine tallies_withTop agree enough (inside _ (by simp)) (inside' _ (by simp)) fun value => ?_
    split
    · exact .jump _ (by omega)
    · exact .advance (agree.mono (Nat.sub_le _ _))

end Effect

/-! ### Family by family -/

namespace Instruction

variable (reach : Variables) {definition : Definition ν} {instruction : Instruction}
  {base sp : Nat} {first second : Array Int32}

/-- An instruction that moves no operand, over operand stacks that agree. -/
theorem effect_tallies_control (agree : Agree sp first second)
    (controls : instruction.family = .control) (enough : instruction.stackEffect.pops ≤ sp) :
    Effect.Tallies instruction base sp (instruction.effect reach base first sp)
      (instruction.effect reach base second sp) := by
  cases instruction with
  | nop => exact .advance agree
  | loopCheck => exact .spend
  | pop =>
    simp only [stackEffect] at enough
    have filled : sp ≠ 0 := by omega
    simp only [effect, filled, ↓reduceIte]
    exact .advance (agree.mono (Nat.sub_le _ _))
  | _ => cases controls

section

variable (agree : Agree sp first second)
  (inside : ∀ slot ∈ instruction.slots base sp, slot < first.size)
  (inside' : ∀ slot ∈ instruction.slots base sp, slot < second.size)

include agree inside inside'

/-- A load over operand stacks that agree. -/
theorem effect_tallies_load (loads : instruction.family = .load)
    (inRange : definition.InRange instruction)
    (enough : base + definition.locals + instruction.stackEffect.pops ≤ sp) :
    Effect.Tallies instruction base sp (instruction.effect reach base first sp)
      (instruction.effect reach base second sp) := by
  cases instruction with
  | dup =>
    simp only [stackEffect] at enough
    exact Effect.tallies_withTop agree (by omega) (inside _ (by simp [slots]))
      (inside' _ (by simp [slots])) fun value => Effect.tallies_push agree
        (inside _ (by simp [slots])) (inside' _ (by simp [slots])) value
  | globalLoad index | specialLoad index | threadLoad index =>
    exact Effect.tallies_pushVariable agree (inside _ (by simp [slots]))
      (inside' _ (by simp [slots])) _ index
  | localLoad index =>
    -- A local lies below the operands, so it is among the slots in which the stacks agree.
    have below : base + index.toNat < sp := by
      simp only [Definition.InRange] at inRange
      omega
    have slot : base + index.toNat < first.size := inside _ (by simp [slots])
    have slot' : base + index.toNat < second.size := inside' _ (by simp [slots])
    simp only [effect, Array.getElem?_eq_getElem slot, Array.getElem?_eq_getElem slot',
      agree.getElem_eq below slot slot']
    exact Effect.tallies_push agree (inside _ (by simp [slots])) (inside' _ (by simp [slots])) _
  | const value | const8 value =>
    exact Effect.tallies_push agree (inside _ (by simp [slots])) (inside' _ (by simp [slots])) _
  | _ => cases loads

/-- A store over operand stacks that agree. -/
theorem effect_tallies_store (stores : instruction.family = .store)
    (enough : instruction.stackEffect.pops ≤ sp) :
    Effect.Tallies instruction base sp (instruction.effect reach base first sp)
      (instruction.effect reach base second sp) := by
  cases instruction with
  | globalStore index =>
    simp only [stackEffect] at enough
    have filled : sp ≠ 0 := by omega
    simp only [effect, filled, ↓reduceIte]
    split
    · exact Effect.tallies_withTop agree (by omega) (inside _ (by simp [slots]))
        (inside' _ (by simp [slots])) fun value => .writeGlobal _ _ (Nat.sub_le _ _)
    · exact .invalid
  | localStore index =>
    simp only [stackEffect] at enough
    have slot : base + index.toNat < first.size := inside _ (by simp [slots])
    have slot' : base + index.toNat < second.size := inside' _ (by simp [slots])
    have popped : Agree (sp - 1) first second := agree.mono (Nat.sub_le _ _)
    refine Effect.tallies_withTop agree (by omega) (inside _ (by simp [slots]))
      (inside' _ (by simp [slots])) fun value => ?_
    simp only [slot, slot', ↓reduceIte]
    exact .advance (popped.set _ value)
  | _ => cases stores

/-- An operator over operand stacks that agree. -/
theorem effect_tallies_operator (operates : instruction.family = .operator)
    (enough : instruction.stackEffect.pops ≤ sp) :
    Effect.Tallies instruction base sp (instruction.effect reach base first sp)
      (instruction.effect reach base second sp) := by
  cases instruction with
  | unary op =>
    simp only [stackEffect] at enough
    exact Effect.tallies_withTop agree (by omega) (inside _ (by simp [slots]))
      (inside' _ (by simp [slots])) fun value => .advance (agree.set _ _)
  | binary op =>
    simp only [stackEffect] at enough
    have popped : Agree (sp - 1) first second := agree.mono (Nat.sub_le _ _)
    refine Effect.tallies_withTop agree (by omega) (inside _ (by simp [slots]))
      (inside' _ (by simp [slots])) fun b => ?_
    exact Effect.tallies_withTop popped (by omega) (inside (sp - 2) (by simp [slots]))
      (inside' (sp - 2) (by simp [slots])) fun a => .advance (popped.set _ _)
  | _ => cases operates

/-- A branch over operand stacks that agree. -/
theorem effect_tallies_branch (branches : instruction.family = .branch)
    (enough : instruction.stackEffect.pops ≤ sp) :
    Effect.Tallies instruction base sp (instruction.effect reach base first sp)
      (instruction.effect reach base second sp) := by
  cases instruction with
  | branch test delta | longBranch test delta =>
    exact Effect.tallies_branchOn agree (Nat.le_refl _) enough inside inside' _
  | _ => cases branches

/-- A call or a return over operand stacks that agree. -/
theorem effect_tallies_call (calls : instruction.family = .call)
    (enough : base + instruction.stackEffect.pops ≤ sp) :
    Effect.Tallies instruction base sp (instruction.effect reach base first sp)
      (instruction.effect reach base second sp) := by
  cases instruction with
  | native kind result argc method =>
    simp only [stackEffect] at enough
    have filled : ¬sp < argc.toNat + kind.receivers := by omega
    simp only [effect, filled, ↓reduceIte]
    exact .native _ _ _ (Nat.sub_le _ _)
  | script result argc callee => exact .script rfl
  | ret result =>
    simp only [stackEffect] at enough
    have lowest : Agree base first second := agree.mono (by omega)
    cases result with
    | void => exact .ret rfl lowest
    | int =>
      simp only [ResultKind.count] at enough
      have bottom : base < first.size := inside _ (by simp [slots])
      have bottom' : base < second.size := inside' _ (by simp [slots])
      refine Effect.tallies_withTop agree (by omega) (inside _ (by simp [slots]))
        (inside' _ (by simp [slots])) fun value => ?_
      simp only [bottom, bottom', ↓reduceIte]
      exact .ret rfl (lowest.push bottom bottom' value)
  | _ => cases calls

/-- An instruction that finds its operands has the same effect over operand stacks that agree below
the height. -/
theorem effect_tallies (inRange : definition.InRange instruction)
    (enough : base + definition.locals + instruction.stackEffect.pops ≤ sp) :
    Effect.Tallies instruction base sp (instruction.effect reach base first sp)
      (instruction.effect reach base second sp) := by
  have popped : instruction.stackEffect.pops ≤ sp := by omega
  cases member : instruction.family with
  | control => exact effect_tallies_control reach agree member popped
  | load => exact effect_tallies_load reach agree inside inside' member inRange enough
  | store => exact effect_tallies_store reach agree inside inside' member popped
  | operator => exact effect_tallies_operator reach agree inside inside' member popped
  | branch => exact effect_tallies_branch reach agree inside inside' member popped
  | call => exact effect_tallies_call reach agree inside inside' member (by omega)

end

end Instruction

end ScriptMachine

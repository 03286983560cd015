import ScriptMachine.Proofs.Agreement
import ScriptMachine.Proofs.Expressions
import ScriptMachine.Proofs.FreshStarts
import ScriptMachine.Proofs.Stopping

/-!
# Expressions on the machine

The instructions of an expression, wherever they stand in some code, leave its word above the
operands that were there before and change nothing below it. A function whose code answers the
expression is therefore assembled, verified and run to its end, and whoever asked for its result
gets the value of the expression. Nothing that the thread or the domain holds has a part in it.
-/

namespace ScriptMachine

variable {ν σ : Type}

/-! ## Single instructions -/

namespace Instruction

variable {reach : Variables} {base sp : Nat} {stack : Array Int32} {a b : Int32}

/-- The effect of pushing a constant. -/
theorem effect_push (value : Int32) (inside : sp < stack.size) :
    (push value).effect reach base stack sp = .advance (stack.set! sp value) (sp + 1) := by
  unfold push
  split
  · rename_i narrow
    rw [effect, narrow, Effect.push_eq inside]
  · rw [effect, Effect.push_eq inside]

/-- The effect of an operation on the topmost operand. -/
theorem effect_unary (op : UnaryOp) (top : stack[sp]? = some a) :
    (unary op).effect reach base stack (sp + 1) =
      .advance (stack.set! sp (op.eval a)) (sp + 1) := by
  simp [effect, Effect.withTop, Effect.top?, top]

/-- The effect of an operation on the two topmost operands. -/
theorem effect_binary (op : BinaryOp) (below : stack[sp]? = some a)
    (top : stack[sp + 1]? = some b) :
    (binary op).effect reach base stack (sp + 2) =
      .advance (stack.set! sp (op.eval a b)) (sp + 1) := by
  simp [effect, Effect.withTop, Effect.top?, below, top]

/-- The effect of returning the topmost operand. -/
theorem effect_ret (top : stack[sp]? = some a) (inside : base < stack.size) :
    (ret .int).effect reach base stack (sp + 1) = .ret (stack.set! base a) := by
  simp [effect, Effect.withTop, Effect.top?, top, inside]

end Instruction

/-- An operand stack holds a value at a height and below it what another one does. -/
structure Holds (sp : Nat) (value : Int32) (before after : Array Int32) : Prop where
  size : after.size = before.size
  below : Agree sp after before
  top : after[sp]? = some value

/-- Writing a value makes the stack hold it. -/
theorem Holds.set {sp : Nat} {before stack : Array Int32} (size : stack.size = before.size)
    (below : Agree sp stack before) (inside : sp < before.size) (value : Int32) :
    Holds sp value before (stack.set! sp value) := by
  refine ⟨by simpa using size, fun slot lower => ?_, by simp [size, inside]⟩
  rw [← below slot lower, Array.set!_eq_setIfInBounds,
    Array.getElem?_setIfInBounds_ne (Nat.ne_of_gt lower)]

namespace Config

/-! ## Work on one thread -/

/-- The run at hand is one of this thread. -/
def OnThread (config : Config ν σ) (id : ThreadId) : Prop :=
  config.focus.run?.map Run.thread = some id

/-- The machine goes from one configuration to another, by at least one step, and in between nothing
but runs of this thread is at hand. -/
inductive Works (host : Host ν σ) (id : ThreadId) : Config ν σ → Config ν σ → Prop where
  | step (config : Config ν σ) : Works host id config (config.step host)
  | trans {config middle after : Config ν σ} (first : Works host id config middle)
    (between : middle.OnThread id) (second : Works host id middle after) :
    Works host id config after

/-- What the machine works towards is reached after a number of steps. -/
theorem Works.exists_steps {host : Host ν σ} {id : ThreadId} {config after : Config ν σ}
    (works : Works host id config after) : ∃ steps, 0 < steps ∧ config.run host steps = after ∧
      ∀ between, 0 < between → between < steps → (config.run host between).OnThread id := by
  induction works with
  | step config =>
    exact ⟨1, Nat.one_pos, run_succ host config 0, fun between positive before => by omega⟩
  | @trans config middle after first between second ih ih' =>
    obtain ⟨early, positive, rfl, before⟩ := ih
    obtain ⟨late, _, rfl, behind⟩ := ih'
    refine ⟨early + late, by omega, run_add host config early late, fun moment some upTo => ?_⟩
    rcases Nat.lt_trichotomy moment early with less | rfl | greater
    · exact before moment some less
    · exact between
    · have later := behind (moment - early) (by omega) (by omega)
      rwa [← run_add, Nat.add_sub_cancel' (Nat.le_of_lt greater)] at later

variable {thread : Thread ν} {instruction : Instruction}

/-- The machine about to execute an instruction, in some state of the host. -/
def executing (config : Config ν σ) (state : σ) (run : Run ν σ) (registers : Registers ν) :
    Config ν σ :=
  { config with state, focus := .execute run registers }

/-- An instruction that goes on over a stack is executed in one step. -/
theorem works_advance (host : Host ν σ) (config : Config ν σ) (state : σ) (run : Run ν σ)
    (registers : Registers ν) {before after : List Instruction} {stack : Array Int32} {sp : Nat}
    (code : registers.function.code =
      ((before ++ instruction :: after).flatMap Instruction.encode).toArray)
    (here : registers.pc = Code.span before)
    (present : config.world.domain.thread? run.thread = some thread)
    (advances : ∀ reach, instruction.effect reach registers.base run.execution.stack registers.sp =
      .advance stack sp) :
    ∃ later, Works host run.thread (config.executing state run registers)
      (config.executing later (run.setStack stack)
        (registers.move (Code.span (before ++ [instruction])) sp)) := by
  have decoded := Code.decode_encode before after instruction
  rw [← code, ← here] at decoded
  have goes : (config.executing state run registers).step host =
      config.executing ((config.executing state run registers).step host).state
        (run.setStack stack) (registers.move (Code.span (before ++ [instruction])) sp) := by
    simp only [step, executing, execute, decoded]
    rw [emit_eq]
    simp only [Domain.thread_eq_ok.2 present, attempt_ok, advances]
    rfl
  refine ⟨((config.executing state run registers).step host).state, ?_⟩
  rw [← goes]
  exact .step _

end Config

/-! ## Expressions -/

namespace Expression

open Config

variable {thread : Thread ν}

/-- Every evaluation needs an operand. -/
theorem depth_pos (expression : Expression) : 0 < expression.depth := by
  induction expression with
  | constant value => exact Nat.one_pos
  | unary op operand ih => exact ih
  | binary op left right ihl ihr => exact Nat.lt_of_lt_of_le ihl (Nat.le_max_left ..)

/-- The instructions of an expression leave its word on the stack. -/
theorem works_instructions (host : Host ν σ) (config : Config ν σ) (expression : Expression)
    (state : σ) (run : Run ν σ) (registers : Registers ν) {before after : List Instruction}
    (code : registers.function.code = ((before ++ (expression.instructions ++ after)).flatMap
      Instruction.encode).toArray)
    (here : registers.pc = Code.span before)
    (present : config.world.domain.thread? run.thread = some thread)
    (room : registers.sp + expression.depth ≤ run.execution.stack.size) :
    ∃ later stack, Works host run.thread (config.executing state run registers)
        (config.executing later (run.setStack stack) (registers.move
          (Code.span (before ++ expression.instructions)) (registers.sp + 1))) ∧
      Holds registers.sp expression.word run.execution.stack stack := by
  induction expression generalizing before after state run registers with
  | constant value =>
    have inside : registers.sp < run.execution.stack.size := room
    obtain ⟨later, works⟩ := works_advance host config state run registers code here present
      fun reach => Instruction.effect_push value inside
    exact ⟨later, _, works, .set rfl (fun _ _ => rfl) inside value⟩
  | unary op operand ih =>
    have inner : registers.function.code = ((before ++ (operand.instructions ++
        (Instruction.unary op :: after))).flatMap Instruction.encode).toArray := by
      rw [code, instructions, List.append_assoc, List.singleton_append]
    have inside : registers.sp < run.execution.stack.size := by
      have positive := operand.depth_pos
      rw [depth] at room
      omega
    obtain ⟨middle, operands, first, holds⟩ := ih state run registers inner here present room
    rw [← List.append_assoc] at inner
    obtain ⟨later, last⟩ := works_advance host config middle (run.setStack operands)
      (registers.move (Code.span (before ++ operand.instructions)) (registers.sp + 1)) inner rfl
      present fun reach => Instruction.effect_unary op holds.top
    rw [List.append_assoc] at last
    exact ⟨later, _, first.trans rfl last, .set holds.size holds.below inside _⟩
  | binary op left right ihl ihr =>
    have inner : registers.function.code = ((before ++ (left.instructions ++ (right.instructions ++
        (Instruction.binary op :: after)))).flatMap Instruction.encode).toArray := by
      rw [code, instructions, List.append_assoc, List.append_assoc, List.singleton_append]
    rw [depth] at room
    have inside : registers.sp < run.execution.stack.size := by
      have positive := left.depth_pos
      omega
    obtain ⟨middle, lower, first, holds⟩ := ihl state run registers inner here present (by omega)
    rw [← List.append_assoc] at inner
    have above : registers.sp + 1 + right.depth ≤ lower.size := by
      have size := holds.size
      omega
    obtain ⟨next, both, second, holds'⟩ := ihr middle (run.setStack lower)
      (registers.move (Code.span (before ++ left.instructions)) (registers.sp + 1)) inner rfl
      present above
    rw [← List.append_assoc] at inner
    -- The right operand is computed above the left one, which stays where it is.
    have kept : both[registers.sp]? = some left.word :=
      (holds'.below _ (Nat.lt_succ_self _)).trans holds.top
    have below : Agree registers.sp both run.execution.stack := fun slot lower =>
      (holds'.below slot (Nat.lt_succ_of_lt lower)).trans (holds.below slot lower)
    obtain ⟨later, last⟩ := works_advance host config next (run.setStack both)
      (registers.move (Code.span (before ++ left.instructions ++ right.instructions))
        (registers.sp + 2)) inner rfl present
      fun reach => Instruction.effect_binary op kept holds'.top
    have ends : before ++ left.instructions ++ right.instructions ++ [Instruction.binary op] =
        before ++ (binary op left right).instructions := by
      simp only [instructions, List.append_assoc]
    rw [ends] at last
    exact ⟨later, _, (first.trans rfl second).trans rfl last,
      .set (holds'.size.trans holds.size) below inside _⟩

end Expression

/-! ## Idle threads -/

/-- An idle thread holds an operand stack and no frames. -/
theorem Thread.exists_stack {thread : Thread ν} (idle : thread.isIdle = true) :
    ∃ stack, thread.execution = some ⟨[], stack⟩ := by
  unfold isIdle at idle
  split at idle
  · rename_i execution held
    exact ⟨execution.stack, by rw [held, ← List.isEmpty_iff.1 idle]⟩
  · cases idle

/-- An idle thread has no frames that could be discarded. -/
theorem Domain.discard_idle {domain : Domain ν} {id : ThreadId} {thread : Thread ν}
    (present : domain.thread? id = some thread) (idle : thread.isIdle = true)
    (reason : AbortReason) : domain.discard id reason = .ok domain := by
  obtain ⟨stack, held⟩ := Thread.exists_stack idle
  have same : { thread with execution := some ⟨[], stack⟩ } = thread := by rw [← held]
  refine bind_eq_ok.2 ⟨thread, thread_eq_ok.2 present, ?_⟩
  simp only [held, same, setThread_self present]
  rfl

/-! ## Functions that answer expressions -/

/-- The code of a function answers an expression, and an activation has room to evaluate it. -/
structure Function.Answers (function : Function ν) (expression : Expression) : Prop where
  code : function.code = expression.code
  room : function.locals + expression.depth ≤ function.stackSlots

/-- What verification accepts has room. -/
theorem Function.Answers.of_verified {definition : Definition ν} {limits : VerificationLimits}
    {function : Function ν} {expression : Expression} (code : definition.code = expression.code)
    (verified : Function.verified definition limits = .ok function)
    (slots : definition.verify limits = .ok (definition.locals + expression.depth)) :
    function.Answers expression := by
  rw [Function.verified, slots] at verified
  obtain rfl := Except.ok.inj verified
  exact ⟨code, Nat.le_max_left ..⟩

namespace Config

variable {host : Host ν σ} {config : Config ν σ} {run : Run ν σ} {thread : Thread ν}
  {expression : Expression} {function : Function ν} {id : ThreadId}
  {next : Answer ν → Body ν σ} {rest : List (Pending ν σ)}

/-- A body of the host goes on with the result of a run that is complete. -/
structure Answered (config : Config ν σ) (next : Answer ν → Body ν σ)
    (rest : List (Pending ν σ)) (word : Int32) : Prop where
  focus : config.focus = .body (next (.returned .completed word))
  pending : config.pending = rest

/-- A run that returns the topmost operand from its only frame answers it. -/
theorem works_return (host : Host ν σ) (config : Config ν σ) (state : σ) (run : Run ν σ)
    (registers : Registers ν) {before : List Instruction} {frame : Frame ν} {sp : Nat}
    {word : Int32}
    (code : registers.function.code =
      ((before ++ [Instruction.ret .int]).flatMap Instruction.encode).toArray)
    (here : registers.pc = Code.span before) (outermost : registers.base = 0)
    (height : registers.sp = sp + 1) (top : run.execution.stack[sp]? = some word)
    (present : config.world.domain.thread? run.thread = some thread)
    (frames : run.execution.frames = [frame]) (purpose : run.purpose = .result) :
    ∃ after, Works host run.thread (config.executing state run registers) after ∧
      after.Answered run.reply config.pending word := by
  have decoded := Code.decode_encode before [] (.ret .int)
  rw [← code, ← here] at decoded
  have inside : registers.base < run.execution.stack.size := by
    have bound := (Array.getElem?_eq_some_iff.1 top).1
    omega
  -- The frame is left, the run is complete, and the one who asked is told.
  let left := (run.setStack (run.execution.stack.set! 0 word)).setFrames []
  let entering (later : σ) : Config ν σ := { config with state := later, focus := .enter left }
  let ended (later : σ) : Config ν σ :=
    { config with state := later, focus := .ended left .completed }
  obtain ⟨later, leaves⟩ : ∃ later, (config.executing state run registers).step host =
      entering later := by
    refine ⟨((config.executing state run registers).step host).state, ?_⟩
    simp only [step, executing, execute, decoded]
    rw [emit_eq]
    simp only [Domain.thread_eq_ok.2 present, attempt_ok, height,
      Instruction.effect_ret top inside, leaveFrame]
    rw [emit_eq]
    simp only [goto, Run.setStack, Run.setFrames, frames, outermost, entering, left, List.tail_cons]
  have leaving : Works host run.thread (config.executing state run registers) (entering later) :=
    leaves ▸ .step _
  have completing : Works host run.thread (entering later) (ended later) := .step (entering later)
  have answers : left.purpose.answer left.thread .completed left.execution.stack =
      (.returned .completed word : Answer ν) := by
    have filled : 0 < run.execution.stack.size := outermost ▸ inside
    simp [left, Run.setStack, Run.setFrames, purpose, Purpose.answer, filled]
  have looked : config.world.domain.thread left.thread = .ok thread :=
    Domain.thread_eq_ok.2 present
  refine ⟨_, (leaving.trans rfl completing).trans rfl (.step (ended later)), ?_⟩
  simp only [ended, step, finishRun, looked, attempt_ok, answers]
  exact ⟨rfl, emit_pending ..⟩

/-- A run of a fresh frame of a function that answers an expression answers its word. -/
theorem works_entered (answers : function.Answers expression)
    (focus : config.focus = .enter run)
    (present : config.world.domain.thread? run.thread = some thread)
    (frames : run.execution.frames = [{ function, base := 0, top := 0 }])
    (purpose : run.purpose = .result) :
    ∃ after, Works host run.thread config after ∧
      after.Answered run.reply config.pending expression.word := by
  let frame : Frame ν := { function, base := 0, top := 0 }
  let prepared := run.setStack (frame.prepareStack run.execution.stack)
  let registers : Registers ν := ⟨function, 0, 0, function.locals⟩
  have enters : config.step host =
      config.executing (config.step host).state prepared registers := by
    simp only [step, focus, enterFrame, frames]
    rw [emit_eq]
    simp only [goto, executing, prepared, registers, frame, Nat.zero_add]
  have entering : Works host run.thread config
      (config.executing (config.step host).state prepared registers) := by
    rw [← enters]
    exact .step config
  have room : registers.sp + expression.depth ≤ prepared.execution.stack.size := by
    have size : prepared.execution.stack.size =
        max run.execution.stack.size (0 + function.stackSlots) := frame.size_prepareStack _
    have enough := answers.room
    change function.locals + expression.depth ≤ prepared.execution.stack.size
    omega
  have code : registers.function.code = (([] ++ (expression.instructions ++
      [Instruction.ret .int])).flatMap Instruction.encode).toArray := answers.code
  obtain ⟨later, stack, computing, holds⟩ := expression.works_instructions host config
    (config.step host).state prepared registers code rfl present room
  obtain ⟨after, returning, answered⟩ := works_return host config later (prepared.setStack stack)
    (registers.move (Code.span expression.instructions) (function.locals + 1)) answers.code rfl rfl
    rfl holds.top present frames purpose
  exact ⟨after, (entering.trans rfl computing).trans rfl returning, answered⟩

/-- Once there is room on an idle thread, a function that answers an expression is run on it to its
end, and answers the word. -/
theorem works_start {room : Config ν σ} (answers : function.Answers expression)
    (made : config.step host = room.afterAbort host (.start id function (some .result) next))
    (present : room.world.domain.thread? id = some thread) (idle : thread.isIdle = true) :
    ∃ after, Works host id config after ∧ after.Answered next room.pending expression.word := by
  obtain ⟨stack, held⟩ := Thread.exists_stack idle
  have entered := Domain.thread?_setThread present
    { thread with execution := some ⟨[{ function, base := 0, top := 0 }], stack⟩ } id
  rw [if_pos rfl] at entered
  have taken := Domain.thread?_setThread entered { thread with execution := none } id
  rw [if_pos rfl] at taken
  obtain ⟨run, focus, called, pending, there, frames, purpose, reply⟩ :
      ∃ run, (config.step host).focus = .enter run ∧ run.thread = id ∧
        (config.step host).pending = room.pending ∧
        (config.step host).world.domain.thread? id = some { thread with execution := none } ∧
        run.execution.frames = [{ function, base := 0, top := 0 }] ∧ run.purpose = .result ∧
        run.reply = next := by
    rw [made]
    simp only [afterAbort, Domain.thread_eq_ok.2 present, attempt_ok, held, launch,
      setDomain_world, Domain.thread_eq_ok.2 entered]
    refine ⟨_, rfl, rfl, by simp, ?_, rfl, rfl, rfl⟩
    rw [goto_world, emit_world]
    exact taken
  subst called
  obtain ⟨after, works, answered⟩ := @works_entered _ _ host _ _ _ _ _ answers focus there frames
    purpose
  rw [reply, pending] at answered
  have launched : (config.step host).OnThread run.thread := by rw [OnThread, focus]; rfl
  exact ⟨after, (Works.step config).trans launched works, answered⟩

/-- A function is about to be run for its result on an idle thread, above some waiting work. -/
inductive RunsIdle (config : Config ν σ) (id : ThreadId) (function : Function ν)
    (next : Answer ν → Body ν σ) (rest : List (Pending ν σ)) : Prop where
  /-- A body asks for it, and no hook of the host has to be called first. -/
  | asked {called : FunctionId} {thread : Thread ν}
    (focus : config.focus = .body (.ask (.runInt id called) next)) (below : config.pending = rest)
    (registered : config.world.domain.function? called = some function)
    (present : config.world.domain.thread? id = some thread) (idle : thread.isIdle = true)
    (unhooked : ∀ reference, thread.hook ≠ some (.custom reference))
  /-- The hook that had to be called first has ended. -/
  | hooked {thread : Thread ν} (made : config.MadeRoom id function (some .result) next rest)
    (present : config.world.domain.thread? id = some thread) (idle : thread.isIdle = true)

/-- The thread that is to run the function still has no frames when it is given one. -/
theorem RunsIdle.room (runsIdle : config.RunsIdle id function next rest)
    (linked : config.world.domain.Linked) : ∃ (room : Config ν σ) (thread : Thread ν),
      config.step host = room.afterAbort host (.start id function (some .result) next) ∧
        room.world.domain.thread? id = some thread ∧ thread.isIdle = true ∧
        room.pending = rest := by
  cases runsIdle with
  | @hooked thread made present idle =>
    obtain ⟨value, ended⟩ := made.ended
    exact ⟨_, thread, step_of_aborting ended made.pending, present, idle, rfl⟩
  | @asked called thread focus below registered present idle unhooked =>
    obtain ⟨stack, held⟩ := Thread.exists_stack idle
    have asks : config.step host = config.start host id called (some .result) next := by
      simp only [step, focus, perform]
    rw [asks]
    simp only [start, registered, Domain.thread_eq_ok.2 present, attempt_ok, held,
      List.isEmpty_nil, Bool.not_true, Bool.or_false]
    split
    · -- The thread is suspended: it is aborted first, and its hook is dropped.
      obtain ⟨⟨domain, hook⟩, detached⟩ := linked.detach_isOk present
      obtain ⟨_, there, rfl, threads, _⟩ := Domain.detach_eq_ok detached
      obtain rfl := Option.some.inj (present.symm.trans there)
      have left := threads id
      rw [if_pos rfl] at left
      simp only [abort, Domain.discard_idle present idle, attempt_ok, detach, setDomain_world,
        detached]
      split
      · exact ⟨_, _, rfl, left, idle, below⟩
      · exact ⟨_, _, rfl, left, idle, below⟩
      · rename_i reference custom
        exact absurd custom (unhooked reference)
    · exact ⟨config, thread, rfl, present, idle, below⟩

end Config

namespace Expression

open Config

/-- The code of an expression is assembled. Verification accepts it if the code, the locals and the
evaluation depth of the tree fit, and computes the locals and this depth. A function that has been
verified in this way and is run on an idle thread is complete after a number of steps, in which
nothing but its run is at hand, and whoever has asked for its result gets the value of the
expression over the integers. -/
theorem evaluated_by_its_code (expression : Expression) {definition : Definition ν}
    {limits : VerificationLimits} (code : definition.code = expression.code)
    (fits : definition.code.size ≤ limits.codeLength) (addressable : definition.locals ≤ 256)
    (paired : definition.params ≤ definition.locals)
    (bounded : definition.locals + expression.depth ≤ limits.stackSlots) :
    (({} : Assembler).applyAll expression.body).finish = .ok expression.code ∧
    definition.verify limits = .ok (definition.locals + expression.depth) ∧
    ∀ (host : Host ν σ) (allowed : Request ν → Prop) (config : Config ν σ) (id : ThreadId)
      (function : Function ν) (next : Answer ν → Body ν σ) (rest : List (Pending ν σ)),
      Function.verified definition limits = .ok function → config.Reachable host allowed →
      config.RunsIdle id function next rest → ∃ steps word, 0 < steps ∧
        (∀ between, 0 < between → between < steps → (config.run host between).OnThread id) ∧
        (config.run host steps).Answered next rest word ∧ word.toInt = expression.value := by
  have slots := expression.verify_eq_ok code fits addressable paired bounded
  refine ⟨expression.finish_body, slots, fun host allowed config id function next rest verified
    reached runsIdle => ?_⟩
  have answers : function.Answers expression := .of_verified code verified slots
  obtain ⟨room, thread, made, present, idle, rfl⟩ := runsIdle.room (linked_of_reachable reached)
  obtain ⟨after, works, answered⟩ := works_start answers made present idle
  obtain ⟨steps, positive, rfl, between⟩ := works.exists_steps
  exact ⟨steps, expression.word, positive, between, answered, expression.toInt_word⟩

/-- The smallest word divided by minus one, plus seven. -/
def overflowing : Expression :=
  .binary .add (.binary .div (.constant (-2147483648)) (.constant (-1))) (.constant 7)

/-- A function that answers the expression. -/
def overflowingFunction : Definition Unit := { name := "overflow", code := overflowing.code }

/-- The function is run on a new thread, and its result is answered. -/
def evaluating : Program Unit Unit Int32 := do
  let _ ← Program.update (.addFunction (.trusted overflowingFunction 2))
  let _ ← Program.update .createThread
  match ← Program.request (.runInt ⟨0⟩ ⟨0⟩) with
  | .returned .completed word => return word
  | _ => return 0

/-- Limits within which the code and the evaluation depth just fit. -/
def tightLimits : VerificationLimits := ⟨2, 12⟩

/-- The quotient wraps around, and the sum is above the smallest word by seven. -/
theorem evaluated_by_its_code_overflowing :
    overflowingFunction.code.size ≤ tightLimits.codeLength ∧
      overflowingFunction.locals + overflowing.depth ≤ tightLimits.stackSlots ∧
      overflowingFunction.verify tightLimits = .ok 2 ∧ overflowing.value = -2147483641 ∧
      ∃ steps, ((Config.initial {} () evaluating).run idleHost steps).focus =
        .body (.done (-2147483641)) := by
  have fits : overflowingFunction.code.size ≤ tightLimits.codeLength := by decide +kernel
  have bounded : overflowingFunction.locals + overflowing.depth ≤ tightLimits.stackSlots := by
    decide
  obtain ⟨_, slots, runs⟩ := @evaluated_by_its_code Unit Unit overflowing overflowingFunction
    tightLimits rfl fits (by decide) (by decide) bounded
  have value : overflowing.value = -2147483641 := by decide
  refine ⟨fits, bounded, slots, value, ?_⟩
  let config := (Config.initial {} () evaluating).run idleHost 2
  have reached : config.Reachable idleHost (fun _ => True) :=
    .run (.initial () evaluating (Program.asks_of_forall (fun _ => trivial) _)) 2
  have verified : Function.verified overflowingFunction tightLimits =
      .ok (.trusted overflowingFunction 2) := by
    rw [Function.verified, slots]
    rfl
  obtain ⟨steps, word, _, _, answered, same⟩ := runs idleHost (fun _ => True) config ⟨0⟩ _ _ _
    verified reached (.asked rfl rfl rfl rfl rfl fun reference custom => by cases custom)
  have found : word = -2147483641 := by
    rw [← Int32.toInt_inj, same, value]
    rfl
  refine ⟨2 + steps, ?_⟩
  rw [run_add]
  exact answered.focus.trans (by rw [found]; rfl)

end Expression

end ScriptMachine

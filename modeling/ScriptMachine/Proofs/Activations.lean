import ScriptMachine.Proofs.Operands
import ScriptMachine.Proofs.Reachable

/-!
# Activations of verified functions

An activation of a verified function owns as many slots of the operand stack as the function needs,
from its base on. While it is at an instruction that verification has settled, with as many operands
as were settled there, the instruction finds its operands in slots of its own, and every instruction
that control can go to is settled again. So nothing that such an instruction does leaves the operand
stack or the code, and there is nothing that it cannot do but name an entry of a table of the domain
that is not there.
-/

namespace ScriptMachine

variable {ν σ : Type}

namespace Function

/-- An activation from `base` on is at an instruction that verification has settled, over an operand
stack that has room for all its slots. -/
def Fits (function : Function ν) (base pc sp size : Nat) : Prop :=
  ∃ depth deepest before, function.toDefinition.Settled depth deepest ∧
    function.stackSlots = function.locals + deepest ∧ depth pc = some before ∧
    sp = base + function.locals + before ∧ base + function.stackSlots ≤ size

/-- An activation finds the operands of its instruction, has room for what the instruction leaves,
and fits wherever control can go from there. -/
structure Ready (function : Function ν) (base pc sp size : Nat) (instruction : Instruction) :
    Prop where
  listed : (pc, instruction) ∈ function.code.instructions.instructions
  inRange : function.toDefinition.InRange instruction
  enough : base + function.locals + instruction.stackEffect.pops ≤ sp
  room : instruction.after sp ≤ base + function.stackSlots
  lands : ∀ delta, instruction.delta? = some delta →
    ∃ target, branchTarget? (pc + instruction.length) delta = some target
  leads : ∀ target, instruction.Leads pc target →
    function.Fits base target (instruction.after sp) size

namespace Fits

variable {function : Function ν} {base pc sp size : Nat}

/-- A larger operand stack has room too. -/
theorem mono {larger : Nat} (fits : function.Fits base pc sp size) (grown : size ≤ larger) :
    function.Fits base pc sp larger := by
  obtain ⟨depth, deepest, before, settled, slots, known, height, room⟩ := fits
  exact ⟨depth, deepest, before, settled, slots, known, height, Nat.le_trans room grown⟩

/-- An activation begins at the first instruction without operands. -/
theorem start (verified : function.Verified) (room : base + function.stackSlots ≤ size) :
    function.Fits base 0 (base + function.locals) size := by
  obtain ⟨depth, deepest, settled, slots⟩ := verified.settled
  exact ⟨depth, deepest, 0, settled, slots, settled.start, rfl, room⟩

/-- The height of the operand stack lies within the slots of the activation. -/
theorem bounds (fits : function.Fits base pc sp size) :
    base + function.locals ≤ sp ∧ sp ≤ base + function.stackSlots ∧
      base + function.stackSlots ≤ size := by
  obtain ⟨depth, deepest, before, settled, slots, known, height, room⟩ := fits
  have deep := settled.deep pc before known
  omega

/-- There is an instruction for which the activation is ready. -/
theorem ready (fits : function.Fits base pc sp size) :
    ∃ instruction, function.Ready base pc sp size instruction := by
  obtain ⟨depth, deepest, before, settled, slots, known, height, room⟩ := fits
  obtain ⟨instruction, listed, settles⟩ := settled.settles pc before known
  have after := @Instruction.after_add instruction (base + function.locals) before settles.enough
  have enough := settles.enough
  have bounded := settles.bounded
  subst height
  refine ⟨instruction, listed, settles.inRange, by omega, ?_, settles.lands, fun target leads => ?_⟩
  · rw [after]
    omega
  · refine ⟨depth, deepest, _, settled, slots, settles.leads target leads, ?_, room⟩
    exact after

/-- An activation is at the start of an instruction. -/
theorem boundary (fits : function.Fits base pc sp size) : function.code.Boundary pc := by
  obtain ⟨instruction, ready⟩ := fits.ready
  exact ⟨instruction, ready.listed⟩

end Fits

namespace Ready

variable {function : Function ν} {base pc sp size : Nat} {instruction : Instruction}

/-- The instruction is the one that decoding gives. -/
theorem decode (ready : function.Ready base pc sp size instruction) :
    Instruction.decode function.code pc = .ok (instruction, pc + instruction.length) :=
  (Code.Boundary.decode ready.listed).2

/-- The slots of the instruction lie inside the operand stack. -/
theorem slots (ready : function.Ready base pc sp size instruction)
    (fits : function.Fits base pc sp size) : ∀ slot ∈ instruction.slots base sp, slot < size := by
  obtain ⟨_, height, room⟩ := fits.bounds
  exact Instruction.slots_inside ready.inRange ready.enough (Nat.le_trans height room)
    (Nat.le_trans ready.room room)

end Ready

end Function

/-- A run is in the innermost of its frames, at registers that fit. -/
structure Run.At (run : Run ν σ) (registers : Registers ν) : Prop where
  innermost : ∃ frame frames, run.execution.frames = frame :: frames ∧
    frame.function = registers.function ∧ frame.base = registers.base
  fits : registers.function.Fits registers.base registers.pc registers.sp run.execution.stack.size

/-- The registers at another instruction and with another height. -/
def Registers.move (registers : Registers ν) (pc sp : Nat) : Registers ν :=
  { registers with pc, sp }

/-- Where control can go from an instruction, the registers fit again, over any operand stack of the
same size. -/
theorem Run.At.move {run : Run ν σ} {registers : Registers ν} {instruction : Instruction}
    (at' : run.At registers)
    (ready : registers.function.Ready registers.base registers.pc registers.sp
      run.execution.stack.size instruction)
    {pc : Nat} (leads : instruction.Leads registers.pc pc) :
    run.At (registers.move pc (instruction.after registers.sp)) :=
  ⟨at'.innermost, ready.leads pc leads⟩

/-- The variables that an instruction of a thread can read. -/
def Domain.variablesOf (domain : Domain ν) (thread : Thread ν) : Variables :=
  ⟨domain.globals, domain.specials, thread.variables⟩

namespace Config

/-- What a run does at an instruction for which its activation is ready. -/
inductive Executed (host : Host ν σ) (config : Config ν σ) (thread : Thread ν) (run : Run ν σ)
    (registers : Registers ν) (instruction : Instruction) : Config ν σ → Prop where
  /-- Control goes on over an operand stack of the same size. -/
  | go {stack : Array Int32} {pc : Nat} (sized : stack.size = run.execution.stack.size)
    (leads : instruction.Leads registers.pc pc) :
    Executed host config thread run registers instruction (config.goto (.execute
      (run.setStack stack) (registers.move pc (instruction.after registers.sp))))
  /-- A global is written. -/
  | write {index : Nat} (value : Int32) {pc : Nat}
    (present : index < config.world.domain.globals.size)
    (leads : instruction.Leads registers.pc pc) :
    Executed host config thread run registers instruction
      ((config.setDomain { config.world.domain with
        globals := config.world.domain.globals.set! index value }).goto
        (.execute run (registers.move pc (instruction.after registers.sp))))
  /-- One unit of the loop budget is spent. -/
  | spend {pc : Nat} (leads : instruction.Leads registers.pc pc) :
    Executed host config thread run registers instruction (config.goto (.execute
      { run with budget := run.budget - 1 } (registers.move pc (instruction.after registers.sp))))
  /-- The loop budget is spent. -/
  | loopLimit : Executed host config thread run registers instruction
      (config.abortRun host run registers.function registers.pc .loopLimit)
  | native {kind : MethodKind} {result : ResultKind} {argc method : UInt8} {base pc : Nat}
    (called : instruction = .native kind result argc method)
    (height : base + result.count = instruction.after registers.sp)
    (leads : instruction.Leads registers.pc pc) :
    Executed host config thread run registers instruction
      (config.callNative host run registers pc ⟨registers.pc, kind, method, base, result⟩)
  | script {result : ResultKind} {argc callee : UInt8} {pc : Nat}
    (called : instruction = .script result argc callee) (enough : argc.toNat ≤ registers.sp)
    (height : registers.sp - argc.toNat + result.count = instruction.after registers.sp)
    (leads : instruction.Leads registers.pc pc) :
    Executed host config thread run registers instruction
      (config.callScript host run registers pc result ⟨callee.toNat⟩ argc.toNat)
  | ret {stack : Array Int32} (sized : stack.size = run.execution.stack.size) :
    Executed host config thread run registers instruction
      (config.leaveFrame host run registers.function stack)
  /-- The instruction names a variable that is not there. -/
  | invalid (misses : instruction.Misses (config.world.domain.variablesOf thread)) :
    Executed host config thread run registers instruction
      (config.abortRun host run registers.function registers.pc .invalidBytecode)

/-- The configuration after the trace sink has been shown an instruction. -/
def shown (host : Host ν σ) (config : Config ν σ) (run : Run ν σ) (registers : Registers ν)
    (instruction : Instruction) : Config ν σ :=
  config.emit host (.instruction run.thread registers.function registers.pc
    (registers.pc + instruction.length) instruction.opcode)

/-- An instruction for which the activation is ready is executed in one of the listed ways, if the
thread of the run exists. -/
theorem execute_cases (host : Host ν σ) (config : Config ν σ) {run : Run ν σ}
    {registers : Registers ν} {instruction : Instruction} (at' : run.At registers)
    (ready : registers.function.Ready registers.base registers.pc registers.sp
      run.execution.stack.size instruction) :
    config.execute host run registers =
        (config.shown host run registers instruction).goto (.faulted .noSuchThread) ∧
      config.world.domain.thread? run.thread = none ∨
    ∃ thread, config.world.domain.thread? run.thread = some thread ∧
      Executed host (config.shown host run registers instruction) thread run registers instruction
        (config.execute host run registers) := by
  unfold execute shown
  dsimp only
  rw [ready.decode]
  dsimp only
  generalize emitted : config.emit host _ = shown
  have domain : shown.world.domain = config.world.domain := by rw [← emitted, emit_world]
  cases found : config.world.domain.thread? run.thread with
  | none =>
    left
    have missing : shown.world.domain.thread run.thread = .error .noSuchThread := by
      rw [domain]
      unfold Domain.thread
      unfold Domain.thread? at found
      rw [found]
    exact ⟨by rw [missing]; rfl, rfl⟩
  | some thread =>
    right
    refine ⟨thread, rfl, ?_⟩
    have present : shown.world.domain.thread run.thread = .ok thread := by
      rw [domain]
      exact Domain.thread_eq_ok.2 found
    rw [present, attempt_ok]
    have agrees := instruction.effect_agrees (shown.world.domain.variablesOf thread)
      (by have enough := ready.enough; omega) (ready.slots at'.fits)
    have next : instruction.isTerminator = false →
        instruction.Leads registers.pc (registers.pc + instruction.length) := .next
    split
    all_goals rename_i does
    all_goals rw [Domain.variablesOf, does] at agrees
    · obtain ⟨sized, rfl, falls⟩ := agrees
      exact .go sized (next falls)
    · obtain ⟨inside, rfl, falls⟩ := agrees
      exact .write _ inside (next falls)
    · obtain ⟨branches, rfl⟩ := agrees
      obtain ⟨target, lands⟩ := ready.lands _ branches
      rw [lands]
      exact .go rfl (.branch branches lands)
    · obtain ⟨same, falls⟩ := agrees
      split
      · exact .loopLimit
      · have spent := @Executed.spend _ _ host shown thread run registers instruction _ (next falls)
        rw [← same] at spent
        exact spent
    · obtain ⟨⟨argc, called⟩, height⟩ := agrees
      exact .native called height (next (by rw [called]; rfl))
    · obtain ⟨⟨argc, callee, called, rfl, rfl⟩, enough, height⟩ := agrees
      exact .script called enough height (next (by rw [called]; rfl))
    · exact .ret agrees
    · exact .invalid agrees
    · cases agrees

end Config

end ScriptMachine

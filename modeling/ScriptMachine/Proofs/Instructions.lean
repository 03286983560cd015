import ScriptMachine.Proofs.CallChains
import ScriptMachine.Proofs.HonoredAborts

/-!
# What instructions make of a run

An instruction of any program, verified or not, takes its run along in one of a few ways: control
goes on in the same frame, a unit of the loop budget is spent, a native method is called, a frame is
entered or left, the run is aborted, or the machine stops for a misuse. Which way it is follows from
the instruction that is read, the rest of the loop budget, and the number of frames. Only an
instruction that exceeds a limit tells the limit handler of a function.
-/

namespace ScriptMachine

variable {ν σ : Type}

/-- The host comes from one state to another by being shown events, and by its limit handlers being
told of these functions. -/
inductive Host.Told (host : Host ν σ) (before : σ) : List (ν × String) → σ → Prop where
  | nothing : host.Told before [] before
  | event {calls : List (ν × String)} {state : σ} (told : host.Told before calls state) (sink : ν)
    (event : Event ν) : host.Told before calls (host.onEvent sink event state)
  | limit {calls : List (ν × String)} {state : σ} (told : host.Told before calls state)
    (handler : ν) (name : String) :
    host.Told before (calls ++ [(handler, name)]) (host.onLimit handler name state)

/-- What the limit handler is told when a run ends like this: the function in which a limit has been
exceeded. -/
def Focus.limitCalls (handler : Option ν) : Focus ν σ → List (ν × String)
  | .ended _ (.aborted info) =>
    if info.reason.isLimit then handler.toList.map fun handler => (handler, info.function) else []
  | _ => []

/-- A run as it is later, with the same frames and the same rest of its loop budget. -/
structure Run.Keeps (run later : Run ν σ) : Prop extends Run.Lasts run later where
  frames : later.execution.frames = run.execution.frames
  budget : later.budget = run.budget

/-- Replacing the operand stack changes nothing else. -/
theorem Run.Keeps.setStack (run : Run ν σ) (stack : Array Int32) : run.Keeps (run.setStack stack) :=
  ⟨⟨rfl, rfl, rfl⟩, rfl, rfl⟩

/-- The instruction that is read at the registers, if one can be read. -/
def Registers.instruction? (registers : Registers ν) : Option Instruction :=
  match Instruction.decode registers.function.code registers.pc with
  | .ok (instruction, _) => some instruction
  | .error _ => none

/-- The instruction that is read is decoded. -/
theorem Registers.instruction?_eq_some {registers : Registers ν} {instruction : Instruction} :
    registers.instruction? = some instruction ↔
      ∃ pc, Instruction.decode registers.function.code registers.pc = .ok (instruction, pc) := by
  unfold instruction?
  split
  · rename_i read pc decoded
    simp [decoded]
  · rename_i error failed
    simp [failed]

/-! ## Effects -/

namespace Effect

/-- An effect is one of those that an instruction can have, over whatever operand stack. -/
def Suits (instruction : Instruction) : Effect → Prop
  | advance _ _ | writeGlobal _ _ _ =>
    instruction.isTerminator = false ∧ instruction ≠ .loopCheck ∧ instruction.result? = none
  | jump delta _ => instruction.delta? = some delta
  | spend => instruction = .loopCheck
  | native kind result method _ => ∃ argc, instruction = .native kind result argc method
  | script result callee argc =>
    ∃ count index, instruction = .script result count index ∧ callee = ⟨index.toNat⟩ ∧
      argc = count.toNat
  | ret _ => ∃ kind, instruction = .ret kind
  | invalid | outOfBounds =>
    instruction ≠ .loopCheck ∧ ∀ result argc callee, instruction ≠ .script result argc callee

variable {instruction : Instruction} {stack : Array Int32} {sp : Nat}

/-- An instruction that goes on over some operand stack, unless it cannot be executed. -/
structure Plain (instruction : Instruction) : Prop where
  falls : instruction.isTerminator = false
  unchecked : instruction ≠ .loopCheck
  uncalling : instruction.result? = none

/-- An instruction that goes on calls no script function. -/
theorem Plain.unscripted (plain : Plain instruction) (result : ResultKind) (argc callee : UInt8) :
    instruction ≠ .script result argc callee := by
  rintro rfl
  cases plain.uncalling

/-- Going on over another operand stack, or failing to. -/
theorem suits_push (plain : Plain instruction) (value : Int32) :
    (push stack sp value).Suits instruction := by
  unfold push
  split
  · exact ⟨plain.falls, plain.unchecked, plain.uncalling⟩
  · exact ⟨plain.unchecked, plain.unscripted⟩

/-- Pushing a variable, or failing to. -/
theorem suits_pushVariable (plain : Plain instruction) (values : Array Int32) (index : UInt8) :
    (pushVariable stack sp values index).Suits instruction := by
  unfold pushVariable
  split
  · exact suits_push plain _
  · exact ⟨plain.unchecked, plain.unscripted⟩

/-- Going on with the topmost operand, or failing to. -/
theorem suits_withTop (unchecked : instruction ≠ .loopCheck)
    (unscripted : ∀ result argc callee, instruction ≠ .script result argc callee)
    {next : Int32 → Effect} (goes : ∀ value, (next value).Suits instruction) :
    (withTop stack sp next).Suits instruction := by
  unfold withTop
  split
  · exact goes _
  · exact ⟨unchecked, unscripted⟩

end Effect

/-- The effect of an instruction is one that it can have. -/
theorem Instruction.effect_suits (instruction : Instruction) (reach : Variables) (base : Nat)
    (stack : Array Int32) (sp : Nat) :
    (instruction.effect reach base stack sp).Suits instruction := by
  have top {height : Nat} {next : Int32 → Effect} (unchecked : instruction ≠ .loopCheck)
      (unscripted : ∀ result argc callee, instruction ≠ .script result argc callee)
      (goes : ∀ value, (next value).Suits instruction) :
      (Effect.withTop stack height next).Suits instruction :=
    Effect.suits_withTop unchecked unscripted goes
  cases instruction with
  | nop => exact ⟨rfl, by simp, rfl⟩
  | loopCheck => exact rfl
  | const value | const8 value => exact Effect.suits_push ⟨rfl, by simp, rfl⟩ _
  | globalLoad index | specialLoad index | threadLoad index =>
    exact Effect.suits_pushVariable ⟨rfl, by simp, rfl⟩ _ index
  | dup => exact top (by simp) (by simp) fun value => Effect.suits_push ⟨rfl, by simp, rfl⟩ value
  | unary op => exact top (by simp) (by simp) fun value => ⟨rfl, by simp, rfl⟩
  | binary op =>
    exact top (by simp) (by simp) fun second => top (by simp) (by simp) fun first =>
      ⟨rfl, by simp, rfl⟩
  | pop =>
    simp only [effect]
    split
    · exact ⟨by simp, by simp⟩
    · exact ⟨rfl, by simp, rfl⟩
  | localLoad index =>
    simp only [effect]
    split
    · exact Effect.suits_push ⟨rfl, by simp, rfl⟩ _
    · exact ⟨by simp, by simp⟩
  | localStore index =>
    refine top (by simp) (by simp) fun value => ?_
    dsimp only
    split
    · exact ⟨rfl, by simp, rfl⟩
    · exact ⟨by simp, by simp⟩
  | globalStore index =>
    simp only [effect]
    split
    · exact ⟨by simp, by simp⟩
    · split
      · exact top (by simp) (by simp) fun value => ⟨rfl, by simp, rfl⟩
      · exact ⟨by simp, by simp⟩
  | branch test delta | longBranch test delta =>
    cases test with
    | always => exact rfl
    | zero | nonzero =>
      refine top (by simp) (by simp) fun value => ?_
      split
      · exact rfl
      · exact ⟨rfl, by simp, rfl⟩
  | native kind result argc method =>
    simp only [effect]
    split
    · exact ⟨by simp, by simp⟩
    · exact ⟨argc, rfl⟩
  | script result argc callee => exact ⟨argc, callee, rfl, rfl, rfl⟩
  | ret kind =>
    cases kind with
    | void => exact ⟨.void, rfl⟩
    | int =>
      refine top (by simp) (by simp) fun value => ?_
      split
      · exact ⟨.int, rfl⟩
      · exact ⟨by simp, by simp⟩

namespace Config

variable {host : Host ν σ} {config middle next : Config ν σ} {run : Run ν σ}
  {registers : Registers ν}

/-! ## What is left alone -/

/-- The functions, the limits and the limit handler of the domain are as they were, and the host has
been told no more than this. -/
structure Besides (host : Host ν σ) (calls : List (ν × String)) (config next : Config ν σ) :
    Prop where
  functions : next.world.domain.functions = config.world.domain.functions
  limits : next.world.domain.limits = config.world.domain.limits
  handler : next.world.domain.limitHandler = config.world.domain.limitHandler
  told : host.Told config.state calls next.state

namespace Besides

variable {calls : List (ν × String)}

/-- Nothing has happened. -/
theorem refl (config : Config ν σ) : Besides host [] config config := ⟨rfl, rfl, rfl, .nothing⟩

/-- Other work is at hand or waits. -/
theorem congr (besides : Besides host calls config middle)
    (domain : next.world.domain = middle.world.domain) (state : next.state = middle.state) :
    Besides host calls config next where
  functions := by rw [domain, besides.functions]
  limits := by rw [domain, besides.limits]
  handler := by rw [domain, besides.handler]
  told := state ▸ besides.told

/-- Other work is at hand. -/
theorem goto (besides : Besides host calls config middle) (focus : Focus ν σ) :
    Besides host calls config (middle.goto focus) := besides.congr rfl rfl

/-- The domain has been replaced by one that differs in its variables or threads. -/
theorem setDomain {domain : Domain ν} (besides : Besides host calls config middle)
    (functions : domain.functions = middle.world.domain.functions)
    (limits : domain.limits = middle.world.domain.limits)
    (handler : domain.limitHandler = middle.world.domain.limitHandler) :
    Besides host calls config (middle.setDomain domain) where
  functions := functions.trans besides.functions
  limits := limits.trans besides.limits
  handler := handler.trans besides.handler
  told := besides.told

/-- An event has been shown. -/
theorem emit (besides : Besides host calls config middle) (event : Event ν) :
    Besides host calls config (middle.emit host event) := by
  unfold Config.emit
  split
  · split
    · exact ⟨besides.functions, besides.limits, besides.handler, besides.told.event _ _⟩
    · exact besides
  · exact besides

/-- A run has been aborted. -/
theorem abortRun (besides : Besides host [] config middle) (function : Function ν) (pc : Nat)
    (reason : AbortReason) :
    Besides host ((middle.abortRun host run function pc reason).focus.limitCalls
      config.world.domain.limitHandler) config (middle.abortRun host run function pc reason) where
  functions := besides.functions
  limits := besides.limits
  handler := besides.handler
  told := by
    simp only [Config.abortRun, Focus.limitCalls, ← besides.handler]
    cases middle.world.domain.limitHandler with
    | none =>
      cases reason.isLimit with
      | false => exact besides.told
      | true => exact besides.told
    | some handler =>
      cases reason.isLimit with
      | false => exact besides.told
      | true => exact besides.told.limit handler function.name

end Besides

/-! ## One instruction -/

/-- What an instruction makes of its run. -/
inductive Acts (host : Host ν σ) (config : Config ν σ) (run : Run ν σ) (registers : Registers ν)
    (next : Config ν σ) : Prop where
  | faulted (fault : Fault) (focus : next.focus = .faulted fault)
    (unfit : registers.instruction? = some .loopCheck →
      config.world.domain.thread? run.thread = none)
  /-- There is no instruction that could be executed. -/
  | stuck (last : Run ν σ)
    (focus : next.focus =
      .ended last (.aborted ⟨registers.function.name, registers.pc, .invalidBytecode⟩))
    (pending : next.pending = config.pending) (lasts : run.Lasts last)
    (unchecked : registers.instruction? ≠ some .loopCheck)
    (unregistered : ∀ result argc callee,
      registers.instruction? = some (.script result argc callee) →
        config.world.domain.function? ⟨callee.toNat⟩ = none)
  /-- Control goes on in the same frame. -/
  | goes (instruction : Instruction) (after : Run ν σ) (pc sp : Nat)
    (reads : registers.instruction? = some instruction) (unchecked : instruction ≠ .loopCheck)
    (uncalling : instruction.result? = none)
    (focus : next.focus = .execute after (registers.move pc sp))
    (pending : next.pending = config.pending) (keeps : run.Keeps after)
    (leads : instruction.Leads registers.pc pc)
  /-- A unit of the loop budget is spent. -/
  | spends (pc : Nat) (reads : registers.instruction? = some .loopCheck) (more : 1 < run.budget)
    (focus : next.focus =
      .execute { run with budget := run.budget - 1 } (registers.move pc registers.sp))
    (pending : next.pending = config.pending)
    (leads : Instruction.loopCheck.Leads registers.pc pc)
  /-- The loop budget is spent. -/
  | overruns (last : Run ν σ) (reads : registers.instruction? = some .loopCheck)
    (spent : run.budget ≤ 1)
    (focus : next.focus =
      .ended last (.aborted ⟨registers.function.name, registers.pc, .loopLimit⟩))
    (pending : next.pending = config.pending) (lasts : run.Lasts last)
  /-- A native method is called with the topmost slots of the operand stack. -/
  | calls (kind : MethodKind) (result : ResultKind) (argc index : UInt8) (method : ν)
    (pc start : Nat) (reads : registers.instruction? = some (.native kind result argc index))
    (known : registers.function.method? index = some method)
    (taken : start = registers.sp - (argc.toNat + kind.receivers))
    (focus : next.focus =
      .body (host.native method (run.execution.stack.extract start registers.sp).toList))
    (pending : next.pending = .calling run (registers.move pc (start + result.count))
      ⟨registers.pc, kind, index, start, result⟩ :: config.pending)
    (leads : (Instruction.native kind result argc index).Leads registers.pc pc)
  /-- A frame of a script function is entered. -/
  | enters (result : ResultKind) (argc callee : UInt8) (function : Function ν) (after : Run ν σ)
    (pc top : Nat) (reads : registers.instruction? = some (.script result argc callee))
    (registered : config.world.domain.function? ⟨callee.toNat⟩ = some function)
    (room : run.execution.frames.length < config.world.domain.limits.callDepth)
    (focus : next.focus = .enter after) (pending : next.pending = config.pending)
    (lasts : run.Lasts after) (budget : after.budget = run.budget)
    (frames : after.execution.frames =
      { function, base := registers.sp - argc.toNat, top := registers.sp - argc.toNat } ::
        (run.saveFrame pc top).execution.frames)
    (leads : (Instruction.script result argc callee).Leads registers.pc pc)
  /-- A call of a script function exceeds the greatest number of frames. -/
  | exceeds (result : ResultKind) (argc callee : UInt8) (function : Function ν) (last : Run ν σ)
    (stack : Array Int32)
    (reads : registers.instruction? = some (.script result argc callee))
    (registered : config.world.domain.function? ⟨callee.toNat⟩ = some function)
    (full : config.world.domain.limits.callDepth ≤ run.execution.frames.length)
    (enough : argc.toNat ≤ registers.sp)
    (stored : storeResult run.execution.stack result (registers.sp - argc.toNat) 0 = .ok stack)
    (focus : next.focus =
      .ended last (.aborted ⟨registers.function.name, registers.pc, .callDepth⟩))
    (pending : next.pending = config.pending) (lasts : run.Lasts last)
    (executes : last.execution = ⟨[], stack⟩)
  /-- The frame is left. -/
  | leaves (kind : ResultKind) (after : Run ν σ)
    (reads : registers.instruction? = some (.ret kind)) (focus : next.focus = .enter after)
    (pending : next.pending = config.pending) (lasts : run.Lasts after)
    (budget : after.budget = run.budget)
    (frames : after.execution.frames = run.execution.frames.tail)

/-- A run that is aborted because it is stuck. -/
theorem Acts.of_stuck (reads : ∀ instruction, registers.instruction? = some instruction →
      instruction ≠ .loopCheck ∧ ∀ result argc callee,
        instruction = .script result argc callee →
          config.world.domain.function? ⟨callee.toNat⟩ = none)
    (pending : middle.pending = config.pending) :
    config.Acts host run registers
      (middle.abortRun host run registers.function registers.pc .invalidBytecode) :=
  .stuck (run.setFrames []) rfl pending ⟨rfl, rfl, rfl⟩ (fun found => (reads _ found).1 rfl)
    fun result argc callee found => (reads _ found).2 result argc callee rfl

/-- A native method that is called. -/
theorem callNative_acts {kind : MethodKind} {result : ResultKind} {argc index : UInt8}
    {pc start : Nat} (reads : registers.instruction? = some (.native kind result argc index))
    (taken : start = registers.sp - (argc.toNat + kind.receivers))
    (pending : middle.pending = config.pending)
    (leads : (Instruction.native kind result argc index).Leads registers.pc pc) :
    config.Acts host run registers
      (middle.callNative host run registers pc ⟨registers.pc, kind, index, start, result⟩) := by
  unfold callNative
  split
  · refine .of_stuck (fun instruction found => ?_) pending
    obtain rfl := Option.some.inj (reads.symm.trans found)
    exact ⟨by simp, by simp⟩
  · rename_i method known
    dsimp only
    split
    · refine .calls kind result argc index method pc start reads known taken rfl ?_ leads
      rw [← pending]
      simp only [emit_pending]
      rfl
    · exact .faulted _ rfl (by simp [reads])

/-- A native method that is called leaves the domain alone. -/
theorem Besides.callNative (besides : Besides host [] config middle) (pc : Nat)
    (call : NativeCall) :
    Besides host ((middle.callNative host run registers pc call).focus.limitCalls
      config.world.domain.limitHandler) config (middle.callNative host run registers pc call) := by
  unfold Config.callNative
  split
  · exact besides.abortRun ..
  · dsimp only
    split
    · exact (besides.emit _).congr rfl rfl
    · exact (besides.emit _).goto _

/-- A script function that is called. -/
theorem callScript_acts {result : ResultKind} {argc callee : UInt8} {pc : Nat}
    (reads : registers.instruction? = some (.script result argc callee))
    (world : middle.world = config.world) (pending : middle.pending = config.pending)
    (leads : (Instruction.script result argc callee).Leads registers.pc pc) :
    config.Acts host run registers
      (middle.callScript host run registers pc result ⟨callee.toNat⟩ argc.toNat) := by
  refine callScript_induction (fun fault => .faulted fault rfl (by simp [reads]))
    (fun missing => ?_) fun function registered enough => ?_
  · refine .of_stuck (fun instruction found => ?_) pending
    obtain rfl := Option.some.inj (reads.symm.trans found)
    refine ⟨by simp, fun result argc callee same => ?_⟩
    cases same
    exact world ▸ missing
  · rw [world] at registered ⊢
    have lasts := Run.Lasts.saveFrame run pc (registers.sp - argc.toNat + result.count)
    refine ⟨fun stack full stored => ?_, fun room => ?_⟩
    · exact .exceeds result argc callee function _ stack reads registered full enough stored rfl
        pending ⟨lasts.thread, lasts.purpose, lasts.reply⟩ rfl
    · exact .enters result argc callee function _ pc _ reads registered room rfl pending
        ⟨lasts.thread, lasts.purpose, lasts.reply⟩ (run.budget_saveFrame ..) rfl leads

/-- A script function that is called leaves the domain alone. -/
theorem Besides.callScript (besides : Besides host [] config middle) (pc : Nat)
    (result : ResultKind) (callee : FunctionId) (argc : Nat) :
    Besides host ((middle.callScript host run registers pc result callee argc).focus.limitCalls
      config.world.domain.limitHandler) config
      (middle.callScript host run registers pc result callee argc) :=
  @callScript_induction _ _ (fun after => Besides host (after.focus.limitCalls
    config.world.domain.limitHandler) config after) _ _ _ _ _ _ _ _ (fun _ => besides.goto _)
    (fun _ => besides.abortRun ..)
    fun _ _ _ => ⟨fun _ _ _ => besides.abortRun .., fun _ => besides.goto _⟩

/-- What an instruction makes of its run follows from what is read, the rest of the loop budget and
the number of frames. It leaves functions and limits alone and tells the limit handler only of a
function that exceeds one. -/
theorem execute_acts (host : Host ν σ) (config : Config ν σ) (run : Run ν σ)
    (registers : Registers ν) :
    config.Acts host run registers (config.execute host run registers) ∧
      Besides host ((config.execute host run registers).focus.limitCalls
        config.world.domain.limitHandler) config (config.execute host run registers) := by
  unfold execute
  dsimp only
  split
  · rename_i failed
    refine ⟨.of_stuck (fun instruction found => ?_) rfl, (Besides.refl config).abortRun ..⟩
    simp [Registers.instruction?, failed] at found
  · rename_i instruction after decoded
    have reads : registers.instruction? = some instruction :=
      Registers.instruction?_eq_some.2 ⟨_, decoded⟩
    obtain rfl := Instruction.next_eq_of_decode decoded
    generalize emitted : config.emit host _ = shown
    have world : shown.world = config.world := by rw [← emitted, emit_world]
    have pending : shown.pending = config.pending := by rw [← emitted, emit_pending]
    have besides : Besides host [] config shown := emitted ▸ (Besides.refl config).emit _
    have stuck (other : instruction ≠ .loopCheck)
        (unscripted : ∀ result argc callee, instruction ≠ .script result argc callee) :
        config.Acts host run registers
          (shown.abortRun host run registers.function registers.pc .invalidBytecode) := by
      refine .of_stuck (fun found same => ?_) pending
      obtain rfl := Option.some.inj (reads.symm.trans same)
      exact ⟨other, fun result argc callee script => absurd script (unscripted _ _ _)⟩
    cases looked : shown.world.domain.thread run.thread with
    | error fault =>
      refine ⟨.faulted fault rfl fun _ => ?_, besides.goto _⟩
      cases found : config.world.domain.thread? run.thread with
      | none => rfl
      | some thread =>
        rw [world, Domain.thread_eq_ok.2 found] at looked
        cases looked
    | ok thread =>
      rw [attempt_ok]
      have suits := instruction.effect_suits ⟨shown.world.domain.globals,
        shown.world.domain.specials, thread.variables⟩ registers.base run.execution.stack
        registers.sp
      split
      all_goals rename_i does; rw [does] at suits
      · obtain ⟨falls, unchecked, uncalling⟩ := suits
        exact ⟨.goes instruction _ _ _ reads unchecked uncalling rfl pending (.setStack run _)
          (.next falls), besides.goto _⟩
      · obtain ⟨falls, unchecked, uncalling⟩ := suits
        refine ⟨.goes instruction run _ _ reads unchecked uncalling rfl pending
          ⟨.refl run, rfl, rfl⟩ (.next falls), Besides.goto ?_ _⟩
        exact besides.setDomain rfl rfl rfl
      · have unchecked : instruction ≠ .loopCheck := by
          rintro rfl
          cases suits
        have uncalling : instruction.result? = none := by
          cases instruction <;> first | rfl | cases suits
        have unscripted : ∀ result argc callee, instruction ≠ .script result argc callee := by
          rintro result argc callee rfl
          cases suits
        split
        · exact ⟨stuck unchecked unscripted, besides.abortRun ..⟩
        · rename_i lands
          exact ⟨.goes instruction run _ _ reads unchecked uncalling rfl pending
            ⟨.refl run, rfl, rfl⟩ (.branch suits lands), besides.goto _⟩
      · obtain rfl : instruction = .loopCheck := suits
        split
        · exact ⟨.overruns (run.setFrames []) reads (by omega) rfl pending ⟨rfl, rfl, rfl⟩,
            besides.abortRun ..⟩
        · exact ⟨.spends _ reads (by omega) rfl pending (.next rfl), besides.goto _⟩
      · obtain ⟨argc, rfl⟩ := suits
        simp only [Instruction.effect] at does
        split at does
        · cases does
        · cases does
          exact ⟨callNative_acts reads rfl pending (.next rfl), besides.callNative ..⟩
      · obtain ⟨argc, callee, rfl, rfl, rfl⟩ := suits
        exact ⟨callScript_acts reads world pending (.next rfl), besides.callScript ..⟩
      · obtain ⟨kind, rfl⟩ := suits
        exact ⟨.leaves kind _ reads rfl (by simp [leaveFrame, pending]) ⟨rfl, rfl, rfl⟩ rfl rfl,
          (besides.emit _).goto _⟩
      · exact ⟨stuck suits.1 suits.2, besides.abortRun ..⟩
      · refine ⟨.faulted _ rfl fun found => ?_, besides.goto _⟩
        exact absurd (Option.some.inj (reads.symm.trans found)) suits.1

/-- An instruction that calls a native method passes it the topmost slots, and the run waits for its
answer. -/
theorem step_native {kind : MethodKind} {result : ResultKind} {argc index : UInt8} {pc : Nat}
    {method : ν} (executes : config.focus = .execute run registers)
    (decodes : Instruction.decode registers.function.code registers.pc =
      .ok (.native kind result argc index, pc))
    (present : (config.world.domain.thread? run.thread).isSome)
    (known : registers.function.method? index = some method)
    (enough : argc.toNat + kind.receivers ≤ registers.sp)
    (room : registers.sp ≤ run.execution.stack.size) :
    let start := registers.sp - (argc.toNat + kind.receivers)
    (config.step host).focus =
        .body (host.native method (run.execution.stack.extract start registers.sp).toList) ∧
      (config.step host).pending = .calling run (registers.move pc (start + result.count))
        ⟨registers.pc, kind, index, start, result⟩ :: config.pending := by
  obtain ⟨thread, present⟩ := Option.isSome_iff_exists.1 present
  have looked := Domain.thread_eq_ok.2 present
  simp only [step, executes, execute, decodes, emit_world, looked, attempt_ok, Instruction.effect,
    Nat.not_lt.2 enough, ↓reduceIte, callNative, known, room, emit_pending, true_and]
  rfl

end Config

end ScriptMachine

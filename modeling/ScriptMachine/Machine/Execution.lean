import ScriptMachine.Machine.Effect
import ScriptMachine.Machine.Request

/-!
# Execution of instructions

A run executes the instructions of its innermost frame. The registers are written back to the frame
only where the frame may be left: at a script call, and at a native call that suspends the thread.
All frames share one operand stack. The arguments of a script call become the first locals of the
callee, whose base is where they lie.
-/

namespace ScriptMachine

/-- Fills a range of an array with zeros. -/
def clearRange (stack : Array Int32) (start : Nat) : Nat → Array Int32
  | 0 => stack
  | count + 1 => clearRange (stack.set! start 0) (start + 1) count

/-- Prepares the operand stack for a frame that runs for the first time: there is room for the
whole activation, and every local that is not a parameter is zero. -/
def Frame.prepareStack {ν : Type} (frame : Frame ν) (stack : Array Int32) : Array Int32 :=
  let function := frame.function
  let room := frame.base + function.stackSlots - stack.size
  let stack := stack ++ Array.replicate room 0
  let params := min function.params function.locals
  clearRange stack (frame.base + params) (function.locals - params)

namespace Config

variable {ν σ : Type}

/-- Enters or continues the innermost frame of a run; without a frame the run is complete. -/
def enterFrame (host : Host ν σ) (config : Config ν σ) (run : Run ν σ) : Config ν σ :=
  match run.execution.frames with
  | [] => config.goto (.ended run .completed)
  | frame :: _ =>
    match frame.pc with
    | some pc => config.goto (.execute run ⟨frame.function, frame.base, pc, frame.top⟩)
    | none =>
      let run := run.setStack (frame.prepareStack run.execution.stack)
      let config := config.emit host (.scopeEnter .frame frame.function 0)
      let top := frame.base + frame.function.locals
      config.goto (.execute run ⟨frame.function, frame.base, 0, top⟩)

/-- Leaves the innermost frame of a run. -/
def leaveFrame (host : Host ν σ) (config : Config ν σ) (run : Run ν σ) (function : Function ν)
    (stack : Array Int32) : Config ν σ :=
  let run := (run.setStack stack).setFrames run.execution.frames.tail
  (config.emit host (.scopeExit .frame function 0)).goto (.enter run)

/-- Calls a native method with the slots from `base` to the height of the stack. -/
def callNative (host : Host ν σ) (config : Config ν σ) (run : Run ν σ) (registers : Registers ν)
    (next : Nat) (call : NativeCall) : Config ν σ :=
  match registers.function.method? call.method with
  | none => config.abortRun host run registers.function call.pc .invalidBytecode
  | some method =>
    let config :=
      config.emit host (.scopeEnter (.native call.kind call.method) registers.function call.pc)
    if registers.sp ≤ run.execution.stack.size then
      let arguments := (run.execution.stack.extract call.base registers.sp).toList
      let registers := { registers with pc := next, sp := call.base + call.result.count }
      { config with
        focus := .body (host.native method arguments)
        pending := .calling run registers call :: config.pending }
    else config.goto (.faulted .stackBounds)

/-- Writes the result of a call, if it has one, to its slot. -/
def storeResult (stack : Array Int32) (result : ResultKind) (base : Nat) (value : Int32) :
    Except Fault (Array Int32) :=
  match result with
  | .void => .ok stack
  | .int => if base < stack.size then .ok (stack.set! base value) else .error .stackBounds

/-- A native method has answered. An abort requested in the meantime comes before a suspension. -/
def returnNative (host : Host ν σ) (config : Config ν σ) (run : Run ν σ)
    (registers : Registers ν) (call : NativeCall) (value : Int32) : Config ν σ :=
  let function := registers.function
  let config := config.emit host (.scopeExit (.native call.kind call.method) function call.pc)
  config.attempt (storeResult run.execution.stack call.result call.base value) fun stack =>
    let run := run.setStack stack
    let domain := config.world.domain
    config.attempt (domain.thread run.thread) fun thread =>
      match thread.pendingAbort with
      | some reason =>
        let config := config.setDomain
          (domain.setThread run.thread { thread with pendingAbort := none })
        config.detach host run.thread (.stop run function call.pc reason)
      | none =>
        if thread.suspended then
          let run := run.saveFrame registers.pc registers.sp
          let config := config.emit host (.suspend run.thread function call.pc)
          config.goto (.ended run .suspended)
        else config.goto (.execute run registers)

/-- Calls a script function. The caller's frame records where to continue before anything else; a
call that exceeds the depth limit leaves a zero result behind. -/
def callScript (host : Host ν σ) (config : Config ν σ) (run : Run ν σ) (registers : Registers ν)
    (next : Nat) (result : ResultKind) (callee : FunctionId) (argc : Nat) : Config ν σ :=
  match config.world.domain.function? callee with
  | none => config.abortRun host run registers.function registers.pc .invalidBytecode
  | some function =>
    if registers.sp < argc then config.goto (.faulted .stackBounds)
    else
      let base := registers.sp - argc
      let run := run.saveFrame next (base + result.count)
      let frames := run.execution.frames
      if config.world.domain.limits.callDepth ≤ frames.length then
        config.attempt (storeResult run.execution.stack result base 0) fun stack =>
          config.abortRun host (run.setStack stack) registers.function registers.pc .callDepth
      else config.goto (.enter (run.setFrames ({ function, base, top := base } :: frames)))

/-- Executes one instruction. -/
def execute (host : Host ν σ) (config : Config ν σ) (run : Run ν σ) (registers : Registers ν) :
    Config ν σ :=
  let function := registers.function
  let stop (config : Config ν σ) (reason : AbortReason) :=
    config.abortRun host run function registers.pc reason
  match Instruction.decode function.code registers.pc with
  | .error _ => stop config .invalidBytecode
  | .ok (instruction, next) =>
    let config := config.emit host
      (.instruction run.thread function registers.pc next instruction.opcode)
    let domain := config.world.domain
    config.attempt (domain.thread run.thread) fun thread =>
      let reach : Variables := ⟨domain.globals, domain.specials, thread.variables⟩
      match instruction.effect reach registers.base run.execution.stack registers.sp with
      | .advance stack sp =>
        config.goto (.execute (run.setStack stack) { registers with pc := next, sp })
      | .writeGlobal index value sp =>
        let globals := domain.globals.set! index value
        (config.setDomain { domain with globals }).goto
          (.execute run { registers with pc := next, sp })
      | .jump delta sp =>
        match branchTarget? next delta with
        | none => stop config .invalidBytecode
        | some pc => config.goto (.execute run { registers with pc, sp })
      | .spend =>
        let budget := run.budget - 1
        if budget = 0 then stop config .loopLimit
        else config.goto (.execute { run with budget } { registers with pc := next })
      | .native kind result method base =>
        config.callNative host run registers next ⟨registers.pc, kind, method, base, result⟩
      | .script result callee argc =>
        config.callScript host run registers next result callee argc
      | .ret stack => config.leaveFrame host run function stack
      | .invalid => stop config .invalidBytecode
      | .outOfBounds => config.goto (.faulted .stackBounds)

end Config

end ScriptMachine

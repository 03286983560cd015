import ScriptMachine.Proofs.Reachable

/-!
# What a step does not look at

A step looks at the waiting work only where a body has ended, and then only at the innermost piece.
So the machine makes the same steps whatever else waits below, until the body ends right above
which this begins. What the machine does with a run depends on the run and on the world, whatever
work the configuration records as at hand.
-/

namespace ScriptMachine

variable {ν σ : Type}

namespace Config

/-- More work waits below the work that waits already. -/
def onto (config : Config ν σ) (rest : List (Pending ν σ)) : Config ν σ :=
  { config with pending := config.pending ++ rest }

variable {host : Host ν σ} {config : Config ν σ} {rest : List (Pending ν σ)} {α : Type}

@[simp] theorem onto_world : (config.onto rest).world = config.world := rfl

@[simp] theorem onto_focus : (config.onto rest).focus = config.focus := rfl

@[simp] theorem onto_pending : (config.onto rest).pending = config.pending ++ rest := rfl

@[simp] theorem goto_onto (focus : Focus ν σ) :
    (config.onto rest).goto focus = (config.goto focus).onto rest := rfl

@[simp] theorem setDomain_onto (domain : Domain ν) :
    (config.onto rest).setDomain domain = (config.setDomain domain).onto rest := rfl

/-- Showing an event. -/
@[simp] theorem emit_onto (event : Event ν) :
    (config.onto rest).emit host event = (config.emit host event).onto rest := by
  simp only [emit, onto_world]
  split
  · split <;> rfl
  · rfl

/-- Going on with a result. -/
theorem attempt_onto {result : Except Fault α} {next beneath : α → Config ν σ}
    (goes : ∀ value, beneath value = (next value).onto rest) :
    (config.onto rest).attempt result beneath = (config.attempt result next).onto rest := by
  cases result with
  | error fault => rfl
  | ok value => exact goes value

/-- Starting a run. -/
@[simp] theorem launch_onto (id : ThreadId) (purpose : Purpose) (reply : Answer ν → Body ν σ) :
    (config.onto rest).launch host id purpose reply =
      (config.launch host id purpose reply).onto rest := by
  refine attempt_onto fun thread => ?_
  cases thread.execution with
  | none => rfl
  | some execution =>
    dsimp only
    cases execution.frames with
    | nil => rfl
    | cons frame frames => simp

/-- Ending a run. -/
@[simp] theorem finishRun_onto (run : Run ν σ) (outcome : Outcome) :
    (config.onto rest).finishRun host run outcome =
      (config.finishRun host run outcome).onto rest :=
  attempt_onto fun thread => by simp

/-- Aborting a run. -/
@[simp] theorem abortRun_onto (run : Run ν σ) (function : Function ν) (pc : Nat)
    (reason : AbortReason) :
    (config.onto rest).abortRun host run function pc reason =
      (config.abortRun host run function pc reason).onto rest := rfl

/-- What follows an abort. -/
@[simp] theorem afterAbort_onto (next : AfterAbort ν σ) :
    (config.onto rest).afterAbort host next = (config.afterAbort host next).onto rest := by
  cases next with
  | reply next => rfl
  | stop run function pc reason => rfl
  | start id function purpose next =>
    refine attempt_onto fun thread => ?_
    cases thread.execution with
    | none => rfl
    | some execution =>
      cases purpose with
      | none => rfl
      | some purpose => simp

/-- Detaching a thread. -/
@[simp] theorem detach_onto (id : ThreadId) (next : AfterAbort ν σ) :
    (config.onto rest).detach host id next = (config.detach host id next).onto rest := by
  refine attempt_onto fun ⟨domain, hook⟩ => ?_
  dsimp only
  cases hook with
  | none => simp
  | some hook =>
    cases hook with
    | custom reference => rfl
    | leaveSleep =>
      exact @afterAbort_onto _ _ host { config with world :=
        { config.world with domain, sleepers := config.world.sleepers.remove id } } rest next

/-- Aborting a thread. -/
@[simp] theorem abort_onto (id : ThreadId) (reason : AbortReason) (next : AfterAbort ν σ) :
    (config.onto rest).abort host id reason next = (config.abort host id reason next).onto rest :=
  attempt_onto fun domain => by simp

/-- Giving a thread a fresh frame. -/
@[simp] theorem start_onto (id : ThreadId) (function : FunctionId) (purpose : Option Purpose)
    (next : Answer ν → Body ν σ) :
    (config.onto rest).start host id function purpose next =
      (config.start host id function purpose next).onto rest := by
  simp only [start, onto_world]
  cases config.world.domain.function? function with
  | none => rfl
  | some function =>
    refine attempt_onto fun thread => ?_
    cases thread.execution with
    | none => rfl
    | some execution =>
      dsimp only
      split <;> simp

/-- Letting a thread go on. -/
@[simp] theorem continueThread_onto (id : ThreadId) (purpose : Purpose)
    (next : Answer ν → Body ν σ) :
    (config.onto rest).continueThread host id purpose next =
      (config.continueThread host id purpose next).onto rest := by
  refine attempt_onto fun thread => ?_
  dsimp only
  split <;> simp

/-- Resuming a thread. -/
@[simp] theorem resume_onto (id : ThreadId) (next : Answer ν → Body ν σ) :
    (config.onto rest).resume host id next = (config.resume host id next).onto rest := by
  refine attempt_onto fun thread => ?_
  dsimp only
  split
  · rfl
  · split
    · rfl
    · split
      · rfl
      · simp

/-- Waking a thread. -/
@[simp] theorem wake_onto (queue : QueueId) (value : Option Int32) (next : Answer ν → Body ν σ) :
    (config.onto rest).wake host queue value next =
      (config.wake host queue value next).onto rest := by
  refine attempt_onto fun first => ?_
  cases first with
  | none => rfl
  | some head =>
    refine attempt_onto fun thread => ?_
    split
    · rfl
    · refine attempt_onto fun ⟨domain, popped⟩ => ?_
      refine @attempt_onto _ _ (config.setDomain domain) rest _ _ _ _ fun result => ?_
      cases result with
      | error error => rfl
      | ok supplied => simp

/-- Carrying out a request. -/
@[simp] theorem perform_onto (request : Request ν) (next : Answer ν → Body ν σ) :
    (config.onto rest).perform host request next =
      (config.perform host request next).onto rest := by
  cases request with
  | observe => rfl
  | update update => exact attempt_onto fun _ => rfl
  | start id function => exact start_onto id function none next
  | run id function => exact start_onto id function (some .plain) next
  | runInt id function => exact start_onto id function (some .result) next
  | resume id => exact resume_onto id next
  | abort id => exact abort_onto id .requested (.reply next)
  | wake queue value => exact wake_onto queue value next
  | faultActive error =>
    simp only [perform, onto_world]
    cases config.world.domain.active with
    | none => rfl
    | some id => simp

/-- Entering a frame. -/
@[simp] theorem enterFrame_onto (run : Run ν σ) :
    (config.onto rest).enterFrame host run = (config.enterFrame host run).onto rest := by
  unfold enterFrame
  cases run.execution.frames with
  | nil => rfl
  | cons frame frames =>
    dsimp only
    cases frame.pc with
    | none => simp
    | some pc => rfl

/-- Leaving a frame. -/
@[simp] theorem leaveFrame_onto (run : Run ν σ) (function : Function ν) (stack : Array Int32) :
    (config.onto rest).leaveFrame host run function stack =
      (config.leaveFrame host run function stack).onto rest := by
  simp [leaveFrame]

/-- Calling a native method. -/
@[simp] theorem callNative_onto (run : Run ν σ) (registers : Registers ν) (next : Nat)
    (call : NativeCall) :
    (config.onto rest).callNative host run registers next call =
      (config.callNative host run registers next call).onto rest := by
  unfold callNative
  cases registers.function.method? call.method with
  | none => simp
  | some method =>
    simp only [emit_onto]
    split
    · simp [onto]
    · rfl

/-- Going on after a native method. -/
@[simp] theorem returnNative_onto (run : Run ν σ) (registers : Registers ν) (call : NativeCall)
    (value : Int32) :
    (config.onto rest).returnNative host run registers call value =
      (config.returnNative host run registers call value).onto rest := by
  unfold returnNative
  dsimp only
  rw [emit_onto]
  refine attempt_onto fun stack => attempt_onto fun thread => ?_
  cases thread.pendingAbort with
  | some reason => simp
  | none =>
    dsimp only
    split <;> simp

/-- Calling a script function. -/
@[simp] theorem callScript_onto (run : Run ν σ) (registers : Registers ν) (next : Nat)
    (result : ResultKind) (callee : FunctionId) (argc : Nat) :
    (config.onto rest).callScript host run registers next result callee argc =
      (config.callScript host run registers next result callee argc).onto rest := by
  simp only [callScript, onto_world]
  cases config.world.domain.function? callee with
  | none => simp
  | some function =>
    dsimp only
    by_cases few : registers.sp < argc
    · rw [if_pos few, if_pos few]
      rfl
    · rw [if_neg few, if_neg few]
      generalize run.saveFrame next (registers.sp - argc + result.count) = saved
      change (if config.world.domain.limits.callDepth ≤ _ then _ else _) = _
      split
      · exact attempt_onto fun stack => abortRun_onto _ _ _ _
      · rfl

/-- Executing an instruction. -/
@[simp] theorem execute_onto (run : Run ν σ) (registers : Registers ν) :
    (config.onto rest).execute host run registers =
      (config.execute host run registers).onto rest := by
  unfold execute
  dsimp only
  cases Instruction.decode registers.function.code registers.pc with
  | error reason => simp
  | ok found =>
    obtain ⟨instruction, next⟩ := found
    dsimp only
    rw [emit_onto]
    refine attempt_onto fun thread => ?_
    rw [onto_world]
    generalize Instruction.effect _ _ _ _ instruction = effect
    cases effect with
    | jump delta sp =>
      dsimp only
      cases branchTarget? next delta <;> simp
    | spend =>
      dsimp only
      split <;> simp
    | advance _ _ | writeGlobal _ _ _ | native _ _ _ _ | script _ _ _ | ret _ | invalid
    | outOfBounds => simp

/-- The machine makes the same step whatever else waits below, unless a body ends for which this
waits. -/
theorem step_onto (host : Host ν σ) (config : Config ν σ) (rest : List (Pending ν σ))
    (above : config.pending = [] → ∀ value, config.focus ≠ .body (.done value)) :
    (config.onto rest).step host = (config.step host).onto rest := by
  unfold step
  rw [onto_focus]
  cases focus : config.focus with
  | enter run => exact enterFrame_onto run
  | execute run registers => exact execute_onto run registers
  | ended run outcome => exact finishRun_onto run outcome
  | finished value | faulted fault => rfl
  | body body =>
    cases body with
    | ask request next => exact perform_onto request next
    | modify change next => rfl
    | crash fault => rfl
    | done value =>
      cases pending : config.pending with
      | nil => exact absurd focus (above pending value)
      | cons work waiting =>
        simp only [finishBody, onto_pending, pending, List.cons_append]
        cases work with
        | calling run registers call =>
          exact @returnNative_onto _ _ host { config with pending := waiting } rest run registers
            call value
        | aborting next =>
          exact @afterAbort_onto _ _ host { config with pending := waiting } rest next

/-! ## The work at hand -/

variable {focus : Focus ν σ} {run : Run ν σ}

/-- Showing an event. -/
@[simp] theorem emit_goto (event : Event ν) :
    (config.goto focus).emit host event = (config.emit host event).goto focus := by
  simp only [emit, goto_world]
  split
  · split <;> rfl
  · rfl

@[simp] theorem goto_goto (second : Focus ν σ) :
    (config.goto focus).goto second = config.goto second := rfl

/-- Going on with a result. -/
theorem attempt_goto {result : Except Fault α} {next next' : α → Config ν σ}
    (goes : ∀ value, next' value = next value) :
    (config.goto focus).attempt result next' = config.attempt result next := by
  cases result with
  | error fault => rfl
  | ok value => exact goes value

/-- Aborting a run. -/
@[simp] theorem abortRun_goto (function : Function ν) (pc : Nat) (reason : AbortReason) :
    (config.goto focus).abortRun host run function pc reason =
      config.abortRun host run function pc reason := rfl

/-- Entering a frame. -/
@[simp] theorem enterFrame_goto :
    (config.goto focus).enterFrame host run = config.enterFrame host run := by
  unfold enterFrame
  cases run.execution.frames with
  | nil => rfl
  | cons frame frames =>
    dsimp only
    cases frame.pc with
    | none => simp
    | some pc => rfl

/-- Ending a run. -/
@[simp] theorem finishRun_goto (outcome : Outcome) :
    (config.goto focus).finishRun host run outcome = config.finishRun host run outcome := by
  refine attempt_goto fun thread => ?_
  change (((config.setDomain _).goto focus).emit host _).goto _ = _
  rw [emit_goto, goto_goto]
  rfl

/-- Leaving a frame. -/
@[simp] theorem leaveFrame_goto (function : Function ν) (stack : Array Int32) :
    (config.goto focus).leaveFrame host run function stack =
      config.leaveFrame host run function stack := by
  simp [leaveFrame]

/-- Calling a native method. -/
@[simp] theorem callNative_goto (registers : Registers ν) (next : Nat) (call : NativeCall) :
    (config.goto focus).callNative host run registers next call =
      config.callNative host run registers next call := by
  unfold callNative
  cases registers.function.method? call.method with
  | none => simp
  | some method =>
    simp only [emit_goto]
    split <;> rfl

/-- Calling a script function. -/
@[simp] theorem callScript_goto (registers : Registers ν) (next : Nat) (result : ResultKind)
    (callee : FunctionId) (argc : Nat) :
    (config.goto focus).callScript host run registers next result callee argc =
      config.callScript host run registers next result callee argc := by
  simp only [callScript, goto_world]
  cases config.world.domain.function? callee with
  | none => simp
  | some function =>
    dsimp only
    split
    · rfl
    · change (if config.world.domain.limits.callDepth ≤ _ then _ else _) = _
      split
      · exact attempt_goto fun stack => rfl
      · rfl

/-- Executing an instruction. -/
@[simp] theorem execute_goto (registers : Registers ν) :
    (config.goto focus).execute host run registers = config.execute host run registers := by
  unfold execute
  dsimp only
  cases Instruction.decode registers.function.code registers.pc with
  | error reason => simp
  | ok found =>
    obtain ⟨instruction, next⟩ := found
    dsimp only
    rw [emit_goto]
    refine attempt_goto fun thread => ?_
    rw [goto_world]
    generalize Instruction.effect _ _ _ _ instruction = effect
    cases effect with
    | jump delta sp =>
      dsimp only
      cases branchTarget? next delta <;> simp
    | spend =>
      dsimp only
      split <;> simp
    | writeGlobal index value sp => rfl
    | advance _ _ | native _ _ _ _ | script _ _ _ | ret _ | invalid | outOfBounds => simp

end Config

end ScriptMachine

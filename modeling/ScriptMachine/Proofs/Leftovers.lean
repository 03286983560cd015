import ScriptMachine.Proofs.Agreement
import ScriptMachine.Proofs.Registrations
import ScriptMachine.Proofs.Replies
import ScriptMachine.Proofs.Stopping
import ScriptMachine.Proofs.Surroundings

/-!
# What earlier runs leave behind

The operand stack of a thread is never cleared: a run finds on it whatever earlier runs have left.
It cannot see this. Where the arguments of a script call include all parameters of the callee, and
the functions whose results are used return one, every slot that an instruction reads has been
written by the same run. So two machines that differ only in what a thread has on its operand stack
when it begins to run stay in lockstep: the run in both is at the same instruction of the same
frames, and the operand stacks agree below the height to which the run has filled them.
-/

namespace ScriptMachine

variable {ν σ : Type}

/-- Control never reaches a return without a result. -/
def Function.AnswersInt (function : Function ν) : Prop :=
  ∀ pc, function.Reaches pc → (pc, .ret .void) ∉ function.code.instructions.instructions

/-- Every script call that control reaches in the function passes at least the parameters of the
callee, and calls a function that answers where it expects a result. The callees are looked up in
the table. -/
def Function.CallsFurnished (function : Function ν) (functions : Array (Function ν)) : Prop :=
  ∀ pc result argc callee, function.Reaches pc →
    (pc, .script result argc callee) ∈ function.code.instructions.instructions →
    ∀ called, functions[callee.toNat]? = some called →
      called.params ≤ argc.toNat ∧ (result = .int → called.AnswersInt)

/-! ## Other leftovers -/

/-- The thread with another operand stack, unless it runs. -/
def Thread.restack (thread : Thread ν) (stack : Array Int32) : Thread ν :=
  { thread with execution := thread.execution.map fun execution => { execution with stack } }

/-- The domain with another operand stack of a thread. -/
def Domain.restack (domain : Domain ν) (id : ThreadId) (stack : Array Int32) : Domain ν :=
  match domain.thread? id with
  | some thread => domain.setThread id (thread.restack stack)
  | none => domain

/-- The configuration with another operand stack of a thread. -/
def Config.restack (config : Config ν σ) (id : ThreadId) (stack : Array Int32) : Config ν σ :=
  config.setDomain (config.world.domain.restack id stack)

namespace Domain

variable {domain : Domain ν} {id : ThreadId} {thread : Thread ν} {stack : Array Int32}

/-- The operand stack of a thread that exists. -/
theorem restack_eq (present : domain.thread? id = some thread) :
    domain.restack id stack = domain.setThread id (thread.restack stack) := by
  simp only [restack, present]

/-- The thread has the other operand stack. -/
theorem thread?_restack (present : domain.thread? id = some thread) :
    (domain.restack id stack).thread? id = some (thread.restack stack) := by
  rw [restack_eq present, thread?_setThread present, if_pos rfl]

/-- A thread that is replaced has the operand stack that it is given. -/
theorem setThread_restack (after : Thread ν) :
    (domain.restack id stack).setThread id after = domain.setThread id after := by
  unfold restack
  split
  · exact setThread_setThread _ _ _ _
  · rfl

/-- Another operand stack of a thread that is replaced. -/
theorem restack_setThread (present : domain.thread? id = some thread) (after : Thread ν) :
    (domain.setThread id after).restack id stack = domain.setThread id (after.restack stack) := by
  have there := thread?_setThread present after id
  rw [if_pos rfl] at there
  rw [restack_eq there, setThread_setThread]

@[simp] theorem function?_restack (called : FunctionId) :
    (domain.restack id stack).function? called = domain.function? called := by
  unfold restack
  split <;> rfl

@[simp] theorem globals_restack : (domain.restack id stack).globals = domain.globals := by
  unfold restack
  split <;> rfl

@[simp] theorem active_restack : (domain.restack id stack).active = domain.active := by
  unfold restack
  split <;> rfl

@[simp] theorem limits_restack : (domain.restack id stack).limits = domain.limits := by
  unfold restack
  split <;> rfl

@[simp] theorem sink_restack : (domain.restack id stack).sink = domain.sink := by
  unfold restack
  split <;> rfl

/-- Discarding the frames of a thread leaves its operand stack alone. -/
theorem discard_restack (present : domain.thread? id = some thread) (reason : AbortReason) :
    (domain.restack id stack).discard id reason =
      (domain.discard id reason).map (·.restack id stack) := by
  have before := thread_eq_ok.2 present
  have after := thread_eq_ok.2 (@thread?_restack _ _ _ _ stack present)
  unfold discard
  rw [before, after]
  cases held : thread.execution with
  | none =>
    simp only [bind, Except.bind, Thread.restack, held, Option.map_none]
    change Except.ok _ = Except.ok (restack _ id stack)
    rw [setThread_restack, restack_setThread present]
    simp [Thread.restack]
  | some execution =>
    simp only [bind, Except.bind, Thread.restack, held, Option.map_some]
    change Except.ok _ = Except.ok (restack _ id stack)
    rw [setThread_restack, restack_setThread present]
    rfl

/-- Taking a thread out of a queue leaves its operand stack alone. -/
theorem unlink_restack (queue : QueueId) :
    (domain.restack id stack).unlink queue id =
      (domain.unlink queue id).map (·.restack id stack) := by
  have queues : (domain.restack id stack).waiters queue = domain.waiters queue := by
    unfold restack
    split <;> rfl
  have kept (waiters : List ThreadId) : (domain.restack id stack).setWaiters queue waiters =
      (domain.setWaiters queue waiters).restack id stack := by
    unfold restack
    rw [thread?_setWaiters]
    split <;> rfl
  unfold unlink
  rw [queues]
  cases domain.waiters queue with
  | error fault => rfl
  | ok waiters => exact congrArg Except.ok (kept _)

/-- Detaching a thread leaves its operand stack alone. -/
theorem detach_restack (present : domain.thread? id = some thread) :
    (domain.restack id stack).detach id =
      (domain.detach id).map fun (next, hook) => (next.restack id stack, hook) := by
  have before := thread_eq_ok.2 present
  have after := thread_eq_ok.2 (@thread?_restack _ _ _ _ stack present)
  have left : (domain.restack id stack).setThread id { thread.restack stack with
      suspended := false, waitingOn := none, hook := none } =
      (domain.setThread id { thread with
        suspended := false, waitingOn := none, hook := none }).restack id stack := by
    rw [setThread_restack, restack_setThread present]
    rfl
  unfold detach
  rw [before, after]
  simp only [bind, Except.bind, left]
  cases waits : thread.waitingOn with
  | none => simp only [Thread.restack, waits]; rfl
  | some queue =>
    simp only [Thread.restack, waits, unlink_restack]
    cases Domain.unlink _ queue id <;> rfl

end Domain

namespace Config

@[simp] theorem restack_focus (config : Config ν σ) (id : ThreadId) (stack : Array Int32) :
    (config.restack id stack).focus = config.focus := rfl

@[simp] theorem restack_pending (config : Config ν σ) (id : ThreadId) (stack : Array Int32) :
    (config.restack id stack).pending = config.pending := rfl

@[simp] theorem restack_world (config : Config ν σ) (id : ThreadId) (stack : Array Int32) :
    (config.restack id stack).world =
      { config.world with domain := config.world.domain.restack id stack } := rfl

/-- Showing an event. -/
theorem emit_restack (host : Host ν σ) (config : Config ν σ) (id : ThreadId)
    (stack : Array Int32) (event : Event ν) :
    (config.restack id stack).emit host event = (config.emit host event).restack id stack := by
  simp only [emit, restack_world, Domain.sink_restack]
  split
  · split <;> rfl
  · rfl

end Config

/-! ## Runs in lockstep -/

/-- The frames of a run of a function without parameters that answers, or none. Every other frame
belongs to a function that has been called in the frame below, which continues with the result above
the base of the call, and answers if the result is used. -/
inductive Answering (functions : Function ν → Prop) : List (Frame ν) → Prop where
  | done : Answering functions []
  | entry {frame : Frame ν} (listed : functions frame.function) (bottom : frame.base = 0)
    (answers : frame.function.AnswersInt) : Answering functions [frame]
  | called {callee caller : Frame ν} {frames : List (Frame ν)} (result : ResultKind)
    (listed : functions callee.function) (saved : caller.pc.isSome)
    (height : caller.top = callee.base + result.count)
    (answers : result = .int → callee.function.AnswersInt)
    (below : Answering functions (caller :: frames)) :
    Answering functions (callee :: caller :: frames)

/-- The height to which a run has filled the operand stack when it enters or continues its innermost
frame, or has left the last one. -/
def filledHeight : List (Frame ν) → Nat
  | [] => 1
  | frame :: _ =>
    match frame.pc with
    | some _ => frame.top
    | none => frame.base + min frame.function.params frame.function.locals

namespace Answering

variable {functions : Function ν → Prop} {frame : Frame ν} {frames : List (Frame ν)}

/-- The innermost function is one of those that may be executed. -/
theorem listed (answering : Answering functions (frame :: frames)) :
    functions frame.function := by
  cases answering with
  | entry listed => exact listed
  | called _ listed => exact listed

/-- Where the innermost frame is to be continued does not matter. -/
theorem replace (answering : Answering functions (frame :: frames)) {other : Frame ν}
    (function : other.function = frame.function) (base : other.base = frame.base) :
    Answering functions (other :: frames) := by
  cases answering with
  | entry listed bottom answers =>
    rw [← function] at listed answers
    exact .entry listed (base.trans bottom) answers
  | called result listed saved height answers below =>
    rw [← function] at listed answers
    rw [← base] at height
    exact .called result listed saved height answers below

/-- When the innermost frame is left, the operand stack is filled up to the result, if the frame
below or the request uses one. -/
theorem leave (answering : Answering functions (frame :: frames)) {pc : Nat} {result : ResultKind}
    {first second : Array Int32} (reached : frame.function.Reaches pc)
    (listed : (pc, .ret result) ∈ frame.function.code.instructions.instructions)
    (agree : Agree (frame.base + result.count) first second) :
    Answering functions frames ∧ Agree (filledHeight frames) first second := by
  have answered (answers : frame.function.AnswersInt) : result = .int := by
    cases result with
    | void => exact absurd listed (answers pc reached)
    | int => rfl
  cases answering with
  | entry _ bottom answers =>
    rw [answered answers, bottom] at agree
    exact ⟨.done, agree⟩
  | @called _ caller outer used _ saved height answers below =>
    refine ⟨below, ?_⟩
    obtain ⟨offset, saved⟩ := Option.isSome_iff_exists.1 saved
    have filled : filledHeight (caller :: outer) = frame.base + used.count := by
      simp only [filledHeight, saved, height]
    rw [filled]
    cases used with
    | void => exact agree.mono (Nat.le_add_right _ _)
    | int =>
      rw [answered (answers rfl)] at agree
      exact agree

end Answering

/-- A request to run a function for its result, made above some work that waits. -/
structure Errand (ν σ : Type) where
  thread : ThreadId
  next : Answer ν → Body ν σ
  /-- The functions that the run may execute. -/
  functions : Function ν → Prop
  rest : List (Pending ν σ)

/-- The run may execute every function of the table, and the calls of every function that it may
execute are furnished where the callees are looked up in this table. -/
structure Errand.Covers (errand : Errand ν σ) (functions : Array (Function ν)) : Prop where
  listed : ∀ function ∈ functions, errand.functions function
  furnished : ∀ function, errand.functions function → function.CallsFurnished functions

/-- A run that the request has started. -/
structure Run.Performs (errand : Errand ν σ) (run : Run ν σ) : Prop where
  thread : run.thread = errand.thread
  purpose : run.purpose = .result
  reply : run.reply = errand.next
  answering : Answering errand.functions run.execution.frames

/-- The work at hand is the same but for the operand stacks, which agree as far as the run has
filled them. -/
inductive Focus.Mirrors (errand : Errand ν σ) : Focus ν σ → Focus ν σ → Prop where
  | enter {run : Run ν σ} {stack : Array Int32} (performs : run.Performs errand)
    (agree : Agree (filledHeight run.execution.frames) run.execution.stack stack) :
    Mirrors errand (.enter run) (.enter (run.setStack stack))
  | execute {run : Run ν σ} {registers : Registers ν} {stack : Array Int32}
    (performs : run.Performs errand) (agree : Agree registers.sp run.execution.stack stack) :
    Mirrors errand (.execute run registers) (.execute (run.setStack stack) registers)
  | ended {run : Run ν σ} {outcome : Outcome} {stack : Array Int32} (performs : run.Performs errand)
    (agree : outcome = .completed → Agree 1 run.execution.stack stack) :
    Mirrors errand (.ended run outcome) (.ended (run.setStack stack) outcome)

/-- The work that waits is the same but for the operand stacks, which agree up to the arguments of
the native call. -/
inductive Pending.Mirrors (errand : Errand ν σ) : Pending ν σ → Pending ν σ → Prop where
  | calling {run : Run ν σ} {registers : Registers ν} {call : NativeCall} {stack : Array Int32}
    (performs : run.Performs errand) (agree : Agree call.base run.execution.stack stack) :
    Mirrors errand (.calling run registers call) (.calling (run.setStack stack) registers call)
  | stopping {run : Run ν σ} {function : Function ν} {pc : Nat} {reason : AbortReason}
    {stack : Array Int32} (performs : run.Performs errand) :
    Mirrors errand (.aborting (.stop run function pc reason))
      (.aborting (.stop (run.setStack stack) function pc reason))

namespace Run.Performs

variable {errand : Errand ν σ} {run : Run ν σ}

/-- The operand stack does not matter. -/
theorem setStack (performs : run.Performs errand) (stack : Array Int32) :
    (run.setStack stack).Performs errand :=
  ⟨performs.thread, performs.purpose, performs.reply, performs.answering⟩

/-- Going on with other frames. -/
theorem setFrames (performs : run.Performs errand) {frames : List (Frame ν)}
    (answering : Answering errand.functions frames) : (run.setFrames frames).Performs errand :=
  ⟨performs.thread, performs.purpose, performs.reply, answering⟩

/-- Recording where to continue. -/
theorem saveFrame (performs : run.Performs errand) (pc top : Nat) :
    (run.saveFrame pc top).Performs errand := by
  unfold Run.saveFrame
  cases frames : run.execution.frames with
  | nil => exact performs
  | cons frame outer =>
    have answering := performs.answering
    rw [frames] at answering
    exact performs.setFrames (answering.replace rfl rfl)

end Run.Performs

/-- Where to continue is recorded whatever the operand stack is. -/
theorem Run.saveFrame_setStack (run : Run ν σ) (stack : Array Int32) (pc top : Nat) :
    (run.setStack stack).saveFrame pc top = (run.saveFrame pc top).setStack stack := by
  unfold Run.saveFrame Run.setStack
  cases frames : run.execution.frames <;> simp [Run.setFrames, frames]

namespace Config

/-- Two machines that carry out the request in lockstep. The run is at hand in both; or it waits in
both, and everything above is the same; or both have stopped for the same misuse. -/
inductive Mirrors (errand : Errand ν σ) : Config ν σ → Config ν σ → Prop where
  | running {config : Config ν σ} {focus : Focus ν σ} (pending : config.pending = errand.rest)
    (mirrors : config.focus.Mirrors errand focus) : Mirrors errand config (config.goto focus)
  | above (config : Config ν σ) {work work' : Pending ν σ} (mirrors : work.Mirrors errand work') :
    Mirrors errand (config.onto (work :: errand.rest)) (config.onto (work' :: errand.rest))
  | faulted {first second : Config ν σ} {fault : Fault} (focus : first.focus = .faulted fault)
    (focus' : second.focus = .faulted fault) : Mirrors errand first second

/-- Both machines have carried out the request: they differ in what the thread has on its operand
stack, and in the value unless the run has completed. -/
inductive Answers (errand : Errand ν σ) (outcome : Outcome) : Config ν σ → Config ν σ → Prop where
  | returned {config : Config ν σ} {value value' : Int32} (stack : Array Int32)
    (pending : config.pending = errand.rest)
    (focus : config.focus = .body (errand.next (.returned outcome value)))
    (completes : outcome = .completed → value' = value) :
    Answers errand outcome config
      ((config.restack errand.thread stack).goto (.body (errand.next (.returned outcome value'))))

namespace Mirrors

variable {host : Host ν σ} {errand : Errand ν σ} {config : Config ν σ} {run : Run ν σ}
  {registers : Registers ν} {stack : Array Int32} {α β : Type}

/-- Both machines go on with the run. -/
theorem goto (pending : config.pending = errand.rest) {focus focus' : Focus ν σ}
    (mirrors : focus.Mirrors errand focus') :
    Mirrors errand (config.goto focus) (config.goto focus') :=
  @running _ _ errand (config.goto focus) focus' pending mirrors

/-- Both machines stop for a misuse. -/
theorem stop {first second : Config ν σ} (fault : Fault) :
    Mirrors errand (first.goto (.faulted fault)) (second.goto (.faulted fault)) :=
  .faulted rfl rfl

/-- Both machines go on with the same result. -/
theorem attempt_same {first second : Config ν σ} {result : Except Fault α}
    {next next' : α → Config ν σ}
    (goes : ∀ value, result = .ok value → Mirrors errand (next value) (next' value)) :
    Mirrors errand (first.attempt result next) (second.attempt result next') := by
  cases result with
  | error fault => exact stop fault
  | ok value => exact goes value rfl

/-- A run that is aborted. -/
theorem abortRun (pending : config.pending = errand.rest) (performs : run.Performs errand)
    (function : Function ν) (pc : Nat) (reason : AbortReason) :
    Mirrors errand (config.abortRun host run function pc reason)
      (config.abortRun host (run.setStack stack) function pc reason) :=
  @running _ _ errand (config.abortRun host run function pc reason) _ pending
    (.ended (performs.setFrames .done) fun completed => by cases completed)

/-- The run is stopped because its thread has been aborted in a native method. -/
theorem detach (pending : config.pending = errand.rest) (performs : run.Performs errand)
    (id : ThreadId) (function : Function ν) (pc : Nat) (reason : AbortReason) :
    Mirrors errand (config.detach host id (.stop run function pc reason))
      (config.detach host id (.stop (run.setStack stack) function pc reason)) := by
  refine attempt_same fun ⟨domain, hook⟩ _ => ?_
  dsimp only
  split
  · exact @abortRun _ _ host errand (config.setDomain domain) run stack pending performs _ _ _
  · exact @abortRun _ _ host errand { config with world :=
      { config.world with domain, sleepers := config.world.sleepers.remove id } } run stack pending
        performs _ _ _
  · rename_i reference _
    have waiting : Pending.Mirrors errand (.aborting (.stop run function pc reason))
      (.aborting (.stop (run.setStack stack) function pc reason)) := .stopping performs
    have waits := above { config.setDomain domain with
      focus := .body (host.onAbort reference id), pending := [] } waiting
    rw [← pending] at waits
    exact waits

/-- A frame that is entered or continued. -/
theorem enterFrame (pending : config.pending = errand.rest) (performs : run.Performs errand)
    (agree : Agree (filledHeight run.execution.frames) run.execution.stack stack) :
    Mirrors errand (config.enterFrame host run) (config.enterFrame host (run.setStack stack)) := by
  unfold Config.enterFrame
  have frames' : (run.setStack stack).execution.frames = run.execution.frames := rfl
  rw [frames']
  cases frames : run.execution.frames with
  | nil =>
    rw [frames] at agree
    exact goto pending (.ended performs fun _ => agree)
  | cons frame outer =>
    rw [frames] at agree
    dsimp only
    cases saved : frame.pc with
    | some pc =>
      simp only [filledHeight, saved] at agree
      exact goto pending (.execute performs agree)
    | none =>
      simp only [filledHeight, saved] at agree
      refine goto (by simp [pending]) ?_
      exact .execute (performs.setStack _) agree.prepareStack

/-- A frame that is left. -/
theorem leaveFrame (pending : config.pending = errand.rest) (performs : run.Performs errand)
    (at' : run.At registers) {pc : Nat} {result : ResultKind} {left left' : Array Int32}
    (reached : registers.function.Reaches pc)
    (listed : (pc, .ret result) ∈ registers.function.code.instructions.instructions)
    (agree : Agree (registers.base + result.count) left left') :
    Mirrors errand (config.leaveFrame host run registers.function left)
      (config.leaveFrame host (run.setStack stack) registers.function left') := by
  obtain ⟨frame, outer, frames, function, base⟩ := at'.innermost
  have answering := performs.answering
  rw [frames] at answering
  rw [← function] at reached listed
  rw [← base] at agree
  obtain ⟨below, filled⟩ := answering.leave reached listed agree
  have tail : run.execution.frames.tail = outer := by rw [frames, List.tail_cons]
  refine goto (by simp [pending]) ?_
  have left : ((run.setStack left).setFrames outer).Performs errand :=
    (performs.setStack _).setFrames below
  have tail' : (run.setStack stack).execution.frames.tail = outer := tail
  rw [tail, tail']
  exact @Focus.Mirrors.enter _ _ errand ((run.setStack _).setFrames outer) left' left filled

/-- A native method that is called: both machines call it with the same arguments. -/
theorem callNative (pending : config.pending = errand.rest) (performs : run.Performs errand)
    (at' : run.At registers) (at'' : (run.setStack stack).At registers)
    (agree : Agree registers.sp run.execution.stack stack) (next : Nat) (call : NativeCall)
    (within : call.base ≤ registers.sp) :
    Mirrors errand (config.callNative host run registers next call)
      (config.callNative host (run.setStack stack) registers next call) := by
  obtain ⟨_, height, room⟩ := at'.fits.bounds
  obtain ⟨_, _, room'⟩ := at''.fits.bounds
  have inside : registers.sp ≤ run.execution.stack.size := Nat.le_trans height room
  have inside' : registers.sp ≤ stack.size := Nat.le_trans height room'
  have arguments := agree.extract_eq call.base inside inside'
  unfold Config.callNative
  cases registers.function.method? call.method with
  | none => exact abortRun pending performs _ _ _
  | some method =>
    have below : (run.setStack stack).execution.stack = stack := rfl
    simp only [below, inside, inside', ↓reduceIte, ← arguments]
    generalize emitted : config.emit host _ = shown
    have pending : shown.pending = errand.rest := by rw [← emitted, emit_pending, pending]
    have waiting : Pending.Mirrors errand (.calling run (registers.move next
        (call.base + call.result.count)) call) (.calling (run.setStack stack)
          (registers.move next (call.base + call.result.count)) call) :=
      .calling performs (agree.mono within)
    have waits := above { shown with
      focus := .body (host.native method (run.execution.stack.extract call.base
        registers.sp).toList), pending := [] } waiting
    rw [← pending] at waits
    exact waits

/-- A script function that is called: its parameters are among the slots that the run has
written. -/
theorem callScript (pending : config.pending = errand.rest) (performs : run.Performs errand)
    (at' : run.At registers) (agree : Agree registers.sp run.execution.stack stack)
    (listed : ∀ function ∈ config.world.domain.functions, errand.functions function) (next : Nat)
    (result : ResultKind) (callee : FunctionId) (argc : Nat) (enough : argc ≤ registers.sp)
    (inside : registers.sp - argc + result.count ≤ run.execution.stack.size)
    (inside' : registers.sp - argc + result.count ≤ stack.size)
    (furnished : ∀ called, config.world.domain.function? callee = some called →
      called.params ≤ argc ∧ (result = .int → called.AnswersInt)) :
    Mirrors errand (config.callScript host run registers next result callee argc)
      (config.callScript host (run.setStack stack) registers next result callee argc) := by
  unfold Config.callScript
  cases found : config.world.domain.function? callee with
  | none => exact abortRun pending performs _ _ _
  | some called =>
    obtain ⟨passed, answers⟩ := furnished called found
    obtain ⟨frame, outer, frames, function, base⟩ := at'.innermost
    have answering := performs.answering
    rw [frames] at answering
    dsimp only
    rw [if_neg (Nat.not_lt.2 enough), if_neg (Nat.not_lt.2 enough), run.saveFrame_setStack]
    have saved : (run.saveFrame next (registers.sp - argc + result.count)).execution.frames =
        { frame with pc := some next, top := registers.sp - argc + result.count } :: outer := by
      simp only [Run.saveFrame, frames]
      rfl
    have same : (run.saveFrame next (registers.sp - argc + result.count)).execution.stack =
        run.execution.stack := by
      simp only [Run.saveFrame, frames]
      rfl
    replace performs := performs.saveFrame next (registers.sp - argc + result.count)
    have within : registers.sp - argc + min called.params called.locals ≤ registers.sp := by omega
    generalize run.saveFrame next (registers.sp - argc + result.count) = caller at *
    generalize registers.sp - argc = start at *
    change Mirrors errand (if _ ≤ caller.execution.frames.length then _ else _)
      (if _ ≤ caller.execution.frames.length then _ else _)
    split
    · obtain ⟨stored, done⟩ := storeResult_isOk 0 inside
      obtain ⟨stored', done'⟩ := storeResult_isOk 0 inside'
      have below : (caller.setStack stack).execution.stack = stack := rfl
      rw [same, below, done, done']
      exact @abortRun _ _ host errand config (caller.setStack stored) stored' pending
        (performs.setStack _) _ _ _
    · have entered : Answering errand.functions
          ({ function := called, base := start, top := start } :: caller.execution.frames) := by
        rw [saved]
        exact .called result (listed called (Array.mem_of_getElem? found)) rfl rfl answers
          (answering.replace rfl rfl)
      have filled : Agree (start + min called.params called.locals) caller.execution.stack
          stack := by
        rw [same]
        exact agree.mono within
      exact goto pending (@Focus.Mirrors.enter _ _ errand (caller.setFrames _) stack
        (performs.setFrames entered) filled)

/-- An instruction that is executed. -/
theorem execute (pending : config.pending = errand.rest) (performs : run.Performs errand)
    (at' : run.At registers) (at'' : (run.setStack stack).At registers)
    (agree : Agree registers.sp run.execution.stack stack)
    (covers : errand.Covers config.world.domain.functions)
    (reached : registers.function.Reaches registers.pc) :
    Mirrors errand (config.execute host run registers)
      (config.execute host (run.setStack stack) registers) := by
  obtain ⟨instruction, ready⟩ := at'.fits.ready
  obtain ⟨same, ready'⟩ := at''.fits.ready
  obtain ⟨frame, outer, frames, function, _⟩ := at'.innermost
  have executed : errand.functions registers.function := by
    have answering := performs.answering
    rw [frames] at answering
    exact function ▸ answering.listed
  have decoded := ready.decode
  obtain ⟨rfl, _⟩ : same = instruction ∧ _ := by simpa using ready'.decode.symm.trans decoded
  have slots := ready.slots at'.fits
  have slots' := ready'.slots at''.fits
  unfold Config.execute
  dsimp only
  rw [decoded]
  dsimp only
  have thread : (run.setStack stack).thread = run.thread := rfl
  rw [thread]
  generalize emitted : config.emit host _ = shown
  replace pending : shown.pending = errand.rest := by rw [← emitted, emit_pending, pending]
  replace covers : errand.Covers shown.world.domain.functions := by
    rw [← emitted, emit_world]
    exact covers
  refine attempt_same fun thread _ => ?_
  have tallies := Instruction.effect_tallies
    ⟨shown.world.domain.globals, shown.world.domain.specials, thread.variables⟩ agree
    slots slots' ready.inRange ready.enough
  have below : (run.setStack stack).execution.stack = stack := rfl
  rw [below]
  generalize Instruction.effect _ _ run.execution.stack _ same = effect at tallies ⊢
  generalize Instruction.effect _ _ stack _ same = effect' at tallies ⊢
  cases tallies with
  | advance agree => exact goto pending (.execute (performs.setStack _) agree)
  | writeGlobal index value within =>
    refine goto ?_ ?_
    · exact pending
    · exact .execute performs (agree.mono within)
  | jump delta within =>
    dsimp only
    cases branchTarget? (registers.pc + same.length) delta with
    | none => exact abortRun pending performs _ _ _
    | some target => exact goto pending (.execute performs (agree.mono within))
  | spend =>
    have budget : (run.setStack stack).budget = run.budget := rfl
    dsimp only
    rw [budget]
    split
    · exact abortRun pending performs _ _ _
    · have spent : Run.Performs errand { run with budget := run.budget - 1 } :=
        ⟨performs.thread, performs.purpose, performs.reply, performs.answering⟩
      exact goto pending (.execute spent agree)
  | native kind result method within =>
    exact callNative pending performs at' at'' agree _ _ within
  | @script result argc callee calls =>
    subst calls
    have enough := ready.enough
    simp only [Instruction.stackEffect] at enough
    obtain ⟨_, _, room⟩ := at'.fits.bounds
    obtain ⟨_, _, room'⟩ := at''.fits.bounds
    exact callScript pending performs at' agree covers.listed _ result ⟨callee.toNat⟩ argc.toNat
      (by omega) (Nat.le_trans ready.room room) (Nat.le_trans ready.room room')
      (covers.furnished _ executed _ _ _ _ reached ready.listed)
  | ret returns agree =>
    subst returns
    exact leaveFrame pending performs at' reached ready.listed agree
  | invalid => exact abortRun pending performs _ _ _

/-- A native method that answers: both machines store the same result. -/
theorem returnNative (pending : config.pending = errand.rest) (performs : run.Performs errand)
    (at' : run.At registers) (at'' : (run.setStack stack).At registers) {call : NativeCall}
    (height : registers.sp = call.base + call.result.count)
    (agree : Agree call.base run.execution.stack stack) (value : Int32) :
    Mirrors errand (config.returnNative host run registers call value)
      (config.returnNative host (run.setStack stack) registers call value) := by
  obtain ⟨_, top, room⟩ := at'.fits.bounds
  obtain ⟨_, _, room'⟩ := at''.fits.bounds
  have inside : call.base + call.result.count ≤ run.execution.stack.size := by omega
  have inside' : call.base + call.result.count ≤ stack.size :=
    Nat.le_trans (Nat.le_trans (Nat.le_of_eq height.symm) top) room'
  obtain ⟨stored, done⟩ := storeResult_isOk value inside
  obtain ⟨stored', done'⟩ := storeResult_isOk value inside'
  replace agree := agree.storeResult done done'
  rw [← height] at agree
  unfold Config.returnNative
  dsimp only
  generalize emitted : config.emit host _ = shown
  replace pending : shown.pending = errand.rest := by rw [← emitted, emit_pending, pending]
  have below : (run.setStack stack).execution.stack = stack := rfl
  rw [below, done, done', attempt_ok, attempt_ok]
  replace performs := performs.setStack stored
  refine attempt_same fun thread _ => ?_
  split
  · refine @detach _ _ host errand (shown.setDomain _) (run.setStack stored) stored' ?_ performs
      _ _ _ _
    exact pending
  · split
    · have saved := performs.saveFrame registers.pc registers.sp
      rw [Run.saveFrame_setStack] at saved ⊢
      rw [Run.saveFrame_setStack, Run.saveFrame_setStack]
      have ends : Focus.Mirrors errand (.ended _ .suspended) (.ended _ .suspended) :=
        @Focus.Mirrors.ended _ _ errand _ _ stored' saved fun completed => by cases completed
      exact goto ((emit_pending _ _ _).trans pending) ends
    · exact goto pending (@Focus.Mirrors.execute _ _ errand _ _ stored' performs agree)

end Mirrors

variable {host : Host ν σ} {errand : Errand ν σ} {first second : Config ν σ}

/-- A run that ends is answered in both machines, unless both stop. -/
theorem finishRun_mirrors {config : Config ν σ} {run : Run ν σ} {stack : Array Int32}
    {outcome : Outcome} (pending : config.pending = errand.rest) (performs : run.Performs errand)
    (agree : outcome = .completed → Agree 1 run.execution.stack stack) :
    Mirrors errand (config.finishRun host run outcome)
        (config.finishRun host (run.setStack stack) outcome) ∨
      Answers errand outcome (config.finishRun host run outcome)
        (config.finishRun host (run.setStack stack) outcome) := by
  obtain ⟨id, previous, execution, budget, purpose, reply⟩ := run
  obtain ⟨rfl, rfl, rfl, _⟩ := performs
  cases looked : config.world.domain.thread errand.thread with
  | error fault =>
    left
    simp only [Config.finishRun, Run.setStack, looked]
    exact .stop fault
  | ok thread =>
    right
    have present := Domain.thread_eq_ok.1 looked
    simp only [Config.finishRun, Run.setStack, looked, attempt_ok]
    let given : Config ν σ := config.setDomain { config.world.domain.setThread errand.thread
      { thread with execution := some execution, pendingAbort := none } with active := previous }
    have same : config.setDomain { config.world.domain.setThread errand.thread { thread with
        execution := some { execution with stack }, pendingAbort := none } with
          active := previous } = given.restack errand.thread stack := by
      have there : given.world.domain.thread? errand.thread =
          some { thread with execution := some execution, pendingAbort := none } := by
        have after := Domain.thread?_setThread present { thread with
          execution := some execution, pendingAbort := none } errand.thread
        rw [if_pos rfl] at after
        exact after
      simp only [restack, Domain.restack_eq there]
      simp [given, setDomain, Domain.setThread, Thread.restack]
    have below : (given.emit host (.runEnd errand.thread outcome)).pending = errand.rest :=
      (emit_pending _ _ _).trans pending
    rw [same, emit_restack]
    refine @Answers.returned _ _ errand outcome ((given.emit host _).goto _) _ _ stack below rfl ?_
    intro completed
    rw [agree completed 0 Nat.one_pos]

/-! ## Both machines -/

/-- A step of both machines keeps them in lockstep, unless it answers the request in both. -/
theorem Mirrors.step (mirrors : Mirrors errand first second) (sound : first.Sound)
    (sound' : second.Lives → second.Sound)
    (placed : first.Placed Request.RegistersVerified)
    (covers : errand.Covers first.world.domain.functions) :
    Mirrors errand (first.step host) (second.step host) ∨
      ∃ outcome, Answers errand outcome (first.step host) (second.step host) := by
  cases mirrors with
  | @running config focus pending mirrors =>
    have fits := sound.focus
    have fits' (lives : (first.goto focus).Lives) := (sound' lives).focus
    have places := placed.focus
    generalize found : first.focus = work at mirrors fits places
    cases mirrors with
    | enter performs agree =>
      left
      simp only [Config.step, found, goto_focus, enterFrame_goto]
      exact .enterFrame pending performs agree
    | execute performs agree =>
      left
      simp only [Config.step, found, goto_focus, execute_goto]
      exact .execute pending performs fits.2 (fits' (by simp [Lives])).2 agree
        covers places.2
    | @ended run outcome stack performs agree =>
      simp only [Config.step, found, goto_focus, finishRun_goto]
      exact (finishRun_mirrors pending performs agree).imp_right fun answers => ⟨outcome, answers⟩
  | @above config work work' mirrors =>
    left
    by_cases ends : config.pending = [] ∧ ∃ value, config.focus = .body (.done value)
    · obtain ⟨nothing, value, ended⟩ := ends
      have done (rest : List (Pending ν σ)) : (config.onto rest).focus = .body (.done value) :=
        ended
      have waiting (work : Pending ν σ) :
          (config.onto (work :: errand.rest)).pending = work :: errand.rest := by
        rw [onto_pending, nothing, List.nil_append]
      have fits := sound.pending work (by rw [waiting]; exact List.mem_cons_self)
      have fits' := (sound' (by simp [Lives, ended])).pending work'
        (by rw [waiting]; exact List.mem_cons_self)
      cases mirrors with
      | @calling run registers call stack performs agree =>
        rw [step_of_calling (done _) (waiting _), step_of_calling (done _) (waiting _)]
        exact @Mirrors.returnNative _ _ host errand { config with pending := errand.rest } _ _ _
          rfl performs fits.2.1 fits'.2.1 _ fits.2.2 agree value
      | @stopping run function pc reason stack performs =>
        rw [step_of_aborting (done _) (waiting _), step_of_aborting (done _) (waiting _)]
        exact @Mirrors.abortRun _ _ host errand { config with pending := errand.rest } _ _ rfl
          performs function pc reason
    · have above (rest : List (Pending ν σ)) :
          (config.onto rest).step host = (config.step host).onto rest :=
        step_onto host config rest fun nothing value ended => ends ⟨nothing, value, ended⟩
      rw [above, above]
      exact .above _ mirrors
  | @faulted first second fault focus focus' =>
    left
    simp only [Config.step, focus, focus']
    exact .faulted focus focus'

end Config

end ScriptMachine

import ScriptMachine.Proofs.Asking
import ScriptMachine.Proofs.Handovers
import ScriptMachine.Proofs.Sinks
import ScriptMachine.Proofs.Stopping

/-!
# Tracing

A trace sink records what it is shown, in a part of the host state that no callback sees. Then the
machine does with every sink what it does without one: the threads, the answers and the callbacks
are the same, and so is the order of what happens. What a step reports to a sink for all kinds
follows from the configuration, and every other sink is shown the events of its own kinds among
these, in the same order.
-/

namespace ScriptMachine

variable {ν σ τ α : Type}

/-! ## A record beside the state of the host -/

/-- The program over a host state with another part, which it neither sees nor changes. -/
def Program.beside : Program ν σ α → Program ν (σ × τ) α
  | .done result => .done result
  | .ask request next => .ask request fun answer => (next answer).beside
  | .modify change next =>
    .modify (fun state => (change state.1, state.2)) fun state => (next state.1).beside
  | .crash fault => .crash fault

/-- The host whose trace sinks record every event that they are shown. The other callbacks do not
see the record. -/
def Host.recording (host : Host ν σ) : Host ν (σ × List (Event ν)) where
  native method arguments := (host.native method arguments).beside
  onAbort hook id := (host.onAbort hook id).beside
  onLimit handler name state := (host.onLimit handler name state.1, state.2)
  onEvent _ event state := (state.1, state.2 ++ [event])

/-- The host whose trace sinks do nothing. -/
def Host.silent (host : Host ν σ) : Host ν σ := { host with onEvent := fun _ _ state => state }

/-- The run that another body has started. -/
def Run.beside (run : Run ν σ) : Run ν (σ × τ) where
  thread := run.thread
  previous := run.previous
  execution := run.execution
  budget := run.budget
  purpose := run.purpose
  reply answer := (run.reply answer).beside

/-- What follows an abort, for another host state. -/
def AfterAbort.beside : AfterAbort ν σ → AfterAbort ν (σ × τ)
  | .reply next => .reply fun answer => (next answer).beside
  | .start thread function launch next =>
    .start thread function launch fun answer => (next answer).beside
  | .stop run function pc reason => .stop run.beside function pc reason

/-- Work that waits, for another host state. -/
def Pending.beside : Pending ν σ → Pending ν (σ × τ)
  | .calling run registers call => .calling run.beside registers call
  | .aborting next => .aborting next.beside

/-- The work at hand, for another host state. -/
def Focus.beside : Focus ν σ → Focus ν (σ × τ)
  | .body work => .body work.beside
  | .enter run => .enter run.beside
  | .execute run registers => .execute run.beside registers
  | .ended run outcome => .ended run.beside outcome
  | .finished value => .finished value
  | .faulted fault => .faulted fault

/-- Every event is of one of the five kinds. -/
theorem Mask.has_full (kind : EventKind) : Mask.full.has kind = true := by
  cases kind <;> rfl

/-- What a sink is shown of some events. -/
def Sink.shown (sink : Option (Sink ν)) (events : List (Event ν)) : List (Event ν) :=
  events.filter fun event => sink.any (·.mask.has event.kind)

/-! ## What a step reports -/

/-- The start of a run that is to be entered. -/
def Run.starting (run : Run ν σ) : List (Event ν) :=
  match run.execution.frames with
  | [] => []
  | frame :: outer => [.runStart run.thread frame.function (outer.length + 1)]

/-- The innermost frame of a run is entered, unless it is continued. -/
def Run.opening (run : Run ν σ) : List (Event ν) :=
  match run.execution.frames with
  | [] => []
  | frame :: _ =>
    match frame.pc with
    | some _ => []
    | none => [.scopeEnter .frame frame.function 0]

/-- The scope that an instruction with this effect opens or closes. -/
def Effect.scopes (function : Function ν) (pc : Nat) : Effect → List (Event ν)
  | .native kind _ method _ =>
    match function.method? method with
    | none => []
    | some _ => [.scopeEnter (.native kind method) function pc]
  | .ret _ => [.scopeExit .frame function 0]
  | _ => []

/-- What is reported when the machine turns to this work after a request or a callback: that a run
starts, or this suspension. -/
def Focus.arrival (suspension : List (Event ν)) : Focus ν σ → List (Event ν)
  | .enter run => run.starting
  | .ended _ .suspended => suspension
  | _ => []

namespace Config

/-- What is reported of an instruction that a run executes. -/
def instructionReports (config : Config ν σ) (run : Run ν σ) (registers : Registers ν) :
    List (Event ν) :=
  let function := registers.function
  match Instruction.decode function.code registers.pc with
  | .error _ => []
  | .ok (instruction, next) =>
    .instruction run.thread function registers.pc next instruction.opcode ::
      match config.world.domain.thread run.thread with
      | .error _ => []
      | .ok thread =>
        let reach : Variables :=
          ⟨config.world.domain.globals, config.world.domain.specials, thread.variables⟩
        (instruction.effect reach registers.base run.execution.stack registers.sp).scopes function
          registers.pc

/-- What a step reports to a trace sink for all kinds of events. -/
def reports (host : Host ν σ) (config : Config ν σ) : List (Event ν) :=
  match config.focus with
  | .enter run => run.opening
  | .execute run registers => config.instructionReports run registers
  | .ended run outcome =>
    match config.world.domain.thread run.thread with
    | .error _ => []
    | .ok _ => [.runEnd run.thread outcome]
  | .body (.done _) =>
    match config.pending with
    | .calling run registers call :: _ =>
      .scopeExit (.native call.kind call.method) registers.function call.pc ::
        (config.step host).focus.arrival [.suspend run.thread registers.function call.pc]
    | _ => (config.step host).focus.arrival []
  | _ => (config.step host).focus.arrival []

/-- What is reported in this many steps. -/
def trace (host : Host ν σ) (config : Config ν σ) : Nat → List (Event ν)
  | 0 => []
  | steps + 1 => config.trace host steps ++ (config.run host steps).reports host

end Config

/-! ## The same machine with a sink -/

@[simp] theorem Run.setStack_beside (run : Run ν σ) (stack : Array Int32) :
    (run.beside : Run ν (σ × τ)).setStack stack = (run.setStack stack).beside := rfl

@[simp] theorem Run.setFrames_beside (run : Run ν σ) (frames : List (Frame ν)) :
    (run.beside : Run ν (σ × τ)).setFrames frames = (run.setFrames frames).beside := rfl

@[simp] theorem Run.saveFrame_beside (run : Run ν σ) (pc top : Nat) :
    (run.beside : Run ν (σ × τ)).saveFrame pc top = (run.saveFrame pc top).beside := by
  unfold saveFrame
  cases frames : run.execution.frames <;> simp [beside, frames, setFrames]

@[simp] theorem Run.execution_beside (run : Run ν σ) :
    (run.beside : Run ν (σ × τ)).execution = run.execution := rfl

@[simp] theorem Run.budget_beside (run : Run ν σ) :
    (run.beside : Run ν (σ × τ)).budget = run.budget := rfl

@[simp] theorem Run.thread_beside (run : Run ν σ) :
    (run.beside : Run ν (σ × τ)).thread = run.thread := rfl

namespace Config

/-- The configuration with another trace sink, which has been shown some events so far. -/
def recorded (sink : Option (Sink ν)) (events : List (Event ν)) (config : Config ν σ) :
    Config ν (σ × List (Event ν)) where
  world := config.world.withSink sink
  state := (config.state, Sink.shown sink events)
  focus := config.focus.beside
  pending := config.pending.map Pending.beside

/-- Whatever the sink is, a configuration goes on like another one, and it has been shown these
events. -/
def Echoes (next : Config ν σ) (events : List (Event ν))
    (watched : Option (Sink ν) → Config ν (σ × List (Event ν))) : Prop :=
  ∀ sink, watched sink = next.recorded sink events

variable {host : Host ν σ} {config next : Config ν σ} {events suspension : List (Event ν)}
  {watched : Option (Sink ν) → Config ν (σ × List (Event ν))}

@[simp] theorem recorded_world (sink : Option (Sink ν)) :
    (config.recorded sink events).world = config.world.withSink sink := rfl

@[simp] theorem recorded_focus (sink : Option (Sink ν)) :
    (config.recorded sink events).focus = config.focus.beside := rfl

@[simp] theorem recorded_pending (sink : Option (Sink ν)) :
    (config.recorded sink events).pending = config.pending.map Pending.beside := rfl

@[simp] theorem recorded_setDomain (sink : Option (Sink ν)) (domain : Domain ν) :
    (config.recorded sink events).setDomain (domain.withSink sink) =
      (config.setDomain domain).recorded sink events := rfl

/-- An event that nobody notes changes nothing. -/
@[simp] theorem emit_silent (event : Event ν) : config.emit host.silent event = config := by
  unfold emit
  split
  · split <;> rfl
  · rfl

/-- A sink records an event of its kinds. -/
theorem emit_recorded (sink : Option (Sink ν)) (event : Event ν) :
    (config.recorded sink events).emit host.recording event =
      config.recorded sink (events ++ [event]) := by
  simp only [emit, recorded, World.withSink, Domain.withSink, Sink.shown, List.filter_append,
    List.filter_singleton]
  cases sink with
  | none => simp
  | some sink =>
    dsimp only [Option.any_some]
    split <;> simp_all [Host.recording]

/-- Handing over a result. -/
theorem handResult_withSink (sink : Option (Sink ν)) (domain : Domain ν) (id : ThreadId)
    (value : Option Int32) :
    handResult (domain.withSink sink) id value =
      (handResult domain id value).map (·.map (Domain.withSink sink)) := by
  cases value with
  | none => rfl
  | some value =>
    simp only [handResult, Domain.supplyResult_withSink]
    cases domain.supplyResult id value with
    | error fault => rfl
    | ok result =>
      cases result with
      | error error => cases error <;> rfl
      | ok next => rfl

/-- Going on with the result of a computation whose value is converted. -/
theorem attempt_map {β : Type} (result : Except Fault α) (convert : α → β)
    (goes : β → Config ν σ) :
    config.attempt (result.map convert) goes =
      config.attempt result fun value => goes (convert value) := by
  cases result <;> rfl

namespace Echoes

/-- Going on with other work. -/
theorem goto (focus : Focus ν σ) :
    Echoes (config.goto focus) events fun sink =>
      (config.recorded sink events).goto focus.beside := fun _ => rfl

/-- Nothing is reported. -/
theorem quiet (echoes : Echoes next events watched) : Echoes next (events ++ []) watched := by
  rw [List.append_nil]
  exact echoes

/-- Going on with a body. -/
theorem body (work : Body ν σ) :
    Echoes (config.goto (.body work)) (events ++ (Focus.body work).arrival suspension) fun sink =>
      (config.recorded sink events).goto (.body work.beside) :=
  quiet (goto _)

/-- Going on with a result, of which nothing is reported. -/
theorem attempt {result : Except Fault α} {goes : α → Config ν σ}
    {goes' : Option (Sink ν) → α → Config ν (σ × List (Event ν))}
    (echoes : ∀ value, Echoes (goes value) events fun sink => goes' sink value) :
    Echoes (config.attempt result goes) events fun sink =>
      (config.recorded sink events).attempt result (goes' sink) := by
  cases result with
  | error fault => exact goto (.faulted fault)
  | ok value => exact echoes value

/-- Going on with a result, of which is reported what the work says. -/
theorem reach {result : Except Fault α} {goes : α → Config ν σ}
    {goes' : Option (Sink ν) → α → Config ν (σ × List (Event ν))}
    (echoes : ∀ value, Echoes (goes value) (events ++ (goes value).focus.arrival suspension)
      fun sink => goes' sink value) :
    Echoes (config.attempt result goes)
      (events ++ (config.attempt result goes).focus.arrival suspension) fun sink =>
      (config.recorded sink events).attempt result (goes' sink) := by
  cases result with
  | error fault => exact quiet (goto _)
  | ok value => exact echoes value

/-- An event is reported in some domain, and the machine goes on with other work. -/
theorem emit {event : Event ν} {domain : Domain ν} {focus : Focus ν σ}
    {domain' : Option (Sink ν) → Domain ν} (same : ∀ sink, domain' sink = domain.withSink sink) :
    Echoes (((config.setDomain domain).emit host.silent event).goto focus) (events ++ [event])
      fun sink => (((config.recorded sink events).setDomain (domain' sink)).emit host.recording
        event).goto focus.beside := by
  simp only [same, emit_silent, recorded_setDomain, emit_recorded]
  exact goto focus

/-- Starting a run. -/
theorem launch (config : Config ν σ) (id : ThreadId) (purpose : Purpose)
    (reply : Answer ν → Body ν σ) :
    Echoes (config.launch host.silent id purpose reply)
      (events ++ (config.launch host.silent id purpose reply).focus.arrival suspension) fun sink =>
      (config.recorded sink events).launch host.recording id purpose
        fun answer => (reply answer).beside := by
  refine reach fun thread => ?_
  cases thread.execution with
  | none => exact body _
  | some execution =>
    obtain ⟨frames, stack⟩ := execution
    cases frames with
    | nil => exact quiet fun _ => rfl
    | cons frame outer => exact emit fun _ => rfl

/-- Ending a run. -/
theorem finishRun (config : Config ν σ) (run : Run ν σ) (outcome : Outcome) :
    Echoes (config.finishRun host.silent run outcome)
      (events ++ match config.world.domain.thread run.thread with
        | .error _ => []
        | .ok _ => [.runEnd run.thread outcome]) fun sink =>
      (config.recorded sink events).finishRun host.recording run.beside outcome := by
  unfold Config.finishRun
  simp only [recorded_world, World.domain_withSink, Domain.thread_withSink, Run.thread_beside]
  cases config.world.domain.thread run.thread with
  | error fault =>
    exact quiet (goto (.faulted fault))
  | ok thread => exact emit fun _ => rfl

/-- Aborting a run. -/
theorem abortRun (config : Config ν σ) (run : Run ν σ) (function : Function ν) (pc : Nat)
    (reason : AbortReason) :
    Echoes (config.abortRun host.silent run function pc reason) events fun sink =>
      (config.recorded sink events).abortRun host.recording run.beside function pc reason := by
  intro sink
  simp only [Config.abortRun, recorded_world, World.domain_withSink, Domain.limitHandler_withSink]
  cases config.world.domain.limitHandler with
  | none => rfl
  | some handler =>
    dsimp only
    split <;> rfl

/-- What follows an abort. -/
theorem afterAbort (config : Config ν σ) (next : AfterAbort ν σ) :
    Echoes (config.afterAbort host.silent next)
      (events ++ (config.afterAbort host.silent next).focus.arrival suspension) fun sink =>
      (config.recorded sink events).afterAbort host.recording next.beside := by
  cases next with
  | reply next => exact body (next .done)
  | stop run function pc reason =>
    exact quiet (abortRun config run function pc reason)
  | start id function purpose next =>
    refine reach fun thread => ?_
    cases thread.execution with
    | none => exact body _
    | some execution =>
      cases purpose with
      | none => exact @body _ _ (config.setDomain _) events suspension _
      | some purpose => exact launch (config.setDomain _) id purpose next

/-- Detaching a thread. -/
theorem detach (config : Config ν σ) (id : ThreadId) (next : AfterAbort ν σ) :
    Echoes (config.detach host.silent id next)
      (events ++ (config.detach host.silent id next).focus.arrival suspension) fun sink =>
      (config.recorded sink events).detach host.recording id next.beside := by
  simp only [Config.detach, recorded_world, World.domain_withSink, Domain.detach_withSink,
    attempt_map]
  refine reach fun ⟨domain, hook⟩ => ?_
  match hook with
  | none => exact afterAbort (config.setDomain domain) next
  | some .leaveSleep =>
    exact afterAbort { config with world := { config.world with
      domain, sleepers := config.world.sleepers.remove id } } next
  | some (.custom reference) =>
    exact quiet fun _ => rfl

/-- Aborting a thread. -/
theorem abort (config : Config ν σ) (id : ThreadId) (reason : AbortReason)
    (next : AfterAbort ν σ) :
    Echoes (config.abort host.silent id reason next)
      (events ++ (config.abort host.silent id reason next).focus.arrival suspension) fun sink =>
      (config.recorded sink events).abort host.recording id reason next.beside := by
  simp only [Config.abort, recorded_world, World.domain_withSink, Domain.discard_withSink,
    attempt_map]
  exact reach fun domain => detach (config.setDomain domain) id next

/-- Giving a thread a fresh frame. -/
theorem start (config : Config ν σ) (id : ThreadId) (called : FunctionId)
    (purpose : Option Purpose) (next : Answer ν → Body ν σ) :
    Echoes (config.start host.silent id called purpose next)
      (events ++ (config.start host.silent id called purpose next).focus.arrival suspension)
      fun sink => (config.recorded sink events).start host.recording id called purpose
        fun answer => (next answer).beside := by
  simp only [Config.start, recorded_world, World.domain_withSink, Domain.function?_withSink]
  cases config.world.domain.function? called with
  | none => exact body _
  | some function =>
    refine reach fun thread => ?_
    cases thread.execution with
    | none => exact body _
    | some execution =>
      dsimp only
      split
      · exact abort config id .requested (.start id function purpose next)
      · exact afterAbort config (.start id function purpose next)

/-- Letting a thread go on. -/
theorem continueThread (config : Config ν σ) (id : ThreadId) (purpose : Purpose)
    (next : Answer ν → Body ν σ) :
    Echoes (config.continueThread host.silent id purpose next)
      (events ++ (config.continueThread host.silent id purpose next).focus.arrival suspension)
      fun sink => (config.recorded sink events).continueThread host.recording id purpose
        fun answer => (next answer).beside := by
  refine reach fun thread => ?_
  dsimp only
  split
  · exact @body _ _ (config.setDomain _) events suspension _
  · exact launch (config.setDomain _) id purpose next

/-- Resuming a thread. -/
theorem resume (config : Config ν σ) (id : ThreadId) (next : Answer ν → Body ν σ) :
    Echoes (config.resume host.silent id next)
      (events ++ (config.resume host.silent id next).focus.arrival suspension) fun sink =>
      (config.recorded sink events).resume host.recording id
        fun answer => (next answer).beside := by
  refine reach fun thread => ?_
  dsimp only
  split
  · exact body _
  · split
    · exact body _
    · split
      · exact body _
      · exact continueThread config id .plain next

/-- Waking a thread. -/
theorem wake (config : Config ν σ) (queue : QueueId) (value : Option Int32)
    (next : Answer ν → Body ν σ) :
    Echoes (config.wake host.silent queue value next)
      (events ++ (config.wake host.silent queue value next).focus.arrival suspension) fun sink =>
      (config.recorded sink events).wake host.recording queue value
        fun answer => (next answer).beside := by
  refine reach fun first => ?_
  cases first with
  | none => exact body _
  | some head =>
    refine reach fun thread => ?_
    split
    · exact body _
    · simp only [recorded_world, World.domain_withSink, Domain.popWaiter_withSink, attempt_map]
      refine reach fun ⟨domain, popped⟩ => ?_
      simp only [handResult_withSink, attempt_map, recorded_setDomain]
      refine @reach _ _ _ (config.setDomain domain) _ _ _ _ _ fun result => ?_
      cases result with
      | error error => exact body _
      | ok supplied => exact continueThread (config.setDomain supplied) head .woken next

/-- Carrying out a request. -/
theorem perform (config : Config ν σ) {request : Request ν} (keeps : request.KeepsSink)
    (next : Answer ν → Body ν σ) :
    Echoes (config.perform host.silent request next)
      (events ++ (config.perform host.silent request next).focus.arrival suspension) fun sink =>
      (config.recorded sink events).perform host.recording request
        fun answer => (next answer).beside := by
  cases request with
  | observe => exact body _
  | update update =>
    simp only [Config.perform, recorded_world, Update.apply_withSink keeps, attempt_map]
    exact reach fun changed => quiet fun _ => rfl
  | start id function => exact start config id function none next
  | run id function => exact start config id function (some .plain) next
  | runInt id function => exact start config id function (some .result) next
  | resume id => exact resume config id next
  | abort id => exact abort config id .requested (.reply next)
  | wake queue value => exact wake config queue value next
  | faultActive error =>
    simp only [Config.perform, recorded_world, World.domain_withSink, Domain.active_withSink]
    cases config.world.domain.active with
    | none => exact body _
    | some id => exact abort config id (.badArgument error) (.reply next)

/-- Entering a frame. -/
theorem enterFrame (config : Config ν σ) (run : Run ν σ) :
    Echoes (config.enterFrame host.silent run) (events ++ run.opening) fun sink =>
      (config.recorded sink events).enterFrame host.recording run.beside := by
  simp only [Config.enterFrame, Run.execution_beside, emit_silent, emit_recorded, Run.opening]
  cases run.execution.frames with
  | nil =>
    exact quiet (goto (.ended run .completed))
  | cons frame outer =>
    dsimp only
    cases frame.pc with
    | some pc =>
      exact quiet (goto (.execute run _))
    | none => exact goto (.execute (run.setStack _) _)

/-- Leaving a frame. -/
theorem leaveFrame (config : Config ν σ) (run : Run ν σ) (function : Function ν)
    (stack : Array Int32) :
    Echoes (config.leaveFrame host.silent run function stack)
      (events ++ [.scopeExit .frame function 0]) fun sink =>
      (config.recorded sink events).leaveFrame host.recording run.beside function stack := by
  simp only [Config.leaveFrame, emit_silent, emit_recorded]
  exact goto (.enter _)

/-- Calling a native method. -/
theorem callNative (config : Config ν σ) (run : Run ν σ) (registers : Registers ν) (pc : Nat)
    (call : NativeCall) :
    Echoes (config.callNative host.silent run registers pc call)
      (events ++ match registers.function.method? call.method with
        | none => []
        | some _ => [.scopeEnter (.native call.kind call.method) registers.function call.pc])
      fun sink =>
      (config.recorded sink events).callNative host.recording run.beside registers pc call := by
  simp only [Config.callNative, Run.execution_beside, emit_silent, emit_recorded]
  cases registers.function.method? call.method with
  | none =>
    exact quiet (abortRun config run registers.function call.pc .invalidBytecode)
  | some method =>
    dsimp only
    split
    · exact fun _ => rfl
    · exact goto (.faulted .stackBounds)

/-- Going on after a native method. -/
theorem returnNative (config : Config ν σ) (run : Run ν σ) (registers : Registers ν)
    (call : NativeCall) (value : Int32) :
    Echoes (config.returnNative host.silent run registers call value)
      (events ++ .scopeExit (.native call.kind call.method) registers.function call.pc ::
        (config.returnNative host.silent run registers call value).focus.arrival
          [.suspend run.thread registers.function call.pc]) fun sink =>
        (config.recorded sink events).returnNative host.recording run.beside registers call
          value := by
  simp only [Config.returnNative, Run.execution_beside, emit_silent, emit_recorded]
  rw [List.append_cons]
  refine reach fun stack => reach fun thread => ?_
  cases thread.pendingAbort with
  | some reason =>
    exact detach (config.setDomain _) run.thread
      (.stop (run.setStack stack) registers.function call.pc reason)
  | none =>
    dsimp only
    split
    · rw [Run.setStack_beside]
      simp only [Run.saveFrame_beside, Run.thread_beside, Run.thread_saveFrame]
      exact goto (.ended _ .suspended)
    · exact quiet (goto _)

/-- Calling a script function. -/
theorem callScript (config : Config ν σ) (run : Run ν σ) (registers : Registers ν) (pc : Nat)
    (result : ResultKind) (callee : FunctionId) (argc : Nat) :
    Echoes (config.callScript host.silent run registers pc result callee argc) events fun sink =>
      (config.recorded sink events).callScript host.recording run.beside registers pc result callee
        argc := by
  simp only [Config.callScript, recorded_world, World.domain_withSink, Domain.function?_withSink,
    Domain.limits_withSink, Run.saveFrame_beside, Run.execution_beside]
  cases config.world.domain.function? callee with
  | none => exact abortRun config run registers.function registers.pc .invalidBytecode
  | some function =>
    dsimp only
    split
    · exact goto (.faulted .stackBounds)
    · split
      · exact attempt fun stack =>
          abortRun config (Run.setStack _ stack) registers.function registers.pc .callDepth
      · exact goto (.enter (Run.setFrames _ _))

/-- Executing an instruction. -/
theorem execute (config : Config ν σ) (run : Run ν σ) (registers : Registers ν) :
    Echoes (config.execute host.silent run registers)
      (events ++ config.instructionReports run registers) fun sink =>
      (config.recorded sink events).execute host.recording run.beside registers := by
  simp only [Config.execute, Config.instructionReports, emit_silent, emit_recorded]
  cases Instruction.decode registers.function.code registers.pc with
  | error error =>
    exact quiet (abortRun config run registers.function registers.pc .invalidBytecode)
  | ok found =>
    obtain ⟨instruction, following⟩ := found
    dsimp only
    rw [List.append_cons]
    simp only [recorded_world, World.domain_withSink, Domain.globals_withSink,
      Domain.specials_withSink, Domain.thread_withSink, Run.execution_beside, Run.thread_beside]
    cases config.world.domain.thread run.thread with
    | error fault =>
      exact quiet (goto (.faulted fault))
    | ok thread =>
      simp only [attempt_ok]
      generalize Instruction.effect _ _ _ _ instruction = effect
      cases effect with
      | native kind result method base => exact callNative config run registers following _
      | ret stack => exact leaveFrame config run registers.function stack
      | advance stack sp => exact quiet (goto (.execute (run.setStack stack) _))
      | writeGlobal index value sp => exact quiet fun _ => rfl
      | jump delta sp =>
        refine quiet ?_
        dsimp only
        cases branchTarget? following delta with
        | none => exact abortRun config run registers.function registers.pc .invalidBytecode
        | some pc => exact goto (.execute run _)
      | spend =>
        refine quiet ?_
        dsimp only
        rw [Run.budget_beside]
        split
        · exact abortRun config run registers.function registers.pc .loopLimit
        · exact goto (.execute { run with budget := run.budget - 1 } _)
      | script result callee argc =>
        exact quiet (callScript config run registers following result callee argc)
      | invalid =>
        exact quiet (abortRun config run registers.function registers.pc .invalidBytecode)
      | outOfBounds => exact quiet (goto (.faulted .stackBounds))

/-- Going on after a body. -/
theorem finishBody (config : Config ν σ) {value : Int32}
    (ended : config.focus = .body (.done value)) :
    Echoes (config.finishBody host.silent value) (events ++ config.reports host.silent) fun sink =>
      (config.recorded sink events).finishBody host.recording value := by
  have made : config.step host.silent = config.finishBody host.silent value := by
    simp only [Config.step, ended]
  simp only [Config.reports, ended, made]
  simp only [Config.finishBody, recorded_pending]
  cases config.pending with
  | nil => exact quiet (goto _)
  | cons work rest =>
    cases work with
    | calling run registers call =>
      exact returnNative { config with pending := rest } run registers call value
    | aborting next => exact afterAbort { config with pending := rest } next

/-- Making a step. -/
theorem step (host : Host ν σ) (config : Config ν σ) (events : List (Event ν))
    (keeps : ∀ request next, config.focus = .body (.ask request next) → request.KeepsSink) :
    Echoes (config.step host.silent) (events ++ config.reports host.silent) fun sink =>
      (config.recorded sink events).step host.recording := by
  cases focus : config.focus with
  | enter run =>
    simp only [Config.step, Config.reports, recorded_focus, focus]
    exact enterFrame config run
  | execute run registers =>
    simp only [Config.step, Config.reports, recorded_focus, focus]
    exact execute config run registers
  | ended run outcome =>
    simp only [Config.step, Config.reports, recorded_focus, focus]
    exact finishRun config run outcome
  | finished value | faulted fault =>
    simp only [Config.step, Config.reports, recorded_focus, focus, Focus.beside, Focus.arrival]
    exact quiet fun _ => rfl
  | body work =>
    cases work with
    | done value =>
      simp only [Config.step, recorded_focus, focus]
      exact finishBody config focus
    | ask request next =>
      simp only [Config.step, Config.reports, recorded_focus, focus]
      exact perform config (keeps request next focus) next
    | modify change next =>
      simp only [Config.step, Config.reports, recorded_focus, focus]
      exact quiet fun _ => rfl
    | crash fault =>
      simp only [Config.step, Config.reports, recorded_focus, focus]
      exact quiet (goto _)

end Echoes

/-- Making any number of steps. -/
theorem run_recorded (hosted : host.Asks Request.KeepsSink) (asks : config.Asks Request.KeepsSink)
    (steps : Nat) (sink : Option (Sink ν)) :
    (config.recorded sink []).run host.recording steps =
      (config.run host.silent steps).recorded sink (config.trace host.silent steps) := by
  have silent : host.silent.Asks Request.KeepsSink := ⟨hosted.native, hosted.onAbort⟩
  induction steps with
  | zero => rfl
  | succ steps ih =>
    rw [run_succ_last, ih, run_succ_last]
    refine Echoes.step host _ _ (fun request next focus => ?_) sink
    have work := (asks.run silent steps).focus
    rw [focus] at work
    exact work.1

/-- A step reports the same with every sink. -/
theorem reports_recorded (host : Host ν σ) (config : Config ν σ) (sink : Option (Sink ν))
    (keeps : ∀ request next, config.focus = .body (.ask request next) → request.KeepsSink) :
    (config.recorded sink events).reports host.recording = config.reports host.silent := by
  have arrives (suspension : List (Event ν)) :
      ((config.recorded sink events).step host.recording).focus.arrival suspension =
        (config.step host.silent).focus.arrival suspension := by
    have echoes := Echoes.step host config events keeps sink
    dsimp only at echoes
    rw [echoes, recorded_focus]
    cases (config.step host.silent).focus with
    | ended run outcome => cases outcome <;> rfl
    | body | enter | execute | finished | faulted => rfl
  unfold reports
  rw [recorded_focus]
  simp only [arrives]
  cases focus : config.focus with
  | enter run => rfl
  | execute run registers =>
    simp only [Focus.beside, instructionReports, recorded_world, World.domain_withSink,
      Domain.thread_withSink, Domain.globals_withSink, Domain.specials_withSink,
      Run.thread_beside, Run.execution_beside]
  | ended run outcome =>
    simp only [Focus.beside, recorded_world, World.domain_withSink, Domain.thread_withSink,
      Run.thread_beside]
  | finished value | faulted fault => rfl
  | body work =>
    cases work with
    | ask | modify | crash => rfl
    | done value =>
      simp only [Focus.beside, Program.beside, recorded_pending]
      cases config.pending with
      | nil => rfl
      | cons work rest => cases work <;> rfl

/-- Any number of steps report the same with every sink. -/
theorem trace_recorded (hosted : host.Asks Request.KeepsSink)
    (asks : config.Asks Request.KeepsSink) (steps : Nat) (sink : Option (Sink ν)) :
    (config.recorded sink []).trace host.recording steps = config.trace host.silent steps := by
  have silent : host.silent.Asks Request.KeepsSink := ⟨hosted.native, hosted.onAbort⟩
  induction steps with
  | zero => rfl
  | succ steps ih =>
    rw [trace, trace, ih, run_recorded hosted asks]
    refine congrArg _ (reports_recorded host _ sink fun request next focus => ?_)
    have work := (asks.run silent steps).focus
    rw [focus] at work
    exact work.1

/-- The machine for a host that carries out a body in a world with a trace sink, or without one.
What the sink is shown is recorded beside the state of the host. -/
def traced (host : Host ν σ) (world : World ν) (state : σ) (body : Body ν σ) (steps : Nat)
    (sink : Option (Sink ν)) : Config ν (σ × List (Event ν)) :=
  (initial (world.withSink sink) (state, []) body.beside).run host.recording steps

/-- The machine with a sink goes on as the one whose sinks do nothing, and the sink has been shown
what it asks for in the trace. -/
theorem traced_eq (hosted : host.Asks Request.KeepsSink) {world : World ν} {state : σ}
    {body : Body ν σ} (asks : body.Asks Request.KeepsSink) (steps : Nat)
    (sink : Option (Sink ν)) :
    traced host world state body steps sink =
      ((initial world state body).run host.silent steps).recorded sink
        ((initial world state body).trace host.silent steps) :=
  run_recorded hosted (asks_initial asks) steps sink

/-- A sink for all kinds is shown the whole trace. -/
theorem traced_full (hosted : host.Asks Request.KeepsSink) {world : World ν} {state : σ}
    {body : Body ν σ} (asks : body.Asks Request.KeepsSink) (steps : Nat) (reference : ν) :
    (traced host world state body steps (some ⟨reference, .full⟩)).state.2 =
      (initial (world.withSink (some ⟨reference, .full⟩)) (state, []) body.beside).trace
        host.recording steps := by
  have recorded := trace_recorded hosted (asks_initial asks : (initial world state body).Asks _)
    steps (some ⟨reference, .full⟩)
  rw [traced_eq hosted asks]
  refine Eq.trans ?_ recorded.symm
  simp [Config.recorded, Sink.shown, Mask.has_full]

/-- If no callback replaces the trace sink, then a sink changes nothing but the record of what it is
shown: after every number of steps the world, the state of the host and the work are the same as
without a sink. Without a sink nothing is recorded, and a sink is shown the events of its kinds
among those that a sink for all kinds is shown, in the same order. -/
theorem sinks_only_observe (hosted : host.Asks Request.KeepsSink) (world : World ν) (state : σ)
    {body : Body ν σ} (asks : body.Asks Request.KeepsSink) (steps : Nat) :
    (∀ sink,
      (traced host world state body steps sink).world =
          (traced host world state body steps none).world.withSink sink ∧
        (traced host world state body steps sink).state.1 =
          (traced host world state body steps none).state.1 ∧
        (traced host world state body steps sink).focus =
          (traced host world state body steps none).focus ∧
        (traced host world state body steps sink).pending =
          (traced host world state body steps none).pending) ∧
      (traced host world state body steps none).state.2 = [] ∧
      ∀ (sink : Sink ν) (reference : ν),
        (traced host world state body steps (some sink)).state.2 =
          (traced host world state body steps (some ⟨reference, .full⟩)).state.2.filter
            fun event => sink.mask.has event.kind := by
  simp only [traced_eq hosted asks]
  refine ⟨fun sink => ⟨rfl, rfl, rfl, rfl⟩, ?_, fun sink reference => ?_⟩
  · simp [recorded, Sink.shown]
  · simp [recorded, Sink.shown, Mask.has_full]

/-- A function calls another one whose native method suspends the thread, which is resumed later. A
sink for native calls and for runs is shown the calls and the runs in their order. -/
theorem sinks_only_observe_resuming :
    let record := fun mask =>
      (traced suspendingHost {} () resuming 40 (some ⟨(), mask⟩)).state.2
    let mask := (Mask.only .natives).union (.only .runs)
    suspendingHost.Asks Request.KeepsSink ∧ resuming.Asks Request.KeepsSink ∧
      (record .full).length = 18 ∧
      (record mask).map Event.kind = [.runs, .natives, .natives, .runs, .runs, .runs] ∧
      record mask = (record .full).filter fun event => mask.has event.kind := by
  intro record mask
  have hosted : suspendingHost.Asks Request.KeepsSink :=
    ⟨fun _ _ => ⟨trivial, fun _ => trivial⟩, fun _ _ => trivial⟩
  have asks : resuming.Asks Request.KeepsSink :=
    ⟨trivial, fun _ => ⟨trivial, fun _ => ⟨trivial, fun _ => ⟨trivial, fun _ =>
      ⟨trivial, fun _ => ⟨trivial, fun _ => trivial⟩⟩⟩⟩⟩⟩
  exact ⟨hosted, asks, by decide +kernel, by decide +kernel,
    (sinks_only_observe hosted {} () asks 40).2.2 ⟨(), mask⟩ ()⟩

end Config

end ScriptMachine

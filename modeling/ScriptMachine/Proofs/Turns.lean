import ScriptMachine.Proofs.Registrations
import ScriptMachine.Proofs.Replies
import ScriptMachine.Proofs.Territories

/-!
# Turns of threads

A turn of a thread is an operation of the host on it: the thread runs a function, is handed a
result, or is resumed. Native methods that only compute their result or suspend the calling thread
keep a turn to the thread. So two machines whose domains are alike in the thread and its territory
carry out the turn in lockstep: they answer it with the same answer, the domains stay alike there,
and everything else in the second domain stays as it was.
-/

namespace ScriptMachine

variable {ν σ α : Type}

/-- A program that computes its result, and beside this only suspends the active thread. -/
inductive Program.Secluded : Program ν σ α → Prop where
  | done (result : α) : Secluded (.done result)
  | suspend (hook : Option (AbortHook ν)) {next : Answer ν → Program ν σ α}
    (goes : ∀ answer, Secluded (next answer)) :
    Secluded (.ask (.update (.suspendActive hook)) next)

/-- Native methods only compute from their arguments or suspend the calling thread, and so do the
hooks that they arm. -/
structure Host.Secluded (host : Host ν σ) : Prop where
  native : ∀ method arguments, (host.native method arguments).Secluded
  onAbort : ∀ hook id, (host.onAbort hook id).Secluded

/-- A secluded program registers nothing. -/
theorem Program.Secluded.asks {program : Program ν σ α} (secluded : program.Secluded) :
    program.Asks Request.RegistersVerified := by
  induction secluded with
  | done result => trivial
  | suspend hook goes ih => exact ⟨trivial, ih⟩

/-- A secluded host registers nothing. -/
theorem Host.Secluded.asks {host : Host ν σ} (secluded : host.Secluded) :
    host.Asks Request.RegistersVerified :=
  ⟨fun method arguments => (secluded.native method arguments).asks,
    fun hook id => (secluded.onAbort hook id).asks⟩

/-- What the host asks of a thread. -/
inductive Operation where
  /-- Starts a function on the thread and runs it. -/
  | run (function : FunctionId)
  /-- Hands the thread the result of the native call that suspended it. -/
  | supply (value : Int32)
  /-- Continues the suspended thread. -/
  | resume
  deriving DecidableEq

/-- The request of an operation on a thread. -/
def Operation.request (id : ThreadId) : Operation → Request ν
  | .run function => .run id function
  | .supply value => .update (.supplyResult id value)
  | .resume => .resume id

/-- An operation registers nothing. -/
theorem Operation.registersVerified (operation : Operation) (id : ThreadId) :
    (operation.request id : Request ν).RegistersVerified := by
  cases operation <;> trivial

/-- The function that is started, if it is registered, is one of the territory. -/
def Operation.Within (territory : Territory ν) (functions : Array (Function ν)) :
    Operation → Prop
  | .run function =>
    ∀ called, functions[function.index]? = some called → territory.functions called
  | .supply _ | .resume => True

/-- A turn of a thread in two machines. -/
structure Turn (ν σ : Type) where
  thread : ThreadId
  territory : Territory ν
  /-- How the body goes on that asks the first machine for the operation. -/
  next : Answer ν → Body ν σ
  /-- How the body goes on that asks the second machine for it. -/
  next' : Answer ν → Body ν σ
  /-- The domain with which the second machine began. -/
  rest : Domain ν

/-! ## The work of a turn -/

/-- The run on behalf of another body. -/
def Run.redirect (run : Run ν σ) (reply : Answer ν → Body ν σ) : Run ν σ := { run with reply }

@[simp] theorem Run.redirect_thread (run : Run ν σ) (reply : Answer ν → Body ν σ) :
    (run.redirect reply).thread = run.thread := rfl

@[simp] theorem Run.redirect_execution (run : Run ν σ) (reply : Answer ν → Body ν σ) :
    (run.redirect reply).execution = run.execution := rfl

/-- Replacing the operand stack. -/
theorem Run.setStack_redirect (run : Run ν σ) (reply : Answer ν → Body ν σ)
    (stack : Array Int32) :
    (run.redirect reply).setStack stack = (run.setStack stack).redirect reply := rfl

/-- Recording where to continue. -/
theorem Run.saveFrame_redirect (run : Run ν σ) (reply : Answer ν → Body ν σ) (pc top : Nat) :
    (run.redirect reply).saveFrame pc top = (run.saveFrame pc top).redirect reply := by
  simp only [saveFrame, redirect_execution]
  split <;> rfl

/-- A run of the thread within its territory. -/
structure Run.Takes (turn : Turn ν σ) (run : Run ν σ) : Prop where
  thread : run.thread = turn.thread
  previous : ∀ other, run.previous = some other → other = turn.thread
  reply : run.reply = turn.next
  frames : turn.territory.Executes run.execution.frames

/-- The two machines are at the same point of the same run. -/
inductive Focus.Pairs (turn : Turn ν σ) : Focus ν σ → Focus ν σ → Prop where
  | enter {run : Run ν σ} (takes : run.Takes turn) :
    Pairs turn (.enter run) (.enter (run.redirect turn.next'))
  | execute {run : Run ν σ} (registers : Registers ν) (takes : run.Takes turn) :
    Pairs turn (.execute run registers) (.execute (run.redirect turn.next') registers)
  | ended {run : Run ν σ} (outcome : Outcome) (takes : run.Takes turn) :
    Pairs turn (.ended run outcome) (.ended (run.redirect turn.next') outcome)

/-- The same follows an abort in the two machines: the thread is started, or its run stops. -/
inductive AfterAbort.Pairs (turn : Turn ν σ) : AfterAbort ν σ → AfterAbort ν σ → Prop where
  | starting {function : Function ν} (purpose : Purpose)
    (listed : turn.territory.functions function) :
    Pairs turn (.start turn.thread function (some purpose) turn.next)
      (.start turn.thread function (some purpose) turn.next')
  | stopping {run : Run ν σ} (function : Function ν) (pc : Nat) (reason : AbortReason)
    (takes : run.Takes turn) :
    Pairs turn (.stop run function pc reason) (.stop (run.redirect turn.next') function pc reason)

/-- The same work waits in the two machines. -/
inductive Pending.Pairs (turn : Turn ν σ) : Pending ν σ → Pending ν σ → Prop where
  | calling {run : Run ν σ} (registers : Registers ν) (call : NativeCall)
    (takes : run.Takes turn) :
    Pairs turn (.calling run registers call) (.calling (run.redirect turn.next') registers call)
  | aborting {after after' : AfterAbort ν σ} (pairs : after.Pairs turn after') :
    Pairs turn (.aborting after) (.aborting after')

namespace Run.Takes

variable {turn : Turn ν σ} {run : Run ν σ}

/-- The operand stack does not matter. -/
theorem setStack (takes : run.Takes turn) (stack : Array Int32) :
    (run.setStack stack).Takes turn := ⟨takes.thread, takes.previous, takes.reply, takes.frames⟩

/-- Going on with other frames. -/
theorem setFrames (takes : run.Takes turn) {frames : List (Frame ν)}
    (executes : turn.territory.Executes frames) : (run.setFrames frames).Takes turn :=
  ⟨takes.thread, takes.previous, takes.reply, executes⟩

/-- Recording where to continue. -/
theorem saveFrame (takes : run.Takes turn) (pc top : Nat) :
    (run.saveFrame pc top).Takes turn := by
  unfold Run.saveFrame
  split
  · exact takes
  · rename_i frame outer frames
    refine takes.setFrames fun other listed => ?_
    rcases List.mem_cons.1 listed with rfl | later
    · exact takes.frames frame (by simp [frames])
    · exact takes.frames other (by simp [frames, later])

/-- The innermost function is one of the territory. -/
theorem listed (takes : run.Takes turn) {registers : Registers ν} (at' : run.At registers) :
    turn.territory.functions registers.function := by
  obtain ⟨frame, outer, frames, function, _⟩ := at'.innermost
  exact function ▸ takes.frames frame (by simp [frames])

end Run.Takes

namespace Config

/-- The domains of the two machines are alike as far as the turn goes, and no other work waits. -/
structure Couples (turn : Turn ν σ) (first second : Config ν σ) : Prop where
  domain : Domain.Couples turn.territory turn.thread turn.rest first.world.domain
    second.world.domain
  pending : first.pending = []
  pending' : second.pending = []

/-- Both machines carry out the turn, in lockstep. -/
inductive Abreast (turn : Turn ν σ) (first second : Config ν σ) : Prop where
  | runs (couples : Couples turn first second) (pairs : Focus.Pairs turn first.focus second.focus)
  /-- A callback is at hand above the work of the turn. -/
  | waits {body : Body ν σ} {work work' : Pending ν σ}
    (domain : Domain.Couples turn.territory turn.thread turn.rest first.world.domain
      second.world.domain)
    (secluded : body.Secluded) (focus : first.focus = .body body)
    (focus' : second.focus = .body body) (pairs : Pending.Pairs turn work work')
    (pending : first.pending = [work]) (pending' : second.pending = [work'])
  | faulted {fault : Fault} (focus : first.focus = .faulted fault)
    (focus' : second.focus = .faulted fault)

/-- Both machines answer the turn with the same answer. -/
structure BothAnswer (turn : Turn ν σ) (answer : Answer ν) (first second : Config ν σ) : Prop
    extends Couples turn first second where
  focus : first.focus = .body (turn.next answer)
  focus' : second.focus = .body (turn.next' answer)

/-- Both machines go on in lockstep, or answer the turn. -/
def KeepsPace (turn : Turn ν σ) (first second : Config ν σ) : Prop :=
  Abreast turn first second ∨ ∃ answer, BothAnswer turn answer first second

variable {host : Host ν σ} {turn : Turn ν σ} {config other : Config ν σ} {run : Run ν σ}
  {registers : Registers ν}

namespace Couples

/-- The trace sinks are shown events. -/
theorem emit (couples : Couples turn config other) (event event' : Event ν) :
    Couples turn (config.emit host event) (other.emit host event') := by
  refine ⟨?_, ?_, ?_⟩
  · rw [emit_world, emit_world]
    exact couples.domain
  · rw [emit_pending, couples.pending]
  · rw [emit_pending, couples.pending']

/-- The worlds are changed. -/
theorem setWorld (couples : Couples turn config other) {world world' : World ν}
    (changed : Domain.Couples turn.territory turn.thread turn.rest world.domain world'.domain) :
    Couples turn { config with world } { other with world := world' } :=
  ⟨changed, couples.pending, couples.pending'⟩

/-- The domains are changed. -/
theorem setDomain (couples : Couples turn config other) {domain domain' : Domain ν}
    (changed : Domain.Couples turn.territory turn.thread turn.rest domain domain') :
    Couples turn (config.setDomain domain) (other.setDomain domain') :=
  ⟨changed, couples.pending, couples.pending'⟩

/-- Both machines go on with the run. -/
theorem goto (couples : Couples turn config other) {focus focus' : Focus ν σ}
    (pairs : Focus.Pairs turn focus focus') :
    KeepsPace turn (config.goto focus) (other.goto focus') :=
  .inl (.runs ⟨couples.domain, couples.pending, couples.pending'⟩ pairs)

/-- Both machines answer. -/
theorem answer (couples : Couples turn config other) (answer : Answer ν) :
    KeepsPace turn (config.goto (.body (turn.next answer)))
      (other.goto (.body (turn.next' answer))) :=
  .inr ⟨answer, ⟨couples.domain, couples.pending, couples.pending'⟩, rfl, rfl⟩

end Couples

namespace KeepsPace

/-- Both machines stop for the same misuse. -/
theorem stop (fault : Fault) :
    KeepsPace turn (config.goto (.faulted fault)) (other.goto (.faulted fault)) :=
  .inl (.faulted rfl rfl)

/-- Both machines go on with results that concur. -/
theorem attempt {β γ : Type} {related : β → γ → Prop} {result : Except Fault β}
    {result' : Except Fault γ} {next : β → Config ν σ} {next' : γ → Config ν σ}
    (concurs : Concurs related result result')
    (goes : ∀ value value', related value value' → KeepsPace turn (next value) (next' value')) :
    KeepsPace turn (config.attempt result next) (other.attempt result' next') := by
  cases concurs with
  | error fault => exact stop fault
  | ok same => exact goes _ _ same

/-- Both machines go on with the same result. -/
theorem attempt_same {β : Type} {result : Except Fault β} {next next' : β → Config ν σ}
    (goes : ∀ value, KeepsPace turn (next value) (next' value)) :
    KeepsPace turn (config.attempt result next) (other.attempt result next') := by
  cases result with
  | error fault => exact stop fault
  | ok value => exact goes value

/-- The thread begins to run. -/
theorem launch (couples : Couples turn config other) (purpose : Purpose) :
    KeepsPace turn (config.launch host turn.thread purpose turn.next)
      (other.launch host turn.thread purpose turn.next') := by
  refine attempt couples.domain.thread_concurs fun thread _ ⟨same, present⟩ => ?_
  subst same
  cases held : thread.execution with
  | none => exact couples.answer _
  | some execution =>
    have taken := couples.domain.setThread present { thread with execution := none }
      fun after kept => by cases kept
    have launched := couples.setDomain (taken.setActive (some turn.thread)
      fun other same => (Option.some.inj same).symm)
    dsimp only
    rw [couples.domain.active, couples.domain.own.limits]
    have takes : Run.Takes turn {
        thread := turn.thread
        previous := config.world.domain.active
        execution, purpose
        budget := config.world.domain.limits.loopBudget
        reply := turn.next } :=
      ⟨rfl, couples.domain.alone, rfl, couples.domain.frames thread execution present held⟩
    cases execution.frames with
    | nil => exact launched.goto (.enter takes)
    | cons frame outer => exact (launched.emit _ _).goto (.enter takes)

/-- A run that ends. -/
theorem finishRun (couples : Couples turn config other) (takes : run.Takes turn)
    (outcome : Outcome) :
    KeepsPace turn (config.finishRun host run outcome)
      (other.finishRun host (run.redirect turn.next') outcome) := by
  obtain ⟨id, previous, execution, budget, purpose, reply⟩ := run
  obtain ⟨rfl, previous, rfl, frames⟩ := takes
  refine attempt couples.domain.thread_concurs fun thread _ ⟨same, present⟩ => ?_
  subst same
  have returned := couples.domain.setThread present
    { thread with execution := some execution, pendingAbort := none } fun after kept => by
      cases kept
      exact frames
  exact ((couples.setDomain (returned.setActive _ previous)).emit _ _).answer _

/-- A run that is aborted. -/
theorem abortRun (couples : Couples turn config other) (takes : run.Takes turn)
    (function : Function ν) (pc : Nat) (reason : AbortReason) :
    KeepsPace turn (config.abortRun host run function pc reason)
      (other.abortRun host (run.redirect turn.next') function pc reason) :=
  .inl (.runs ⟨couples.domain, couples.pending, couples.pending'⟩
    (.ended _ (takes.setFrames fun _ listed => absurd listed List.not_mem_nil)))

/-- What follows an abort. -/
theorem afterAbort (couples : Couples turn config other) {after after' : AfterAbort ν σ}
    (pairs : after.Pairs turn after') :
    KeepsPace turn (config.afterAbort host after) (other.afterAbort host after') := by
  cases pairs with
  | stopping function pc reason takes => exact abortRun couples takes function pc reason
  | starting purpose listed =>
    refine attempt couples.domain.thread_concurs fun thread _ ⟨same, present⟩ => ?_
    subst same
    cases held : thread.execution with
    | none => exact couples.answer _
    | some execution =>
      refine launch (couples.setDomain (couples.domain.setThread present _ fun after kept => ?_)) _
      cases kept
      intro frame among
      rcases List.mem_cons.1 among with rfl | outer
      · exact listed
      · exact couples.domain.frames thread execution present held frame outer

/-- The thread is detached; a hook that is due is called in both machines. -/
theorem detach (hosted : host.Secluded) (couples : Couples turn config other)
    {after after' : AfterAbort ν σ} (pairs : after.Pairs turn after') :
    KeepsPace turn (config.detach host turn.thread after)
      (other.detach host turn.thread after') := by
  refine attempt couples.domain.detach fun ⟨domain, hook⟩ ⟨domain', _⟩ ⟨same, detached⟩ => ?_
  subst same
  cases hook with
  | none => exact afterAbort (couples.setDomain detached) pairs
  | some hook =>
    cases hook with
    | leaveSleep => exact afterAbort (couples.setWorld detached) pairs
    | custom reference =>
      exact .inl (.waits detached (hosted.onAbort _ _) rfl rfl (.aborting pairs)
        (congrArg _ couples.pending) (congrArg _ couples.pending'))

/-- The thread is given a fresh frame and run. -/
theorem start (hosted : host.Secluded) (couples : Couples turn config other)
    {function : FunctionId} (purpose : Purpose)
    (within : ∀ called, config.world.domain.function? function = some called →
      turn.territory.functions called) :
    KeepsPace turn (config.start host turn.thread function (some purpose) turn.next)
      (other.start host turn.thread function (some purpose) turn.next') := by
  unfold Config.start
  rw [couples.domain.function?_eq]
  cases registered : config.world.domain.function? function with
  | none => exact couples.answer _
  | some called =>
    have pairs := @AfterAbort.Pairs.starting _ _ turn _ purpose (within called registered)
    refine attempt couples.domain.thread_concurs fun thread _ ⟨same, present⟩ => ?_
    subst same
    cases thread.execution with
    | none => exact couples.answer _
    | some execution =>
      dsimp only
      split
      · exact attempt (couples.domain.discard _) fun _ _ discarded =>
          detach hosted (couples.setDomain discarded) pairs
      · exact afterAbort couples pairs

/-- The thread is resumed. -/
theorem resume (couples : Couples turn config other) :
    KeepsPace turn (config.resume host turn.thread turn.next)
      (other.resume host turn.thread turn.next') := by
  refine attempt couples.domain.thread_concurs fun thread _ ⟨same, present⟩ => ?_
  subst same
  dsimp only
  split
  · exact couples.answer _
  · split
    · exact couples.answer _
    · split
      · exact couples.answer _
      · refine attempt couples.domain.thread_concurs fun thread _ ⟨same, present⟩ => ?_
        subst same
        have woken := couples.setDomain (couples.domain.setThread present
          { thread with suspended := false, hook := none }
          (couples.domain.frames thread · present))
        dsimp only
        split
        · exact woken.answer _
        · exact launch woken _

/-- The operation of the turn is begun. -/
theorem perform (hosted : host.Secluded) (couples : Couples turn config other)
    {operation : Operation}
    (within : operation.Within turn.territory config.world.domain.functions) :
    KeepsPace turn (config.perform host (operation.request turn.thread) turn.next)
      (other.perform host (operation.request turn.thread) turn.next') := by
  cases operation with
  | run function => exact start hosted couples _ within
  | resume => exact resume couples
  | supply value =>
    refine attempt (couples.domain.applySupply value) fun ⟨world, answer⟩ ⟨world', _⟩
      ⟨same, supplied⟩ => ?_
    subst same
    exact (couples.setWorld supplied).answer answer

/-! ## Steps of a run -/

/-- A frame that is entered. -/
theorem enterFrame (couples : Couples turn config other) (takes : run.Takes turn) :
    KeepsPace turn (config.enterFrame host run)
      (other.enterFrame host (run.redirect turn.next')) := by
  unfold Config.enterFrame
  rw [Run.redirect_execution]
  split
  · exact couples.goto (.ended _ takes)
  · split
    · exact couples.goto (.execute _ takes)
    · exact (couples.emit _ _).goto (.execute _ (takes.setStack _))

/-- A frame that is left. -/
theorem leaveFrame (couples : Couples turn config other) (takes : run.Takes turn)
    (function : Function ν) (stack : Array Int32) :
    KeepsPace turn (config.leaveFrame host run function stack)
      (other.leaveFrame host (run.redirect turn.next') function stack) :=
  (couples.emit _ _).goto (.enter ((takes.setStack stack).setFrames fun frame listed =>
    takes.frames frame (List.mem_of_mem_tail listed)))

/-- A native method that is called. -/
theorem callNative (hosted : host.Secluded) (couples : Couples turn config other)
    (takes : run.Takes turn) (next : Nat) (call : NativeCall) :
    KeepsPace turn (config.callNative host run registers next call)
      (other.callNative host (run.redirect turn.next') registers next call) := by
  unfold Config.callNative
  cases registers.function.method? call.method with
  | none => exact abortRun couples takes _ _ _
  | some method =>
    have shown := @Couples.emit _ _ host _ _ _ couples
    dsimp only
    rw [Run.redirect_execution]
    split
    · have called := shown (.scopeEnter (.native call.kind call.method) registers.function call.pc)
        (.scopeEnter (.native call.kind call.method) registers.function call.pc)
      exact .inl (.waits called.domain (hosted.native _ _) rfl rfl (.calling _ call takes)
        (congrArg _ called.pending) (congrArg _ called.pending'))
    · exact stop _

/-- A script function that is called. -/
theorem callScript (couples : Couples turn config other) (takes : run.Takes turn) (next : Nat)
    (result : ResultKind) (callee : FunctionId) (argc : Nat)
    (within : ∀ called, config.world.domain.function? callee = some called →
      turn.territory.functions called) :
    KeepsPace turn (config.callScript host run registers next result callee argc)
      (other.callScript host (run.redirect turn.next') registers next result callee argc) := by
  unfold Config.callScript
  rw [couples.domain.function?_eq]
  cases found : config.world.domain.function? callee with
  | none => exact abortRun couples takes _ _ _
  | some called =>
    dsimp only
    split
    · exact stop _
    · replace takes := takes.saveFrame next (registers.sp - argc + result.count)
      rw [Run.saveFrame_redirect, Run.redirect_execution, couples.domain.own.limits]
      generalize run.saveFrame next (registers.sp - argc + result.count) = caller at *
      split
      · exact attempt_same fun stack => abortRun couples (takes.setStack stack) _ _ _
      · refine couples.goto (.enter (takes.setFrames fun frame listed => ?_))
        rcases List.mem_cons.1 listed with rfl | outer
        · exact within called found
        · exact takes.frames frame outer

/-- An instruction that is executed. -/
theorem execute (hosted : host.Secluded) (couples : Couples turn config other)
    (takes : run.Takes turn) (encloses : turn.territory.Encloses turn.rest.functions)
    (at' : run.At registers) (reached : registers.function.Reaches registers.pc) :
    KeepsPace turn (config.execute host run registers)
      (other.execute host (run.redirect turn.next') registers) := by
  obtain ⟨instruction, ready⟩ := at'.fits.ready
  have listed := takes.listed at'
  unfold Config.execute
  dsimp only
  rw [ready.decode, Run.redirect_thread, Run.redirect_execution]
  dsimp only
  generalize emitted : config.emit host _ = shown
  generalize emitted' : other.emit host _ = shown'
  replace couples : Couples turn shown shown' := emitted ▸ emitted' ▸ couples.emit _ _
  have table : turn.rest.functions = shown.world.domain.functions :=
    couples.domain.others.functions.symm.trans couples.domain.own.functions
  have looked := couples.domain.thread_concurs
  rw [← takes.thread] at looked
  refine attempt looked fun thread _ ⟨same, _⟩ => ?_
  subst same
  have agrees := instruction.effect_agrees
    ⟨shown.world.domain.globals, shown.world.domain.specials, thread.variables⟩
    (by have enough := ready.enough; omega) (ready.slots at'.fits)
  have same := @Instruction.effect_congr instruction
    ⟨shown.world.domain.globals, shown.world.domain.specials, thread.variables⟩
    ⟨shown'.world.domain.globals, shown'.world.domain.specials, thread.variables⟩ registers.base
    registers.sp run.execution.stack (fun index named => couples.domain.own.value _
      (encloses.globals _ listed _ _ _ reached ready.listed named)) couples.domain.own.globals
    couples.domain.own.specials rfl
  rw [same]
  cases does : instruction.effect ⟨shown.world.domain.globals, shown.world.domain.specials,
    thread.variables⟩ registers.base run.execution.stack registers.sp with
  | advance stack sp => exact couples.goto (.execute _ (takes.setStack _))
  | writeGlobal index value sp =>
    obtain ⟨named, names, rfl⟩ := Instruction.global?_of_writeGlobal does
    have inside := encloses.globals _ listed _ _ _ reached ready.listed names
    exact (couples.setDomain (couples.domain.setGlobal inside value)).goto (.execute _ takes)
  | jump delta sp =>
    dsimp only
    cases branchTarget? _ delta with
    | none => exact abortRun couples takes _ _ _
    | some target => exact couples.goto (.execute _ takes)
  | spend =>
    have spent : Run.Takes turn { run with budget := run.budget - 1 } :=
      ⟨takes.thread, takes.previous, takes.reply, takes.frames⟩
    have budget : (run.redirect turn.next').budget = run.budget := rfl
    dsimp only
    rw [budget]
    split
    · exact abortRun couples takes _ _ _
    · exact couples.goto (.execute _ spent)
  | native kind result method base => exact callNative hosted couples takes _ _
  | script result callee argc =>
    rw [does] at agrees
    obtain ⟨⟨count, index, rfl, rfl, rfl⟩, _⟩ := agrees
    refine callScript couples takes _ _ _ _ fun called found => ?_
    exact encloses.callees _ listed _ _ _ _ reached ready.listed called (table ▸ found)
  | ret stack => exact leaveFrame couples takes _ _
  | invalid => exact abortRun couples takes _ _ _
  | outOfBounds => exact stop _

/-- A native method that answers. -/
theorem returnNative (hosted : host.Secluded) (couples : Couples turn config other)
    (takes : run.Takes turn) (call : NativeCall) (value : Int32) :
    KeepsPace turn (config.returnNative host run registers call value)
      (other.returnNative host (run.redirect turn.next') registers call value) := by
  unfold Config.returnNative
  dsimp only
  rw [Run.redirect_execution]
  generalize emitted : config.emit host _ = shown
  generalize emitted' : other.emit host _ = shown'
  replace couples : Couples turn shown shown' := emitted ▸ emitted' ▸ couples.emit _ _
  refine attempt_same fun stack => ?_
  replace takes := takes.setStack stack
  rw [Run.setStack_redirect]
  generalize run.setStack stack = run at takes
  rw [Run.saveFrame_redirect]
  simp only [Run.redirect_thread, takes.thread]
  refine attempt couples.domain.thread_concurs fun thread _ ⟨same, present⟩ => ?_
  subst same
  cases thread.pendingAbort with
  | some reason =>
    have stopped := couples.setDomain (couples.domain.setThread present
      { thread with pendingAbort := none } (couples.domain.frames thread · present))
    exact detach hosted stopped (.stopping _ _ _ takes)
  | none =>
    dsimp only
    split
    · have saved := takes.saveFrame registers.pc registers.sp
      exact (couples.emit _ _).goto (.ended _ saved)
    · exact couples.goto (.execute _ takes)

end KeepsPace

/-! ## Both machines -/

variable {first second : Config ν σ}

/-- A step of both machines. -/
theorem Abreast.step (hosted : host.Secluded)
    (encloses : turn.territory.Encloses turn.rest.functions) (abreast : Abreast turn first second)
    (sound : first.Sound) (placed : first.Placed Request.RegistersVerified) :
    KeepsPace turn (first.step host) (second.step host) := by
  cases abreast with
  | runs couples pairs =>
    have fits := sound.focus
    have places := placed.focus
    generalize found : first.focus = work at pairs fits places
    generalize found' : second.focus = work' at pairs
    cases pairs with
    | enter takes =>
      simp only [Config.step, found, found']
      exact .enterFrame couples takes
    | execute registers takes =>
      simp only [Config.step, found, found']
      exact .execute hosted couples takes encloses fits.2 places.2
    | ended outcome takes =>
      simp only [Config.step, found, found']
      exact .finishRun couples takes outcome
  | @waits body work work' domain secluded focus focus' pairs pending pending' =>
    cases secluded with
    | done value =>
      have couples : Couples turn { first with pending := [] } { second with pending := [] } :=
        ⟨domain, rfl, rfl⟩
      cases pairs with
      | calling registers call takes =>
        rw [step_of_calling focus pending, step_of_calling focus' pending']
        exact .returnNative hosted couples takes call value
      | aborting pairs =>
        rw [step_of_aborting focus pending, step_of_aborting focus' pending']
        exact .afterAbort couples pairs
    | @suspend hook next goes =>
      simp only [Config.step, focus, focus', Config.perform]
      refine .attempt (domain.applySuspend hook) ?_
      rintro ⟨world, answer⟩ ⟨world', _⟩ ⟨same, suspended⟩
      subst same
      exact .inl (.waits suspended (goes answer) rfl rfl pairs pending pending')
  | faulted focus focus' =>
    simp only [Config.step, focus, focus']
    exact .inl (.faulted focus focus')

/-- A machine that carries out a turn is not at a body with nothing below it, and has not ended. -/
theorem Abreast.busy (abreast : Abreast turn first second) :
    (∀ body, first.focus = .body body → first.pending ≠ []) ∧
      (∀ body, second.focus = .body body → second.pending ≠ []) ∧
      ∀ value, first.focus ≠ .finished value := by
  cases abreast with
  | runs couples pairs =>
    generalize first.focus = work at pairs
    generalize second.focus = work' at pairs
    cases pairs <;> simp
  | waits domain secluded focus focus' pairs pending pending' =>
    simp [focus, pending, pending']
  | faulted focus focus' => simp [focus, focus']

end Config

end ScriptMachine

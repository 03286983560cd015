import ScriptMachine.Proofs.Interruption

/-!
# Runs in lockstep

Two machines share everything but their hosts: native calls answer at once in the first, and pause
by a schedule in the second. Between native calls they are in lockstep: the world, the host's
transcript, the frames and the operand stack are the same, and the loop budget of the second run is
at least that of the first, since it was renewed by every pause. Every step keeps them in lockstep
until both call the same native method with the same arguments. The first machine alone may stop
there, for a misuse of the operand stack or because its loop budget is spent.
-/

namespace ScriptMachine

variable {ν σ : Type}

/-- A run whose native calls answer at once, and one that is seen through a number of pauses. The
loop budget of the second is at least that of the first. -/
structure Run.Twins (id : ThreadId) (rounds limit : Nat) (first second : Run ν (Transcript ν)) :
    Prop where
  thread : first.thread = id ∧ second.thread = id
  previous : second.previous = first.previous
  stack : second.execution.stack = first.execution.stack
  budget : first.budget ≤ second.budget
  limit : first.budget ≤ limit
  reply : first.reply = Program.settle id 0 ∧ second.reply = Program.settle id rounds

/-- The work at hand in lockstep. While a frame runs, where it is to be continued makes no
difference. -/
inductive Focus.Twins (id : ThreadId) (rounds limit : Nat) :
    Focus ν (Transcript ν) → Focus ν (Transcript ν) → Prop where
  | enter {first second : Run ν (Transcript ν)} (runs : first.Twins id rounds limit second)
    (frames : second.execution.frames = first.execution.frames) :
    Twins id rounds limit (.enter first) (.enter second)
  | execute {first second : Run ν (Transcript ν)} {registers : Registers ν}
    {rest : List (Frame ν)} (runs : first.Twins id rounds limit second)
    (inFrame : first.InFrame registers rest ∧ second.InFrame registers rest) :
    Twins id rounds limit (.execute first registers) (.execute second registers)
  | ended {first second : Run ν (Transcript ν)} (runs : first.Twins id rounds limit second)
    (frames : second.execution.frames = first.execution.frames) {outcome : Outcome}
    (awake : outcome ≠ .suspended) :
    Twins id rounds limit (.ended first outcome) (.ended second outcome)

namespace Run.Twins

variable {id : ThreadId} {rounds limit : Nat} {run other : Run ν (Transcript ν)}

/-- The runs go on with the same operand stack. -/
theorem setStack (runs : run.Twins id rounds limit other) (stack : Array Int32) :
    (run.setStack stack).Twins id rounds limit (other.setStack stack) :=
  ⟨runs.thread, runs.previous, rfl, runs.budget, runs.limit, runs.reply⟩

/-- The runs go on with other frames. -/
theorem setFrames (runs : run.Twins id rounds limit other) (frames frames' : List (Frame ν)) :
    (run.setFrames frames).Twins id rounds limit (other.setFrames frames') :=
  ⟨runs.thread, runs.previous, runs.stack, runs.budget, runs.limit, runs.reply⟩

/-- The runs spend one unit of their loop budgets. -/
theorem spend (runs : run.Twins id rounds limit other) :
    Twins id rounds limit { run with budget := run.budget - 1 }
      { other with budget := other.budget - 1 } := by
  have budget := runs.budget
  have bounded := runs.limit
  refine ⟨runs.thread, runs.previous, runs.stack, ?_, ?_, runs.reply⟩
  · dsimp only
    omega
  · dsimp only
    omega

end Run.Twins

namespace Config

/-- Two machines in lockstep: they differ in the work at hand only. -/
structure Twins (schedule : Nat → Option Pause) (id : ThreadId) (rounds : Nat)
    (config : Config ν (Transcript ν)) (first second : Focus ν (Transcript ν)) : Prop where
  pending : config.pending = []
  owed : config.state.owed = none
  runs : ∃ thread, config.world.domain.Runs schedule id thread
  focus : first.Twins id rounds config.world.domain.limits.loopBudget second

/-- Whether the machine is about to call a native method and to drop what it answers. -/
def callsVoid (config : Config ν σ) : Bool :=
  match config.focus with
  | .execute _ registers =>
    match Instruction.decode registers.function.code registers.pc with
    | .ok (.native _ .void _ _, _) => true
    | _ => false
  | _ => false

end Config

namespace Effect

/-- An effect that calls a native method belongs to an instruction that does. -/
def CallsOf (instruction : Instruction) : Effect → Prop
  | native kind result method _ => ∃ argc, instruction = .native kind result argc method
  | _ => True

variable {instruction : Instruction} {stack : Array Int32} {sp : Nat}

/-- Pushing a value calls nothing. -/
theorem callsOf_push (value : Int32) : (push stack sp value).CallsOf instruction := by
  unfold push
  by_cases inside : sp < stack.size
  · rw [if_pos inside]
    exact trivial
  · rw [if_neg inside]
    exact trivial

/-- Reading the topmost operand calls nothing. -/
theorem callsOf_withTop {next : Int32 → Effect}
    (every : ∀ value, (next value).CallsOf instruction) :
    (withTop stack sp next).CallsOf instruction := by
  unfold withTop
  cases top? stack sp with
  | none => exact trivial
  | some value => exact every value

/-- Pushing a variable calls nothing. -/
theorem callsOf_pushVariable (values : Array Int32) (index : UInt8) :
    (pushVariable stack sp values index).CallsOf instruction := by
  unfold pushVariable
  cases values[index.toNat]? with
  | none => exact trivial
  | some value => exact callsOf_push value

/-- Branching calls nothing. -/
theorem callsOf_branchOn (test : Test) (delta : Int) :
    (branchOn stack sp test delta).CallsOf instruction := by
  unfold branchOn
  cases test with
  | always => exact trivial
  | zero | nonzero =>
    apply callsOf_withTop
    intro value
    split
    · exact trivial
    · exact trivial

end Effect

/-- Only a native call has the effect of one. -/
theorem Instruction.effect_callsOf (instruction : Instruction) (reach : Variables) (base sp : Nat)
    (stack : Array Int32) : (instruction.effect reach base stack sp).CallsOf instruction := by
  cases instruction with
  | nop | loopCheck | script => exact trivial
  | const value | const8 value => exact Effect.callsOf_push _
  | globalLoad index | specialLoad index | threadLoad index =>
    exact Effect.callsOf_pushVariable _ index
  | branch test delta | longBranch test delta => exact Effect.callsOf_branchOn test _
  | dup => exact Effect.callsOf_withTop fun value => Effect.callsOf_push value
  | unary op => exact Effect.callsOf_withTop fun value => trivial
  | binary op =>
    exact Effect.callsOf_withTop fun b => Effect.callsOf_withTop fun a => trivial
  | pop =>
    simp only [effect]
    split
    · exact trivial
    · exact trivial
  | globalStore index =>
    simp only [effect]
    split
    · exact trivial
    · split
      · exact Effect.callsOf_withTop fun value => trivial
      · exact trivial
  | localLoad index =>
    simp only [effect]
    split
    · exact Effect.callsOf_push _
    · exact trivial
  | localStore index =>
    apply Effect.callsOf_withTop
    intro value
    dsimp only
    split
    · exact trivial
    · exact trivial
  | native kind result argc method =>
    simp only [effect]
    split
    · exact trivial
    · exact ⟨argc, rfl⟩
  | ret kind =>
    cases kind with
    | void => exact trivial
    | int =>
      apply Effect.callsOf_withTop
      intro value
      split
      · exact trivial
      · exact trivial

namespace Config

section

variable {environment : Environment ν} {schedule : Nat → Option Pause} {id : ThreadId}
  {rounds : Nat} {config : Config ν (Transcript ν)} {first second : Focus ν (Transcript ν)}
  {run other : Run ν (Transcript ν)}

/-- Two configurations in lockstep. -/
def Together (schedule : Nat → Option Pause) (id : ThreadId) (rounds : Nat)
    (before after : Config ν (Transcript ν)) : Prop :=
  ∃ config first second, before = goto config first ∧ after = goto config second ∧
    config.Twins schedule id rounds first second

/-- What two machines in lockstep do next: they stay in lockstep, or they call the same native
method, or the first one stops for a misuse or for its loop budget. -/
inductive Advances (environment : Environment ν) (schedule : Nat → Option Pause) (id : ThreadId)
    (rounds : Nat) (before after : Config ν (Transcript ν)) : Prop where
  | together (together : Together schedule id rounds before after)
  | calls {config : Config ν (Transcript ν)} {first second : Run ν (Transcript ν)}
    {registers : Registers ν} {call : NativeCall} {method : ν} {arguments : List Int32}
    (twins : config.Twins schedule id rounds (.execute first registers)
      (.execute second registers))
    (height : registers.sp = call.base + call.result.count)
    (unpaused : call.result = .void → schedule config.state.calls.length = none)
    (called : before = ({ config with pending := [.calling first registers call] }).goto
      (.body (environment.native (fun _ => none) method arguments)))
    (called' : after = ({ config with pending := [.calling second registers call] }).goto
      (.body (environment.native schedule method arguments)))
  | faulted (fault : Fault) (focus : before.focus = .faulted fault)
  | exhausted {config : Config ν (Transcript ν)} {first second : Run ν (Transcript ν)}
    {info : AbortInfo}
    (twins : config.Twins schedule id rounds (.ended first (.aborted info))
      (.ended second (.aborted info)))
    (aborted : before = config.goto (.ended first (.aborted info)))
    (reason : info.reason = .loopLimit)

/-- Two machines in lockstep enter the same frame. -/
theorem Twins.enter (twins : config.Twins schedule id rounds (.enter run) (.enter other)) :
    Together schedule id rounds
      ((config.goto (.enter run)).step (environment.host fun _ => none))
      ((config.goto (.enter other)).step (environment.host schedule)) := by
  cases twins.focus with
  | enter runs frames =>
    cases found : run.execution.frames with
    | nil =>
      have found' : other.execution.frames = [] := frames.trans found
      refine ⟨config, .ended run .completed, .ended other .completed, ?_, ?_, ?_⟩
      · simp only [Config.step, goto_focus, enterFrame, found]
        rfl
      · simp only [Config.step, goto_focus, enterFrame, found']
        rfl
      · exact { twins with focus := .ended runs frames (by simp) }
    | cons frame rest =>
      have found' : other.execution.frames = frame :: rest := frames.trans found
      cases saved : frame.pc with
      | some pc =>
        let registers : Registers ν := ⟨frame.function, frame.base, pc, frame.top⟩
        refine ⟨config, .execute run registers, .execute other registers, ?_, ?_, ?_⟩
        · simp only [Config.step, goto_focus, enterFrame, found, saved]
          rfl
        · simp only [Config.step, goto_focus, enterFrame, found', saved]
          rfl
        · exact { twins with
            focus := .execute runs ⟨⟨frame, found, rfl, rfl⟩, ⟨frame, found', rfl, rfl⟩⟩ }
      | none =>
        let registers : Registers ν :=
          ⟨frame.function, frame.base, 0, frame.base + frame.function.locals⟩
        let stack := frame.prepareStack run.execution.stack
        have same : frame.prepareStack other.execution.stack = stack := by rw [runs.stack]
        refine ⟨config, .execute (run.setStack stack) registers,
          .execute (other.setStack stack) registers, ?_, ?_, ?_⟩
        · simp only [Config.step, goto_focus, enterFrame, found, saved, Environment.emit_host]
          rfl
        · simp only [Config.step, goto_focus, enterFrame, found', saved, Environment.emit_host,
            same]
          rfl
        · exact { twins with
            focus := .execute { runs with stack := rfl }
              ⟨⟨frame, found, rfl, rfl⟩, ⟨frame, found', rfl, rfl⟩⟩ }

/-- Two machines in lockstep abort their runs. -/
theorem Twins.abort (twins : config.Twins schedule id rounds first second)
    (runs : run.Twins id rounds config.world.domain.limits.loopBudget other)
    (function : Function ν) (pc : Nat) (reason : AbortReason) :
    Together schedule id rounds
      ((config.goto first).abortRun (environment.host fun _ => none) run function pc reason)
      ((config.goto second).abortRun (environment.host schedule) other function pc reason) := by
  rw [Environment.abortRun_host, Environment.abortRun_host]
  exact ⟨config, _, _, rfl, rfl, { twins with
    focus := .ended (runs.setFrames [] []) rfl (by simp) }⟩

/-- Two machines in lockstep go on with the next instruction. -/
theorem Twins.goes {registers : Registers ν} {rest : List (Frame ν)}
    (twins : config.Twins schedule id rounds first second)
    (runs : run.Twins id rounds config.world.domain.limits.loopBudget other)
    (inFrame : run.InFrame registers rest ∧ other.InFrame registers rest) :
    Together schedule id rounds ((config.goto first).goto (.execute run registers))
      ((config.goto second).goto (.execute other registers)) :=
  ⟨config, _, _, rfl, rfl, { twins with focus := .execute runs inFrame }⟩

/-- Two machines in lockstep leave the same frame. -/
theorem Twins.leaveFrame {registers : Registers ν} {rest : List (Frame ν)}
    (twins : config.Twins schedule id rounds first second)
    (runs : run.Twins id rounds config.world.domain.limits.loopBudget other)
    (inFrame : run.InFrame registers rest ∧ other.InFrame registers rest)
    (function : Function ν) (stack : Array Int32) :
    Together schedule id rounds
      ((config.goto first).leaveFrame (environment.host fun _ => none) run function stack)
      ((config.goto second).leaveFrame (environment.host schedule) other function stack) := by
  obtain ⟨⟨frame, frames, _⟩, ⟨frame', frames', _⟩⟩ := inFrame
  have tails : other.execution.frames.tail = run.execution.frames.tail := by
    rw [frames, frames']
    rfl
  simp only [Config.leaveFrame, Environment.emit_host]
  exact ⟨config, _, _, rfl, rfl, { twins with
    focus := .enter ((runs.setStack stack).setFrames _ _) tails }⟩

/-- Two machines in lockstep call the same script function. -/
theorem Twins.callScript {registers : Registers ν} {rest : List (Frame ν)}
    (twins : config.Twins schedule id rounds first second)
    (runs : run.Twins id rounds config.world.domain.limits.loopBudget other)
    (inFrame : run.InFrame registers rest ∧ other.InFrame registers rest)
    (next : Nat) (result : ResultKind) (callee : FunctionId) (argc : Nat) :
    Advances environment schedule id rounds
      ((config.goto first).callScript (environment.host fun _ => none) run registers next result
        callee argc)
      ((config.goto second).callScript (environment.host schedule) other registers next result
        callee argc) := by
  unfold Config.callScript
  dsimp only
  rw [goto_world, goto_world]
  cases config.world.domain.function? callee with
  | none => exact .together (twins.abort runs _ _ _)
  | some function =>
    dsimp only
    by_cases few : registers.sp < argc
    · rw [if_pos few, if_pos few]
      exact .faulted .stackBounds rfl
    · rw [if_neg few, if_neg few, inFrame.1.saveFrame, inFrame.2.saveFrame]
      let frames := (registers.move next (registers.sp - argc + result.count)).frame :: rest
      have saved : (run.setFrames frames).Twins id rounds config.world.domain.limits.loopBudget
          (other.setFrames frames) := runs.setFrames frames frames
      change Advances environment schedule id rounds (if _ ≤ frames.length then _ else _)
        (if _ ≤ frames.length then _ else _)
      by_cases deep : config.world.domain.limits.callDepth ≤ frames.length
      · rw [if_pos deep, if_pos deep, saved.stack]
        cases storeResult (run.setFrames frames).execution.stack result (registers.sp - argc) 0 with
        | error fault => exact .faulted fault rfl
        | ok stack => exact .together (twins.abort (saved.setStack stack) _ _ _)
      · rw [if_neg deep, if_neg deep]
        exact .together ⟨config, _, _, rfl, rfl, { twins with
          focus := .enter (saved.setFrames _ _) rfl }⟩

/-- Two machines in lockstep call the same native method. -/
theorem Twins.callNative {registers : Registers ν} {rest : List (Frame ν)}
    (twins : config.Twins schedule id rounds first second)
    (runs : run.Twins id rounds config.world.domain.limits.loopBudget other)
    (inFrame : run.InFrame registers rest ∧ other.InFrame registers rest) (next : Nat)
    (call : NativeCall)
    (unpaused : call.result = .void → schedule config.state.calls.length = none) :
    Advances environment schedule id rounds
      ((config.goto first).callNative (environment.host fun _ => none) run registers next call)
      ((config.goto second).callNative (environment.host schedule) other registers next call) := by
  unfold Config.callNative
  cases registers.function.method? call.method with
  | none => exact .together (twins.abort runs _ _ _)
  | some method =>
    simp only [Environment.emit_host, runs.stack]
    by_cases inside : registers.sp ≤ run.execution.stack.size
    · rw [if_pos inside, if_pos inside]
      have after : config.Twins schedule id rounds
          (.execute run (registers.move next (call.base + call.result.count)))
          (.execute other (registers.move next (call.base + call.result.count))) :=
        { twins with focus := .execute runs inFrame }
      rw [goto_pending, goto_pending, twins.pending]
      exact .calls after rfl unpaused rfl rfl
    · rw [if_neg inside]
      exact .faulted .stackBounds rfl

/-- Two machines in lockstep execute the same instruction. -/
theorem Twins.execute {registers : Registers ν}
    (twins : config.Twins schedule id rounds (.execute run registers) (.execute other registers))
    (unpaused : (config.goto (.execute run registers)).callsVoid →
      schedule config.state.calls.length = none) :
    Advances environment schedule id rounds
      ((config.goto (.execute run registers)).step (environment.host fun _ => none))
      ((config.goto (.execute other registers)).step (environment.host schedule)) := by
  cases twins.focus with
  | @execute _ _ _ rest runs inFrame =>
    obtain ⟨thread, playing⟩ := twins.runs
    have looked : config.world.domain.thread run.thread = .ok thread := by
      rw [runs.thread.1]
      exact Domain.thread_eq_ok.2 playing.present
    have looked' : config.world.domain.thread other.thread = .ok thread := by
      rw [runs.thread.2]
      exact Domain.thread_eq_ok.2 playing.present
    change Advances environment schedule id rounds (Config.execute _ (config.goto _) run registers)
      (Config.execute _ (config.goto _) other registers)
    unfold Config.execute
    dsimp only
    cases decoded : Instruction.decode registers.function.code registers.pc with
    | error reason => exact .together (twins.abort runs _ _ _)
    | ok found =>
      obtain ⟨instruction, next⟩ := found
      simp only [Environment.emit_host, goto_world, looked, looked', attempt_ok, runs.stack]
      cases does : instruction.effect ⟨config.world.domain.globals, config.world.domain.specials,
        thread.variables⟩ registers.base run.execution.stack registers.sp with
      | advance stack sp =>
        exact .together (@Twins.goes _ _ _ _ _ _ _ _ _ (registers.move next sp) rest twins
          (runs.setStack stack) inFrame)
      | writeGlobal index value sp =>
        let domain : Domain ν := { config.world.domain with
          globals := config.world.domain.globals.set! index value }
        have written : (config.setDomain domain).Twins schedule id rounds
            (.execute run registers) (.execute other registers) :=
          ⟨twins.pending, twins.owed, ⟨thread, { playing with }⟩, twins.focus⟩
        exact .together (@Twins.goes _ _ _ _ _ _ _ _ _ (registers.move next sp) rest written runs
          inFrame)
      | jump delta sp =>
        dsimp only
        cases branchTarget? next delta with
        | none => exact .together (twins.abort runs _ _ _)
        | some pc =>
          exact .together (@Twins.goes _ _ _ _ _ _ _ _ _ (registers.move pc sp) rest twins runs
            inFrame)
      | spend =>
        dsimp only
        by_cases spent : run.budget - 1 = 0
        · rw [if_pos spent, Environment.abortRun_host]
          exact .exhausted
            { twins with focus := .ended (runs.setFrames [] []) rfl (by simp) } rfl rfl
        · have more := runs.budget
          rw [if_neg spent, if_neg (by omega)]
          exact .together (@Twins.goes _ _ _ _ _ _ _ _ _ (registers.move next registers.sp) rest
            twins runs.spend inFrame)
      | native kind result method base =>
        have calls := instruction.effect_callsOf ⟨config.world.domain.globals,
          config.world.domain.specials, thread.variables⟩ registers.base registers.sp
            run.execution.stack
        rw [does] at calls
        obtain ⟨argc, rfl⟩ := calls
        refine twins.callNative runs inFrame next ⟨registers.pc, kind, method, base, result⟩ ?_
        rintro rfl
        exact unpaused (by simp only [callsVoid, goto_focus, decoded])
      | script result callee argc => exact twins.callScript runs inFrame next result callee argc
      | ret stack => exact .together (twins.leaveFrame runs inFrame registers.function stack)
      | invalid => exact .together (twins.abort runs _ _ _)
      | outOfBounds => exact .faulted .stackBounds rfl

end

end Config

end ScriptMachine

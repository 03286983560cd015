import ScriptMachine.Proofs.Safety

/-!
# Where verified code stops

A machine that dispatches a run of verified functions never stops for a misuse: the thread of the
run exists, the queue that it waits in exists, and its operand stack has every slot that is needed.
A run is aborted as one that cannot be executed only at an instruction that names an entry of a
table of the domain that is not there; requested aborts and limits give other reasons.
-/

namespace ScriptMachine

variable {ν σ : Type}

/-- Detaching a thread of a linked domain succeeds. -/
theorem Domain.Linked.detach_isOk {domain : Domain ν} (linked : domain.Linked) {id : ThreadId}
    {thread : Thread ν} (present : domain.thread? id = some thread) :
    ∃ detached, domain.detach id = .ok detached := by
  have looked := thread_eq_ok.2 present
  let detached := domain.setThread id
    { thread with suspended := false, waitingOn := none, hook := none }
  cases recorded : thread.waitingOn with
  | none =>
    refine ⟨(detached, thread.hook), bind_eq_ok.2 ⟨thread, looked, ?_⟩⟩
    rw [recorded]
    rfl
  | some queue =>
    have waiting := (linked.waits id thread queue present).1 recorded
    obtain ⟨left, unlinked⟩ := @unlink_isOk _ detached queue id (queue_exists_of_mem waiting)
    refine ⟨(left, thread.hook), bind_eq_ok.2 ⟨thread, looked, ?_⟩⟩
    rw [recorded]
    exact bind_eq_ok.2 ⟨left, unlinked, rfl⟩

/-- An instruction names an entry of a table of the domain that is not there. -/
def Instruction.Unavailable (domain : Domain ν) (thread : Thread ν) : Instruction → Prop
  | .script _ _ callee => domain.function? ⟨callee.toNat⟩ = none
  | instruction => instruction.Misses (domain.variablesOf thread)

namespace Config

/-- The machine dispatches a run: it enters or leaves a frame, executes an instruction, ends the
run, or goes on with it after a native method or the hook of an abort. -/
def Dispatching (config : Config ν σ) : Prop :=
  match config.focus, config.pending with
  | .enter _, _ | .execute _ _, _ | .ended _ _, _ => True
  | .body (.done _), .calling _ _ _ :: _ => True
  | .body (.done _), .aborting (.stop _ _ _ _) :: _ => True
  | _, _ => False

/-- The machine has not stopped for a misuse. -/
def Lives (config : Config ν σ) : Prop := ∀ fault, config.focus ≠ .faulted fault

/-- No run has just been aborted as one that cannot be executed. -/
def Valid (config : Config ν σ) : Prop :=
  ∀ run info, config.focus = .ended run (.aborted info) → info.reason ≠ .invalidBytecode

section

variable {host : Host ν σ} {config : Config ν σ} {run : Run ν σ} {registers : Registers ν}

/-- Storing a result inside the operand stack succeeds. -/
theorem storeResult_isOk {stack : Array Int32} {result : ResultKind} {base : Nat} (value : Int32)
    (inside : base + result.count ≤ stack.size) :
    ∃ stored, storeResult stack result base value = .ok stored := by
  cases result with
  | void => exact ⟨stack, rfl⟩
  | int =>
    simp only [ResultKind.count] at inside
    exact ⟨_, if_pos inside⟩

/-- The thread of the innermost run exists. -/
theorem Nests.present {held : List Place} (nests : config.Nests (run.place :: held)) :
    ∃ thread, config.world.domain.thread? run.thread = some thread := by
  obtain ⟨thread, found, _⟩ := (nests.domain.running run.thread).1 (by simp [Run.place])
  exact ⟨thread, found⟩

/-- The thread of a run that is at hand exists. -/
theorem Nested.present (nested : config.Nested) (handed : config.focus.run? = some run) :
    ∃ thread, config.world.domain.thread? run.thread = some thread := by
  rcases nested with ⟨fault, faulted⟩ | ⟨nests, _⟩
  · rw [faulted] at handed
    cases handed
  · rw [Focus.place?, handed] at nests
    exact nests.present

/-! ## Going on -/

/-- An abort of a run lives. -/
theorem lives_abortRun (function : Function ν) (pc : Nat) (reason : AbortReason) :
    (config.abortRun host run function pc reason).Lives := by simp [Lives, abortRun]

/-- Entering a frame lives. -/
theorem lives_enterFrame : (config.enterFrame host run).Lives := by
  unfold enterFrame
  split
  · simp [Lives]
  · split <;> simp [Lives]

/-- Ending a run lives. -/
theorem lives_finishRun (nests : config.Nests [run.place]) (outcome : Outcome) :
    (config.finishRun host run outcome).Lives := by
  obtain ⟨thread, present⟩ := nests.present
  unfold finishRun
  dsimp only
  rw [Domain.thread_eq_ok.2 present, attempt_ok]
  simp [Lives]

/-- Calling a native method lives. -/
theorem lives_callNative (next : Nat) (call : NativeCall) (at' : run.At registers) :
    (config.callNative host run registers next call).Lives := by
  obtain ⟨_, height, room⟩ := at'.fits.bounds
  have inside : registers.sp ≤ run.execution.stack.size := Nat.le_trans height room
  unfold callNative
  split
  · exact lives_abortRun _ _ _
  · simp [Lives, inside]

/-- Calling a script function lives. -/
theorem lives_callScript (next : Nat) (result : ResultKind) (callee : FunctionId) (argc : Nat)
    (enough : argc ≤ registers.sp)
    (inside : registers.sp - argc + result.count ≤ run.execution.stack.size) :
    (config.callScript host run registers next result callee argc).Lives := by
  unfold callScript
  split
  · exact lives_abortRun _ _ _
  · split
    · omega
    · dsimp only
      split
      · rw [Run.stack_saveFrame]
        obtain ⟨stored, found⟩ := storeResult_isOk 0 inside
        rw [found, attempt_ok]
        exact lives_abortRun _ _ _
      · simp [Lives]

/-- Executing an instruction lives. -/
theorem lives_execute (nests : config.Nests [run.place]) (at' : run.At registers) :
    (config.execute host run registers).Lives := by
  obtain ⟨thread, present⟩ := nests.present
  obtain ⟨instruction, ready⟩ := at'.fits.ready
  obtain ⟨_, missing⟩ | ⟨_, _, executed⟩ := execute_cases host config at' ready
  · rw [missing] at present
    cases present
  · generalize config.execute host run registers = after at executed
    cases executed with
    | go sized leads => simp [Lives]
    | write value present leads => simp [Lives]
    | spend leads => simp [Lives]
    | loopLimit => exact lives_abortRun _ _ _
    | native called height leads => exact lives_callNative _ _ at'
    | script called enough height leads =>
      obtain ⟨_, _, room⟩ := at'.fits.bounds
      have inside := Nat.le_trans ready.room room
      exact lives_callScript _ _ _ _ enough (by rw [height]; exact inside)
    | ret sized => simp [Lives, leaveFrame]
    | invalid misses => exact lives_abortRun _ _ _

/-- Stopping a run after its thread has been detached lives. -/
theorem lives_detach (linked : config.world.domain.Linked) {id : ThreadId} {thread : Thread ν}
    (present : config.world.domain.thread? id = some thread) (function : Function ν) (pc : Nat)
    (reason : AbortReason) : (config.detach host id (.stop run function pc reason)).Lives := by
  obtain ⟨⟨domain, hook⟩, detached⟩ := linked.detach_isOk present
  unfold Config.detach
  rw [detached, attempt_ok]
  dsimp only
  split
  · exact lives_abortRun _ _ _
  · exact lives_abortRun _ _ _
  · simp [Lives]

/-- Going on after a native method lives. -/
theorem lives_returnNative (linked : config.world.domain.Linked)
    (nests : config.Nests [run.place]) (at' : run.At registers) {call : NativeCall}
    (height : registers.sp = call.base + call.result.count) (value : Int32) :
    (config.returnNative host run registers call value).Lives := by
  obtain ⟨thread, present⟩ := nests.present
  obtain ⟨_, top, room⟩ := at'.fits.bounds
  obtain ⟨stored, found⟩ := storeResult_isOk value
    (by omega : call.base + call.result.count ≤ run.execution.stack.size)
  unfold returnNative
  dsimp only
  generalize emitted : config.emit host _ = shown
  have domain : shown.world.domain = config.world.domain := by rw [← emitted, emit_world]
  rw [← domain] at linked present
  have looked : shown.world.domain.thread (run.setStack stored).thread = .ok thread :=
    Domain.thread_eq_ok.2 present
  rw [found, attempt_ok, looked, attempt_ok]
  split
  · have honored : Domain.Linked (shown.world.domain.setThread run.thread
        { thread with pendingAbort := none }) := linked.setThread present rfl rfl rfl
    have kept := Domain.thread?_setThread present { thread with pendingAbort := none } run.thread
    rw [if_pos rfl] at kept
    exact @lives_detach _ _ host (shown.setDomain _) (run.setStack stored) honored _ _ kept _ _ _
  · split
    · simp [Lives]
    · simp [Lives]

/-- A dispatching machine lives on. -/
theorem lives_step (linked : config.world.domain.Linked) (nested : config.Nested)
    (sound : config.Sound) (dispatching : config.Dispatching) : (config.step host).Lives := by
  obtain ⟨fault, faulted⟩ | ⟨nests, _⟩ := nested
  · simp [Dispatching, faulted] at dispatching
  obtain ⟨world, state, focus, pending⟩ := config
  cases focus with
  | enter run => exact lives_enterFrame
  | execute run registers => exact lives_execute nests sound.focus.2
  | ended run outcome => exact lives_finishRun nests outcome
  | finished value | faulted fault => cases dispatching
  | body body =>
    cases body with
    | ask request next | modify change next | crash fault => cases dispatching
    | done value =>
      cases pending with
      | nil => cases dispatching
      | cons work pending =>
        cases work with
        | calling run registers call =>
          obtain ⟨_, at', height⟩ := sound.pending _ List.mem_cons_self
          let below : Config ν σ := { world, state, focus := .body (.done value), pending }
          have innermost : below.Nests [run.place] := ⟨nests.domain, fun next later =>
            nests.requested next (List.mem_cons_of_mem _ later)⟩
          exact @lives_returnNative _ _ host below run registers linked innermost at' call height
            value
        | aborting next =>
          cases next with
          | reply next | start id function purpose next => cases dispatching
          | stop run function pc reason => exact lives_abortRun function pc reason

/-! ## Reasons to stop -/

/-- A run that has just been aborted was in a function of this name and at this offset. -/
def Blames (config : Config ν σ) (function : String) (pc : Nat) : Prop :=
  ∀ run info, config.focus = .ended run (.aborted info) → info.function = function ∧ info.pc = pc

/-- An abort of a run blames the given function and offset. -/
theorem blames_abortRun (function : Function ν) (pc : Nat) (reason : AbortReason) :
    (config.abortRun host run function pc reason).Blames function.name pc := by
  rintro _ info ended
  simp only [abortRun, Focus.ended.injEq, Outcome.aborted.injEq] at ended
  obtain ⟨_, rfl⟩ := ended
  exact ⟨rfl, rfl⟩

/-- Executing an instruction blames no other one. -/
theorem blames_execute :
    (config.execute host run registers).Blames registers.function.name registers.pc := by
  let blames (after : Config ν σ) := after.Blames registers.function.name registers.pc
  refine @execute_induction _ _ blames _ _ _ _ (blames_abortRun _ _ _) fun _ _ _ _ _ => {
    stops _ := by simp [blames, Blames]
    aborts _ := blames_abortRun _ _ _
    goes _ _ _ _ := by simp [blames, Blames]
    writes _ _ _ _ := by simp [blames, Blames]
    native _ _ _ _ _ := ?_
    script _ _ _ _ := @callScript_induction _ _ blames _ _ _ _ _ _ _ _ (by simp [blames, Blames])
      (fun _ => blames_abortRun _ _ _)
      fun _ _ _ => ⟨fun _ _ _ => blames_abortRun _ _ _, by simp [blames, Blames]⟩
    leaves _ _ _ := by simp [blames, Blames, leaveFrame] }
  unfold callNative
  split
  · exact blames_abortRun _ _ _
  · dsimp only
    split <;> simp [blames, Blames]

/-- A run that is aborted for another reason. -/
theorem valid_abortRun (function : Function ν) (pc : Nat) {reason : AbortReason}
    (other : reason ≠ .invalidBytecode) :
    (config.abortRun host run function pc reason).Valid := by
  rintro _ info ended
  simp only [abortRun, Focus.ended.injEq, Outcome.aborted.injEq] at ended
  obtain ⟨_, rfl⟩ := ended
  exact other

/-- Starting a run aborts none. -/
theorem valid_launch (id : ThreadId) (purpose : Purpose) (reply : Answer ν → Body ν σ) :
    (config.launch host id purpose reply).Valid := by
  refine attempt_induction (by simp [Valid]) fun thread _ => ?_
  split
  · simp [Valid]
  · simp [Valid]

/-- What follows a requested abort aborts a run for no other reason. -/
theorem valid_afterAbort {next : AfterAbort ν σ} (requested : next.Requested) :
    (config.afterAbort host next).Valid := by
  cases next with
  | reply next => simp [Valid, afterAbort]
  | stop run function pc reason => exact valid_abortRun function pc requested
  | start id function purpose next =>
    refine attempt_induction (by simp [Valid]) fun thread _ => ?_
    split
    · simp [Valid]
    · cases purpose with
      | none => simp [Valid]
      | some purpose => exact valid_launch id purpose next

/-- Detaching a thread aborts a run for no other reason than the requested one. -/
theorem valid_detach {next : AfterAbort ν σ} (requested : next.Requested) (id : ThreadId) :
    (config.detach host id next).Valid := by
  refine attempt_induction (by simp [Valid]) fun ⟨domain, hook⟩ _ => ?_
  dsimp only
  split
  · exact valid_afterAbort requested
  · exact valid_afterAbort requested
  · simp [Valid]

/-- Aborting a thread on request. -/
theorem valid_abort {next : AfterAbort ν σ} (requested : next.Requested) (id : ThreadId)
    (reason : AbortReason) : (config.abort host id reason next).Valid :=
  attempt_induction (by simp [Valid]) fun _ _ => valid_detach requested id

/-- Giving a thread a fresh frame aborts no run. -/
theorem valid_start (id : ThreadId) (function : FunctionId) (purpose : Option Purpose)
    (next : Answer ν → Body ν σ) : (config.start host id function purpose next).Valid :=
  start_induction (by simp [Valid]) (by simp [Valid]) (by simp [Valid]) fun _ _ _ _ _ _ =>
    ⟨fun _ => @valid_abort _ _ _ _ (.start id _ purpose next) trivial id .requested,
      fun _ _ => valid_afterAbort trivial⟩

/-- Continuing a thread aborts no run. -/
theorem valid_continueThread (id : ThreadId) (purpose : Purpose) (next : Answer ν → Body ν σ) :
    (config.continueThread host id purpose next).Valid := by
  refine attempt_induction (by simp [Valid]) fun thread _ => ?_
  dsimp only
  split
  · simp [Valid]
  · exact valid_launch id purpose next

/-- Resuming a thread aborts no run. -/
theorem valid_resume (id : ThreadId) (next : Answer ν → Body ν σ) :
    (config.resume host id next).Valid :=
  resume_induction (by simp [Valid]) (by simp [Valid]) fun _ _ _ _ _ =>
    valid_continueThread id .plain next

/-- Waking a thread aborts no run. -/
theorem valid_wake (queue : QueueId) (value : Option Int32) (next : Answer ν → Body ν σ) :
    (config.wake host queue value next).Valid :=
  wake_induction (by simp [Valid]) (by simp [Valid]) (by simp [Valid]) fun _ _ _ _ _ _ _ _ =>
    ⟨by simp [Valid], by simp [Valid], fun _ _ => valid_continueThread _ .woken next⟩

/-- Carrying out a request aborts no run but on request. -/
theorem valid_perform (request : Request ν) (next : Answer ν → Body ν σ) :
    (config.perform host request next).Valid := by
  cases request with
  | observe => simp [Valid, perform]
  | update update => exact attempt_induction (by simp [Valid]) fun _ _ => by simp [Valid]
  | start id function => exact valid_start id function none next
  | run id function => exact valid_start id function (some .plain) next
  | runInt id function => exact valid_start id function (some .result) next
  | resume id => exact valid_resume id next
  | abort id => exact @valid_abort _ _ _ _ (.reply next) trivial id .requested
  | faultActive error =>
    unfold perform
    dsimp only
    split
    · simp [Valid]
    · exact @valid_abort _ _ _ _ (.reply next) trivial _ _
  | wake queue value => exact valid_wake queue value next

/-- Entering a frame aborts no run. -/
theorem valid_enterFrame : (config.enterFrame host run).Valid := by
  unfold enterFrame
  split
  · simp [Valid]
  · split <;> simp [Valid]

/-- Ending a run aborts none. -/
theorem valid_finishRun (outcome : Outcome) : (config.finishRun host run outcome).Valid :=
  attempt_induction (by simp [Valid]) fun _ _ => by simp [Valid]

/-- Going on after a native method aborts a run only on request. -/
theorem valid_returnNative (nests : config.Nests [run.place]) (call : NativeCall) (value : Int32) :
    (config.returnNative host run registers call value).Valid := by
  refine returnNative_induction fun shown emitted => ⟨by simp [Valid], fun stack thread _ present =>
    ⟨fun reason asked => ?_, by simp [Valid], by simp [Valid]⟩⟩
  rw [← emitted, emit_world] at present
  have requested := nests.domain.requested _ thread reason present asked
  exact @valid_detach _ _ _ _ (.stop (run.setStack stack) _ _ _) requested.2 _

/-- Going on after a body aborts a run only on request. -/
theorem valid_finishBody (nests : config.Nests []) (value : Int32) :
    (config.finishBody host value).Valid := by
  unfold finishBody
  split
  · simp [Valid]
  · rename_i run registers call pending waiting
    refine valid_returnNative ⟨?_, fun next later => ?_⟩ call value
    · simpa [waiting] using nests.domain
    · exact nests.requested next (waiting ▸ List.mem_cons_of_mem _ later)
  · rename_i next pending waiting
    exact valid_afterAbort (nests.requested next (by simp [waiting]))

/-- Calling a native method that the function has aborts no run. -/
theorem valid_callNative (next : Nat) (call : NativeCall)
    (there : (registers.function.method? call.method).isSome) :
    (config.callNative host run registers next call).Valid := by
  unfold callNative
  split
  · rename_i missing
    simp [missing] at there
  · dsimp only
    split
    · simp [Valid]
    · simp [Valid]

/-- Calling a function of the domain aborts a run only for the depth of its frames. -/
theorem valid_callScript (next : Nat) (result : ResultKind) (callee : FunctionId) (argc : Nat)
    (there : (config.world.domain.function? callee).isSome) :
    (config.callScript host run registers next result callee argc).Valid := by
  refine callScript_induction (by simp [Valid]) (fun missing => ?_)
    fun _ _ _ => ⟨fun _ _ _ => valid_abortRun _ _ (by simp), by simp [Valid]⟩
  simp [missing] at there

/-- A run is about to execute an instruction, in a function of this name and at this offset, that
names an entry of a table of the domain that is not there. -/
def StuckAt (config : Config ν σ) (function : String) (pc : Nat) : Prop :=
  ∃ run registers instruction next thread, config.focus = .execute run registers ∧
    registers.function.name = function ∧ registers.pc = pc ∧
    Instruction.decode registers.function.code pc = .ok (instruction, next) ∧
    config.world.domain.thread? run.thread = some thread ∧
    instruction.Unavailable config.world.domain thread

/-- Executing an instruction that has all that it names aborts a run for a limit at most. -/
theorem valid_execute (at' : run.At registers) (focus : config.focus = .execute run registers)
    (free : ¬config.StuckAt registers.function.name registers.pc) :
    (config.execute host run registers).Valid := by
  obtain ⟨instruction, ready⟩ := at'.fits.ready
  have domain : (config.shown host run registers instruction).world.domain =
      config.world.domain := by rw [shown, emit_world]
  obtain ⟨same, _⟩ | ⟨thread, present, executed⟩ := execute_cases host config at' ready
  · rw [same]
    simp [Valid]
  · have available : ¬instruction.Unavailable config.world.domain thread := fun lacks =>
      free ⟨run, registers, instruction, _, thread, focus, rfl, rfl, ready.decode, present, lacks⟩
    generalize config.execute host run registers = after at executed
    cases executed with
    | go sized leads => simp [Valid]
    | write value present leads => simp [Valid]
    | spend leads => simp [Valid]
    | loopLimit => exact valid_abortRun _ _ (by simp)
    | native called height leads =>
      have inside := ready.inRange
      rw [called] at inside
      exact valid_callNative _ _ (by simpa [Function.method?, Definition.InRange] using inside)
    | script called enough height leads =>
      rw [called] at available
      refine valid_callScript _ _ _ _ ?_
      rw [domain]
      exact Option.isSome_iff_ne_none.2 available
    | ret sized => simp [Valid, leaveFrame]
    | invalid misses =>
      rw [domain] at misses
      refine absurd ?_ available
      cases instruction with
      | script result argc callee => cases misses
      | _ => exact misses

/-- A step aborts a run as one that cannot be executed only where the run is stuck. -/
theorem valid_step (nested : config.Nested) (sound : config.Sound) {stopped : Run ν σ}
    {info : AbortInfo} (ended : (config.step host).focus = .ended stopped (.aborted info))
    (invalid : info.reason = .invalidBytecode) : config.StuckAt info.function info.pc := by
  obtain ⟨fault, faulted⟩ | ⟨nests, _⟩ := nested
  · simp [step, faulted] at ended
  have valid (ended' : (config.step host).Valid) : config.StuckAt info.function info.pc :=
    absurd invalid (ended' stopped info ended)
  unfold step at ended valid
  split at ended
  all_goals rename_i found; simp only [found] at ended valid nests
  · exact valid (valid_finishBody nests _)
  · exact valid (valid_perform _ _)
  · cases ended
  · cases ended
  · exact valid valid_enterFrame
  · rename_i run registers
    obtain ⟨function, pc⟩ := blames_execute _ _ ended
    have focus := sound.focus
    rw [found] at focus
    rw [function, pc] at valid ⊢
    by_cases stuck : config.StuckAt registers.function.name registers.pc
    · exact stuck
    · exact valid (valid_execute focus.2 found stuck)
  · exact valid (valid_finishRun _)
  · simp at ended
  · simp at ended

end

/-- The execution belongs to a thread, to the run at hand, or to a run that waits for a body. -/
def Holds (config : Config ν σ) (execution : Execution ν) : Prop :=
  (∃ id thread, config.world.domain.thread? id = some thread ∧
      thread.execution = some execution) ∨
    ∃ run : Run ν σ, run.execution = execution ∧
      (config.focus.run? = some run ∨ ∃ work ∈ config.pending, work.run? = some run)

/-- Every execution in a sound configuration is sound. -/
theorem Sound.execution {config : Config ν σ} (sound : config.Sound) {execution : Execution ν}
    (holds : config.Holds execution) : execution.Sound := by
  obtain ⟨id, thread, present, held⟩ | ⟨run, rfl, here | ⟨work, waiting, here⟩⟩ := holds
  · exact sound.domain.executions id thread execution present held
  · have focus := sound.focus
    cases found : config.focus with
    | enter other | ended other outcome =>
      rw [found] at here focus
      cases here
      exact focus.execution
    | execute other registers =>
      rw [found] at here focus
      cases here
      exact focus.1.execution
    | body body | finished value | faulted fault =>
      rw [found] at here
      cases here
  · have kept := sound.pending work waiting
    cases work with
    | calling other registers call =>
      cases here
      exact kept.1.execution
    | aborting next =>
      cases next with
      | reply next | start id function purpose next => cases here
      | stop other function pc reason =>
        cases here
        exact kept.execution

end Config

/-- A frame that is to be continued at an offset is at the start of an instruction there, with a
height within its part of the operand stack. -/
structure Frame.InBounds (frame : Frame ν) (pc size : Nat) : Prop where
  boundary : frame.function.code.Boundary pc
  low : frame.base + frame.function.locals ≤ frame.top
  high : frame.top ≤ frame.base + frame.function.stackSlots
  room : frame.base + frame.function.stackSlots ≤ size

/-- A run is at the start of an instruction, with a height within the part of the operand stack of
its innermost frame, and the instruction touches no slot outside the operand stack and takes no
operand from below those of the frame. -/
structure Run.InBounds (run : Run ν σ) (registers : Registers ν) : Prop where
  boundary : registers.function.code.Boundary registers.pc
  low : registers.base + registers.function.locals ≤ registers.sp
  high : registers.sp ≤ registers.base + registers.function.stackSlots
  room : registers.base + registers.function.stackSlots ≤ run.execution.stack.size
  operands : ∀ instruction next,
    Instruction.decode registers.function.code registers.pc = .ok (instruction, next) →
    registers.base + registers.function.locals + instruction.stackEffect.pops ≤ registers.sp ∧
      ∀ slot ∈ instruction.slots registers.base registers.sp, slot < run.execution.stack.size

/-- Registers that fit are within bounds. -/
theorem Run.At.inBounds {run : Run ν σ} {registers : Registers ν} (at' : run.At registers) :
    run.InBounds registers := by
  obtain ⟨low, high, room⟩ := at'.fits.bounds
  refine ⟨at'.fits.boundary, low, high, room, fun instruction next decoded => ?_⟩
  obtain ⟨settled, ready⟩ := at'.fits.ready
  rw [ready.decode] at decoded
  cases decoded
  exact ⟨ready.enough, ready.slots at'.fits⟩

namespace Config

/-- Whatever the host does, if it registers verified functions only: a machine that dispatches a run
never stops for a misuse; the run at hand, the runs that wait for native methods and all frames that
are to be continued are at the start of instructions and within their parts of the operand stack;
and a step aborts a run as one that cannot be executed only where it is stuck for an entry of a
table that is not there. -/
theorem verified_code_is_safe {host : Host ν σ} (hosted : host.Asks Request.RegistersVerified)
    {config : Config ν σ} (reached : config.Reachable host Request.RegistersVerified) :
    (config.Dispatching → ∀ fault, (config.step host).focus ≠ .faulted fault) ∧
      (∀ run registers, config.focus = .execute run registers → run.InBounds registers) ∧
      (∀ run registers call, .calling run registers call ∈ config.pending →
        run.InBounds registers) ∧
      (∀ execution, config.Holds execution → ∀ frame ∈ execution.frames, ∀ pc,
        frame.pc = some pc → frame.InBounds pc execution.stack.size) ∧
      ∀ run info, (config.step host).focus = .ended run (.aborted info) →
        info.reason = .invalidBytecode → config.StuckAt info.function info.pc := by
  have sound := sound_of_reachable hosted reached
  have nested := nested_of_reachable reached
  refine ⟨lives_step (linked_of_reachable reached) nested sound, fun run registers found => ?_,
    fun run registers call waiting => (sound.pending _ waiting).2.1.inBounds,
    fun execution holds frame listed pc saved => ?_, fun run info => valid_step nested sound⟩
  · have focus := sound.focus
    rw [found] at focus
    exact focus.2.inBounds
  · have fits := (sound.execution holds frame listed).2 pc saved
    obtain ⟨low, high, room⟩ := fits.bounds
    exact ⟨fits.boundary, low, high, room⟩

/-- A function that calls its native method with one argument and answers what it answers. -/
def awaiting : Definition Unit where
  name := "awaiting"
  code := #[0x0A, 7, 0x2A, 1, 0, 0x2E]
  methods := #[()]

/-- A function that adds the answer of the first function of the domain to an operand. -/
def adding : Definition Unit where
  name := "adding"
  code := #[0x0A, 3, 0x2C, 0, 0, 0x0B, 0x2E]

/-- The function that verification makes of `awaiting`. -/
theorem verified_awaiting : (Function.trusted awaiting 1).Verified := by
  have slots : awaiting.verify {} = .ok 1 := by cbv
  exact .of_verify slots

/-- The function that verification makes of `adding`. -/
theorem verified_adding : (Function.trusted adding 2).Verified := by
  have slots : adding.verify {} = .ok 2 := by cbv
  exact .of_verify slots

/-- A host whose native methods suspend the thread that calls them. -/
def suspendingHost : Host Unit Unit where
  native _ _ := .bind (.update (.suspendActive none)) fun _ => .done 0
  onAbort _ _ := .done 0
  onLimit _ _ state := state
  onEvent _ _ state := state

/-- A nested call is suspended, is handed a result, and goes on. -/
def resuming : Program Unit Unit Int32 := do
  let _ ← Program.update (.addFunction (.trusted awaiting 1))
  let _ ← Program.update (.addFunction (.trusted adding 2))
  let _ ← Program.update .createThread
  let _ ← Program.request (.run ⟨0⟩ ⟨1⟩)
  let _ ← Program.update (.supplyResult ⟨0⟩ 9)
  let _ ← Program.request (.resume ⟨0⟩)
  return 0

/-- Where an instruction is about to be executed. -/
def registers? (config : Config ν σ) : Option (Registers ν) :=
  match config.focus with
  | .execute _ registers => some registers
  | _ => none

/-- A run is at hand where an instruction is about to be executed. -/
theorem registers?_eq_some {config : Config ν σ} {registers : Registers ν}
    (found : config.registers? = some registers) :
    ∃ run, config.focus = .execute run registers := by
  unfold registers? at found
  split at found
  · rename_i run here focus
    have same : here = registers := Option.some.inj found
    rw [← same]
    exact ⟨run, focus⟩
  · cases found

/-- A run of this thread, with these frames and this operand stack, is at hand there. -/
theorem exists_executes {config : Config ν σ} {registers : Registers ν} {id : ThreadId}
    {execution : Execution ν} (found : config.registers? = some registers)
    (runs : config.focus.run?.map (fun run => (run.thread, run.execution)) =
      some (id, execution)) :
    ∃ run, config.focus = .execute run registers ∧ run.thread = id ∧ run.execution = execution := by
  obtain ⟨run, focus⟩ := registers?_eq_some found
  rw [focus] at runs
  obtain ⟨thread, same⟩ := Prod.mk.inj (Option.some.inj runs)
  exact ⟨run, focus, thread, same⟩

/-- The nested call goes on within bounds. -/
theorem verified_code_is_safe_resumed :
    let config := (Config.initial {} () resuming).run suspendingHost 16
    suspendingHost.Asks Request.RegistersVerified ∧
      config.Reachable suspendingHost Request.RegistersVerified ∧
      ∃ run registers, config.focus = .execute run registers ∧ registers.base = 1 ∧
        registers.sp = 2 ∧ run.InBounds registers := by
  have hosted : suspendingHost.Asks Request.RegistersVerified :=
    ⟨fun _ _ => ⟨trivial, fun _ => trivial⟩, fun _ _ => trivial⟩
  have asks : resuming.Asks Request.RegistersVerified :=
    ⟨verified_awaiting, fun _ => ⟨verified_adding, fun _ => ⟨trivial, fun _ => ⟨trivial, fun _ =>
      ⟨trivial, fun _ => ⟨trivial, fun _ => trivial⟩⟩⟩⟩⟩⟩
  have reached := @Reachable.run _ _ suspendingHost _ _ (.initial () resuming asks) 16
  refine ⟨hosted, reached, ?_⟩
  have resumed : ((Config.initial {} () resuming).run suspendingHost 16).registers?.map
      (fun registers => (registers.base, registers.sp)) = some (1, 2) := by decide +kernel
  obtain ⟨registers, found, place⟩ := Option.map_eq_some_iff.1 resumed
  obtain ⟨run, focus⟩ := registers?_eq_some found
  have base : registers.base = 1 := congrArg Prod.fst place
  have height : registers.sp = 2 := congrArg Prod.snd place
  have safe := (verified_code_is_safe hosted reached).2.1
  exact ⟨run, registers, focus, base, height, safe run registers focus⟩

end Config

end ScriptMachine

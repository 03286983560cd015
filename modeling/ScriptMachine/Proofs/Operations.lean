import ScriptMachine.Proofs.Reachable
import ScriptMachine.Proofs.Tables

/-!
# How operations of the machine go

A property of configurations holds of what an operation comes to if it holds of each of the
outcomes that the operation can have. What an operation has checked on the way to an outcome is at
hand there. Proofs about steps rest on this and need not follow the operations through.
-/

namespace ScriptMachine

variable {ν σ : Type}

/-! ## Saving the innermost frame of a run -/

namespace Run

@[simp] theorem thread_saveFrame (run : Run ν σ) (pc top : Nat) :
    (run.saveFrame pc top).thread = run.thread := by
  unfold saveFrame
  split <;> rfl

@[simp] theorem reply_saveFrame (run : Run ν σ) (pc top : Nat) :
    (run.saveFrame pc top).reply = run.reply := by
  unfold saveFrame
  split <;> rfl

@[simp] theorem budget_saveFrame (run : Run ν σ) (pc top : Nat) :
    (run.saveFrame pc top).budget = run.budget := by
  unfold saveFrame
  split <;> rfl

@[simp] theorem stack_saveFrame (run : Run ν σ) (pc top : Nat) :
    (run.saveFrame pc top).execution.stack = run.execution.stack := by
  unfold saveFrame
  split <;> rfl

@[simp] theorem length_saveFrame (run : Run ν σ) (pc top : Nat) :
    (run.saveFrame pc top).execution.frames.length = run.execution.frames.length := by
  unfold saveFrame
  split
  · rfl
  · rename_i frames
    simp [setFrames, frames]

end Run

namespace Config

variable {property : Config ν σ → Prop} {host : Host ν σ} {config : Config ν σ}

/-! ## Requests -/

section

variable {id : ThreadId} {next : Answer ν → Body ν σ}

/-- A thread that is to get a fresh frame is aborted first if it is suspended or has frames. -/
theorem start_induction {called : FunctionId} {purpose : Option Purpose}
    (stopped : ∀ fault, property (config.goto (.faulted fault)))
    (unknown : config.world.domain.function? called = none →
      property (config.goto (.body (next (.refused (.thread (.unknownFunction called)))))))
    (running : ∀ thread, config.world.domain.thread? id = some thread → thread.execution = none →
      property (config.goto (.body (next (.refused (.thread .running))))))
    (found : ∀ function thread execution, config.world.domain.function? called = some function →
      config.world.domain.thread? id = some thread → thread.execution = some execution →
      (thread.suspended = true ∨ execution.frames ≠ [] →
        property (config.abort host id .requested (.start id function purpose next))) ∧
      (thread.suspended = false → execution.frames = [] →
        property (config.afterAbort host (.start id function purpose next)))) :
    property (config.start host id called purpose next) := by
  unfold start
  split
  · exact unknown ‹_›
  · rename_i function registered
    refine attempt_induction stopped fun thread looked => ?_
    have present := Domain.thread_eq_ok.1 looked
    split
    · exact running thread present ‹_›
    · rename_i execution held
      obtain ⟨aborted, started⟩ := found function thread execution registered present held
      dsimp only
      split
      · rename_i occupied
        exact aborted (by simpa using occupied)
      · rename_i idle
        simp only [Bool.not_eq_true, Bool.or_eq_false_iff, Bool.not_eq_false',
          List.isEmpty_iff] at idle
        exact started idle.1 idle.2

/-- A function is not started on a thread that runs. -/
theorem start_refused {called : FunctionId} {function : Function ν} {thread : Thread ν}
    (purpose : Option Purpose) (registered : config.world.domain.function? called = some function)
    (present : config.world.domain.thread? id = some thread) (taken : thread.execution = none) :
    config.start host id called purpose next =
      config.goto (.body (next (.refused (.thread .running)))) := by
  simp only [start, registered, Domain.thread_eq_ok.2 present, attempt_ok, taken]

/-- A thread is resumed if it does not run, is suspended and waits in no queue. -/
theorem resume_induction
    (stopped : ∀ fault, property (config.goto (.faulted fault)))
    (refused : ∀ error, property (config.goto (.body (next (.refused (.thread error))))))
    (continued : ∀ thread, config.world.domain.thread? id = some thread →
      ¬thread.isRunning = true → thread.suspended = true → thread.waitingOn = none →
      property (config.continueThread host id .plain next)) :
    property (config.resume host id next) := by
  refine attempt_induction stopped fun thread looked => ?_
  dsimp only
  split
  · exact refused .running
  · rename_i idle
    split
    · exact refused .notSuspended
    · rename_i suspended
      split
      · exact refused .enqueued
      · rename_i free
        exact continued thread (Domain.thread_eq_ok.1 looked) idle (by simpa using suspended)
          (by simpa using free)

/-- The first thread of a queue is woken if it does not run: it leaves the queue, is handed a result
and goes on. -/
theorem wake_induction {queue : QueueId} {value : Option Int32}
    (stopped : ∀ fault, property (config.goto (.faulted fault)))
    (nobody : config.world.domain.waitersOf queue = [] →
      property (config.goto (.body (next (.woke none)))))
    (running : ∀ head thread, (config.world.domain.waitersOf queue).head? = some head →
      config.world.domain.thread? head = some thread → thread.isRunning = true →
      property (config.goto (.body (next (.refused (.thread .running))))))
    (popped : ∀ head thread domain popped,
      (config.world.domain.waitersOf queue).head? = some head →
      config.world.domain.thread? head = some thread → ¬thread.isRunning = true →
      config.world.domain.popWaiter queue = .ok (domain, popped) →
      (∀ fault, property ((config.setDomain domain).goto (.faulted fault))) ∧
      (∀ error, handResult domain head value = .ok (.error error) →
        property ((config.setDomain domain).goto (.body (next (.refused (.thread error)))))) ∧
      ∀ supplied, handResult domain head value = .ok (.ok supplied) →
        property (((config.setDomain domain).setDomain supplied).continueThread host head .woken
          next)) :
    property (config.wake host queue value next) := by
  refine attempt_induction stopped fun first asked => ?_
  have first := Domain.nextWaiter?_eq_ok asked
  split
  · exact nobody (List.head?_eq_none_iff.1 first)
  · rename_i head
    refine attempt_induction stopped fun thread looked => ?_
    have present := Domain.thread_eq_ok.1 looked
    split
    · exact running head thread first present ‹_›
    · refine attempt_induction stopped fun ⟨domain, id⟩ taken => ?_
      obtain ⟨faulted, refused, continued⟩ := popped head thread domain id first present ‹_› taken
      refine attempt_induction faulted fun result handed => ?_
      cases result with
      | error error => exact refused error handed
      | ok supplied => exact continued supplied handed

end

/-! ## Calls -/

section

variable {run : Run ν σ} {registers : Registers ν}

/-- The answer of a native method is stored. A thread whose abort has been requested in the meantime
is aborted, and a suspended one returns to whoever has started the run. -/
theorem returnNative_induction {call : NativeCall} {value : Int32}
    (answered : ∀ shown, config.emit host (.scopeExit (.native call.kind call.method)
        registers.function call.pc) = shown →
      (∀ fault, property (shown.goto (.faulted fault))) ∧
      ∀ stack thread, storeResult run.execution.stack call.result call.base value = .ok stack →
        shown.world.domain.thread? run.thread = some thread →
        (∀ reason, thread.pendingAbort = some reason →
          property ((shown.setDomain (shown.world.domain.setThread run.thread
            { thread with pendingAbort := none })).detach host run.thread
              (.stop (run.setStack stack) registers.function call.pc reason))) ∧
        (thread.pendingAbort = none → thread.suspended = true →
          property ((shown.emit host (.suspend run.thread registers.function call.pc)).goto
            (.ended ((run.setStack stack).saveFrame registers.pc registers.sp) .suspended))) ∧
        (thread.pendingAbort = none → thread.suspended = false →
          property (shown.goto (.execute (run.setStack stack) registers)))) :
    property (config.returnNative host run registers call value) := by
  obtain ⟨stopped, stored⟩ := answered _ rfl
  refine attempt_induction stopped fun stack written => ?_
  refine attempt_induction stopped fun thread looked => ?_
  obtain ⟨aborted, suspended, went⟩ := stored stack thread written (Domain.thread_eq_ok.1 looked)
  split
  · exact aborted _ ‹_›
  · dsimp only
    split
    · rw [Run.thread_saveFrame]
      exact suspended ‹_› ‹_›
    · exact went ‹_› (Bool.eq_false_iff.2 ‹_›)

/-- A script call saves the frame of the caller, and either exceeds the depth limit or pushes the
frame of the callee. -/
theorem callScript_induction {pc : Nat} {result : ResultKind} {callee : FunctionId} {argc : Nat}
    (stopped : ∀ fault, property (config.goto (.faulted fault)))
    (unknown : config.world.domain.function? callee = none →
      property (config.abortRun host run registers.function registers.pc .invalidBytecode))
    (found : ∀ function, config.world.domain.function? callee = some function →
      argc ≤ registers.sp →
      (∀ stack, config.world.domain.limits.callDepth ≤ run.execution.frames.length →
        storeResult run.execution.stack result (registers.sp - argc) 0 = .ok stack →
        property (config.abortRun host
          ((run.saveFrame pc (registers.sp - argc + result.count)).setStack stack)
          registers.function registers.pc .callDepth)) ∧
      (run.execution.frames.length < config.world.domain.limits.callDepth →
        property (config.goto (.enter
          ((run.saveFrame pc (registers.sp - argc + result.count)).setFrames
            ({ function, base := registers.sp - argc, top := registers.sp - argc } ::
              (run.saveFrame pc (registers.sp - argc + result.count)).execution.frames)))))) :
    property (config.callScript host run registers pc result callee argc) := by
  unfold callScript
  split
  · exact unknown ‹_›
  · rename_i function registered
    split
    · exact stopped _
    · rename_i enough
      obtain ⟨deep, entered⟩ := found function registered (Nat.le_of_not_lt enough)
      dsimp only
      rw [Run.length_saveFrame, Run.stack_saveFrame]
      split
      · exact attempt_induction stopped fun stack written => deep stack ‹_› written
      · exact entered (Nat.lt_of_not_le ‹_›)

/-- A property holds of all that an instruction can come to once it has been read. -/
structure Covers (property : Config ν σ → Prop) (host : Host ν σ) (config : Config ν σ)
    (run : Run ν σ) (registers : Registers ν) (instruction : Instruction) : Prop where
  stops : ∀ fault, property (config.goto (.faulted fault))
  aborts : ∀ reason, property (config.abortRun host run registers.function registers.pc reason)
  goes : ∀ stack budget pc sp, property (config.goto
    (.execute { run.setStack stack with budget } { registers with pc, sp }))
  writes : ∀ index value pc sp, property ((config.setDomain { config.world.domain with
    globals := config.world.domain.globals.set! index value }).goto
      (.execute run { registers with pc, sp }))
  native : ∀ pc kind result method base, property (config.callNative host run registers pc
    ⟨registers.pc, kind, method, base, result⟩)
  script : ∀ pc result callee argc,
    property (config.callScript host run registers pc result callee argc)
  leaves : ∀ reach stack,
    instruction.effect reach registers.base run.execution.stack registers.sp = .ret stack →
    property (config.leaveFrame host run registers.function stack)

/-- An instruction that can be read is shown and then takes its effect. -/
theorem execute_induction
    (unreadable : property
      (config.abortRun host run registers.function registers.pc .invalidBytecode))
    (read : ∀ instruction pc shown,
      Instruction.decode registers.function.code registers.pc = .ok (instruction, pc) →
      config.emit host (.instruction run.thread registers.function registers.pc pc
        instruction.opcode) = shown → shown.Covers property host run registers instruction) :
    property (config.execute host run registers) := by
  unfold execute
  dsimp only
  split
  · exact unreadable
  · rename_i instruction pc decoded
    have covers := read instruction pc _ decoded rfl
    refine attempt_induction covers.stops fun thread _ => ?_
    split
    · rename_i stack sp _
      exact covers.goes stack run.budget pc sp
    · exact covers.writes ..
    · split
      · exact covers.aborts _
      · exact covers.goes run.execution.stack run.budget _ _
    · split
      · exact covers.aborts _
      · exact covers.goes run.execution.stack _ pc registers.sp
    · exact covers.native ..
    · exact covers.script ..
    · exact covers.leaves _ _ ‹_›
    · exact covers.aborts _
    · exact covers.stops _

/-- An instruction changes nothing of the world but the globals, of which there are as many as
before. -/
theorem execute_world (host : Host ν σ) (config : Config ν σ) (run : Run ν σ)
    (registers : Registers ν) :
    ∃ globals, globals.size = config.world.domain.globals.size ∧
      (config.execute host run registers).world =
        { config.world with domain := { config.world.domain with globals } } := by
  let keeps (after : Config ν σ) : Prop :=
    ∃ globals, globals.size = config.world.domain.globals.size ∧
      after.world = { config.world with domain := { config.world.domain with globals } }
  have same {after : Config ν σ} (world : after.world = config.world) : keeps after :=
    ⟨_, rfl, world⟩
  refine @execute_induction _ _ keeps _ _ _ _ (same rfl) fun _ _ shown _ emitted => ?_
  have world : shown.world = config.world := by rw [← emitted, emit_world]
  refine {
    stops _ := same world
    aborts _ := same world
    goes _ _ _ _ := same world
    writes index value _ _ := ⟨config.world.domain.globals.set! index value, by simp,
      by simp [world]⟩
    native _ _ _ _ _ := ?_
    script _ _ _ _ := @callScript_induction _ _ keeps _ _ _ _ _ _ _ _ (fun _ => same world)
      (fun _ => same world) fun _ _ _ => ⟨fun _ _ _ => same world, fun _ => same world⟩
    leaves _ _ _ := same (by simp [leaveFrame, world]) }
  unfold callNative
  split
  · exact same world
  · dsimp only
    split <;> exact same (by simp [world])

end

/-! ## Steps -/

/-- A property holds of all that a step can come to. Where a body has ended, the innermost work that
waits goes on. -/
structure CoversStep (property : Config ν σ → Prop) (host : Host ν σ) (config : Config ν σ) :
    Prop where
  rests : config.isFinal = true → property config
  enters : ∀ run, config.focus = .enter run → property (config.enterFrame host run)
  executes : ∀ run registers, config.focus = .execute run registers →
    property (config.execute host run registers)
  ends : ∀ run outcome, config.focus = .ended run outcome →
    property (config.finishRun host run outcome)
  asks : ∀ request next, config.focus = .body (.ask request next) →
    property (config.perform host request next)
  modifies : ∀ change next, config.focus = .body (.modify change next) →
    property { config with
      state := change config.state, focus := .body (next (change config.state)) }
  crashes : ∀ fault, config.focus = .body (.crash fault) → property (config.goto (.faulted fault))
  concludes : ∀ value, config.focus = .body (.done value) → config.pending = [] →
    property (config.goto (.finished value))
  answers : ∀ value run registers call rest, config.focus = .body (.done value) →
    config.pending = .calling run registers call :: rest →
    property ({ config with pending := rest }.returnNative host run registers call value)
  goesOn : ∀ value next rest, config.focus = .body (.done value) →
    config.pending = .aborting next :: rest →
    property ({ config with pending := rest }.afterAbort host next)

/-- A step goes on with the work at hand. -/
theorem step_induction (covers : config.CoversStep property host) :
    property (config.step host) := by
  unfold step
  split
  · rename_i value ended
    unfold finishBody
    split
    · exact covers.concludes value ended ‹_›
    · exact covers.answers value _ _ _ _ ended ‹_›
    · exact covers.goesOn value _ _ ended ‹_›
  · exact covers.asks _ _ ‹_›
  · exact covers.modifies _ _ ‹_›
  · exact covers.crashes _ ‹_›
  · exact covers.enters _ ‹_›
  · exact covers.executes _ _ ‹_›
  · exact covers.ends _ _ ‹_›
  · exact covers.rests (by simp [isFinal, *])
  · exact covers.rests (by simp [isFinal, *])

end Config

end ScriptMachine

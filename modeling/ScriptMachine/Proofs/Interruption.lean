import ScriptMachine.Proofs.Activations
import ScriptMachine.Proofs.Links
import ScriptMachine.Proofs.Nesting
import ScriptMachine.Proofs.Pausing

/-!
# Pausing native calls

A native call that pauses costs the run nothing but time. The thread is suspended, perhaps in a
queue, and the method answers a placeholder; the run saves its registers and ends. The host then
supplies the result that is owed, which replaces the placeholder on the operand stack, and resumes
the thread. The run that follows executes the same instruction over the same stack as if the method
had answered the result at once, in the same domain, with a fresh loop budget. This needs that
nothing else waits in the queue of the pause, and that nothing is recorded of the running thread
that the suspension would overwrite.
-/

namespace ScriptMachine

variable {ν σ : Type}

/-- The thread runs and nothing else is recorded of it, and the queues of all pauses are empty. -/
structure Domain.Runs (domain : Domain ν) (schedule : Nat → Option Pause) (id : ThreadId)
    (thread : Thread ν) : Prop where
  active : domain.active = some id
  present : domain.thread? id = some thread
  execution : thread.execution = none
  suspended : thread.suspended = false
  waitingOn : thread.waitingOn = none
  hook : thread.hook = none
  pendingAbort : thread.pendingAbort = none
  queues : ∀ number pause queue, schedule number = some pause → pause.queue = some queue →
    domain.waiters queue = .ok []

/-- The thread while it pauses. -/
def Thread.paused (thread : Thread ν) (queue : Option QueueId) : Thread ν :=
  { thread with suspended := true, waitingOn := queue }

/-- The domain while the thread pauses. -/
def Domain.paused (domain : Domain ν) (id : ThreadId) (thread : Thread ν) :
    Option QueueId → Domain ν
  | none => domain.setThread id (thread.paused none)
  | some queue => (domain.setThread id (thread.paused (some queue))).setWaiters queue [id]

namespace Domain

variable {domain : Domain ν} {id : ThreadId} {thread : Thread ν} {queue : Option QueueId}

/-- The thread is found as it pauses. -/
theorem thread?_paused {other : Thread ν} (present : domain.thread? id = some thread) :
    (domain.paused id other queue).thread? id = some (other.paused queue) := by
  cases queue with
  | none => rw [paused, thread?_setThread present, if_pos rfl]
  | some queue => rw [paused, thread?_setWaiters, thread?_setThread present, if_pos rfl]

/-- The thread is replaced while it pauses. -/
theorem setThread_paused (domain : Domain ν) (id : ThreadId) (thread other : Thread ν)
    (queue : Option QueueId) :
    (domain.paused id thread queue).setThread id (other.paused queue) =
      domain.paused id other queue := by
  have twice := domain.setThread_setThread id (thread.paused queue) (other.paused queue)
  cases queue with
  | none => exact twice
  | some queue => exact congrArg (·.setWaiters queue [id]) twice

/-- The thread waits alone in the queue in which it pauses. -/
theorem waiters_paused {queue : QueueId} (empty : domain.waiters queue = .ok []) :
    (domain.paused id thread (some queue)).waiters queue = .ok [id] := by
  obtain ⟨inside, _⟩ := waiters_eq_ok.1 empty
  have room : queue.index < (domain.setThread id (thread.paused (some queue))).queues.size := inside
  rw [paused, waiters_eq_ok]
  refine ⟨?_, ?_⟩
  · rw [queues_size_setWaiters]
    exact room
  · rw [waitersOf_setWaiters room, if_pos rfl]

/-- The thread is the next one of the queue in which it pauses. -/
theorem nextWaiter?_paused {queue : QueueId} (empty : domain.waiters queue = .ok []) :
    (domain.paused id thread (some queue)).nextWaiter? queue = .ok (some id) := by
  simp only [nextWaiter?, bind, Except.bind, waiters_paused empty]
  rfl

/-- The thread is taken from the queue in which it pauses. -/
theorem popWaiter_paused {queue : QueueId} {other : Thread ν}
    (present : domain.thread? id = some thread) (empty : domain.waiters queue = .ok []) :
    (domain.paused id other (some queue)).popWaiter queue =
      .ok (domain.paused id other none, some id) := by
  have emptied : (domain.paused id other (some queue)).setWaiters queue [] =
      domain.setThread id (other.paused (some queue)) := by
    rw [paused, setWaiters_setWaiters]
    exact setWaiters_self empty
  have looked : (domain.setThread id (other.paused (some queue))).thread id =
      .ok (other.paused (some queue)) := by
    rw [thread_eq_ok, thread?_setThread present, if_pos rfl]
  simp only [popWaiter, waiters_paused empty, bind, Except.bind, emptied, looked]
  rw [setThread_setThread]
  rfl

/-- A result goes to the top of the innermost frame of a thread that pauses. -/
theorem supplyResult_paused {execution : Execution ν} {frame : Frame ν} {rest : List (Frame ν)}
    {pc : Nat} (present : domain.thread? id = some thread)
    (frames : execution.frames = frame :: rest) (saved : frame.pc = some pc)
    (filled : 0 < frame.top) (inside : frame.top - 1 < execution.stack.size) (value : Int32) :
    (domain.paused id { thread with execution := some execution } queue).supplyResult id value =
      .ok (.ok (domain.paused id { thread with
        execution := some ⟨frame :: rest, execution.stack.set! (frame.top - 1) value⟩ }
          queue)) := by
  let other : Thread ν := { thread with execution := some execution }
  have looked : (domain.paused id other queue).thread id = .ok (other.paused queue) :=
    thread_eq_ok.2 (thread?_paused present)
  have bounds : 0 < frame.top ∧ frame.top - 1 < execution.stack.size := ⟨filled, inside⟩
  have replaced := domain.setThread_paused id other { thread with
    execution := some ⟨frame :: rest, execution.stack.set! (frame.top - 1) value⟩ } queue
  unfold supplyResult
  simp only [bind, Except.bind]
  rw [looked]
  simp only [Thread.paused, Bool.not_true, Bool.false_eq_true, ↓reduceIte, other, frames,
    List.head?_cons, saved, Option.isNone_some, bounds, and_self]
  exact congrArg (fun next => Except.ok (Except.ok next)) replaced

/-- The domain once the run of a thread that pauses has ended. -/
theorem Runs.ended {schedule : Nat → Option Pause} (runs : domain.Runs schedule id thread)
    (execution : Execution ν) (previous : Option ThreadId) (queue : Option QueueId) :
    { (domain.paused id thread queue).setThread id { thread.paused queue with
        execution := some execution, pendingAbort := none } with active := previous } =
      ({ domain with active := previous }).paused id { thread with execution := some execution }
        queue := by
  have same : { thread.paused queue with execution := some execution, pendingAbort := none } =
      Thread.paused { thread with execution := some execution } queue := by
    simp only [Thread.paused, ← runs.pendingAbort]
  rw [same, setThread_paused]
  cases queue with
  | none => rfl
  | some queue => rfl

end Domain

namespace Config

section

variable {host : Host ν σ} {config : Config ν σ} {schedule : Nat → Option Pause}
  {id : ThreadId} {thread : Thread ν}

/-- A pause suspends the thread, in the queue if there is one. -/
theorem passes_begin (runs : config.world.domain.Runs schedule id thread) {number : Nat}
    {pause : Pause} (scheduled : schedule number = some pause) (next : Unit → Body ν σ) :
    (config.goto (.body (pause.begin.bind next))).Passes host
      ((config.setDomain (config.world.domain.paused id thread pause.queue)).goto
        (.body (next ()))) := by
  have looked : config.world.domain.thread id = .ok thread := Domain.thread_eq_ok.2 runs.present
  obtain ⟨queue, placeholder⟩ := pause
  cases queue with
  | none =>
    have pauses : { thread with suspended := true, hook := none } = thread.paused none := by
      rw [Thread.paused, ← runs.hook, ← runs.waitingOn]
    have done : Update.apply config.world (.suspendActive none) = .ok ({ config.world with
        domain := config.world.domain.paused id thread none }, .thread id) := by
      simp only [Update.apply, runs.active, Domain.suspend, looked]
      rw [Domain.paused, ← pauses]
      rfl
    apply Passes.step
    have taken := @step_update _ _ host config _ (fun _ => next ()) _ _ done
    change Passes host (Config.step host (config.goto (.body (.ask _ fun _ => next ())))) _
    rw [taken]
    exact .refl _
  | some queue =>
    have empty : config.world.domain.waiters queue = .ok [] := runs.queues _ _ _ scheduled rfl
    have pauses : { thread with waitingOn := some queue, hook := none, suspended := true } =
        thread.paused (some queue) := by rw [Thread.paused, ← runs.hook]
    have done : Update.apply config.world (.park queue id) = .ok ({ config.world with
        domain := config.world.domain.paused id thread (some queue) }, .done) := by
      have waiters (other : Thread ν) :
          (config.world.domain.setThread id other).waiters queue = .ok [] := empty
      simp only [Update.apply, Domain.park, looked, runs.waitingOn, bind, Except.bind, waiters,
        pauses]
      rfl
    have looks : (config.goto (.body ((Pause.begin ⟨some queue, placeholder⟩).bind next))).step
        host = config.goto (.body (.ask (.update (.park queue id)) fun _ => next ())) := by
      have active : config.world.view.domain.active = some id := runs.active
      simp only [Config.step, goto_focus, Pause.begin, Program.world, bind, Program.bind, perform,
        goto_world, active]
      rfl
    apply Passes.step
    rw [looks]
    apply Passes.step
    rw [step_update done]
    exact .refl _

end

end Config

/-- The run is in a frame of the function of the registers, above the other frames. -/
def Run.InFrame (run : Run ν σ) (registers : Registers ν) (rest : List (Frame ν)) : Prop :=
  ∃ frame, run.execution.frames = frame :: rest ∧ frame.function = registers.function ∧
    frame.base = registers.base

/-- The frame that is to be continued at the registers. -/
def Registers.frame (registers : Registers ν) : Frame ν :=
  ⟨registers.function, some registers.pc, registers.base, registers.sp⟩

/-- The operand stack makes no difference to the frame. -/
theorem Run.InFrame.setStack {run : Run ν σ} {registers : Registers ν} {rest : List (Frame ν)}
    (inFrame : run.InFrame registers rest) (stack : Array Int32) :
    (run.setStack stack).InFrame registers rest := inFrame

/-- Saving the registers in the innermost frame. -/
theorem Run.InFrame.saveFrame {run : Run ν σ} {registers : Registers ν} {rest : List (Frame ν)}
    (inFrame : run.InFrame registers rest) (pc top : Nat) :
    run.saveFrame pc top = run.setFrames ((registers.move pc top).frame :: rest) := by
  obtain ⟨frame, first, function, base⟩ := inFrame
  unfold Run.saveFrame
  rw [first]
  simp only [Registers.frame, Registers.move, ← function, ← base]

/-- The one who started a run is told how it has ended. -/
@[simp] theorem Purpose.outcome?_answer (purpose : Purpose) (id : ThreadId) (outcome : Outcome)
    (stack : Array Int32) :
    (purpose.answer id outcome stack : Answer ν).outcome? = some outcome := by
  cases purpose with
  | plain | result | woken => rfl

namespace Config

section

variable {environment : Environment ν} {schedule : Nat → Option Pause}
  {config : Config ν (Transcript ν)} {run : Run ν (Transcript ν)} {registers : Registers ν}
  {call : NativeCall} {value : Int32} {stack : Array Int32} {thread : Thread ν}

/-- The machine hands the answer of a native method to the run that waits for it. -/
theorem step_answer {host : Host ν (Transcript ν)} {others : List (Pending ν (Transcript ν))}
    (waiting : config.pending = .calling run registers call :: others)
    (answered : config.focus = .body (.done value)) :
    config.step host =
      ({ config with pending := others }).returnNative host run registers call value := by
  simp only [Config.step, answered, finishBody, waiting]

/-- A native method answers while the thread is not suspended. -/
theorem returnNative_continues
    (stored : storeResult run.execution.stack call.result call.base value = .ok stack)
    (present : config.world.domain.thread? run.thread = some thread)
    (unharmed : thread.pendingAbort = none) (awake : thread.suspended = false) :
    config.returnNative (environment.host schedule) run registers call value =
      config.goto (.execute (run.setStack stack) registers) := by
  have looked := Domain.thread_eq_ok.2 present
  simp only [returnNative, Environment.emit_host, stored, attempt_ok, Run.setStack]
  rw [looked, attempt_ok]
  simp only [unharmed, awake, Bool.false_eq_true, ↓reduceIte]

/-- A native method answers while the thread is suspended. -/
theorem returnNative_suspends
    (stored : storeResult run.execution.stack call.result call.base value = .ok stack)
    (present : config.world.domain.thread? run.thread = some thread)
    (unharmed : thread.pendingAbort = none) (asleep : thread.suspended = true) :
    config.returnNative (environment.host schedule) run registers call value =
      config.goto (.ended ((run.setStack stack).saveFrame registers.pc registers.sp)
        .suspended) := by
  have looked := Domain.thread_eq_ok.2 present
  simp only [returnNative, Environment.emit_host, stored, attempt_ok, Run.setStack]
  rw [looked, attempt_ok]
  simp only [unharmed, asleep, ↓reduceIte]

/-- A run ends. -/
theorem finishRun_host {outcome : Outcome}
    (present : config.world.domain.thread? run.thread = some thread) :
    config.finishRun (environment.host schedule) run outcome =
      (config.setDomain { config.world.domain.setThread run.thread { thread with
        execution := some run.execution, pendingAbort := none } with
          active := run.previous }).goto
        (.body (run.reply (run.purpose.answer run.thread outcome run.execution.stack))) := by
  have looked := Domain.thread_eq_ok.2 present
  simp only [finishRun, looked, attempt_ok, Environment.emit_host]

end

section

variable {environment : Environment ν} {schedule : Nat → Option Pause}
  {config : Config ν (Transcript ν)} {domain : Domain ν} {id : ThreadId} {thread : Thread ν}
  {previous : Option ThreadId} {execution : Execution ν} {frame : Frame ν}
  {rest : List (Frame ν)}

/-- A run takes over a thread. -/
theorem launch_host (present : config.world.domain.thread? id = some thread)
    (held : thread.execution = some execution) (purpose : Purpose)
    (next : Answer ν → Body ν (Transcript ν)) :
    config.launch (environment.host schedule) id purpose next =
      (config.setDomain { config.world.domain.setThread id { thread with execution := none } with
        active := some id }).goto (.enter {
          thread := id
          previous := config.world.domain.active
          execution, purpose
          reply := next
          budget := config.world.domain.limits.loopBudget }) := by
  have looked := Domain.thread_eq_ok.2 present
  unfold launch
  rw [looked, attempt_ok]
  simp only [held]
  split
  · rfl
  · rw [Environment.emit_host]

/-- A thread that has paused goes on in the domain in which it paused. -/
theorem continueThread_host (runs : domain.Runs schedule id thread)
    (now : config.world.domain = ({ domain with active := previous }).paused id
      { thread with execution := some execution } none)
    (frames : execution.frames = frame :: rest) (purpose : Purpose)
    (next : Answer ν → Body ν (Transcript ν)) :
    config.continueThread (environment.host schedule) id purpose next =
      (config.setDomain domain).goto (.enter {
        thread := id
        previous
        execution, purpose
        reply := next
        budget := domain.limits.loopBudget }) := by
  let away : Domain ν := { domain with active := previous }
  let resumed : Thread ν := { thread with execution := some execution }
  have present : away.thread? id = some thread := runs.present
  have looked : config.world.domain.thread id = .ok (resumed.paused none) := by
    rw [now]
    exact Domain.thread_eq_ok.2 (Domain.thread?_paused present)
  have woken : { resumed.paused none with suspended := false, hook := none } = resumed := by
    simp only [Thread.paused, resumed, ← runs.suspended, ← runs.waitingOn, ← runs.hook]
  have replaced : config.world.domain.setThread id resumed = away.setThread id resumed := by
    rw [now]
    exact away.setThread_setThread id _ _
  have found : (away.setThread id resumed).thread? id = some resumed := by
    rw [Domain.thread?_setThread present, if_pos rfl]
  have taken : { resumed with execution := none } = thread := by
    simp only [resumed, ← runs.execution]
  have back : { (away.setThread id resumed).setThread id thread with active := some id } =
      domain := by
    rw [Domain.setThread_setThread, Domain.setThread_self present, ← runs.active]
  have launched := @launch_host _ environment schedule
    (config.setDomain (away.setThread id resumed)) id resumed execution found rfl purpose next
  rw [taken] at launched
  simp only [setDomain_world, back] at launched
  have held : (resumed.paused none).execution = some execution := rfl
  unfold continueThread
  dsimp only
  rw [looked, attempt_ok]
  dsimp only at woken ⊢
  rw [woken, replaced, held]
  split
  · rename_i same
    rw [Option.some.inj same] at frames
    cases frames
  · exact launched

/-- The host may resume a thread that has paused and waits in no queue. -/
theorem resume_host {host : Host ν (Transcript ν)} (runs : domain.Runs schedule id thread)
    (now : config.world.domain = ({ domain with active := previous }).paused id
      { thread with execution := some execution } none)
    (next : Answer ν → Body ν (Transcript ν)) :
    config.resume host id next = config.continueThread host id .plain next := by
  let away : Domain ν := { domain with active := previous }
  have present : away.thread? id = some thread := runs.present
  have looked : config.world.domain.thread id =
      .ok (Thread.paused { thread with execution := some execution } none) := by
    rw [now]
    exact Domain.thread_eq_ok.2 (Domain.thread?_paused present)
  unfold resume
  dsimp only
  rw [looked, attempt_ok]
  rfl

/-- Waking a thread through the queue in which it pauses. -/
theorem wake_host {host : Host ν (Transcript ν)} (runs : domain.Runs schedule id thread)
    {queue : QueueId} (empty : domain.waiters queue = .ok [])
    (now : config.world.domain = ({ domain with active := previous }).paused id
      { thread with execution := some execution } (some queue))
    (frames : execution.frames = frame :: rest) {pc : Nat} (saved : frame.pc = some pc)
    (filled : 0 < frame.top) (inside : frame.top - 1 < execution.stack.size) (result : Int32)
    (next : Answer ν → Body ν (Transcript ν)) :
    config.wake host queue (some result) next =
      (config.setDomain (({ domain with active := previous }).paused id { thread with
        execution := some ⟨frame :: rest, execution.stack.set! (frame.top - 1) result⟩ }
          none)).continueThread host id .woken next := by
  let away : Domain ν := { domain with active := previous }
  have present : away.thread? id = some thread := runs.present
  have free : away.waiters queue = .ok [] := empty
  have head : config.world.domain.nextWaiter? queue = .ok (some id) := by
    rw [now]
    exact Domain.nextWaiter?_paused free
  have looked : config.world.domain.thread id =
      .ok (Thread.paused { thread with execution := some execution } (some queue)) := by
    rw [now]
    exact Domain.thread_eq_ok.2 (Domain.thread?_paused present)
  have popped : config.world.domain.popWaiter queue =
      .ok (away.paused id { thread with execution := some execution } none, some id) := by
    rw [now]
    exact Domain.popWaiter_paused present free
  have supplied := @Domain.supplyResult_paused _ away id thread none execution frame rest pc
    present frames saved filled inside result
  unfold wake
  dsimp only
  rw [head, attempt_ok]
  dsimp only
  rw [looked, attempt_ok, popped, attempt_ok]
  simp only [handResult, bind, Except.bind, supplied]
  rfl

/-- The host supplies what a suspended thread is owed, and resumes it. -/
theorem passes_supply {host : Host ν (Transcript ν)} {rounds : Nat} {answer : Answer ν}
    {placeholder result : Int32} (asleep : answer.outcome? = some .suspended)
    (owed : config.state.owed = some (⟨none, placeholder⟩, result)) :
    (config.goto (.body (Program.settle id (rounds + 1) answer))).Passes host
      { config with
        state := { config.state with owed := none }
        focus := .body (.ask (.update (.supplyResult id result)) fun _ =>
          .ask (.resume id) (Program.settle id rounds)) } := by
  apply Passes.step
  apply Passes.step
  have made : ((config.goto (.body (Program.settle id (rounds + 1) answer))).step host).step host =
      { config with
        state := { config.state with owed := none }
        focus := .body (.ask (.update (.supplyResult id result)) fun _ =>
          .ask (.resume id) (Program.settle id rounds)) } := by
    simp only [Program.settle, asleep, bind, Program.bind, Program.state, Program.change,
      Config.step, goto_focus, goto_state, id_eq, owed]
    rfl
  rw [made]
  exact .refl _

/-- The host wakes a thread through its queue, and supplies what it is owed. -/
theorem passes_waking {host : Host ν (Transcript ν)} {rounds : Nat} {answer : Answer ν}
    {queue : QueueId} {placeholder result : Int32} (asleep : answer.outcome? = some .suspended)
    (owed : config.state.owed = some (⟨some queue, placeholder⟩, result)) :
    (config.goto (.body (Program.settle id (rounds + 1) answer))).Passes host
      { config with
        state := { config.state with owed := none }
        focus := .body (.ask (.wake queue (some result)) (Program.settle id rounds)) } := by
  apply Passes.step
  apply Passes.step
  have made : ((config.goto (.body (Program.settle id (rounds + 1) answer))).step host).step host =
      { config with
        state := { config.state with owed := none }
        focus := .body (.ask (.wake queue (some result)) (Program.settle id rounds)) } := by
    simp only [Program.settle, asleep, bind, Program.bind, Program.state, Program.change,
      Config.step, goto_focus, goto_state, id_eq, owed]
    rfl
  rw [made]
  exact .refl _

/-- A thread that is owed a result is supplied with it and goes on in the domain in which it
paused. -/
theorem passes_settle (runs : domain.Runs schedule id thread) {number rounds : Nat} {pause : Pause}
    (scheduled : schedule number = some pause)
    (now : config.world.domain = ({ domain with active := previous }).paused id
      { thread with execution := some execution } pause.queue)
    (frames : execution.frames = frame :: rest) {pc : Nat} (saved : frame.pc = some pc)
    (filled : 0 < frame.top) (inside : frame.top - 1 < execution.stack.size) {result : Int32}
    (owed : config.state.owed = some (pause, result)) {answer : Answer ν}
    (asleep : answer.outcome? = some .suspended) :
    ∃ purpose,
      (config.goto (.body (Program.settle id (rounds + 1) answer))).Passes
        (environment.host schedule) ({ config.setDomain domain with
          state := { config.state with owed := none } }.goto (.enter {
            thread := id
            previous
            execution := ⟨frame :: rest, execution.stack.set! (frame.top - 1) result⟩
            purpose
            reply := Program.settle id rounds
            budget := domain.limits.loopBudget })) := by
  let away : Domain ν := { domain with active := previous }
  have present : away.thread? id = some thread := runs.present
  let execution' : Execution ν := ⟨frame :: rest, execution.stack.set! (frame.top - 1) result⟩
  let settled : Config ν (Transcript ν) :=
    { config with state := { config.state with owed := none } }
  obtain ⟨queue, placeholder⟩ := pause
  cases queue with
  | none =>
    refine ⟨.plain, (passes_supply asleep owed).trans (.step ?_)⟩
    have given : Update.apply settled.world (.supplyResult id result) = .ok ({ config.world with
        domain := away.paused id { thread with execution := some execution' } none }, .done) := by
      change Update.apply config.world (.supplyResult id result) = _
      simp only [Update.apply, now, bind, Except.bind]
      rw [Domain.supplyResult_paused present frames saved filled inside]
      rfl
    have supplied := @step_update _ _ (environment.host schedule) settled _
      (fun _ => .ask (.resume id) (Program.settle id rounds)) _ _ given
    change Passes _ (Config.step _ (settled.goto _)) _
    rw [supplied]
    apply Passes.step
    change Passes _ (Config.resume _ _ id (Program.settle id rounds)) _
    rw [resume_host runs rfl, continueThread_host runs rfl rfl]
    exact .refl _
  | some queue =>
    have empty : domain.waiters queue = .ok [] := runs.queues _ _ _ scheduled rfl
    refine ⟨.woken, (passes_waking asleep owed).trans (.step ?_)⟩
    let asking : Config ν (Transcript ν) :=
      settled.goto (.body (.ask (.wake queue (some result)) (Program.settle id rounds)))
    have there : asking.world.domain = away.paused id { thread with execution := some execution }
      (some queue) := now
    change Passes _ (asking.wake _ queue (some result) (Program.settle id rounds)) _
    rw [wake_host runs empty there frames saved filled inside, continueThread_host runs rfl rfl]
    exact .refl _

/-- A native call that pauses ends its run, which is to be continued at the registers behind the
call, over the placeholder. -/
theorem passes_suspending {run : Run ν (Transcript ν)} {registers : Registers ν}
    {call : NativeCall} (runs : config.world.domain.Runs schedule run.thread thread)
    {number : Nat} {pause : Pause} (scheduled : schedule number = some pause)
    (inFrame : run.InFrame registers rest) (answers : call.result = .int)
    (inside : call.base < run.execution.stack.size)
    (waiting : config.pending = [.calling run registers call]) (result : Int32) :
    (config.goto (.body (Pause.answer result (some pause)))).Passes (environment.host schedule)
      { config.setDomain (config.world.domain.paused run.thread thread pause.queue) with
        pending := []
        focus := .ended { run with execution := ⟨registers.frame :: rest,
          run.execution.stack.set! call.base pause.placeholder⟩ } .suspended } := by
  let stored := run.execution.stack.set! call.base pause.placeholder
  let ended : Run ν (Transcript ν) := { run with execution := ⟨registers.frame :: rest, stored⟩ }
  have saved : (run.setStack stored).saveFrame registers.pc registers.sp = ended :=
    (inFrame.setStack stored).saveFrame registers.pc registers.sp
  let begun := (config.setDomain (config.world.domain.paused run.thread thread pause.queue)).goto
    (.body (.done pause.placeholder))
  have begins : (config.goto (.body (Pause.answer result (some pause)))).Passes
      (environment.host schedule) begun := passes_begin runs scheduled _
  let alone : Config ν (Transcript ν) := { begun with pending := [] }
  have found : alone.world.domain.thread? run.thread = some (thread.paused pause.queue) :=
    Domain.thread?_paused runs.present
  have kept : storeResult run.execution.stack call.result call.base pause.placeholder =
      .ok stored := by
    simp only [storeResult, answers, if_pos inside, stored]
  have waits : begun.pending = [.calling run registers call] := waiting
  have suspends : begun.step (environment.host schedule) =
      alone.goto (.ended ended .suspended) := by
    rw [step_answer waits rfl]
    change alone.returnNative _ run registers call pause.placeholder = _
    rw [returnNative_suspends kept found runs.pendingAbort rfl, saved]
  apply begins.trans
  apply Passes.step
  rw [suspends]
  exact .refl _

/-- The run of a thread that pauses hands the thread back and lets the host go on. -/
theorem step_suspended {run : Run ν (Transcript ν)}
    (runs : domain.Runs schedule run.thread thread) {queue : Option QueueId}
    (now : config.world.domain = domain.paused run.thread thread queue)
    (focus : config.focus = .ended run .suspended) :
    config.step (environment.host schedule) =
      (config.setDomain (({ domain with active := run.previous }).paused run.thread
        { thread with execution := some run.execution } queue)).goto
          (.body (run.reply (run.purpose.answer run.thread .suspended run.execution.stack))) := by
  have found : config.world.domain.thread? run.thread = some (thread.paused queue) := by
    rw [now]
    exact Domain.thread?_paused runs.present
  have finished := @finishRun_host _ environment schedule config run _ .suspended found
  have domains := runs.ended run.execution run.previous queue
  rw [now] at finished
  calc
    config.step (environment.host schedule) =
        config.finishRun (environment.host schedule) run .suspended := by
      simp only [Config.step, focus]
    _ = _ := finished
    _ = _ := congrArg (fun next => (config.setDomain next).goto _) domains

/-- A native call that pauses is resumed at the registers behind it, with the result in its place
and a fresh loop budget. -/
theorem passes_pausing {run : Run ν (Transcript ν)} {registers : Registers ν} {call : NativeCall}
    (runs : config.world.domain.Runs schedule run.thread thread) {number rounds : Nat}
    {pause : Pause} (scheduled : schedule number = some pause)
    (inFrame : run.InFrame registers rest) (height : registers.sp = call.base + 1)
    (answers : call.result = .int) (inside : call.base < run.execution.stack.size)
    (reply : run.reply = Program.settle run.thread (rounds + 1))
    {result : Int32} (owed : config.state.owed = some (pause, result))
    (waiting : config.pending = [.calling run registers call]) :
    ∃ resumed : Run ν (Transcript ν),
      (config.goto (.body (Pause.answer result (some pause)))).Passes (environment.host schedule)
        { config with
          state := { config.state with owed := none }
          focus := .execute resumed registers
          pending := [] } ∧
      resumed.thread = run.thread ∧ resumed.previous = run.previous ∧
      resumed.reply = Program.settle run.thread rounds ∧
      resumed.budget = config.world.domain.limits.loopBudget ∧ resumed.InFrame registers rest ∧
      resumed.execution.stack = run.execution.stack.set! call.base result := by
  let domain := config.world.domain
  let stored := run.execution.stack.set! call.base pause.placeholder
  let execution : Execution ν := ⟨registers.frame :: rest, stored⟩
  let halted : Config ν (Transcript ν) :=
    { config.setDomain (domain.paused run.thread thread pause.queue) with
      pending := []
      focus := .ended { run with execution } .suspended }
  have suspends : (config.goto (.body (Pause.answer result (some pause)))).Passes
      (environment.host schedule) halted :=
    passes_suspending runs scheduled inFrame answers inside waiting result
  let answer : Answer ν := run.purpose.answer run.thread .suspended stored
  let stopped : Config ν (Transcript ν) := { config.setDomain (({ domain with
    active := run.previous }).paused run.thread { thread with execution := some execution }
      pause.queue) with pending := [] }
  have ends : halted.step (environment.host schedule) =
      stopped.goto (.body (Program.settle run.thread (rounds + 1) answer)) := by
    have replies : run.reply answer = Program.settle run.thread (rounds + 1) answer :=
      congrFun reply answer
    rw [← replies]
    exact @step_suspended _ environment schedule halted domain thread { run with execution } runs
      _ rfl rfl
  have asleep : answer.outcome? = some .suspended := Purpose.outcome?_answer _ _ _ _
  -- The result lands on the placeholder, at the top of the frame that has been saved.
  have top : registers.frame.top - 1 = call.base := by
    change registers.sp - 1 = call.base
    omega
  have filled : 0 < registers.frame.top := by
    change 0 < registers.sp
    omega
  have room : registers.frame.top - 1 < stored.size := by
    simp only [top, stored, Array.set!_eq_setIfInBounds, Array.size_setIfInBounds]
    exact inside
  obtain ⟨purpose, resumes⟩ := @passes_settle _ environment schedule stopped domain
    run.thread thread run.previous execution registers.frame rest runs number rounds pause
    scheduled rfl rfl registers.pc rfl filled room result owed answer asleep
  have written : stored.set! (registers.frame.top - 1) result =
      run.execution.stack.set! call.base result := by
    rw [top]
    simp [stored]
  let resumed : Run ν (Transcript ν) := {
    thread := run.thread
    previous := run.previous
    execution := ⟨registers.frame :: rest, stored.set! (registers.frame.top - 1) result⟩
    purpose
    reply := Program.settle run.thread rounds
    budget := domain.limits.loopBudget }
  have inFrame' : resumed.InFrame registers rest := ⟨registers.frame, rfl, rfl, rfl⟩
  refine ⟨resumed, suspends.trans ?_, rfl, rfl, rfl, rfl, inFrame', written⟩
  apply Passes.step
  rw [ends]
  exact resumes.trans (.step (.refl _))

end

end Config

end ScriptMachine

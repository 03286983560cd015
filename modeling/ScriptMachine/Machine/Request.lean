import ScriptMachine.Machine.Config

/-!
# Requests to the machine

Starting, continuing, waking and aborting threads. None of this executes an instruction: a request
ends in an answer, in a run that is ready to be entered, or in a hook that has to be called first.
-/

namespace ScriptMachine

/-- The answer to the request that started a run. -/
def Purpose.answer {ν : Type} (purpose : Purpose) (thread : ThreadId) (outcome : Outcome)
    (stack : Array Int32) : Answer ν :=
  match purpose with
  | .plain => .ran outcome
  | .result => .returned outcome (stack[0]?.getD 0)
  | .woken => .woke (some (thread, outcome))

namespace Run

variable {ν σ : Type}

/-- Replaces the operand stack. -/
def setStack (run : Run ν σ) (stack : Array Int32) : Run ν σ :=
  { run with execution := { run.execution with stack } }

/-- Replaces the frames. -/
def setFrames (run : Run ν σ) (frames : List (Frame ν)) : Run ν σ :=
  { run with execution := { run.execution with frames } }

/-- Records in the innermost frame where to continue. -/
def saveFrame (run : Run ν σ) (pc top : Nat) : Run ν σ :=
  match run.execution.frames with
  | [] => run
  | frame :: frames => run.setFrames ({ frame with pc := some pc, top } :: frames)

end Run

namespace Config

variable {ν σ : Type}

/-- A run takes the frames and the operand stack of a thread and becomes the innermost one. -/
def launch (host : Host ν σ) (config : Config ν σ) (id : ThreadId) (purpose : Purpose)
    (reply : Answer ν → Body ν σ) : Config ν σ :=
  config.attempt (config.world.domain.thread id) fun thread =>
    match thread.execution with
    | none => config.goto (.body (reply (.refused (.thread .running))))
    | some execution =>
      let domain := config.world.domain
      let run : Run ν σ := {
        thread := id
        previous := domain.active
        execution, purpose, reply
        budget := domain.limits.loopBudget }
      let domain := domain.setThread id { thread with execution := none }
      let config := config.setDomain { domain with active := some id }
      let config := match execution.frames with
        | [] => config
        | frame :: _ =>
          config.emit host (.runStart id frame.function execution.frames.length)
      config.goto (.enter run)

/-- The run of a thread ends: the thread gets its frames and its operand stack back, and whoever
started the run goes on. -/
def finishRun (host : Host ν σ) (config : Config ν σ) (run : Run ν σ) (outcome : Outcome) :
    Config ν σ :=
  let domain := config.world.domain
  config.attempt (domain.thread run.thread) fun thread =>
    let thread := { thread with execution := some run.execution, pendingAbort := none }
    let domain := domain.setThread run.thread thread
    let config := config.setDomain { domain with active := run.previous }
    let config := config.emit host (.runEnd run.thread outcome)
    let answer := run.purpose.answer run.thread outcome run.execution.stack
    config.goto (.body (run.reply answer))

/-- Aborts a run: its frames are discarded. An abort by a limit is reported first. -/
def abortRun (host : Host ν σ) (config : Config ν σ) (run : Run ν σ) (function : Function ν)
    (pc : Nat) (reason : AbortReason) : Config ν σ :=
  let state := match config.world.domain.limitHandler with
    | some handler =>
      if reason.isLimit then host.onLimit handler function.name config.state else config.state
    | none => config.state
  { config with
    state
    focus := .ended (run.setFrames []) (.aborted ⟨function.name, pc, reason⟩) }

/-- What follows the abort of a thread. -/
def afterAbort (host : Host ν σ) (config : Config ν σ) : AfterAbort ν σ → Config ν σ
  | .reply next => config.goto (.body (next .done))
  | .start id function purpose next =>
    let domain := config.world.domain
    config.attempt (domain.thread id) fun thread =>
      match thread.execution with
      | none => config.goto (.body (next (.refused (.thread .running))))
      | some execution =>
        let frames := { function, base := 0, top := 0 } :: execution.frames
        let thread := { thread with execution := some { execution with frames } }
        let config := config.setDomain (domain.setThread id thread)
        match purpose with
        | none => config.goto (.body (next .done))
        | some purpose => config.launch host id purpose next
  | .stop run function pc reason => config.abortRun host run function pc reason

/-- Detaches a thread that is being aborted and calls its hook, if one is armed. -/
def detach (host : Host ν σ) (config : Config ν σ) (id : ThreadId) (next : AfterAbort ν σ) :
    Config ν σ :=
  config.attempt (config.world.domain.detach id) fun (domain, hook) =>
    let config := config.setDomain domain
    match hook with
    | none => config.afterAbort host next
    | some .leaveSleep =>
      let sleepers := config.world.sleepers.remove id
      { config with world := { config.world with sleepers } }.afterAbort host next
    | some (.custom reference) =>
      { config with
        focus := .body (host.onAbort reference id)
        pending := .aborting next :: config.pending }

/-- Aborts a thread. -/
def abort (host : Host ν σ) (config : Config ν σ) (id : ThreadId) (reason : AbortReason)
    (next : AfterAbort ν σ) : Config ν σ :=
  config.attempt (config.world.domain.discard id reason) fun domain =>
    (config.setDomain domain).detach host id next

/-- Gives a thread a fresh frame. A thread that is suspended or still has frames is aborted
first. -/
def start (host : Host ν σ) (config : Config ν σ) (id : ThreadId) (functionId : FunctionId)
    (purpose : Option Purpose) (next : Answer ν → Body ν σ) : Config ν σ :=
  match config.world.domain.function? functionId with
  | none => config.goto (.body (next (.refused (.thread (.unknownFunction functionId)))))
  | some function =>
    config.attempt (config.world.domain.thread id) fun thread =>
      match thread.execution with
      | none => config.goto (.body (next (.refused (.thread .running))))
      | some execution =>
        let after := .start id function purpose next
        if thread.suspended || !execution.frames.isEmpty then
          config.abort host id .requested after
        else config.afterAbort host after

/-- Continues a suspended thread. The armed hook is dropped, and a thread without frames is
complete at once. -/
def continueThread (host : Host ν σ) (config : Config ν σ) (id : ThreadId) (purpose : Purpose)
    (next : Answer ν → Body ν σ) : Config ν σ :=
  let domain := config.world.domain
  config.attempt (domain.thread id) fun thread =>
    let thread := { thread with suspended := false, hook := none }
    let config := config.setDomain (domain.setThread id thread)
    match thread.execution with
    | some ⟨[], stack⟩ => config.goto (.body (next (purpose.answer id .completed stack)))
    | _ => config.launch host id purpose next

/-- Continues a thread on behalf of the host, which may do so only with a suspended thread that
waits in no queue. -/
def resume (host : Host ν σ) (config : Config ν σ) (id : ThreadId) (next : Answer ν → Body ν σ) :
    Config ν σ :=
  let refuse (error : ThreadError) := config.goto (.body (next (.refused (.thread error))))
  config.attempt (config.world.domain.thread id) fun thread =>
    if thread.isRunning then refuse .running
    else if !thread.suspended then refuse .notSuspended
    else if thread.waitingOn.isSome then refuse .enqueued
    else config.continueThread host id .plain next

/-- Hands a result to a woken thread, if one is given. That it awaits none is no failure. -/
def handResult (domain : Domain ν) (id : ThreadId) :
    Option Int32 → Except Fault (Except ThreadError (Domain ν))
  | none => .ok (.ok domain)
  | some value => do
    match ← domain.supplyResult id value with
    | .error .notStarted | .error .noPendingResult => return .ok domain
    | result => return result

/-- Wakes the thread that waits longest in a queue. -/
def wake (host : Host ν σ) (config : Config ν σ) (queue : QueueId) (value : Option Int32)
    (next : Answer ν → Body ν σ) : Config ν σ :=
  let domain := config.world.domain
  let refuse (config : Config ν σ) (error : ThreadError) :=
    config.goto (.body (next (.refused (.thread error))))
  config.attempt (domain.nextWaiter? queue) fun
    | none => config.goto (.body (next (.woke none)))
    | some head =>
      config.attempt (domain.thread head) fun thread =>
        if thread.isRunning then refuse config .running
        else
          config.attempt (domain.popWaiter queue) fun (domain, _) =>
            let config := config.setDomain domain
            config.attempt (handResult domain head value) fun
              | .error error => refuse config error
              | .ok domain => (config.setDomain domain).continueThread host head .woken next

/-- Carries out a request. -/
def perform (host : Host ν σ) (config : Config ν σ) (request : Request ν)
    (next : Answer ν → Body ν σ) : Config ν σ :=
  match request with
  | .observe => config.goto (.body (next (.seen config.world.view)))
  | .update update =>
    config.attempt (update.apply config.world) fun (world, answer) =>
      { config with world, focus := .body (next answer) }
  | .start thread function => config.start host thread function none next
  | .run thread function => config.start host thread function (some .plain) next
  | .runInt thread function => config.start host thread function (some .result) next
  | .resume thread => config.resume host thread next
  | .abort thread => config.abort host thread .requested (.reply next)
  | .faultActive error =>
    match config.world.domain.active with
    | none => config.goto (.body (next .done))
    | some thread => config.abort host thread (.badArgument error) (.reply next)
  | .wake queue value => config.wake host queue value next

end Config

end ScriptMachine

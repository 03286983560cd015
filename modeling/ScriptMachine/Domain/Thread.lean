import ScriptMachine.Domain.Queue

/-!
# Threads

Creating, suspending and detaching threads, and handing a suspended thread the result of the native
call that suspended it. What runs a thread, or calls the host back, is part of the machine.
-/

namespace ScriptMachine

namespace Thread

variable {ν : Type}

/-- A run has taken the frames and the operand stack. -/
def isRunning (thread : Thread ν) : Bool := thread.execution.isNone

/-- The thread has no frames and does not run. -/
def isIdle (thread : Thread ν) : Bool :=
  match thread.execution with
  | some execution => execution.frames.isEmpty
  | none => false

/-- The number of frames, unless the thread runs. -/
def depth? (thread : Thread ν) : Option Nat :=
  thread.execution.map fun execution => execution.frames.length

/-- The first slot of the operand stack, where an entry function leaves its result. -/
def result? (thread : Thread ν) : Option Int32 :=
  thread.execution.map fun execution => execution.stack[0]?.getD 0

end Thread

namespace Domain

variable {ν : Type}

/-- Creates an idle thread with variables at zero, after a queue to wait for it. -/
def createThread (domain : Domain ν) : Domain ν × ThreadId :=
  let (domain, joinQueue) := domain.createQueue
  let thread : Thread ν :=
    { «variables» := Array.replicate domain.threadVariables 0, joinQueue }
  ({ domain with threads := domain.threads.push thread }, ⟨domain.threads.size⟩)

/-- Suspends a thread and arms the given hook in place of an earlier one. -/
def suspend (domain : Domain ν) (id : ThreadId) (hook : Option (AbortHook ν)) :
    Except Fault (Domain ν) := do
  let thread ← domain.thread id
  return domain.setThread id { thread with suspended := true, hook }

/-- Writes the result of the native call in which a suspended thread waits. The result goes to the
top of the innermost frame's part of the operand stack. -/
def supplyResult (domain : Domain ν) (id : ThreadId) (value : Int32) :
    Except Fault (Except ThreadError (Domain ν)) := do
  let thread ← domain.thread id
  if !thread.suspended then return .error .notSuspended
  let some execution := thread.execution | return .error .running
  let some frame := execution.frames.head? | return .error .notStarted
  if frame.pc.isNone then return .error .noPendingResult
  if 0 < frame.top ∧ frame.top - 1 < execution.stack.size then
    let stack := execution.stack.set! (frame.top - 1) value
    return .ok (domain.setThread id { thread with execution := some { execution with stack } })
  else return .error .noPendingResult

/-- Clears the suspension of a thread that is being aborted, takes it out of its queue, and hands
over the hook that is now due. -/
def detach (domain : Domain ν) (id : ThreadId) :
    Except Fault (Domain ν × Option (AbortHook ν)) := do
  let thread ← domain.thread id
  let domain := domain.setThread id
    { thread with suspended := false, waitingOn := none, hook := none }
  let domain ← match thread.waitingOn with
    | some queue => domain.unlink queue id
    | none => .ok domain
  return (domain, thread.hook)

/-- Discards the frames of a thread, or asks a running thread to stop when control returns to it;
the first reason given to a running thread stands. -/
def discard (domain : Domain ν) (id : ThreadId) (reason : AbortReason) :
    Except Fault (Domain ν) := do
  let thread ← domain.thread id
  match thread.execution with
  | some execution =>
    return domain.setThread id { thread with execution := some { execution with frames := [] } }
  | none =>
    return domain.setThread id
      { thread with pendingAbort := thread.pendingAbort <|> some reason }

end Domain

end ScriptMachine

import ScriptMachine.Trace

/-!
# Domains

A domain holds everything that scripts share: variables, the object and function tables, threads
and wait queues. A thread is a stack of frames over one operand stack. It is idle without frames,
and suspended when a native call parked it; while it runs, the run has taken its frames and its
operand stack out of the domain, so `Thread.execution` is absent exactly then. A thread waits in at
most one queue, and the queue and the thread both record it.

Operations take identifiers as plain positions. One that names no entry of its table is a fault of
the caller, not a refusal: the machine stops there.
-/

namespace ScriptMachine

/-- Misuse that stops the machine. -/
inductive Fault where
  | noSuchThread
  | noSuchQueue
  /-- A run leaves the operand stack of its thread. Verified code never does. -/
  | stackBounds
  deriving DecidableEq

/-- One activation of a function. -/
structure Frame (ν : Type) where
  function : Function ν
  /-- Where to continue; absent until the frame first runs. -/
  pc : Option Nat := none
  /-- The position of the first local on the operand stack. -/
  base : Nat
  /-- The height of the operand stack at the point to continue from. -/
  top : Nat
  deriving DecidableEq

/-- The part of a thread that a run takes out of the domain. -/
structure Execution (ν : Type) where
  /-- The activations, the innermost first. -/
  frames : List (Frame ν) := []
  /-- The operand stack that all activations share. It only grows. -/
  stack : Array Int32 := #[]
  deriving DecidableEq

/-- What happens when a suspended thread is aborted. -/
inductive AbortHook (ν : Type) where
  /-- The host is called back. -/
  | custom (reference : ν)
  /-- The thread is taken from the sleepers. -/
  | leaveSleep

/-- A cooperative thread. -/
structure Thread (ν : Type) where
  /-- The frames and the operand stack; absent while the thread runs. -/
  execution : Option (Execution ν) := some {}
  «variables» : Array Int32
  suspended : Bool := false
  /-- The queue the thread waits in. -/
  waitingOn : Option QueueId := none
  /-- The hook armed by the suspension. -/
  hook : Option (AbortHook ν) := none
  /-- The reason of the first abort requested since the thread began to run. -/
  pendingAbort : Option AbortReason := none
  /-- The queue in which others can wait for the thread. -/
  joinQueue : QueueId

/-- Bounds on a run. -/
structure Limits where
  /-- The number of loop checks at which a run is aborted. -/
  loopBudget : Nat := 10000
  /-- The greatest number of frames of a thread. -/
  callDepth : Nat := 100
  deriving DecidableEq

/-- The receiver of a trace. -/
structure Sink (ν : Type) where
  reference : ν
  mask : Mask

/-- An entry of the object table. -/
inductive ObjectEntry where
  | text (value : String)
  /-- A native object, by its position among those of the host. -/
  | native (index : Nat)
  deriving DecidableEq

/-- The shared environment of scripts. -/
structure Domain (ν : Type) where
  globals : Array Int32 := #[]
  /-- Variables that scripts read and only the host writes. -/
  specials : Array Int32 := #[]
  objects : Array ObjectEntry := #[]
  functions : Array (Function ν) := #[]
  /-- The number of variables of each thread. -/
  threadVariables : Nat := 0
  threads : Array (Thread ν) := #[]
  /-- The waiting threads of each queue, the one that waits longest first. -/
  queues : Array (List ThreadId) := #[]
  /-- The thread of the innermost run. -/
  active : Option ThreadId := none
  limits : Limits := {}
  /-- Who is told of runs aborted by a limit. -/
  limitHandler : Option ν := none
  sink : Option (Sink ν) := none

namespace Domain

variable {ν : Type}

/-- Looks up a thread. -/
def thread (domain : Domain ν) (id : ThreadId) : Except Fault (Thread ν) :=
  match domain.threads[id.index]? with
  | some thread => .ok thread
  | none => .error .noSuchThread

/-- Looks up the waiters of a queue. -/
def waiters (domain : Domain ν) (id : QueueId) : Except Fault (List ThreadId) :=
  match domain.queues[id.index]? with
  | some waiters => .ok waiters
  | none => .error .noSuchQueue

/-- Replaces a thread. -/
def setThread (domain : Domain ν) (id : ThreadId) (thread : Thread ν) : Domain ν :=
  { domain with threads := domain.threads.set! id.index thread }

/-- Replaces the waiters of a queue. -/
def setWaiters (domain : Domain ν) (id : QueueId) (waiters : List ThreadId) : Domain ν :=
  { domain with queues := domain.queues.set! id.index waiters }

/-- Looks up a registered function. -/
def function? (domain : Domain ν) (id : FunctionId) : Option (Function ν) :=
  domain.functions[id.index]?

/-- The first registered function of a name. -/
def functionNamed? (domain : Domain ν) (name : String) : Option FunctionId :=
  (domain.functions.findIdx? fun function => function.name == name).map FunctionId.mk

/-- The diagnostic form of a domain: the sizes of its tables, the active thread and the limits. -/
def diagnostic (domain : Domain ν) : String :=
  let active := domain.active.map fun id => s!"ThreadId({id.index})"
  Record.shortened "Domain" [
    ("globals", toString domain.globals.size),
    ("specials", toString domain.specials.size),
    ("objects", toString domain.objects.size),
    ("functions", toString domain.functions.size),
    ("threads", toString domain.threads.size),
    ("queues", toString domain.queues.size),
    ("active", Record.optional active),
    ("limits", Record.closed "Limits" [
      ("loop_budget", toString domain.limits.loopBudget),
      ("max_call_depth", toString domain.limits.callDepth)])]

end Domain

end ScriptMachine

import ScriptMachine.Program

/-!
# Configurations

The machine interleaves bodies of the host with runs of threads. A body that makes a request may
start a run, and a run that calls a native method starts a body, to any depth. A configuration is
the work at hand, the suspended work below it, and what both act on. Each run holds the frames and
the operand stack of its thread, and each suspended piece of work says how it goes on, so nothing of
the nesting is hidden.
-/

namespace ScriptMachine

/-- What the one who started a run is told when it ends. -/
inductive Purpose where
  /-- How the run ended. -/
  | plain
  /-- How it ended, and the first slot of the operand stack. -/
  | result
  /-- How it ended, and the thread. -/
  | woken
  deriving DecidableEq

/-- A run of a thread. -/
structure Run (ν σ : Type) where
  thread : ThreadId
  /-- The thread that was active when the run started. -/
  previous : Option ThreadId
  /-- The frames and the operand stack of the thread. -/
  execution : Execution ν
  /-- The rest of the loop budget. -/
  budget : Nat
  purpose : Purpose
  /-- The body that started the run, from the answer on. -/
  reply : Answer ν → Body ν σ

/-- The registers of the innermost frame of a run. -/
structure Registers (ν : Type) where
  function : Function ν
  /-- The position of the first local on the operand stack. -/
  base : Nat
  pc : Nat
  /-- The height of the operand stack. -/
  sp : Nat
  deriving DecidableEq

/-- A native call in progress. -/
structure NativeCall where
  /-- The offset of the call. -/
  pc : Nat
  kind : MethodKind
  method : UInt8
  /-- Where the arguments start, and the result goes. -/
  base : Nat
  result : ResultKind

/-- What follows once an aborted thread is detached and its hook has been called. -/
inductive AfterAbort (ν σ : Type) where
  /-- The body that asked for the abort goes on. -/
  | reply (next : Answer ν → Body ν σ)
  /-- The thread gets a fresh frame, and is run if there is a purpose. -/
  | start (thread : ThreadId) (function : Function ν) (launch : Option Purpose)
      (next : Answer ν → Body ν σ)
  /-- The run in whose native call the thread was aborted stops. -/
  | stop (run : Run ν σ) (function : Function ν) (pc : Nat) (reason : AbortReason)

/-- Work that waits for a body to end. -/
inductive Pending (ν σ : Type) where
  /-- A run waits for a native method. The registers are those after the call. -/
  | calling (run : Run ν σ) (registers : Registers ν) (call : NativeCall)
  /-- An abort waits for a hook. -/
  | aborting (next : AfterAbort ν σ)

/-- The work at hand. -/
inductive Focus (ν σ : Type) where
  /-- A body of the host. -/
  | body (body : Body ν σ)
  /-- A run whose innermost frame is to be entered or continued. -/
  | enter (run : Run ν σ)
  /-- A run that is about to execute an instruction. -/
  | execute (run : Run ν σ) (registers : Registers ν)
  /-- A run that has ended but still holds its thread. -/
  | ended (run : Run ν σ) (outcome : Outcome)
  /-- The outermost body has ended. -/
  | finished (value : Int32)
  /-- The machine has stopped for a misuse. -/
  | faulted (fault : Fault)

/-- The state of the machine. -/
structure Config (ν σ : Type) where
  world : World ν
  /-- The host's own state. -/
  state : σ
  focus : Focus ν σ
  /-- The work that waits, the innermost first. -/
  pending : List (Pending ν σ) := []

namespace Config

variable {ν σ : Type}

/-- Whether the machine has come to an end. -/
def isFinal (config : Config ν σ) : Bool :=
  match config.focus with
  | .finished _ | .faulted _ => true
  | _ => false

/-- The machine about to carry out a body on behalf of the host. -/
def initial (world : World ν) (state : σ) (body : Body ν σ) : Config ν σ :=
  { world, state, focus := .body body }

/-- Goes on with other work. -/
def goto (config : Config ν σ) (focus : Focus ν σ) : Config ν σ := { config with focus }

/-- Changes the domain. -/
def setDomain (config : Config ν σ) (domain : Domain ν) : Config ν σ :=
  { config with world := { config.world with domain } }

/-- Goes on with the result of a computation, or stops for its fault. -/
def attempt {α : Type} (config : Config ν σ) (result : Except Fault α)
    (next : α → Config ν σ) : Config ν σ :=
  match result with
  | .ok value => next value
  | .error fault => config.goto (.faulted fault)

/-- Shows an event to the trace sink, if there is one that asks for its kind. -/
def emit (host : Host ν σ) (config : Config ν σ) (event : Event ν) : Config ν σ :=
  match config.world.domain.sink with
  | some sink =>
    if sink.mask.has event.kind then
      { config with state := host.onEvent sink.reference event config.state }
    else config
  | none => config

end Config

end ScriptMachine

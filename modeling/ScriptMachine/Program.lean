import ScriptMachine.Request

/-!
# Programs of the host

A program is a tree of requests with continuations, so that what a host does is a value: the machine
decides how each request is carried out, and no program can reach past it. Beside requests a program
may change the host's own state, of which the machine knows nothing.
-/

namespace ScriptMachine

/-- A program over a host state, with a result. -/
inductive Program (ν σ α : Type) where
  | done (result : α)
  | ask (request : Request ν) (next : Answer ν → Program ν σ α)
  /-- Changes the host state and goes on with the changed state. -/
  | modify (change : σ → σ) (next : σ → Program ν σ α)
  /-- Stops the machine. -/
  | crash (fault : Fault)

namespace Program

variable {ν σ α β : Type}

/-- Goes on with the result of a program. -/
def bind : Program ν σ α → (α → Program ν σ β) → Program ν σ β
  | done result, next => next result
  | ask request resume, next => ask request fun answer => (resume answer).bind next
  | modify change resume, next => modify change fun state => (resume state).bind next
  | crash fault, _ => crash fault

instance : Monad (Program ν σ) where
  pure := done
  bind := bind

/-- Makes a request. -/
def request (request : Request ν) : Program ν σ (Answer ν) := ask request done

/-- Makes an update. -/
def update (update : Update ν) : Program ν σ (Answer ν) := request (.update update)

/-- The world at this point. -/
def world : Program ν σ (World ν) :=
  ask .observe fun
    | .seen world => done world
    | _ => done {}

/-- The host state at this point. -/
def state : Program ν σ σ := modify id done

/-- Changes the host state. -/
def change (change : σ → σ) : Program ν σ Unit := modify change fun _ => done ()

/-- The value, or the fault of there being none. -/
def require (fault : Fault) : Option α → Program ν σ α
  | some value => done value
  | none => crash fault

/-- A thread, at this point. -/
def thread (id : ThreadId) : Program ν σ (Thread ν) :=
  world.bind fun world => require .noSuchThread world.domain.threads[id.index]?

/-- The waiters of a queue, at this point. -/
def waiters (id : QueueId) : Program ν σ (List ThreadId) :=
  world.bind fun world => require .noSuchQueue world.domain.queues[id.index]?

end Program

/-- What the machine runs for a callback. A native method answers the value; that of a hook or of
the host itself is not looked at. -/
abbrev Body (ν σ : Type) := Program ν σ Int32

/-- How the host answers the callbacks that a domain refers to. -/
structure Host (ν σ : Type) where
  /-- A native method, called with the slots of its arguments. -/
  native : ν → List Int32 → Body ν σ
  /-- A hook, called with the aborted thread. -/
  onAbort : ν → ThreadId → Body ν σ
  /-- A limit handler, called with the name of the offending function. -/
  onLimit : ν → String → σ → σ
  /-- A trace sink. -/
  onEvent : ν → Event ν → σ → σ

end ScriptMachine

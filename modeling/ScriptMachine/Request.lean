import ScriptMachine.World

/-!
# Requests

Native methods, abort hooks and the host itself act on the world only through requests. Most of them
run no script and call nobody back: these are updates, and `Update.apply` carries them out at once.
The others may start runs and hooks, and are carried out by the machine step by step. An update
that is refused leaves the world as it was.
-/

namespace ScriptMachine

/-- A request that changes the world at once. -/
inductive Update (ν : Type) where
  | declareGlobal (value : Int32)
  | declareSpecial (value : Int32)
  | declareThreadVariable
  | setGlobal (index : UInt8) (value : Int32)
  | setSpecial (index : UInt8) (value : Int32)
  | setThreadVariable (thread : ThreadId) (index : UInt8) (value : Int32)
  | setLimits (limits : Limits)
  | setLimitHandler (handler : Option ν)
  /-- Replaces the trace sink and answers whether there was one. -/
  | setSink (sink : Option (Sink ν))
  | clear
  | addFunction (function : Function ν)
  | addText (text : String)
  /-- Creates a native object that the host owns, and answers its position among them. -/
  | createNative (type : NativeType)
  /-- Registers a native object with the domain, if the host still owns it. -/
  | register (index : Nat)
  /-- The host gives up a native object; the answer is whether it owned it. -/
  | release (index : Nat)
  | createThread
  | createQueue
  | supplyResult (thread : ThreadId) (value : Int32)
  | suspend (thread : ThreadId) (hook : Option (AbortHook ν))
  | suspendActive (hook : Option (AbortHook ν))
  | park (queue : QueueId) (thread : ThreadId)
  | popWaiter (queue : QueueId)
  | transferNext (source target : QueueId)
  | transferAll (source target : QueueId)
  | resetQueue (queue : QueueId)
  /-- Puts the active thread to sleep and answers whether it did. -/
  | sleepActive (now : Nat) (ticks : Int32)
  /-- Takes the next sleeper that is due and has a number below the given one. -/
  | takeDue (now below : Nat)
  | clearSleepers
  /-- Resolves arguments and keeps the objects among them in existence. -/
  | hold (parameters : List Parameter) (values : List Int32)
  | unhold (arguments : List Argument)
  /-- Takes an object for a method call, and answers whether that was possible. -/
  | borrow (index : Nat)
  | unborrow (index : Nat)

/-- A request to the machine. -/
inductive Request (ν : Type) where
  /-- Looks at the world. -/
  | observe
  | update (update : Update ν)
  /-- Gives a thread a fresh frame of a function without running it. -/
  | start (thread : ThreadId) (function : FunctionId)
  /-- Starts a function on a thread and runs it. -/
  | run (thread : ThreadId) (function : FunctionId)
  /-- Starts and runs a function, and asks for its result. -/
  | runInt (thread : ThreadId) (function : FunctionId)
  /-- Continues a suspended thread that waits in no queue. -/
  | resume (thread : ThreadId)
  | abort (thread : ThreadId)
  /-- Aborts the active thread for an argument that makes no sense. -/
  | faultActive (error : ObjectError)
  /-- Continues the thread that waits longest in a queue, with a result if one is given. -/
  | wake (queue : QueueId) (value : Option Int32)

/-- The answer to a request. -/
inductive Answer (ν : Type) where
  | done
  | refused (reason : Refusal)
  /-- A position in a table. -/
  | index (position : Nat)
  | flag (value : Bool)
  | thread (id : Option ThreadId)
  | ran (outcome : Outcome)
  | returned (outcome : Outcome) (value : Int32)
  /-- The thread that was woken and how its run ended, or nothing if none waited. -/
  | woke (run : Option (ThreadId × Outcome))
  | resolved (arguments : List Argument)
  | seen (world : World ν)

namespace Update

variable {ν : Type}

/-- The answer to a change of the domain that may be refused. -/
def ofDomain (world : World ν) : Except DomainError (Domain ν) → World ν × Answer ν
  | .ok domain => ({ world with domain }, .done)
  | .error error => (world, .refused (.domain error))

/-- The answer to a declaration. -/
def ofDeclaration (world : World ν) : Except DomainError (Domain ν × Nat) → World ν × Answer ν
  | .ok (domain, index) => ({ world with domain }, .index index)
  | .error error => (world, .refused (.domain error))

/-- Carries out an update. -/
def apply (world : World ν) : Update ν → Except Fault (World ν × Answer ν)
  | declareGlobal value => .ok (ofDeclaration world (world.domain.declareGlobal value))
  | declareSpecial value => .ok (ofDeclaration world (world.domain.declareSpecial value))
  | declareThreadVariable => .ok (ofDeclaration world world.domain.declareThreadVariable)
  | setGlobal index value => .ok (ofDomain world (world.domain.setGlobal index value))
  | setSpecial index value => .ok (ofDomain world (world.domain.setSpecial index value))
  | setThreadVariable thread index value => do
    return ofDomain world (← world.domain.setThreadVariable thread index value)
  | setLimits limits => .ok ({ world with domain := { world.domain with limits } }, .done)
  | setLimitHandler limitHandler =>
    .ok ({ world with domain := { world.domain with limitHandler } }, .done)
  | setSink sink =>
    .ok ({ world with domain := { world.domain with sink } }, .flag world.domain.sink.isSome)
  | clear => .ok (ofDomain world world.domain.clear)
  | addFunction function =>
    let functions := world.domain.functions.push function
    .ok ({ world with domain := { world.domain with functions } },
      .index world.domain.functions.size)
  | addText text =>
    let objects := world.domain.objects.push (.text text)
    .ok ({ world with domain := { world.domain with objects } }, .index world.domain.objects.size)
  | createNative type =>
    .ok ({ world with natives := world.natives.push { type } }, .index world.natives.size)
  | register index =>
    match world.natives[index]? with
    | none => .ok (world, .refused (.object .released))
    | some object =>
      if object.owned then
        let objects := world.domain.objects.push (.native index)
        .ok ({ world with domain := { world.domain with objects } },
          .index world.domain.objects.size)
      else .ok (world, .refused (.object .released))
  | release index =>
    let owned := (world.natives[index]?.map NativeObject.owned).getD false
    .ok (world.modifyNative index fun object => { object with owned := false }, .flag owned)
  | createThread =>
    let (domain, id) := world.domain.createThread
    .ok ({ world with domain }, .index id.index)
  | createQueue =>
    let (domain, id) := world.domain.createQueue
    .ok ({ world with domain }, .index id.index)
  | supplyResult thread value => do
    match ← world.domain.supplyResult thread value with
    | .ok domain => return ({ world with domain }, .done)
    | .error error => return (world, .refused (.thread error))
  | suspend thread hook => do
    return ({ world with domain := ← world.domain.suspend thread hook }, .done)
  | suspendActive hook =>
    match world.domain.active with
    | none => .ok (world, .thread none)
    | some thread => do
      return ({ world with domain := ← world.domain.suspend thread hook }, .thread thread)
  | park queue thread => do
    return ({ world with domain := ← world.domain.park queue thread }, .done)
  | popWaiter queue => do
    let (domain, thread) ← world.domain.popWaiter queue
    return ({ world with domain }, .thread thread)
  | transferNext source target => do
    let (domain, thread) ← world.domain.transferNext source target
    return ({ world with domain }, .thread thread)
  | transferAll source target => do
    return ({ world with domain := ← world.domain.transferAll source target }, .done)
  | resetQueue queue => do
    return ({ world with domain := ← world.domain.resetQueue queue }, .done)
  | sleepActive now ticks =>
    match world.domain.active with
    | none => .ok (world, .flag false)
    | some thread =>
      if ticks ≤ 0 then .ok (world, .flag false)
      else do
        let domain ← world.domain.suspend thread (some .leaveSleep)
        let sleepers := world.sleepers.add thread now ticks.toNatClampNeg
        return ({ world with domain, sleepers }, .flag true)
  | takeDue now below =>
    match world.sleepers.takeDue now below with
    | none => .ok (world, .thread none)
    | some (thread, sleepers) => .ok ({ world with sleepers }, .thread thread)
  | clearSleepers => .ok ({ world with sleepers := world.sleepers.clear }, .done)
  | hold parameters values =>
    match world.arguments parameters values with
    | .error error => .ok (world, .refused (.object error))
    | .ok arguments => .ok (world.hold arguments, .resolved arguments)
  | unhold arguments => .ok (world.unhold arguments, .done)
  | borrow index =>
    match world.natives[index]? with
    | none => .ok (world, .flag false)
    | some object =>
      if object.borrowed then .ok (world, .flag false)
      else .ok (world.modifyNative index fun object => { object with borrowed := true },
        .flag true)
  | unborrow index =>
    .ok (world.modifyNative index fun object => { object with borrowed := false }, .done)

end Update

end ScriptMachine

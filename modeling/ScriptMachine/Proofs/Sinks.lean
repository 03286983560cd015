import ScriptMachine.Proofs.Reachable
import ScriptMachine.Proofs.Updates

/-!
# Trace sinks

A domain only keeps its trace sink. No operation on the domain looks at the sink or changes it, so
with another sink it does the same and leaves the same domain, with the other sink. An update of the
world looks at the sink only where it replaces it.
-/

namespace ScriptMachine

variable {ν α : Type}

/-- The domain with another trace sink, or without one. -/
def Domain.withSink (sink : Option (Sink ν)) (domain : Domain ν) : Domain ν :=
  { domain with sink }

/-- The world with another trace sink, or without one. -/
def World.withSink (sink : Option (Sink ν)) (world : World ν) : World ν :=
  { world with domain := world.domain.withSink sink }

/-- The update does not replace the trace sink. -/
def Update.KeepsSink : Update ν → Prop
  | .setSink _ => False
  | _ => True

/-- The request does not replace the trace sink. -/
def Request.KeepsSink : Request ν → Prop
  | .update change => change.KeepsSink
  | _ => True

namespace Domain

variable (sink : Option (Sink ν)) (domain : Domain ν)

@[simp] theorem thread_withSink (id : ThreadId) :
    (domain.withSink sink).thread id = domain.thread id := rfl

@[simp] theorem waiters_withSink (queue : QueueId) :
    (domain.withSink sink).waiters queue = domain.waiters queue := rfl

@[simp] theorem function?_withSink (id : FunctionId) :
    (domain.withSink sink).function? id = domain.function? id := rfl

@[simp] theorem globals_withSink : (domain.withSink sink).globals = domain.globals := rfl

@[simp] theorem specials_withSink : (domain.withSink sink).specials = domain.specials := rfl

@[simp] theorem active_withSink : (domain.withSink sink).active = domain.active := rfl

@[simp] theorem limits_withSink : (domain.withSink sink).limits = domain.limits := rfl

@[simp] theorem limitHandler_withSink :
    (domain.withSink sink).limitHandler = domain.limitHandler := rfl

@[simp] theorem setThread_withSink (id : ThreadId) (thread : Thread ν) :
    (domain.withSink sink).setThread id thread = (domain.setThread id thread).withSink sink := rfl

@[simp] theorem setWaiters_withSink (queue : QueueId) (waiters : List ThreadId) :
    (domain.withSink sink).setWaiters queue waiters =
      (domain.setWaiters queue waiters).withSink sink := rfl

/-- Declaring a global. -/
theorem declareGlobal_withSink (value : Int32) :
    (domain.withSink sink).declareGlobal value =
      (domain.declareGlobal value).map fun (next, index) => (next.withSink sink, index) := by
  have refusal : (domain.withSink sink).declarationRefusal (domain.withSink sink).globals.size =
      domain.declarationRefusal domain.globals.size := rfl
  unfold declareGlobal
  rw [refusal]
  cases domain.declarationRefusal domain.globals.size <;> rfl

/-- Declaring a special variable. -/
theorem declareSpecial_withSink (value : Int32) :
    (domain.withSink sink).declareSpecial value =
      (domain.declareSpecial value).map fun (next, index) => (next.withSink sink, index) := by
  have refusal : (domain.withSink sink).declarationRefusal (domain.withSink sink).specials.size =
      domain.declarationRefusal domain.specials.size := rfl
  unfold declareSpecial
  rw [refusal]
  cases domain.declarationRefusal domain.specials.size <;> rfl

/-- Declaring a variable of every thread. -/
theorem declareThreadVariable_withSink :
    (domain.withSink sink).declareThreadVariable =
      domain.declareThreadVariable.map fun (next, index) => (next.withSink sink, index) := by
  have refusal : (domain.withSink sink).declarationRefusal (domain.withSink sink).threadVariables =
      domain.declarationRefusal domain.threadVariables := rfl
  unfold declareThreadVariable
  rw [refusal]
  cases domain.declarationRefusal domain.threadVariables <;> rfl

/-- Writing a global. -/
theorem setGlobal_withSink (index : UInt8) (value : Int32) :
    (domain.withSink sink).setGlobal index value =
      (domain.setGlobal index value).map (withSink sink) := by
  simp only [setGlobal, withSink]
  cases writeVariable domain.globals index value <;> rfl

/-- Writing a special variable. -/
theorem setSpecial_withSink (index : UInt8) (value : Int32) :
    (domain.withSink sink).setSpecial index value =
      (domain.setSpecial index value).map (withSink sink) := by
  simp only [setSpecial, withSink]
  cases writeVariable domain.specials index value <;> rfl

/-- Writing a variable of a thread. -/
theorem setThreadVariable_withSink (id : ThreadId) (index : UInt8) (value : Int32) :
    (domain.withSink sink).setThreadVariable id index value =
      (domain.setThreadVariable id index value).map (·.map (withSink sink)) := by
  unfold setThreadVariable
  rw [thread_withSink]
  cases domain.thread id with
  | error fault => rfl
  | ok thread =>
    simp only [bind, Except.bind, setThread_withSink]
    cases writeVariable thread.variables index value <;> rfl

/-- Emptying the domain. -/
theorem clear_withSink : (domain.withSink sink).clear = domain.clear.map (withSink sink) := by
  unfold clear
  rw [active_withSink]
  cases domain.active <;> rfl

/-- Taking a thread out of a queue. -/
theorem unlink_withSink (queue : QueueId) (id : ThreadId) :
    (domain.withSink sink).unlink queue id = (domain.unlink queue id).map (withSink sink) := by
  unfold unlink
  rw [waiters_withSink]
  cases domain.waiters queue <;> rfl

/-- Suspending a thread. -/
theorem suspend_withSink (id : ThreadId) (hook : Option (AbortHook ν)) :
    (domain.withSink sink).suspend id hook = (domain.suspend id hook).map (withSink sink) := by
  unfold suspend
  rw [thread_withSink]
  cases domain.thread id <;> rfl

/-- Discarding the frames of a thread. -/
theorem discard_withSink (id : ThreadId) (reason : AbortReason) :
    (domain.withSink sink).discard id reason = (domain.discard id reason).map (withSink sink) := by
  unfold discard
  rw [thread_withSink]
  cases domain.thread id with
  | error fault => rfl
  | ok thread =>
    simp only [bind, Except.bind]
    cases thread.execution <;> rfl

/-- Detaching a thread. -/
theorem detach_withSink (id : ThreadId) :
    (domain.withSink sink).detach id =
      (domain.detach id).map fun (next, hook) => (next.withSink sink, hook) := by
  unfold detach
  rw [thread_withSink]
  cases domain.thread id with
  | error fault => rfl
  | ok thread =>
    simp only [bind, Except.bind, setThread_withSink]
    cases thread.waitingOn with
    | none => rfl
    | some queue =>
      simp only [unlink_withSink]
      cases Domain.unlink _ queue id <;> rfl

/-- Supplying a result. -/
theorem supplyResult_withSink (id : ThreadId) (value : Int32) :
    (domain.withSink sink).supplyResult id value =
      (domain.supplyResult id value).map (·.map (withSink sink)) := by
  unfold supplyResult
  rw [thread_withSink]
  cases domain.thread id with
  | error fault => rfl
  | ok thread =>
    simp only [bind, Except.bind, setThread_withSink]
    repeat' split
    all_goals rfl

/-- Parking a thread. -/
theorem park_withSink (queue : QueueId) (id : ThreadId) :
    (domain.withSink sink).park queue id = (domain.park queue id).map (withSink sink) := by
  have ends (domain : Domain ν) : (do
      let waiters ← (domain.withSink sink).waiters queue
      pure ((domain.withSink sink).setWaiters queue (waiters ++ [id]))) =
      Except.map (withSink sink) (do
        let waiters ← domain.waiters queue
        pure (domain.setWaiters queue (waiters ++ [id]))) := by
    rw [waiters_withSink]
    cases domain.waiters queue <;> rfl
  unfold park
  rw [thread_withSink]
  cases domain.thread id with
  | error fault => rfl
  | ok thread =>
    simp only [bind, Except.bind, setThread_withSink] at ends ⊢
    cases thread.waitingOn with
    | none => exact ends _
    | some previous =>
      simp only [unlink_withSink]
      cases Domain.unlink _ previous id with
      | error fault => rfl
      | ok left => exact ends left

/-- The thread that waits longest. -/
@[simp] theorem nextWaiter?_withSink (queue : QueueId) :
    (domain.withSink sink).nextWaiter? queue = domain.nextWaiter? queue := rfl

/-- Taking the thread that waits longest out of its queue. -/
theorem popWaiter_withSink (queue : QueueId) :
    (domain.withSink sink).popWaiter queue =
      (domain.popWaiter queue).map fun (next, popped) => (next.withSink sink, popped) := by
  unfold popWaiter
  rw [waiters_withSink]
  cases domain.waiters queue with
  | error fault => rfl
  | ok waiters =>
    cases waiters with
    | nil => rfl
    | cons head rest =>
      simp only [bind, Except.bind, setWaiters_withSink, thread_withSink]
      cases Domain.thread _ head <;> rfl

/-- Recording a queue in threads. -/
theorem relink_withSink (waitingOn : Option QueueId) (ids : List ThreadId) :
    relink waitingOn (domain.withSink sink) ids =
      (relink waitingOn domain ids).map (withSink sink) := by
  unfold relink
  induction ids generalizing domain with
  | nil => rfl
  | cons id ids ih =>
    simp only [List.foldlM_cons, bind, Except.bind, thread_withSink]
    cases domain.thread id with
    | error fault => rfl
    | ok thread => exact ih (domain.setThread id { thread with waitingOn })

/-- Moving the thread that waits longest. -/
theorem transferNext_withSink (source target : QueueId) :
    (domain.withSink sink).transferNext source target =
      (domain.transferNext source target).map fun (next, moved) => (next.withSink sink, moved) := by
  unfold transferNext
  rw [waiters_withSink]
  cases domain.waiters source with
  | error fault => rfl
  | ok waiters =>
    cases waiters with
    | nil => rfl
    | cons head rest =>
      simp only [bind, Except.bind, setWaiters_withSink, relink_withSink]
      split
      · rfl
      · cases relink (some target) (domain.setWaiters source rest) [head] with
        | error fault => rfl
        | ok linked =>
          simp only [Except.map, waiters_withSink]
          cases linked.waiters target <;> rfl

/-- Moving all threads of a queue. -/
theorem transferAll_withSink (source target : QueueId) :
    (domain.withSink sink).transferAll source target =
      (domain.transferAll source target).map (withSink sink) := by
  unfold transferAll
  split
  · rfl
  · rw [waiters_withSink]
    cases domain.waiters source with
    | error fault => rfl
    | ok moved =>
      simp only [bind, Except.bind, setWaiters_withSink, relink_withSink]
      cases relink (some target) (domain.setWaiters source []) moved with
      | error fault => rfl
      | ok linked =>
        simp only [Except.map, waiters_withSink]
        cases linked.waiters target <;> rfl

/-- Emptying a queue. -/
theorem resetQueue_withSink (queue : QueueId) :
    (domain.withSink sink).resetQueue queue = (domain.resetQueue queue).map (withSink sink) := by
  unfold resetQueue
  rw [waiters_withSink]
  cases domain.waiters queue with
  | error fault => rfl
  | ok removed => exact relink_withSink sink (domain.setWaiters queue []) none removed

end Domain

namespace World

variable (sink : Option (Sink ν)) (world : World ν)

@[simp] theorem domain_withSink : (world.withSink sink).domain = world.domain.withSink sink := rfl

@[simp] theorem sleepers_withSink : (world.withSink sink).sleepers = world.sleepers := rfl

@[simp] theorem natives_withSink : (world.withSink sink).natives = world.natives := rfl

@[simp] theorem view_withSink : (world.withSink sink).view = world.view := rfl

/-- Resolving the arguments of a call. -/
theorem arguments_withSink (parameters : List Parameter) (values : List Int32) :
    (world.withSink sink).arguments parameters values = world.arguments parameters values := by
  have each (position : Nat) : (world.withSink sink).argumentsFrom position parameters values =
      world.argumentsFrom position parameters values := by
    induction parameters generalizing position values with
    | nil => rfl
    | cons parameter parameters ih =>
      cases values with
      | nil => rfl
      | cons value values =>
        have first : (world.withSink sink).argument value parameter =
            world.argument value parameter := by
          cases parameter <;> rfl
        rw [argumentsFrom, argumentsFrom, first, ih]
  exact each 0

/-- Changing the native objects among some arguments. -/
theorem modifyArguments_withSink (change : NativeObject → NativeObject)
    (arguments : List Argument) :
    (world.withSink sink).modifyArguments change arguments =
      (world.modifyArguments change arguments).withSink sink := by
  unfold modifyArguments
  induction arguments generalizing world with
  | nil => rfl
  | cons argument arguments ih =>
    rw [List.foldl_cons, List.foldl_cons, ← ih]
    cases argument <;> rfl

end World

namespace Update

variable {sink : Option (Sink ν)} {world : World ν}

/-- The answer of an update in a world with another trace sink. -/
def answered (sink : Option (Sink ν)) (result : World ν × Answer ν) : World ν × Answer ν :=
  (result.1.withSink sink, result.2)

/-- The answer to a change of the domain. -/
theorem ofDomain_withSink {result result' : Except DomainError (Domain ν)}
    (same : result' = result.map (Domain.withSink sink)) :
    ofDomain (world.withSink sink) result' = answered sink (ofDomain world result) := by
  subst same
  cases result <;> rfl

/-- The answer to a declaration. -/
theorem ofDeclaration_withSink {result result' : Except DomainError (Domain ν × Nat)}
    (same : result' = result.map fun (next, index) => (next.withSink sink, index)) :
    ofDeclaration (world.withSink sink) result' = answered sink (ofDeclaration world result) := by
  subst same
  cases result <;> rfl

/-! ### Family by family -/

theorem memory_withSink {update : Update ν} (member : update.family = .memory) :
    update.apply (world.withSink sink) = (update.apply world).map (answered sink) := by
  cases update with
  | declareGlobal value =>
    exact congrArg Except.ok
      (ofDeclaration_withSink (world.domain.declareGlobal_withSink sink value))
  | declareSpecial value =>
    exact congrArg Except.ok
      (ofDeclaration_withSink (world.domain.declareSpecial_withSink sink value))
  | declareThreadVariable =>
    exact congrArg Except.ok
      (ofDeclaration_withSink (world.domain.declareThreadVariable_withSink sink))
  | setGlobal index value =>
    exact congrArg Except.ok (ofDomain_withSink (world.domain.setGlobal_withSink sink index value))
  | setSpecial index value =>
    exact congrArg Except.ok (ofDomain_withSink (world.domain.setSpecial_withSink sink index value))
  | setThreadVariable id index value =>
    simp only [apply, World.domain_withSink, Domain.setThreadVariable_withSink]
    cases world.domain.setThreadVariable id index value with
    | error fault => rfl
    | ok result => exact congrArg Except.ok (ofDomain_withSink rfl)
  | _ => cases member

theorem settings_withSink {update : Update ν} (member : update.family = .settings)
    (keeps : update.KeepsSink) :
    update.apply (world.withSink sink) = (update.apply world).map (answered sink) := by
  cases update with
  | setSink _ => exact keeps.elim
  | clear => exact congrArg Except.ok (ofDomain_withSink (world.domain.clear_withSink sink))
  | setLimits | setLimitHandler => rfl
  | _ => cases member

theorem tables_withSink {update : Update ν} (member : update.family = .tables) :
    update.apply (world.withSink sink) = (update.apply world).map (answered sink) := by
  cases update with
  | addFunction | addText | createThread | createQueue => rfl
  | _ => cases member

theorem suspensions_withSink {update : Update ν} (member : update.family = .suspensions) :
    update.apply (world.withSink sink) = (update.apply world).map (answered sink) := by
  cases update with
  | supplyResult id value =>
    simp only [apply, World.domain_withSink, Domain.supplyResult_withSink]
    cases world.domain.supplyResult id value with
    | error fault => rfl
    | ok result => cases result <;> rfl
  | suspend id hook =>
    simp only [apply, World.domain_withSink, Domain.suspend_withSink]
    cases world.domain.suspend id hook <;> rfl
  | suspendActive hook =>
    simp only [apply, World.domain_withSink, Domain.active_withSink]
    cases world.domain.active with
    | none => rfl
    | some id =>
      simp only [Domain.suspend_withSink]
      cases world.domain.suspend id hook <;> rfl
  | _ => cases member

theorem queues_withSink {update : Update ν} (member : update.family = .queues) :
    update.apply (world.withSink sink) = (update.apply world).map (answered sink) := by
  cases update with
  | park queue id =>
    simp only [apply, World.domain_withSink, Domain.park_withSink]
    cases world.domain.park queue id <;> rfl
  | popWaiter queue =>
    simp only [apply, World.domain_withSink, Domain.popWaiter_withSink]
    cases world.domain.popWaiter queue <;> rfl
  | transferNext source target =>
    simp only [apply, World.domain_withSink, Domain.transferNext_withSink]
    cases world.domain.transferNext source target <;> rfl
  | transferAll source target =>
    simp only [apply, World.domain_withSink, Domain.transferAll_withSink]
    cases world.domain.transferAll source target <;> rfl
  | resetQueue queue =>
    simp only [apply, World.domain_withSink, Domain.resetQueue_withSink]
    cases world.domain.resetQueue queue <;> rfl
  | _ => cases member

theorem sleepers_withSink {update : Update ν} (member : update.family = .sleepers) :
    update.apply (world.withSink sink) = (update.apply world).map (answered sink) := by
  cases update with
  | sleepActive now ticks =>
    simp only [apply, World.domain_withSink, Domain.active_withSink]
    cases world.domain.active with
    | none => rfl
    | some id =>
      dsimp only
      split
      · rfl
      · simp only [Domain.suspend_withSink]
        cases world.domain.suspend id (some .leaveSleep) <;> rfl
  | takeDue now below =>
    simp only [apply, World.sleepers_withSink]
    cases world.sleepers.takeDue now below <;> rfl
  | clearSleepers => rfl
  | _ => cases member

theorem natives_withSink {update : Update ν} (member : update.family = .natives) :
    update.apply (world.withSink sink) = (update.apply world).map (answered sink) := by
  cases update with
  | register index =>
    simp only [apply, World.natives_withSink]
    split
    · rfl
    · split <;> rfl
  | hold parameters values =>
    simp only [apply, World.arguments_withSink]
    cases world.arguments parameters values with
    | error error => rfl
    | ok arguments =>
      simp only [World.hold, World.modifyArguments_withSink]
      rfl
  | unhold arguments =>
    simp only [apply, World.unhold, World.modifyArguments_withSink]
    rfl
  | borrow index =>
    simp only [apply, World.natives_withSink]
    cases world.natives[index]? with
    | none => rfl
    | some object =>
      dsimp only
      split <;> rfl
  | createNative | release | unborrow => rfl
  | _ => cases member

/-- An update that does not replace the trace sink answers the same and leaves the same world with
another sink. -/
theorem apply_withSink {update : Update ν} (keeps : update.KeepsSink) :
    update.apply (world.withSink sink) = (update.apply world).map (answered sink) := by
  cases family : update.family with
  | memory => exact memory_withSink family
  | settings => exact settings_withSink family keeps
  | tables => exact tables_withSink family
  | suspensions => exact suspensions_withSink family
  | queues => exact queues_withSink family
  | sleepers => exact sleepers_withSink family
  | natives => exact natives_withSink family

end Update

end ScriptMachine

import ScriptMachine.Proofs.Operations
import ScriptMachine.Proofs.Updates

/-!
# Changes of the domain

What updates and steps can do to a domain is a short list of elementary changes. An invariant of
domains that each elementary change keeps is kept by every step, so no such invariant has to look
into the machine again.
-/

namespace ScriptMachine

variable {ν σ : Type}

/-- What an update does to a domain, unless it registers a function. -/
inductive Domain.Updated (domain : Domain ν) : Domain ν → Prop where
  /-- Threads, queues and functions stay as they are. -/
  | tables {next : Domain ν} (threads : next.threads = domain.threads)
    (queues : next.queues = domain.queues) (functions : next.functions = domain.functions)
    (active : next.active = domain.active) : domain.Updated next
  | clear {next : Domain ν} (done : domain.clear = .ok next) : domain.Updated next
  | values {id : ThreadId} {thread : Thread ν} (present : domain.thread? id = some thread)
    (values : Array Int32) :
    domain.Updated (domain.setThread id { thread with «variables» := values })
  | createThread : domain.Updated domain.createThread.1
  | createQueue : domain.Updated domain.createQueue.1
  | supply {next : Domain ν} {id : ThreadId} {value : Int32}
    (done : domain.supplyResult id value = .ok (.ok next)) : domain.Updated next
  | suspend {next : Domain ν} {id : ThreadId} {hook : Option (AbortHook ν)}
    (done : domain.suspend id hook = .ok next) : domain.Updated next
  | park {next : Domain ν} {queue : QueueId} {id : ThreadId}
    (done : domain.park queue id = .ok next) : domain.Updated next
  | pop {next : Domain ν} {queue : QueueId} {popped : Option ThreadId}
    (done : domain.popWaiter queue = .ok (next, popped)) : domain.Updated next
  | transferNext {next : Domain ν} {source target : QueueId} {moved : Option ThreadId}
    (done : domain.transferNext source target = .ok (next, moved)) : domain.Updated next
  | transferAll {next : Domain ν} {source target : QueueId}
    (done : domain.transferAll source target = .ok next) : domain.Updated next
  | reset {next : Domain ν} {queue : QueueId}
    (done : domain.resetQueue queue = .ok next) : domain.Updated next

namespace Domain.Updated

variable {domain : Domain ν}

/-- Nothing may change at all. -/
theorem refl (domain : Domain ν) : domain.Updated domain := .tables rfl rfl rfl rfl

end Domain.Updated

/-- Changing native objects leaves the domain alone. -/
@[simp] theorem World.domain_modifyNative (world : World ν) (index : Nat)
    (change : NativeObject → NativeObject) :
    (world.modifyNative index change).domain = world.domain := rfl

/-- Changing native objects leaves the sleepers alone. -/
@[simp] theorem World.sleepers_modifyNative (world : World ν) (index : Nat)
    (change : NativeObject → NativeObject) :
    (world.modifyNative index change).sleepers = world.sleepers := rfl

/-- Changing the objects among some arguments leaves the domain and the sleepers alone. -/
theorem World.modifyArguments_frame (world : World ν) (change : NativeObject → NativeObject)
    (arguments : List Argument) :
    (world.modifyArguments change arguments).domain = world.domain ∧
      (world.modifyArguments change arguments).sleepers = world.sleepers := by
  unfold modifyArguments
  induction arguments generalizing world with
  | nil => exact ⟨rfl, rfl⟩
  | cons argument arguments ih =>
    rw [List.foldl_cons]
    cases argument with
    | object index => exact ih (world.modifyNative index change)
    | int value => exact ih world
    | text value => exact ih world
    | function id => exact ih world

/-- An update registers a function or changes the domain in one of the listed ways. -/
theorem Update.updated_of_apply {world next : World ν} {update : Update ν} {answer : Answer ν}
    (done : update.apply world = .ok (next, answer)) :
    (∃ function, update = .addFunction function ∧ next.domain =
        { world.domain with functions := world.domain.functions.push function }) ∨
      world.domain.Updated next.domain := by
  cases yields_of_apply done with
  | addFunction function => exact .inl ⟨function, rfl, rfl⟩
  | setThreadVariable present => exact .inr (.values present _)
  | clear cleared => exact .inr (.clear cleared)
  | createThread => exact .inr .createThread
  | createQueue => exact .inr .createQueue
  | supplyResult supplied => exact .inr (.supply supplied)
  | suspend suspended | suspendActive _ suspended | sleepActive _ _ suspended =>
    exact .inr (.suspend suspended)
  | park parked => exact .inr (.park parked)
  | popWaiter popped => exact .inr (.pop popped)
  | transferNext moved => exact .inr (.transferNext moved)
  | transferAll moved => exact .inr (.transferAll moved)
  | resetQueue emptied => exact .inr (.reset emptied)
  | hold | unhold =>
    simp only [World.hold, World.unhold, World.modifyArguments_frame]
    exact .inr (.refl _)
  | nothing | declareGlobal | declareSpecial | declareThreadVariable | setGlobal | setSpecial
  | setLimits | setLimitHandler | setSink | addText | createNative | register | release | takeDue
  | clearSleepers | borrow | unborrow => exact .inr (.tables rfl rfl rfl rfl)

/-- The elementary changes of a domain. -/
inductive Domain.Change (domain : Domain ν) : Domain ν → Prop where
  | updated {next : Domain ν} (update : domain.Updated next) : domain.Change next
  | register (function : Function ν) :
    domain.Change { domain with functions := domain.functions.push function }
  /-- A run takes the frames of a thread or gives them back, frames are pushed or discarded, or an
  abort is recorded or honored. -/
  | execution {id : ThreadId} {thread : Thread ν} (present : domain.thread? id = some thread)
    (execution : Option (Execution ν)) (pendingAbort : Option AbortReason) :
    domain.Change (domain.setThread id { thread with execution, pendingAbort })
  | active (active : Option ThreadId) : domain.Change { domain with active }
  /-- A thread that waits nowhere goes on. -/
  | release {id : ThreadId} {thread : Thread ν} (present : domain.thread? id = some thread)
    (free : thread.waitingOn = none) :
    domain.Change (domain.setThread id { thread with suspended := false, hook := none })
  | detach {next : Domain ν} {id : ThreadId} {hook : Option (AbortHook ν)}
    (done : domain.detach id = .ok (next, hook)) : domain.Change next

namespace Config

/-- The domain of one configuration comes from that of another by elementary changes. -/
def Evolves (before after : Config ν σ) : Prop :=
  Relation.ReflTransGen Domain.Change before.world.domain after.world.domain

namespace Evolves

variable {before middle after config : Config ν σ}

/-- Nothing has changed. -/
theorem of_same (same : after.world.domain = before.world.domain) : before.Evolves after := by
  unfold Evolves
  rw [same]

/-- Changes after changes are changes. -/
theorem trans (first : before.Evolves middle) (second : middle.Evolves after) :
    before.Evolves after := Relation.ReflTransGen.trans first second

/-- One elementary change. -/
theorem single {domain : Domain ν} (change : before.world.domain.Change domain) :
    before.Evolves (before.setDomain domain) := Relation.ReflTransGen.single change

/-- One elementary change, beside a change of the work at hand. -/
theorem of_change (change : before.world.domain.Change after.world.domain) :
    before.Evolves after := Relation.ReflTransGen.single change

/-- A thread that begins to run. -/
theorem launch (host : Host ν σ) (id : ThreadId) (purpose : Purpose)
    (reply : Answer ν → Body ν σ) : config.Evolves (config.launch host id purpose reply) := by
  refine attempt_induction (fun _ => .of_same rfl) fun thread found => ?_
  have present := Domain.thread_eq_ok.1 found
  split
  · exact .of_same rfl
  · rename_i execution taken
    have took : config.world.domain.Change
        (config.world.domain.setThread id { thread with execution := none }) :=
      .execution present none thread.pendingAbort
    refine trans (single took) (of_change ?_)
    split
    · exact .active (some id)
    · simp only [goto_world, emit_world]
      exact .active (some id)

/-- A run that ends. -/
theorem finishRun (host : Host ν σ) (run : Run ν σ) (outcome : Outcome) :
    config.Evolves (config.finishRun host run outcome) := by
  refine attempt_induction (fun _ => .of_same rfl) fun thread found => ?_
  have present := Domain.thread_eq_ok.1 found
  have gave := Domain.Change.execution present (some run.execution) none
  refine trans (single gave) (of_change ?_)
  simp only [goto_world, emit_world]
  exact .active run.previous

/-- A run that is aborted has taken its frames out of the domain before. -/
theorem abortRun (host : Host ν σ) (run : Run ν σ) (function : Function ν) (pc : Nat)
    (reason : AbortReason) : config.Evolves (config.abortRun host run function pc reason) :=
  .of_same rfl

/-- What follows an abort. -/
theorem afterAbort (host : Host ν σ) (next : AfterAbort ν σ) :
    config.Evolves (config.afterAbort host next) := by
  cases next with
  | reply next => exact .of_same rfl
  | stop run function pc reason => exact abortRun host run function pc reason
  | start id function purpose next =>
    refine attempt_induction (fun _ => .of_same rfl) fun thread found => ?_
    have present := Domain.thread_eq_ok.1 found
    split
    · exact .of_same rfl
    · rename_i execution held
      have pushed := Domain.Change.execution present
        (some { execution with frames := { function, base := 0, top := 0 } :: execution.frames })
        thread.pendingAbort
      cases purpose with
      | none => exact single pushed
      | some purpose =>
        exact trans (single pushed) (launch host id purpose next)

/-- A thread that is detached. -/
theorem detach (host : Host ν σ) (id : ThreadId) (next : AfterAbort ν σ) :
    config.Evolves (config.detach host id next) := by
  refine attempt_induction (fun _ => .of_same rfl) fun ⟨domain, hook⟩ done => ?_
  have detached : config.Evolves (config.setDomain domain) := single (.detach done)
  dsimp only
  split
  · exact trans detached (afterAbort host next)
  · refine trans detached (trans (of_same ?_) (afterAbort host next))
    rfl
  · exact detached

/-- A thread that is aborted. -/
theorem abort (host : Host ν σ) (id : ThreadId) (reason : AbortReason)
    (next : AfterAbort ν σ) : config.Evolves (config.abort host id reason next) := by
  refine attempt_induction (fun _ => .of_same rfl) fun domain done => ?_
  obtain ⟨thread, present, ⟨execution, _, rfl⟩ | ⟨taken, rfl⟩⟩ := Domain.discard_eq_ok done
  · exact trans (single (.execution present _ thread.pendingAbort)) (detach host id next)
  · have same : { thread with pendingAbort := thread.pendingAbort <|> some reason } =
        { thread with
          execution := none, pendingAbort := thread.pendingAbort <|> some reason } := by
      rw [← taken]
    rw [same]
    exact trans (single (.execution present none _)) (detach host id next)

/-- A thread that is given a fresh frame. -/
theorem start (host : Host ν σ) (id : ThreadId) (function : FunctionId)
    (purpose : Option Purpose) (next : Answer ν → Body ν σ) :
    config.Evolves (config.start host id function purpose next) := by
  refine start_induction (fun _ => .of_same rfl) (fun _ => .of_same rfl)
    (fun _ _ _ => .of_same rfl) fun function thread execution _ _ _ => ⟨fun _ => ?_, fun _ _ => ?_⟩
  · exact abort host id .requested _
  · exact afterAbort host _

/-- A thread that goes on and waits nowhere. -/
theorem continueThread (host : Host ν σ) (id : ThreadId) (purpose : Purpose)
    (next : Answer ν → Body ν σ)
    (free : ∀ thread, config.world.domain.thread? id = some thread → thread.waitingOn = none) :
    config.Evolves (config.continueThread host id purpose next) := by
  refine attempt_induction (fun _ => .of_same rfl) fun thread found => ?_
  have present := Domain.thread_eq_ok.1 found
  have released : config.Evolves (config.setDomain _) :=
    single (.release present (free thread present))
  dsimp only
  split
  · exact released
  · exact trans released (launch host id purpose next)

/-- A thread that the host resumes. -/
theorem resume (host : Host ν σ) (id : ThreadId) (next : Answer ν → Body ν σ) :
    config.Evolves (config.resume host id next) := by
  refine resume_induction (fun _ => .of_same rfl) (fun _ => .of_same rfl)
    fun thread present _ _ free => continueThread host id .plain next fun other known => ?_
  obtain rfl := Option.some.inj (present.symm.trans known)
  exact free

/-- A result handed to a woken thread touches nothing that it records about waiting. -/
theorem handResult {domain next : Domain ν} {id : ThreadId} {value : Option Int32}
    (done : Config.handResult domain id value = .ok (.ok next)) :
    domain.Updated next ∧ ∀ thread, next.thread? id = some thread →
      ∃ old, domain.thread? id = some old ∧ thread.waitingOn = old.waitingOn := by
  cases value with
  | none =>
    cases done
    exact ⟨.refl domain, fun thread known => ⟨thread, known, rfl⟩⟩
  | some value =>
    obtain ⟨result, supplied, rest⟩ := bind_eq_ok.1 done
    split at rest
    · cases rest
      exact ⟨.refl _, fun thread known => ⟨thread, known, rfl⟩⟩
    · cases rest
      exact ⟨.refl _, fun thread known => ⟨thread, known, rfl⟩⟩
    · cases rest
      refine ⟨.supply supplied, fun thread known => ?_⟩
      obtain ⟨old, _, _, _, present, _, _, _, _, _, _, rfl⟩ := Domain.supplyResult_eq_ok supplied
      rw [Domain.thread?_setThread present, if_pos rfl] at known
      cases known
      exact ⟨old, present, rfl⟩

/-- A thread that is woken through its queue. -/
theorem wake (host : Host ν σ) (queue : QueueId) (value : Option Int32)
    (next : Answer ν → Body ν σ) : config.Evolves (config.wake host queue value next) := by
  refine wake_induction (fun _ => .of_same rfl) (fun _ => .of_same rfl)
    (fun _ _ _ _ _ => .of_same rfl) fun head _ domain _ first _ _ done => ?_
  have left : config.Evolves (config.setDomain domain) := single (.updated (.pop done))
  refine ⟨fun _ => trans left (.of_same rfl), fun _ _ => trans left (.of_same rfl),
    fun supplied handed => ?_⟩
  obtain ⟨update, recorded⟩ := handResult handed
  refine trans left (trans (single (.updated update)) (continueThread host head .woken next ?_))
  intro thread known
  obtain ⟨old, before, same⟩ := recorded thread known
  obtain ⟨empty, _⟩ | ⟨popped, _, _, filled, _, _, threads, _⟩ := Domain.popWaiter_eq_ok done
  · simp [empty] at first
  · obtain rfl : popped = head := by simpa [filled] using first
    rw [threads, if_pos rfl] at before
    cases before
    exact same

/-- A request that is carried out. -/
theorem perform (host : Host ν σ) (request : Request ν) (next : Answer ν → Body ν σ) :
    config.Evolves (config.perform host request next) := by
  cases request with
  | observe => exact .of_same rfl
  | update update =>
    refine attempt_induction (fun _ => .of_same rfl) fun ⟨world, answer⟩ done => ?_
    obtain ⟨function, _, registered⟩ | updated := Update.updated_of_apply done
    · refine of_change ?_
      dsimp only
      rw [registered]
      exact .register function
    · exact of_change (.updated updated)
  | start id function => exact start host id function none next
  | run id function => exact start host id function (some .plain) next
  | runInt id function => exact start host id function (some .result) next
  | resume id => exact resume host id next
  | abort id => exact abort host id .requested (.reply next)
  | faultActive error =>
    unfold Config.perform
    dsimp only
    split
    · exact .of_same rfl
    · exact abort host _ _ _
  | wake queue value => exact wake host queue value next

/-- A frame that is entered. -/
theorem enterFrame (host : Host ν σ) (run : Run ν σ) :
    config.Evolves (config.enterFrame host run) := by
  unfold Config.enterFrame
  split
  · exact .of_same rfl
  · split
    · exact .of_same rfl
    · exact .of_same (by simp)

/-- A frame that is left. -/
theorem leaveFrame (host : Host ν σ) (run : Run ν σ) (function : Function ν)
    (stack : Array Int32) : config.Evolves (config.leaveFrame host run function stack) :=
  .of_same (by simp [Config.leaveFrame])

/-- A native method that is called. -/
theorem callNative (host : Host ν σ) (run : Run ν σ) (registers : Registers ν) (next : Nat)
    (call : NativeCall) : config.Evolves (config.callNative host run registers next call) := by
  unfold Config.callNative
  split
  · exact abortRun host ..
  · dsimp only
    split <;> exact .of_same (by simp)

/-- A native method that answers. -/
theorem returnNative (host : Host ν σ) (run : Run ν σ) (registers : Registers ν)
    (call : NativeCall) (value : Int32) :
    config.Evolves (config.returnNative host run registers call value) := by
  refine returnNative_induction fun shown emitted => ?_
  have quiet : config.Evolves shown := of_same (by rw [← emitted, emit_world])
  refine ⟨fun _ => trans quiet (.of_same rfl), fun stack thread _ present =>
    ⟨fun reason _ => ?_, fun _ _ => ?_, fun _ _ => ?_⟩⟩
  · exact trans quiet (trans (of_change (.execution present thread.execution none))
      (detach host run.thread _))
  · exact trans quiet (.of_same (by simp))
  · exact trans quiet (.of_same rfl)

/-- A script function that is called. -/
theorem callScript (host : Host ν σ) (run : Run ν σ) (registers : Registers ν) (next : Nat)
    (result : ResultKind) (callee : FunctionId) (argc : Nat) :
    config.Evolves (config.callScript host run registers next result callee argc) := by
  refine callScript_induction (fun _ => .of_same rfl) (fun _ => abortRun host ..)
    fun function _ _ => ⟨fun _ _ _ => ?_, fun _ => ?_⟩
  · exact abortRun host ..
  · exact .of_same rfl

/-- An instruction that is executed. -/
theorem execute (host : Host ν σ) (run : Run ν σ) (registers : Registers ν) :
    config.Evolves (config.execute host run registers) := by
  refine execute_induction (abortRun host ..) fun instruction pc shown _ emitted => ?_
  -- The event that is shown changes nothing that the instruction acts on.
  have quiet : config.Evolves shown := of_same (by rw [← emitted, emit_world])
  exact {
    stops _ := trans quiet (.of_same rfl)
    aborts _ := trans quiet (abortRun host ..)
    goes _ _ _ _ := trans quiet (.of_same rfl)
    writes _ _ _ _ := trans quiet (of_change (.updated (.tables rfl rfl rfl rfl)))
    native _ _ _ _ _ := trans quiet (callNative host ..)
    script _ _ _ _ := trans quiet (callScript host ..)
    leaves _ _ _ := trans quiet (leaveFrame host ..) }

end Evolves

/-- A step changes the domain by elementary changes only. -/
theorem step_evolves (host : Host ν σ) (config : Config ν σ) :
    config.Evolves (config.step host) :=
  step_induction {
    rests _ := .of_same rfl
    enters _ _ := .enterFrame host _
    executes _ _ _ := .execute host _ _
    ends _ _ _ := .finishRun host _ _
    asks _ _ _ := .perform host _ _
    modifies _ _ _ := .of_same rfl
    crashes _ _ := .of_same rfl
    concludes _ _ _ := .of_same rfl
    answers _ _ _ _ _ _ _ := .trans (.of_same (by rfl)) (.returnNative host ..)
    goesOn _ _ _ _ _ := .trans (.of_same (by rfl)) (.afterAbort host _) }

end Config

end ScriptMachine

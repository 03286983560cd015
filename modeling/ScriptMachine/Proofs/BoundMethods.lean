import ScriptMachine.Proofs.CleanAborts
import ScriptMachine.Proofs.HonoredAborts
import ScriptMachine.Proofs.Instructions
import ScriptMachine.Proofs.Resolution
import ScriptMachine.Proofs.RunningThreads

/-!
# Bound native methods

A function that is bound to a signature is called once, with the resolved arguments, if every
argument slot resolves and the object of a method is not borrowed. Otherwise it is not called, and
the thread whose run has called the native method is aborted for the first slot that fails, or
because the object is busy: the run ends for this reason when the native method has answered.
-/

namespace ScriptMachine

variable {ν σ : Type}

/-- To go on twice is to go on once with both. -/
theorem Program.bind_assoc {α β γ : Type} (program : Program ν σ α) (first : α → Program ν σ β)
    (second : β → Program ν σ γ) :
    (program.bind first).bind second = program.bind fun result => (first result).bind second := by
  induction program with
  | done result => rfl
  | ask request next ih => exact congrArg (Program.ask request) (funext fun answer => ih answer)
  | modify change next ih => exact congrArg (Program.modify change) (funext fun state => ih state)
  | crash fault => rfl

/-- Whether an object is borrowed does not depend on who holds it. -/
theorem World.borrowed_hold (world : World ν) (arguments : List Argument) (index : Nat) :
    ((world.hold arguments).natives[index]?).map NativeObject.borrowed =
      (world.natives[index]?).map NativeObject.borrowed := by
  unfold World.hold World.modifyArguments
  induction arguments generalizing world with
  | nil => rfl
  | cons argument arguments ih =>
    rw [List.foldl_cons, ih]
    cases argument with
    | object position =>
      simp only [World.modifyNative, Array.getElem?_modify]
      split
      · cases world.natives[index]? <;> rfl
      · rfl
    | _ => rfl

namespace Signature

variable {signature : Signature} {function : List Argument → Body ν σ} {values : List Int32}
  {arguments : List Argument}

/-- What follows a function under a signature, whatever the function is: the object of a method is
given back, the arguments are given up, and the value goes to the result slot. -/
def settle (signature : Signature) (arguments : List Argument) (value : Int32) : Body ν σ :=
  let release : Body ν σ :=
    .ask (.update (.unhold arguments)) fun _ => .done (signature.slotValue value)
  match signature.receiver, arguments with
  | some _, .object object :: _ => .ask (.update (.unborrow object)) fun _ => release
  | _, _ => release

/-- A bound native method resolves its arguments first. If it cannot, it faults. -/
theorem bind_form : ∃ next : Answer ν → Body ν σ,
    signature.bind function values = .ask (.update (.hold signature.slots values)) next ∧
      (∀ error, next (.refused (.object error)) = .ask (.faultActive error) fun _ => .done 0) ∧
      ∀ arguments, next (.resolved arguments) =
        (signature.callResolved function arguments).bind fun value =>
          .ask (.update (.unhold arguments)) fun _ => .done value :=
  ⟨_, rfl, fun _ => rfl, fun _ => rfl⟩

/-- Without an object the function is called at once. -/
theorem callResolved_static (static : signature.receiver = none) :
    (signature.callResolved function arguments).bind
        (fun value => .ask (.update (.unhold arguments)) fun _ => .done value) =
      (function arguments).bind (signature.settle arguments) := by
  have settles : signature.settle arguments = fun value : Int32 => (.ask
      (.update (.unhold arguments)) fun _ => .done (signature.slotValue value) : Body ν σ) :=
    funext fun value => by simp only [settle, static]
  simp only [callResolved, static, settles]
  exact Program.bind_assoc _ _ _

/-- With an object the function is called if the object can be borrowed. If it cannot, the native
method faults. -/
theorem callResolved_method {type : NativeType} {index : Nat} {others : List Argument}
    (method : signature.receiver = some type) : ∃ next : Answer ν → Body ν σ,
    (signature.callResolved function (.object index :: others)).bind
        (fun value => .ask (.update (.unhold (.object index :: others))) fun _ => .done value) =
          .ask (.update (.borrow index)) next ∧
      next (.flag true) = (function (.object index :: others)).bind
        (signature.settle (.object index :: others)) ∧
      next (.flag false) = .ask (.faultActive .busy) fun _ =>
        .ask (.update (.unhold (.object index :: others))) fun _ => .done 0 := by
  have settles : signature.settle (.object index :: others) = fun value : Int32 => (.ask
      (.update (.unborrow index)) fun _ => .ask (.update (.unhold (.object index :: others)))
        fun _ => .done (signature.slotValue value) : Body ν σ) :=
    funext fun value => by simp only [settle, method]
  simp only [callResolved, method, settles]
  exact ⟨_, rfl, Program.bind_assoc (function (.object index :: others)) (fun value =>
    .ask (.update (.unborrow index)) fun _ => .done (signature.slotValue value)) _, rfl⟩

end Signature

namespace Config

/-- After a number of updates of its own a bound native method calls its function with these
arguments, once: what follows the function does not call it. -/
structure CallsFunction (host : Host ν σ) (signature : Signature)
    (function : List Argument → Body ν σ) (arguments : List Argument) (config : Config ν σ)
    (steps : Nat) : Prop where
  before : ∀ moment < steps, ∃ update next,
    (config.run host moment).focus = .body (.ask (.update update) next)
  focus : (config.run host steps).focus =
    .body ((function arguments).bind (signature.settle arguments))
  pending : (config.run host steps).pending = config.pending
  domain : (config.run host steps).world.domain = config.world.domain

/-- After a number of updates of its own a bound native method faults, and then it only gives up its
arguments, if it has resolved them. No function is called. -/
structure FaultsWith (host : Host ν σ) (error : ObjectError) (config : Config ν σ) (asked : Nat) :
    Prop where
  before : ∀ moment < asked, ∃ update next,
    (config.run host moment).focus = .body (.ask (.update update) next)
  focus : ∃ next, (config.run host asked).focus = .body (.ask (.faultActive error) next) ∧
    (next .done = .done 0 ∨
      ∃ arguments, next .done = .ask (.update (.unhold arguments)) fun _ => .done 0)
  pending : (config.run host asked).pending = config.pending
  domain : (config.run host asked).world.domain = config.world.domain

variable {host : Host ν σ} {config : Config ν σ} {signature : Signature}
  {function : List Argument → Body ν σ} {values : List Int32} {arguments : List Argument}

/-! ## Up to the function or the fault -/

/-- The step makes an update that leaves the domain and the work that waits as they are. -/
structure UpdatesQuietly (host : Host ν σ) (config : Config ν σ) : Prop where
  asks : ∃ update next, config.focus = .body (.ask (.update update) next)
  pending : (config.step host).pending = config.pending
  domain : (config.step host).world.domain = config.world.domain

/-- Before each of the first moments stands an update, if one stands at the first of them. -/
theorem UpdatesQuietly.before {steps : Nat} (quiet : config.UpdatesQuietly host)
    (later : ∀ moment < steps, ∃ update next,
      ((config.step host).run host moment).focus = .body (.ask (.update update) next)) :
    ∀ moment < steps + 1, ∃ update next,
      (config.run host moment).focus = .body (.ask (.update update) next) := by
  intro moment earlier
  cases moment with
  | zero => exact quiet.asks
  | succ moment =>
    rw [run_succ]
    exact later moment (by omega)

/-- A function that is called after an update. -/
theorem CallsFunction.after_update {steps : Nat} (quiet : config.UpdatesQuietly host)
    (calls : (config.step host).CallsFunction host signature function arguments steps) :
    config.CallsFunction host signature function arguments (steps + 1) where
  before := quiet.before calls.before
  focus := (congrArg Config.focus (run_succ host config steps)).trans calls.focus
  pending := by rw [run_succ, calls.pending, quiet.pending]
  domain := by rw [run_succ, calls.domain, quiet.domain]

/-- A fault after an update. -/
theorem FaultsWith.after_update {error : ObjectError} {asked : Nat}
    (quiet : config.UpdatesQuietly host) (faults : (config.step host).FaultsWith host error asked) :
    config.FaultsWith host error (asked + 1) where
  before := quiet.before faults.before
  focus := by
    rw [run_succ]
    exact faults.focus
  pending := by rw [run_succ, faults.pending, quiet.pending]
  domain := by rw [run_succ, faults.domain, quiet.domain]

/-- A function that is called at once. -/
theorem CallsFunction.at_once
    (focus : config.focus = .body ((function arguments).bind (signature.settle arguments))) :
    config.CallsFunction host signature function arguments 0 :=
  ⟨fun _ before => absurd before (Nat.not_lt_zero _), focus, rfl, rfl⟩

/-- A fault at once. -/
theorem FaultsWith.at_once {error : ObjectError} {next : Answer ν → Body ν σ}
    (focus : config.focus = .body (.ask (.faultActive error) next))
    (then' : next .done = .done 0 ∨
      ∃ arguments, next .done = .ask (.update (.unhold arguments)) fun _ => .done 0) :
    config.FaultsWith host error 0 :=
  ⟨fun _ before => absurd before (Nat.not_lt_zero _), ⟨next, focus, then'⟩, rfl, rfl⟩

/-- A step that makes an update. -/
theorem step_of_applied {update : Update ν} {next : Answer ν → Body ν σ} {world : World ν}
    {answer : Answer ν} (focus : config.focus = .body (.ask (.update update) next))
    (applied : update.apply config.world = .ok (world, answer)) :
    config.step host = { config with world, focus := .body (next answer) } := by
  simp only [step, focus, perform, applied, attempt_ok]

/-- An update that leaves the domain as it is. -/
theorem UpdatesQuietly.of_applied {update : Update ν} {next : Answer ν → Body ν σ}
    {world : World ν} {answer : Answer ν}
    (focus : config.focus = .body (.ask (.update update) next))
    (applied : update.apply config.world = .ok (world, answer))
    (same : world.domain = config.world.domain) : config.UpdatesQuietly host where
  asks := ⟨update, next, focus⟩
  pending := by rw [step_of_applied focus applied]
  domain := by
    rw [step_of_applied focus applied]
    exact same

/-- A method whose arguments have been resolved borrows its object. -/
theorem step_borrow {index : Nat} {object : NativeObject} {next : Answer ν → Body ν σ}
    (focus : config.focus = .body (.ask (.update (.borrow index)) next))
    (present : (config.world.natives[index]?).map NativeObject.borrowed = some object.borrowed) :
    config.UpdatesQuietly host ∧
      (config.step host).focus = .body (next (.flag !object.borrowed)) := by
  obtain ⟨found, known, same⟩ := Option.map_eq_some_iff.1 present
  cases borrowed : object.borrowed with
  | true =>
    have applied : (Update.borrow index).apply config.world =
        .ok (config.world, .flag false) := by
      simp only [Update.apply, known, same, borrowed, ↓reduceIte]
    refine ⟨.of_applied focus applied rfl, ?_⟩
    rw [step_of_applied focus applied]
    rfl
  | false =>
    have applied : (Update.borrow index).apply config.world =
        .ok (config.world.modifyNative index fun object => { object with borrowed := true },
          .flag true) := by
      simp only [Update.apply, known, same, borrowed, Bool.false_eq_true, ↓reduceIte]
    refine ⟨.of_applied focus applied rfl, ?_⟩
    rw [step_of_applied focus applied]
    rfl

/-- What resolving the arguments of a bound native method comes to. -/
theorem step_bind (calls : config.focus = .body (signature.bind function values)) :
    config.UpdatesQuietly host ∧
      ((∃ arguments, config.world.Resolves signature.expected values arguments ∧
          (config.step host).world = config.world.hold arguments ∧
          (config.step host).focus = .body ((signature.callResolved function arguments).bind
            fun value => .ask (.update (.unhold arguments)) fun _ => .done value)) ∨
        ∃ error, config.world.FailsFirst signature.expected values error ∧
          (config.step host).focus = .body (.ask (.faultActive error) fun _ => .done 0)) := by
  obtain ⟨next, form, refuses, resolves⟩ := @Signature.bind_form _ _ signature function values
  rw [form] at calls
  rcases config.world.arguments_cases signature.slots values with
    ⟨arguments, resolved, each⟩ | ⟨error, failed, first⟩
  · have applied : (Update.hold signature.slots values).apply config.world =
        .ok (config.world.hold arguments, .resolved arguments) := by
      simp only [Update.apply, resolved]
    refine ⟨.of_applied calls applied (World.modifyArguments_frame _ _ _).1, ?_⟩
    rw [step_of_applied calls applied]
    exact .inl ⟨arguments, signature.slots_eq ▸ each, rfl, congrArg Focus.body (resolves arguments)⟩
  · have applied : (Update.hold signature.slots values).apply config.world =
        .ok (config.world, .refused (.object error)) := by
      simp only [Update.apply, failed]
    refine ⟨.of_applied calls applied rfl, ?_⟩
    rw [step_of_applied calls applied]
    exact .inr ⟨error, signature.slots_eq ▸ first, congrArg Focus.body (refuses error)⟩

/-- A bound native method calls its function as it should, or faults as it should. -/
theorem bind_course (calls : config.focus = .body (signature.bind function values)) :
    (∃ arguments steps, config.world.Admits signature values arguments ∧
        config.CallsFunction host signature function arguments steps) ∨
      ∃ error asked, config.world.Rejects signature values error ∧
        config.FaultsWith host error asked := by
  obtain ⟨resolving, ⟨arguments, resolves, held, goes⟩ | ⟨error, fails, goes⟩⟩ :=
    @step_bind _ _ host config signature function values calls
  · cases method : signature.receiver with
    | none =>
      rw [Signature.callResolved_static method] at goes
      exact .inl ⟨arguments, 1, ⟨resolves, by simp [method]⟩, .after_update resolving
        (.at_once goes)⟩
    | some type =>
      obtain ⟨index, object, others, rfl, present, _⟩ := resolves.receiver method
      obtain ⟨next, form, borrows, refuses⟩ := @Signature.callResolved_method _ _ signature
        function type index others method
      rw [form] at goes
      have state : ((config.step host).world.natives[index]?).map NativeObject.borrowed =
          some object.borrowed := by
        rw [held, World.borrowed_hold, present]
        rfl
      obtain ⟨borrowing, answers⟩ := @step_borrow _ _ host _ index object next goes state
      cases borrowed : object.borrowed with
      | false =>
        rw [borrowed, Bool.not_false, borrows] at answers
        refine .inl ⟨_, 2, ⟨resolves, fun _ other found first known => ?_⟩, .after_update resolving
          (.after_update borrowing (.at_once answers))⟩
        cases first
        obtain rfl := Option.some.inj (present.symm.trans known)
        exact borrowed
      | true =>
        rw [borrowed, Bool.not_true, refuses] at answers
        exact .inr ⟨.busy, 2, .busy resolves (by simp [method]) rfl present borrowed, .after_update
          resolving (.after_update borrowing (.at_once answers (.inr ⟨_, rfl⟩)))⟩
  · exact .inr ⟨error, 1, .slot fails, .after_update resolving (.at_once goes (.inl rfl))⟩

/-! ## After the fault -/

variable {run : Run ν σ} {registers : Registers ν} {rest : List (Pending ν σ)}

/-- The machine carries out the body of a native method that a run has called, and nobody has asked
for an abort of its thread. -/
structure Called (run : Run ν σ) (after : Registers ν) (call : NativeCall)
    (rest : List (Pending ν σ)) (config : Config ν σ) : Prop where
  waits : config.pending = .calling run after call :: rest
  active : config.world.domain.active = some run.thread
  linked : config.world.domain.Linked
  present : ∃ thread, config.world.domain.thread? run.thread = some thread ∧
    thread.execution = none ∧ thread.pendingAbort = none

/-- A run that has called a native method is active, and its thread runs. -/
theorem called_of_reachable {allowed : Request ν → Prop} {body : Body ν σ}
    (reached : config.Reachable host allowed) (executes : config.focus = .execute run registers)
    (calls : (config.step host).focus = .body body) :
    ∃ after call, after.function = registers.function ∧ call.pc = registers.pc ∧
      (config.step host).Called run after call config.pending := by
  have made : config.step host = config.execute host run registers := by
    simp only [step, executes]
  obtain ⟨after, call, waits, function, pc⟩ :
      run.CallsNative registers config.pending (config.step host).pending := by
    rw [made] at calls ⊢
    exact AtBody.execute rfl body calls
  have works (fault : Fault) : (config.step host).focus ≠ .faulted fault := by
    rw [calls]
    simp
  have disciplined := (nested_of_reachable reached.step).disciplined works
  have threads : (config.step host).runningThreads = run.thread ::
      (config.pending.filterMap Pending.run?).map Run.thread := by
    rw [runningThreads_body calls, waits]
    rfl
  obtain ⟨thread, present, taken⟩ :=
    (disciplined.taken run.thread).1 (by rw [threads]; exact List.mem_cons_self)
  have unasked : (config.step host).world.domain.abortRequest? run.thread = none := by
    rw [made]
    have before := unrequested_of_reachable reached run (by rw [executes]; rfl) (by simp [executes])
    exact (Quiet.of_threads (threads_execute run registers)).unrequested before
  rw [Domain.abortRequest?_of_present present] at unasked
  refine ⟨after, call, function, pc, waits, ?_, linked_of_reachable reached.step,
    thread, present, taken, unasked⟩
  rw [disciplined.active, threads]
  rfl

/-- A fault of the active thread records the reason, and ends its suspension, if any. Nothing else
changes for any thread. -/
theorem step_faultActive {error : ObjectError} {next : Answer ν → Body ν σ} {id : ThreadId}
    {thread : Thread ν} (focus : config.focus = .body (.ask (.faultActive error) next))
    (active : config.world.domain.active = some id) (linked : config.world.domain.Linked)
    (present : config.world.domain.thread? id = some thread) (taken : thread.execution = none)
    (unasked : thread.pendingAbort = none) :
    ∃ domain, config.step host =
        (config.setDomain domain).callHook host id (.reply next) thread.hook ∧
      domain.Linked ∧ ∀ other, domain.thread? other =
        if other = id then some { thread with
          pendingAbort := some (.badArgument error)
          suspended := false, waitingOn := none, hook := none }
        else config.world.domain.thread? other := by
  let blamed := { thread with pendingAbort := some (.badArgument error) }
  have discarded : config.world.domain.discard id (.badArgument error) =
      .ok (config.world.domain.setThread id blamed) := by
    obtain ⟨_, done⟩ := Domain.discard_isOk present (.badArgument error)
    obtain ⟨found, known, ⟨execution, held, _⟩ | ⟨_, rfl⟩⟩ := Domain.discard_eq_ok done
    · obtain rfl := Option.some.inj (present.symm.trans known)
      rw [taken] at held
      cases held
    · obtain rfl := Option.some.inj (present.symm.trans known)
      rw [done, unasked]
      rfl
  have kept := linked.discard discarded
  have there := Domain.thread?_setThread present blamed
  have blamed_present := (there id).trans (if_pos rfl)
  obtain ⟨⟨domain, hook⟩, detached⟩ := kept.detach_isOk blamed_present
  obtain ⟨found, known, rfl, threads, _⟩ := Domain.detach_eq_ok detached
  obtain rfl := Option.some.inj (blamed_present.symm.trans known)
  refine ⟨domain, ?_, kept.detach detached, fun other => ?_⟩
  · have made : config.step host = config.abort host id (.badArgument error) (.reply next) := by
      simp only [step, focus, perform, active]
    rw [made, abort_eq_callHook discarded detached]
  · rw [threads, there]
    split <;> rfl

/-- A native method whose run is to be aborted has answered: the run has ended for the reason that
has been recorded, if there is room for the result, and no other thread has changed. -/
theorem step_answer_aborted {after : Registers ν} {call : NativeCall} {value : Int32}
    {thread : Thread ν} {reason : AbortReason} (ended : config.focus = .body (.done value))
    (waits : config.pending = .calling run after call :: rest)
    (linked : config.world.domain.Linked)
    (present : config.world.domain.thread? run.thread = some thread)
    (asked : thread.pendingAbort = some reason) (bare : thread.hook = none)
    (room : call.base + call.result.count ≤ run.execution.stack.size) :
    (∃ last, (config.step host).focus =
        .ended last (.aborted ⟨after.function.name, call.pc, reason⟩) ∧ run.Lasts last) ∧
      (config.step host).pending = rest ∧
      ∀ other, other ≠ run.thread →
        (config.step host).world.domain.thread? other = config.world.domain.thread? other := by
  obtain ⟨stack, stored⟩ := storeResult_isOk value room
  let excused := { thread with pendingAbort := none }
  have there := Domain.thread?_setThread present excused
  have kept : (config.world.domain.setThread run.thread excused).Linked :=
    linked.setThread present rfl rfl rfl
  obtain ⟨⟨domain, hook⟩, detached⟩ := kept.detach_isOk ((there run.thread).trans (if_pos rfl))
  obtain ⟨found, known, rfl, threads, _⟩ := Domain.detach_eq_ok detached
  obtain rfl := Option.some.inj (((there run.thread).trans (if_pos rfl)).symm.trans known)
  rw [step_of_calling ended waits]
  unfold returnNative
  dsimp only
  generalize emitted : emit host _ _ = shown
  have world : shown.world = config.world := by rw [← emitted, emit_world]
  have above : shown.pending = rest := by rw [← emitted, emit_pending]
  have looked : config.world.domain.thread (run.setStack stack).thread = .ok thread :=
    Domain.thread_eq_ok.2 present
  rw [stored, attempt_ok, world, looked, attempt_ok]
  simp only [asked]
  have done : (config.world.domain.setThread (run.setStack stack).thread excused).detach
      (run.setStack stack).thread = .ok (domain, none) := by
    rw [← bare]
    exact detached
  unfold Config.detach
  rw [setDomain_world, done, attempt_ok]
  refine ⟨⟨_, rfl, rfl, rfl, rfl⟩, above, fun other apart => ?_⟩
  refine (threads other).trans ?_
  rw [if_neg apart, there, if_neg apart]

/-- Calling a hook leaves the domain alone. -/
theorem domain_callHook (id : ThreadId) (next : Answer ν → Body ν σ) (hook : Option (AbortHook ν)) :
    (config.callHook host id (.reply next) hook).world.domain = config.world.domain := by
  cases hook with
  | none => rfl
  | some hook => cases hook <;> rfl

/-- After a fault only the arguments are given up, if they have been resolved. -/
theorem reaches_end {body : Body ν σ} (focus : config.focus = .body body)
    (ends : body = .done 0 ∨
      ∃ arguments, body = .ask (.update (.unhold arguments)) fun _ => .done 0) :
    ∃ steps, (config.run host steps).focus = .body (.done 0) ∧
      (config.run host steps).pending = config.pending ∧
      (config.run host steps).world.domain = config.world.domain := by
  rcases ends with rfl | ⟨arguments, rfl⟩
  · exact ⟨0, focus, rfl, rfl⟩
  · have applied : (Update.unhold arguments).apply config.world =
        .ok (config.world.unhold arguments, .done) := rfl
    have one : config.run host 1 = _ := (run_succ host config 0).trans
      (step_of_applied focus applied)
    refine ⟨1, ?_⟩
    rw [one]
    exact ⟨rfl, rfl, (World.modifyArguments_frame _ _ _).1⟩

/-- The fault of a native method aborts the run that has called it, and no other thread. -/
structure AbortsCaller (host : Host ν σ) (run : Run ν σ) (call : NativeCall) (info : AbortInfo)
    (rest : List (Pending ν σ)) (config : Config ν σ) (asked : Nat) : Prop where
  /-- The abort is requested of the thread of the run, and nothing else happens to any other. -/
  requested : (config.run host (asked + 1)).world.domain.abortRequest? run.thread =
    some info.reason
  others : ∀ other, other ≠ run.thread →
    (config.run host (asked + 1)).world.domain.thread? other = config.world.domain.thread? other
  /-- Unless the host has a hook called for the thread, the run has ended soon. -/
  ends : (∀ thread reference, config.world.domain.thread? run.thread = some thread →
      thread.hook ≠ some (.custom reference)) →
    call.base + call.result.count ≤ run.execution.stack.size →
    ∃ steps last, (config.run host steps).focus = .ended last (.aborted info) ∧
      run.Lasts last ∧ (config.run host steps).pending = rest ∧
      ∀ other, other ≠ run.thread →
        (config.run host steps).world.domain.thread? other = config.world.domain.thread? other
  /-- Whatever a hook does, the run stops for the fault when the native method has answered. -/
  stops : ∀ steps value, config.Returns host steps value →
    config.StopsAfter host steps run info rest

namespace FaultsWith

variable {after : Registers ν} {call : NativeCall} {error : ObjectError} {asked : Nat}

/-- The fault is the first request of an abort of the thread. -/
theorem firstAsked (faults : config.FaultsWith host error asked)
    (called : config.Called run after call rest) :
    config.FirstAsked host run.thread asked (.badArgument error) where
  asked := by
    obtain ⟨next, focus, _⟩ := faults.focus
    simp only [asksAbort?, focus, faults.domain, called.active, ↓reduceIte]
  first moment earlier := by
    obtain ⟨update, next, focus⟩ := faults.before moment earlier
    simp only [asksAbort?, focus]

/-- A native method that faults has not answered before. -/
theorem before_answer {steps : Nat} {value : Int32} (faults : config.FaultsWith host error asked)
    (returns : config.Returns host steps value) : asked < steps := by
  by_contra late
  have ended := returns.ends
  rcases Nat.eq_or_lt_of_le (Nat.le_of_not_lt late) with rfl | earlier
  · obtain ⟨next, focus, _⟩ := faults.focus
    rw [focus] at ended
    cases ended
  · obtain ⟨update, next, focus⟩ := faults.before steps earlier
    rw [focus] at ended
    cases ended

/-- The run stops when the native method has answered. -/
theorem stopsAfter {steps : Nat} {value : Int32} (faults : config.FaultsWith host error asked)
    (called : config.Called run after call rest)
    (nested : ∀ time, (config.run host time).Nested) (returns : config.Returns host steps value) :
    config.StopsAfter host steps run ⟨after.function.name, call.pc, .badArgument error⟩ rest := by
  have asks := faults.firstAsked called
  obtain ⟨thread, present, _, none⟩ := called.present
  have unasked := (Domain.abortRequest?_of_present present).trans none
  have goes := @step_of_calling _ _ host _ _ _ _ _ _ returns.ends (returns.pending called.waits)
  rw [← run_succ_last] at goes
  rcases returns.recorded called.waits nested unasked (Nat.le_refl steps) with ⟨quiet, _⟩ |
    ⟨first, _, reason, other, found⟩
  · have nothing := quiet asked (faults.before_answer returns)
    rw [asks.asked] at nothing
    cases nothing
  · rw [asks.unique other]
    refine returns.stopsAfter called.waits nested ?_
    rw [goes]
    exact .returnNative value found rfl

/-- A native method that faults aborts the run that has called it. -/
theorem abortsCaller (faults : config.FaultsWith host error asked)
    (called : config.Called run after call rest)
    (nested : ∀ time, (config.run host time).Nested) :
    config.AbortsCaller host run call ⟨after.function.name, call.pc, .badArgument error⟩ rest
      asked := by
  obtain ⟨next, focus, ends⟩ := faults.focus
  obtain ⟨thread, present, taken, none⟩ := called.present
  obtain ⟨domain, made, linked, threads⟩ :=
    @step_faultActive _ _ host _ error next run.thread thread focus
      (by rw [faults.domain]; exact called.active) (by rw [faults.domain]; exact called.linked)
      (by rw [faults.domain]; exact present) taken none
  rw [← run_succ_last] at made
  rw [faults.domain] at threads
  have domain' : (config.run host (asked + 1)).world.domain = domain := by
    rw [made, domain_callHook]
    rfl
  have blamed := (threads run.thread).trans (if_pos rfl)
  refine ⟨?_, fun other apart => ?_, fun quiet room => ?_, fun steps value returns =>
    faults.stopsAfter called nested returns⟩
  · rw [domain', Domain.abortRequest?_of_present blamed]
  · rw [domain', threads, if_neg apart]
  · have answered : (config.run host (asked + 1)).focus = .body (next .done) ∧
        (config.run host (asked + 1)).pending = config.pending := by
      rw [made, ← faults.pending]
      cases hook : thread.hook with
      | none => exact ⟨rfl, rfl⟩
      | some hooked =>
        cases hooked with
        | leaveSleep => exact ⟨rfl, rfl⟩
        | custom reference => exact absurd hook (quiet thread reference present)
    obtain ⟨count, ended, level, kept⟩ := @reaches_end _ _ host _ _ answered.1 ends
    have waits := (level.trans answered.2).trans called.waits
    rw [domain'] at kept
    obtain ⟨⟨last, stopped, lasts⟩, below, others⟩ := @step_answer_aborted _ _ host _ run rest after
      call 0 _ (.badArgument error) ended waits (by rw [kept]; exact linked)
      (by rw [kept]; exact blamed) rfl rfl room
    have total : config.run host (asked + 1 + count + 1) =
        ((config.run host (asked + 1)).run host count).step host := by
      rw [run_succ_last, run_add]
    refine ⟨asked + 1 + count + 1, last, ?_⟩
    rw [total]
    refine ⟨stopped, lasts, below, fun other apart => ?_⟩
    rw [others other apart, kept, threads, if_neg apart]

end FaultsWith

/-- A native method is bound to a function by a signature, and an instruction of a run calls it.
The function is called, once and with each argument resolved from its own slot, exactly if every
slot resolves and the object of a method is not borrowed. Otherwise it is not called; then the
thread of the run is aborted, and no other, and the run ends at this call for the first slot that
fails, or because the object is busy. -/
theorem bound_natives_run_once_or_fault {allowed : Request ν → Prop} {method : ν}
    {run : Run ν σ} {registers : Registers ν} (reached : config.Reachable host allowed)
    (bound : host.native method = signature.bind function)
    (executes : config.focus = .execute run registers)
    (calls : (config.step host).focus = .body (host.native method values)) :
    ∃ after call, (config.step host).pending = .calling run after call :: config.pending ∧
      (((∃ arguments steps, (config.step host).world.Admits signature values arguments ∧
            (config.step host).CallsFunction host signature function arguments steps) ∧
          ¬∃ error, (config.step host).world.Rejects signature values error) ∨
        (∃ error asked, (config.step host).world.Rejects signature values error ∧
            (config.step host).FaultsWith host error asked ∧
            (config.step host).AbortsCaller host run call
              ⟨registers.function.name, registers.pc, .badArgument error⟩ config.pending asked) ∧
          ¬∃ arguments, (config.step host).world.Admits signature values arguments) := by
  obtain ⟨after, call, function', pc, called⟩ := called_of_reachable reached executes calls
  refine ⟨after, call, called.waits, ?_⟩
  rw [bound] at calls
  rcases @bind_course _ _ host (config.step host) signature function values calls with
    ⟨arguments, steps, admits, goes⟩ | ⟨error, asked, rejects, faults⟩
  · exact .inl ⟨⟨arguments, steps, admits, goes⟩, fun ⟨_, rejects⟩ => admits.not_rejects rejects⟩
  · refine .inr ⟨⟨error, asked, rejects, faults, ?_⟩, fun ⟨_, admits⟩ => admits.not_rejects rejects⟩
    have aborts := faults.abortsCaller called fun time =>
      nested_of_reachable (reached.step.run time)
    rwa [function', pc] at aborts

/-- A function that calls its native method with the first object and a number. -/
def dimming : Definition Unit where
  name := "dimming"
  code := #[0x0A, 0, 0x0A, 5, 0x29, 2, 0, 0x2D]
  methods := #[()]

/-- A method of lamps that takes a number. -/
def lampSignature : Signature := .method "Lamp" "dim" [.int] .void

/-- The method runs the function on the second thread. -/
def dimAgain (_ : List Argument) : Body Unit Unit := .ask (.run ⟨1⟩ ⟨0⟩) fun _ => .done 0

/-- A host with a lamp. -/
def lampHost : Host Unit Unit where
  native _ := lampSignature.bind dimAgain
  onAbort _ _ := .done 0
  onLimit _ _ state := state
  onEvent _ _ state := state

/-- The function is run on the first of two threads, and a lamp is the first object. -/
def lighting : Program Unit Unit Int32 := do
  let _ ← Program.update (.addFunction (.trusted dimming 2))
  let _ ← Program.update .createThread
  let _ ← Program.update .createThread
  let _ ← Program.update (.createNative "Lamp")
  let _ ← Program.update (.register 0)
  let _ ← Program.request (.run ⟨0⟩ ⟨0⟩)
  return 0

/-- The method of the lamp is called again on the second thread while the first one is in it. The
lamp is busy: the second thread is aborted, and the first one is not. -/
theorem bound_natives_run_once_or_fault_busy :
    let config := (Config.initial {} () lighting).run lampHost 16
    config.Reachable lampHost (fun _ => True) ∧ ∃ run registers call asked,
      config.focus = .execute run registers ∧ run.thread = ⟨1⟩ ∧
        (config.step lampHost).FaultsWith lampHost .busy asked ∧
        (config.step lampHost).AbortsCaller lampHost run call
          ⟨registers.function.name, registers.pc, .badArgument .busy⟩ config.pending asked := by
  intro config
  have reached : config.Reachable lampHost (fun _ => True) :=
    .run (.initial () lighting (Program.asks_of_forall (fun _ => trivial) _)) 16
  obtain ⟨run, executes, thread, taken⟩ := @exists_executes _ _ config
    ⟨.trusted dimming 2, 0, 4, 2⟩ ⟨1⟩ ⟨[⟨.trusted dimming 2, none, 0, 0⟩], #[0, 5]⟩
    (by decide +kernel) (by decide +kernel)
  have known : (config.world.domain.thread? ⟨1⟩).isSome := by decide +kernel
  obtain ⟨calls, _⟩ := @step_native _ _ lampHost _ _ _ .static .void 2 0 7 () executes
    (by decide +kernel) (by rw [thread]; exact known) rfl (by decide) (by rw [taken]; decide)
  rw [taken, show (#[0, 5].extract (2 - ((2 : UInt8).toNat + MethodKind.static.receivers)) 2 :
    Array Int32).toList = [0, 5] by decide] at calls
  have resolved : (config.step lampHost).world.arguments lampSignature.slots [0, 5] =
      .ok [.object 0, .int 5] := by decide +kernel
  have present : (config.step lampHost).world.natives[0]? =
      some ⟨"Lamp", true, 1, true⟩ := by decide +kernel
  have rejects : (config.step lampHost).world.Rejects lampSignature [0, 5] .busy :=
    .busy (World.argumentsFrom_eq_ok.1 resolved) rfl rfl present rfl
  obtain ⟨_, call, _, ⟨⟨_, _, admits, _⟩, _⟩ | ⟨⟨error, asked, because, faults, aborts⟩, _⟩⟩ :=
    bound_natives_run_once_or_fault reached rfl executes calls
  · exact absurd rejects admits.not_rejects
  · obtain rfl := because.unique rejects
    exact ⟨reached, run, _, call, asked, executes, thread, faults, aborts⟩

end Config

end ScriptMachine

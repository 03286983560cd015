import ScriptMachine.Proofs.Armings
import ScriptMachine.Proofs.QueueMoves

/-!
# What a step does to the tables

Which move the next step makes of the threads that wait follows from the work at hand, and the step
does nothing else to any queue. Beside this the tables of the domain stay as they are, unless a body
declares a variable, registers or creates something, or empties the domain. Only a step that stops
the machine may do less.
-/

namespace ScriptMachine

variable {ν σ : Type}

/-- How an update moves the threads that wait. A domain with an active thread is not emptied. -/
def Update.queueMove (domain : Domain ν) : Update ν → QueueMove
  | .park queue id => .arrive id queue
  | .popWaiter queue => .serve queue
  | .transferNext source target => .transferNext source target
  | .transferAll source target => .transferAll source target
  | .resetQueue queue => .reset queue
  | .clear => if domain.active.isSome then .stay else .clear
  | _ => .stay

/-- A thread runs. -/
def Domain.isRunning (domain : Domain ν) (id : ThreadId) : Bool :=
  (domain.thread? id).any Thread.isRunning

/-- How a request moves the threads that wait. A function is started on a thread only if it is
registered and the thread does not run, and a thread is woken only if it does not run. -/
def Request.queueMove (domain : Domain ν) : Request ν → QueueMove
  | .update change => change.queueMove domain
  | .start id called | .run id called | .runInt id called =>
    if (domain.function? called).isSome && !domain.isRunning id then .depart id else .stay
  | .abort id => .depart id
  | .faultActive _ => (domain.active.map QueueMove.depart).getD .stay
  | .wake queue _ =>
    if (domain.waitersOf queue).head?.any domain.isRunning then .stay else .serve queue
  | .observe | .resume _ => .stay

/-- How the next step moves the threads that wait. -/
def Config.queueMove (config : Config ν σ) : QueueMove :=
  match config.focus, config.pending with
  | .body (.ask request _), _ => request.queueMove config.world.domain
  | .body (.done _), .calling run _ _ :: _ =>
    if (config.world.domain.thread? run.thread).any fun thread => thread.pendingAbort.isSome then
      .depart run.thread
    else .stay
  | _, _ => .stay

namespace Domain

variable {domain next : Domain ν} {move : QueueMove}

/-- What happens to a domain at once: waiting threads move, or variables are declared before there
are threads, or something is registered or created, or the domain is emptied. -/
inductive Undergoes (domain : Domain ν) : QueueMove → Domain ν → Prop where
  | moves {move : QueueMove} {next : Domain ν} (moves : domain.Moves move next) :
    domain.Undergoes move next
  | declares {next : Domain ν} (unsealed : domain.threads.size = 0)
    (same : next = { domain with
      globals := next.globals, specials := next.specials
      threadVariables := next.threadVariables })
    (globals : next.globals.size ≤ max domain.globals.size variableLimit)
    (specials : next.specials.size ≤ max domain.specials.size variableLimit)
    (threadVariables : next.threadVariables ≤ max domain.threadVariables variableLimit) :
    domain.Undergoes .stay next
  | registers (functions : Array (Function ν)) (objects : Array ObjectEntry) :
    domain.Undergoes .stay { domain with
      functions := domain.functions ++ functions, objects := domain.objects ++ objects }
  | createQueue : domain.Undergoes .stay domain.createQueue.1
  | createThread : domain.Undergoes .stay domain.createThread.1
  | clears {next : Domain ν} (done : domain.clear = .ok next) : domain.Undergoes .clear next

namespace Undergoes

variable {update : Update ν} {world after : World ν} {answer : Answer ν}

/-- Nothing happens. -/
theorem refl (domain : Domain ν) : domain.Undergoes .stay domain := .moves (.refl domain)

/-- A table of variables of which one is written keeps its size. -/
theorem size_writeVariable {values written : Array Int32} {index : UInt8} {value : Int32}
    (done : writeVariable values index value = .ok written) : written.size = values.size := by
  unfold writeVariable at done
  split at done <;> cases done
  simp

/-- A table that is not touched. -/
theorem of_tables (tables : next = { domain with
      limits := next.limits, limitHandler := next.limitHandler, sink := next.sink }) :
    domain.Undergoes .stay next := by
  rw [tables]
  exact .moves ⟨rfl, rfl, rfl, rfl, rfl, fun _ => rfl, rfl, fun _ => (QueueMove.apply_stay ..).symm⟩

end Undergoes

end Domain

/-- An update that is refused or finds nothing to do moves no one that waits. -/
theorem Update.Idles.queueMove_eq_stay {world : World ν} {update : Update ν}
    (idle : update.Idles world) : update.queueMove world.domain = .stay := by
  cases update with
  | clear => exact if_pos idle
  | park _ _ | popWaiter _ | transferNext _ _ | transferAll _ _ | resetQueue _ => exact idle.elim
  | _ => rfl

open Domain in
/-- What an update does to a domain. -/
theorem Update.undergoes_of_apply {world after : World ν} {update : Update ν} {answer : Answer ν}
    (linked : world.domain.Linked) (done : update.apply world = .ok (after, answer)) :
    world.domain.Undergoes (update.queueMove world.domain) after.domain := by
  cases yields_of_apply done with
  | nothing idle =>
    rw [idle.queueMove_eq_stay]
    exact .refl _
  | declareGlobal value unsealed room =>
    exact .declares unsealed rfl (by simp; omega) (by simp) (by simp)
  | declareSpecial value unsealed room =>
    exact .declares unsealed rfl (by simp) (by simp; omega) (by simp)
  | declareThreadVariable unsealed room =>
    exact .declares unsealed rfl (by simp) (by simp) (by simp; omega)
  | setGlobal written =>
    exact .moves { Moves.refl world.domain with globals := Undergoes.size_writeVariable written }
  | setSpecial written =>
    exact .moves { Moves.refl world.domain with specials := Undergoes.size_writeVariable written }
  | @setThreadVariable _ _ _ thread _ present written =>
    refine .moves (.setThread present ?_)
    exact congrArg (·, thread.joinQueue) (Undergoes.size_writeVariable written)
  | clear cleared =>
    have idle : ¬world.domain.active.isSome := by
      unfold Domain.clear at cleared
      split at cleared
      · cases cleared
      · assumption
    simp only [queueMove, idle, Bool.false_eq_true, ↓reduceIte]
    exact .clears cleared
  | addFunction function =>
    have one := @Undergoes.registers _ world.domain #[function] #[]
    simpa [queueMove] using one
  | addText text =>
    have one := @Undergoes.registers _ world.domain #[] #[.text text]
    simpa [queueMove] using one
  | @register index =>
    have one := @Undergoes.registers _ world.domain #[] #[.native index]
    simpa [queueMove] using one
  | createThread => exact .createThread
  | createQueue => exact .createQueue
  | supplyResult supplied => exact .moves (.supplyResult supplied)
  | suspend suspended | suspendActive _ suspended | sleepActive _ _ suspended =>
    exact .moves (.suspend suspended)
  | park parked => exact .moves (.park linked parked)
  | popWaiter popped => exact .moves (.popWaiter popped)
  | transferNext moved => exact .moves (.transferNext moved)
  | transferAll moved => exact .moves (.transferAll moved)
  | resetQueue emptied => exact .moves (.resetQueue emptied)
  | hold | unhold =>
    simp only [World.hold, World.unhold, World.modifyArguments_frame]
    exact .refl _
  | setLimits | setLimitHandler | setSink | createNative | release | takeDue | clearSleepers
  | borrow | unborrow => exact .of_tables rfl

/-- The types of the native objects of the host, by position. -/
def World.types (world : World ν) : List NativeType := world.natives.toList.map NativeObject.type

/-- Changing a native object leaves it its type. -/
theorem World.types_modifyNative (world : World ν) (index : Nat)
    {change : NativeObject → NativeObject}
    (same : ∀ object, (change object).type = object.type) :
    (world.modifyNative index change).types = world.types := by
  unfold types modifyNative
  refine List.ext_getElem? fun position => ?_
  simp only [List.getElem?_map, Array.getElem?_toList, Array.getElem?_modify]
  split
  · cases world.natives[position]? <;> simp [same]
  · rfl

/-- Changing the objects among some arguments leaves them their types. -/
theorem World.types_modifyArguments (world : World ν) {change : NativeObject → NativeObject}
    (same : ∀ object, (change object).type = object.type) (arguments : List Argument) :
    (world.modifyArguments change arguments).types = world.types := by
  unfold modifyArguments
  induction arguments generalizing world with
  | nil => rfl
  | cons argument arguments ih =>
    rw [List.foldl_cons, ih]
    cases argument with
    | object index => exact world.types_modifyNative index same
    | int value | text value | function id => rfl

/-- An update leaves the native objects at their positions. -/
theorem Update.types_of_apply {world after : World ν} {update : Update ν} {answer : Answer ν}
    (done : update.apply world = .ok (after, answer)) : world.types <+: after.types := by
  cases yields_of_apply done with
  | createNative type => simp [World.types]
  | release | borrow | unborrow =>
    rw [World.types_modifyNative]
    exact fun _ => rfl
  | hold | unhold =>
    simp only [World.hold, World.unhold]
    rw [World.types_modifyArguments]
    exact fun _ => rfl
  | _ => exact List.prefix_rfl

namespace Config

variable {host : Host ν σ} {config before after : Config ν σ} {move : QueueMove}

/-- The waiting threads have moved, or the machine has stopped before they did. The native objects
of the host are the same. -/
structure Shifts (move : QueueMove) (before after : Config ν σ) : Prop where
  domain : before.world.domain.Moves move after.world.domain ∨
    (∃ fault, after.focus = .faulted fault) ∧ before.world.domain.Moves .stay after.world.domain
  natives : after.world.natives = before.world.natives

namespace Shifts

/-- The waiting threads have moved. -/
theorem of_moves (moves : before.world.domain.Moves move after.world.domain)
    (natives : after.world.natives = before.world.natives) : before.Shifts move after :=
  ⟨.inl moves, natives⟩

/-- The machine stops. -/
theorem stopped (config : Config ν σ) (fault : Fault) :
    config.Shifts move (config.goto (.faulted fault)) := ⟨.inr ⟨⟨fault, rfl⟩, .refl _⟩, rfl⟩

/-- The world is as it was. -/
theorem of_same (same : after.world = before.world) : before.Shifts .stay after := by
  refine of_moves ?_ (by rw [same])
  rw [same]
  exact .refl _

/-- Before a move nothing happens. -/
theorem stay_trans (middle : Config ν σ)
    (first : before.world.domain.Moves .stay middle.world.domain)
    (natives : middle.world.natives = before.world.natives)
    (second : middle.Shifts move after) : before.Shifts move after := by
  refine ⟨?_, second.natives.trans natives⟩
  rcases second.domain with moves | ⟨fault, moves⟩
  · exact .inl (first.stay_trans moves)
  · exact .inr ⟨fault, first.stay_trans moves⟩

/-- After a move nothing more happens. -/
theorem trans_stay (middle : Config ν σ)
    (first : before.world.domain.Moves move middle.world.domain)
    (natives : middle.world.natives = before.world.natives)
    (second : middle.Shifts .stay after) : before.Shifts move after := by
  refine ⟨?_, second.natives.trans natives⟩
  rcases second.domain with moves | ⟨_, moves⟩
  · exact .inl (first.trans_stay moves)
  · exact .inl (first.trans_stay moves)

/-- A thread is replaced by one that records the same for good. -/
theorem setThread {id : ThreadId} {old thread : Thread ν}
    (found : config.world.domain.thread id = .ok old) (same : thread.standing = old.standing) :
    config.world.domain.Moves .stay (config.world.domain.setThread id thread) :=
  .setThread (Domain.thread_eq_ok.1 found) same

/-- Another thread becomes active. -/
theorem active (domain : Domain ν) (active : Option ThreadId) :
    domain.Moves .stay { domain with active } :=
  { Domain.Moves.refl domain with }

/-- A thread begins to run. -/
theorem launch (id : ThreadId) (purpose : Purpose) (reply : Answer ν → Body ν σ) :
    config.Shifts .stay (config.launch host id purpose reply) := by
  refine attempt_induction (stopped config) fun thread found => ?_
  split
  · exact of_same rfl
  · have taken : config.world.domain.Moves .stay
        (config.world.domain.setThread id { thread with execution := none }) := setThread found rfl
    dsimp only
    split
    · exact of_moves (taken.trans_stay (active _ (some id))) rfl
    · refine of_moves ?_ (by simp)
      simp only [goto_world, emit_world]
      exact taken.trans_stay (active _ (some id))

/-- A run ends. -/
theorem finishRun (run : Run ν σ) (outcome : Outcome) :
    config.Shifts .stay (config.finishRun host run outcome) := by
  refine attempt_induction (stopped config) fun thread found => ?_
  have gave : config.world.domain.Moves .stay (config.world.domain.setThread run.thread
      { thread with execution := some run.execution, pendingAbort := none }) :=
    setThread found rfl
  refine of_moves ?_ (by simp)
  simp only [goto_world, emit_world]
  exact gave.trans_stay (active _ run.previous)

/-- What follows an abort. -/
theorem afterAbort (next : AfterAbort ν σ) :
    config.Shifts .stay (config.afterAbort host next) := by
  cases next with
  | reply next => exact of_same rfl
  | stop run function pc reason => exact of_same rfl
  | start id function purpose next =>
    refine attempt_induction (stopped config) fun thread found => ?_
    split
    · exact of_same rfl
    · rename_i execution held
      let frames : List (Frame ν) := { function, base := 0, top := 0 } :: execution.frames
      have pushed : config.world.domain.Moves .stay (config.world.domain.setThread id
          { thread with execution := some { execution with frames } }) := setThread found rfl
      cases purpose with
      | none => exact of_moves pushed rfl
      | some purpose => exact stay_trans (config.setDomain _) pushed rfl (launch id purpose next)

/-- A thread is detached. -/
theorem detach (linked : config.world.domain.Linked) (id : ThreadId) (next : AfterAbort ν σ) :
    config.Shifts (.depart id) (config.detach host id next) := by
  refine attempt_induction (stopped config) fun ⟨domain, hook⟩ done => ?_
  have departed := Domain.Moves.detach linked done
  dsimp only
  split
  · exact trans_stay (config.setDomain domain) departed rfl (afterAbort next)
  · refine trans_stay _ ?_ ?_ (afterAbort next)
    · exact departed
    · rfl
  · exact of_moves departed rfl

/-- A thread is aborted. -/
theorem abort (linked : config.world.domain.Linked) (id : ThreadId) (reason : AbortReason)
    (next : AfterAbort ν σ) : config.Shifts (.depart id) (config.abort host id reason next) := by
  refine attempt_induction (stopped config) fun domain done => ?_
  exact stay_trans (config.setDomain domain) (.discard done) rfl
    (detach (linked.discard done) id next)

/-- A function is started on a thread. -/
theorem start (linked : config.world.domain.Linked) (id : ThreadId) (called : FunctionId)
    (purpose : Option Purpose) (next : Answer ν → Body ν σ) :
    config.Shifts (Request.queueMove config.world.domain (.start id called))
      (config.start host id called purpose next) := by
  refine start_induction (stopped config) (fun missing => ?_) (fun thread present taken => ?_)
    fun function thread execution registered present held => ?_
  · simp only [Request.queueMove, missing, Option.isSome_none, Bool.false_and, Bool.false_eq_true,
      ↓reduceIte]
    exact of_same rfl
  · simp only [Request.queueMove, Domain.isRunning, present, Thread.isRunning, taken,
      Option.any_some, Option.isNone_none, Bool.not_true, Bool.and_false, Bool.false_eq_true,
      ↓reduceIte]
    exact of_same rfl
  · simp only [Request.queueMove, registered, Domain.isRunning, present, Thread.isRunning, held,
      Option.any_some, Option.isNone_some, Option.isSome_some, Bool.not_false, Bool.and_self,
      ↓reduceIte]
    refine ⟨fun _ => abort linked id .requested _, fun awake _ => ?_⟩
    -- A thread that is not suspended waits nowhere, so there is nothing to depart from.
    have free (queue : QueueId) : id ∉ config.world.domain.waitersOf queue := by
      intro waiting
      obtain ⟨other, known, _, suspended⟩ := linked.waiter waiting
      obtain rfl := Option.some.inj (present.symm.trans known)
      exact Bool.false_ne_true (awake.symm.trans suspended)
    exact trans_stay config (.depart (.refl _) free) rfl (afterAbort _)

/-- A thread goes on. -/
theorem continueThread (id : ThreadId) (purpose : Purpose) (next : Answer ν → Body ν σ) :
    config.Shifts .stay (config.continueThread host id purpose next) := by
  refine attempt_induction (stopped config) fun thread found => ?_
  have released : config.world.domain.Moves .stay
      (config.world.domain.setThread id { thread with suspended := false, hook := none }) :=
    setThread found rfl
  dsimp only
  split
  · exact of_moves released rfl
  · exact stay_trans (config.setDomain _) released rfl (launch id purpose next)

/-- The host resumes a thread. -/
theorem resume (id : ThreadId) (next : Answer ν → Body ν σ) :
    config.Shifts .stay (config.resume host id next) :=
  resume_induction (stopped config) (fun _ => of_same rfl)
    fun _ _ _ _ _ => continueThread id .plain next

/-- A thread is woken through its queue. -/
theorem wake (queue : QueueId) (value : Option Int32) (next : Answer ν → Body ν σ) :
    config.Shifts (Request.queueMove config.world.domain (.wake queue value))
      (config.wake host queue value next) := by
  refine wake_induction (stopped config) (fun empty => ?_)
    (fun head thread first present taken => ?_)
    fun head thread domain popped first present idle done => ?_
  · simp only [Request.queueMove, empty, List.head?_nil, Option.any_none, Bool.false_eq_true,
      ↓reduceIte]
    exact of_moves (.serve_empty empty) rfl
  · simp only [Request.queueMove, first, Domain.isRunning, present, taken, Option.any_some,
      ↓reduceIte]
    exact of_same rfl
  · simp only [Request.queueMove, first, Domain.isRunning, present, idle, Option.any_some,
      Bool.false_eq_true, ↓reduceIte]
    have served := Domain.Moves.popWaiter done
    refine ⟨fun fault => ?_, fun _ _ => of_moves served rfl, fun supplied handed => ?_⟩
    · exact trans_stay (config.setDomain domain) served rfl (stopped _ fault)
    · exact trans_stay (config.setDomain domain) served rfl
        (stay_trans ((config.setDomain domain).setDomain supplied)
          (Domain.Moves.handResult handed) rfl (continueThread head .woken next))

/-- A native method answers. -/
theorem returnNative (linked : config.world.domain.Linked) (run : Run ν σ)
    (registers : Registers ν) (call : NativeCall) (value : Int32) :
    config.Shifts
      (if (config.world.domain.thread? run.thread).any fun thread => thread.pendingAbort.isSome then
        .depart run.thread else .stay)
      (config.returnNative host run registers call value) := by
  refine returnNative_induction fun shown emitted => ?_
  have world : shown.world = config.world := by rw [← emitted, emit_world]
  rw [← world] at linked ⊢
  have quiet : config.world.domain.Moves .stay shown.world.domain := by
    rw [world]
    exact .refl _
  refine ⟨fun fault => stay_trans shown quiet (by rw [world]) (stopped shown fault),
    fun stack thread _ present => ⟨fun reason requested => ?_, fun unasked _ => ?_,
      fun unasked _ => ?_⟩⟩
  · rw [if_pos (by simp [present, requested])]
    have honored : shown.world.domain.Moves .stay
        (shown.world.domain.setThread run.thread { thread with pendingAbort := none }) :=
      .setThread present rfl
    have links : (shown.world.domain.setThread run.thread
        { thread with pendingAbort := none }).Linked := linked.setThread present rfl rfl rfl
    exact stay_trans shown quiet (by rw [world])
      (stay_trans (shown.setDomain _) honored rfl (detach links run.thread _))
  · rw [if_neg (by simp [present, unasked])]
    exact stay_trans shown quiet (by rw [world]) (of_same (by simp))
  · rw [if_neg (by simp [present, unasked])]
    exact stay_trans shown quiet (by rw [world]) (of_same rfl)

/-- A body ends. -/
theorem finishBody (linked : config.world.domain.Linked) {value : Int32}
    (focus : config.focus = .body (.done value)) :
    config.Shifts config.queueMove (config.finishBody host value) := by
  unfold Config.finishBody
  cases waiting : config.pending with
  | nil =>
    simp only [queueMove, focus, waiting]
    exact of_same rfl
  | cons pending rest =>
    let resumed : Config ν σ := { config with pending := rest }
    cases pending with
    | calling run registers call =>
      have answered := @returnNative _ _ host resumed linked run registers call value
      simp only [queueMove, focus, waiting]
      rw [← focus]
      exact stay_trans resumed (.refl _) rfl answered
    | aborting next =>
      simp only [queueMove, focus, waiting]
      rw [← focus]
      exact stay_trans resumed (.refl _) rfl (afterAbort next)

/-- An instruction is executed. -/
theorem execute (run : Run ν σ) (registers : Registers ν) :
    config.Shifts .stay (config.execute host run registers) := by
  obtain ⟨globals, size, world⟩ := execute_world host config run registers
  refine of_moves ?_ (by rw [world])
  rw [world]
  exact { Domain.Moves.refl config.world.domain with globals := size }

/-- A frame is entered. -/
theorem enterFrame (run : Run ν σ) : config.Shifts .stay (config.enterFrame host run) := by
  unfold Config.enterFrame
  split
  · exact of_same rfl
  · split
    · exact of_same rfl
    · exact of_same (by simp)

end Shifts

/-- The domain has undergone this, or the machine has stopped before. The native objects of the
host have kept their positions. -/
structure Undergoes (move : QueueMove) (before after : Config ν σ) : Prop where
  domain : before.world.domain.Undergoes move after.world.domain ∨
    (∃ fault, after.focus = .faulted fault) ∧ before.world.domain.Moves .stay after.world.domain
  natives : before.world.types <+: after.world.types

/-- Where waiting threads have moved, nothing else has happened. -/
theorem Shifts.undergoes (shifts : before.Shifts move after) : before.Undergoes move after where
  domain := shifts.domain.imp_left .moves
  natives := by
    unfold World.types
    rw [shifts.natives]

/-- Where the world is as it was, nothing has happened. -/
theorem Undergoes.of_same (same : after.world = before.world) :
    before.Undergoes .stay after := (Shifts.of_same same).undergoes

/-- A request that is carried out. -/
theorem perform_undergoes (linked : config.world.domain.Linked) (request : Request ν)
    (next : Answer ν → Body ν σ) :
    config.Undergoes (request.queueMove config.world.domain)
      (config.perform host request next) := by
  cases request with
  | observe => exact .of_same rfl
  | update update =>
    refine attempt_induction (fun fault => (Shifts.stopped config fault).undergoes)
      fun ⟨world, answer⟩ done => ?_
    exact ⟨.inl (Update.undergoes_of_apply linked done), Update.types_of_apply done⟩
  | start id called => exact (Shifts.start linked id called none next).undergoes
  | run id called => exact (Shifts.start linked id called (some .plain) next).undergoes
  | runInt id called => exact (Shifts.start linked id called (some .result) next).undergoes
  | resume id => exact (Shifts.resume id next).undergoes
  | abort id => exact (Shifts.abort linked id .requested (.reply next)).undergoes
  | faultActive error =>
    cases active : config.world.domain.active with
    | none =>
      simp only [perform, Request.queueMove, active]
      exact .of_same rfl
    | some id =>
      simp only [perform, Request.queueMove, active]
      exact (Shifts.abort linked id (.badArgument error) (.reply next)).undergoes
  | wake queue value => exact (Shifts.wake queue value next).undergoes

/-- The next step lets the domain undergo what the work at hand says, or the machine stops. -/
theorem step_undergoes (host : Host ν σ) (linked : config.world.domain.Linked) :
    config.Undergoes config.queueMove (config.step host) := by
  cases focus : config.focus with
  | body body =>
    cases body with
    | done value =>
      have made : config.step host = config.finishBody host value := by simp only [step, focus]
      rw [made]
      exact (Shifts.finishBody linked focus).undergoes
    | modify change next =>
      simp only [step, queueMove, focus]
      exact .of_same rfl
    | crash fault =>
      simp only [step, queueMove, focus]
      exact .of_same rfl
    | ask request next =>
      simp only [step, queueMove, focus]
      exact perform_undergoes linked request next
  | enter run =>
    simp only [step, queueMove, focus]
    exact (Shifts.enterFrame run).undergoes
  | execute run registers =>
    simp only [step, queueMove, focus]
    exact (Shifts.execute run registers).undergoes
  | ended run outcome =>
    simp only [step, queueMove, focus]
    exact (Shifts.finishRun run outcome).undergoes
  | finished value | faulted fault =>
    simp only [step, queueMove, focus]
    exact .of_same rfl

end Config

end ScriptMachine

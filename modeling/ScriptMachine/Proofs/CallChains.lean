import ScriptMachine.Proofs.Safety

/-!
# Chains of calls

A frame that is to be continued awaits the result of a call: it is continued right behind a call of
its function, over the operands that the call has left, and the result goes to where the arguments
of the call began. All frames of a thread lie on one operand stack. A frame either starts at the
bottom of this stack, or it was called by the next one and starts where the arguments of this call
began. The innermost frame of a thread that does not run awaits the result of a native call, unless
it has not been run yet.
-/

namespace ScriptMachine

variable {ν σ : Type}

/-- The kind of the result of a call. -/
def Instruction.result? : Instruction → Option ResultKind
  | .native _ result _ _ | .script result _ _ => some result
  | _ => none

/-- Control goes on behind a call, which pushes its result. -/
theorem Instruction.goes_behind_call {instruction : Instruction} {result : ResultKind}
    (calls : instruction.result? = some result) :
    instruction.stackEffect.pushes = result.count ∧
      ∀ pc target, instruction.Leads pc target → target = pc + instruction.length := by
  cases instruction with
  | native kind given argc method | script given argc callee =>
    cases calls
    refine ⟨rfl, fun pc target leads => ?_⟩
    cases leads with
    | branch branches lands => cases branches
    | next falls => rfl
  | _ => cases calls

/-- Verification settles that an activation has this many operands at the offset. -/
def Function.OperandsAt (function : Function ν) (pc operands : Nat) : Prop :=
  ∃ depth deepest, function.toDefinition.Settled depth deepest ∧ depth pc = some operands

/-- A frame is to be continued right behind a call instruction of its function. The arguments of the
call, topmost among the operands of the frame, began at this position of the operand stack, and its
result, if it has one, is the topmost operand now. -/
structure Frame.Awaits (frame : Frame ν) (instruction : Instruction) (result : ResultKind)
    (base : Nat) : Prop where
  calls : instruction.result? = some result
  site : ∃ offset operands,
    (offset, instruction) ∈ frame.function.code.instructions.instructions ∧
      frame.pc = some (offset + instruction.length) ∧
      frame.function.OperandsAt offset operands ∧ instruction.stackEffect.pops ≤ operands ∧
      base + instruction.stackEffect.pops = frame.base + frame.function.locals + operands
  height : frame.top = base + result.count

namespace Frame.Awaits

variable {frame : Frame ν} {instruction other : Instruction} {result second : ResultKind}
  {base place : Nat}

/-- The arguments of a call lie above the locals. -/
theorem locals_le (awaits : frame.Awaits instruction result base) :
    frame.base + frame.function.locals ≤ base := by
  obtain ⟨offset, operands, _, _, _, enough, height⟩ := awaits.site
  omega

/-- The call is the instruction that ends where the frame is to be continued. -/
theorem instruction_eq (awaits : frame.Awaits instruction result base) {offset : Nat}
    (listed : (offset, other) ∈ frame.function.code.instructions.instructions)
    (saved : frame.pc = some (offset + other.length)) : instruction = other := by
  obtain ⟨place, _, here, behind, _⟩ := awaits.site
  have ends : place + instruction.length = offset + other.length :=
    Option.some.inj (behind.symm.trans saved)
  exact (Code.Boundary.eq_of_ends here listed ends).2

/-- A frame awaits the result of one call only, and at one place. -/
theorem unique (awaits : frame.Awaits instruction result base)
    (also : frame.Awaits other second place) :
    instruction = other ∧ result = second ∧ base = place := by
  obtain ⟨offset, _, listed, saved, _⟩ := also.site
  obtain rfl := awaits.instruction_eq listed saved
  obtain rfl : result = second := Option.some.inj (awaits.calls.symm.trans also.calls)
  exact ⟨rfl, rfl, Nat.add_right_cancel (awaits.height.symm.trans also.height)⟩

end Frame.Awaits

/-- A slot of the operand stack holds a local of the frame or an operand that the awaited call has
not taken. -/
def Frame.Owns (frame : Frame ν) (slot : Nat) : Prop :=
  ∃ instruction result base, frame.Awaits instruction result base ∧ frame.base ≤ slot ∧ slot < base

/-- Frames, the innermost first, each of which starts at the bottom of the operand stack or was
called by the next one. -/
inductive CallChain : List (Frame ν) → Prop where
  | nil : CallChain []
  | entry {frame : Frame ν} {outer : List (Frame ν)} (bottom : frame.base = 0)
    (chain : CallChain outer) : CallChain (frame :: outer)
  | called {callee caller : Frame ν} {outer : List (Frame ν)} {instruction : Instruction}
    {result : ResultKind} (awaits : caller.Awaits instruction result callee.base)
    (chain : CallChain (caller :: outer)) : CallChain (callee :: caller :: outer)

namespace CallChain

variable {frame : Frame ν} {outer : List (Frame ν)}

/-- Without its innermost frame a chain is one still. -/
theorem tail {frames : List (Frame ν)} (chain : CallChain frames) : CallChain frames.tail := by
  cases chain with
  | nil => exact .nil
  | entry _ chain => exact chain
  | called _ chain => exact chain

/-- Where the innermost frame is to be continued does not matter. -/
theorem replace (chain : CallChain (frame :: outer)) {other : Frame ν}
    (same : other.base = frame.base) : CallChain (other :: outer) := by
  cases chain with
  | entry bottom chain => exact .entry (same.trans bottom) chain
  | called awaits chain => exact .called (same ▸ awaits) chain

end CallChain

/-- The frames form a chain, and the innermost one has not been run yet or awaits the result of a
native call. -/
structure Execution.Parked (execution : Execution ν) : Prop where
  chain : CallChain execution.frames
  awaits : ∀ frame outer, execution.frames = frame :: outer → frame.pc = none ∨
    ∃ kind result argc method base,
      frame.Awaits (.native kind result argc method) result base

/-- Without frames there is nothing to wait for. -/
theorem Execution.parked_of_nil {execution : Execution ν} (bare : execution.frames = []) :
    execution.Parked := by
  refine ⟨?_, fun frame outer frames => ?_⟩
  · rw [bare]
    exact .nil
  · rw [bare] at frames
    cases frames

/-- Only the frames matter. -/
theorem Execution.Parked.of_frames {execution other : Execution ν} (parked : execution.Parked)
    (same : other.frames = execution.frames) : other.Parked := by
  refine ⟨?_, fun frame outer frames => parked.awaits frame outer (same ▸ frames)⟩
  rw [same]
  exact parked.chain

/-- The innermost frame of a run awaits the result of a native call once the registers are recorded
in it. -/
def Run.Calls (run : Run ν σ) (registers : Registers ν) (call : NativeCall) : Prop :=
  ∀ frame outer, run.execution.frames = frame :: outer →
    ∃ argc, Frame.Awaits { frame with pc := some registers.pc, top := registers.sp }
      (.native call.kind call.result argc call.method) call.result call.base

/-- Once the registers behind a native call are recorded, the frames can be given back. -/
theorem Run.Calls.parked {run : Run ν σ} {registers : Registers ν} {call : NativeCall}
    (calls : run.Calls registers call) (chain : CallChain run.execution.frames) :
    (run.saveFrame registers.pc registers.sp).execution.Parked := by
  unfold Run.saveFrame
  split
  · rename_i bare
    exact Execution.parked_of_nil bare
  · rename_i frame outer frames
    rw [frames] at chain
    refine ⟨chain.replace rfl, fun other others same => ?_⟩
    cases same
    obtain ⟨argc, awaits⟩ := calls frame outer frames
    exact .inr ⟨_, _, argc, _, _, awaits⟩

/-- The run that waits has a chain of frames, and waits for the native call that it has made. -/
def Pending.Stacked : Pending ν σ → Prop
  | .calling run registers call => CallChain run.execution.frames ∧ run.Calls registers call
  | .aborting _ => True

/-- The run at hand has a chain of frames. Once it has ended, its frames can be given back. -/
def Focus.Stacked : Focus ν σ → Prop
  | .enter run | .execute run _ => CallChain run.execution.frames
  | .ended run _ => run.execution.Parked
  | .body _ | .finished _ | .faulted _ => True

/-- All threads that do not run are parked. -/
def Domain.Parked (domain : Domain ν) : Prop :=
  ∀ id thread execution, domain.thread? id = some thread →
    thread.execution = some execution → execution.Parked

namespace Domain.Parked

variable {domain next : Domain ν} {id : ThreadId} {before after : Thread ν}

/-- Threads that keep what they execute stay parked. -/
theorem of_keeps (parked : domain.Parked) (keeps : domain.Keeps next) : next.Parked := by
  intro id after execution there held
  rcases keeps.new id after there with ⟨before, present, kept⟩ | ⟨_, fresh⟩
  · rcases kept.execution with same | ⟨old, frame, frames, value, known, _, _, written⟩
    · exact parked id before execution present (same.symm.trans held)
    · rw [written] at held
      cases held
      exact (parked id before old present known).of_frames rfl
  · rw [fresh.1] at held
    cases held
    exact Execution.parked_of_nil rfl

/-- An update keeps threads parked. -/
theorem of_updated (parked : domain.Parked) (update : domain.Updated next) : next.Parked := by
  rcases Domain.Keeps.of_updated update with keeps | cleared
  · exact parked.of_keeps keeps
  · unfold Domain.clear at cleared
    split at cleared <;> cases cleared
    simp [Parked, Domain.thread?]

/-- Replacing a thread by one that is parked. -/
theorem setThread (parked : domain.Parked) (present : domain.thread? id = some before)
    (executes : ∀ execution, after.execution = some execution → execution.Parked) :
    (domain.setThread id after).Parked := by
  intro other thread execution there held
  rw [thread?_setThread present] at there
  split at there
  · cases there
    exact executes execution held
  · exact parked other thread execution there held

/-- Discarding frames. -/
theorem discard (parked : domain.Parked) {reason : AbortReason}
    (done : domain.discard id reason = .ok next) : next.Parked := by
  obtain ⟨thread, present, ⟨execution, held, rfl⟩ | ⟨taken, rfl⟩⟩ := discard_eq_ok done
  · refine parked.setThread present fun after held => ?_
    cases held
    exact Execution.parked_of_nil rfl
  · exact parked.setThread present fun after held => parked id thread after present held

end Domain.Parked

/-- Once the registers behind a call are recorded, the innermost frame awaits the result of the
call. -/
theorem Run.At.awaits {run : Run ν σ} {registers : Registers ν} {instruction : Instruction}
    {result : ResultKind} {base pc : Nat} (at' : run.At registers)
    (ready : registers.function.Ready registers.base registers.pc registers.sp
      run.execution.stack.size instruction)
    (calls : instruction.result? = some result)
    (height : base + result.count = instruction.after registers.sp)
    (leads : instruction.Leads registers.pc pc) {frame : Frame ν} {outer : List (Frame ν)}
    (frames : run.execution.frames = frame :: outer) :
    Frame.Awaits { frame with pc := some pc, top := base + result.count } instruction result
      base := by
  obtain ⟨innermost, others, first, function, place⟩ := at'.innermost
  obtain ⟨rfl, rfl⟩ := List.cons.inj (frames.symm.trans first)
  obtain ⟨depth, deepest, operands, settled, _, known, above, _⟩ := at'.fits
  obtain ⟨pushes, behind⟩ := Instruction.goes_behind_call calls
  have listed := ready.listed
  have enough := ready.enough
  rw [← function] at settled listed enough above
  rw [← place] at enough above
  rw [Instruction.after, pushes] at height
  refine ⟨calls, ⟨registers.pc, operands, listed, ?_, ⟨depth, deepest, settled, known⟩, ?_⟩, rfl⟩
  · rw [behind _ _ leads]
  · dsimp only
    omega

namespace Config

/-- All threads that do not run are parked, and so is the work that waits. -/
structure Founded (config : Config ν σ) : Prop where
  domain : config.world.domain.Parked
  pending : ∀ work ∈ config.pending, work.Stacked

/-- All frames in a configuration form chains. -/
structure Stacked (config : Config ν σ) : Prop extends Founded config where
  focus : config.focus.Stacked

namespace Founded

variable {host : Host ν σ} {config other : Config ν σ} {run : Run ν σ} {registers : Registers ν}
  {next : Answer ν → Body ν σ}

/-- Only the domain and the work that waits matter. -/
theorem congr (founded : config.Founded) (domain : other.world.domain = config.world.domain)
    (pending : other.pending = config.pending) : other.Founded where
  domain := by
    rw [domain]
    exact founded.domain
  pending := by
    rw [pending]
    exact founded.pending

/-- The domain is replaced by one whose threads are parked. -/
theorem setDomain {domain : Domain ν} (founded : config.Founded) (parked : domain.Parked) :
    (config.setDomain domain).Founded := ⟨parked, founded.pending⟩

/-- Going on with work whose frames form a chain. -/
theorem goto (founded : config.Founded) {focus : Focus ν σ} (stacked : focus.Stacked) :
    (config.goto focus).Stacked := ⟨founded.congr rfl rfl, stacked⟩

/-- Going on with a body. -/
theorem body (founded : config.Founded) (body : Body ν σ) : (config.goto (.body body)).Stacked :=
  founded.goto trivial

/-- Stopping for a misuse. -/
theorem faulted (founded : config.Founded) (fault : Fault) :
    (config.goto (.faulted fault)).Stacked := founded.goto trivial

/-- The trace sink changes nothing that matters. -/
theorem emit (founded : config.Founded) (event : Event ν) :
    (config.emit host event).Founded := founded.congr (by simp) (by simp)

/-- A thread that begins to run. -/
theorem launch (founded : config.Founded) (id : ThreadId) (purpose : Purpose) :
    (config.launch host id purpose next).Stacked := by
  refine attempt_induction founded.faulted fun thread found => ?_
  have present := Domain.thread_eq_ok.1 found
  split
  · exact founded.body _
  · rename_i execution held
    have took : Domain.Parked
        (config.world.domain.setThread id { thread with execution := none }) :=
      founded.domain.setThread present (by simp)
    have activated : Domain.Parked { config.world.domain.setThread id
        { thread with execution := none } with active := some id } := took
    have chain := (founded.domain id thread execution present held).chain
    refine goto ((founded.setDomain activated).congr ?_ ?_) chain
    · split <;> simp
    · split <;> simp

/-- A run that ends. -/
theorem finishRun (founded : config.Founded) (parked : run.execution.Parked) (outcome : Outcome) :
    (config.finishRun host run outcome).Stacked := by
  refine attempt_induction founded.faulted fun thread found => ?_
  have gave : Domain.Parked (config.world.domain.setThread run.thread
      { thread with execution := some run.execution, pendingAbort := none }) :=
    founded.domain.setThread (Domain.thread_eq_ok.1 found) fun _ held => by
      cases held
      exact parked
  have left : Founded (config.setDomain { config.world.domain.setThread run.thread
      { thread with execution := some run.execution, pendingAbort := none } with
        active := run.previous }) := ⟨gave, founded.pending⟩
  exact ⟨(left.emit (.runEnd run.thread outcome)).congr rfl rfl, trivial⟩

/-- A run that is aborted. -/
theorem abortRun (founded : config.Founded) (function : Function ν) (pc : Nat)
    (reason : AbortReason) : (config.abortRun host run function pc reason).Stacked :=
  ⟨founded.congr rfl rfl, Execution.parked_of_nil rfl⟩

/-- What follows an abort. -/
theorem afterAbort (founded : config.Founded) (next : AfterAbort ν σ) :
    (config.afterAbort host next).Stacked := by
  cases next with
  | reply next => exact founded.body _
  | stop run function pc reason => exact founded.abortRun function pc reason
  | start id function purpose next =>
    refine attempt_induction founded.faulted fun thread found => ?_
    have present := Domain.thread_eq_ok.1 found
    split
    · exact founded.body _
    · rename_i execution held
      have parked := founded.domain id thread execution present held
      let frames : List (Frame ν) := { function, base := 0, top := 0 } :: execution.frames
      have fresh : Execution.Parked { execution with frames } := by
        refine ⟨.entry rfl parked.chain, fun frame outer same => ?_⟩
        cases same
        exact .inl rfl
      have pushed : Founded (config.setDomain (config.world.domain.setThread id
          { thread with execution := some { execution with frames } })) :=
        founded.setDomain (founded.domain.setThread present fun _ held => by
          cases held
          exact fresh)
      cases purpose with
      | none => exact pushed.body _
      | some purpose => exact pushed.launch id purpose

/-- A thread that is detached. -/
theorem detach (founded : config.Founded) (id : ThreadId) (next : AfterAbort ν σ) :
    (config.detach host id next).Stacked := by
  refine attempt_induction founded.faulted fun ⟨domain, hook⟩ done => ?_
  have detached := founded.setDomain (founded.domain.of_keeps (.detach done))
  dsimp only
  split
  · exact detached.afterAbort next
  · refine afterAbort (detached.congr ?_ ?_) next
    · rfl
    · rfl
  · refine ⟨⟨detached.domain, fun work waiting => ?_⟩, trivial⟩
    rcases List.mem_cons.1 waiting with same | earlier
    · subst same
      trivial
    · exact founded.pending work earlier

/-- A thread that is aborted. -/
theorem abort (founded : config.Founded) (id : ThreadId) (reason : AbortReason)
    (next : AfterAbort ν σ) : (config.abort host id reason next).Stacked :=
  attempt_induction founded.faulted fun _ done =>
    (founded.setDomain (founded.domain.discard done)).detach id next

/-- A thread that is given a fresh frame. -/
theorem start (founded : config.Founded) (id : ThreadId) (function : FunctionId)
    (purpose : Option Purpose) : (config.start host id function purpose next).Stacked :=
  start_induction founded.faulted (fun _ => founded.body _) (fun _ _ _ => founded.body _)
    fun _ _ _ _ _ _ => ⟨fun _ => founded.abort id .requested _, fun _ _ => founded.afterAbort _⟩

/-- A thread that goes on. -/
theorem continueThread (founded : config.Founded) (id : ThreadId) (purpose : Purpose) :
    (config.continueThread host id purpose next).Stacked := by
  refine attempt_induction founded.faulted fun thread found => ?_
  have released := founded.setDomain (founded.domain.of_keeps
    (Domain.Keeps.setThread (Domain.thread_eq_ok.1 found)
      (.of_same rfl rfl : thread.Keeps { thread with suspended := false, hook := none })))
  dsimp only
  split
  · exact released.body _
  · exact released.launch id purpose

/-- A thread that the host resumes. -/
theorem resume (founded : config.Founded) (id : ThreadId) :
    (config.resume host id next).Stacked :=
  resume_induction founded.faulted (fun _ => founded.body _) fun _ _ _ _ _ =>
    founded.continueThread id .plain

/-- A thread that is woken through its queue. -/
theorem wake (founded : config.Founded) (queue : QueueId) (value : Option Int32) :
    (config.wake host queue value next).Stacked := by
  refine wake_induction founded.faulted (fun _ => founded.body _) (fun _ _ _ _ _ => founded.body _)
    fun head _ domain _ _ _ _ done => ?_
  have left := founded.setDomain (founded.domain.of_updated (.pop done))
  refine ⟨left.faulted, fun _ _ => left.body _, fun supplied handed => ?_⟩
  have handed := left.setDomain (left.domain.of_updated (Evolves.handResult handed).1)
  exact handed.continueThread head .woken

/-- A request that is carried out. -/
theorem perform (founded : config.Founded) (request : Request ν) :
    (config.perform host request next).Stacked := by
  cases request with
  | observe => exact founded.body _
  | update update =>
    refine attempt_induction founded.faulted fun ⟨world, answer⟩ done => ?_
    refine ⟨⟨?_, founded.pending⟩, trivial⟩
    obtain ⟨function, _, registered⟩ | updated := Update.updated_of_apply done
    · dsimp only
      rw [registered]
      exact founded.domain
    · exact founded.domain.of_updated updated
  | start id function => exact founded.start id function none
  | run id function => exact founded.start id function (some .plain)
  | runInt id function => exact founded.start id function (some .result)
  | resume id => exact founded.resume id
  | abort id => exact founded.abort id .requested (.reply next)
  | faultActive error =>
    unfold Config.perform
    dsimp only
    split
    · exact founded.body _
    · exact founded.abort _ _ (.reply next)
  | wake queue value => exact founded.wake queue value

/-- A frame that is entered. -/
theorem enterFrame (founded : config.Founded) (chain : CallChain run.execution.frames) :
    (config.enterFrame host run).Stacked := by
  unfold Config.enterFrame
  split
  · rename_i bare
    exact founded.goto (Execution.parked_of_nil bare)
  · split
    · exact founded.goto chain
    · exact (founded.emit _).goto chain

/-- A frame that is left. -/
theorem leaveFrame (founded : config.Founded) (chain : CallChain run.execution.frames)
    (function : Function ν) (stack : Array Int32) :
    (config.leaveFrame host run function stack).Stacked :=
  (founded.emit _).goto chain.tail

/-- A native method that is called. -/
theorem callNative (founded : config.Founded) (chain : CallChain run.execution.frames)
    (next : Nat) (call : NativeCall)
    (calls : run.Calls (registers.move next (call.base + call.result.count)) call) :
    (config.callNative host run registers next call).Stacked := by
  unfold Config.callNative
  split
  · exact founded.abortRun ..
  · dsimp only
    split
    · refine ⟨⟨(founded.emit _).domain, fun work waiting => ?_⟩, trivial⟩
      rcases List.mem_cons.1 waiting with same | earlier
      · subst same
        exact ⟨chain, calls⟩
      · exact (founded.emit _).pending work earlier
    · exact (founded.emit _).faulted _

/-- A native method that answers. -/
theorem returnNative (founded : config.Founded) (chain : CallChain run.execution.frames)
    (call : NativeCall) (calls : run.Calls registers call) (value : Int32) :
    (config.returnNative host run registers call value).Stacked := by
  refine returnNative_induction fun shown emitted => ?_
  replace founded : shown.Founded := emitted ▸ founded.emit _
  refine ⟨founded.faulted, fun stack thread _ present =>
    ⟨fun reason _ => ?_, fun _ _ => ?_, fun _ _ => ?_⟩⟩
  · have honored : Domain.Parked (shown.world.domain.setThread run.thread
        { thread with pendingAbort := none }) :=
      founded.domain.setThread present fun execution held =>
        founded.domain _ thread execution present held
    exact (founded.setDomain honored).detach _ _
  · refine (founded.emit _).goto ?_
    exact @Run.Calls.parked _ _ (run.setStack stack) registers call calls chain
  · exact founded.goto chain

/-- A script function that is called. -/
theorem callScript (founded : config.Founded) (chain : CallChain run.execution.frames)
    (next : Nat) (result : ResultKind) (callee : FunctionId) (argc : Nat)
    (awaits : ∀ frame outer, run.execution.frames = frame :: outer → ∃ instruction,
      Frame.Awaits { frame with pc := some next, top := registers.sp - argc + result.count }
        instruction result (registers.sp - argc))
    (occupied : run.execution.frames ≠ []) :
    (config.callScript host run registers next result callee argc).Stacked := by
  refine callScript_induction founded.faulted (fun _ => founded.abortRun ..)
    fun function _ _ => ⟨fun stack _ _ => founded.abortRun .., fun _ => founded.goto ?_⟩
  obtain ⟨frame, outer, frames⟩ := List.exists_cons_of_ne_nil occupied
  obtain ⟨instruction, awaits⟩ := awaits frame outer frames
  rw [frames] at chain
  let saved := run.saveFrame next (registers.sp - argc + result.count)
  have same : saved.execution.frames =
      { frame with pc := some next, top := registers.sp - argc + result.count } :: outer := by
    simp [saved, Run.saveFrame, frames, Run.setFrames]
  change CallChain (_ :: saved.execution.frames)
  rw [same]
  exact .called awaits (chain.replace rfl)

/-- An instruction that is executed. -/
theorem execute (founded : config.Founded) (chain : CallChain run.execution.frames)
    (at' : run.At registers) : (config.execute host run registers).Stacked := by
  obtain ⟨instruction, ready⟩ := at'.fits.ready
  have shown : (config.shown host run registers instruction).Founded := founded.emit _
  obtain ⟨same, _⟩ | ⟨thread, _, executed⟩ := execute_cases host config at' ready
  · rw [same]
    exact shown.faulted _
  · generalize config.execute host run registers = after at executed
    cases executed with
    | go sized leads => exact shown.goto chain
    | write value present leads => exact ⟨⟨shown.domain, shown.pending⟩, chain⟩
    | spend leads => exact shown.goto chain
    | loopLimit => exact shown.abortRun ..
    | native called height leads =>
      subst called
      exact shown.callNative chain _ _ fun frame outer frames =>
        ⟨_, at'.awaits ready rfl height leads frames⟩
    | script called enough height leads =>
      subst called
      refine shown.callScript chain _ _ _ _ (fun frame outer frames =>
        ⟨_, at'.awaits ready rfl height leads frames⟩) ?_
      obtain ⟨frame, outer, frames, _⟩ := at'.innermost
      simp [frames]
    | ret sized => exact shown.leaveFrame chain _ _
    | invalid misses => exact shown.abortRun ..

end Founded

/-- A step keeps all frames in chains. -/
theorem Stacked.step (host : Host ν σ) {config : Config ν σ} (sound : config.Sound)
    (stacked : config.Stacked) : (config.step host).Stacked := by
  have founded := stacked.toFounded
  have work {focus : Focus ν σ} (found : config.focus = focus) : focus.Stacked :=
    found ▸ stacked.focus
  have below {waiting : Pending ν σ} {rest : List (Pending ν σ)}
      (waits : config.pending = waiting :: rest) : Founded { config with pending := rest } :=
    ⟨founded.domain, fun work later => founded.pending work (waits ▸ List.mem_cons_of_mem _ later)⟩
  refine step_induction {
    rests _ := stacked
    enters _ found := founded.enterFrame (work found)
    executes _ _ found := founded.execute (work found) ?_
    ends _ _ found := founded.finishRun (work found) _
    asks _ _ _ := founded.perform _
    modifies _ _ _ := ⟨founded.congr rfl rfl, trivial⟩
    crashes _ _ := founded.faulted _
    concludes _ _ _ := founded.goto trivial
    answers value run registers call rest _ waits := ?_
    goesOn _ next rest _ waits := (below waits).afterAbort next }
  · have fits := sound.focus
    rw [found] at fits
    exact fits.2
  · obtain ⟨chain, calls⟩ := founded.pending (.calling run registers call) (by simp [waits])
    exact (below waits).returnNative chain call calls value

/-- In every reachable configuration of a host that registers verified functions only, all frames
form chains. -/
theorem stacked_of_reachable {host : Host ν σ} (hosted : host.Asks Request.RegistersVerified)
    {config : Config ν σ} (reached : config.Reachable host Request.RegistersVerified) :
    config.Stacked := by
  induction reached with
  | initial state body asks =>
    exact ⟨⟨by simp [initial, Domain.Parked, Domain.thread?], by simp [initial]⟩, trivial⟩
  | again reached ended state body asks ih => exact ⟨⟨ih.domain, by simp [initial]⟩, trivial⟩
  | step reached ih => exact ih.step host (sound_of_reachable hosted reached)

end Config

end ScriptMachine

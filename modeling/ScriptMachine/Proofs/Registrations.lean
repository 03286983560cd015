import ScriptMachine.Proofs.Acceptance
import ScriptMachine.Proofs.Safety

/-!
# Functions that are run

Every frame belongs to a function that a request has registered, wherever the frame is kept, and is
continued at an offset that control reaches from the first instruction of the function. So what
holds of every function that the host may register holds of every function that is run, along every
path through its code, as long as the host registers verified functions only.
-/

namespace ScriptMachine

variable {ν σ : Type}

/-- The request that registers a function is allowed. -/
def Function.Admitted (allowed : Request ν → Prop) (function : Function ν) : Prop :=
  allowed (.update (.addFunction function))

/-- A frame belongs to a function that may be registered, and is to be continued at an offset that
control reaches. -/
structure Frame.Placed (allowed : Request ν → Prop) (frame : Frame ν) : Prop where
  admitted : frame.function.Admitted allowed
  reached : ∀ pc, frame.pc = some pc → frame.function.Reaches pc

/-- Every frame is placed. -/
def Execution.Placed (allowed : Request ν → Prop) (execution : Execution ν) : Prop :=
  ∀ frame ∈ execution.frames, frame.Placed allowed

/-- The frames of a run are placed, and what follows the run makes only allowed requests. -/
structure Run.Placed (allowed : Request ν → Prop) (run : Run ν σ) : Prop where
  execution : run.execution.Placed allowed
  reply : ∀ answer, (run.reply answer).Asks allowed

/-- What follows an abort is placed. -/
def AfterAbort.Placed (allowed : Request ν → Prop) : AfterAbort ν σ → Prop
  | .reply next => ∀ answer, (next answer).Asks allowed
  | .start _ function _ next => function.Admitted allowed ∧ ∀ answer, (next answer).Asks allowed
  | .stop run _ _ _ => run.Placed allowed

/-- Work that waits is placed. -/
def Pending.Placed (allowed : Request ν → Prop) : Pending ν σ → Prop
  | .calling run registers _ => run.Placed allowed ∧ registers.function.Reaches registers.pc
  | .aborting next => next.Placed allowed

/-- The work at hand is placed. -/
def Focus.Placed (allowed : Request ν → Prop) : Focus ν σ → Prop
  | .body work => work.Asks allowed
  | .enter run | .ended run _ => run.Placed allowed
  | .execute run registers => run.Placed allowed ∧ registers.function.Reaches registers.pc
  | .finished _ | .faulted _ => True

/-- Functions may be registered, and what threads execute is placed. -/
structure Domain.Placed (allowed : Request ν → Prop) (domain : Domain ν) : Prop where
  functions : ∀ function ∈ domain.functions, function.Admitted allowed
  executions : ∀ id thread execution, domain.thread? id = some thread →
    thread.execution = some execution → execution.Placed allowed

variable {allowed : Request ν → Prop}

/-- An execution without frames is placed. -/
theorem Execution.placed_of_nil {execution : Execution ν} (nothing : execution.frames = []) :
    execution.Placed allowed := by simp [Placed, nothing]

namespace Run.Placed

variable {run : Run ν σ} {registers : Registers ν}

/-- The operand stack does not matter. -/
theorem setStack (placed : run.Placed allowed) (stack : Array Int32) :
    (run.setStack stack).Placed allowed := ⟨placed.execution, placed.reply⟩

/-- A run without frames is placed. -/
theorem discard (placed : run.Placed allowed) : (run.setFrames []).Placed allowed :=
  ⟨Execution.placed_of_nil rfl, placed.reply⟩

/-- Leaving the innermost frame. -/
theorem leave (placed : run.Placed allowed) :
    (run.setFrames run.execution.frames.tail).Placed allowed :=
  ⟨fun frame listed => placed.execution frame (List.mem_of_mem_tail listed), placed.reply⟩

/-- Entering a frame that has not been run. -/
theorem enter (placed : run.Placed allowed) {function : Function ν}
    (admitted : function.Admitted allowed) (base top : Nat) :
    (run.setFrames ({ function, base, top } :: run.execution.frames)).Placed allowed := by
  refine ⟨fun frame listed => ?_, placed.reply⟩
  rcases List.mem_cons.1 listed with first | later
  · subst first
    exact ⟨admitted, fun pc saved => by cases saved⟩
  · exact placed.execution frame later

/-- The innermost function of a run may be registered. -/
theorem admitted (placed : run.Placed allowed) (at' : run.At registers) :
    registers.function.Admitted allowed := by
  obtain ⟨frame, frames, first, same, _⟩ := at'.innermost
  rw [← same]
  exact (placed.execution frame (by simp [first])).admitted

/-- Recording an offset that control reaches. -/
theorem saveFrame (placed : run.Placed allowed) (at' : run.At registers) {pc : Nat}
    (reached : registers.function.Reaches pc) (top : Nat) :
    (run.saveFrame pc top).Placed allowed := by
  have admitted := placed.admitted at'
  obtain ⟨frame, frames, first, function, _⟩ := at'.innermost
  unfold Run.saveFrame
  rw [first]
  refine ⟨fun other listed => ?_, placed.reply⟩
  rcases List.mem_cons.1 listed with same | later
  · subst same
    refine ⟨function ▸ admitted, fun saved same => ?_⟩
    cases same
    exact function ▸ reached
  · exact placed.execution other (by simp [first, later])

end Run.Placed

namespace Domain.Placed

variable {domain next : Domain ν}

/-- Threads that keep what they execute stay placed. -/
theorem of_keeps (placed : domain.Placed allowed) (keeps : domain.Keeps next) :
    next.Placed allowed where
  functions := by
    rw [keeps.functions]
    exact placed.functions
  executions id after execution there held := by
    rcases keeps.new id after there with ⟨before, present, kept⟩ | ⟨_, fresh⟩
    · rcases kept.execution with same | ⟨old, frame, frames, value, known, _, _, written⟩
      · exact placed.executions id before execution present (same.symm.trans held)
      · rw [written] at held
        cases held
        exact placed.executions id before old present known
    · rw [fresh.1] at held
      cases held
      exact Execution.placed_of_nil rfl

/-- An update that registers no function keeps a domain placed. -/
theorem of_updated (placed : domain.Placed allowed) (update : domain.Updated next) :
    next.Placed allowed := by
  rcases Domain.Keeps.of_updated update with keeps | cleared
  · exact placed.of_keeps keeps
  · unfold Domain.clear at cleared
    split at cleared <;> cases cleared
    constructor <;> simp [Domain.thread?]

/-- Registering a function that may be registered. -/
theorem register (placed : domain.Placed allowed) {function : Function ν}
    (admitted : function.Admitted allowed) :
    Domain.Placed allowed { domain with functions := domain.functions.push function } where
  functions other listed := by
    rcases Array.mem_push.1 listed with earlier | same
    · exact placed.functions other earlier
    · exact same ▸ admitted
  executions := placed.executions

/-- Replacing a thread by one that executes something placed. -/
theorem setThread (placed : domain.Placed allowed) {id : ThreadId} {before after : Thread ν}
    (present : domain.thread? id = some before)
    (executes : ∀ execution, after.execution = some execution → execution.Placed allowed) :
    (domain.setThread id after).Placed allowed where
  functions := placed.functions
  executions other thread execution there held := by
    rw [thread?_setThread present] at there
    split at there
    · cases there
      exact executes execution held
    · exact placed.executions other thread execution there held

/-- Discarding frames. -/
theorem discard (placed : domain.Placed allowed) {id : ThreadId} {reason : AbortReason}
    (done : domain.discard id reason = .ok next) : next.Placed allowed := by
  obtain ⟨thread, present, ⟨execution, held, rfl⟩ | ⟨taken, rfl⟩⟩ := discard_eq_ok done
  · refine placed.setThread present fun after held => ?_
    cases held
    exact Execution.placed_of_nil rfl
  · exact placed.setThread present fun after held =>
      placed.executions id thread after present held

end Domain.Placed

namespace Config

/-- The domain and the work that waits are placed. -/
structure Backed (allowed : Request ν → Prop) (config : Config ν σ) : Prop where
  domain : config.world.domain.Placed allowed
  pending : ∀ work ∈ config.pending, work.Placed allowed

/-- Everything in a configuration is placed. -/
structure Placed (allowed : Request ν → Prop) (config : Config ν σ) : Prop
    extends Backed allowed config where
  focus : config.focus.Placed allowed

namespace Backed

variable {host : Host ν σ} {config other : Config ν σ} {run : Run ν σ}
  {registers : Registers ν} {next : Answer ν → Body ν σ}

/-- Only the domain and the work that waits matter. -/
theorem congr (backed : config.Backed allowed)
    (domain : other.world.domain = config.world.domain)
    (pending : other.pending = config.pending) : other.Backed allowed where
  domain := by
    rw [domain]
    exact backed.domain
  pending := by
    rw [pending]
    exact backed.pending

/-- The domain is replaced by a placed one. -/
theorem setDomain {domain : Domain ν} (backed : config.Backed allowed)
    (placed : domain.Placed allowed) : (config.setDomain domain).Backed allowed :=
  ⟨placed, backed.pending⟩

/-- Going on with placed work. -/
theorem goto (backed : config.Backed allowed) {focus : Focus ν σ}
    (placed : focus.Placed allowed) : (config.goto focus).Placed allowed :=
  ⟨backed.congr rfl rfl, placed⟩

/-- Stopping for a misuse. -/
theorem faulted (backed : config.Backed allowed) (fault : Fault) :
    (config.goto (.faulted fault)).Placed allowed := backed.goto trivial

/-- The trace sink changes nothing that matters. -/
theorem emit (backed : config.Backed allowed) (event : Event ν) :
    (config.emit host event).Backed allowed := backed.congr (by simp) (by simp)

/-- A thread that begins to run. -/
theorem launch (backed : config.Backed allowed) (id : ThreadId) (purpose : Purpose)
    (asks : ∀ answer, (next answer).Asks allowed) :
    (config.launch host id purpose next).Placed allowed := by
  refine attempt_induction backed.faulted fun thread found => ?_
  have present := Domain.thread_eq_ok.1 found
  split
  · exact backed.goto (asks _)
  · rename_i execution held
    have placed := backed.domain.executions id thread execution present held
    have took : Domain.Placed allowed
        (config.world.domain.setThread id { thread with execution := none }) :=
      backed.domain.setThread present (by simp)
    have activated : Domain.Placed allowed { config.world.domain.setThread id
        { thread with execution := none } with active := some id } :=
      ⟨took.functions, took.executions⟩
    refine goto ((backed.setDomain activated).congr ?_ ?_) ⟨placed, asks⟩
    · split <;> simp
    · split <;> simp

/-- A run that ends. -/
theorem finishRun (backed : config.Backed allowed) (placed : run.Placed allowed)
    (outcome : Outcome) : (config.finishRun host run outcome).Placed allowed := by
  refine attempt_induction backed.faulted fun thread found => ?_
  have gave : Domain.Placed allowed (config.world.domain.setThread run.thread
      { thread with execution := some run.execution, pendingAbort := none }) :=
    backed.domain.setThread (Domain.thread_eq_ok.1 found) fun _ held => by
      cases held
      exact placed.execution
  have left : Backed allowed (config.setDomain { config.world.domain.setThread run.thread
      { thread with execution := some run.execution, pendingAbort := none } with
        active := run.previous }) := ⟨⟨gave.functions, gave.executions⟩, backed.pending⟩
  exact ⟨(left.emit (.runEnd run.thread outcome)).congr rfl rfl, placed.reply _⟩

/-- A run that is aborted. -/
theorem abortRun (backed : config.Backed allowed) (placed : run.Placed allowed)
    (function : Function ν) (pc : Nat) (reason : AbortReason) :
    (config.abortRun host run function pc reason).Placed allowed :=
  ⟨backed.congr rfl rfl, placed.discard⟩

/-- What follows an abort. -/
theorem afterAbort (backed : config.Backed allowed) {next : AfterAbort ν σ}
    (placed : next.Placed allowed) : (config.afterAbort host next).Placed allowed := by
  cases next with
  | reply next => exact backed.goto (placed _)
  | stop run function pc reason => exact backed.abortRun placed function pc reason
  | start id function purpose next =>
    refine attempt_induction backed.faulted fun thread found => ?_
    have present := Domain.thread_eq_ok.1 found
    split
    · exact backed.goto (placed.2 _)
    · rename_i execution held
      have earlier := backed.domain.executions id thread execution present held
      let frames : List (Frame ν) := { function, base := 0, top := 0 } :: execution.frames
      have fresh : Execution.Placed allowed { execution with frames } := by
        intro frame listed
        rcases List.mem_cons.1 listed with first | later
        · subst first
          exact ⟨placed.1, fun pc saved => by cases saved⟩
        · exact earlier frame later
      have pushed : Backed allowed (config.setDomain (config.world.domain.setThread id
          { thread with execution := some { execution with frames } })) :=
        backed.setDomain (backed.domain.setThread present fun _ held => by
          cases held
          exact fresh)
      cases purpose with
      | none => exact pushed.goto (placed.2 _)
      | some purpose => exact pushed.launch id purpose placed.2

/-- A thread that is detached. -/
theorem detach (backed : config.Backed allowed) (hosted : host.Asks allowed)
    {next : AfterAbort ν σ} (placed : next.Placed allowed) (id : ThreadId) :
    (config.detach host id next).Placed allowed := by
  refine attempt_induction backed.faulted fun ⟨domain, hook⟩ done => ?_
  have detached := backed.setDomain (backed.domain.of_keeps (.detach done))
  dsimp only
  split
  · exact detached.afterAbort placed
  · refine afterAbort (detached.congr ?_ ?_) placed
    · rfl
    · rfl
  · refine ⟨⟨detached.domain, fun work waiting => ?_⟩, hosted.onAbort _ id⟩
    rcases List.mem_cons.1 waiting with same | earlier
    · subst same
      exact placed
    · exact backed.pending work earlier

/-- A thread that is aborted. -/
theorem abort (backed : config.Backed allowed) (hosted : host.Asks allowed)
    {next : AfterAbort ν σ} (placed : next.Placed allowed) (id : ThreadId)
    (reason : AbortReason) : (config.abort host id reason next).Placed allowed :=
  attempt_induction backed.faulted fun _ done =>
    (backed.setDomain (backed.domain.discard done)).detach hosted placed id

/-- A registered function may be registered. -/
theorem admitted (backed : config.Backed allowed) {id : FunctionId} {function : Function ν}
    (found : config.world.domain.function? id = some function) : function.Admitted allowed :=
  backed.domain.functions function (Array.mem_of_getElem? found)

/-- A thread that is given a fresh frame. -/
theorem start (backed : config.Backed allowed) (hosted : host.Asks allowed) (id : ThreadId)
    (function : FunctionId) (purpose : Option Purpose)
    (asks : ∀ answer, (next answer).Asks allowed) :
    (config.start host id function purpose next).Placed allowed := by
  refine start_induction backed.faulted (fun _ => backed.goto (asks _))
    (fun _ _ _ => backed.goto (asks _)) fun registered _ _ found _ _ => ?_
  have placed : AfterAbort.Placed allowed (.start id registered purpose next) :=
    ⟨backed.admitted found, asks⟩
  exact ⟨fun _ => backed.abort hosted placed id .requested, fun _ _ => backed.afterAbort placed⟩

/-- A thread that goes on. -/
theorem continueThread (backed : config.Backed allowed) (id : ThreadId) (purpose : Purpose)
    (asks : ∀ answer, (next answer).Asks allowed) :
    (config.continueThread host id purpose next).Placed allowed := by
  refine attempt_induction backed.faulted fun thread found => ?_
  have released := backed.setDomain (backed.domain.of_keeps
    (Domain.Keeps.setThread (Domain.thread_eq_ok.1 found)
      (.of_same rfl rfl : thread.Keeps { thread with suspended := false, hook := none })))
  dsimp only
  split
  · exact released.goto (asks _)
  · exact released.launch id purpose asks

/-- A thread that the host resumes. -/
theorem resume (backed : config.Backed allowed) (id : ThreadId)
    (asks : ∀ answer, (next answer).Asks allowed) :
    (config.resume host id next).Placed allowed :=
  resume_induction backed.faulted (fun _ => backed.goto (asks _)) fun _ _ _ _ _ =>
    backed.continueThread id .plain asks

/-- A thread that is woken through its queue. -/
theorem wake (backed : config.Backed allowed) (queue : QueueId) (value : Option Int32)
    (asks : ∀ answer, (next answer).Asks allowed) :
    (config.wake host queue value next).Placed allowed := by
  refine wake_induction backed.faulted (fun _ => backed.goto (asks _))
    (fun _ _ _ _ _ => backed.goto (asks _)) fun head _ domain _ _ _ _ done => ?_
  have left := backed.setDomain (backed.domain.of_updated (.pop done))
  refine ⟨left.faulted, fun _ _ => left.goto (asks _), fun supplied handed => ?_⟩
  have handed := left.setDomain (left.domain.of_updated (Evolves.handResult handed).1)
  exact handed.continueThread head .woken asks

/-- A request that is carried out. -/
theorem perform (backed : config.Backed allowed) (hosted : host.Asks allowed)
    {request : Request ν} (permitted : allowed request)
    (asks : ∀ answer, (next answer).Asks allowed) :
    (config.perform host request next).Placed allowed := by
  cases request with
  | observe => exact backed.goto (asks _)
  | update update =>
    refine attempt_induction backed.faulted fun ⟨world, answer⟩ done => ?_
    refine ⟨⟨?_, backed.pending⟩, asks _⟩
    obtain ⟨function, rfl, registered⟩ | updated := Update.updated_of_apply done
    · dsimp only
      rw [registered]
      exact backed.domain.register permitted
    · exact backed.domain.of_updated updated
  | start id function => exact backed.start hosted id function none asks
  | run id function => exact backed.start hosted id function (some .plain) asks
  | runInt id function => exact backed.start hosted id function (some .result) asks
  | resume id => exact backed.resume id asks
  | abort id =>
    have placed : AfterAbort.Placed allowed (.reply next) := asks
    exact backed.abort hosted placed id .requested
  | faultActive error =>
    have placed : AfterAbort.Placed allowed (.reply next) := asks
    unfold Config.perform
    dsimp only
    split
    · exact backed.goto (asks _)
    · exact backed.abort hosted placed _ _
  | wake queue value => exact backed.wake queue value asks

/-- A frame that is entered: one that runs for the first time does so from its first instruction. -/
theorem enterFrame (backed : config.Backed allowed) (placed : run.Placed allowed) :
    (config.enterFrame host run).Placed allowed := by
  unfold Config.enterFrame
  split
  · exact backed.goto placed
  · rename_i frame frames first
    split
    · rename_i pc saved
      exact backed.goto ⟨placed, (placed.execution frame (by simp [first])).reached pc saved⟩
    · exact (backed.emit _).goto ⟨placed.setStack _, .entry⟩

/-- A native method that is called. -/
theorem callNative (backed : config.Backed allowed) (hosted : host.Asks allowed)
    (placed : run.Placed allowed) {pc : Nat} (reached : registers.function.Reaches pc)
    (call : NativeCall) : (config.callNative host run registers pc call).Placed allowed := by
  unfold Config.callNative
  split
  · exact backed.abortRun placed ..
  · dsimp only
    split
    · refine ⟨⟨(backed.emit _).domain, fun work waiting => ?_⟩, hosted.native _ _⟩
      rcases List.mem_cons.1 waiting with same | earlier
      · subst same
        exact ⟨placed, reached⟩
      · exact (backed.emit _).pending work earlier
    · exact (backed.emit _).faulted _

/-- A native method that answers. -/
theorem returnNative (backed : config.Backed allowed) (hosted : host.Asks allowed)
    (placed : run.Placed allowed) (at' : run.At registers)
    (reached : registers.function.Reaches registers.pc) (call : NativeCall) (value : Int32) :
    (config.returnNative host run registers call value).Placed allowed := by
  refine returnNative_induction fun shown emitted => ?_
  replace backed : shown.Backed allowed := emitted ▸ backed.emit _
  refine ⟨backed.faulted, fun stack thread stored present => ?_⟩
  have sized := storeResult_eq_ok stored
  have placed := placed.setStack stack
  have at' := at'.setStack (Nat.le_of_eq sized.symm)
  refine ⟨fun reason _ => ?_, fun _ _ => ?_, fun _ _ => ?_⟩
  · have honored : Domain.Placed allowed (shown.world.domain.setThread run.thread
        { thread with pendingAbort := none }) :=
      backed.domain.setThread present fun execution held =>
        backed.domain.executions _ thread execution present held
    have stopped : AfterAbort.Placed allowed
        (.stop (run.setStack stack) registers.function call.pc reason) := placed
    exact (backed.setDomain honored).detach hosted stopped _
  · exact (backed.emit _).goto (placed.saveFrame at' reached _)
  · exact backed.goto ⟨placed, reached⟩

/-- A script function that is called. -/
theorem callScript (backed : config.Backed allowed) (placed : run.Placed allowed)
    (at' : run.At registers) {pc : Nat} (reached : registers.function.Reaches pc)
    (result : ResultKind) (callee : FunctionId) (argc : Nat) :
    (config.callScript host run registers pc result callee argc).Placed allowed := by
  have saved := placed.saveFrame at' reached (registers.sp - argc + result.count)
  exact callScript_induction backed.faulted (fun _ => backed.abortRun placed ..)
    fun _ found _ => ⟨fun stack _ _ => backed.abortRun (saved.setStack stack) ..,
      fun _ => backed.goto (saved.enter (backed.admitted found) _ _)⟩

/-- An instruction that is executed. -/
theorem execute (backed : config.Backed allowed) (hosted : host.Asks allowed)
    (placed : run.Placed allowed) (at' : run.At registers)
    (reached : registers.function.Reaches registers.pc) :
    (config.execute host run registers).Placed allowed := by
  obtain ⟨instruction, ready⟩ := at'.fits.ready
  have follow {pc : Nat} (leads : instruction.Leads registers.pc pc) :
      registers.function.Reaches pc := .follow reached ready.listed leads
  have shown : (config.shown host run registers instruction).Backed allowed := backed.emit _
  obtain ⟨same, _⟩ | ⟨thread, _, executed⟩ := execute_cases host config at' ready
  · rw [same]
    exact shown.faulted _
  · generalize config.execute host run registers = after at executed
    cases executed with
    | go sized leads => exact shown.goto ⟨placed.setStack _, follow leads⟩
    | write value present leads =>
      exact ⟨⟨⟨shown.domain.functions, shown.domain.executions⟩, shown.pending⟩, placed,
        follow leads⟩
    | spend leads => exact shown.goto ⟨⟨placed.execution, placed.reply⟩, follow leads⟩
    | loopLimit => exact shown.abortRun placed ..
    | native called height leads => exact shown.callNative hosted placed (follow leads) _
    | script called enough height leads =>
      exact shown.callScript placed at' (follow leads) _ _ _
    | ret sized => exact (shown.emit _).goto (placed.setStack _).leave
    | invalid misses => exact shown.abortRun placed ..

end Backed

variable {host : Host ν σ} {config : Config ν σ}

/-- A step keeps everything placed. -/
theorem Placed.step (hosted : host.Asks allowed) (sound : config.Sound)
    (placed : config.Placed allowed) : (config.step host).Placed allowed := by
  obtain ⟨grounded, fits⟩ := sound
  have backed := placed.toBacked
  have work {focus : Focus ν σ} (found : config.focus = focus) : focus.Placed allowed :=
    found ▸ placed.focus
  have below {waiting : Pending ν σ} {rest : List (Pending ν σ)}
      (waits : config.pending = waiting :: rest) :
      Backed allowed { config with pending := rest } :=
    ⟨backed.domain, fun work later => backed.pending work (waits ▸ List.mem_cons_of_mem _ later)⟩
  refine step_induction {
    rests _ := placed
    enters _ found := backed.enterFrame (work found)
    executes _ _ found := backed.execute hosted (work found).1 ?_ (work found).2
    ends _ _ found := backed.finishRun (work found) _
    asks _ _ found := backed.perform hosted (work found).1 (work found).2
    modifies _ _ found := ⟨backed.congr rfl rfl, work found _⟩
    crashes _ _ := backed.faulted _
    concludes _ _ _ := backed.goto trivial
    answers value run registers call rest _ waits := ?_
    goesOn _ next rest _ waits := ?_ }
  · rw [found] at fits
    exact fits.2
  · obtain ⟨_, at', _⟩ := grounded.pending (.calling run registers call) (by simp [waits])
    obtain ⟨placed, reached⟩ := backed.pending (.calling run registers call) (by simp [waits])
    exact (below waits).returnNative hosted placed at' reached call value
  · exact (below waits).afterAbort (backed.pending (.aborting next) (by simp [waits]))

/-- Every reachable configuration of a host that may register only verified functions is placed. -/
theorem placed_of_reachable (hosted : host.Asks allowed)
    (verified : ∀ request, allowed request → request.RegistersVerified)
    (reached : config.Reachable host allowed) : config.Placed allowed := by
  induction reached with
  | initial state body asks =>
    exact ⟨⟨⟨by simp [initial], by simp [initial, Domain.thread?]⟩, by simp [initial]⟩, asks⟩
  | again reached ended state body asks ih => exact ⟨⟨ih.domain, by simp [initial]⟩, asks⟩
  | step reached ih =>
    exact ih.step hosted (sound_of_reachable (hosted.mono verified) (reached.mono verified))

end Config

end ScriptMachine

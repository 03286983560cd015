import ScriptMachine.Proofs.Activations
import ScriptMachine.Proofs.Links
import ScriptMachine.Proofs.Nesting

/-!
# Verified code is safe

As long as the host registers verified functions only, every frame that may be continued fits its
part of the operand stack, wherever the frame is kept: in a thread, in the run at hand, or in a run
that waits for a native method. This does not depend on what the bodies of the host do and answer.
Runs of such frames never leave an operand stack, never leave the code of a function, and stop for
an instruction that cannot be executed only where the instruction names an entry of a table that is
not there.
-/

namespace ScriptMachine

variable {ν σ : Type}

/-- A request registers no function that is not verified. -/
def Request.RegistersVerified : Request ν → Prop
  | .update (.addFunction function) => function.Verified
  | _ => True

/-- A frame belongs to a verified function, and fits where it is to be continued. -/
def Frame.Sound (frame : Frame ν) (size : Nat) : Prop :=
  frame.function.Verified ∧
    ∀ pc, frame.pc = some pc → frame.function.Fits frame.base pc frame.top size

/-- Every frame is sound over the operand stack. -/
def Execution.Sound (execution : Execution ν) : Prop :=
  ∀ frame ∈ execution.frames, frame.Sound execution.stack.size

/-- The frames of a run are sound, and so is what follows the run. -/
structure Run.Sound (run : Run ν σ) : Prop where
  execution : run.execution.Sound
  reply : ∀ answer, (run.reply answer).Asks Request.RegistersVerified

/-- What follows an abort is sound. -/
def AfterAbort.Sound : AfterAbort ν σ → Prop
  | .reply next => ∀ answer, (next answer).Asks Request.RegistersVerified
  | .start _ function _ next =>
    function.Verified ∧ ∀ answer, (next answer).Asks Request.RegistersVerified
  | .stop run _ _ _ => run.Sound

/-- Work that waits is sound. A native call leaves its result below the height to continue with. -/
def Pending.Sound : Pending ν σ → Prop
  | .calling run registers call =>
    run.Sound ∧ run.At registers ∧ registers.sp = call.base + call.result.count
  | .aborting next => next.Sound

/-- The work at hand is sound. -/
def Focus.Sound : Focus ν σ → Prop
  | .body work => work.Asks Request.RegistersVerified
  | .enter run | .ended run _ => run.Sound
  | .execute run registers => run.Sound ∧ run.At registers
  | .finished _ | .faulted _ => True

/-- Functions are verified, and what threads execute is sound. -/
structure Domain.Sound (domain : Domain ν) : Prop where
  functions : ∀ function ∈ domain.functions, function.Verified
  executions : ∀ id thread execution, domain.thread? id = some thread →
    thread.execution = some execution → execution.Sound

namespace Execution

/-- An execution without frames is sound. -/
theorem sound_of_nil {execution : Execution ν} (nothing : execution.frames = []) :
    execution.Sound := by simp [Sound, nothing]

/-- Frames stay sound over a larger operand stack. -/
theorem Sound.grow {execution : Execution ν} (sound : execution.Sound) {stack : Array Int32}
    (grown : execution.stack.size ≤ stack.size) : Sound { execution with stack } := by
  intro frame listed
  obtain ⟨verified, fits⟩ := sound frame listed
  exact ⟨verified, fun pc saved => (fits pc saved).mono grown⟩

end Execution

namespace Run.Sound

variable {run : Run ν σ}

/-- Frames stay sound over a larger operand stack. -/
theorem setStack (sound : run.Sound) {stack : Array Int32}
    (grown : run.execution.stack.size ≤ stack.size) : (run.setStack stack).Sound :=
  ⟨sound.execution.grow grown, sound.reply⟩

/-- A run without frames is sound. -/
theorem discard (sound : run.Sound) : (run.setFrames []).Sound :=
  ⟨Execution.sound_of_nil rfl, sound.reply⟩

/-- Leaving the innermost frame. -/
theorem leave (sound : run.Sound) : (run.setFrames run.execution.frames.tail).Sound :=
  ⟨fun frame listed => sound.execution frame (List.mem_of_mem_tail listed), sound.reply⟩

/-- Entering a frame of a verified function that has not been run. -/
theorem enter (sound : run.Sound) {function : Function ν} (verified : function.Verified)
    (base top : Nat) :
    (run.setFrames ({ function, base, top } :: run.execution.frames)).Sound := by
  refine ⟨fun frame listed => ?_, sound.reply⟩
  rcases List.mem_cons.1 listed with first | later
  · subst first
    exact ⟨verified, fun pc saved => by cases saved⟩
  · exact sound.execution frame later

/-- The innermost function of a run is verified. -/
theorem verified (sound : run.Sound) {registers : Registers ν} (at' : run.At registers) :
    registers.function.Verified := by
  obtain ⟨frame, frames, first, same, _⟩ := at'.innermost
  rw [← same]
  exact (sound.execution frame (by simp [first])).1

/-- Recording registers that fit. -/
theorem saveFrame (sound : run.Sound) {registers : Registers ν} (at' : run.At registers) :
    (run.saveFrame registers.pc registers.sp).Sound := by
  have verified := sound.verified at'
  obtain ⟨frame, frames, first, function, base⟩ := at'.innermost
  unfold Run.saveFrame
  rw [first]
  refine ⟨fun other listed => ?_, sound.reply⟩
  rcases List.mem_cons.1 listed with same | later
  · subst same
    refine ⟨function ▸ verified, fun pc saved => ?_⟩
    cases saved
    have fits := at'.fits
    rw [← function, ← base] at fits
    exact fits
  · exact sound.execution other (by simp [first, later])

end Run.Sound

/-- An operand stack of the same size serves an activation as well. -/
theorem Run.At.setStack {run : Run ν σ} {registers : Registers ν} (at' : run.At registers)
    {stack : Array Int32} (grown : run.execution.stack.size ≤ stack.size) :
    (run.setStack stack).At registers := ⟨at'.innermost, at'.fits.mono grown⟩

namespace Domain.Sound

variable {domain next : Domain ν}

/-- Threads that keep what they execute stay sound: a result is written inside the operand stack. -/
theorem of_keeps (sound : domain.Sound) (keeps : domain.Keeps next) : next.Sound where
  functions := by
    rw [keeps.functions]
    exact sound.functions
  executions id after execution there held := by
    rcases keeps.new id after there with ⟨before, present, kept⟩ | ⟨_, fresh⟩
    · rcases kept.execution with same | ⟨old, frame, frames, value, known, _, _, written⟩
      · exact sound.executions id before execution present (same.symm.trans held)
      · rw [written] at held
        cases held
        exact (sound.executions id before old present known).grow (by simp)
    · rw [fresh.1] at held
      cases held
      exact Execution.sound_of_nil rfl

/-- An update that registers no function keeps a domain sound. -/
theorem of_updated (sound : domain.Sound) (update : domain.Updated next) : next.Sound := by
  rcases Domain.Keeps.of_updated update with keeps | cleared
  · exact sound.of_keeps keeps
  · unfold Domain.clear at cleared
    split at cleared <;> cases cleared
    constructor <;> simp [Domain.thread?]

/-- Registering a verified function. -/
theorem register (sound : domain.Sound) {function : Function ν} (verified : function.Verified) :
    Domain.Sound { domain with functions := domain.functions.push function } where
  functions other listed := by
    rcases Array.mem_push.1 listed with earlier | same
    · exact sound.functions other earlier
    · exact same ▸ verified
  executions := sound.executions

/-- Replacing a thread by one that executes something sound. -/
theorem setThread (sound : domain.Sound) {id : ThreadId} {before after : Thread ν}
    (present : domain.thread? id = some before)
    (executes : ∀ execution, after.execution = some execution → execution.Sound) :
    (domain.setThread id after).Sound where
  functions := sound.functions
  executions other thread execution there held := by
    rw [thread?_setThread present] at there
    split at there
    · cases there
      exact executes execution held
    · exact sound.executions other thread execution there held

/-- Discarding frames. -/
theorem discard (sound : domain.Sound) {id : ThreadId} {reason : AbortReason}
    (done : domain.discard id reason = .ok next) : next.Sound := by
  obtain ⟨thread, present, ⟨execution, held, rfl⟩ | ⟨taken, rfl⟩⟩ := discard_eq_ok done
  · refine sound.setThread present fun after held => ?_
    cases held
    exact Execution.sound_of_nil rfl
  · exact sound.setThread present fun after held => sound.executions id thread after present held

end Domain.Sound

@[simp] theorem size_clearRange (stack : Array Int32) (start count : Nat) :
    (clearRange stack start count).size = stack.size := by
  induction count generalizing stack start with
  | zero => rfl
  | succ count ih =>
    rw [clearRange, ih]
    simp

/-- Preparing the operand stack makes room for the whole activation. -/
theorem Frame.size_prepareStack (frame : Frame ν) (stack : Array Int32) :
    (frame.prepareStack stack).size = max stack.size (frame.base + frame.function.stackSlots) := by
  simp only [prepareStack, size_clearRange, Array.size_append, Array.size_replicate]
  omega

/-- Storing a result keeps the size of the operand stack. -/
theorem Config.storeResult_eq_ok {stack stored : Array Int32} {result : ResultKind} {base : Nat}
    {value : Int32} (done : storeResult stack result base value = .ok stored) :
    stored.size = stack.size := by
  cases result with
  | void =>
    cases done
    rfl
  | int =>
    simp only [storeResult] at done
    split at done <;> cases done
    simp

namespace Config

/-- The domain and the work that waits are sound. -/
structure Grounded (config : Config ν σ) : Prop where
  domain : config.world.domain.Sound
  pending : ∀ work ∈ config.pending, work.Sound

/-- Everything in a configuration is sound. -/
structure Sound (config : Config ν σ) : Prop extends Grounded config where
  focus : config.focus.Sound

namespace Grounded

variable {host : Host ν σ} {config other : Config ν σ} {run : Run ν σ}
  {registers : Registers ν} {next : Answer ν → Body ν σ}

/-- Only the domain and the work that waits matter. -/
theorem congr (grounded : config.Grounded) (domain : other.world.domain = config.world.domain)
    (pending : other.pending = config.pending) : other.Grounded where
  domain := by
    rw [domain]
    exact grounded.domain
  pending := by
    rw [pending]
    exact grounded.pending

/-- The domain is replaced by a sound one. -/
theorem setDomain {domain : Domain ν} (grounded : config.Grounded) (sound : domain.Sound) :
    (config.setDomain domain).Grounded := ⟨sound, grounded.pending⟩

/-- Going on with sound work. -/
theorem goto (grounded : config.Grounded) {focus : Focus ν σ} (sound : focus.Sound) :
    (config.goto focus).Sound := ⟨grounded.congr rfl rfl, sound⟩

/-- Stopping for a misuse. -/
theorem faulted (grounded : config.Grounded) (fault : Fault) :
    (config.goto (.faulted fault)).Sound := grounded.goto trivial

/-- The trace sink changes nothing that matters. -/
theorem emit (grounded : config.Grounded) (event : Event ν) :
    (config.emit host event).Grounded := grounded.congr (by simp) (by simp)

/-- A thread that begins to run. -/
theorem launch (grounded : config.Grounded) (id : ThreadId) (purpose : Purpose)
    (asks : ∀ answer, (next answer).Asks Request.RegistersVerified) :
    (config.launch host id purpose next).Sound := by
  refine attempt_induction grounded.faulted fun thread found => ?_
  have present := Domain.thread_eq_ok.1 found
  split
  · exact grounded.goto (asks _)
  · rename_i execution held
    have sound := grounded.domain.executions id thread execution present held
    have took : Domain.Sound (config.world.domain.setThread id { thread with execution := none }) :=
      grounded.domain.setThread present (by simp)
    have activated : Domain.Sound { config.world.domain.setThread id
        { thread with execution := none } with active := some id } :=
      ⟨took.functions, took.executions⟩
    refine goto ((grounded.setDomain activated).congr ?_ ?_) ⟨sound, asks⟩
    · split <;> simp
    · split <;> simp

/-- A run that ends. -/
theorem finishRun (grounded : config.Grounded) (sound : run.Sound) (outcome : Outcome) :
    (config.finishRun host run outcome).Sound := by
  refine attempt_induction grounded.faulted fun thread found => ?_
  have gave : Domain.Sound (config.world.domain.setThread run.thread
      { thread with execution := some run.execution, pendingAbort := none }) :=
    grounded.domain.setThread (Domain.thread_eq_ok.1 found) fun _ held => by
      cases held
      exact sound.execution
  have left : Grounded (config.setDomain { config.world.domain.setThread run.thread
      { thread with execution := some run.execution, pendingAbort := none } with
        active := run.previous }) := ⟨⟨gave.functions, gave.executions⟩, grounded.pending⟩
  exact ⟨(left.emit (.runEnd run.thread outcome)).congr rfl rfl, sound.reply _⟩

/-- A run that is aborted. -/
theorem abortRun (grounded : config.Grounded) (sound : run.Sound) (function : Function ν)
    (pc : Nat) (reason : AbortReason) :
    (config.abortRun host run function pc reason).Sound :=
  ⟨grounded.congr rfl rfl, sound.discard⟩

/-- What follows an abort. -/
theorem afterAbort (grounded : config.Grounded) {next : AfterAbort ν σ} (sound : next.Sound) :
    (config.afterAbort host next).Sound := by
  cases next with
  | reply next => exact grounded.goto (sound _)
  | stop run function pc reason => exact grounded.abortRun sound function pc reason
  | start id function purpose next =>
    refine attempt_induction grounded.faulted fun thread found => ?_
    have present := Domain.thread_eq_ok.1 found
    split
    · exact grounded.goto (sound.2 _)
    · rename_i execution held
      have earlier := grounded.domain.executions id thread execution present held
      let frames : List (Frame ν) := { function, base := 0, top := 0 } :: execution.frames
      have fresh : Execution.Sound { execution with frames } := by
        intro frame listed
        rcases List.mem_cons.1 listed with first | later
        · subst first
          exact ⟨sound.1, fun pc saved => by cases saved⟩
        · exact earlier frame later
      have pushed : Grounded (config.setDomain (config.world.domain.setThread id
          { thread with execution := some { execution with frames } })) :=
        grounded.setDomain (grounded.domain.setThread present fun _ held => by
          cases held
          exact fresh)
      cases purpose with
      | none => exact pushed.goto (sound.2 _)
      | some purpose => exact pushed.launch id purpose sound.2

/-- A thread that is detached. -/
theorem detach (grounded : config.Grounded) (hosted : host.Asks Request.RegistersVerified)
    {next : AfterAbort ν σ} (sound : next.Sound) (id : ThreadId) :
    (config.detach host id next).Sound := by
  refine attempt_induction grounded.faulted fun ⟨domain, hook⟩ done => ?_
  have detached := grounded.setDomain (grounded.domain.of_keeps (.detach done))
  dsimp only
  split
  · exact detached.afterAbort sound
  · refine afterAbort (detached.congr ?_ ?_) sound
    · rfl
    · rfl
  · refine ⟨⟨detached.domain, fun work waiting => ?_⟩, hosted.onAbort _ id⟩
    rcases List.mem_cons.1 waiting with same | earlier
    · subst same
      exact sound
    · exact grounded.pending work earlier

/-- A thread that is aborted. -/
theorem abort (grounded : config.Grounded) (hosted : host.Asks Request.RegistersVerified)
    {next : AfterAbort ν σ} (sound : next.Sound) (id : ThreadId) (reason : AbortReason) :
    (config.abort host id reason next).Sound :=
  attempt_induction grounded.faulted fun _ done =>
    (grounded.setDomain (grounded.domain.discard done)).detach hosted sound id

/-- A registered function is verified. -/
theorem verified (grounded : config.Grounded) {id : FunctionId} {function : Function ν}
    (found : config.world.domain.function? id = some function) : function.Verified :=
  grounded.domain.functions function (Array.mem_of_getElem? found)

/-- A thread that is given a fresh frame. -/
theorem start (grounded : config.Grounded) (hosted : host.Asks Request.RegistersVerified)
    (id : ThreadId) (function : FunctionId) (purpose : Option Purpose)
    (asks : ∀ answer, (next answer).Asks Request.RegistersVerified) :
    (config.start host id function purpose next).Sound := by
  refine start_induction grounded.faulted (fun _ => grounded.goto (asks _))
    (fun _ _ _ => grounded.goto (asks _)) fun registered _ _ found _ _ => ?_
  have sound : AfterAbort.Sound (.start id registered purpose next) :=
    ⟨grounded.verified found, asks⟩
  exact ⟨fun _ => grounded.abort hosted sound id .requested, fun _ _ => grounded.afterAbort sound⟩

/-- A thread that goes on. -/
theorem continueThread (grounded : config.Grounded) (id : ThreadId) (purpose : Purpose)
    (asks : ∀ answer, (next answer).Asks Request.RegistersVerified) :
    (config.continueThread host id purpose next).Sound := by
  refine attempt_induction grounded.faulted fun thread found => ?_
  have released := grounded.setDomain (grounded.domain.of_keeps
    (Domain.Keeps.setThread (Domain.thread_eq_ok.1 found)
      (.of_same rfl rfl : thread.Keeps { thread with suspended := false, hook := none })))
  dsimp only
  split
  · exact released.goto (asks _)
  · exact released.launch id purpose asks

/-- A thread that the host resumes. -/
theorem resume (grounded : config.Grounded) (id : ThreadId)
    (asks : ∀ answer, (next answer).Asks Request.RegistersVerified) :
    (config.resume host id next).Sound :=
  resume_induction grounded.faulted (fun _ => grounded.goto (asks _)) fun _ _ _ _ _ =>
    grounded.continueThread id .plain asks

/-- A thread that is woken through its queue. -/
theorem wake (grounded : config.Grounded) (queue : QueueId) (value : Option Int32)
    (asks : ∀ answer, (next answer).Asks Request.RegistersVerified) :
    (config.wake host queue value next).Sound := by
  refine wake_induction grounded.faulted (fun _ => grounded.goto (asks _))
    (fun _ _ _ _ _ => grounded.goto (asks _)) fun head _ domain _ _ _ _ done => ?_
  have left := grounded.setDomain (grounded.domain.of_updated (.pop done))
  refine ⟨left.faulted, fun _ _ => left.goto (asks _), fun supplied handed => ?_⟩
  have handed := left.setDomain (left.domain.of_updated (Evolves.handResult handed).1)
  exact handed.continueThread head .woken asks

/-- A request that is carried out. -/
theorem perform (grounded : config.Grounded) (hosted : host.Asks Request.RegistersVerified)
    {request : Request ν} (registers : request.RegistersVerified)
    (asks : ∀ answer, (next answer).Asks Request.RegistersVerified) :
    (config.perform host request next).Sound := by
  cases request with
  | observe => exact grounded.goto (asks _)
  | update update =>
    refine attempt_induction grounded.faulted fun ⟨world, answer⟩ done => ?_
    refine ⟨⟨?_, grounded.pending⟩, asks _⟩
    obtain ⟨function, rfl, registered⟩ | updated := Update.updated_of_apply done
    · dsimp only
      rw [registered]
      exact grounded.domain.register registers
    · exact grounded.domain.of_updated updated
  | start id function => exact grounded.start hosted id function none asks
  | run id function => exact grounded.start hosted id function (some .plain) asks
  | runInt id function => exact grounded.start hosted id function (some .result) asks
  | resume id => exact grounded.resume id asks
  | abort id => exact @abort _ _ _ _ grounded hosted (.reply next) asks id .requested
  | faultActive error =>
    unfold Config.perform
    dsimp only
    split
    · exact grounded.goto (asks _)
    · exact @abort _ _ _ _ grounded hosted (.reply next) asks _ _
  | wake queue value => exact grounded.wake queue value asks

/-- A frame that is entered: one that runs for the first time is given room. -/
theorem enterFrame (grounded : config.Grounded) (sound : run.Sound) :
    (config.enterFrame host run).Sound := by
  unfold Config.enterFrame
  split
  · exact grounded.goto sound
  · rename_i frame frames first
    obtain ⟨verified, fits⟩ := sound.execution frame (by simp [first])
    split
    · rename_i pc saved
      exact grounded.goto ⟨sound, ⟨frame, frames, first, rfl, rfl⟩, fits pc saved⟩
    · have size := frame.size_prepareStack run.execution.stack
      have grown : run.execution.stack.size ≤ (frame.prepareStack run.execution.stack).size := by
        omega
      refine (grounded.emit _).goto ⟨sound.setStack grown, ⟨frame, frames, first, rfl, rfl⟩, ?_⟩
      refine .start verified ?_
      change frame.base + frame.function.stackSlots ≤ (frame.prepareStack run.execution.stack).size
      omega

/-- A frame that is left. -/
theorem leaveFrame (grounded : config.Grounded) (sound : run.Sound) (function : Function ν)
    {stack : Array Int32} (sized : stack.size = run.execution.stack.size) :
    (config.leaveFrame host run function stack).Sound :=
  (grounded.emit _).goto (sound.setStack (Nat.le_of_eq sized.symm)).leave

/-- A native method that is called. -/
theorem callNative (grounded : config.Grounded) (hosted : host.Asks Request.RegistersVerified)
    (sound : run.Sound) (next : Nat) (call : NativeCall)
    (continues : run.At (registers.move next (call.base + call.result.count))) :
    (config.callNative host run registers next call).Sound := by
  unfold Config.callNative
  split
  · exact grounded.abortRun sound ..
  · dsimp only
    split
    · refine ⟨⟨(grounded.emit _).domain, fun work waiting => ?_⟩, hosted.native _ _⟩
      rcases List.mem_cons.1 waiting with same | earlier
      · subst same
        exact ⟨sound, continues, rfl⟩
      · exact (grounded.emit _).pending work earlier
    · exact (grounded.emit _).faulted _

/-- A native method that answers. -/
theorem returnNative (grounded : config.Grounded) (hosted : host.Asks Request.RegistersVerified)
    (sound : run.Sound) (at' : run.At registers) (call : NativeCall) (value : Int32) :
    (config.returnNative host run registers call value).Sound := by
  refine returnNative_induction fun shown emitted => ?_
  replace grounded : shown.Grounded := emitted ▸ grounded.emit _
  refine ⟨grounded.faulted, fun stack thread stored present => ?_⟩
  have sized := storeResult_eq_ok stored
  have sound := sound.setStack (Nat.le_of_eq sized.symm)
  have at' := at'.setStack (Nat.le_of_eq sized.symm)
  refine ⟨fun reason _ => ?_, fun _ _ => ?_, fun _ _ => ?_⟩
  · have honored : Domain.Sound (shown.world.domain.setThread run.thread
        { thread with pendingAbort := none }) :=
      grounded.domain.setThread present fun execution held =>
        grounded.domain.executions _ thread execution present held
    exact @detach _ _ _ _ (grounded.setDomain honored) hosted (.stop (run.setStack stack) _ _ _)
      sound _
  · exact (grounded.emit _).goto (sound.saveFrame at')
  · exact grounded.goto ⟨sound, at'⟩

/-- A script function that is called. -/
theorem callScript (grounded : config.Grounded) (sound : run.Sound) (next : Nat)
    (result : ResultKind) (callee : FunctionId) (argc : Nat)
    (continues : run.At (registers.move next (registers.sp - argc + result.count))) :
    (config.callScript host run registers next result callee argc).Sound := by
  have saved := sound.saveFrame continues
  refine callScript_induction grounded.faulted (fun _ => grounded.abortRun sound ..)
    fun function found _ => ⟨fun stack _ stored => ?_, fun _ => ?_⟩
  · rw [← run.stack_saveFrame next (registers.sp - argc + result.count)] at stored
    have sized := storeResult_eq_ok stored
    exact grounded.abortRun (saved.setStack (Nat.le_of_eq sized.symm)) ..
  · exact grounded.goto (saved.enter (grounded.verified found) _ _)

/-- An instruction that is executed. -/
theorem execute (grounded : config.Grounded) (hosted : host.Asks Request.RegistersVerified)
    (sound : run.Sound) (at' : run.At registers) :
    (config.execute host run registers).Sound := by
  obtain ⟨instruction, ready⟩ := at'.fits.ready
  have shown : (config.shown host run registers instruction).Grounded := grounded.emit _
  obtain ⟨same, _⟩ | ⟨thread, _, executed⟩ := execute_cases host config at' ready
  · rw [same]
    exact shown.faulted _
  · generalize config.execute host run registers = after at executed
    cases executed with
    | go sized leads =>
      have grown := Nat.le_of_eq sized.symm
      exact shown.goto ⟨sound.setStack grown, (at'.move ready leads).setStack grown⟩
    | write value present leads =>
      refine ⟨⟨?_, shown.pending⟩, sound, at'.move ready leads⟩
      exact ⟨shown.domain.functions, shown.domain.executions⟩
    | spend leads =>
      exact shown.goto ⟨⟨sound.execution, sound.reply⟩, at'.innermost, (at'.move ready leads).fits⟩
    | loopLimit => exact shown.abortRun sound ..
    | native called height leads =>
      refine shown.callNative hosted sound _ _ ?_
      rw [height]
      exact at'.move ready leads
    | script called enough height leads =>
      refine shown.callScript sound _ _ _ _ ?_
      rw [height]
      exact at'.move ready leads
    | ret sized => exact shown.leaveFrame sound _ sized
    | invalid misses => exact shown.abortRun sound ..

end Grounded

/-- A step keeps a configuration sound. -/
theorem Sound.step {host : Host ν σ} (hosted : host.Asks Request.RegistersVerified)
    {config : Config ν σ} (sound : config.Sound) : (config.step host).Sound := by
  have grounded := sound.toGrounded
  have work {focus : Focus ν σ} (found : config.focus = focus) : focus.Sound :=
    found ▸ sound.focus
  have below {waiting : Pending ν σ} {rest : List (Pending ν σ)}
      (waits : config.pending = waiting :: rest) : Grounded { config with pending := rest } :=
    ⟨grounded.domain, fun work later =>
      grounded.pending work (waits ▸ List.mem_cons_of_mem _ later)⟩
  refine step_induction {
    rests _ := sound
    enters _ found := grounded.enterFrame (work found)
    executes _ _ found := grounded.execute hosted (work found).1 (work found).2
    ends _ _ found := grounded.finishRun (work found) _
    asks _ _ found := grounded.perform hosted (work found).1 (work found).2
    modifies _ _ found := ⟨grounded.congr rfl rfl, work found _⟩
    crashes _ _ := grounded.faulted _
    concludes _ _ _ := grounded.goto trivial
    answers value run registers call rest _ waits := ?_
    goesOn _ next rest _ waits := ?_ }
  · obtain ⟨sound, at', _⟩ := grounded.pending (.calling run registers call) (by simp [waits])
    exact (below waits).returnNative hosted sound at' call value
  · exact (below waits).afterAbort (grounded.pending (.aborting next) (by simp [waits]))

/-- Every reachable configuration of a host that registers verified functions only is sound. -/
theorem sound_of_reachable {host : Host ν σ} (hosted : host.Asks Request.RegistersVerified)
    {config : Config ν σ} (reached : config.Reachable host Request.RegistersVerified) :
    config.Sound := by
  induction reached with
  | initial state body asks =>
    exact ⟨⟨⟨by simp [initial], by simp [initial, Domain.thread?]⟩, by simp [initial]⟩, asks⟩
  | again reached ended state body asks ih => exact ⟨⟨ih.domain, by simp [initial]⟩, asks⟩
  | step reached ih => exact ih.step hosted

end Config

end ScriptMachine

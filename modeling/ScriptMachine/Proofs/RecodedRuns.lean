import ScriptMachine.Proofs.Indifference
import ScriptMachine.Proofs.Repeatability

/-!
# Runs of recoded functions

Two machines whose worlds, runs and waiting work differ only in encodings make every step alike.
They execute instructions that tally, call the same native methods with the same arguments, and
start and end runs, hooks and callbacks together. After any number of steps they still differ only
in encodings.
-/

namespace ScriptMachine

variable {ν σ α β : Type}

/-! ## Work -/

/-- A run is recoded with its frames. Whoever started it goes on alike with its outcome. -/
inductive Run.Recoded (related : σ → σ → Prop) (run : Run ν σ) : Run ν σ → Prop where
  | mk {execution : Execution ν} {reply : Answer ν → Body ν σ}
    (same : run.execution.Recoded execution) (replies : Body.Replies related run.reply reply) :
    Recoded related run { run with execution, reply }

/-- The registers of a frame and of the recoded frame. -/
structure Registers.Recoded (registers registers' : Registers ν) : Prop where
  function : registers.function.Recoded registers'.function
  base : registers'.base = registers.base
  sp : registers'.sp = registers.sp
  pc : Code.Parallel registers.function.code registers'.function.code registers.pc registers'.pc

/-- The registers are those of the innermost frame. -/
def Run.Holds (run : Run ν σ) (registers : Registers ν) : Prop :=
  ∀ frame outer, run.execution.frames = frame :: outer → registers.function = frame.function

/-- Two runs execute the same instruction, but for its encoding. -/
structure Run.Executes (related : σ → σ → Prop) (run run' : Run ν σ)
    (registers registers' : Registers ν) : Prop where
  recoded : run.Recoded related run'
  same : registers.Recoded registers'
  holds : run.Holds registers
  holds' : run'.Holds registers'

/-- A native call is recoded if it stands at another offset. -/
inductive NativeCall.Recoded (call : NativeCall) : NativeCall → Prop where
  | mk (pc : Nat) : Recoded call { call with pc }

/-- The same follows an abort in two machines. -/
inductive AfterAbort.Recoded (related : σ → σ → Prop) :
    AfterAbort ν σ → AfterAbort ν σ → Prop where
  | reply {next next' : Answer ν → Body ν σ} (replies : Body.Replies related next next') :
    Recoded related (.reply next) (.reply next')
  | start (thread : ThreadId) {function function' : Function ν}
    (recoded : function.Recoded function') (launch : Option Purpose)
    {next next' : Answer ν → Body ν σ} (replies : Body.Replies related next next') :
    Recoded related (.start thread function launch next) (.start thread function' launch next')
  | stop {run run' : Run ν σ} (recoded : run.Recoded related run')
    {function function' : Function ν} (same : function.Recoded function') (pc pc' : Nat)
    (reason : AbortReason) :
    Recoded related (.stop run function pc reason) (.stop run' function' pc' reason)

/-- The same work waits in two machines. -/
inductive Pending.Recoded (related : σ → σ → Prop) : Pending ν σ → Pending ν σ → Prop where
  | calling {run run' : Run ν σ} {registers registers' : Registers ν}
    (executes : Run.Executes related run run' registers registers') {call call' : NativeCall}
    (calls : call.Recoded call') :
    Recoded related (.calling run registers call) (.calling run' registers' call')
  | aborting {next next' : AfterAbort ν σ} (recoded : next.Recoded related next') :
    Recoded related (.aborting next) (.aborting next')

/-- The same work is at hand in two machines. -/
inductive Focus.Recoded (related : σ → σ → Prop) : Focus ν σ → Focus ν σ → Prop where
  | body {body body' : Body ν σ} (alike : Program.Recoded related body body') :
    Recoded related (.body body) (.body body')
  | enter {run run' : Run ν σ} (recoded : run.Recoded related run') :
    Recoded related (.enter run) (.enter run')
  | execute {run run' : Run ν σ} {registers registers' : Registers ν}
    (executes : Run.Executes related run run' registers registers') :
    Recoded related (.execute run registers) (.execute run' registers')
  | ended {run run' : Run ν σ} (recoded : run.Recoded related run') {outcome outcome' : Outcome}
    (alike : outcome.Recoded outcome') :
    Recoded related (.ended run outcome) (.ended run' outcome')
  | finished (value : Int32) : Recoded related (.finished value) (.finished value)
  | faulted (fault : Fault) : Recoded related (.faulted fault) (.faulted fault)

/-- The operand stack is prepared alike for a frame that runs for the first time. -/
theorem Frame.Recoded.prepareStack_eq {frame frame' : Frame ν} (recoded : frame.Recoded frame')
    (stack : Array Int32) : frame'.prepareStack stack = frame.prepareStack stack := by
  simp only [Frame.prepareStack, recoded.base, recoded.function.stackSlots,
    recoded.function.params_eq, recoded.function.locals_eq]

namespace Run.Recoded

variable {related : σ → σ → Prop} {run run' : Run ν σ}

theorem thread_eq (recoded : run.Recoded related run') : run'.thread = run.thread := by
  cases recoded
  rfl

theorem stack_eq (recoded : run.Recoded related run') :
    run'.execution.stack = run.execution.stack := by
  obtain ⟨same, _⟩ := recoded
  exact same.stack

theorem frames (recoded : run.Recoded related run') :
    List.Forall₂ Frame.Recoded run.execution.frames run'.execution.frames := by
  obtain ⟨same, _⟩ := recoded
  exact same.frames

/-- The operand stack is replaced. -/
theorem setStack (recoded : run.Recoded related run') (stack : Array Int32) :
    (run.setStack stack).Recoded related (run'.setStack stack) := by
  obtain ⟨same, replies⟩ := recoded
  exact @mk _ _ related (run.setStack stack) _ _ ⟨same.frames, rfl⟩ replies

/-- The frames are replaced. -/
theorem setFrames (recoded : run.Recoded related run') {frames frames' : List (Frame ν)}
    (all : List.Forall₂ Frame.Recoded frames frames') :
    (run.setFrames frames).Recoded related (run'.setFrames frames') := by
  obtain ⟨same, replies⟩ := recoded
  exact @mk _ _ related (run.setFrames frames) _ _ ⟨all, same.stack⟩ replies

/-- The budget is replaced. -/
theorem setBudget (recoded : run.Recoded related run') (budget : Nat) :
    Run.Recoded related { run with budget } { run' with budget } := by
  obtain ⟨same, replies⟩ := recoded
  exact @mk _ _ related { run with budget } _ _ same replies

end Run.Recoded

namespace Run.Executes

variable {related : σ → σ → Prop} {run run' : Run ν σ} {registers registers' : Registers ν}

/-- The operand stack is replaced. -/
theorem setStack (executes : Executes related run run' registers registers')
    (stack : Array Int32) :
    Executes related (run.setStack stack) (run'.setStack stack) registers registers' :=
  ⟨executes.recoded.setStack stack, executes.same, executes.holds, executes.holds'⟩

/-- The budget is replaced. -/
theorem setBudget (executes : Executes related run run' registers registers') (budget : Nat) :
    Executes related { run with budget } { run' with budget } registers registers' :=
  ⟨executes.recoded.setBudget budget, executes.same, executes.holds, executes.holds'⟩

/-- Both runs go on at parallel offsets, with the same height. -/
theorem goOn (executes : Executes related run run' registers registers') {pc pc' : Nat}
    (parallel : Code.Parallel registers.function.code registers'.function.code pc pc') (sp : Nat) :
    Executes related run run' ⟨registers.function, registers.base, pc, sp⟩
      ⟨registers'.function, registers.base, pc', sp⟩ :=
  ⟨executes.recoded, ⟨executes.same.function, rfl, rfl, parallel⟩, executes.holds,
    executes.holds'⟩

/-- Both runs record where to continue. -/
theorem saveFrame (executes : Executes related run run' registers registers') {pc pc' : Nat}
    (parallel : Code.Parallel registers.function.code registers'.function.code pc pc') (top : Nat) :
    (run.saveFrame pc top).Recoded related (run'.saveFrame pc' top) := by
  have frames := executes.recoded.frames
  have holds := executes.holds
  have holds' := executes.holds'
  unfold Run.Holds at holds holds'
  unfold Run.saveFrame
  generalize run.execution.frames = listed at frames holds ⊢
  generalize run'.execution.frames = listed' at frames holds' ⊢
  cases frames with
  | nil => exact executes.recoded
  | @cons frame frame' outer outer' first rest =>
    refine executes.recoded.setFrames (.cons ⟨first.function, first.base, rfl, .some ?_⟩ rest)
    rw [← holds frame outer rfl, ← holds' frame' outer' rfl]
    exact parallel

end Run.Executes

/-- A woken thread is handed a result, if one is given. -/
theorem Domain.Recoded.handResult {domain domain' : Domain ν} (recoded : domain.Recoded domain')
    (id : ThreadId) (value : Option Int32) :
    Concurs (Concurs Domain.Recoded) (Config.handResult domain id value)
      (Config.handResult domain' id value) := by
  cases value with
  | none => exact .ok (.ok recoded)
  | some value =>
    refine .bind (recoded.supplyResult id value) fun _ _ concurs => ?_
    cases concurs with
    | ok same => exact .ok (.ok same)
    | error error =>
      cases error with
      | notStarted | noPendingResult => exact .ok (.ok recoded)
      | _ => exact .ok (.error _)

/-! ## Machines -/

namespace Config

/-- Two machines act on the same, but for encodings, and the same work waits in both. -/
structure Alongside (related : σ → σ → Prop) (config config' : Config ν σ) : Prop where
  world : config.world.Recoded config'.world
  state : related config.state config'.state
  pending : List.Forall₂ (Pending.Recoded related) config.pending config'.pending

/-- Two machines are the same, but for encodings. -/
structure Recoded (related : σ → σ → Prop) (config config' : Config ν σ) : Prop
    extends Alongside related config config' where
  focus : config.focus.Recoded related config'.focus

variable {related : σ → σ → Prop} {host : Host ν σ} {config config' : Config ν σ}
  {run run' : Run ν σ} {registers registers' : Registers ν}

namespace Alongside

/-- Both machines go on with the same work. -/
theorem goto (along : Alongside related config config') {focus focus' : Focus ν σ}
    (recoded : focus.Recoded related focus') :
    Recoded related (config.goto focus) (config'.goto focus') :=
  ⟨⟨along.world, along.state, along.pending⟩, recoded⟩

/-- Both machines go on with a body that is given the same answer. -/
theorem answer (along : Alongside related config config') {next next' : Answer ν → Body ν σ}
    (replies : Body.Replies related next next') {answer answer' : Answer ν}
    (alike : answer.Recoded answer') :
    Recoded related (config.goto (.body (next answer))) (config'.goto (.body (next' answer'))) :=
  along.goto (.body (replies _ _ alike))

/-- The domains are changed. -/
theorem setDomain (along : Alongside related config config') {domain domain' : Domain ν}
    (same : domain.Recoded domain') :
    Alongside related (config.setDomain domain) (config'.setDomain domain') :=
  ⟨along.world.setDomain same, along.state, along.pending⟩

/-- The worlds are changed. -/
theorem setWorld (along : Alongside related config config') {world world' : World ν}
    (same : world.Recoded world') :
    Alongside related { config with world } { config' with world := world' } :=
  ⟨same, along.state, along.pending⟩

/-- Both trace sinks are shown an event. -/
theorem emit (indifferent : host.Indifferent related) (along : Alongside related config config')
    {event event' : Event ν} (recoded : event.Recoded event') :
    Alongside related (config.emit host event) (config'.emit host event') := by
  have kind := recoded.kind_eq
  unfold Config.emit
  rw [along.world.domain.sink_eq, kind]
  split
  · split
    · exact ⟨along.world, indifferent.onEvent _ _ _ _ _ recoded along.state, along.pending⟩
    · exact along
  · exact along

/-- Both machines go on with results that concur. -/
theorem attempt (along : Alongside related config config') {correspond : α → β → Prop}
    {result : Except Fault α} {result' : Except Fault β} {next : α → Config ν σ}
    {next' : β → Config ν σ} (concurs : Concurs correspond result result')
    (goes : ∀ value value', correspond value value' → Recoded related (next value) (next' value')) :
    Recoded related (config.attempt result next) (config'.attempt result' next') := by
  cases concurs with
  | error fault => exact along.goto (.faulted fault)
  | ok same => exact goes _ _ same

/-- Both machines go on with the same result. -/
theorem attempt_same (along : Alongside related config config') (result : Except Fault α)
    {next next' : α → Config ν σ}
    (goes : ∀ value, Recoded related (next value) (next' value)) :
    Recoded related (config.attempt result next) (config'.attempt result next') := by
  cases result with
  | error fault => exact along.goto (.faulted fault)
  | ok value => exact goes value

/-! ## Requests -/

variable {next next' : Answer ν → Body ν σ}

/-- A thread begins to run. -/
theorem launch (indifferent : host.Indifferent related)
    (along : Alongside related config config') (id : ThreadId) (purpose : Purpose)
    (replies : Body.Replies related next next') :
    Recoded related (config.launch host id purpose next)
      (config'.launch host id purpose next') := by
  refine along.attempt (along.world.domain.thread_concurs id) ?_
  rintro thread _ ⟨same⟩
  dsimp only
  generalize thread.execution = held at same ⊢
  cases same with
  | none => exact along.answer replies (.same _)
  | @some execution execution' same =>
    have domain := along.world.domain
    have taken := domain.setThread id { thread with execution := none } .none
    have launched := along.setDomain (taken.setActive (some id))
    dsimp only
    rw [domain.active_eq, domain.limits_eq]
    have started : Run.Recoded related
        { thread := id, previous := config.world.domain.active, execution, purpose
          budget := config.world.domain.limits.loopBudget, reply := next }
        { thread := id, previous := config.world.domain.active, execution := execution', purpose
          budget := config.world.domain.limits.loopBudget, reply := next' } :=
      @Run.Recoded.mk _ _ related { .. } _ _ same replies
    obtain ⟨frames, stack⟩ := execution
    obtain ⟨frames', stack'⟩ := execution'
    obtain ⟨all, rfl⟩ := same
    cases all with
    | nil => exact launched.goto (.enter started)
    | @cons frame frame' outer outer' first rest =>
      dsimp only
      rw [List.length_cons, List.length_cons, ← rest.length_eq]
      exact (launched.emit indifferent (.runStart id first.function _)).goto (.enter started)

/-- A run ends. -/
theorem finishRun (indifferent : host.Indifferent related)
    (along : Alongside related config config') (recoded : run.Recoded related run')
    {outcome outcome' : Outcome} (alike : outcome.Recoded outcome') :
    Recoded related (config.finishRun host run outcome) (config'.finishRun host run' outcome') := by
  obtain ⟨same, replies⟩ := recoded
  have domain := along.world.domain
  refine along.attempt (domain.thread_concurs run.thread) ?_
  rintro thread _ ⟨_⟩
  have returned := domain.setThread run.thread { thread with
    execution := some run.execution, pendingAbort := none } (.some same)
  have ended := (along.setDomain (returned.setActive run.previous)).emit indifferent
    (.runEnd run.thread alike)
  have answers := run.purpose.answer_recoded (ν := ν) run.thread alike run.execution.stack
  dsimp only
  rw [same.stack]
  exact ended.answer replies answers

/-- A run is aborted. -/
theorem abortRun (indifferent : host.Indifferent related)
    (along : Alongside related config config') (recoded : run.Recoded related run')
    {function function' : Function ν} (same : function.Recoded function') (pc pc' : Nat)
    (reason : AbortReason) :
    Recoded related (config.abortRun host run function pc reason)
      (config'.abortRun host run' function' pc' reason) := by
  have ended : Focus.Recoded related
      (.ended (run.setFrames []) (.aborted ⟨function.name, pc, reason⟩))
      (.ended (run'.setFrames []) (.aborted ⟨function'.name, pc', reason⟩)) := by
    rw [same.name_eq]
    exact .ended (recoded.setFrames .nil) (.aborted _ _ _ _)
  refine ⟨⟨along.world, ?_, along.pending⟩, ended⟩
  simp only [Config.abortRun, along.world.domain.limitHandler_eq, same.name_eq]
  split
  · split
    · exact indifferent.onLimit _ _ _ _ along.state
    · exact along.state
  · exact along.state

/-- What follows an abort. -/
theorem afterAbort (indifferent : host.Indifferent related)
    (along : Alongside related config config') {after after' : AfterAbort ν σ}
    (recoded : after.Recoded related after') :
    Recoded related (config.afterAbort host after) (config'.afterAbort host after') := by
  cases recoded with
  | reply replies => exact along.answer replies (.same _)
  | stop recoded same pc pc' reason => exact along.abortRun indifferent recoded same pc pc' reason
  | start id same purpose replies =>
    have domain := along.world.domain
    refine along.attempt (domain.thread_concurs id) ?_
    rintro thread _ ⟨held⟩
    dsimp only
    generalize thread.execution = execution at held ⊢
    cases held with
    | none => exact along.answer replies (.same _)
    | @some execution execution' held =>
      have started := along.setDomain (domain.setThread id { thread with
        execution := some ⟨_ :: execution.frames, execution.stack⟩ }
        (.some (held.push (.fresh same 0))))
      cases purpose with
      | none => exact started.answer replies (.same _)
      | some purpose => exact started.launch indifferent id purpose replies

/-- A thread is detached, and its hook is called if one is due. -/
theorem detach (indifferent : host.Indifferent related)
    (along : Alongside related config config') (id : ThreadId) {after after' : AfterAbort ν σ}
    (recoded : after.Recoded related after') :
    Recoded related (config.detach host id after) (config'.detach host id after') := by
  refine along.attempt (along.world.domain.detach id) ?_
  rintro ⟨domain, hook⟩ ⟨domain', hook'⟩ ⟨same, hooks⟩
  obtain rfl : hook' = hook := hooks
  have detached := along.setDomain same
  dsimp only
  cases hook' with
  | none => exact detached.afterAbort indifferent recoded
  | some hook =>
    cases hook with
    | leaveSleep =>
      have awake := detached.world.mapSleepers fun sleepers => sleepers.remove id
      exact (detached.setWorld awake).afterAbort indifferent recoded
    | custom reference =>
      exact ⟨⟨detached.world, detached.state, .cons (.aborting recoded) detached.pending⟩,
        .body (indifferent.onAbort reference id)⟩

/-- A thread is aborted. -/
theorem abort (indifferent : host.Indifferent related)
    (along : Alongside related config config') (id : ThreadId) (reason : AbortReason)
    {after after' : AfterAbort ν σ} (recoded : after.Recoded related after') :
    Recoded related (config.abort host id reason after) (config'.abort host id reason after') :=
  along.attempt (along.world.domain.discard id reason) fun _ _ same =>
    (along.setDomain same).detach indifferent id recoded

/-- A thread is given a fresh frame. -/
theorem start (indifferent : host.Indifferent related)
    (along : Alongside related config config') (id : ThreadId) (called : FunctionId)
    (purpose : Option Purpose) (replies : Body.Replies related next next') :
    Recoded related (config.start host id called purpose next)
      (config'.start host id called purpose next') := by
  have found := along.world.domain.function? called
  unfold Config.start
  generalize config.world.domain.function? called = function at found ⊢
  generalize config'.world.domain.function? called = function' at found ⊢
  cases found with
  | none => exact along.answer replies (.same _)
  | some same =>
    have after := AfterAbort.Recoded.start id same purpose replies
    refine along.attempt (along.world.domain.thread_concurs id) ?_
    rintro thread _ ⟨held⟩
    dsimp only
    generalize thread.execution = execution at held ⊢
    cases held with
    | none => exact along.answer replies (.same _)
    | @some execution execution' held =>
      obtain ⟨frames, stack⟩ := execution
      obtain ⟨frames', stack'⟩ := execution'
      have bare : frames'.isEmpty = frames.isEmpty := by
        have all := held.frames
        cases all <;> rfl
      dsimp only
      rw [bare]
      split
      · exact along.abort indifferent id .requested after
      · exact along.afterAbort indifferent after

/-- A suspended thread is continued. -/
theorem continueThread (indifferent : host.Indifferent related)
    (along : Alongside related config config') (id : ThreadId) (purpose : Purpose)
    (replies : Body.Replies related next next') :
    Recoded related (config.continueThread host id purpose next)
      (config'.continueThread host id purpose next') := by
  have domain := along.world.domain
  refine along.attempt (domain.thread_concurs id) ?_
  rintro thread _ ⟨held⟩
  have woken := along.setDomain (domain.setThread id { thread with
    suspended := false, hook := none } held)
  dsimp only
  generalize thread.execution = execution at held woken ⊢
  cases held with
  | none => exact woken.launch indifferent id purpose replies
  | @some execution execution' held =>
    obtain ⟨frames, stack⟩ := execution
    obtain ⟨frames', stack'⟩ := execution'
    obtain ⟨all, rfl⟩ := held
    cases all with
    | nil => exact woken.answer replies (.same _)
    | cons first rest => exact woken.launch indifferent id purpose replies

/-- A thread is continued on behalf of the host. -/
theorem resume (indifferent : host.Indifferent related)
    (along : Alongside related config config') (id : ThreadId)
    (replies : Body.Replies related next next') :
    Recoded related (config.resume host id next) (config'.resume host id next') := by
  refine along.attempt (along.world.domain.thread_concurs id) ?_
  intro thread thread' same
  dsimp only
  rw [same.isRunning_eq, same.suspended_eq, same.waitingOn_eq]
  split
  · exact along.answer replies (.same _)
  · split
    · exact along.answer replies (.same _)
    · split
      · exact along.answer replies (.same _)
      · exact along.continueThread indifferent id .plain replies

/-- The longest waiting thread is woken. -/
theorem wake (indifferent : host.Indifferent related)
    (along : Alongside related config config') (queue : QueueId) (value : Option Int32)
    (replies : Body.Replies related next next') :
    Recoded related (config.wake host queue value next)
      (config'.wake host queue value next') := by
  have domain := along.world.domain
  have first : config'.world.domain.nextWaiter? queue = config.world.domain.nextWaiter? queue := by
    rw [Domain.nextWaiter?, Domain.nextWaiter?, domain.waiters_eq]
  unfold Config.wake
  dsimp only
  rw [first]
  refine along.attempt_same _ fun head => ?_
  cases head with
  | none => exact along.answer replies (.same _)
  | some head =>
    refine along.attempt (domain.thread_concurs head) fun thread thread' same => ?_
    rw [same.isRunning_eq]
    split
    · exact along.answer replies (.same _)
    · refine along.attempt (domain.popWaiter queue) ?_
      rintro ⟨popped, _⟩ ⟨popped', _⟩ ⟨same, rfl⟩
      have left := along.setDomain same
      refine left.attempt (same.handResult head value) fun handed handed' concurs => ?_
      cases concurs with
      | error error => exact left.answer replies (.same _)
      | ok same => exact (left.setDomain same).continueThread indifferent head .woken replies

/-- A request is carried out. -/
theorem perform (indifferent : host.Indifferent related)
    (along : Alongside related config config') {request request' : Request ν}
    (alike : request.Recoded request') (replies : Body.Replies related next next') :
    Recoded related (config.perform host request next)
      (config'.perform host request' next') := by
  have updated {update update' : Update ν} (concurs : Concurs Update.Responds
      (update.apply config.world) (update'.apply config'.world)) :
      Recoded related (config.perform host (.update update) next)
        (config'.perform host (.update update') next') := by
    refine along.attempt concurs ?_
    rintro ⟨world, answer⟩ ⟨world', answer'⟩ ⟨same, alike⟩
    exact ⟨⟨same, along.state, along.pending⟩, .body (replies _ _ alike)⟩
  cases alike with
  | addFunction recoded => exact updated (Update.responds_addFunction along.world recoded)
  | same =>
    cases request with
    | observe => exact along.answer replies (.seen along.world.view)
    | update update => exact updated (Update.responds_apply along.world update)
    | start thread function => exact along.start indifferent thread function none replies
    | run thread function => exact along.start indifferent thread function (some .plain) replies
    | runInt thread function =>
      exact along.start indifferent thread function (some .result) replies
    | resume thread => exact along.resume indifferent thread replies
    | abort thread => exact along.abort indifferent thread .requested (.reply replies)
    | wake queue value => exact along.wake indifferent queue value replies
    | faultActive error =>
      simp only [Config.perform, along.world.domain.active_eq]
      cases config.world.domain.active with
      | none => exact along.answer replies (.same _)
      | some thread => exact along.abort indifferent thread _ (.reply replies)

/-! ## Frames and calls -/

/-- A frame is entered or continued. -/
theorem enterFrame (indifferent : host.Indifferent related)
    (along : Alongside related config config') (recoded : run.Recoded related run') :
    Recoded related (config.enterFrame host run) (config'.enterFrame host run') := by
  have frames := recoded.frames
  unfold Config.enterFrame
  generalize listed : run.execution.frames = all at frames ⊢
  generalize listed' : run'.execution.frames = all' at frames ⊢
  cases frames with
  | nil => exact along.goto (.ended recoded .completed)
  | @cons frame frame' outer outer' first rest =>
    -- The registers are set to those of the innermost frame.
    have executes {pc pc' : Nat} (sp : Nat) (parallel : Code.Parallel frame.function.code
        frame'.function.code pc pc') : Run.Executes related run run'
        ⟨frame.function, frame.base, pc, sp⟩ ⟨frame'.function, frame.base, pc', sp⟩ := by
      refine ⟨recoded, ⟨first.function, rfl, rfl, parallel⟩, ?_, ?_⟩
      · intro other below found
        cases listed.symm.trans found
        rfl
      · intro other below found
        cases listed'.symm.trans found
        rfl
    have saved := first.pc
    dsimp only
    rw [first.base, first.top, first.function.locals_eq, first.prepareStack_eq,
      recoded.stack_eq]
    generalize frame.pc = pc at saved ⊢
    generalize frame'.pc = pc' at saved ⊢
    cases saved with
    | some parallel => exact along.goto (.execute (executes frame.top parallel))
    | none =>
      exact (along.emit indifferent (.scopeEnter .frame first.function 0 0)).goto
        (.execute ((executes _ first.function.code).setStack _))

/-- A frame is left. -/
theorem leaveFrame (indifferent : host.Indifferent related)
    (along : Alongside related config config') (recoded : run.Recoded related run')
    {function function' : Function ν} (same : function.Recoded function') (stack : Array Int32) :
    Recoded related (config.leaveFrame host run function stack)
      (config'.leaveFrame host run' function' stack) := by
  have outer : List.Forall₂ Frame.Recoded run.execution.frames.tail run'.execution.frames.tail := by
    have frames := recoded.frames
    generalize run.execution.frames = listed at frames ⊢
    generalize run'.execution.frames = listed' at frames ⊢
    cases frames with
    | nil => exact .nil
    | cons first rest => exact rest
  exact (along.emit indifferent (.scopeExit .frame same 0 0)).goto
    (.enter ((recoded.setStack stack).setFrames outer))

/-- A native method is called. -/
theorem callNative (indifferent : host.Indifferent related)
    (along : Alongside related config config')
    (executes : Run.Executes related run run' registers registers') {next next' : Nat}
    (parallel : Code.Parallel registers.function.code registers'.function.code next next')
    {call call' : NativeCall} (calls : call.Recoded call') :
    Recoded related (config.callNative host run registers next call)
      (config'.callNative host run' registers' next' call') := by
  obtain ⟨pc⟩ := calls
  have same := executes.same
  unfold Config.callNative
  dsimp only
  rw [same.function.method?_eq]
  cases registers.function.method? call.method with
  | none => exact along.abortRun indifferent executes.recoded same.function _ _ _
  | some method =>
    have shown := along.emit indifferent
      (.scopeEnter (.native call.kind call.method) same.function call.pc pc)
    dsimp only
    rw [same.sp, same.base, executes.recoded.stack_eq]
    split
    · exact ⟨⟨shown.world, shown.state, .cons (.calling (executes.goOn parallel _) (.mk pc))
        shown.pending⟩, .body (indifferent.native _ _)⟩
    · exact shown.goto (.faulted _)

/-- A native method has answered. -/
theorem returnNative (indifferent : host.Indifferent related)
    (along : Alongside related config config')
    (executes : Run.Executes related run run' registers registers') {call call' : NativeCall}
    (calls : call.Recoded call') (value : Int32) :
    Recoded related (config.returnNative host run registers call value)
      (config'.returnNative host run' registers' call' value) := by
  obtain ⟨pc⟩ := calls
  have same := executes.same
  have shown := along.emit indifferent
    (.scopeExit (.native call.kind call.method) same.function call.pc pc)
  unfold Config.returnNative
  dsimp only
  rw [executes.recoded.stack_eq]
  refine shown.attempt_same _ fun stack => ?_
  replace executes := executes.setStack stack
  generalize run.setStack stack = run at executes ⊢
  generalize run'.setStack stack = run' at executes ⊢
  rw [executes.recoded.thread_eq]
  have domain := shown.world.domain
  refine shown.attempt (domain.thread_concurs _) ?_
  rintro thread _ ⟨held⟩
  dsimp only
  cases thread.pendingAbort with
  | some reason =>
    have stopped := shown.setDomain (domain.setThread run.thread { thread with
      pendingAbort := none } held)
    exact stopped.detach indifferent run.thread (.stop executes.recoded same.function _ _ reason)
  | none =>
    dsimp only
    split
    · have saved := executes.saveFrame same.pc registers.sp
      rw [same.sp, saved.thread_eq]
      exact (shown.emit indifferent (.suspend _ same.function call.pc pc)).goto
        (.ended saved .suspended)
    · exact shown.goto (.execute executes)

/-- A script function is called. -/
theorem callScript (indifferent : host.Indifferent related)
    (along : Alongside related config config')
    (executes : Run.Executes related run run' registers registers') {next next' : Nat}
    (parallel : Code.Parallel registers.function.code registers'.function.code next next')
    (result : ResultKind) (callee : FunctionId) (argc : Nat) :
    Recoded related (config.callScript host run registers next result callee argc)
      (config'.callScript host run' registers' next' result callee argc) := by
  have domain := along.world.domain
  have same := executes.same
  have found := domain.function? callee
  unfold Config.callScript
  generalize config.world.domain.function? callee = function at found ⊢
  generalize config'.world.domain.function? callee = function' at found ⊢
  cases found with
  | none => exact along.abortRun indifferent executes.recoded same.function _ _ _
  | some called =>
    dsimp only
    rw [same.sp, domain.limits_eq]
    split
    · exact along.goto (.faulted _)
    · have saved := executes.saveFrame parallel (registers.sp - argc + result.count)
      generalize run.saveFrame next (registers.sp - argc + result.count) = caller at saved ⊢
      generalize run'.saveFrame next' (registers.sp - argc + result.count) = caller' at saved ⊢
      rw [← saved.frames.length_eq, saved.stack_eq]
      split
      · refine along.attempt_same _ fun stack => ?_
        exact along.abortRun indifferent (saved.setStack stack) same.function _ _ _
      · exact along.goto (.enter (saved.setFrames (.cons (.fresh called _) saved.frames)))

/-! ## Instructions -/

/-- An instruction is executed. -/
theorem execute (indifferent : host.Indifferent related)
    (along : Alongside related config config')
    (executes : Run.Executes related run run' registers registers') :
    Recoded related (config.execute host run registers) (config'.execute host run' registers') := by
  have same := executes.same
  have recoded := executes.recoded
  have read := same.pc.reads
  unfold Config.execute
  dsimp only
  generalize Instruction.decode registers.function.code registers.pc = result at read ⊢
  generalize Instruction.decode registers'.function.code registers'.pc = result' at read ⊢
  cases read with
  | failed error error' => exact along.abortRun indifferent recoded same.function _ _ _
  | @read read read' tallies =>
    obtain ⟨instruction, next⟩ := read
    obtain ⟨instruction', next'⟩ := read'
    have shown := along.emit indifferent (.instruction run.thread same.function registers.pc
      registers'.pc next next' tallies.widened)
    dsimp only
    rw [recoded.thread_eq]
    generalize config.emit host _ = config at shown ⊢
    generalize config'.emit host _ = config' at shown ⊢
    have domain := shown.world.domain
    refine shown.attempt (domain.thread_concurs run.thread) fun thread thread' alike => ?_
    have reach_eq : (⟨config'.world.domain.globals, config'.world.domain.specials,
        thread'.variables⟩ : Variables) =
        ⟨config.world.domain.globals, config.world.domain.specials, thread.variables⟩ := by
      rw [domain.globals_eq, domain.specials_eq, alike.variables_eq]
    rw [reach_eq, same.base, same.sp, recoded.stack_eq]
    generalize (⟨_, _, _⟩ : Variables) = reach
    have does := @Instruction.effect_eq_redirected reach registers.base registers.sp
      run.execution.stack instruction
    have does' := @Instruction.effect_eq_redirected reach registers.base registers.sp
      run.execution.stack instruction'
    rw [tallies.widened] at does'
    generalize instruction.widened.effect reach registers.base run.execution.stack registers.sp =
      effect at does does'
    cases effect with
    | advance stack sp =>
      rw [does, does']
      exact shown.goto (.execute ((executes.setStack stack).goOn tallies.next sp))
    | writeGlobal index value sp =>
      rw [does, does']
      have written := domain.map (fun domain =>
        { domain with globals := domain.globals.set! index value }) rfl rfl fun _ _ => rfl
      exact (shown.setDomain written).goto (.execute (executes.goOn tallies.next sp))
    | jump distance sp =>
      have branches := Instruction.delta?_of_jump does
      have branches' := Instruction.delta?_of_jump does'
      have target := tallies.target _ _ branches branches'
      rw [does, does']
      dsimp only [Effect.redirected] at target ⊢
      generalize branchTarget? next _ = landing at target ⊢
      generalize branchTarget? next' _ = landing' at target ⊢
      cases target with
      | none => exact shown.abortRun indifferent recoded same.function _ _ _
      | some parallel => exact shown.goto (.execute (executes.goOn parallel sp))
    | spend =>
      have budget : run'.budget = run.budget := by
        obtain ⟨_, _⟩ := recoded
        rfl
      rw [does, does']
      dsimp only [Effect.redirected]
      rw [budget]
      split
      · exact shown.abortRun indifferent recoded same.function _ _ _
      · have spent := (executes.setBudget (run.budget - 1)).goOn tallies.next registers.sp
        rw [recoded.thread_eq] at spent
        exact shown.goto (.execute spent)
    | native kind result method base =>
      rw [does, does']
      exact shown.callNative indifferent executes tallies.next (.mk _)
    | script result callee argc =>
      rw [does, does']
      exact shown.callScript indifferent executes tallies.next result callee argc
    | ret stack =>
      rw [does, does']
      exact shown.leaveFrame indifferent recoded same.function stack
    | invalid =>
      rw [does, does']
      exact shown.abortRun indifferent recoded same.function _ _ _
    | outOfBounds =>
      rw [does, does']
      exact shown.goto (.faulted _)

/-! ## Steps -/

/-- A body has ended. -/
theorem finishBody (indifferent : host.Indifferent related)
    (along : Alongside related config config') (value : Int32) :
    Recoded related (config.finishBody host value) (config'.finishBody host value) := by
  have pending := along.pending
  unfold Config.finishBody
  generalize config.pending = waiting at pending ⊢
  generalize config'.pending = waiting' at pending ⊢
  cases pending with
  | nil => exact along.goto (.finished value)
  | @cons _ _ rest rest' first others =>
    have below : Alongside related { config with pending := rest }
        { config' with pending := rest' } := ⟨along.world, along.state, others⟩
    cases first with
    | calling executes calls => exact below.returnNative indifferent executes calls value
    | aborting recoded => exact below.afterAbort indifferent recoded

end Alongside

end Config

namespace Config.Recoded

variable {related : σ → σ → Prop} {host : Host ν σ} {config config' : Config ν σ}

/-- A step keeps two machines the same, but for encodings. -/
theorem step (indifferent : host.Indifferent related) (recoded : Recoded related config config') :
    Recoded related (config.step host) (config'.step host) := by
  have along := recoded.toAlongside
  have work := recoded.focus
  unfold Config.step
  generalize config.focus = focus at work ⊢
  generalize config'.focus = focus' at work ⊢
  cases work with
  | body alike =>
    cases alike with
    | done value => exact along.finishBody indifferent value
    | ask alike goes => exact along.perform indifferent alike goes
    | modify keeps goes =>
      have changed := keeps _ _ along.state
      exact ⟨⟨along.world, changed, along.pending⟩, .body (goes _ _ changed)⟩
    | crash fault => exact along.goto (.faulted fault)
  | enter recoded => exact along.enterFrame indifferent recoded
  | execute executes => exact along.execute indifferent executes
  | ended recoded alike => exact along.finishRun indifferent recoded alike
  | finished value => exact recoded
  | faulted fault => exact recoded

/-- Both machines have come to an end, or neither has. -/
theorem isFinal_eq (recoded : Recoded related config config') :
    config'.isFinal = config.isFinal := by
  have work := recoded.focus
  unfold isFinal
  generalize config.focus = focus at work ⊢
  generalize config'.focus = focus' at work ⊢
  cases work <;> rfl

/-- A run keeps two machines the same, but for encodings. -/
theorem run (indifferent : host.Indifferent related) (recoded : Recoded related config config')
    (steps : Nat) : Recoded related (config.run host steps) (config'.run host steps) := by
  induction steps generalizing config config' with
  | zero => exact recoded
  | succ steps ih =>
    unfold Config.run
    rw [recoded.isFinal_eq]
    split
    · exact recoded
    · exact ih (recoded.step indifferent)

/-- Both machines are about to call the same native method with the same arguments, or neither is
about to call one. -/
theorem nativeCall?_eq (recoded : Recoded related config config') :
    config'.nativeCall? = config.nativeCall? := by
  have work := recoded.focus
  unfold nativeCall?
  generalize config.focus = focus at work ⊢
  generalize config'.focus = focus' at work ⊢
  cases work with
  | @execute run run' registers registers' executes =>
    have read := executes.same.pc.reads
    dsimp only
    generalize Instruction.decode registers.function.code registers.pc = result at read ⊢
    generalize Instruction.decode registers'.function.code registers'.pc = result' at read ⊢
    cases read with
    | failed error error' => rfl
    | @read read read' tallies =>
      obtain ⟨instruction, next⟩ := read
      obtain ⟨instruction', next'⟩ := read'
      have widened : instruction'.widened = instruction.widened := tallies.widened
      have native (kind : MethodKind) (result : ResultKind) (argc method : UInt8) :
          instruction' = .native kind result argc method ↔
            instruction = .native kind result argc method := by
        rw [← Instruction.widened_eq_native_iff, widened, Instruction.widened_eq_native_iff]
      split
      · rename_i kind result argc method _ same
        obtain ⟨rfl, _⟩ : instruction' = .native kind result argc method ∧ next' = _ := by
          simpa using same
        obtain rfl := (native kind result argc method).1 rfl
        simp only [executes.same.function.method?_eq, executes.same.sp, executes.recoded.stack_eq]
      · rename_i other
        split
        · rename_i kind result argc method _ same
          obtain ⟨rfl, _⟩ : instruction = .native kind result argc method ∧ next = _ := by
            simpa using same
          obtain rfl := (native kind result argc method).2 rfl
          exact absurd rfl (other kind result argc method next')
        · rfl
  | _ => rfl

end Config.Recoded

end ScriptMachine

import ScriptMachine.Proofs.Instructions

/-!
# Why runs are aborted

A request starts at most one run, which has the loop budget of the domain, and ends none. A run that
goes on after a native method is aborted for what has been requested of its thread, and for nothing
else. Limits are never requested. So a run is aborted for exceeding a limit only by the instruction
that exceeds it.
-/

namespace ScriptMachine

variable {ν σ : Type}

namespace Domain.Rearranged

variable {domain next : Domain ν}

/-- The functions are as they were. -/
theorem functions (rearranged : domain.Rearranged next) : next.functions = domain.functions := by
  have same : next = { domain with threads := next.threads, queues := next.queues } := rearranged
  rw [same]

/-- The limits are as they were. -/
theorem limits (rearranged : domain.Rearranged next) : next.limits = domain.limits := by
  have same : next = { domain with threads := next.threads, queues := next.queues } := rearranged
  rw [same]

/-- The limit handler is as it was. -/
theorem limitHandler (rearranged : domain.Rearranged next) :
    next.limitHandler = domain.limitHandler := by
  have same : next = { domain with threads := next.threads, queues := next.queues } := rearranged
  rw [same]

end Domain.Rearranged

namespace Config

variable {host : Host ν σ} {config middle next : Config ν σ} {run : Run ν σ}
  {registers : Registers ν} {rest : List (Pending ν σ)}

/-! ## Requests -/

/-- A request that is carried out above this waiting work leaves a body at hand, begins a run with
the loop budget of the domain, or calls a hook for which no run waits. -/
inductive Opens (rest : List (Pending ν σ)) (config : Config ν σ) : Prop where
  | speaks (body : Body ν σ) (focus : config.focus = .body body) (pending : config.pending = rest)
  | begins (run : Run ν σ) (focus : config.focus = .enter run) (pending : config.pending = rest)
    (budget : run.budget = config.world.domain.limits.loopBudget)
  | hooks (body : Body ν σ) (after : AfterAbort ν σ) (focus : config.focus = .body body)
    (pending : config.pending = .aborting after :: rest) (stopless : after.run? = none)
  | faulted (fault : Fault) (focus : config.focus = .faulted fault)

namespace Opens

/-- Stopping for a misuse. -/
theorem stop {config : Config ν σ} (fault : Fault) : (config.goto (.faulted fault)).Opens rest :=
  .faulted fault rfl

/-- Going on with a body. -/
theorem body {body : Body ν σ} (above : config.pending = rest) :
    (config.goto (.body body)).Opens rest := .speaks body rfl above

/-- A thread that begins to run. -/
theorem launch {id : ThreadId} {purpose : Purpose} {reply : Answer ν → Body ν σ}
    (above : config.pending = rest) : (config.launch host id purpose reply).Opens rest := by
  refine attempt_induction stop fun thread _ => ?_
  split
  · exact body above
  · rename_i execution _
    refine .begins _ rfl ?_ ?_
    · dsimp only
      split
      · exact above
      · simp [above]
    · dsimp only
      split
      · rfl
      · simp [Domain.setThread]

/-- What follows an abort that stops no run. -/
theorem afterAbort {next : AfterAbort ν σ} (stopless : next.run? = none)
    (above : config.pending = rest) : (config.afterAbort host next).Opens rest := by
  cases next with
  | reply next => exact body above
  | stop run function pc reason => cases stopless
  | start id function purpose next =>
    refine attempt_induction stop fun thread _ => ?_
    split
    · exact body above
    · cases purpose with
      | none => exact body above
      | some purpose => exact launch above

/-- A thread that is detached. -/
theorem detach {id : ThreadId} {next : AfterAbort ν σ} (stopless : next.run? = none)
    (above : config.pending = rest) : (config.detach host id next).Opens rest := by
  refine attempt_induction stop fun ⟨domain, hook⟩ _ => ?_
  dsimp only
  split
  · exact afterAbort stopless above
  · exact afterAbort stopless above
  · exact .hooks _ next rfl (congrArg _ above) stopless

/-- A thread that is aborted. -/
theorem abort {id : ThreadId} {reason : AbortReason} {next : AfterAbort ν σ}
    (stopless : next.run? = none) (above : config.pending = rest) :
    (config.abort host id reason next).Opens rest :=
  attempt_induction stop fun _ _ => detach stopless above

/-- A thread that is given a fresh frame. -/
theorem start {id : ThreadId} {function : FunctionId} {purpose : Option Purpose}
    {next : Answer ν → Body ν σ} (above : config.pending = rest) :
    (config.start host id function purpose next).Opens rest :=
  start_induction stop (fun _ => body above) (fun _ _ _ => body above)
    fun _ _ _ _ _ _ => ⟨fun _ => abort rfl above, fun _ _ => afterAbort rfl above⟩

/-- A thread that goes on. -/
theorem continueThread {id : ThreadId} {purpose : Purpose} {next : Answer ν → Body ν σ}
    (above : config.pending = rest) : (config.continueThread host id purpose next).Opens rest := by
  refine attempt_induction stop fun thread _ => ?_
  dsimp only
  split
  · exact body above
  · exact launch above

/-- A thread that the host resumes. -/
theorem resume {id : ThreadId} {next : Answer ν → Body ν σ} (above : config.pending = rest) :
    (config.resume host id next).Opens rest :=
  resume_induction stop (fun _ => body above) fun _ _ _ _ _ => continueThread above

/-- A thread that is woken through its queue. -/
theorem wake {queue : QueueId} {value : Option Int32} {next : Answer ν → Body ν σ}
    (above : config.pending = rest) : (config.wake host queue value next).Opens rest :=
  wake_induction stop (fun _ => body above) (fun _ _ _ _ _ => body above) fun _ _ _ _ _ _ _ _ =>
    ⟨stop, fun _ _ => body above, fun _ _ => continueThread above⟩

/-- A request that is carried out. -/
theorem perform {request : Request ν} {next : Answer ν → Body ν σ}
    (above : config.pending = rest) : (config.perform host request next).Opens rest := by
  cases request with
  | observe => exact body above
  | update update => exact attempt_induction stop fun _ _ => .speaks _ rfl above
  | start id function => exact start above
  | run id function => exact start above
  | runInt id function => exact start above
  | resume id => exact resume above
  | abort id => exact abort rfl above
  | faultActive error =>
    unfold Config.perform
    dsimp only
    split
    · exact body above
    · exact abort rfl above
  | wake queue value => exact wake above

/-- A request does not end a run. -/
theorem not_ended (opens : config.Opens rest) (outcome : Outcome) :
    config.focus ≠ .ended run outcome := by
  cases opens with
  | speaks body focus | begins run focus | hooks body after focus | faulted fault focus =>
    rw [focus]
    simp

/-- A request lets no run wait that an abort is to stop. -/
theorem mem_pending (opens : config.Opens rest) {stopped : Run ν σ} {function : Function ν}
    {pc : Nat} {reason : AbortReason}
    (waits : .aborting (.stop stopped function pc reason) ∈ config.pending) :
    .aborting (.stop stopped function pc reason) ∈ rest ∨
      ∃ fault, config.focus = .faulted fault := by
  cases opens with
  | speaks body focus pending | begins run focus pending => exact .inl (pending ▸ waits)
  | faulted fault focus => exact .inr ⟨fault, focus⟩
  | hooks body after focus pending stopless =>
    rw [pending] at waits
    rcases List.mem_cons.1 waits with same | below
    · cases same
      cases stopless
    · exact .inl below

end Opens

/-! ## Frames that are entered, and native methods that answer -/

/-- What entering its innermost frame makes of a run: without a frame it is complete, and otherwise
it goes on at the first instruction of the frame or where the frame is to be continued. -/
inductive Entered (config : Config ν σ) (run : Run ν σ) (next : Config ν σ) : Prop where
  | completes (bare : run.execution.frames = []) (focus : next.focus = .ended run .completed)
    (pending : next.pending = config.pending)
  | continues (frame : Frame ν) (outer : List (Frame ν)) (after : Run ν σ) (top : Nat)
    (frames : run.execution.frames = frame :: outer)
    (focus : next.focus = .execute after ⟨frame.function, frame.base, frame.pc.getD 0, top⟩)
    (pending : next.pending = config.pending) (keeps : run.Keeps after)

/-- A frame that is entered. -/
theorem enterFrame_entered (host : Host ν σ) (config : Config ν σ) (run : Run ν σ) :
    config.Entered run (config.enterFrame host run) ∧
      Besides host ((config.enterFrame host run).focus.limitCalls
        config.world.domain.limitHandler) config (config.enterFrame host run) := by
  have besides := @Besides.refl _ _ host config
  unfold enterFrame
  split
  · rename_i bare
    exact ⟨.completes bare rfl rfl, besides.goto _⟩
  · rename_i frame outer frames
    split
    · rename_i pc saved
      refine ⟨.continues frame outer run frame.top frames ?_ rfl ⟨.refl run, rfl, rfl⟩,
        besides.goto _⟩
      rw [saved]
      rfl
    · rename_i unrun
      let stack := frame.prepareStack run.execution.stack
      let top := frame.base + frame.function.locals
      refine ⟨.continues frame outer (run.setStack stack) top frames ?_ (by simp)
        (.setStack run stack), (besides.emit _).goto _⟩
      rw [unrun]
      rfl

/-- What the answer of a native method makes of the run that has called it: it goes on, is
suspended, or stops for the abort that has been requested of its thread, once the hook has been
called. -/
inductive Returned (config : Config ν σ) (run : Run ν σ) (registers : Registers ν)
    (call : NativeCall) (next : Config ν σ) : Prop where
  | faulted (fault : Fault) (focus : next.focus = .faulted fault)
  | executes (after : Run ν σ) (focus : next.focus = .execute after registers)
    (pending : next.pending = config.pending) (keeps : run.Keeps after)
    (limits : next.world.domain.limits = config.world.domain.limits)
  | suspends (last : Run ν σ) (focus : next.focus = .ended last .suspended)
    (pending : next.pending = config.pending) (lasts : run.Lasts last)
    (frames : last.execution.frames.length = run.execution.frames.length)
  | stops (last : Run ν σ) (reason : AbortReason)
    (asked : config.world.domain.abortRequest? run.thread = some reason)
    (focus : next.focus =
      .ended last (.aborted ⟨registers.function.name, call.pc, reason⟩))
    (pending : next.pending = config.pending) (lasts : run.Lasts last)
  | hooks (body : Body ν σ) (last : Run ν σ) (reason : AbortReason)
    (asked : config.world.domain.abortRequest? run.thread = some reason)
    (focus : next.focus = .body body)
    (pending : next.pending =
      .aborting (.stop last registers.function call.pc reason) :: config.pending)
    (keeps : run.Keeps last)

/-- A native method that answers. -/
theorem returnNative_returned (host : Host ν σ) (config : Config ν σ) (run : Run ν σ)
    (registers : Registers ν) (call : NativeCall) (value : Int32) :
    config.Returned run registers call (config.returnNative host run registers call value) ∧
      Besides host ((config.returnNative host run registers call value).focus.limitCalls
        config.world.domain.limitHandler) config
        (config.returnNative host run registers call value) := by
  let returns (next : Config ν σ) : Prop := config.Returned run registers call next ∧
    Besides host (next.focus.limitCalls config.world.domain.limitHandler) config next
  refine @returnNative_induction _ _ returns host config run registers call value
    fun shown emitted => ?_
  have world : shown.world = config.world := by rw [← emitted, emit_world]
  have pending : shown.pending = config.pending := by rw [← emitted, emit_pending]
  have besides : Besides host [] config shown := emitted ▸ (Besides.refl config).emit _
  have stopped {middle : Config ν σ} (besides : Besides host [] config middle) (fault : Fault) :
      returns (middle.goto (.faulted fault)) := ⟨.faulted fault rfl, besides.goto _⟩
  refine ⟨stopped besides, fun stack thread _ present => ⟨fun reason found => ?_, fun _ _ => ?_,
    fun _ _ => ?_⟩⟩
  · rw [world] at present
    have asked := (Domain.abortRequest?_of_present present).trans found
    have honored : Besides host [] config (shown.setDomain (shown.world.domain.setThread run.thread
        { thread with pendingAbort := none })) := besides.setDomain rfl rfl rfl
    refine @attempt_induction _ _ _ returns _ _ _ (stopped honored) fun ⟨domain, hook⟩ done => ?_
    have rearranged := Domain.Rearranged.detach done
    have left : Besides host [] config (shown.setDomain domain) :=
      besides.setDomain rearranged.functions rearranged.limits rearranged.limitHandler
    dsimp only
    split
    · exact ⟨.stops _ reason asked rfl pending ⟨rfl, rfl, rfl⟩, left.abortRun ..⟩
    · refine ⟨.stops _ reason asked rfl pending ⟨rfl, rfl, rfl⟩, Besides.abortRun ?_ ..⟩
      exact left.congr rfl rfl
    · exact ⟨.hooks _ _ reason asked rfl (congrArg _ pending) (.setStack run stack),
        left.congr rfl rfl⟩
  · have lasts := Run.Lasts.saveFrame (run.setStack stack) registers.pc registers.sp
    exact ⟨.suspends _ rfl (by simp [pending]) ⟨lasts.thread, lasts.purpose, lasts.reply⟩
      ((run.setStack stack).length_saveFrame ..), (besides.emit _).goto _⟩
  · exact ⟨.executes _ rfl pending (.setStack run stack) (by rw [goto_world, world]),
      besides.goto _⟩

/-- The end of a run tells no limit handler of it. -/
theorem besides_finishRun (host : Host ν σ) (config : Config ν σ) (run : Run ν σ)
    (outcome : Outcome) :
    Besides host ((config.finishRun host run outcome).focus.limitCalls
      config.world.domain.limitHandler) config (config.finishRun host run outcome) := by
  have besides := @Besides.refl _ _ host config
  refine @attempt_induction _ _ _ (fun next => Besides host (next.focus.limitCalls
    config.world.domain.limitHandler) config next) _ _ _ (fun fault => besides.goto _)
    fun thread _ => ?_
  have left : Besides host [] config (config.setDomain { config.world.domain.setThread run.thread
      { thread with execution := some run.execution, pendingAbort := none } with
        active := run.previous }) := besides.setDomain rfl rfl rfl
  exact (left.emit (.runEnd run.thread outcome)).goto _

/-! ## Limits are not requested -/

/-- What is requested of a thread after a step has been requested before, or is what the step asks
for. -/
theorem step_requests (nested : config.Nested) {id : ThreadId} {reason : AbortReason}
    (requested : (config.step host).world.domain.abortRequest? id = some reason) :
    config.world.domain.abortRequest? id = some reason ∨ config.asksAbort? id = some reason ∨
      ∃ fault, (config.step host).focus = .faulted fault := by
  have cleared (cleared : (config.step host).Cleared id) :
      ∃ fault, (config.step host).focus = .faulted fault := by
    cases cleared with
    | faulted fault focus => exact ⟨fault, focus⟩
    | cleared unrequested =>
      rw [unrequested] at requested
      cases requested
  by_cases honors : config.Honors id
  · refine .inr (.inr (cleared ?_))
    cases honors with
    | ends run outcome focus same =>
      subst same
      simpa only [step, focus] using Cleared.finishRun run outcome
    | answers value run registers call rest focus pending same =>
      subst same
      rw [step_of_calling focus pending]
      exact .returnNative run registers call value
  · cases asked : config.asksAbort? id with
    | none =>
      left
      rw [← requested]
      exact (step_quiet nested asked honors).symm
    | some other =>
      obtain ⟨next, made⟩ := @step_of_asksAbort? _ _ host config id other asked
      rw [made] at requested ⊢
      unfold abort at requested ⊢
      cases done : config.world.domain.discard id other with
      | error fault => exact .inr (.inr ⟨fault, rfl⟩)
      | ok domain =>
        rw [done, attempt_ok] at requested
        have detached : Quiet id (config.setDomain domain)
            ((config.setDomain domain).detach host id (.reply next)) := .detach id (.reply next)
        rw [detached] at requested
        obtain ⟨thread, present, ⟨execution, held, _⟩ | ⟨taken, _⟩⟩ :=
          Domain.discard_eq_ok done
        · left
          rw [← requested]
          exact (Domain.abortRequest?_discard_held present held done id).symm
        · rw [setDomain_world, Domain.abortRequest?_discard_running present taken done] at requested
          cases before : config.world.domain.abortRequest? id with
          | none =>
            rw [before] at requested
            exact .inr (.inl requested)
          | some first =>
            rw [before] at requested
            exact .inl requested

/-- No step asks for an abort by a limit. -/
theorem asksAbort?_not_limit {id : ThreadId} {reason : AbortReason}
    (asked : config.asksAbort? id = some reason) : reason.isLimit = false := by
  unfold asksAbort? at asked
  split at asked
  · split at asked <;> cases asked
    rfl
  · split at asked <;> cases asked
    rfl
  · cases asked

/-- No abort by a limit has been requested, and no run is about to be stopped for such a request,
unless the machine has stopped. -/
inductive Deliberate (config : Config ν σ) : Prop where
  | faulted (fault : Fault) (focus : config.focus = .faulted fault)
  | deliberate
    (requests : ∀ id reason, config.world.domain.abortRequest? id = some reason →
      reason.isLimit = false)
    (stops : ∀ run function pc reason, .aborting (.stop run function pc reason) ∈ config.pending →
      reason.isLimit = false)

/-- A step lets a run wait to be stopped only for what has been requested of its thread. -/
theorem step_stops {stopped : Run ν σ} {function : Function ν} {pc : Nat} {reason : AbortReason}
    (waits : .aborting (.stop stopped function pc reason) ∈ (config.step host).pending) :
    .aborting (.stop stopped function pc reason) ∈ config.pending ∨
      (∃ id, config.world.domain.abortRequest? id = some reason) ∨
      ∃ fault, (config.step host).focus = .faulted fault := by
  let stopsFor (after : Config ν σ) : Prop :=
    .aborting (.stop stopped function pc reason) ∈ after.pending →
      .aborting (.stop stopped function pc reason) ∈ config.pending ∨
        (∃ id, config.world.domain.abortRequest? id = some reason) ∨
        ∃ fault, after.focus = .faulted fault
  have same {after : Config ν σ} (pending : after.pending = config.pending) : stopsFor after :=
    fun waits => .inl (pending ▸ waits)
  have opens {after : Config ν σ} {rest : List (Pending ν σ)} (opens : after.Opens rest)
      (below : ∀ work ∈ rest, work ∈ config.pending) : stopsFor after := fun waits =>
    (opens.mem_pending waits).imp (below _) .inr
  refine @step_induction _ _ stopsFor host config {
    rests _ := same rfl
    enters run _ := ?_
    executes run registers _ := ?_
    ends run outcome focus := ?_
    asks request next _ := opens (.perform rfl) fun _ => id
    modifies _ _ _ := same rfl
    crashes _ _ := same rfl
    concludes _ _ _ := same rfl
    answers value run registers call rest _ pending := ?_
    goesOn _ next rest _ pending := ?_ } waits
  · cases (enterFrame_entered host config run).1 with
    | completes _ _ pending => exact same pending
    | continues _ _ _ _ _ _ pending => exact same pending
  · cases (execute_acts host config run registers).1 with
    | faulted fault focus => exact fun _ => .inr (.inr ⟨fault, focus⟩)
    | calls _ _ _ _ _ _ _ _ _ _ _ pending =>
      intro waits
      rw [pending] at waits
      rcases List.mem_cons.1 waits with same | below
      · cases same
      · exact .inl below
    | stuck last _ pending | goes _ _ _ _ _ _ _ _ pending | spends _ _ _ _ pending
    | overruns _ _ _ _ pending | enters _ _ _ _ _ _ _ _ _ _ _ pending
    | exceeds _ _ _ _ _ _ _ _ _ _ _ _ pending | leaves _ _ _ _ pending => exact same pending
  · have ended := step_of_ended host focus
    simp only [step, focus] at ended
    rcases ended with faulted | ⟨_, pending⟩
    · exact fun _ => .inr (.inr faulted)
    · exact same pending
  · intro waits
    cases (returnNative_returned host { config with pending := rest } run registers call
      value).1 with
    | faulted fault focus => exact .inr (.inr ⟨fault, focus⟩)
    | executes _ _ above | suspends _ _ above | stops _ _ _ _ above =>
      rw [above] at waits
      exact .inl (pending ▸ List.mem_cons_of_mem _ waits)
    | hooks _ _ _ asked _ above =>
      rw [above] at waits
      rcases List.mem_cons.1 waits with same | below
      · cases same
        exact .inr (.inl ⟨run.thread, asked⟩)
      · exact .inl (pending ▸ List.mem_cons_of_mem _ below)
  · cases stopped : next.run? with
    | none =>
      exact opens (.afterAbort stopped rfl) fun work below =>
        pending ▸ List.mem_cons_of_mem _ below
    | some run =>
      cases next with
      | stop run function pc reason =>
        exact fun waits => .inl (pending ▸ List.mem_cons_of_mem _ waits)
      | reply next | start id function purpose next => cases stopped

/-- A step requests no abort by a limit. -/
theorem Deliberate.step (deliberate : config.Deliberate) (nested : config.Nested) :
    (config.step host).Deliberate := by
  cases deliberate with
  | faulted fault focus =>
    rw [step_of_isFinal host (by simp [isFinal, focus])]
    exact .faulted fault focus
  | deliberate requests stops =>
    by_cases faulted : ∃ fault, (config.step host).focus = .faulted fault
    · obtain ⟨fault, focus⟩ := faulted
      exact .faulted fault focus
    · refine .deliberate (fun id reason requested => ?_) fun run function pc reason waits => ?_
      · rcases step_requests nested requested with before | asked | stopped
        · exact requests id reason before
        · exact asksAbort?_not_limit asked
        · exact absurd stopped faulted
      · rcases step_stops waits with before | ⟨id, asked⟩ | stopped
        · exact stops run function pc reason before
        · exact requests id reason asked
        · exact absurd stopped faulted

/-- In no reachable configuration has an abort by a limit been requested. -/
theorem deliberate_of_reachable {allowed : Request ν → Prop}
    (reached : config.Reachable host allowed) : config.Deliberate := by
  induction reached with
  | initial state body asks =>
    exact .deliberate (by simp [initial, Domain.abortRequest?, Domain.thread?])
      (by simp [initial])
  | again reached ended state body asks ih =>
    cases ih with
    | faulted fault focus =>
      rw [ended] at focus
      cases focus
    | deliberate requests stops => exact .deliberate requests (by simp [initial])
  | step reached ih => exact ih.step (nested_of_reachable reached)

/-- Where a run is aborted: at an instruction, when the native method answers that it has called, or
once the hook has ended that was called first. -/
inductive AbortsAt (config : Config ν σ) (run : Run ν σ) (info : AbortInfo) : Prop where
  | executes (before : Run ν σ) (registers : Registers ν)
    (focus : config.focus = .execute before registers)
  | answers (value : Int32) (before : Run ν σ) (registers : Registers ν) (call : NativeCall)
    (rest : List (Pending ν σ)) (focus : config.focus = .body (.done value))
    (pending : config.pending = .calling before registers call :: rest)
    (asked : config.world.domain.abortRequest? before.thread = some info.reason)
    (lasts : before.Lasts run)
  | stops (value : Int32) (before : Run ν σ) (function : Function ν) (pc : Nat)
    (rest : List (Pending ν σ)) (focus : config.focus = .body (.done value))
    (pending : config.pending = .aborting (.stop before function pc info.reason) :: rest)
    (lasts : before.Lasts run)

/-- No other step aborts a run. -/
theorem step_aborted {info : AbortInfo}
    (ended : (config.step host).focus = .ended run (.aborted info)) : config.AbortsAt run info := by
  let aborted (after : Config ν σ) : Prop :=
    after.focus = .ended run (.aborted info) → config.AbortsAt run info
  have other {after : Config ν σ} {focus : Focus ν σ} (here : after.focus = focus)
      (apart : focus ≠ .ended run (.aborted info)) : aborted after := fun ended =>
    absurd (here.symm.trans ended) apart
  refine @step_induction _ _ aborted host config {
    rests final := ?_
    enters before _ := ?_
    executes before registers focus := fun _ => .executes before registers focus
    ends before outcome focus := ?_
    asks request next _ := fun ended =>
      absurd ended ((Opens.perform rfl : Opens config.pending _).not_ended _)
    modifies _ _ _ := other rfl (by simp)
    crashes _ _ := other rfl (by simp)
    concludes _ _ _ := other rfl (by simp)
    answers value caller registers call rest focus pending := ?_
    goesOn value next rest focus pending := ?_ } ended
  · intro ended
    have nothing := run?_of_isFinal final
    rw [ended] at nothing
    cases nothing
  · cases (enterFrame_entered host config before).1 with
    | completes _ completed => exact other completed (by simp)
    | continues _ _ _ _ _ continued => exact other continued (by simp)
  · have ended := step_of_ended host focus
    simp only [Config.step, focus] at ended
    rcases ended with ⟨fault, faulted⟩ | ⟨answers, _⟩
    · exact other faulted (by simp)
    · exact other answers (by simp)
  · intro ended
    cases (returnNative_returned host { config with pending := rest } caller registers call
      value).1 with
    | stops last reason asked stopped _ lasts =>
      rw [ended] at stopped
      cases stopped
      exact .answers value caller registers call rest focus pending asked lasts
    | faulted _ here | executes _ here | suspends _ here | hooks _ _ _ _ here =>
      rw [ended] at here
      cases here
  · intro ended
    cases stopped : next.run? with
    | none =>
      exact absurd ended ((Opens.afterAbort stopped rfl : Opens rest _).not_ended _)
    | some last =>
      cases next with
      | stop last function pc reason =>
        cases ended
        exact .stops value last function pc rest focus pending ⟨rfl, rfl, rfl⟩
      | reply next | start id function purpose next => cases stopped

/-- A run ends by a limit only at an instruction. -/
theorem Deliberate.executes {info : AbortInfo} (deliberate : config.Deliberate)
    (ended : (config.step host).focus = .ended run (.aborted info))
    (limit : info.reason.isLimit = true) :
    ∃ before registers, config.focus = .execute before registers := by
  have quiet {focus : Focus ν σ} (here : config.focus = focus)
      (works : ∀ fault, focus ≠ .faulted fault) :
      (∀ id, config.world.domain.abortRequest? id ≠ some info.reason) ∧
        ∀ run function pc, .aborting (.stop run function pc info.reason) ∉ config.pending := by
    cases deliberate with
    | faulted fault faulted => exact absurd (here.symm.trans faulted) (works fault)
    | deliberate requests stops =>
      refine ⟨fun id asked => ?_, fun run function pc waits => ?_⟩
      · rw [requests id info.reason asked] at limit
        cases limit
      · rw [stops run function pc info.reason waits] at limit
        cases limit
  cases step_aborted ended with
  | executes before registers focus => exact ⟨before, registers, focus⟩
  | answers value before registers call rest focus pending asked =>
    exact absurd asked ((quiet focus (by simp)).1 before.thread)
  | stops value before function pc rest focus pending =>
    exact absurd (pending ▸ List.mem_cons_self) ((quiet focus (by simp)).2 before function pc)

end Config

end ScriptMachine

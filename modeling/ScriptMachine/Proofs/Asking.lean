import ScriptMachine.Proofs.Operations

/-!
# What is asked of the machine

All bodies that are carried out have been given to the machine by the host, and so has everything
that follows them. So if the host makes only allowed requests, then every body at hand does, and so
does every body that waits for a run, for a hook or for a native method.
-/

namespace ScriptMachine

variable {ν σ : Type} {allowed : Request ν → Prop}

/-- The body that has started the run makes only allowed requests. -/
def Run.Asks (allowed : Request ν → Prop) (run : Run ν σ) : Prop :=
  ∀ answer, (run.reply answer).Asks allowed

/-- What follows an abort makes only allowed requests. -/
def AfterAbort.Asks (allowed : Request ν → Prop) : AfterAbort ν σ → Prop
  | .reply next | .start _ _ _ next => ∀ answer, (next answer).Asks allowed
  | .stop run _ _ _ => run.Asks allowed

/-- Work that waits makes only allowed requests. -/
def Pending.Asks (allowed : Request ν → Prop) : Pending ν σ → Prop
  | .calling run _ _ => run.Asks allowed
  | .aborting next => next.Asks allowed

/-- The work at hand makes only allowed requests. -/
def Focus.Asks (allowed : Request ν → Prop) : Focus ν σ → Prop
  | .body work => work.Asks allowed
  | .enter run | .execute run _ | .ended run _ => run.Asks allowed
  | .finished _ | .faulted _ => True

/-- Where a frame is to be continued does not matter. -/
theorem Run.Asks.saveFrame {run : Run ν σ} (asks : run.Asks allowed) (pc top : Nat) :
    (run.saveFrame pc top).Asks allowed := by
  unfold Run.saveFrame
  split <;> exact asks

namespace Config

/-- All work of a configuration makes only allowed requests. -/
structure Asks (allowed : Request ν → Prop) (config : Config ν σ) : Prop where
  focus : config.focus.Asks allowed
  pending : ∀ work ∈ config.pending, work.Asks allowed

variable {host : Host ν σ} {config : Config ν σ}

namespace Asks

variable {run : Run ν σ} {registers : Registers ν} {next : Answer ν → Body ν σ}

/-- Going on with other work. -/
theorem goto (pending : ∀ work ∈ config.pending, work.Asks allowed) {focus : Focus ν σ}
    (asks : focus.Asks allowed) : (config.goto focus).Asks allowed := ⟨asks, pending⟩

/-- Stopping for a misuse. -/
theorem faulted (pending : ∀ work ∈ config.pending, work.Asks allowed) (fault : Fault) :
    (config.goto (.faulted fault)).Asks allowed := goto pending trivial

/-- Starting a run. -/
theorem launch (pending : ∀ work ∈ config.pending, work.Asks allowed) (id : ThreadId)
    (purpose : Purpose) (goes : ∀ answer, (next answer).Asks allowed) :
    (config.launch host id purpose next).Asks allowed := by
  refine attempt_induction (faulted pending) fun thread _ => ?_
  split
  · exact goto pending (goes _)
  · refine ⟨goes, ?_⟩
    dsimp only
    split <;> simpa using pending

/-- Ending a run. -/
theorem finishRun (pending : ∀ work ∈ config.pending, work.Asks allowed) (asks : run.Asks allowed)
    (outcome : Outcome) : (config.finishRun host run outcome).Asks allowed :=
  attempt_induction (faulted pending) fun _ _ => ⟨asks _, by simpa using pending⟩

/-- What follows an abort. -/
theorem afterAbort (pending : ∀ work ∈ config.pending, work.Asks allowed)
    {next : AfterAbort ν σ} (asks : next.Asks allowed) :
    (config.afterAbort host next).Asks allowed := by
  cases next with
  | reply next => exact goto pending (asks _)
  | stop run function pc reason => exact ⟨asks, pending⟩
  | start id function purpose next =>
    refine attempt_induction (faulted pending) fun thread _ => ?_
    split
    · exact goto pending (asks _)
    · cases purpose with
      | none => exact ⟨asks _, pending⟩
      | some purpose => exact launch (by exact pending) id purpose asks

/-- Detaching a thread. -/
theorem detach (hosted : host.Asks allowed) (pending : ∀ work ∈ config.pending, work.Asks allowed)
    (id : ThreadId) {next : AfterAbort ν σ} (asks : next.Asks allowed) :
    (config.detach host id next).Asks allowed := by
  refine attempt_induction (faulted pending) fun ⟨domain, hook⟩ _ => ?_
  dsimp only
  split
  · exact afterAbort (by exact pending) asks
  · exact afterAbort (by exact pending) asks
  · exact ⟨hosted.onAbort _ id, List.forall_mem_cons.2 ⟨asks, pending⟩⟩

/-- Aborting a thread. -/
theorem abort (hosted : host.Asks allowed) (pending : ∀ work ∈ config.pending, work.Asks allowed)
    (id : ThreadId) (reason : AbortReason) {next : AfterAbort ν σ} (asks : next.Asks allowed) :
    (config.abort host id reason next).Asks allowed :=
  attempt_induction (faulted pending) fun domain _ =>
    detach hosted (by exact pending) id asks

/-- Giving a thread a fresh frame. -/
theorem start (hosted : host.Asks allowed) (pending : ∀ work ∈ config.pending, work.Asks allowed)
    (id : ThreadId) (called : FunctionId) (purpose : Option Purpose)
    (goes : ∀ answer, (next answer).Asks allowed) :
    (config.start host id called purpose next).Asks allowed := by
  refine start_induction (faulted pending) (fun _ => goto pending (goes _))
    (fun _ _ _ => goto pending (goes _)) fun function _ _ _ _ _ => ?_
  have asks : (AfterAbort.start id function purpose next).Asks allowed := goes
  exact ⟨fun _ => abort hosted pending id .requested asks, fun _ _ => afterAbort pending asks⟩

/-- Letting a thread go on. -/
theorem continueThread (pending : ∀ work ∈ config.pending, work.Asks allowed) (id : ThreadId)
    (purpose : Purpose) (goes : ∀ answer, (next answer).Asks allowed) :
    (config.continueThread host id purpose next).Asks allowed := by
  refine attempt_induction (faulted pending) fun thread _ => ?_
  dsimp only
  split
  · exact ⟨goes _, pending⟩
  · exact launch (by exact pending) id purpose goes

/-- Carrying out a request. -/
theorem perform (hosted : host.Asks allowed) (pending : ∀ work ∈ config.pending, work.Asks allowed)
    (request : Request ν) (goes : ∀ answer, (next answer).Asks allowed) :
    (config.perform host request next).Asks allowed := by
  cases request with
  | observe => exact goto pending (goes _)
  | update update => exact attempt_induction (faulted pending) fun _ _ => ⟨goes _, pending⟩
  | start id function => exact start hosted pending id function none goes
  | run id function => exact start hosted pending id function (some .plain) goes
  | runInt id function => exact start hosted pending id function (some .result) goes
  | abort id => exact abort hosted pending id .requested goes
  | faultActive error =>
    unfold Config.perform
    dsimp only
    split
    · exact goto pending (goes _)
    · exact abort hosted pending _ (.badArgument error) goes
  | resume id =>
    exact resume_induction (faulted pending) (fun _ => goto pending (goes _)) fun _ _ _ _ _ =>
      continueThread pending id .plain goes
  | wake queue value =>
    exact wake_induction (faulted pending) (fun _ => goto pending (goes _))
      (fun _ _ _ _ _ => goto pending (goes _)) fun head _ domain _ _ _ _ _ =>
        ⟨faulted (by exact pending), fun _ _ => ⟨goes _, pending⟩, fun supplied _ =>
          continueThread (by exact pending) head .woken goes⟩

/-- Entering a frame. -/
theorem enterFrame (pending : ∀ work ∈ config.pending, work.Asks allowed)
    (asks : run.Asks allowed) : (config.enterFrame host run).Asks allowed := by
  unfold Config.enterFrame
  split
  · exact goto pending asks
  · split
    · exact goto pending asks
    · exact ⟨asks, by simpa using pending⟩

/-- Calling a native method. -/
theorem callNative (hosted : host.Asks allowed)
    (pending : ∀ work ∈ config.pending, work.Asks allowed) (asks : run.Asks allowed) (pc : Nat)
    (call : NativeCall) : (config.callNative host run registers pc call).Asks allowed := by
  unfold Config.callNative
  split
  · exact ⟨asks, pending⟩
  · dsimp only
    split
    · exact ⟨hosted.native _ _, by simpa using ⟨asks, pending⟩⟩
    · exact goto (by simpa using pending) trivial

/-- Going on after a native method. -/
theorem returnNative (hosted : host.Asks allowed)
    (pending : ∀ work ∈ config.pending, work.Asks allowed) (asks : run.Asks allowed)
    (call : NativeCall) (value : Int32) :
    (config.returnNative host run registers call value).Asks allowed := by
  refine returnNative_induction fun shown emitted => ?_
  replace pending : ∀ work ∈ shown.pending, work.Asks allowed := by
    rw [← emitted, emit_pending]
    exact pending
  refine ⟨faulted pending, fun stack thread _ _ =>
    ⟨fun reason _ => detach hosted (by exact pending) _ asks, fun _ _ => ?_,
      fun _ _ => goto pending asks⟩⟩
  have same : (run.setStack stack).Asks allowed := asks
  exact ⟨same.saveFrame registers.pc registers.sp, by simpa using pending⟩

/-- Calling a script function. -/
theorem callScript (pending : ∀ work ∈ config.pending, work.Asks allowed)
    (asks : run.Asks allowed) (pc : Nat) (result : ResultKind) (callee : FunctionId) (argc : Nat) :
    (config.callScript host run registers pc result callee argc).Asks allowed := by
  have saved := asks.saveFrame pc (registers.sp - argc + result.count)
  exact callScript_induction (faulted pending) (fun _ => ⟨asks, pending⟩)
    fun _ _ _ => ⟨fun _ _ _ => ⟨saved, pending⟩, fun _ => goto pending saved⟩

/-- Executing an instruction. -/
theorem execute (hosted : host.Asks allowed) (pending : ∀ work ∈ config.pending, work.Asks allowed)
    (asks : run.Asks allowed) : (config.execute host run registers).Asks allowed := by
  refine execute_induction ⟨asks, pending⟩ fun instruction pc shown _ emitted => ?_
  replace pending : ∀ work ∈ shown.pending, work.Asks allowed := by
    rw [← emitted, emit_pending]
    exact pending
  exact {
    stops := faulted pending
    aborts _ := ⟨asks, pending⟩
    goes _ _ _ _ := goto pending asks
    writes _ _ _ _ := ⟨asks, pending⟩
    native _ _ _ _ _ := callNative hosted pending asks _ _
    script _ _ _ _ := callScript pending asks _ _ _ _
    leaves _ _ _ := ⟨asks, by simpa [Config.leaveFrame] using pending⟩ }

/-- After a step, all work makes only allowed requests still. -/
theorem step (hosted : host.Asks allowed) (asks : config.Asks allowed) :
    (config.step host).Asks allowed := by
  have pending := asks.pending
  have work {focus : Focus ν σ} (found : config.focus = focus) : focus.Asks allowed :=
    found ▸ asks.focus
  refine step_induction {
    rests _ := asks
    enters _ found := enterFrame pending (work found)
    executes _ _ found := execute hosted pending (work found)
    ends _ _ found := finishRun pending (work found) _
    asks _ _ found := perform hosted pending _ (work found).2
    modifies _ _ found := ⟨work found _, pending⟩
    crashes _ _ := faulted pending _
    concludes _ _ _ := goto pending trivial
    answers _ run registers call rest _ waiting := ?_
    goesOn _ next rest _ waiting := ?_ }
  all_goals obtain ⟨asks, below⟩ := List.forall_mem_cons.1 (waiting ▸ pending)
  · exact returnNative hosted (by exact below) asks _ _
  · exact afterAbort (by exact below) asks

end Asks

/-- At the beginning, all work is the body that the host gives. -/
theorem asks_initial {world : World ν} {state : σ} {body : Body ν σ} (asks : body.Asks allowed) :
    (initial world state body).Asks allowed := ⟨asks, by simp [initial]⟩

/-- After any number of steps, all work makes only allowed requests still. -/
theorem Asks.run (hosted : host.Asks allowed) (asks : config.Asks allowed) (steps : Nat) :
    (config.run host steps).Asks allowed := by
  induction steps with
  | zero => exact asks
  | succ steps ih =>
    rw [run_succ_last]
    exact ih.step hosted

end Config

end ScriptMachine

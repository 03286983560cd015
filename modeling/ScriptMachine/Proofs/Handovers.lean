import ScriptMachine.Proofs.Nesting

/-!
# The run that a step hands over

A step of a run hands over a run of the same thread, or none. So does the end of the hook of an
abort for the run that it made room for or stops, and a request hands over a run of the thread that
it names or wakes. A run that is handed over as aborted has no frames left.
-/

namespace ScriptMachine

variable {ν σ : Type}

/-- The thread of the run that begins or stops once the hook of an abort has ended. -/
def AfterAbort.thread? : AfterAbort ν σ → Option ThreadId
  | .reply _ => none
  | .start id _ launch _ => launch.map fun _ => id
  | .stop run _ _ _ => some run.thread

namespace Config

variable {host : Host ν σ} {config : Config ν σ} {id : Option ThreadId} {run : Run ν σ}

/-- No run is at hand when the machine has come to an end. -/
theorem run?_of_isFinal (final : config.isFinal = true) : config.focus.run? = none := by
  unfold isFinal at final
  split at final
  · rename_i found
    rw [found]
    rfl
  · rename_i found
    rw [found]
    rfl
  · cases final

/-- If a run is at hand, it is one of the given thread, and if it has been aborted, it has no frames
left. -/
structure Hands (id : Option ThreadId) (config : Config ν σ) : Prop where
  thread : ∀ run, config.focus.run? = some run → id = some run.thread
  bare : ∀ run info, config.focus = .ended run (.aborted info) → run.execution.frames = []

namespace Hands

/-- Without a run at hand nothing is claimed. -/
theorem of_none (nothing : config.focus.run? = none) : config.Hands id := by
  constructor
  · intro run handed
    rw [nothing] at handed
    cases handed
  · intro run info ended
    rw [ended] at nothing
    cases nothing

/-- A run that is at hand and has not been aborted. -/
theorem of_run {thread : ThreadId} (handed : config.focus.run? = some run)
    (same : run.thread = thread)
    (unaborted : ∀ other info, config.focus ≠ .ended other (.aborted info)) :
    config.Hands (some thread) := by
  constructor
  · intro other again
    rw [handed] at again
    cases again
    rw [same]
  · intro other info ended
    exact absurd ended (unaborted other info)

/-- Stopping for a misuse. -/
theorem faulted (config : Config ν σ) (fault : Fault) : (config.goto (.faulted fault)).Hands id :=
  of_none rfl

/-- A thread that begins to run. -/
theorem launch (thread : ThreadId) (purpose : Purpose) (next : Answer ν → Body ν σ) :
    (config.launch host thread purpose next).Hands (some thread) := by
  refine attempt_induction (faulted config) fun found _ => ?_
  split
  · exact of_none rfl
  · exact of_run rfl rfl (by simp)

/-- A run that is aborted. -/
theorem abortRun (function : Function ν) (pc : Nat) (reason : AbortReason) :
    (config.abortRun host run function pc reason).Hands (some run.thread) := by
  constructor
  · intro other handed
    cases handed
    rfl
  · intro other info ended
    cases ended
    rfl

/-- What follows an abort. -/
theorem afterAbort (next : AfterAbort ν σ) :
    (config.afterAbort host next).Hands next.thread? := by
  cases next with
  | reply next => exact of_none rfl
  | stop run function pc reason => exact abortRun ..
  | start thread function purpose next =>
    refine attempt_induction (faulted config) fun found _ => ?_
    split
    · exact of_none rfl
    · cases purpose with
      | none => exact of_none rfl
      | some purpose => exact launch thread purpose next

/-- A thread that is detached. -/
theorem detach (thread : ThreadId) (next : AfterAbort ν σ) :
    (config.detach host thread next).Hands next.thread? := by
  refine attempt_induction (faulted config) fun ⟨domain, hook⟩ _ => ?_
  dsimp only
  split
  · exact afterAbort next
  · exact afterAbort next
  · exact of_none rfl

/-- A thread that is aborted. -/
theorem abort (thread : ThreadId) (reason : AbortReason) (next : AfterAbort ν σ) :
    (config.abort host thread reason next).Hands next.thread? :=
  attempt_induction (faulted config) fun _ _ => detach thread next

/-- A thread that goes on. -/
theorem continueThread (thread : ThreadId) (purpose : Purpose) (next : Answer ν → Body ν σ) :
    (config.continueThread host thread purpose next).Hands (some thread) := by
  refine attempt_induction (faulted config) fun found _ => ?_
  dsimp only
  split
  · exact of_none rfl
  · exact launch thread purpose next

/-- A thread that is given a fresh frame. -/
theorem start (thread : ThreadId) (function : FunctionId) (purpose : Option Purpose)
    (next : Answer ν → Body ν σ) :
    (config.start host thread function purpose next).Hands (purpose.map fun _ => thread) := by
  refine start_induction (faulted config) (fun _ => of_none rfl) (fun _ _ _ => of_none rfl)
    fun registered _ _ _ _ _ => ?_
  let after : AfterAbort ν σ := .start thread registered purpose next
  exact ⟨fun _ => abort thread .requested after, fun _ _ => afterAbort after⟩

/-- A thread that the host resumes. -/
theorem resume (thread : ThreadId) (next : Answer ν → Body ν σ) :
    (config.resume host thread next).Hands (some thread) :=
  resume_induction (faulted config) (fun _ => of_none rfl) fun _ _ _ _ _ =>
    continueThread thread .plain next

/-- A thread that is woken through its queue. -/
theorem wake (queue : QueueId) (value : Option Int32) (next : Answer ν → Body ν σ) :
    ∃ id, (config.wake host queue value next).Hands id := by
  have stopped {config : Config ν σ} (fault : Fault) :
      ∃ id, (config.goto (.faulted fault)).Hands id := ⟨none, faulted config fault⟩
  refine @wake_induction _ _ (fun after => ∃ id, after.Hands id) _ _ _ _ _ stopped
    (fun _ => ⟨none, of_none rfl⟩) (fun _ _ _ _ _ => ⟨none, of_none rfl⟩)
    fun head _ domain _ _ _ _ _ => ?_
  exact ⟨stopped, fun _ _ => ⟨none, of_none rfl⟩, fun supplied _ =>
    ⟨some head, continueThread head .woken next⟩⟩

/-- A request that is carried out. -/
theorem perform (request : Request ν) (next : Answer ν → Body ν σ) :
    ∃ id, (config.perform host request next).Hands id := by
  cases request with
  | observe => exact ⟨none, of_none rfl⟩
  | update update =>
    exact ⟨none, attempt_induction (faulted config) fun _ _ => of_none rfl⟩
  | start id function => exact ⟨_, start id function none next⟩
  | run id function => exact ⟨_, start id function (some .plain) next⟩
  | runInt id function => exact ⟨_, start id function (some .result) next⟩
  | resume id => exact ⟨_, resume id next⟩
  | abort id => exact ⟨_, abort id .requested (.reply next)⟩
  | faultActive error =>
    unfold Config.perform
    dsimp only
    split
    · exact ⟨none, of_none rfl⟩
    · exact ⟨_, abort _ (.badArgument error) (.reply next)⟩
  | wake queue value => exact wake queue value next

/-- A frame that is entered. -/
theorem enterFrame (run : Run ν σ) : (config.enterFrame host run).Hands (some run.thread) := by
  unfold Config.enterFrame
  split
  · exact of_run rfl rfl (by simp)
  · split
    · exact of_run rfl rfl (by simp)
    · exact of_run rfl rfl (by simp)

/-- A native method that is called. -/
theorem callNative (run : Run ν σ) (registers : Registers ν) (next : Nat) (call : NativeCall) :
    (config.callNative host run registers next call).Hands (some run.thread) := by
  unfold Config.callNative
  split
  · exact abortRun ..
  · dsimp only
    split
    · exact of_none rfl
    · exact faulted _ _

/-- A script function that is called. -/
theorem callScript (run : Run ν σ) (registers : Registers ν) (next : Nat) (result : ResultKind)
    (callee : FunctionId) (argc : Nat) :
    (config.callScript host run registers next result callee argc).Hands (some run.thread) := by
  have same := run.thread_saveFrame next (registers.sp - argc + result.count)
  refine callScript_induction (faulted config) (fun _ => abortRun ..)
    fun function _ _ => ⟨fun stack _ _ => ?_, fun _ => of_run rfl same (by simp)⟩
  rw [← same]
  exact @abortRun _ _ host config (Run.setStack _ stack) _ _ _

/-- An instruction that is executed. -/
theorem execute (run : Run ν σ) (registers : Registers ν) :
    (config.execute host run registers).Hands (some run.thread) :=
  execute_induction (abortRun ..) fun _ _ shown _ _ => {
    stops := faulted shown
    aborts _ := abortRun ..
    goes _ _ _ _ := of_run rfl rfl (by simp)
    writes _ _ _ _ := of_run rfl rfl (by simp)
    native _ _ _ _ _ := callNative ..
    script _ _ _ _ := callScript ..
    leaves _ _ _ := of_run rfl rfl (by simp [leaveFrame]) }

/-- A native method that answers. -/
theorem returnNative (run : Run ν σ) (registers : Registers ν) (call : NativeCall)
    (value : Int32) :
    (config.returnNative host run registers call value).Hands (some run.thread) :=
  returnNative_induction fun shown _ => ⟨faulted shown, fun stack _ _ _ =>
    ⟨fun reason _ =>
      detach run.thread (.stop (run.setStack stack) registers.function call.pc reason),
    fun _ _ => of_run rfl ((run.setStack stack).thread_saveFrame ..) (by simp),
    fun _ _ => of_run rfl rfl (by simp)⟩⟩

/-- A step of a run. -/
theorem step_run (focus : config.focus.run? = some run) :
    (config.step host).Hands (some run.thread) := by
  unfold Config.step
  split
  all_goals rename_i found; rw [found] at focus; try cases focus
  · exact enterFrame run
  · exact execute run _
  · exact attempt_induction (faulted config) fun _ _ => of_none rfl

/-- Every step. -/
theorem step (host : Host ν σ) (config : Config ν σ) : ∃ id, (config.step host).Hands id :=
  @step_induction _ _ (fun after => ∃ id, after.Hands id) host config {
    rests final := ⟨none, of_none (run?_of_isFinal final)⟩
    enters run _ := ⟨_, enterFrame run⟩
    executes run registers _ := ⟨_, execute run registers⟩
    ends _ _ _ := ⟨none, attempt_induction (faulted config) fun _ _ => of_none rfl⟩
    asks request next _ := perform request next
    modifies _ _ _ := ⟨none, of_none rfl⟩
    crashes _ _ := ⟨none, of_none rfl⟩
    concludes _ _ _ := ⟨none, of_none rfl⟩
    answers _ run registers call _ _ _ := ⟨_, returnNative run registers call _⟩
    goesOn _ next _ _ _ := ⟨_, afterAbort next⟩ }

end Hands

end Config

end ScriptMachine

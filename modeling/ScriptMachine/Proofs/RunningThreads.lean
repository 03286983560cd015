import ScriptMachine.Proofs.FreshStarts

/-!
# Threads that run

A thread runs at most once at a time. The threads whose frames have been taken out of the domain are
those of the runs in progress, however deep these are nested in native methods and hooks, and the
active thread is that of the innermost one. So nothing that would run a thread a second time, or
give it a frame while it runs, is carried out, and a body that goes on after a request finds the
same runs in progress as when it made the request, however the runs have ended that the request has
started.
-/

namespace ScriptMachine

variable {ν σ : Type}

/-- The request gives this thread a frame of a registered function, or continues it. -/
inductive Request.Activates (domain : Domain ν) (id : ThreadId) : Request ν → Prop where
  | start {called : FunctionId} {function : Function ν}
    (registered : domain.function? called = some function) : Activates domain id (.start id called)
  | run {called : FunctionId} {function : Function ν}
    (registered : domain.function? called = some function) : Activates domain id (.run id called)
  | runInt {called : FunctionId} {function : Function ν}
    (registered : domain.function? called = some function) : Activates domain id (.runInt id called)
  | resume : Activates domain id (.resume id)
  /-- The thread is the one that waits longest in the queue. -/
  | wake {queue : QueueId} {value : Option Int32}
    (first : (domain.waitersOf queue).head? = some id) : Activates domain id (.wake queue value)

/-- The active thread is that of the innermost place. -/
theorem Chained.active {active : Option ThreadId} {places : List Place}
    (chained : Chained active places) : active = (places.map Place.thread).head? := by
  cases places with
  | nil => exact chained
  | cons place places => exact chained.1

namespace Config

/-- The runs in progress, the innermost first: the one at hand, and those that wait for a native
method, or for the hook of an abort that will stop them. -/
def runs (config : Config ν σ) : List (Run ν σ) :=
  config.focus.run?.toList ++ config.pending.filterMap Pending.run?

/-- The threads of the runs in progress, the innermost first. -/
def runningThreads (config : Config ν σ) : List ThreadId := config.runs.map Run.thread

/-- The runs in progress are nested: they have distinct threads, which are the threads whose frames
are not in the domain, and the active thread is that of the innermost run. An abort is requested
only of such a thread. -/
structure Disciplined (config : Config ν σ) : Prop where
  distinct : config.runningThreads.Nodup
  active : config.world.domain.active = config.runningThreads.head?
  taken : ∀ id, id ∈ config.runningThreads ↔
    ∃ thread, config.world.domain.thread? id = some thread ∧ thread.execution = none
  requested : ∀ id thread reason, config.world.domain.thread? id = some thread →
    thread.pendingAbort = some reason → id ∈ config.runningThreads

variable {host : Host ν σ} {config : Config ν σ} {next : Answer ν → Body ν σ}

/-- The threads of the runs in progress are those of their places. -/
theorem runningThreads_eq (config : Config ν σ) :
    config.runningThreads = (config.focus.place?.toList ++
      config.pending.filterMap Pending.place?).map Place.thread := by
  have waiting : config.pending.filterMap Pending.place? =
      (config.pending.filterMap Pending.run?).map Run.place := by
    rw [List.map_filterMap]
    rfl
  have atHand : config.focus.place?.toList = config.focus.run?.toList.map Run.place := by
    unfold Focus.place?
    cases config.focus.run? <;> rfl
  rw [waiting, atHand, ← List.map_append, List.map_map]
  rfl

/-- While a body is at hand, the runs in progress are those that wait. -/
theorem runningThreads_body {body : Body ν σ} (focus : config.focus = .body body) :
    config.runningThreads = (config.pending.filterMap Pending.run?).map Run.thread := by
  simp [runningThreads, runs, focus, Focus.run?]

/-- A machine that works is disciplined if its runs are nested. -/
theorem Nested.disciplined (nested : config.Nested)
    (works : ∀ fault, config.focus ≠ .faulted fault) : config.Disciplined := by
  rcases nested with ⟨fault, faulted⟩ | ⟨nests, _⟩
  · exact absurd faulted (works fault)
  · have threads := runningThreads_eq config
    refine ⟨?_, ?_, fun id => ?_, fun id thread reason present asked => ?_⟩
    · rw [threads]
      exact nests.domain.distinct
    · rw [threads]
      exact nests.domain.chained.active
    · rw [threads]
      exact nests.domain.running id
    · rw [threads]
      exact (nests.domain.running id).2
        ⟨thread, present, (nests.domain.requested id thread reason present asked).1⟩

/-- A thread that runs is not activated a second time: the request is refused, and nothing else
happens. -/
theorem perform_refused {request : Request ν} {id : ThreadId} {thread : Thread ν}
    (activates : request.Activates config.world.domain id)
    (present : config.world.domain.thread? id = some thread) (taken : thread.execution = none) :
    config.perform host request next =
      config.goto (.body (next (.refused (.thread .running)))) := by
  have found := Domain.thread_eq_ok.2 present
  have running : thread.isRunning = true := by simp [Thread.isRunning, taken]
  cases activates with
  | start registered => exact start_refused none registered present taken
  | run registered => exact start_refused (some .plain) registered present taken
  | runInt registered => exact start_refused (some .result) registered present taken
  | resume => simp only [perform, Config.resume, found, attempt_ok, running, ↓reduceIte]
  | @wake queue value first =>
    have existing := Domain.queue_exists_of_mem (List.mem_of_mem_head? first)
    have looked : config.world.domain.nextWaiter? queue = .ok (some id) :=
      bind_eq_ok.2 ⟨_, Domain.waiters_eq_ok.2 ⟨existing, rfl⟩, congrArg Except.ok first⟩
    simp only [perform, Config.wake, looked, found, attempt_ok, running, ↓reduceIte]

/-- A body goes on above the work that waited when it made its request. -/
theorem GoesOn.pending {request : Request ν} {steps : Nat} {body : Body ν σ}
    (goesOn : config.GoesOn host steps body) (asks : config.focus = .body (.ask request next)) :
    (config.run host steps).pending = config.pending := by
  rcases run_ask asks steps with ⟨middle, answer, started, upTo, focus, pending, _⟩ | owing |
    ⟨fault, faulted⟩
  · obtain ⟨rfl, _⟩ := goesOn.arrives started upTo focus pending
    exact pending
  · have inside := (owing steps goesOn.started (Nat.le_refl _)).inside goesOn.focus
    rw [goesOn.level] at inside
    exact absurd inside (Nat.lt_irrefl _)
  · exact absurd faulted (goesOn.works (Nat.le_refl _) fault)

/-- Wherever the machine is, its runs are nested. A request that would activate a thread that runs
is refused for this reason, and changes nothing. Whatever a request has started and however this has
ended, the body that goes on finds the runs in progress and the active thread as they were when it
made the request. -/
theorem threads_run_once {allowed : Request ν → Prop} (reached : config.Reachable host allowed)
    (works : ∀ fault, config.focus ≠ .faulted fault) :
    config.Disciplined ∧
      ∀ request next, config.focus = .body (.ask request next) →
        (∀ id ∈ config.runningThreads, request.Activates config.world.domain id →
          config.step host = config.goto (.body (next (.refused (.thread .running))))) ∧
        ∀ steps body, config.GoesOn host steps body →
          (config.run host steps).world.domain.active = config.world.domain.active ∧
          (config.run host steps).runningThreads = config.runningThreads := by
  have disciplined := (nested_of_reachable reached).disciplined works
  refine ⟨disciplined, fun request next asks => ⟨fun id runs activates => ?_,
    fun steps body goesOn => ?_⟩⟩
  · obtain ⟨thread, present, taken⟩ := (disciplined.taken id).1 runs
    have made : config.step host = config.perform host request next := by simp only [step, asks]
    rw [made]
    exact perform_refused activates present taken
  · have threads : (config.run host steps).runningThreads = config.runningThreads := by
      rw [runningThreads_body goesOn.focus, runningThreads_body asks, goesOn.pending asks]
    have later := (nested_of_reachable (reached.run steps)).disciplined
      (goesOn.works (Nat.le_refl steps))
    exact ⟨by rw [later.active, disciplined.active, threads], threads⟩

/-- A function that calls its native method without arguments. -/
def visiting : Definition Unit where
  name := "visiting"
  code := #[0x29, 0, 0, 0x2D]
  methods := #[()]

/-- The function is run on the first of two threads. -/
def runningVisitor : Program Unit Unit Int32 := do
  let _ ← Program.update (.addFunction (.trusted visiting 0))
  let _ ← Program.update .createThread
  let _ ← Program.update .createThread
  let _ ← Program.request (.run ⟨0⟩ ⟨0⟩)
  return 0

/-- A host whose native methods run the function on the second thread. -/
def visitingHost : Host Unit Unit where
  native _ _ := .ask (.run ⟨1⟩ ⟨0⟩) fun _ => .done 0
  onAbort _ _ := .done 0
  onLimit _ _ state := state
  onEvent _ _ state := state

/-- The native method of the first thread runs the second thread, whose own native method is refused
to run it once more. When the run of the second thread has ended, the first thread is active
again. -/
theorem threads_run_once_visited :
    let configs := fun steps => (Config.initial {} () runningVisitor).run visitingHost steps
    (configs 9).runningThreads = [⟨1⟩, ⟨0⟩] ∧
      (configs 9).step visitingHost = (configs 9).goto (.body (.done 0)) ∧
      (configs 6).GoesOn visitingHost 8 (.done 0) ∧
      (configs 14).world.domain.active = some ⟨0⟩ := by
  intro configs
  have reached (steps : Nat) : (configs steps).Reachable visitingHost (fun _ => True) :=
    .run (.initial () runningVisitor (Program.asks_of_forall (fun _ => trivial) _)) steps
  have inner : (configs 9).focus = .body (.ask (.run ⟨1⟩ ⟨0⟩) fun _ => .done 0) := by rfl
  have outer : (configs 6).focus = .body (.ask (.run ⟨1⟩ ⟨0⟩) fun _ => .done 0) := by rfl
  have goesOn : (configs 6).GoesOn visitingHost 8 (.done 0) :=
    .of_speaks (by decide) (answered?_eq_some.1 (by decide +kernel)) (by decide +kernel)
      (by decide +kernel)
  have running : (configs 9).runningThreads = [⟨1⟩, ⟨0⟩] := by decide +kernel
  refine ⟨running, ?_, goesOn, ?_⟩
  · have registered : (configs 9).world.domain.function? ⟨0⟩ = some (.trusted visiting 0) := rfl
    exact ((threads_run_once (reached 9) (by simp [inner])).2 _ _ inner).1 ⟨1⟩ (by simp [running])
      (.run registered)
  · have same := ((threads_run_once (reached 6) (by simp [outer])).2 _ _ outer).2 8 _ goesOn
    have before : (configs 6).world.domain.active = some ⟨0⟩ := by decide +kernel
    rw [← before, ← same.1, ← run_add]

end Config

end ScriptMachine

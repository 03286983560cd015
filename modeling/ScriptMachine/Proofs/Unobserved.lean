import ScriptMachine.Proofs.Stopping
import ScriptMachine.Proofs.Synchrony

/-!
# Pauses go unobserved

Pausing and answering at once cannot be told apart when a function is run on a thread of a world
that a host has left behind. The start of the run is the same in both cases: the thread may have to
be aborted first, which takes it out of its queue and calls its hook, and is at rest afterwards.
From there the two machines are in lockstep.
-/

namespace ScriptMachine

variable {ν σ : Type}

/-- The thread does not wait, no abort of it is asked for, and the queues of all pauses are
empty. -/
structure Domain.Rests (domain : Domain ν) (schedule : Nat → Option Pause) (id : ThreadId)
    (thread : Thread ν) : Prop where
  present : domain.thread? id = some thread
  suspended : thread.suspended = false
  waitingOn : thread.waitingOn = none
  hook : thread.hook = none
  pendingAbort : thread.pendingAbort = none
  queues : ∀ number pause queue, schedule number = some pause → pause.queue = some queue →
    domain.waiters queue = .ok []

namespace Domain

variable {domain next : Domain ν} {schedule : Nat → Option Pause} {id : ThreadId}
  {thread : Thread ν}

/-- What a thread at rest executes makes no difference. -/
theorem Rests.setExecution (rests : domain.Rests schedule id thread)
    (execution : Option (Execution ν)) :
    (domain.setThread id { thread with execution }).Rests schedule id
      { thread with execution } where
  present := by rw [thread?_setThread rests.present, if_pos rfl]
  suspended := rests.suspended
  waitingOn := rests.waitingOn
  hook := rests.hook
  pendingAbort := rests.pendingAbort
  queues := rests.queues

/-- A thread at rest runs once its frames are taken. -/
theorem Rests.runs (rests : domain.Rests schedule id thread) :
    Runs { domain.setThread id { thread with execution := none } with active := some id } schedule
      id { thread with execution := none } where
  active := rfl
  present := (rests.setExecution none).present
  execution := rfl
  suspended := rests.suspended
  waitingOn := rests.waitingOn
  hook := rests.hook
  pendingAbort := rests.pendingAbort
  queues := rests.queues

/-- No abort is asked for of a thread that does not run. -/
theorem Nested.unharmed {places : List Place} (nested : domain.Nested places)
    (present : domain.thread? id = some thread) {execution : Execution ν}
    (held : thread.execution = some execution) : thread.pendingAbort = none := by
  cases asked : thread.pendingAbort with
  | none => rfl
  | some reason =>
    have running := (nested.requested id thread reason present asked).1
    rw [held] at running
    cases running

/-- A thread that neither runs nor is suspended is at rest. -/
theorem Linked.rests {places : List Place} (linked : domain.Linked) (nested : domain.Nested places)
    (present : domain.thread? id = some thread) {execution : Execution ν}
    (held : thread.execution = some execution) (awake : thread.suspended = false)
    (queues : ∀ number pause queue, schedule number = some pause → pause.queue = some queue →
      domain.waiters queue = .ok []) : domain.Rests schedule id thread := by
  have free : ¬(thread.waitingOn.isSome ∨ thread.hook.isSome) := by
    intro waits
    have asleep := linked.suspended id thread present waits
    rw [awake] at asleep
    cases asleep
  exact {
    present
    suspended := awake
    waitingOn := by simpa using fun waits => free (.inl waits)
    hook := by simpa using fun armed => free (.inr armed)
    pendingAbort := nested.unharmed present held
    queues }

/-- The frames of a thread that does not run are discarded. -/
theorem discard_held (present : domain.thread? id = some thread) {execution : Execution ν}
    (held : thread.execution = some execution) (reason : AbortReason) :
    domain.discard id reason = .ok (domain.setThread id
      { thread with execution := some { execution with frames := [] } }) := by
  have looked := thread_eq_ok.2 present
  simp only [discard, looked, bind, Except.bind, held]
  rfl

/-- An empty queue stays empty when a thread is detached. -/
theorem waiters_detach {hook : Option (AbortHook ν)} {queue : QueueId}
    (done : domain.detach id = .ok (next, hook)) (empty : domain.waiters queue = .ok []) :
    next.waiters queue = .ok [] := by
  obtain ⟨thread, looked, changed⟩ := bind_eq_ok.1 done
  have kept : (domain.setThread id { thread with
    suspended := false, waitingOn := none, hook := none }).waiters queue = .ok [] := empty
  cases recorded : thread.waitingOn with
  | none =>
    rw [recorded] at changed
    cases changed
    exact kept
  | some left =>
    rw [recorded] at changed
    obtain ⟨middle, unlinked, handed⟩ := bind_eq_ok.1 changed
    cases handed
    obtain ⟨ids, found, made⟩ := bind_eq_ok.1 unlinked
    cases made
    obtain ⟨inside, waiting⟩ := waiters_eq_ok.1 found
    obtain ⟨room, nobody⟩ := waiters_eq_ok.1 kept
    rw [waiters_eq_ok, queues_size_setWaiters, waitersOf_setWaiters inside]
    refine ⟨room, ?_⟩
    by_cases same : queue = left
    · rw [if_pos same, ← waiting, ← same, nobody]
      rfl
    · rw [if_neg same]
      exact nobody

/-- A thread that has been detached is at rest. -/
theorem rests_detach {hook : Option (AbortHook ν)} (present : domain.thread? id = some thread)
    (unharmed : thread.pendingAbort = none)
    (queues : ∀ number pause queue, schedule number = some pause → pause.queue = some queue →
      domain.waiters queue = .ok [])
    (done : domain.detach id = .ok (next, hook)) :
    next.Rests schedule id { thread with suspended := false, waitingOn := none, hook := none } := by
  obtain ⟨found, there, _, threads, _⟩ := detach_eq_ok done
  have same : found = thread := Option.some.inj (there.symm.trans present)
  rw [same] at threads
  exact {
    present := by rw [threads, if_pos rfl]
    suspended := rfl
    waitingOn := rfl
    hook := rfl
    pendingAbort := unharmed
    queues := fun number pause queue scheduled queued =>
      waiters_detach done (queues number pause queue scheduled queued) }

end Domain

namespace Config

section

variable {environment : Environment ν} {schedule : Nat → Option Pause} {id : ThreadId}
  {rounds steps : Nat} {config : Config ν (Transcript ν)} {thread : Thread ν}
  {function : Function ν} {before after : Focus ν (Transcript ν)}

/-- Both machines come to an end at once if the thread is refused. -/
theorem keepsUp_refused (alone : config.pending = []) {answer : Answer ν}
    (awake : answer.outcome? ≠ some .suspended) :
    KeepsUp environment schedule steps (config.goto (.body (Program.settle id 0 answer)))
      (config.goto (.body (Program.settle id rounds answer))) := by
  rw [Program.settle_awake awake, Program.settle_awake awake]
  exact .of_end (passes_conclude alone answer) (passes_conclude alone answer) rfl

/-- Both machines run a thread at rest. -/
theorem keepsUp_launch (rests : config.world.domain.Rests schedule id thread)
    {execution : Execution ν} (held : thread.execution = some execution)
    (alone : config.pending = []) (owed : config.state.owed = none) (patient : steps ≤ rounds) :
    KeepsUp environment schedule steps
      ((config.goto before).launch (environment.host fun _ => none) id .plain (Program.settle id 0))
      ((config.goto after).launch (environment.host schedule) id .plain
        (Program.settle id rounds)) := by
  let running := config.setDomain { config.world.domain.setThread id { thread with
    execution := none } with active := some id }
  let first : Run ν (Transcript ν) := {
    thread := id
    previous := config.world.domain.active
    execution
    purpose := .plain
    reply := Program.settle id 0
    budget := config.world.domain.limits.loopBudget }
  let second : Run ν (Transcript ν) := { first with reply := Program.settle id rounds }
  have runs : first.Twins id rounds config.world.domain.limits.loopBudget second :=
    ⟨⟨rfl, rfl⟩, rfl, rfl, Nat.le_refl _, Nat.le_refl _, rfl, rfl⟩
  have twins : running.Twins schedule id rounds (.enter first) (.enter second) :=
    ⟨alone, owed, ⟨_, rests.runs⟩, .enter runs rfl⟩
  have together : Together schedule id rounds (running.goto (.enter first))
    (running.goto (.enter second)) := ⟨running, _, _, rfl, rfl, twins⟩
  have launched := @launch_host _ environment (fun _ => none) (config.goto before) id thread
    execution rests.present held .plain (Program.settle id 0)
  have launched' := @launch_host _ environment schedule (config.goto after) id thread execution
    rests.present held .plain (Program.settle id rounds)
  rw [launched, launched']
  exact together.keepsUp patient

/-- Both machines start the function on a thread at rest. -/
theorem keepsUp_afterAbort (rests : config.world.domain.Rests schedule id thread)
    (alone : config.pending = []) (owed : config.state.owed = none) (patient : steps ≤ rounds) :
    KeepsUp environment schedule steps
      ((config.goto before).afterAbort (environment.host fun _ => none)
        (.start id function (some .plain) (Program.settle id 0)))
      ((config.goto after).afterAbort (environment.host schedule)
        (.start id function (some .plain) (Program.settle id rounds))) := by
  have looked := Domain.thread_eq_ok.2 rests.present
  unfold afterAbort
  dsimp only
  rw [goto_world, goto_world, looked, attempt_ok, attempt_ok]
  cases held : thread.execution with
  | none => exact keepsUp_refused alone (by simp [Answer.outcome?])
  | some execution =>
    let frame : Frame ν := { function, base := 0, top := 0 }
    let ready := config.setDomain (config.world.domain.setThread id { thread with
      execution := some { execution with frames := frame :: execution.frames } })
    have rests' := rests.setExecution (some { execution with frames := frame :: execution.frames })
    dsimp only
    exact @keepsUp_launch _ environment schedule id rounds steps ready _ before after
      rests' _ rfl alone owed patient

/-- What both machines do after an abort they do after a detachment. -/
theorem keepsUp_detach (present : config.world.domain.thread? id = some thread)
    (unharmed : thread.pendingAbort = none)
    (queues : ∀ number pause queue, schedule number = some pause → pause.queue = some queue →
      config.world.domain.waiters queue = .ok [])
    (alone : config.pending = []) (owed : config.state.owed = none) (patient : steps ≤ rounds) :
    KeepsUp environment schedule steps
      ((config.goto before).detach (environment.host fun _ => none) id
        (.start id function (some .plain) (Program.settle id 0)))
      ((config.goto after).detach (environment.host schedule) id
        (.start id function (some .plain) (Program.settle id rounds))) := by
  unfold detach
  rw [goto_world, goto_world]
  cases done : config.world.domain.detach id with
  | error fault => exact .of_faulted rfl
  | ok detached =>
    obtain ⟨domain, hook⟩ := detached
    have rests := Domain.rests_detach present unharmed queues done
    rw [attempt_ok, attempt_ok]
    cases hook with
    | none =>
      exact @keepsUp_afterAbort _ environment schedule id rounds steps (config.setDomain domain) _
        function before after rests alone owed patient
    | some hook =>
      cases hook with
      | leaveSleep =>
        let awake : Config ν (Transcript ν) := { config with
          world := ⟨domain, config.world.sleepers.remove id, config.world.natives⟩ }
        exact @keepsUp_afterAbort _ environment schedule id rounds steps awake _ function
          before after rests alone owed patient
      | custom reference =>
        refine .of_step rfl fun fewer less => ?_
        let called : Config ν (Transcript ν) :=
          (config.setDomain domain).goto (.body (.done 0))
        have enough : fewer ≤ rounds := by omega
        exact @keepsUp_afterAbort _ environment schedule id rounds fewer called _ function
          (.body (.done 0)) (.body (.done 0)) rests alone owed enough

/-- Both machines start a function on a thread while no run is in progress. -/
theorem keepsUp_start (nested : config.world.domain.Nested []) (linked : config.world.domain.Linked)
    (queues : ∀ number pause queue, schedule number = some pause → pause.queue = some queue →
      config.world.domain.waiters queue = .ok [])
    (alone : config.pending = []) (owed : config.state.owed = none) (patient : steps ≤ rounds)
    (callee : FunctionId) :
    KeepsUp environment schedule steps
      ((config.goto before).start (environment.host fun _ => none) id callee (some .plain)
        (Program.settle id 0))
      ((config.goto after).start (environment.host schedule) id callee (some .plain)
        (Program.settle id rounds)) := by
  unfold start
  rw [goto_world, goto_world]
  cases config.world.domain.function? callee with
  | none => exact keepsUp_refused alone (by simp [Answer.outcome?])
  | some function =>
    cases looked : config.world.domain.thread id with
    | error fault => exact .of_faulted rfl
    | ok thread =>
      have present := Domain.thread_eq_ok.1 looked
      dsimp only
      rw [attempt_ok, attempt_ok]
      cases held : thread.execution with
      | none => exact keepsUp_refused alone (by simp [Answer.outcome?])
      | some execution =>
        dsimp only
        by_cases busy : (thread.suspended || !execution.frames.isEmpty) = true
        · rw [if_pos busy, if_pos busy]
          -- The abort leaves the thread at rest, whatever it waited for.
          let cleared : Thread ν :=
            { thread with execution := some { execution with frames := [] } }
          let discarded := config.setDomain (config.world.domain.setThread id cleared)
          have there : discarded.world.domain.thread? id = some cleared := by
            change (config.world.domain.setThread id cleared).thread? id = some cleared
            rw [Domain.thread?_setThread present, if_pos rfl]
          have unharmed := nested.unharmed present held
          unfold abort
          rw [goto_world, goto_world, Domain.discard_held present held, attempt_ok, attempt_ok]
          exact @keepsUp_detach _ environment schedule id rounds steps discarded cleared function
            before after there unharmed queues alone owed patient
        · rw [if_neg busy, if_neg busy]
          have awake : thread.suspended = false := by
            cases asleep : thread.suspended with
            | false => rfl
            | true => simp [asleep] at busy
          have rests := linked.rests nested present held awake queues
          exact keepsUp_afterAbort rests alone owed patient

end

/-- What the outermost body has answered, if it has ended. -/
def value? (config : Config ν σ) : Option Int32 :=
  match config.focus with
  | .finished value => some value
  | _ => none

/-- The machine has come to its end when there is an answer. -/
theorem value?_eq_some {config : Config ν σ} {value : Int32} :
    config.value? = some value ↔ config.focus = .finished value := by
  unfold value?
  split
  · rename_i found
    simp [found]
  · rename_i other
    simp only [reduceCtorEq, false_iff]
    exact other value

end Config

namespace Environment

variable {host : Host ν σ} {allowed : Request ν → Prop} {config : Config ν σ} {value : Int32}

/-- The machine some steps after a function is run on a thread, for a host whose native methods
pause by a schedule and which sees the thread through a number of pauses. -/
def played (environment : Environment ν) (schedule : Nat → Option Pause) (world : World ν)
    (thread : ThreadId) (function : FunctionId) (rounds steps : Nat) : Config ν (Transcript ν) :=
  (Config.initial world {} (Program.play thread function rounds)).run (environment.host schedule)
    steps

/-- Pauses make no difference. If a function is run on a thread, every native call answers at once,
and the machine comes to its end without having exhausted the loop budget, then it comes to the
same end if any calls pause whose answers are used, in any queues that are empty, whatever they
answer for the time being. The end comprises the world, how the run has ended, and all calls with
their arguments. -/
theorem pauses_make_no_difference (reached : config.Reachable host allowed)
    (ended : config.focus = .finished value) (environment : Environment ν)
    (schedule : Nat → Option Pause)
    (empty : ∀ number pause queue, schedule number = some pause → pause.queue = some queue →
      config.world.domain.waiters queue = .ok [])
    (thread : ThreadId) (function : FunctionId) {steps rounds : Nat} {answer : Int32}
    (finishes : (environment.played (fun _ => none) config.world thread function 0 steps).focus =
      .finished answer)
    (used : ∀ count < steps,
      (environment.played (fun _ => none) config.world thread function 0 count).callsVoid →
        schedule (environment.played (fun _ => none) config.world thread function 0
          count).state.calls.length = none)
    (unlimited : ∀ info,
      (environment.played (fun _ => none) config.world thread function 0 steps).state.ending =
        some (.aborted info) → info.reason ≠ .loopLimit)
    (patient : steps ≤ rounds) :
    ∃ more, environment.played schedule config.world thread function rounds more =
      environment.played (fun _ => none) config.world thread function 0 steps := by
  let before := Config.initial config.world ({} : Transcript ν) (Program.play thread function 0)
  let last := environment.played (fun _ => none) config.world thread function 0 steps
  have linked : config.world.domain.Linked := Config.linked_of_reachable reached
  have nested : config.world.domain.Nested [] := Config.nested_of_finished reached ended
  have final : last.isFinal = true := by simp only [Config.isFinal, last, finishes]
  have silent : ∀ next, before.Passes (environment.host fun _ => none) next → next.callsVoid →
      schedule next.state.calls.length = none := by
    intro next passes drops
    rcases passes.early_or_last final with ⟨count, early, arrived⟩ | same
    · rw [← arrived] at drops ⊢
      exact used count early drops
    · have focus : next.focus = .finished answer := by
        rw [same]
        exact finishes
      have calm : next.callsVoid = false := by simp only [Config.callsVoid, focus]
      rw [calm] at drops
      cases drops
  have keepsUp : Config.KeepsUp environment schedule steps before
      (Config.initial config.world {} (Program.play thread function rounds)) := by
    refine .of_step rfl fun fewer less => ?_
    have enough : fewer ≤ rounds := by omega
    exact @Config.keepsUp_start _ environment schedule thread rounds fewer before
      before.focus (.body (Program.play thread function rounds)) nested linked empty rfl rfl enough
      function
  exact keepsUp last answer rfl finishes silent unlimited

/-- A function that adds the answer of the first function of the domain to an operand, and hands
the sum to a native method. -/
def asking : Definition Unit where
  name := "asking"
  code := #[0x0A, 3, 0x2C, 0, 0, 0x0B, 0x2A, 1, 0, 0x2E]
  methods := #[()]

/-- A function that calls a native method, another one that calls the first, a global, a thread and
a queue are created. -/
def preparing : Program Unit Unit Int32 := do
  let _ ← Program.update (.declareGlobal 5)
  let _ ← Program.update (.addFunction (.trusted Config.awaiting 1))
  let _ ← Program.update (.addFunction (.trusted asking 2))
  let _ ← Program.update .createThread
  let _ ← Program.update .createQueue
  return 0

/-- The machine that has been prepared. -/
def prepared : Config Unit Unit := (Config.initial {} () preparing).run Config.idleHost 6

/-- A native method that adds its arguments to the first global and answers twice the sum. -/
def tallying : Environment Unit := fun _ arguments globals =>
  let sum := arguments.foldl (· + ·) (globals[0]?.getD 0)
  ([(0, sum)], 2 * sum)

/-- The first call only suspends the thread, and the second one parks it in a queue. -/
def pausingTwice : Nat → Option Pause
  | 0 => some ⟨none, 99⟩
  | 1 => some ⟨some ⟨1⟩, 77⟩
  | _ => none

/-- Two calls, the first of them nested, pause and make no difference. -/
theorem pauses_make_no_difference_twice :
    let last := tallying.played (fun _ => none) prepared.world ⟨0⟩ ⟨1⟩ 0 26
    last.state.ending = some .completed ∧ last.state.calls.map Call.arguments = [[7], [27]] ∧
      last.world.domain.globals = #[39] ∧
      (tallying.played pausingTwice prepared.world ⟨0⟩ ⟨1⟩ 26 13).state.owed.map Prod.snd =
        some 24 ∧
      (tallying.played pausingTwice prepared.world ⟨0⟩ ⟨1⟩ 26 29).state.owed.map Prod.snd =
        some 78 ∧
      ∃ more, tallying.played pausingTwice prepared.world ⟨0⟩ ⟨1⟩ 26 more = last := by
  have reached : prepared.Reachable Config.idleHost fun _ => True :=
    .run (.initial () preparing (Program.asks_of_forall (fun _ => trivial) _)) 6
  have ended : prepared.focus = .finished 0 := Config.value?_eq_some.1 (by decide +kernel)
  have finishes := Config.value?_eq_some.1 (show (tallying.played (fun _ => none) prepared.world
    ⟨0⟩ ⟨1⟩ 0 26).value? = some 0 by decide +kernel)
  have ending : (tallying.played (fun _ => none) prepared.world ⟨0⟩ ⟨1⟩ 0 26).state.ending =
      some .completed := by decide +kernel
  have nobody : prepared.world.domain.waiters ⟨1⟩ = .ok [] := by decide +kernel
  have empty : ∀ number pause queue, pausingTwice number = some pause →
      pause.queue = some queue → prepared.world.domain.waiters queue = .ok [] := by
    intro number pause queue scheduled queued
    match number with
    | 0 =>
      cases scheduled
      cases queued
    | 1 =>
      cases scheduled
      cases queued
      exact nobody
    | number + 2 => cases scheduled
  have used : ∀ count < 26,
      (tallying.played (fun _ => none) prepared.world ⟨0⟩ ⟨1⟩ 0 count).callsVoid = false := by
    decide +kernel
  refine ⟨ending, by decide +kernel, by decide +kernel, by decide +kernel, by decide +kernel, ?_⟩
  refine pauses_make_no_difference reached ended tallying pausingTwice empty ⟨0⟩ ⟨1⟩ finishes
    (fun count early drops => ?_) (fun info aborted => ?_) (Nat.le_refl _)
  · rw [used count early] at drops
    cases drops
  · rw [ending] at aborted
    cases aborted

end Environment

end ScriptMachine

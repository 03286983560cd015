import ScriptMachine.Proofs.Entries
import ScriptMachine.Proofs.Suspensions

/-!
# Fresh starts

A function is started on a thread that has no frames and is not suspended; any other thread is
aborted first. If this calls no hook, the thread gets its frame in the same step, and nobody can act
on it in between. A hook may do with the thread what it likes, and the thread gets its frame on top
of what the hook has left.
-/

namespace ScriptMachine

variable {ν σ : Type}

/-- A thread executes these frames at its next run, is not suspended, waits in no queue and has no
hook. -/
structure Domain.Awake (domain : Domain ν) (id : ThreadId) (frames : List (Frame ν)) : Prop where
  executes : ∃ thread execution, domain.thread? id = some thread ∧
    thread.execution = some execution ∧ execution.frames = frames
  suspension : domain.suspension id = {}
  waits : ∀ queue, id ∉ domain.waitersOf queue

namespace Domain

variable {domain : Domain ν} {id : ThreadId} {thread : Thread ν} {execution : Execution ν}

/-- In a linked domain it is enough that the thread is not suspended. -/
theorem Linked.awake (linked : domain.Linked) (present : domain.thread? id = some thread)
    (held : thread.execution = some execution) (awake : thread.suspended = false) :
    domain.Awake id execution.frames := by
  have suspension : domain.suspension id = {} := by
    refine linked.suspension_eq ?_
    rw [suspension_of_present present]
    exact awake
  refine ⟨⟨thread, execution, present, held, rfl⟩, suspension, fun queue waiting => ?_⟩
  have recorded := linked.waiting_iff.2 ⟨queue, waiting⟩
  rw [suspension] at recorded
  cases recorded

/-- A thread is given another frame. -/
def enter (domain : Domain ν) (id : ThreadId) (thread : Thread ν) (execution : Execution ν)
    (frame : Frame ν) : Domain ν :=
  domain.setThread id
    { thread with execution := some { execution with frames := frame :: execution.frames } }

/-- A thread that runs executes nothing in the domain. -/
theorem not_awake (present : domain.thread? id = some thread) (taken : thread.execution = none)
    (frames : List (Frame ν)) : ¬domain.Awake id frames := by
  rintro ⟨⟨other, execution, there, held, _⟩, _⟩
  obtain rfl := Option.some.inj (present.symm.trans there)
  rw [taken] at held
  cases held

/-- A thread with another frame executes this frame alone exactly if it had none before. -/
theorem awake_enter (present : domain.thread? id = some thread)
    (held : thread.execution = some execution) (frame : Frame ν) :
    (domain.enter id thread execution frame).Awake id [frame] ↔ domain.Awake id [] := by
  have entered := thread?_setThread present
    { thread with execution := some { execution with frames := frame :: execution.frames } } id
  rw [if_pos rfl] at entered
  have suspension : (domain.enter id thread execution frame).suspension id = domain.suspension id :=
    @suspension_setThread_same _ domain id thread { thread with
      execution := some { execution with frames := frame :: execution.frames } } present rfl id
  have waits (queue : QueueId) :
      (domain.enter id thread execution frame).waitersOf queue = domain.waitersOf queue := rfl
  constructor
  · rintro ⟨⟨after, executed, there, taken, frames⟩, awake, free⟩
    obtain rfl := Option.some.inj (entered.symm.trans there)
    obtain rfl := Option.some.inj taken
    rw [suspension] at awake
    exact ⟨⟨thread, execution, present, held, (List.cons.inj frames).2⟩, awake, free⟩
  · rintro ⟨⟨before, executed, there, taken, bare⟩, awake, free⟩
    obtain rfl := Option.some.inj (present.symm.trans there)
    obtain rfl := Option.some.inj (held.symm.trans taken)
    rw [← suspension] at awake
    refine ⟨⟨_, _, entered, rfl, ?_⟩, awake, free⟩
    rw [bare]

/-- A thread that has been aborted and detached has neither frames nor a suspension left. -/
theorem Linked.awake_aborted (linked : domain.Linked) {middle next : Domain ν}
    {reason : AbortReason} {hook : Option (AbortHook ν)} (present : domain.thread? id = some thread)
    (held : thread.execution = some execution) (discarded : domain.discard id reason = .ok middle)
    (detached : middle.detach id = .ok (next, hook)) : next.Awake id [] := by
  obtain ⟨before, known, ⟨executed, _, rfl⟩ | ⟨taken, _⟩⟩ := discard_eq_ok discarded
  · have linked := (linked.setThread present rfl rfl rfl : (domain.setThread id
      { thread with execution := some { executed with frames := [] } }).Linked)
    obtain rfl := Option.some.inj (present.symm.trans known)
    obtain ⟨after, there, _, threads, _⟩ := detach_eq_ok detached
    rw [thread?_setThread present, if_pos rfl] at there
    obtain rfl := Option.some.inj there
    have left := threads id
    rw [if_pos rfl] at left
    exact (linked.detach detached).awake left rfl rfl
  · obtain rfl := Option.some.inj (present.symm.trans known)
    rw [held] at taken
    cases taken

end Domain

namespace Config

variable {host : Host ν σ} {config : Config ν σ} {id : ThreadId} {function : Function ν}
  {next : Answer ν → Body ν σ} {purpose : Option Purpose}

/-- A thread is given a frame of a function, and is run if there is a purpose. -/
def entering (host : Host ν σ) (config : Config ν σ) (id : ThreadId) (thread : Thread ν)
    (execution : Execution ν) (function : Function ν) (purpose : Option Purpose)
    (next : Answer ν → Body ν σ) : Config ν σ :=
  let entered := config.setDomain
    (config.world.domain.enter id thread execution { function, base := 0, top := 0 })
  match purpose with
  | none => entered.goto (.body (next .done))
  | some purpose => entered.launch host id purpose next

/-- Once room has been made for a function, the thread is given a frame of it, unless it runs. -/
theorem afterAbort_start (host : Host ν σ) (config : Config ν σ) (id : ThreadId)
    (function : Function ν) (purpose : Option Purpose) (next : Answer ν → Body ν σ) :
    (∃ fault, (config.afterAbort host (.start id function purpose next)).focus = .faulted fault) ∨
      ∃ thread, config.world.domain.thread? id = some thread ∧
        (thread.execution = none ∧ config.afterAbort host (.start id function purpose next) =
            config.goto (.body (next (.refused (.thread .running)))) ∨
          ∃ execution, thread.execution = some execution ∧
            config.afterAbort host (.start id function purpose next) =
              config.entering host id thread execution function purpose next) := by
  unfold afterAbort attempt
  dsimp only
  cases looked : config.world.domain.thread id with
  | error fault => exact .inl ⟨fault, rfl⟩
  | ok thread =>
    refine .inr ⟨thread, Domain.thread_eq_ok.1 looked, ?_⟩
    cases held : thread.execution with
    | none => exact .inl ⟨rfl, by simp only [held]⟩
    | some execution => exact .inr ⟨execution, rfl, by simp only [held]; rfl⟩

/-- A thread that has just been given a frame begins to run. -/
theorem launch_enter {thread : Thread ν} {execution : Execution ν} {frame : Frame ν}
    {purpose : Purpose} (present : config.world.domain.thread? id = some thread) :
    ∃ run : Run ν σ, run.thread = id ∧ run.purpose = purpose ∧ run.reply = next ∧
      run.execution = { execution with frames := frame :: execution.frames } ∧
      ((config.setDomain (config.world.domain.enter id thread execution frame)).launch host id
        purpose next).focus = .enter run ∧
      ((config.setDomain (config.world.domain.enter id thread execution frame)).launch host id
        purpose next).pending = config.pending := by
  have entered := Domain.thread?_setThread present
    { thread with execution := some { execution with frames := frame :: execution.frames } } id
  rw [if_pos rfl] at entered
  have looked : (config.world.domain.enter id thread execution frame).thread id = .ok { thread with
      execution := some { execution with frames := frame :: execution.frames } } :=
    Domain.thread_eq_ok.2 entered
  unfold launch
  rw [setDomain_world, looked, attempt_ok]
  exact ⟨_, rfl, rfl, rfl, rfl, rfl, by simp⟩

/-- What a request to start a function does at once. -/
inductive Starts (host : Host ν σ) (config : Config ν σ) (id : ThreadId) (called : FunctionId)
    (purpose : Option Purpose) (next : Answer ν → Body ν σ) (after : Config ν σ) : Prop where
  | unknown (missing : config.world.domain.function? called = none)
    (refused : after = config.goto (.body (next (.refused (.thread (.unknownFunction called))))))
  | running (thread : Thread ν) (present : config.world.domain.thread? id = some thread)
    (taken : thread.execution = none)
    (refused : after = config.goto (.body (next (.refused (.thread .running)))))
  | faulted (fault : Fault) (focus : after.focus = .faulted fault)
  /-- No hook is called, and the thread has neither frames nor a suspension left. -/
  | unhooked (function : Function ν) (room : Config ν σ)
    (registered : config.world.domain.function? called = some function)
    (pending : room.pending = config.pending) (vacant : room.world.domain.Awake id [])
    (goes : after = room.afterAbort host (.start id function purpose next))
  /-- A hook is called. -/
  | hooked (function : Function ν)
    (registered : config.world.domain.function? called = some function)
    (pending : after.pending = .aborting (.start id function purpose next) :: config.pending)

/-- A request to start a function is refused, stops the machine, gives the thread its frame, or
calls the hook of the thread first. -/
theorem starts (linked : config.world.domain.Linked) (called : FunctionId) :
    config.Starts host id called purpose next (config.start host id called purpose next) := by
  refine start_induction (fun fault => .faulted fault rfl) (fun missing => .unknown missing rfl)
    (fun thread present taken => .running thread present taken rfl)
    fun function thread execution registered present held => ⟨fun _ => ?_, fun idle bare => ?_⟩
  · refine attempt_induction (fun fault => .faulted fault rfl) fun middle discarded => ?_
    refine attempt_induction (fun fault => .faulted fault rfl) fun ⟨domain, hook⟩ detached => ?_
    have vacant := linked.awake_aborted present held discarded detached
    dsimp only
    split
    · exact .unhooked function (config.setDomain domain) registered rfl vacant rfl
    · refine .unhooked function _ registered ?_ ?_ rfl
      · rfl
      · exact vacant
    · exact .hooked function registered rfl
  · have vacant := linked.awake present held idle
    rw [bare] at vacant
    exact .unhooked function config registered rfl vacant rfl

/-- The hook that is called to make room for a function has ended. -/
structure MadeRoom (config : Config ν σ) (id : ThreadId) (function : Function ν)
    (purpose : Option Purpose) (next : Answer ν → Body ν σ) (rest : List (Pending ν σ)) :
    Prop where
  ended : ∃ value, config.focus = .body (.done value)
  pending : config.pending = .aborting (.start id function purpose next) :: rest

/-- A request to start a function is refused: the function is not registered, or the thread runs. -/
def Refuses (host : Host ν σ) (config : Config ν σ) (id : ThreadId) (called : FunctionId)
    (next : Answer ν → Body ν σ) (steps : Nat) (body : Body ν σ) : Prop :=
  (config.world.domain.function? called = none ∧
      body = next (.refused (.thread (.unknownFunction called)))) ∨
    ∃ thread, (config.run host steps).world.domain.thread? id = some thread ∧
      thread.execution = none ∧ body = next (.refused (.thread .running))

/-- The thread is given a frame of the function, at the first step when the thread is vacant then,
and otherwise once a hook has made room. -/
structure Enters (host : Host ν σ) (config : Config ν σ) (id : ThreadId) (function : Function ν)
    (purpose : Option Purpose) (next : Answer ν → Body ν σ) (moment : Nat) (room : Config ν σ)
    (thread : Thread ν) (execution : Execution ν) : Prop where
  vacant : moment = 0 ∧ room.world.domain.Awake id [] ∨
    (config.run host moment).MadeRoom id function purpose next config.pending ∧
      room.world = (config.run host moment).world
  pending : room.pending = config.pending
  present : room.world.domain.thread? id = some thread
  held : thread.execution = some execution
  entered : config.run host (moment + 1) =
    room.entering host id thread execution function purpose next

/-- Once there is room, the thread is given its frame, or the request is refused because the thread
runs. -/
theorem GoesOn.enters_room {steps moment : Nat} {body : Body ν σ} {room : Config ν σ}
    (goesOn : config.GoesOn host steps body) (called : FunctionId) (earlier : moment < steps)
    (vacant : moment = 0 ∧ room.world.domain.Awake id [] ∨
      (config.run host moment).MadeRoom id function purpose next config.pending ∧
        room.world = (config.run host moment).world)
    (pending : room.pending = config.pending)
    (goes : config.run host (moment + 1) =
      room.afterAbort host (.start id function purpose next)) :
    config.Refuses host id called next steps body ∨
      ∃ thread execution,
        config.Enters host id function purpose next moment room thread execution := by
  rcases afterAbort_start host room id function purpose next with ⟨fault, faulted⟩ |
    ⟨thread, present, ⟨taken, refused⟩ | ⟨execution, held, entered⟩⟩
  · rw [← goes] at faulted
    exact absurd faulted (goesOn.works earlier fault)
  · rw [refused] at goes
    have focus : (config.run host (moment + 1)).focus =
        .body (next (.refused (.thread .running))) := by rw [goes, goto_focus]
    have level : (config.run host (moment + 1)).pending = config.pending := by
      rw [goes, goto_pending, pending]
    obtain ⟨rfl, rfl⟩ := goesOn.arrives (Nat.succ_pos _) earlier focus level
    refine .inl (.inr ⟨thread, ?_, taken, rfl⟩)
    rw [goes]
    exact present
  · exact .inr ⟨thread, execution, vacant, pending, present, held, goes.trans entered⟩

/-- A request to start a function that is not refused gives the thread a frame of the function. -/
theorem GoesOn.enters {called : FunctionId} {steps : Nat} {body : Body ν σ}
    (goesOn : config.GoesOn host steps body) (linked : config.world.domain.Linked)
    (asks : config.step host = config.start host id called purpose next) :
    config.Refuses host id called next steps body ∨
      ∃ (function : Function ν) (moment : Nat) (room : Config ν σ) (thread : Thread ν)
        (execution : Execution ν),
        config.world.domain.function? called = some function ∧ moment < steps ∧
        config.Enters host id function purpose next moment room thread execution := by
  have first : config.run host 1 = config.start host id called purpose next := by
    rw [run_succ, Config.run, asks]
  have starts := @starts _ _ host config id next purpose linked called
  rw [← first] at starts
  cases starts with
  | unknown missing refused =>
    have arrived := goesOn.arrives Nat.one_pos goesOn.started
      (by rw [refused, goto_focus]) (by rw [refused, goto_pending])
    exact .inl (.inl ⟨missing, arrived.2.symm⟩)
  | running thread present taken refused =>
    obtain ⟨rfl, rfl⟩ := goesOn.arrives Nat.one_pos goesOn.started
      (by rw [refused, goto_focus]) (by rw [refused, goto_pending])
    refine .inl (.inr ⟨thread, ?_, taken, rfl⟩)
    rw [refused]
    exact present
  | faulted fault focus => exact absurd focus (goesOn.works goesOn.started fault)
  | unhooked function room registered pending vacant goes =>
    rcases goesOn.enters_room called goesOn.started (.inl ⟨rfl, vacant⟩) pending goes with
      refused | ⟨thread, execution, enters⟩
    · exact .inl refused
    · exact .inr ⟨function, 0, room, thread, execution, registered, goesOn.started, enters⟩
  | hooked function registered pending =>
    have whole (moment : Nat) :
        (config.run host 1).run host moment = config.run host (1 + moment) :=
      (run_add host config 1 moment).symm
    have last : 1 + (steps - 1) = steps := Nat.add_sub_cancel' goesOn.started
    rcases @run_waiting _ _ host _ _ _ pending (steps - 1) with ⟨inner, waits⟩ |
      ⟨middle, earlier, ended, waits⟩ | ⟨fault, faulted⟩
    · have level := goesOn.level
      rw [whole, last] at waits
      rw [waits] at level
      simp only [List.length_append, List.length_cons] at level
      omega
    · rw [whole] at ended waits
      obtain ⟨value, focus⟩ := ended
      have goes := @step_of_aborting _ _ host _ _ _ _ focus waits
      rw [← run_succ_last] at goes
      let room : Config ν σ := { config.run host (1 + middle) with pending := config.pending }
      have before : 1 + middle < steps := by omega
      have made : (config.run host (1 + middle)).MadeRoom id function purpose next config.pending :=
        ⟨⟨value, focus⟩, waits⟩
      rcases @GoesOn.enters_room _ _ host config id function next purpose steps (1 + middle) body
        room goesOn called before (.inr ⟨made, rfl⟩) rfl goes with
        refused | ⟨thread, execution, enters⟩
      · exact .inl refused
      · exact .inr ⟨function, 1 + middle, room, thread, execution, registered, before, enters⟩
    · rw [whole, last] at faulted
      exact absurd faulted (goesOn.works (Nat.le_refl _) fault)

/-- If a hook has made room for a function that is not to run yet, the thread has one fresh frame of
the function exactly if the hook has left it without frames and suspension. -/
theorem GoesOn.fresh_iff {steps middle : Nat} {body : Body ν σ}
    (goesOn : config.GoesOn host steps body) (earlier : middle < steps)
    (made : (config.run host middle).MadeRoom id function none next config.pending) :
    (config.run host steps).world.domain.Awake id [{ function, base := 0, top := 0 }] ↔
      (config.run host middle).world.domain.Awake id [] := by
  let room : Config ν σ := { config.run host middle with pending := config.pending }
  obtain ⟨value, ended⟩ := made.ended
  have goes : config.run host (middle + 1) =
      room.afterAbort host (.start id function none next) := by
    rw [run_succ_last]
    exact step_of_aborting ended made.pending
  rcases afterAbort_start host room id function none next with ⟨fault, faulted⟩ |
    ⟨thread, present, ⟨taken, refused⟩ | ⟨execution, held, entered⟩⟩
  · rw [← goes] at faulted
    exact absurd faulted (goesOn.works earlier fault)
  · rw [refused] at goes
    obtain ⟨rfl, _⟩ := goesOn.arrives (Nat.succ_pos _) earlier (by rw [goes, goto_focus])
      (by rw [goes]; rfl)
    rw [goes]
    exact iff_of_false (Domain.not_awake present taken _) (Domain.not_awake present taken _)
  · rw [entered] at goes
    obtain ⟨rfl, _⟩ := goesOn.arrives (Nat.succ_pos _) earlier (by rw [goes]; rfl)
      (by rw [goes]; rfl)
    rw [goes]
    exact Domain.awake_enter present held { function, base := 0, top := 0 }

namespace Enters

variable {steps moment : Nat} {body : Body ν σ} {room : Config ν σ} {thread : Thread ν}
  {execution : Execution ν}

/-- A thread that is given a frame and does not run yet has no other one, no suspension and no hook
exactly if the hook that has made room has left none. -/
theorem fresh (enters : config.Enters host id function none next moment room thread execution)
    (goesOn : config.GoesOn host steps body) (earlier : moment < steps) :
    body = next .done ∧
      ((config.run host steps).world.domain.Awake id [{ function, base := 0, top := 0 }] ↔
        ∀ middle < steps,
          (config.run host middle).MadeRoom id function none next config.pending →
            (config.run host middle).world.domain.Awake id []) := by
  have focus : (config.run host (moment + 1)).focus = .body (next .done) := by
    rw [enters.entered]
    rfl
  have level : (config.run host (moment + 1)).pending = config.pending := by
    rw [enters.entered]
    exact enters.pending
  obtain ⟨rfl, rfl⟩ := goesOn.arrives (Nat.succ_pos _) earlier focus level
  refine ⟨rfl, fun awake middle before made => ?_, fun hooks => ?_⟩
  · exact (goesOn.fresh_iff before made).1 awake
  · rcases enters.vacant with ⟨_, awake⟩ | ⟨made, _⟩
    · rw [enters.entered]
      exact (Domain.awake_enter enters.present enters.held _).2 awake
    · exact (goesOn.fresh_iff earlier made).2 (hooks moment earlier made)

/-- The thread is given its frame when it has none, unless the hook that has made room has left it
some. -/
theorem bare (enters : config.Enters host id function purpose next moment room thread execution)
    (hooks : (config.run host moment).MadeRoom id function purpose next config.pending →
      ∀ thread, (config.run host moment).world.domain.thread? id = some thread → thread.isIdle) :
    execution.frames = [] := by
  rcases enters.vacant with ⟨_, ⟨other, executed, there, taken, nothing⟩, _⟩ | ⟨made, same⟩
  · obtain rfl := Option.some.inj (enters.present.symm.trans there)
    obtain rfl := Option.some.inj (enters.held.symm.trans taken)
    exact nothing
  · have idle := hooks made thread (same ▸ enters.present)
    simpa [Thread.isIdle, enters.held] using idle

/-- A thread that is given a frame and runs for the result answers, if the run is complete, what the
frame returns, unless the hook that has made room has left other frames. -/
theorem answers
    (enters : config.Enters host id function (some .result) next moment room thread execution)
    (goesOn : config.GoesOn host steps body) (earlier : moment < steps) :
    ∃ run outcome, (config.run host (steps - 1)).focus = .ended run outcome ∧ run.thread = id ∧
      body = next (.returned outcome (run.execution.stack[0]?.getD 0)) ∧
      (outcome = .completed →
        (∀ middle < steps,
          (config.run host middle).MadeRoom id function (some .result) next config.pending →
            ∀ thread, (config.run host middle).world.domain.thread? id = some thread →
              thread.isIdle) →
        ∃ last < steps, (config.run host last).HandsOver id function
          (run.execution.stack[0]?.getD 0)) := by
  obtain ⟨run, owner, purpose, reply, executes, focus, level⟩ :=
    @launch_enter _ _ host room id next thread execution { function, base := 0, top := 0 }
      .result enters.present
  have entering : (config.run host (moment + 1)).focus = .enter run := by
    rw [enters.entered]
    exact focus
  have waits : (config.run host (moment + 1)).pending = config.pending := by
    rw [enters.entered, ← enters.pending]
    exact level
  have inside : moment + 1 < steps := by
    refine Nat.lt_of_le_of_ne earlier fun last => ?_
    rw [last, goesOn.focus] at entering
    cases entering
  have owed : run.Owed id next := ⟨owner, purpose, reply⟩
  have occupied : run.execution.frames ≠ [] := by simp [executes]
  obtain ⟨outer, base, outermost⟩ := Run.exists_outermost occupied
  obtain ⟨last, outcome, ended, same, answers, given⟩ := goesOn.served (Nat.succ_pos _) inside
    (.enters run entering waits owed outermost)
  refine ⟨last, outcome, ended, same, answers, fun completed hooks => ?_⟩
  have bare := enters.bare (hooks moment earlier)
  obtain ⟨inner, frame, frames, belongs, bottom⟩ := outermost
  rw [executes, bare] at frames
  have only := (List.append_inj' ((List.nil_append _).trans frames) rfl).2
  obtain rfl := (List.cons.inj only).1
  subst belongs bottom
  exact given completed rfl

end Enters

/-- A request to start a function that is not refused leaves the thread with one fresh frame of the
function, not suspended, in no queue and without a hook, exactly if the hook that had to be called
to make room, if any, has left it without frames and suspension. A request for the result of the
function is answered by what this frame returns when the run is complete, if the hook has left no
frames. -/
theorem starts_are_fresh {allowed : Request ν → Prop} (reached : config.Reachable host allowed)
    {called : FunctionId} {steps : Nat} {body : Body ν σ}
    (goesOn : config.GoesOn host steps body) :
    (config.focus = .body (.ask (.start id called) next) →
      config.Refuses host id called next steps body ∨
        body = next .done ∧ ∃ function, config.world.domain.function? called = some function ∧
          ((config.run host steps).world.domain.Awake id [{ function, base := 0, top := 0 }] ↔
            ∀ middle < steps,
              (config.run host middle).MadeRoom id function none next config.pending →
                (config.run host middle).world.domain.Awake id [])) ∧
    (config.focus = .body (.ask (.runInt id called) next) →
      config.Refuses host id called next steps body ∨
        ∃ function run outcome, config.world.domain.function? called = some function ∧
          (config.run host (steps - 1)).focus = .ended run outcome ∧ run.thread = id ∧
          body = next (.returned outcome (run.execution.stack[0]?.getD 0)) ∧
          (outcome = .completed →
            (∀ middle < steps,
              (config.run host middle).MadeRoom id function (some .result) next config.pending →
                ∀ thread, (config.run host middle).world.domain.thread? id = some thread →
                  thread.isIdle) →
            ∃ last < steps, (config.run host last).HandsOver id function
              (run.execution.stack[0]?.getD 0))) := by
  have linked := linked_of_reachable reached
  constructor
  · intro asks
    have made : config.step host = config.start host id called none next := by
      simp only [step, asks]
      rfl
    rcases goesOn.enters linked made with refused |
      ⟨function, moment, room, thread, execution, registered, earlier, enters⟩
    · exact .inl refused
    · obtain ⟨done, fresh⟩ := enters.fresh goesOn earlier
      exact .inr ⟨done, function, registered, fresh⟩
  · intro asks
    have made : config.step host = config.start host id called (some .result) next := by
      simp only [step, asks]
      rfl
    rcases goesOn.enters linked made with refused |
      ⟨function, moment, room, thread, execution, registered, earlier, enters⟩
    · exact .inl refused
    · obtain ⟨run, outcome, answers⟩ := enters.answers goesOn earlier
      exact .inr ⟨function, run, outcome, registered, answers⟩

/-- A body is at hand. -/
def speaks (config : Config ν σ) : Bool :=
  match config.focus with
  | .body _ => true
  | _ => false

/-- A body goes on that is at hand again after a number of steps, if none has been at hand at its
level before. -/
theorem GoesOn.of_speaks {steps : Nat} {body : Body ν σ} (started : 0 < steps)
    (focus : (config.run host steps).focus = .body body)
    (level : (config.run host steps).pending.length = config.pending.length)
    (first : ∀ between < steps, 0 < between →
      (config.run host between).pending.length = config.pending.length →
      (config.run host between).speaks = false) : config.GoesOn host steps body where
  started := started
  focus := focus
  level := level
  first between after earlier same other found := by
    have silent := first between earlier after same
    unfold speaks at silent
    rw [found] at silent
    cases silent

/-- A function that returns seven. -/
def answering : Definition Unit where
  name := "answering"
  code := #[0x0A, 7, 0x2E]

/-- A suspended thread with a hook is started, and run from the beginning. -/
def restarting : Program Unit Unit Int32 := do
  let _ ← Program.update (.addFunction (.trusted answering 1))
  let _ ← Program.update .createThread
  let _ ← Program.update (.suspend ⟨0⟩ (some (.custom ())))
  let _ ← Program.request (.start ⟨0⟩ ⟨0⟩)
  match ← Program.request (.runInt ⟨0⟩ ⟨0⟩) with
  | .returned .completed value => return value
  | _ => return 0

/-- A thread is started fresh once its hook has ended, and the run that begins anew answers what the
function returns. -/
theorem starts_are_fresh_answering :
    let configs := fun steps => (Config.initial {} () restarting).run idleHost steps
    (∃ next, (configs 3).focus = .body (.ask (.start ⟨0⟩ ⟨0⟩) next) ∧
      (configs 3).GoesOn idleHost 2 (next .done) ∧
      (configs 5).world.domain.Awake ⟨0⟩
        [{ function := .trusted answering 1, base := 0, top := 0 }]) ∧
    ∃ next, (configs 5).focus = .body (.ask (.runInt ⟨0⟩ ⟨0⟩) next) ∧
      (configs 5).GoesOn idleHost 6 (next (.returned .completed 7)) ∧
      ∃ last < 6, ((configs 5).run idleHost last).HandsOver ⟨0⟩ (.trusted answering 1) 7 := by
  intro configs
  have reached (steps : Nat) : (configs steps).Reachable idleHost (fun _ => True) :=
    .run (.initial () restarting (Program.asks_of_forall (fun _ => trivial) _)) steps
  constructor
  · refine ⟨_, rfl, .of_speaks (by decide) rfl rfl (by decide +kernel), ?_⟩
    have goesOn := @GoesOn.of_speaks _ _ idleHost (configs 3) 2 _ (by decide) rfl rfl
      (by decide +kernel)
    rcases (starts_are_fresh (reached 3) goesOn).1 rfl with (⟨missing, _⟩ | ⟨_, there, taken, _⟩) |
      ⟨_, function, registered, exactly⟩
    · cases missing
    · cases there
      cases taken
    · cases registered
      refine exactly.2 fun middle earlier made => ?_
      obtain ⟨value, ended⟩ := made.ended
      match middle, earlier with
      | 0, _ => cases ended
      | 1, _ =>
        let thread : Thread Unit := { «variables» := #[], joinQueue := ⟨0⟩ }
        exact @Domain.Linked.awake _ _ ⟨0⟩ thread {} (linked_of_reachable (reached 4)) rfl rfl rfl
  · have goesOn : (configs 5).GoesOn idleHost 6 (.done 7) :=
      .of_speaks (by decide) (answered?_eq_some.1 (by decide +kernel)) (by decide +kernel)
        (by decide +kernel)
    refine ⟨_, rfl, goesOn, ?_⟩
    rcases (starts_are_fresh (reached 5) goesOn).2 rfl with (⟨_, answer⟩ | ⟨_, _, _, answer⟩) |
      ⟨function, run, outcome, registered, _, _, answer, given⟩
    · cases answer
    · cases answer
    · cases registered
      cases outcome with
      | completed =>
        have value : run.execution.stack[0]?.getD 0 = 7 := (Program.done.inj answer).symm
        rw [value] at given
        -- No hook is called any more: nothing but the run is at hand before the answer.
        have silent : ∀ middle < 6, ((configs 5).run idleHost middle).answered? = none := by
          decide +kernel
        refine given rfl fun middle earlier made => ?_
        obtain ⟨value, spoken⟩ := made.ended
        have none := silent middle earlier
        rw [answered?_eq_some.2 spoken] at none
        cases none
      | suspended => cases answer
      | aborted info => cases answer

/-- A host whose hooks park the first thread. -/
def queueingHost : Host Unit Unit where
  native _ _ := .done 0
  onAbort _ _ := .bind (.update (.park ⟨1⟩ ⟨0⟩)) fun _ => .done 0
  onLimit _ _ state := state
  onEvent _ _ state := state

/-- A suspended thread with a hook is started; the host answers whether this was done. -/
def startingHooked : Program Unit Unit Int32 := do
  let _ ← Program.update (.addFunction (.trusted answering 1))
  let _ ← Program.update .createThread
  let _ ← Program.update .createQueue
  let _ ← Program.update (.suspend ⟨0⟩ (some (.custom ())))
  match ← Program.request (.start ⟨0⟩ ⟨0⟩) with
  | .done => return 1
  | _ => return 0

/-- A thread that has been started with success is suspended and waits in a queue. -/
theorem started_thread_is_parked :
    let configs := fun steps => (Config.initial {} () startingHooked).run queueingHost steps
    (configs 4).Reachable queueingHost (fun _ => True) ∧
      (∃ next, (configs 4).focus = .body (.ask (.start ⟨0⟩ ⟨0⟩) next) ∧
        (configs 4).GoesOn queueingHost 3 (next .done) ∧ next .done = .done 1) ∧
      ((configs 7).world.domain.suspension ⟨0⟩).suspended = true ∧
      (configs 7).world.domain.waitersOf ⟨1⟩ = [⟨0⟩] := by
  intro configs
  refine ⟨.run (.initial () startingHooked (Program.asks_of_forall (fun _ => trivial) _)) 4,
    ⟨_, rfl, ?_, rfl⟩, by decide +kernel, by decide +kernel⟩
  exact .of_speaks (by decide) rfl rfl (by decide +kernel)

end Config

end ScriptMachine

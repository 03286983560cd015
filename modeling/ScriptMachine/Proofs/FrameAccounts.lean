import ScriptMachine.Proofs.Brackets
import ScriptMachine.Proofs.FreshStarts

/-!
# Accounts of open frames

A frame that has been entered and not been left is held by its thread, in the run at hand, in a run
that waits, or in the thread itself. Every operation of the machine keeps the frames of a thread in
one of these places, until they are discarded or a function is started on the thread.
-/

namespace ScriptMachine

variable {ν σ : Type}

/-! ## Frames that account for open scopes -/

/-- All of the frames but perhaps the innermost have been entered, and those that have been entered
are frames of these functions. -/
inductive Opened : List (Frame ν) → List (Function ν) → Prop where
  | entered {frames : List (Frame ν)} (saved : ∀ frame ∈ frames, frame.pc.isSome) :
    Opened frames (frames.map Frame.function)
  | fresh {frame : Frame ν} {outer : List (Frame ν)} (unrun : frame.pc = none)
    (saved : ∀ other ∈ outer, other.pc.isSome) : Opened (frame :: outer) (outer.map Frame.function)

/-- A run is in a frame of this function. All of its frames have been entered, and are frames of
these functions. -/
inductive Run.Inside (run : Run ν σ) (function : Function ν) : List (Function ν) → Prop where
  | inside (frame : Frame ν) (outer : List (Frame ν))
    (frames : run.execution.frames = frame :: outer) (here : frame.function = function)
    (saved : ∀ other ∈ outer, other.pc.isSome) :
    Inside run function (function :: outer.map Frame.function)

/-- Only the frames matter. -/
theorem Run.Inside.of_frames {run after : Run ν σ} {function : Function ν}
    {unclosed : List (Function ν)} (inside : run.Inside function unclosed)
    (same : after.execution.frames = run.execution.frames) : after.Inside function unclosed := by
  obtain ⟨frame, outer, frames, here, saved⟩ := inside
  exact .inside frame outer (same.trans frames) here saved

/-- The frames of a run that is in one of them are what is open. -/
theorem Run.Inside.functions {run : Run ν σ} {function : Function ν} {unclosed : List (Function ν)}
    (inside : run.Inside function unclosed) :
    run.execution.frames.map Frame.function = unclosed := by
  obtain ⟨frame, outer, frames, here, saved⟩ := inside
  simp [frames, here]

/-- A thread that does not run has no frames, or frames that account for what is open. -/
def Domain.Accounts (domain : Domain ν) (id : ThreadId) (unclosed : List (Function ν)) : Prop :=
  ∀ thread execution, domain.thread? id = some thread → thread.execution = some execution →
    execution.frames = [] ∨ Opened execution.frames unclosed

/-- If the thread does not run, it has no frames. -/
def Domain.Bare (domain : Domain ν) (id : ThreadId) : Prop :=
  ∀ thread execution, domain.thread? id = some thread → thread.execution = some execution →
    execution.frames = []

/-- The thread on which a function is started once an abort is done. -/
def AfterAbort.starts? : AfterAbort ν σ → Option ThreadId
  | .start thread _ _ _ => some thread
  | .reply _ | .stop _ _ _ _ => none

/-- The thread on which a request starts a function. -/
def Request.starts? : Request ν → Option ThreadId
  | .start thread _ | .run thread _ | .runInt thread _ => some thread
  | _ => none

/-- The frames of a run that waits account for what its thread has open. -/
def Pending.Accounts (work : Pending ν σ) (id : ThreadId) (unclosed : List (Function ν)) : Prop :=
  match work with
  | .calling run registers _ => run.thread = id → run.Inside registers.function unclosed
  | .aborting (.stop run _ _ _) =>
    run.thread = id → run.execution.frames.map Frame.function = unclosed
  | .aborting _ => True

/-- The frames of the run at hand account for what its thread has open. Those of a run that has been
aborted are gone. -/
def Focus.Accounts (focus : Focus ν σ) (id : ThreadId) (unclosed : List (Function ν)) : Prop :=
  match focus with
  | .enter run => run.thread = id → Opened run.execution.frames unclosed
  | .execute run registers => run.thread = id → run.Inside registers.function unclosed
  | .ended run .completed => run.thread = id → run.execution.frames = [] ∧ unclosed = []
  | .ended run .suspended =>
    run.thread = id → (∀ frame ∈ run.execution.frames, frame.pc.isSome) ∧
      run.execution.frames.map Frame.function = unclosed
  | .ended run (.aborted _) => run.thread = id → run.execution.frames = []
  | .body _ | .finished _ | .faulted _ => True

/-- Work of another thread. -/
theorem Pending.accounts_of_ne {work : Pending ν σ} {id : ThreadId}
    (other : ∀ run, work.run? = some run → run.thread ≠ id) (unclosed : List (Function ν)) :
    work.Accounts id unclosed := by
  cases work with
  | calling run registers call => exact fun same => absurd same (other run rfl)
  | aborting next =>
    cases next with
    | stop run function pc reason => exact fun same => absurd same (other run rfl)
    | reply | start => trivial

/-- A run of another thread. -/
theorem Focus.accounts_of_ne {focus : Focus ν σ} {id : ThreadId}
    (other : ∀ run, focus.run? = some run → run.thread ≠ id) (unclosed : List (Function ν)) :
    focus.Accounts id unclosed := by
  cases focus with
  | enter run | execute run registers => exact fun same => absurd same (other run rfl)
  | ended run outcome => cases outcome <;> exact fun same => absurd same (other run rfl)
  | body | finished | faulted => trivial

namespace Domain.Accounts

variable {domain next : Domain ν} {id other : ThreadId} {unclosed : List (Function ν)}
  {before after : Thread ν}

/-- Threads that keep what they execute. -/
theorem of_keeps (accounts : domain.Accounts id unclosed) (keeps : domain.Keeps next) :
    next.Accounts id unclosed := by
  intro after execution there held
  rcases keeps.new id after there with ⟨before, present, kept⟩ | ⟨_, fresh⟩
  · rcases kept.execution with same | ⟨old, frame, frames, value, known, _, _, written⟩
    · exact accounts before execution present (same.symm.trans held)
    · rw [written] at held
      cases held
      exact accounts before old present known
  · rw [fresh.1] at held
    cases held
    exact .inl rfl

/-- The same threads. -/
theorem of_threads (accounts : domain.Accounts id unclosed)
    (threads : next.threads = domain.threads) : next.Accounts id unclosed := by
  unfold Accounts thread?
  rw [threads]
  exact accounts

/-- An update. -/
theorem of_updated (accounts : domain.Accounts id unclosed) (update : domain.Updated next) :
    next.Accounts id unclosed := by
  rcases Domain.Keeps.of_updated update with keeps | cleared
  · exact accounts.of_keeps keeps
  · unfold Domain.clear at cleared
    split at cleared <;> cases cleared
    simp [Accounts, Domain.thread?]

/-- A thread is replaced. -/
theorem setThread (accounts : domain.Accounts id unclosed)
    (present : domain.thread? other = some before)
    (executes : other = id → ∀ execution, after.execution = some execution →
      execution.frames = [] ∨ Opened execution.frames unclosed) :
    (domain.setThread other after).Accounts id unclosed := by
  intro thread execution there held
  rw [thread?_setThread present] at there
  split at there
  · rename_i same
    cases there
    exact executes same.symm execution held
  · exact accounts thread execution there held

/-- Frames are discarded. -/
theorem discard (accounts : domain.Accounts id unclosed) {reason : AbortReason}
    (done : domain.discard other reason = .ok next) : next.Accounts id unclosed := by
  obtain ⟨thread, present, ⟨execution, held, rfl⟩ | ⟨taken, rfl⟩⟩ := discard_eq_ok done
  · refine accounts.setThread present fun _ after held => ?_
    cases held
    exact .inl rfl
  · refine accounts.setThread present fun same after held => ?_
    rw [taken] at held
    cases held

end Domain.Accounts

namespace Domain.Bare

variable {domain next : Domain ν} {id : ThreadId}

/-- The thread has no frames. -/
theorem of_present {thread : Thread ν} {execution : Execution ν}
    (present : domain.thread? id = some thread) (held : thread.execution = some execution)
    (frames : execution.frames = []) : domain.Bare id := by
  intro other executed there taken
  obtain rfl := Option.some.inj (present.symm.trans there)
  obtain rfl := Option.some.inj (held.symm.trans taken)
  exact frames

/-- Threads that keep what they execute. -/
theorem of_keeps (bare : domain.Bare id) (keeps : domain.Keeps next) : next.Bare id := by
  intro after execution there held
  rcases keeps.new id after there with ⟨before, present, kept⟩ | ⟨_, fresh⟩
  · rcases kept.execution with same | ⟨old, frame, frames, value, known, occupied, _, _⟩
    · exact bare before execution present (same.symm.trans held)
    · rw [bare before old present known] at occupied
      cases occupied
  · rw [fresh.1] at held
    cases held
    rfl

/-- Frames have been discarded. -/
theorem of_discard {reason : AbortReason} (done : domain.discard id reason = .ok next) :
    next.Bare id := by
  intro thread execution there held
  obtain ⟨before, present, ⟨old, _, rfl⟩ | ⟨taken, rfl⟩⟩ := discard_eq_ok done
  · rw [thread?_setThread present, if_pos rfl] at there
    cases there
    cases held
    rfl
  · rw [thread?_setThread present, if_pos rfl] at there
    cases there
    rw [taken] at held
    cases held

end Domain.Bare

namespace Config

variable {host : Host ν σ} {config other next : Config ν σ} {run : Run ν σ}
  {registers : Registers ν} {id thread : ThreadId} {unclosed : List (Function ν)}
  {reply : Answer ν → Body ν σ}

/-- What a thread has open is accounted for wherever its frames may be, other than in the run at
hand. -/
structure Covered (id : ThreadId) (unclosed : List (Function ν)) (config : Config ν σ) : Prop where
  domain : config.world.domain.Accounts id unclosed
  pending : ∀ work ∈ config.pending, work.Accounts id unclosed

/-- The frames of a thread account for what it has open, unless the machine has stopped for a
misuse. -/
inductive Accounts (id : ThreadId) (unclosed : List (Function ν)) (config : Config ν σ) : Prop where
  | faulted (fault : Fault) (focus : config.focus = .faulted fault)
  | covered (covered : config.Covered id unclosed) (focus : config.focus.Accounts id unclosed)

/-- A thread holds a single frame, which has not been entered. -/
inductive Fresh (id : ThreadId) (config : Config ν σ) : Prop where
  | parked (thread : Thread ν) (execution : Execution ν) (frame : Frame ν)
    (present : config.world.domain.thread? id = some thread)
    (held : thread.execution = some execution) (frames : execution.frames = [frame])
    (unrun : frame.pc = none)
  | begins (run : Run ν σ) (frame : Frame ν) (focus : config.focus = .enter run)
    (thread : run.thread = id) (frames : run.execution.frames = [frame]) (unrun : frame.pc = none)

/-- The frames of a thread account for what it has open, or a function has been started on it. -/
inductive Renews (id : ThreadId) (unclosed : List (Function ν)) (started : Prop)
    (config : Config ν σ) : Prop where
  | accounts (accounts : config.Accounts id unclosed)
  | fresh (started : started) (fresh : config.Fresh id)

/-- Nothing has been started. -/
theorem Renews.resolve {started : Prop} (renews : config.Renews id unclosed started)
    (nothing : ¬started) : config.Accounts id unclosed := by
  cases renews with
  | accounts accounts => exact accounts
  | fresh started => exact absurd started nothing

/-- The same function has been started. -/
theorem Renews.mono {started other : Prop} (renews : config.Renews id unclosed started)
    (implies : started → other) : config.Renews id unclosed other := by
  cases renews with
  | accounts accounts => exact .accounts accounts
  | fresh started fresh => exact .fresh (implies started) fresh

namespace Accounts

/-- Stopping for a misuse. -/
theorem stop (fault : Fault) : (config.goto (.faulted fault)).Accounts id unclosed :=
  .faulted fault rfl

/-- Going on with other work. -/
theorem goto {focus : Focus ν σ} (covered : config.Covered id unclosed)
    (accounts : focus.Accounts id unclosed) : (config.goto focus).Accounts id unclosed :=
  .covered ⟨covered.domain, covered.pending⟩ accounts

/-- Going on with a body. -/
theorem body {body : Body ν σ} (covered : config.Covered id unclosed) :
    (config.goto (.body body)).Accounts id unclosed := goto covered trivial

end Accounts

namespace Covered

/-- Only the domain and the work that waits matter. -/
theorem congr (covered : config.Covered id unclosed)
    (domain : other.world.domain = config.world.domain)
    (pending : other.pending = config.pending) : other.Covered id unclosed where
  domain := by
    rw [domain]
    exact covered.domain
  pending := by
    rw [pending]
    exact covered.pending

/-- The domain is replaced. -/
theorem setDomain {domain : Domain ν} (covered : config.Covered id unclosed)
    (accounts : domain.Accounts id unclosed) : (config.setDomain domain).Covered id unclosed :=
  ⟨accounts, covered.pending⟩

/-- A thread begins to run. -/
theorem launch {purpose : Purpose} (covered : config.Covered id unclosed)
    (occupied : ∀ found execution, config.world.domain.thread? thread = some found →
      found.execution = some execution → execution.frames ≠ []) :
    (config.launch host thread purpose reply).Accounts id unclosed := by
  refine attempt_induction .stop fun found looked => ?_
  have present := Domain.thread_eq_ok.1 looked
  split
  · exact .body covered
  · rename_i execution held
    have took : Domain.Accounts
        (config.world.domain.setThread thread { found with execution := none }) id unclosed :=
      covered.domain.setThread present (by simp)
    have activated : Domain.Accounts { config.world.domain.setThread thread
        { found with execution := none } with active := some thread } id unclosed := took
    refine .goto ((covered.setDomain activated).congr ?_ ?_) fun same => ?_
    · split <;> simp
    · split <;> simp
    · subst same
      exact (covered.domain found execution present held).resolve_left
        (occupied found execution present held)

/-- What follows an abort. A thread on which a function is started holds a single frame then. -/
theorem afterAbort {next : AfterAbort ν σ} (covered : config.Covered id unclosed)
    (accounts : (Pending.aborting next).Accounts id unclosed)
    (bare : next.starts? = some id → config.world.domain.Bare id) :
    (config.afterAbort host next).Renews id unclosed (next.starts? = some id) := by
  cases next with
  | reply next => exact .accounts (.body covered)
  | stop run function pc reason =>
    exact .accounts (.covered ⟨covered.domain, covered.pending⟩ fun _ => rfl)
  | start thread function purpose reply =>
    by_cases same : thread = id
    · subst same
      rcases afterAbort_start host config thread function purpose reply with ⟨fault, focus⟩ |
        ⟨found, present, ⟨taken, refused⟩ | ⟨execution, held, entered⟩⟩
      · exact .accounts (.faulted fault focus)
      · rw [refused]
        exact .accounts (.body covered)
      · rw [entered]
        have nothing := bare rfl found execution present held
        refine .fresh rfl ?_
        cases purpose with
        | none =>
          refine .parked _ _ _ ((Domain.thread?_setThread present _ thread).trans (if_pos rfl)) rfl
            (congrArg (List.cons _) nothing) rfl
        | some purpose =>
          obtain ⟨run, owner, _, _, executes, focus, _⟩ := @launch_enter _ _ host config thread
            reply found execution { function, base := 0, top := 0 } purpose present
          exact .begins run _ focus owner (by rw [executes, nothing]) rfl
    · refine .accounts (attempt_induction .stop fun found looked => ?_)
      have present := Domain.thread_eq_ok.1 looked
      split
      · exact .body covered
      · rename_i execution held
        have pushed : Domain.Accounts (config.world.domain.setThread thread { found with
            execution := some { execution with
              frames := { function, base := 0, top := 0 } :: execution.frames } }) id unclosed :=
          covered.domain.setThread present fun here => absurd here same
        cases purpose with
        | none => exact .body (covered.setDomain pushed)
        | some purpose =>
          refine launch (covered.setDomain pushed) fun other executed there taken => ?_
          rw [setDomain_world, Domain.thread?_setThread present, if_pos rfl] at there
          cases there
          cases taken
          simp

/-- A thread is detached. -/
theorem detach {next : AfterAbort ν σ} (covered : config.Covered id unclosed)
    (accounts : (Pending.aborting next).Accounts id unclosed)
    (bare : next.starts? = some id → config.world.domain.Bare id) :
    (config.detach host thread next).Renews id unclosed (next.starts? = some id) := by
  refine attempt_induction (fun fault => .accounts (.stop fault)) fun ⟨domain, hook⟩ done => ?_
  have keeps := Domain.Keeps.detach done
  have detached := covered.setDomain (covered.domain.of_keeps keeps)
  have left (starts : next.starts? = some id) : domain.Bare id := (bare starts).of_keeps keeps
  dsimp only
  split
  · exact detached.afterAbort accounts left
  · exact afterAbort ⟨detached.domain, detached.pending⟩ accounts left
  · refine .accounts (.covered ⟨detached.domain, fun work waiting => ?_⟩ trivial)
    rcases List.mem_cons.1 waiting with same | earlier
    · rw [same]
      exact accounts
    · exact covered.pending work earlier

/-- A thread is aborted. -/
theorem abort {next : AfterAbort ν σ} {reason : AbortReason} (covered : config.Covered id unclosed)
    (accounts : (Pending.aborting next).Accounts id unclosed)
    (starts : ∀ started, next.starts? = some started → thread = started) :
    (config.abort host thread reason next).Renews id unclosed (next.starts? = some id) := by
  refine attempt_induction (fun fault => .accounts (.stop fault)) fun domain done => ?_
  refine detach (covered.setDomain (covered.domain.discard done)) accounts fun started => ?_
  obtain rfl := starts id started
  exact .of_discard done

/-- A thread is given a fresh frame. -/
theorem start {called : FunctionId} {purpose : Option Purpose}
    (covered : config.Covered id unclosed) :
    (config.start host thread called purpose reply).Renews id unclosed (thread = id) := by
  refine start_induction (fun fault => .accounts (.stop fault)) (fun _ => .accounts (.body covered))
    (fun _ _ _ => .accounts (.body covered))
    fun function _ _ _ present held => ⟨fun _ => ?_, fun _ frames => ?_⟩
  · exact (@abort _ _ host config id thread unclosed (.start thread function purpose reply)
      .requested covered trivial fun _ => Option.some.inj).mono Option.some.inj
  · refine (@afterAbort _ _ host config id unclosed (.start thread function purpose reply) covered
      trivial fun same => ?_).mono Option.some.inj
    cases same
    exact .of_present present held frames

/-- A thread goes on. -/
theorem continueThread {purpose : Purpose} (covered : config.Covered id unclosed) :
    (config.continueThread host thread purpose reply).Accounts id unclosed := by
  refine attempt_induction .stop fun found looked => ?_
  have present := Domain.thread_eq_ok.1 looked
  have released := covered.setDomain (covered.domain.of_keeps (Domain.Keeps.setThread present
    (.of_same rfl rfl : found.Keeps { found with suspended := false, hook := none })))
  dsimp only
  split
  · exact .body released
  · rename_i occupied
    refine launch released fun other execution there held bare => ?_
    rw [setDomain_world, Domain.thread?_setThread present, if_pos rfl] at there
    cases there
    exact occupied execution.stack (held.trans (by rw [← bare]))

/-- The host resumes a thread. -/
theorem resume (covered : config.Covered id unclosed) :
    (config.resume host thread reply).Accounts id unclosed :=
  resume_induction .stop (fun _ => .body covered) fun _ _ _ _ _ => covered.continueThread

/-- A thread is woken through its queue. -/
theorem wake {queue : QueueId} {value : Option Int32} (covered : config.Covered id unclosed) :
    (config.wake host queue value reply).Accounts id unclosed := by
  refine wake_induction .stop (fun _ => .body covered) (fun _ _ _ _ _ => .body covered)
    fun _ _ _ _ _ _ _ done => ?_
  have left := covered.setDomain (covered.domain.of_updated (.pop done))
  refine ⟨.stop, fun _ _ => .body left, fun supplied handed => ?_⟩
  exact (left.setDomain (left.domain.of_updated (Evolves.handResult handed).1)).continueThread

/-- A request is carried out. -/
theorem perform {request : Request ν} (covered : config.Covered id unclosed) :
    (config.perform host request reply).Renews id unclosed (request.starts? = some id) := by
  have aborts {thread : ThreadId} (reason : AbortReason) :
      (config.abort host thread reason (.reply reply)).Accounts id unclosed :=
    (@abort _ _ host config id thread unclosed (.reply reply) reason covered trivial
      (by simp [AfterAbort.starts?])).resolve (by simp [AfterAbort.starts?])
  cases request with
  | observe => exact .accounts (.body covered)
  | update update =>
    refine .accounts (attempt_induction .stop fun ⟨world, answer⟩ done => ?_)
    refine .covered ⟨?_, covered.pending⟩ trivial
    obtain ⟨function, _, registered⟩ | updated := Update.updated_of_apply done
    · dsimp only
      rw [registered]
      exact covered.domain
    · exact covered.domain.of_updated updated
  | start thread function | run thread function | runInt thread function =>
    exact covered.start.mono (congrArg some)
  | resume thread => exact .accounts covered.resume
  | abort thread => exact .accounts (aborts .requested)
  | faultActive error =>
    unfold Config.perform
    dsimp only
    split
    · exact .accounts (.body covered)
    · exact .accounts (aborts (.badArgument error))
  | wake queue value => exact .accounts covered.wake

/-- A native method answers. -/
theorem returnNative {call : NativeCall} {value : Int32} (covered : config.Covered id unclosed)
    (inside : run.thread = id → run.Inside registers.function unclosed) :
    (config.returnNative host run registers call value).Accounts id unclosed := by
  refine returnNative_induction fun shown emitted => ?_
  replace covered : shown.Covered id unclosed :=
    covered.congr (by rw [← emitted, emit_world]) (by rw [← emitted, emit_pending])
  refine ⟨.stop, fun stack thread _ present => ⟨fun reason _ => ?_, fun _ _ => ?_, fun _ _ => ?_⟩⟩
  · have honored : Domain.Accounts (shown.world.domain.setThread run.thread
        { thread with pendingAbort := none }) id unclosed :=
      covered.domain.setThread present fun same execution held =>
        covered.domain thread execution (same ▸ present) held
    refine (@detach _ _ host (shown.setDomain _) id run.thread unclosed
      (.stop (run.setStack stack) registers.function call.pc reason) (covered.setDomain honored)
      (fun same => ?_) (by simp [AfterAbort.starts?])).resolve (by simp [AfterAbort.starts?])
    obtain ⟨frame, outer, frames, here⟩ := inside same
    simp [Run.setStack, frames, here]
  · refine .goto (covered.congr (by simp) (by simp)) fun same => ?_
    rw [Run.thread_saveFrame] at same
    obtain ⟨frame, outer, frames, here, saved⟩ := inside same
    simpa [Run.saveFrame, Run.setStack, Run.setFrames, frames, here] using saved
  · exact .goto covered fun same => (inside same).of_frames rfl

/-- A run ends. -/
theorem finishRun {outcome : Outcome} (covered : config.Covered id unclosed)
    (focus : (Focus.ended run outcome).Accounts id unclosed) :
    (config.finishRun host run outcome).Accounts id unclosed := by
  refine attempt_induction .stop fun thread found => ?_
  have gave : Domain.Accounts (config.world.domain.setThread run.thread
      { thread with execution := some run.execution, pendingAbort := none }) id unclosed := by
    refine covered.domain.setThread (Domain.thread_eq_ok.1 found) fun same _ held => ?_
    cases held
    cases outcome with
    | completed => exact .inl (focus same).1
    | aborted info => exact .inl (focus same)
    | suspended =>
      obtain ⟨saved, rfl⟩ := focus same
      exact .inr (.entered saved)
  have left : Covered id unclosed (config.setDomain { config.world.domain.setThread run.thread
      { thread with execution := some run.execution, pendingAbort := none } with
        active := run.previous }) := ⟨gave, covered.pending⟩
  exact .body (left.congr (by simp) (by simp))

end Covered

end Config

end ScriptMachine

import ScriptMachine.Proofs.FrameAccounts
import ScriptMachine.Proofs.Histories
import ScriptMachine.Proofs.RunningThreads

/-!
# Whereabouts of frames

The frames and the operand stack of a thread are in one place at a time: in the run in progress that
has the thread, or in the domain if there is none. Requests move them from place to place, and leave
them as they are, unless they hand the thread a result, discard its frames or start a function. So a
property of what a thread executes lasts if it does not mind losing all frames but one, and is kept
by the instructions and the results of the thread.
-/

namespace ScriptMachine

variable {ν σ : Type}

namespace Domain

variable {domain next : Domain ν} {id other : ThreadId} {fine : Execution ν → Prop}

/-! ## Threads that do not run -/

/-- The thread executes what it did, or is new and executes nothing. -/
def Carries (domain next : Domain ν) (id : ThreadId) : Prop :=
  ∀ after, next.thread? id = some after →
    (∃ before, domain.thread? id = some before ∧ after.execution = before.execution) ∨
      after.execution = some {}

namespace Carries

/-- The same threads. -/
theorem of_threads (threads : next.threads = domain.threads) : domain.Carries next id := by
  intro after there
  rw [thread?, threads] at there
  exact .inl ⟨after, there, rfl⟩

/-- One thread is replaced by one that executes the same. -/
theorem of_thread {before after : Thread ν} (present : domain.thread? other = some before)
    (threads : ∀ id, next.thread? id = if id = other then some after else domain.thread? id)
    (same : after.execution = before.execution) : domain.Carries next id := by
  intro found there
  rw [threads] at there
  split at there
  · rename_i here
    cases there
    exact .inl ⟨before, here ▸ present, same⟩
  · exact .inl ⟨found, there, rfl⟩

/-- Some threads record another queue. -/
theorem of_waitingOn {ids : List ThreadId} {waitingOn : Option QueueId}
    (threads : ∀ other, next.thread? other =
      if other ∈ ids then (domain.thread? other).map fun thread => { thread with waitingOn }
      else domain.thread? other) : domain.Carries next id := by
  intro found there
  rw [threads] at there
  split at there
  · obtain ⟨before, present, same⟩ := Option.map_eq_some_iff.1 there
    exact .inl ⟨before, present, same ▸ rfl⟩
  · exact .inl ⟨found, there, rfl⟩

/-- A new thread. -/
theorem createThread (domain : Domain ν) : domain.Carries domain.createThread.1 id := by
  intro after there
  simp only [Domain.createThread, createQueue, thread?, Array.getElem?_push] at there
  split at there
  · cases there
    exact .inr rfl
  · exact .inl ⟨after, there, rfl⟩

/-- The domain is emptied. -/
theorem clear (done : domain.clear = .ok next) : domain.Carries next id := by
  unfold Domain.clear at done
  split at done <;> cases done
  intro after there
  simp [thread?] at there

/-- A thread is suspended. -/
theorem suspend {hook : Option (AbortHook ν)} (done : domain.suspend other hook = .ok next) :
    domain.Carries next id := by
  obtain ⟨thread, present, rfl⟩ := suspend_eq_ok done
  exact of_thread present (thread?_setThread present _) rfl

/-- A thread is parked. -/
theorem park {queue : QueueId} (done : domain.park queue other = .ok next) :
    domain.Carries next id := by
  obtain ⟨thread, present, threads, _⟩ := park_eq_ok done
  exact of_thread present threads rfl

/-- A waiter is popped. -/
theorem popWaiter {queue : QueueId} {popped : Option ThreadId}
    (done : domain.popWaiter queue = .ok (next, popped)) : domain.Carries next id := by
  obtain ⟨_, rfl, _⟩ | ⟨head, rest, thread, _, _, present, threads, _⟩ := popWaiter_eq_ok done
  · exact of_threads rfl
  · exact of_thread present threads rfl

/-- A waiter is transferred. -/
theorem transferNext {source target : QueueId} {moved : Option ThreadId}
    (done : domain.transferNext source target = .ok (next, moved)) : domain.Carries next id := by
  obtain ⟨rfl, _⟩ | ⟨head, rest, thread, _, _, present, threads, _⟩ := transferNext_eq_ok done
  · exact of_threads rfl
  · exact of_thread present threads rfl

/-- All waiters are transferred. -/
theorem transferAll {source target : QueueId} (done : domain.transferAll source target = .ok next) :
    domain.Carries next id := by
  obtain ⟨rfl, _⟩ | ⟨_, threads, _⟩ := transferAll_eq_ok done
  · exact of_threads rfl
  · exact of_waitingOn threads

/-- A queue is emptied. -/
theorem resetQueue {queue : QueueId} (done : domain.resetQueue queue = .ok next) :
    domain.Carries next id := of_waitingOn (resetQueue_eq_ok done).1

/-- A thread is detached. -/
theorem detach {hook : Option (AbortHook ν)} (done : domain.detach other = .ok (next, hook)) :
    domain.Carries next id := by
  obtain ⟨thread, present, _, threads, _⟩ := detach_eq_ok done
  exact of_thread present threads rfl

end Carries

end Domain

open Domain in
/-- An update leaves to a thread what it executes, unless it supplies the thread with a result. -/
theorem Update.carries_of_apply {world next : World ν} {update : Update ν} {answer : Answer ν}
    (done : update.apply world = .ok (next, answer)) (id : ThreadId) :
    world.domain.Carries next.domain id ∨ ∃ value, update = .supplyResult id value ∧
      world.domain.supplyResult id value = .ok (.ok next.domain) := by
  cases yields_of_apply done with
  | @supplyResult other value domain supplied =>
    by_cases same : other = id
    · subst same
      exact .inr ⟨value, rfl, supplied⟩
    · obtain ⟨thread, _, _, _, present, _, _, _, _, _, _, rfl⟩ := supplyResult_eq_ok supplied
      refine .inl fun after there => .inl ⟨after, ?_, rfl⟩
      rwa [thread?_setThread present, if_neg (Ne.symm same)] at there
  | clear cleared => exact .inl (.clear cleared)
  | setThreadVariable present =>
    exact .inl (.of_thread present (thread?_setThread present _) rfl)
  | createThread => exact .inl (.createThread _)
  | suspend suspended | suspendActive _ suspended | sleepActive _ _ suspended =>
    exact .inl (.suspend suspended)
  | park parked => exact .inl (.park parked)
  | popWaiter popped => exact .inl (.popWaiter popped)
  | transferNext moved => exact .inl (.transferNext moved)
  | transferAll moved => exact .inl (.transferAll moved)
  | resetQueue emptied => exact .inl (.resetQueue emptied)
  | hold | unhold =>
    exact .inl (.of_threads (by simp only [World.hold, World.unhold, World.modifyArguments_frame]))
  | _ => exact .inl (.of_threads rfl)

namespace Domain

variable {domain next : Domain ν} {id other : ThreadId} {fine : Execution ν → Prop}

/-- If the thread does not run, what it executes is like this. -/
def Executes (domain : Domain ν) (id : ThreadId) (fine : Execution ν → Prop) : Prop :=
  ∀ thread execution, domain.thread? id = some thread → thread.execution = some execution →
    fine execution

/-- What the thread executes is like this once it has been handed a result. -/
def Takes (domain : Domain ν) (id : ThreadId) (fine : Execution ν → Prop) : Prop :=
  ∀ thread execution frame outer (value : Int32), domain.thread? id = some thread →
    thread.execution = some execution → execution.frames = frame :: outer → frame.pc.isSome →
    fine { execution with stack := execution.stack.set! (frame.top - 1) value }

namespace Executes

/-- A thread that executes what it did, or nothing. -/
theorem carried (executes : domain.Executes id fine) (carries : domain.Carries next id)
    (bare : fine {}) : next.Executes id fine := by
  intro after execution there held
  rcases carries after there with ⟨before, present, same⟩ | nothing
  · exact executes before execution present (same ▸ held)
  · obtain rfl := Option.some.inj (nothing.symm.trans held)
    exact bare

/-- A thread is replaced. -/
theorem setThread {before after : Thread ν} (executes : domain.Executes id fine)
    (present : domain.thread? other = some before)
    (replaced : other = id → ∀ execution, after.execution = some execution → fine execution) :
    (domain.setThread other after).Executes id fine := by
  intro thread execution there held
  rw [thread?_setThread present] at there
  split at there
  · rename_i here
    cases there
    exact replaced here.symm execution held
  · exact executes thread execution there held

/-- Frames are discarded. -/
theorem discard {reason : AbortReason} (executes : domain.Executes id fine)
    (short : ∀ execution : Execution ν, execution.frames.length ≤ 1 → fine execution)
    (done : domain.discard other reason = .ok next) : next.Executes id fine := by
  obtain ⟨thread, present, ⟨execution, held, rfl⟩ | ⟨taken, rfl⟩⟩ := discard_eq_ok done
  · refine executes.setThread present fun _ after held => ?_
    cases held
    exact short _ (Nat.zero_le 1)
  · refine executes.setThread present fun _ after held => ?_
    rw [taken] at held
    cases held

/-- The thread is supplied with a result. -/
theorem supplied {value : Int32} (takes : domain.Takes id fine)
    (done : domain.supplyResult id value = .ok (.ok next)) : next.Executes id fine := by
  obtain ⟨thread, execution, frame, outer, present, _, held, frames, saved, _, _, rfl⟩ :=
    supplyResult_eq_ok done
  intro after written there holds
  rw [thread?_setThread present, if_pos rfl] at there
  cases there
  cases holds
  exact takes thread execution frame outer value present held frames saved

end Executes

/-- A thread that executes what it did can be handed a result as before. -/
theorem Takes.carried (takes : domain.Takes id fine) (carries : domain.Carries next id) :
    next.Takes id fine := by
  intro after execution frame outer value there held frames saved
  rcases carries after there with ⟨before, present, same⟩ | nothing
  · exact takes before execution frame outer value present (same ▸ held) frames saved
  · obtain rfl := Option.some.inj (nothing.symm.trans held)
    cases frames

end Domain

/-- The thread that the request hands a result to: it supplies the thread with one, or wakes the
thread with one. -/
def Request.handed? (domain : Domain ν) : Request ν → Option ThreadId
  | .update (.supplyResult id _) => some id
  | .wake queue (some _) => (domain.waitersOf queue).head?
  | _ => none

namespace Config

variable {host : Host ν σ} {config other : Config ν σ} {run : Run ν σ} {id thread : ThreadId}
  {fine : Execution ν → Prop} {reply : Answer ν → Body ν σ}

/-! ## The place of frames -/

/-- The frames and the operand stack of a thread: those of the run in progress that has the thread,
or those that the thread itself holds. -/
def execution? (config : Config ν σ) (id : ThreadId) : Option (Execution ν) :=
  match config.runs.find? (·.thread = id) with
  | some run => some run.execution
  | none => (config.world.domain.thread? id).bind Thread.execution

/-- What the thread executes is like this wherever it may be, other than in the run at hand. -/
structure Aside (id : ThreadId) (fine : Execution ν → Prop) (config : Config ν σ) : Prop where
  domain : config.world.domain.Executes id fine
  pending : ∀ work ∈ config.pending, ∀ run, work.run? = some run → run.thread = id →
    fine run.execution

/-- What the thread executes is like this wherever it may be. -/
structure Executes (id : ThreadId) (fine : Execution ν → Prop) (config : Config ν σ) : Prop
    extends Aside id fine config where
  focus : ∀ run, config.focus.run? = some run → run.thread = id → fine run.execution

/-- What the thread executes is in one place only. -/
theorem Disciplined.executes {execution : Execution ν} (disciplined : config.Disciplined)
    (found : config.execution? id = some execution) (good : fine execution) :
    config.Executes id fine := by
  -- A run of the thread has its frames, and the thread has none of its own then.
  have runs {run : Run ν σ} (listed : run ∈ config.runs) (same : run.thread = id) :
      config.execution? id = some run.execution := by
    have running : (config.runs.find? (·.thread = id)).isSome :=
      List.find?_isSome.2 ⟨run, listed, by simpa using same⟩
    obtain ⟨first, found⟩ := Option.isSome_iff_exists.1 running
    have here : first.thread = id := by simpa using List.find?_some found
    obtain rfl := List.inj_on_of_nodup_map disciplined.distinct (List.mem_of_find?_eq_some found)
      listed (here.trans same.symm)
    simp only [execution?, found]
  have held {run : Run ν σ} (listed : run ∈ config.runs) (same : run.thread = id) :
      fine run.execution := by
    obtain rfl := Option.some.inj (found.symm.trans (runs listed same))
    exact good
  refine ⟨⟨fun thread other present holds => ?_, fun work waiting run waits same => ?_⟩,
    fun run atHand same => ?_⟩
  · cases running : config.runs.find? (·.thread = id) with
    | some run =>
      have here : run.thread = id := by simpa using List.find?_some running
      obtain ⟨_, there, taken⟩ := (disciplined.taken id).1
        (List.mem_map.2 ⟨run, List.mem_of_find?_eq_some running, here⟩)
      obtain rfl := Option.some.inj (present.symm.trans there)
      rw [holds] at taken
      cases taken
    | none =>
      simp only [execution?, running, present, Option.bind_some, holds, Option.some.injEq] at found
      rwa [found]
  · exact held (List.mem_append_right _ (List.mem_filterMap.2 ⟨work, waiting, waits⟩)) same
  · exact held (List.mem_append_left _ (by simp [atHand])) same

/-- What is said of all places is said of the one where the frames are. -/
theorem Executes.of_execution? {execution : Execution ν} (executes : config.Executes id fine)
    (found : config.execution? id = some execution) : fine execution := by
  unfold execution? at found
  split at found
  · rename_i run running
    cases found
    have same : run.thread = id := by simpa using List.find?_some running
    rcases List.mem_append.1 (List.mem_of_find?_eq_some running) with atHand | waiting
    · exact executes.focus run (by simpa using atHand) same
    · obtain ⟨work, waits, has⟩ := List.mem_filterMap.1 waiting
      exact executes.pending work waits run has same
  · obtain ⟨thread, present, held⟩ := Option.bind_eq_some_iff.1 found
    exact executes.domain thread execution present held

/-- A run at hand has the frames of its thread. -/
theorem execution?_of_run (focus : config.focus.run? = some run) :
    config.execution? run.thread = some run.execution := by
  simp only [execution?, runs, focus, Option.toList_some, List.singleton_append,
    List.find?_cons_of_pos, decide_true]

/-- How many frames a thread has. -/
def depth (config : Config ν σ) (id : ThreadId) : Nat :=
  ((config.execution? id).map fun execution => execution.frames.length).getD 0

/-- A thread that has frames has them somewhere. -/
theorem exists_of_depth {least : Nat} (deep : least < config.depth id) :
    ∃ execution, config.execution? id = some execution ∧ least < execution.frames.length := by
  unfold depth at deep
  cases found : config.execution? id with
  | none =>
    rw [found] at deep
    exact absurd deep (Nat.not_lt_zero _)
  | some execution =>
    rw [found] at deep
    exact ⟨execution, rfl, deep⟩

/-! ## Requests -/

/-- A woken thread is handed a result, if one is given. -/
theorem executes_handResult {domain next : Domain ν} {value : Option Int32}
    (executes : domain.Executes id fine)
    (takes : thread = id → value.isSome → domain.Takes id fine)
    (done : handResult domain thread value = .ok (.ok next)) : next.Executes id fine := by
  cases value with
  | none =>
    cases done
    exact executes
  | some value =>
    obtain ⟨result, found, rest⟩ := bind_eq_ok.1 done
    split at rest
    · cases rest
      exact executes
    · cases rest
      exact executes
    · cases rest
      by_cases same : thread = id
      · subst same
        exact .supplied (takes rfl rfl) found
      · obtain ⟨before, _, _, _, present, _, _, _, _, _, _, rfl⟩ :=
          Domain.supplyResult_eq_ok found
        exact executes.setThread present fun here => absurd here same

namespace Aside

/-- Only the domain and the work that waits matter. -/
theorem congr (aside : config.Aside id fine) (domain : other.world.domain = config.world.domain)
    (pending : other.pending = config.pending) : other.Aside id fine where
  domain := by
    rw [domain]
    exact aside.domain
  pending := by
    rw [pending]
    exact aside.pending

/-- What is weaker holds too. -/
theorem mono {weaker : Execution ν → Prop} (aside : config.Aside id fine)
    (implies : ∀ execution, fine execution → weaker execution) : config.Aside id weaker :=
  ⟨fun found execution present held => implies _ (aside.domain found execution present held),
    fun work waiting run has same => implies _ (aside.pending work waiting run has same)⟩

/-- The innermost work no longer waits. -/
theorem resumed {work : Pending ν σ} {rest : List (Pending ν σ)} (aside : config.Aside id fine)
    (waiting : config.pending = work :: rest) : Aside id fine { config with pending := rest } :=
  ⟨aside.domain, fun work later => aside.pending work (waiting ▸ List.mem_cons_of_mem _ later)⟩

/-- The domain is replaced. -/
theorem setDomain {domain : Domain ν} (aside : config.Aside id fine)
    (executes : domain.Executes id fine) : (config.setDomain domain).Aside id fine :=
  ⟨executes, aside.pending⟩

/-- Going on with other work. -/
theorem goto {focus : Focus ν σ} (aside : config.Aside id fine)
    (atHand : ∀ run, focus.run? = some run → run.thread = id → fine run.execution) :
    (config.goto focus).Executes id fine := ⟨⟨aside.domain, aside.pending⟩, atHand⟩

/-- Going on without a run at hand. -/
theorem idle {focus : Focus ν σ} (aside : config.Aside id fine) (nothing : focus.run? = none) :
    (config.goto focus).Executes id fine := by
  refine aside.goto fun run atHand => ?_
  rw [nothing] at atHand
  cases atHand

/-- A thread begins to run. -/
theorem launch {purpose : Purpose} (aside : config.Aside id fine) :
    (config.launch host thread purpose reply).Executes id fine := by
  refine attempt_induction (fun fault => aside.idle rfl) fun found looked => ?_
  have present := Domain.thread_eq_ok.1 looked
  split
  · exact aside.idle rfl
  · rename_i execution held
    have took : Domain.Executes
        (config.world.domain.setThread thread { found with execution := none }) id fine :=
      aside.domain.setThread present (by simp)
    have activated : Domain.Executes { config.world.domain.setThread thread
        { found with execution := none } with active := some thread } id fine := took
    refine goto ((aside.setDomain activated).congr ?_ ?_) fun run begins same => ?_
    · split <;> simp
    · split <;> simp
    · cases begins
      subst same
      exact aside.domain found execution present held

/-- A run gives the thread its frames back. -/
theorem finishRun {outcome : Outcome} (aside : config.Aside id fine)
    (had : run.thread = id → fine run.execution) :
    (config.finishRun host run outcome).Executes id fine := by
  refine attempt_induction (fun fault => aside.idle rfl) fun found looked => ?_
  have gave : Domain.Executes (config.world.domain.setThread run.thread
      { found with execution := some run.execution, pendingAbort := none }) id fine :=
    aside.domain.setThread (Domain.thread_eq_ok.1 looked) fun same execution held => by
      cases held
      exact had same
  have left : Aside id fine (config.setDomain { config.world.domain.setThread run.thread
      { found with execution := some run.execution, pendingAbort := none } with
        active := run.previous }) := ⟨gave, aside.pending⟩
  exact (left.congr (by simp) (by simp)).idle rfl

/-- A thread goes on. -/
theorem continueThread {purpose : Purpose} (aside : config.Aside id fine) (bare : fine {}) :
    (config.continueThread host thread purpose reply).Executes id fine := by
  refine attempt_induction (fun fault => aside.idle rfl) fun found looked => ?_
  have present := Domain.thread_eq_ok.1 looked
  have released := aside.setDomain (aside.domain.carried (Domain.Carries.of_thread present
    (Domain.thread?_setThread present { found with suspended := false, hook := none }) rfl) bare)
  dsimp only
  split
  · exact released.idle rfl
  · exact released.launch

/-- The host resumes a thread. -/
theorem resume (aside : config.Aside id fine) (bare : fine {}) :
    (config.resume host thread reply).Executes id fine :=
  resume_induction (fun _ => aside.idle rfl) (fun _ => aside.idle rfl)
    fun _ _ _ _ _ => aside.continueThread bare

/-- A thread is woken through its queue. -/
theorem wake {queue : QueueId} {value : Option Int32} (aside : config.Aside id fine)
    (bare : fine {})
    (takes : (Request.wake queue value).handed? config.world.domain = some id →
      config.world.domain.Takes id fine) :
    (config.wake host queue value reply).Executes id fine := by
  refine wake_induction (fun _ => aside.idle rfl) (fun _ => aside.idle rfl)
    (fun _ _ _ _ _ => aside.idle rfl) fun waiter _ domain _ first _ _ done => ?_
  have carries : config.world.domain.Carries domain id := .popWaiter done
  have left := aside.setDomain (aside.domain.carried carries bare)
  refine ⟨fun _ => left.idle rfl, fun _ _ => left.idle rfl, fun supplied handed => ?_⟩
  have executes := executes_handResult left.domain (fun same given => by
    obtain ⟨value, rfl⟩ := Option.isSome_iff_exists.1 given
    subst same
    exact (takes first).carried carries) handed
  exact (left.setDomain executes).continueThread bare

variable (short : ∀ execution : Execution ν, execution.frames.length ≤ 1 → fine execution)
include short

/-- A run is aborted. -/
theorem abortRun {function : Function ν} {pc : Nat} {reason : AbortReason}
    (aside : config.Aside id fine) :
    (config.abortRun host run function pc reason).Executes id fine := by
  refine ⟨⟨aside.domain, aside.pending⟩, fun last ended _ => ?_⟩
  cases ended
  exact short _ (Nat.zero_le 1)

/-- What follows an abort. A function is started on a thread without frames. -/
theorem afterAbort {next : AfterAbort ν σ} (aside : config.Aside id fine)
    (bare : next.starts? = some id → config.world.domain.Bare id) :
    (config.afterAbort host next).Executes id fine := by
  cases next with
  | reply next => exact aside.idle rfl
  | stop run function pc reason => exact aside.abortRun short
  | start thread function purpose reply =>
    refine attempt_induction (fun fault => aside.idle rfl) fun found looked => ?_
    have present := Domain.thread_eq_ok.1 looked
    split
    · exact aside.idle rfl
    · rename_i execution held
      have pushed : Domain.Executes (config.world.domain.setThread thread { found with
          execution := some { execution with
            frames := { function, base := 0, top := 0 } :: execution.frames } }) id fine :=
        aside.domain.setThread present fun same fresh holds => by
          cases holds
          subst same
          have nothing := bare rfl found execution present held
          exact short _ (by simp [nothing])
      cases purpose with
      | none => exact (aside.setDomain pushed).idle rfl
      | some purpose => exact (aside.setDomain pushed).launch

/-- A thread is detached. -/
theorem detach {next : AfterAbort ν σ} (aside : config.Aside id fine)
    (had : ∀ run, next.run? = some run → run.thread = id → fine run.execution)
    (bare : next.starts? = some id → config.world.domain.Bare id) :
    (config.detach host thread next).Executes id fine := by
  refine attempt_induction (fun fault => aside.idle rfl) fun ⟨domain, hook⟩ done => ?_
  have keeps := Domain.Keeps.detach done
  have detached := aside.setDomain (aside.domain.carried (.detach done) (short _ (Nat.zero_le 1)))
  have left (starts : next.starts? = some id) : domain.Bare id := (bare starts).of_keeps keeps
  dsimp only
  split
  · exact detached.afterAbort short left
  · exact afterAbort short ⟨detached.domain, detached.pending⟩ left
  · refine ⟨⟨detached.domain, fun work waiting => ?_⟩, fun run atHand => by cases atHand⟩
    rcases List.mem_cons.1 waiting with same | earlier
    · subst same
      exact had
    · exact aside.pending work earlier

/-- A thread is aborted. -/
theorem abort {next : AfterAbort ν σ} {reason : AbortReason} (aside : config.Aside id fine)
    (nothing : next.run? = none) (starts : ∀ started, next.starts? = some started →
      thread = started) : (config.abort host thread reason next).Executes id fine := by
  refine attempt_induction (fun fault => aside.idle rfl) fun domain done => ?_
  refine detach short (aside.setDomain (aside.domain.discard short done)) (fun run found => ?_)
    fun started => ?_
  · rw [nothing] at found
    cases found
  · obtain rfl := starts id started
    exact .of_discard done

/-- A function is started on a thread. -/
theorem start {called : FunctionId} {purpose : Option Purpose} (aside : config.Aside id fine) :
    (config.start host thread called purpose reply).Executes id fine := by
  refine start_induction (fun _ => aside.idle rfl) (fun _ => aside.idle rfl)
    (fun _ _ _ => aside.idle rfl)
    fun _ _ _ _ present held => ⟨fun _ => ?_, fun _ frames => ?_⟩
  · exact aside.abort short rfl fun _ => Option.some.inj
  · refine aside.afterAbort short fun same => ?_
    cases same
    exact .of_present present held frames

/-- A request is carried out. -/
theorem perform {request : Request ν} (aside : config.Aside id fine)
    (takes : request.handed? config.world.domain = some id → config.world.domain.Takes id fine) :
    (config.perform host request reply).Executes id fine := by
  have bare : fine {} := short _ (Nat.zero_le 1)
  have aborts {thread : ThreadId} (reason : AbortReason) :
      (config.abort host thread reason (.reply reply)).Executes id fine :=
    aside.abort short rfl (by simp [AfterAbort.starts?])
  cases request with
  | observe => exact aside.idle rfl
  | update update =>
    refine attempt_induction (fun fault => aside.idle rfl) fun applied done => ?_
    obtain ⟨world, answer⟩ := applied
    refine ⟨⟨?_, aside.pending⟩, fun run atHand => by cases atHand⟩
    rcases Update.carries_of_apply done id with carries | ⟨value, rfl, supplied⟩
    · exact aside.domain.carried carries bare
    · exact .supplied (takes rfl) supplied
  | start thread function | run thread function | runInt thread function =>
    exact aside.start short
  | resume thread => exact aside.resume bare
  | abort thread => exact aborts .requested
  | faultActive error =>
    unfold Config.perform
    dsimp only
    split
    · exact aside.idle rfl
    · exact aborts (.badArgument error)
  | wake queue value => exact aside.wake bare takes

end Aside

/-! ## Instructions -/

/-- Nothing waits but this run and the work that is listed. -/
def WaitsBeside (run : Run ν σ) (listed : List (Pending ν σ)) (config : Config ν σ) : Prop :=
  ∀ work ∈ config.pending, work.run? = some run ∨ work ∈ listed

/-- The listed work waits. -/
theorem WaitsBeside.of_eq {listed : List (Pending ν σ)} (same : config.pending = listed) :
    config.WaitsBeside run listed := fun _ waits => .inr (same ▸ waits)

/-- Nothing waits after an instruction but what has waited before, and the run itself if it has
called a native method. -/
theorem waitsBeside_execute {registers : Registers ν} :
    (config.execute host run registers).WaitsBeside run config.pending := by
  refine execute_induction (.of_eq rfl) fun _ _ shown _ emitted => ?_
  have same : shown.pending = config.pending := by rw [← emitted, emit_pending]
  refine {
    stops _ := .of_eq same
    aborts _ := .of_eq same
    goes _ _ _ _ := .of_eq same
    writes _ _ _ _ := .of_eq same
    native _ _ _ _ _ := ?_
    script _ _ _ _ := callScript_induction (fun _ => .of_eq same) (fun _ => .of_eq same)
      fun _ _ _ => ⟨fun _ _ _ => .of_eq same, fun _ => .of_eq same⟩
    leaves _ _ _ := .of_eq (by simp [leaveFrame, same]) }
  unfold callNative
  split
  · exact .of_eq same
  · dsimp only
    split
    · intro work waits
      rcases List.mem_cons.1 waits with rfl | earlier
      · exact .inl rfl
      · rw [emit_pending, same] at earlier
        exact .inr earlier
    · exact .of_eq (by simp [same])

/-- Beside the run at hand, an instruction leaves what threads execute as it is. -/
theorem Aside.execute {registers : Registers ν} (aside : config.Aside id fine)
    (had : run.thread = id → fine run.execution) :
    (config.execute host run registers).Aside id fine where
  domain := by
    unfold Domain.Executes Domain.thread?
    rw [threads_execute]
    exact aside.domain
  pending work waits other has same := by
    rcases waitsBeside_execute work waits with itself | earlier
    · obtain rfl := Option.some.inj (itself.symm.trans has)
      exact had same
    · exact aside.pending work earlier other has same

end Config

end ScriptMachine

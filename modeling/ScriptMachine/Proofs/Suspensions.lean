import ScriptMachine.Proofs.Links
import ScriptMachine.Proofs.Nesting
import ScriptMachine.Proofs.Sleeping

/-!
# Suspensions

A thread records whether it is suspended, the queue it waits in and the hook that is armed. A step
leaves this record alone, up to the queue that the thread leaves or changes, unless a body suspends
the thread anew, lets it go on, or aborts it. An abort is the only one of these that looks at the
hook: it takes a sleeping thread from the sleepers.
-/

namespace ScriptMachine

variable {ν σ : Type}

/-- What a thread records of its suspension. -/
structure Suspension (ν : Type) where
  suspended : Bool := false
  waitingOn : Option QueueId := none
  hook : Option (AbortHook ν) := none

/-- What a thread records of its suspension. -/
def Thread.suspension (thread : Thread ν) : Suspension ν :=
  ⟨thread.suspended, thread.waitingOn, thread.hook⟩

/-- A thread apart from what it executes. -/
def Thread.record (thread : Thread ν) : Thread ν := { thread with execution := none }

/-- A suspension goes on: the hook stays, and the thread waits in a queue only if it did. -/
structure Suspension.Lasts (before after : Suspension ν) : Prop where
  suspended : after.suspended = before.suspended
  hook : after.hook = before.hook
  waits : after.waitingOn.isSome → before.waitingOn.isSome

/-- A suspension that stays as it is goes on. -/
theorem Suspension.Lasts.of_eq {before after : Suspension ν} (same : after = before) :
    before.Lasts after := by
  subst same
  exact ⟨rfl, rfl, id⟩

/-- A suspension goes on as what it became. -/
theorem Suspension.Lasts.congr {before middle after : Suspension ν} (lasts : before.Lasts middle)
    (same : after = middle) : before.Lasts after := same ▸ lasts

namespace Domain

variable {domain next : Domain ν}

/-- What the thread of an identifier records of its suspension; none that it is not suspended. -/
def suspension (domain : Domain ν) (id : ThreadId) : Suspension ν :=
  ((domain.thread? id).map Thread.suspension).getD {}

/-- The suspension of a thread that is there is what it records. -/
theorem suspension_of_present {id : ThreadId} {thread : Thread ν}
    (present : domain.thread? id = some thread) : domain.suspension id = thread.suspension := by
  simp [suspension, present]

/-- A replaced thread has the suspension that it records, and the others keep theirs. -/
theorem suspension_setThread {id : ThreadId} {old : Thread ν}
    (present : domain.thread? id = some old) (thread : Thread ν) (other : ThreadId) :
    (domain.setThread id thread).suspension other =
      if other = id then thread.suspension else domain.suspension other := by
  unfold suspension
  rw [thread?_setThread present]
  split <;> rfl

/-- Replacing a thread by one that records the same leaves every suspension as it is. -/
theorem suspension_setThread_same {id : ThreadId} {old thread : Thread ν}
    (present : domain.thread? id = some old) (same : thread.suspension = old.suspension)
    (other : ThreadId) :
    (domain.setThread id thread).suspension other = domain.suspension other := by
  rw [suspension_setThread present]
  split
  · rename_i here
    rw [here, suspension_of_present present, same]
  · rfl

/-- Suspensions depend only on the threads. -/
theorem suspension_congr (threads : next.threads = domain.threads) (id : ThreadId) :
    next.suspension id = domain.suspension id := by
  simp only [suspension, thread?, threads]

/-- In a linked domain a thread that is not suspended waits nowhere and has no hook. -/
theorem Linked.suspension_eq (linked : domain.Linked) {id : ThreadId}
    (awake : (domain.suspension id).suspended = false) : domain.suspension id = {} := by
  unfold suspension at awake ⊢
  cases present : domain.thread? id with
  | none => rfl
  | some thread =>
    rw [present] at awake
    have armed := linked.suspended id thread present
    have waits : thread.waitingOn = none := by
      by_contra waiting
      have suspended := armed (.inl (Option.isSome_iff_ne_none.2 waiting))
      exact Bool.false_ne_true (awake.symm.trans suspended)
    have hook : thread.hook = none := by
      by_contra hooked
      have suspended := armed (.inr (Option.isSome_iff_ne_none.2 hooked))
      exact Bool.false_ne_true (awake.symm.trans suspended)
    have awake : thread.suspended = false := awake
    simp only [Option.map_some, Option.getD_some, Thread.suspension, awake, waits, hook]

/-- In a linked domain a thread waits in a queue exactly if it records one. -/
theorem Linked.waiting_iff (linked : domain.Linked) {id : ThreadId} :
    (domain.suspension id).waitingOn.isSome ↔ ∃ queue, id ∈ domain.waitersOf queue := by
  constructor
  · intro recorded
    obtain ⟨queue, known⟩ := Option.isSome_iff_exists.1 recorded
    unfold suspension at known
    cases present : domain.thread? id with
    | none => simp [present] at known
    | some thread =>
      rw [present] at known
      exact ⟨queue, (linked.waits id thread queue present).1 known⟩
  · rintro ⟨queue, waiting⟩
    obtain ⟨thread, present, recorded, _⟩ := linked.waiter waiting
    rw [suspension_of_present present, Thread.suspension, recorded]
    rfl

/-! ## Operations -/

/-- Threads that record another queue and nothing else keep their suspensions, if those that record
some queue now have waited in one before. -/
theorem lasts_of_waitingOn {ids : List ThreadId} {waitingOn : Option QueueId}
    (threads : ∀ other, next.thread? other =
      if other ∈ ids then (domain.thread? other).map fun thread => { thread with waitingOn }
      else domain.thread? other)
    (waited : waitingOn.isSome → ∀ other ∈ ids, (domain.suspension other).waitingOn.isSome)
    (id : ThreadId) : (domain.suspension id).Lasts (next.suspension id) := by
  by_cases listed : id ∈ ids
  · have waited := fun recorded => waited recorded id listed
    unfold suspension at waited ⊢
    rw [threads, if_pos listed]
    cases found : domain.thread? id with
    | none => exact .of_eq rfl
    | some thread =>
      rw [found] at waited
      exact ⟨rfl, rfl, waited⟩
  · refine .of_eq ?_
    unfold suspension
    rw [threads, if_neg listed]

/-- One thread that records another queue keeps its suspension, if it waited in one before or
records none now. -/
theorem lasts_of_head {head : ThreadId} {thread : Thread ν} {waitingOn : Option QueueId}
    (present : domain.thread? head = some thread)
    (threads : ∀ other, next.thread? other =
      if other = head then some { thread with waitingOn } else domain.thread? other)
    (waited : waitingOn.isSome → thread.waitingOn.isSome) (id : ThreadId) :
    (domain.suspension id).Lasts (next.suspension id) := by
  refine @lasts_of_waitingOn _ domain next [head] waitingOn (fun other => ?_) ?_ id
  · rw [threads]
    by_cases same : other = head
    · subst same
      simp [present]
    · simp [same]
  · intro recorded other listed
    obtain rfl := List.mem_singleton.1 listed
    rw [suspension_of_present present]
    exact waited recorded

/-- Popping a waiter lets every suspension go on. -/
theorem lasts_popWaiter {queue : QueueId} {popped : Option ThreadId}
    (done : domain.popWaiter queue = .ok (next, popped)) (id : ThreadId) :
    (domain.suspension id).Lasts (next.suspension id) := by
  obtain ⟨_, rfl, _⟩ | ⟨head, rest, thread, _, _, present, threads, _⟩ := popWaiter_eq_ok done
  · exact .of_eq rfl
  · exact lasts_of_head present threads (by simp) id

/-- A thread that has been popped waits nowhere. -/
theorem suspension_popWaiter {queue : QueueId} {popped : Option ThreadId} {head : ThreadId}
    (done : domain.popWaiter queue = .ok (next, popped))
    (first : (domain.waitersOf queue).head? = some head) :
    (next.suspension head).waitingOn = none := by
  obtain ⟨empty, _⟩ | ⟨other, rest, thread, waiters, _, _, threads, _⟩ := popWaiter_eq_ok done
  · simp [empty] at first
  · obtain rfl : other = head := by simpa [waiters] using first
    simp [suspension, threads, Thread.suspension]

/-- Transferring a waiter lets every suspension go on. -/
theorem Linked.lasts_transferNext (linked : domain.Linked) {source target : QueueId}
    {moved : Option ThreadId} (done : domain.transferNext source target = .ok (next, moved))
    (id : ThreadId) : (domain.suspension id).Lasts (next.suspension id) := by
  obtain ⟨rfl, _⟩ | ⟨head, rest, thread, _, waiters, present, threads, _⟩ :=
    transferNext_eq_ok done
  · exact .of_eq rfl
  · have recorded := (linked.waits head thread source present).2 (by simp [waiters])
    exact lasts_of_head present threads (by simp [recorded]) id

/-- Transferring all waiters lets every suspension go on. -/
theorem Linked.lasts_transferAll (linked : domain.Linked) {source target : QueueId}
    (done : domain.transferAll source target = .ok next) (id : ThreadId) :
    (domain.suspension id).Lasts (next.suspension id) := by
  obtain ⟨rfl, _⟩ | ⟨_, threads, _⟩ := transferAll_eq_ok done
  · exact .of_eq rfl
  · exact lasts_of_waitingOn threads
      (fun _ other waiting => linked.waiting_iff.2 ⟨source, waiting⟩) id

/-- Emptying a queue lets every suspension go on. -/
theorem lasts_resetQueue {queue : QueueId} (done : domain.resetQueue queue = .ok next)
    (id : ThreadId) : (domain.suspension id).Lasts (next.suspension id) := by
  obtain ⟨threads, _⟩ := resetQueue_eq_ok done
  exact lasts_of_waitingOn threads (by simp) id

/-- A supplied result leaves every suspension as it is. -/
theorem suspension_supplyResult {id : ThreadId} {value : Int32}
    (done : domain.supplyResult id value = .ok (.ok next)) (other : ThreadId) :
    next.suspension other = domain.suspension other := by
  obtain ⟨thread, _, _, _, present, _, _, _, _, _, _, rfl⟩ := supplyResult_eq_ok done
  exact suspension_setThread_same present (by simp [Thread.suspension]) other

/-- A result handed to a woken thread leaves every suspension as it is. -/
theorem suspension_handResult {id : ThreadId} {value : Option Int32}
    (done : Config.handResult domain id value = .ok (.ok next)) (other : ThreadId) :
    next.suspension other = domain.suspension other := by
  cases value with
  | none =>
    cases done
    rfl
  | some value =>
    obtain ⟨result, supplied, rest⟩ := bind_eq_ok.1 done
    split at rest
    · cases rest
      rfl
    · cases rest
      rfl
    · cases rest
      exact suspension_supplyResult supplied other

/-- A new thread is not suspended. -/
theorem suspension_createThread (id : ThreadId) :
    domain.createThread.1.suspension id = domain.suspension id := by
  simp only [suspension, createThread, createQueue, thread?, Array.getElem?_push]
  split
  · rename_i last
    simp [last, Thread.suspension]
  · rfl

/-- An emptied domain has no suspended thread. -/
theorem suspension_clear (done : domain.clear = .ok next) (id : ThreadId) :
    next.suspension id = {} := by
  unfold clear at done
  split at done <;> cases done
  simp [suspension, thread?]

/-- Suspending a thread replaces the hook, and leaves other threads alone. -/
theorem suspension_suspend {id : ThreadId} {hook : Option (AbortHook ν)}
    (done : domain.suspend id hook = .ok next) (other : ThreadId) :
    next.suspension other = if other = id then
      { domain.suspension id with suspended := true, hook } else domain.suspension other := by
  obtain ⟨thread, present, rfl⟩ := suspend_eq_ok done
  rw [suspension_setThread present, suspension_of_present present]
  rfl

/-- Parking a thread leaves other threads alone. -/
theorem suspension_park {queue : QueueId} {id : ThreadId}
    (done : domain.park queue id = .ok next) (other : ThreadId) :
    next.suspension other = if other = id then
      { suspended := true, waitingOn := some queue, hook := none }
      else domain.suspension other := by
  obtain ⟨thread, present, threads, _⟩ := park_eq_ok done
  unfold suspension
  rw [threads]
  split <;> rfl

/-- Discarding the frames of a thread leaves every suspension as it is. -/
theorem suspension_discard {id : ThreadId} {reason : AbortReason}
    (done : domain.discard id reason = .ok next) (other : ThreadId) :
    next.suspension other = domain.suspension other := by
  obtain ⟨thread, present, ⟨execution, _, rfl⟩ | ⟨_, rfl⟩⟩ := discard_eq_ok done
  · exact suspension_setThread_same present (by simp [Thread.suspension]) other
  · exact suspension_setThread_same present (by simp [Thread.suspension]) other

/-- Detaching a thread ends its suspension, and leaves other threads alone. -/
theorem suspension_detach {id : ThreadId} {hook : Option (AbortHook ν)}
    (done : domain.detach id = .ok (next, hook)) :
    hook = (domain.suspension id).hook ∧
      ∀ other, next.suspension other = if other = id then {} else domain.suspension other := by
  obtain ⟨thread, present, armed, threads, _⟩ := detach_eq_ok done
  rw [suspension_of_present present]
  refine ⟨armed, fun other => ?_⟩
  unfold suspension
  rw [threads]
  split <;> rfl

end Domain

/-- An update suspends a thread anew. -/
def Update.Suspends (active : Option ThreadId) (id : ThreadId) : Update ν → Prop
  | .suspend thread _ | .park _ thread => thread = id
  | .suspendActive _ => active = some id
  | .sleepActive _ ticks => active = some id ∧ 0 < ticks
  | _ => False

/-- An update that suspends a thread finds something to do. -/
theorem Update.Suspends.not_idles {update : Update ν} {world : World ν} {id : ThreadId}
    (suspends : update.Suspends world.domain.active id) : ¬update.Idles world := by
  cases update with
  | suspend thread hook | park queue thread => exact False.elim
  | suspendActive hook =>
    intro idle
    cases idle.symm.trans suspends
  | sleepActive now ticks =>
    rintro (idle | idle)
    · cases idle.symm.trans suspends.1
    · exact Int32.not_le.2 suspends.2 idle
  | _ => cases suspends

/-- What an update does to the suspension of a thread. -/
inductive Update.Touches (update : Update ν) (before after : World ν) (id : ThreadId) : Prop where
  | lasts (lasts : (before.domain.suspension id).Lasts (after.domain.suspension id))
  | suspends (suspends : update.Suspends before.domain.active id)
    (waits : (after.domain.suspension id).waitingOn.isSome →
      (before.domain.suspension id).waitingOn.isSome ∨ ∃ queue, update = .park queue id)
  | clears (cleared : update = .clear) (ended : after.domain.suspension id = {})

namespace Update.Touches

variable {world next : World ν} {update : Update ν} {answer : Answer ν} {id : ThreadId}

/-- An update that leaves the threads as they are. -/
theorem of_threads (threads : next.domain.threads = world.domain.threads) :
    update.Touches world next id := .lasts (.of_eq (Domain.suspension_congr threads id))

/-- An update that suspends a thread suspends this one or leaves it alone. -/
theorem of_suspend {thread : ThreadId} {hook : Option (AbortHook ν)}
    (done : world.domain.suspend thread hook = .ok next.domain)
    (suspends : thread = id → update.Suspends world.domain.active id) :
    update.Touches world next id := by
  have after := Domain.suspension_suspend done id
  by_cases same : id = thread
  · refine .suspends (suspends same.symm) fun waiting => .inl ?_
    rw [after, if_pos same] at waiting
    rw [same]
    exact waiting
  · rw [if_neg same] at after
    exact .lasts (.of_eq after)

end Update.Touches

/-- An update lets the suspension of a thread go on, suspends the thread anew, or empties the
domain. -/
theorem Update.touches_of_apply {world next : World ν} {update : Update ν} {answer : Answer ν}
    (linked : world.domain.Linked) (done : update.apply world = .ok (next, answer))
    (id : ThreadId) : update.Touches world next id := by
  cases yields_of_apply done with
  | suspend suspended => exact .of_suspend suspended fun same => same
  | suspendActive active suspended =>
    exact .of_suspend suspended fun same => active.trans (congrArg some same)
  | sleepActive active positive suspended =>
    exact .of_suspend suspended fun same => ⟨active.trans (congrArg some same), positive⟩
  | @park queue thread domain parked =>
    have after := Domain.suspension_park parked id
    by_cases same : id = thread
    · exact .suspends same.symm fun _ => .inr ⟨queue, by rw [same]⟩
    · rw [if_neg same] at after
      exact .lasts (.of_eq after)
  | clear cleared => exact .clears rfl (Domain.suspension_clear cleared id)
  | popWaiter popped => exact .lasts (Domain.lasts_popWaiter popped id)
  | transferNext moved => exact .lasts (linked.lasts_transferNext moved id)
  | transferAll moved => exact .lasts (linked.lasts_transferAll moved id)
  | resetQueue emptied => exact .lasts (Domain.lasts_resetQueue emptied id)
  | supplyResult supplied => exact .lasts (.of_eq (Domain.suspension_supplyResult supplied id))
  | @setThreadVariable _ _ _ thread values present =>
    have same := @Domain.suspension_setThread_same _ _ _ _ { thread with «variables» := values }
      present rfl id
    exact .lasts (.of_eq same)
  | createThread => exact .lasts (.of_eq (Domain.suspension_createThread id))
  | hold | unhold =>
    exact .of_threads (by simp only [World.hold, World.unhold, World.modifyArguments_frame])
  | _ => exact .of_threads rfl

namespace Config

variable {host : Host ν σ} {config : Config ν σ} {id : ThreadId}

/-! ## Runs -/

/-- Executing an instruction leaves the threads of the domain alone. -/
theorem threads_execute (run : Run ν σ) (registers : Registers ν) :
    (config.execute host run registers).world.domain.threads = config.world.domain.threads := by
  obtain ⟨globals, _, world⟩ := execute_world host config run registers
  rw [world]

/-- Every thread records what it did. What it executes may be something else. -/
def Retains (before after : Config ν σ) : Prop :=
  ∀ id, (after.world.domain.thread? id).map Thread.record =
    (before.world.domain.thread? id).map Thread.record

namespace Retains

variable {before middle after : Config ν σ}

/-- The same threads record the same. -/
theorem of_threads (threads : after.world.domain.threads = before.world.domain.threads) :
    before.Retains after := fun id => by simp only [Domain.thread?, threads]

/-- A thread executes something else. -/
theorem setThread {thread : ThreadId} {old new : Thread ν}
    (present : config.world.domain.thread? thread = some old) (same : new.record = old.record) :
    config.Retains (config.setDomain (config.world.domain.setThread thread new)) := by
  intro id
  rw [setDomain_world, Domain.thread?_setThread present]
  by_cases here : id = thread
  · rw [if_pos here, here, present, Option.map_some, Option.map_some, same]
  · rw [if_neg here]

/-- Twice in a row. -/
theorem trans (first : before.Retains middle) (second : middle.Retains after) :
    before.Retains after := fun id => (second id).trans (first id)

/-- Starting a run. -/
theorem launch (thread : ThreadId) (purpose : Purpose) (reply : Answer ν → Body ν σ) :
    config.Retains (config.launch host thread purpose reply) := by
  refine attempt_induction (fun _ => of_threads rfl) fun found looked => ?_
  split
  · exact of_threads rfl
  · have taken : config.Retains (config.setDomain (config.world.domain.setThread thread
        { found with execution := none })) := setThread (Domain.thread_eq_ok.1 looked) rfl
    refine trans taken (of_threads ?_)
    dsimp only
    split
    · rfl
    · simp

/-- What follows an abort. -/
theorem afterAbort (next : AfterAbort ν σ) : config.Retains (config.afterAbort host next) := by
  cases next with
  | reply next => exact of_threads rfl
  | stop run function pc reason => exact of_threads rfl
  | start thread function purpose next =>
    refine attempt_induction (fun _ => of_threads rfl) fun found looked => ?_
    split
    · exact of_threads rfl
    · rename_i execution held
      let frames : List (Frame ν) := { function, base := 0, top := 0 } :: execution.frames
      have pushed : config.Retains (config.setDomain (config.world.domain.setThread thread
          { found with execution := some { execution with frames } })) :=
        setThread (Domain.thread_eq_ok.1 looked) rfl
      cases purpose with
      | none => exact pushed
      | some purpose => exact trans pushed (launch thread purpose next)

/-- Entering a frame. -/
theorem enterFrame (run : Run ν σ) : config.Retains (config.enterFrame host run) := by
  unfold Config.enterFrame
  split
  · exact of_threads rfl
  · split
    · exact of_threads rfl
    · exact of_threads (by simp)

/-- Executing an instruction. -/
theorem execute (run : Run ν σ) (registers : Registers ν) :
    config.Retains (config.execute host run registers) := of_threads (threads_execute run registers)

end Retains

/-- Every suspension is as it was. -/
def Rests (before after : Config ν σ) : Prop :=
  ∀ id, after.world.domain.suspension id = before.world.domain.suspension id

/-- The suspension of one thread is over, and the others are as they were. -/
def Ends (thread : ThreadId) (before after : Config ν σ) : Prop :=
  ∀ id, after.world.domain.suspension id =
    if id = thread then {} else before.world.domain.suspension id

/-- A suspension is something that a thread records. -/
theorem Retains.rests {before after : Config ν σ} (retains : before.Retains after) :
    before.Rests after := by
  intro id
  have recorded (found : Option (Thread ν)) : found.map Thread.suspension =
      (found.map Thread.record).map Thread.suspension := by cases found <;> rfl
  unfold Domain.suspension
  rw [recorded, retains id, ← recorded]

namespace Rests

variable {before middle after : Config ν σ}

/-- The same threads have the same suspensions. -/
theorem of_threads (threads : after.world.domain.threads = before.world.domain.threads) :
    before.Rests after := Domain.suspension_congr threads

/-- A thread is replaced by one that records the same. -/
theorem setThread {thread : ThreadId} {old new : Thread ν}
    (present : config.world.domain.thread? thread = some old)
    (same : new.suspension = old.suspension) :
    config.Rests (config.setDomain (config.world.domain.setThread thread new)) :=
  Domain.suspension_setThread_same present same

/-- Suspensions that stay as they are twice. -/
theorem trans (first : before.Rests middle) (second : middle.Rests after) : before.Rests after :=
  fun id => (second id).trans (first id)

/-- Ending a run. -/
theorem finishRun (run : Run ν σ) (outcome : Outcome) :
    config.Rests (config.finishRun host run outcome) := by
  refine attempt_induction (fun _ => of_threads rfl) fun found looked => ?_
  have gave : config.Rests (config.setDomain (config.world.domain.setThread run.thread
      { found with execution := some run.execution, pendingAbort := none })) :=
    setThread (Domain.thread_eq_ok.1 looked) rfl
  exact trans gave (of_threads (by simp))

/-- A step of a run. -/
theorem step_run {run : Run ν σ} (focus : config.focus.run? = some run) :
    config.Rests (config.step host) := by
  unfold Config.step
  split
  all_goals rename_i found; rw [found] at focus; try cases focus
  · exact (Retains.enterFrame run).rests
  · exact (Retains.execute run _).rests
  · exact finishRun run _

end Rests

/-! ## Requests -/

/-- A thread has been aborted, unless the machine has stopped: its suspension is over, and if it
slept, it has been taken from the sleepers. -/
inductive Detaches (thread : ThreadId) (before after : Config ν σ) : Prop where
  | stopped {fault : Fault} (focus : after.focus = .faulted fault) (rests : before.Rests after)
  | detached (ends : before.Ends thread after)
    (sleepers : (before.world.domain.suspension thread).hook = some .leaveSleep →
      after.world.sleepers = before.world.sleepers.remove thread)

/-- What has been done before to threads and sleepers changes nothing of this, if it left the
suspensions and the sleepers alone. -/
theorem Detaches.of_rests {thread : ThreadId} {before middle after : Config ν σ}
    (rests : before.Rests middle) (sleepers : middle.world.sleepers = before.world.sleepers)
    (detaches : middle.Detaches thread after) : before.Detaches thread after := by
  cases detaches with
  | stopped focus later => exact .stopped focus (rests.trans later)
  | detached ends taken =>
    refine .detached (fun id => ?_) fun armed => ?_
    · rw [ends, rests]
    · rw [← sleepers]
      exact taken ((rests thread).symm ▸ armed)

/-- Detaching a thread. -/
theorem Detaches.detach (thread : ThreadId) (next : AfterAbort ν σ) :
    config.Detaches thread (config.detach host thread next) := by
  refine attempt_induction (fun _ => .stopped rfl (.of_threads rfl)) fun ⟨domain, hook⟩ done => ?_
  obtain ⟨rfl, threads⟩ := Domain.suspension_detach done
  dsimp only
  split
  · rename_i unarmed
    exact .detached (fun id => ((Retains.afterAbort next).rests id).trans (threads id))
      fun armed => by simp [armed] at unarmed
  · exact .detached (fun id => ((Retains.afterAbort next).rests id).trans (threads id))
      fun _ => by simp
  · rename_i custom
    exact .detached threads fun armed => by simp [armed] at custom

/-- Aborting a thread. -/
theorem Detaches.abort (thread : ThreadId) (reason : AbortReason) (next : AfterAbort ν σ) :
    config.Detaches thread (config.abort host thread reason next) := by
  refine attempt_induction (fun _ => .stopped rfl (.of_threads rfl)) fun domain done => ?_
  have same : config.Rests (config.setDomain domain) := Domain.suspension_discard done
  exact .of_rests same rfl (.detach thread next)

/-- A thread goes on, unless the machine has stopped: its suspension is over. -/
inductive Frees (thread : ThreadId) (before after : Config ν σ) : Prop where
  | stopped {fault : Fault} (focus : after.focus = .faulted fault) (rests : before.Rests after)
  | freed (ends : before.Ends thread after)

/-- Letting a thread go on that waits nowhere. -/
theorem Frees.continueThread (thread : ThreadId) (purpose : Purpose) (next : Answer ν → Body ν σ)
    (free : (config.world.domain.suspension thread).waitingOn = none) :
    config.Frees thread (config.continueThread host thread purpose next) := by
  refine attempt_induction (fun _ => .stopped rfl (.of_threads rfl)) fun found looked => ?_
  have present := Domain.thread_eq_ok.1 looked
  rw [Domain.suspension_of_present present] at free
  have awake : Thread.suspension { found with suspended := false, hook := none } = {} := by
    simp only [Thread.suspension] at free ⊢
    rw [free]
  have released : config.Ends thread (config.setDomain (config.world.domain.setThread thread
      { found with suspended := false, hook := none })) := by
    intro id
    rw [← awake]
    exact Domain.suspension_setThread present _ id
  dsimp only
  split
  · exact .freed released
  · exact .freed fun id => ((Retains.launch thread purpose next).rests id).trans (released id)

/-- The next step suspends a thread anew. -/
def Suspends (id : ThreadId) (config : Config ν σ) : Prop :=
  ∃ update next, config.focus = .body (.ask (.update update) next) ∧
    update.Suspends config.world.domain.active id

/-- The next step puts a thread into a queue. -/
def Parks (id : ThreadId) (config : Config ν σ) : Prop :=
  ∃ queue next, config.focus = .body (.ask (.update (.park queue id)) next)

/-- The next step lets a thread go on: the host resumes it, it is woken through a queue, or the
domain is emptied. -/
inductive Releases (id : ThreadId) (config : Config ν σ) : Prop where
  | resumed {next : Answer ν → Body ν σ} (focus : config.focus = .body (.ask (.resume id) next))
  | woken {queue : QueueId} {value : Option Int32} {next : Answer ν → Body ν σ}
    (focus : config.focus = .body (.ask (.wake queue value) next))
    (first : (config.world.domain.waitersOf queue).head? = some id)
  | cleared {next : Answer ν → Body ν σ}
    (focus : config.focus = .body (.ask (.update .clear) next))

/-- What a step does to the suspension of a thread. -/
inductive Treats (id : ThreadId) (before after : Config ν σ) : Prop where
  | lasts (lasts : (before.world.domain.suspension id).Lasts (after.world.domain.suspension id))
  | suspends (suspends : before.Suspends id)
    (waits : (after.world.domain.suspension id).waitingOn.isSome →
      (before.world.domain.suspension id).waitingOn.isSome ∨ before.Parks id)
  | releases (releases : before.Releases id) (ended : after.world.domain.suspension id = {})
  | aborts (aborts : before.Aborts id) (ended : after.world.domain.suspension id = {})
    (sleepers : (before.world.domain.suspension id).hook = some .leaveSleep →
      after.world.sleepers = before.world.sleepers.remove id)

namespace Treats

/-- A step that leaves every suspension as it is. -/
theorem of_rests {before after : Config ν σ} (rests : before.Rests after) :
    before.Treats id after := .lasts (.of_eq (rests id))

/-- A step that lets some thread go on. -/
theorem of_ends {before after : Config ν σ} {thread : ThreadId} (ends : before.Ends thread after)
    (releases : before.Releases thread) : before.Treats id after := by
  have after := ends id
  by_cases here : id = thread
  · exact .releases (here ▸ releases) (after.trans (if_pos here))
  · exact .lasts (.of_eq (after.trans (if_neg here)))

/-- A step that aborts some thread. -/
theorem of_detaches {before after : Config ν σ} {thread : ThreadId}
    (detaches : before.Detaches thread after) (aborts : before.Aborts thread) :
    before.Treats id after := by
  cases detaches with
  | stopped focus rests => exact of_rests rests
  | detached ends sleepers =>
    have after := ends id
    by_cases here : id = thread
    · subst here
      exact .aborts aborts (after.trans (if_pos rfl)) sleepers
    · exact .lasts (.of_eq (after.trans (if_neg here)))

/-- Giving some thread a fresh frame. -/
theorem start {request : Request ν} {thread : ThreadId} {function : FunctionId}
    {purpose : Option Purpose} {next : Answer ν → Body ν σ}
    (focus : config.focus = .body (.ask request next)) (starts : request.Starts thread) :
    config.Treats id (config.start host thread function purpose next) := by
  refine start_induction (fun _ => of_rests (.of_threads rfl))
    (fun _ => of_rests (.of_threads rfl)) (fun _ _ _ => of_rests (.of_threads rfl))
    fun _ _ _ _ present held => ⟨fun occupied => ?_, fun _ _ => ?_⟩
  · exact of_detaches (.abort ..) (.restarted focus starts present held occupied)
  · exact of_rests (Retains.afterAbort _).rests

/-- Resuming some thread. -/
theorem resume {thread : ThreadId} {next : Answer ν → Body ν σ}
    (focus : config.focus = .body (.ask (.resume thread) next)) :
    config.Treats id (config.resume host thread next) := by
  refine resume_induction (fun _ => of_rests (.of_threads rfl))
    (fun _ => of_rests (.of_threads rfl)) fun found present _ _ waitsNot => ?_
  have free : (config.world.domain.suspension thread).waitingOn = none := by
    rw [Domain.suspension_of_present present]
    exact waitsNot
  cases @Frees.continueThread _ _ host config thread .plain next free with
  | stopped _ rests => exact of_rests rests
  | freed ends => exact of_ends ends (.resumed focus)

/-- Waking some thread through its queue. -/
theorem wake {queue : QueueId} {value : Option Int32} {next : Answer ν → Body ν σ}
    (focus : config.focus = .body (.ask (.wake queue value) next)) :
    config.Treats id (config.wake host queue value next) := by
  refine wake_induction (fun _ => of_rests (.of_threads rfl))
    (fun _ => of_rests (.of_threads rfl)) (fun _ _ _ _ _ => of_rests (.of_threads rfl))
    fun head _ domain _ first _ _ done => ?_
  have left := Domain.lasts_popWaiter done id
  refine ⟨fun _ => .lasts left, fun _ _ => .lasts left, fun supplied handed => ?_⟩
  have same := Domain.suspension_handResult handed
  have free : (supplied.suspension head).waitingOn = none := by
    rw [same]
    exact Domain.suspension_popWaiter done first
  cases @Frees.continueThread _ _ host (config.setDomain supplied) head .woken next free with
  | stopped _ rests => exact .lasts (left.congr ((rests id).trans (same id)))
  | freed ends =>
    have after := ends id
    by_cases here : id = head
    · subst here
      exact .releases (.woken focus first) (after.trans (if_pos rfl))
    · exact .lasts (left.congr (after.trans ((if_neg here).trans (same id))))

/-- Carrying out a request. -/
theorem perform (linked : config.world.domain.Linked) {request : Request ν}
    {next : Answer ν → Body ν σ} (focus : config.focus = .body (.ask request next)) :
    config.Treats id (config.perform host request next) := by
  cases request with
  | observe => exact of_rests (.of_threads rfl)
  | update update =>
    refine attempt_induction (fun _ => of_rests (.of_threads rfl)) fun ⟨world, answer⟩ done => ?_
    cases Update.touches_of_apply linked done id with
    | lasts lasts => exact .lasts lasts
    | suspends suspends waits =>
      refine .suspends ⟨update, next, focus, suspends⟩ fun waiting => ?_
      rcases waits waiting with before | ⟨queue, rfl⟩
      · exact .inl before
      · exact .inr ⟨queue, next, focus⟩
    | clears cleared ended =>
      subst cleared
      exact .releases (.cleared focus) ended
  | start id function => exact start focus rfl
  | run id function => exact start focus rfl
  | runInt id function => exact start focus rfl
  | resume id => exact resume focus
  | abort id => exact of_detaches (.abort ..) (.asked focus)
  | faultActive error =>
    unfold Config.perform
    dsimp only
    split
    · exact of_rests (.of_threads rfl)
    · rename_i active
      exact of_detaches (.abort ..) (.faulted focus active)
  | wake queue value => exact wake focus

end Treats

/-- A step lets the suspension of a thread go on, suspends the thread anew, lets the thread go on,
or aborts it. -/
theorem step_treats (host : Host ν σ) (linked : config.world.domain.Linked) (id : ThreadId) :
    config.Treats id (config.step host) := by
  refine @step_induction _ _ (fun after => config.Treats id after) host config {
    rests _ := .of_rests (.of_threads rfl)
    enters run _ := .of_rests (Retains.enterFrame run).rests
    executes run registers _ := .of_rests (Retains.execute run registers).rests
    ends run outcome _ := .of_rests (.finishRun run outcome)
    asks _ _ focus := .perform linked focus
    modifies _ _ _ := .of_rests (.of_threads rfl)
    crashes _ _ := .of_rests (.of_threads rfl)
    concludes _ _ _ := .of_rests (.of_threads rfl)
    answers _ run registers call rest focus waiting := ?_
    goesOn _ _ _ _ _ := .of_rests (Retains.afterAbort _).rests }
  refine @returnNative_induction _ _ (fun after => config.Treats id after) _ _ _ _ _ _
    fun shown emitted => ?_
  have world : shown.world = config.world := by rw [← emitted, emit_world]
  have quiet : config.Rests shown := .of_threads (by rw [world])
  refine ⟨fun _ => .of_rests quiet, fun stack thread _ present =>
    ⟨fun reason requested => ?_, fun _ _ => .of_rests (.of_threads (by simp [world])),
      fun _ _ => .of_rests quiet⟩⟩
  have honored : config.Rests (shown.setDomain (shown.world.domain.setThread run.thread
      { thread with pendingAbort := none })) := quiet.trans (.setThread present rfl)
  have sleepers : shown.world.sleepers = config.world.sleepers := by rw [world]
  rw [world] at present
  exact .of_detaches (.of_rests honored sleepers (.detach ..))
    (.honored focus waiting present rfl requested)

end Config

end ScriptMachine

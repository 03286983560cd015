import ScriptMachine.Proofs.Changes

/-!
# What threads keep

Operations on queues and suspensions leave alone what threads execute. They rearrange threads and
queues and nothing else of the domain, and no thread loses or gains frames by them; only a supplied
result writes one slot of an operand stack. An invariant of executions is kept by all of them for
this one reason.
-/

namespace ScriptMachine

variable {ν σ : Type}

namespace Domain

variable {domain middle next : Domain ν}

/-- Two domains differ in their threads and queues only. -/
def Rearranged (domain next : Domain ν) : Prop :=
  next = { domain with threads := next.threads, queues := next.queues }

namespace Rearranged

/-- Nothing differs. -/
theorem refl (domain : Domain ν) : domain.Rearranged domain := rfl

/-- Rearranging twice is rearranging. -/
theorem trans (first : domain.Rearranged middle) (second : middle.Rearranged next) :
    domain.Rearranged next := by
  unfold Rearranged at *
  rw [second, first]

/-- Replacing a thread. -/
theorem setThread (domain : Domain ν) (id : ThreadId) (thread : Thread ν) :
    domain.Rearranged (domain.setThread id thread) := rfl

/-- Replacing the waiters of a queue. -/
theorem setWaiters (domain : Domain ν) (queue : QueueId) (waiters : List ThreadId) :
    domain.Rearranged (domain.setWaiters queue waiters) := rfl

/-- Removing a thread from a queue. -/
theorem unlink {queue : QueueId} {id : ThreadId} (done : domain.unlink queue id = .ok next) :
    domain.Rearranged next := by
  obtain ⟨waiters, _, changed⟩ := bind_eq_ok.1 done
  cases changed
  exact setWaiters ..

/-- Recording a queue in some threads. -/
theorem relink {waitingOn : Option QueueId} {ids : List ThreadId}
    (done : relink waitingOn domain ids = .ok next) : domain.Rearranged next := by
  induction ids generalizing domain with
  | nil =>
    cases done
    exact refl _
  | cons id ids ih =>
    obtain ⟨changed, first, rest⟩ := bind_eq_ok.1 done
    obtain ⟨thread, _, same⟩ := bind_eq_ok.1 first
    cases same
    exact trans (setThread ..) (ih rest)

/-- Appending to a queue, as parking and transferring do in the end. -/
theorem append {queue : QueueId} {added : List ThreadId}
    (done : (do
      let waiters ← domain.waiters queue
      return domain.setWaiters queue (waiters ++ added)) = Except.ok (ε := Fault) next) :
    domain.Rearranged next := by
  obtain ⟨waiters, _, same⟩ := bind_eq_ok.1 done
  cases same
  exact setWaiters ..

/-- Parking a thread. -/
theorem park {queue : QueueId} {id : ThreadId} (done : domain.park queue id = .ok next) :
    domain.Rearranged next := by
  obtain ⟨thread, _, changed⟩ := bind_eq_ok.1 done
  cases recorded : thread.waitingOn with
  | none =>
    rw [recorded] at changed
    obtain ⟨_, same, added⟩ := bind_eq_ok.1 changed
    cases same
    exact trans (setThread ..) (append added)
  | some previous =>
    rw [recorded] at changed
    obtain ⟨_, left, added⟩ := bind_eq_ok.1 changed
    exact trans (setThread ..) (trans (unlink left) (append added))

/-- Popping a waiter. -/
theorem popWaiter {queue : QueueId} {popped : Option ThreadId}
    (done : domain.popWaiter queue = .ok (next, popped)) : domain.Rearranged next := by
  obtain ⟨waiters, _, changed⟩ := bind_eq_ok.1 done
  cases waiters with
  | nil =>
    cases changed
    exact refl _
  | cons head rest =>
    obtain ⟨thread, _, same⟩ := bind_eq_ok.1 changed
    cases same
    exact trans (setWaiters ..) (setThread ..)

/-- Transferring a waiter. -/
theorem transferNext {source target : QueueId} {moved : Option ThreadId}
    (done : domain.transferNext source target = .ok (next, moved)) : domain.Rearranged next := by
  obtain ⟨waiters, _, changed⟩ := bind_eq_ok.1 done
  cases waiters with
  | nil =>
    cases changed
    exact refl _
  | cons head rest =>
    dsimp only at changed
    split at changed
    · cases changed
      exact refl _
    · obtain ⟨_, linked, added⟩ := bind_eq_ok.1 changed
      obtain ⟨_, _, same⟩ := bind_eq_ok.1 added
      cases same
      exact trans (setWaiters ..) (trans (relink linked) (setWaiters ..))

/-- Transferring all waiters. -/
theorem transferAll {source target : QueueId}
    (done : domain.transferAll source target = .ok next) : domain.Rearranged next := by
  unfold Domain.transferAll at done
  split at done
  · cases done
    exact refl _
  · obtain ⟨_, _, changed⟩ := bind_eq_ok.1 done
    obtain ⟨_, linked, added⟩ := bind_eq_ok.1 changed
    exact trans (setWaiters ..) (trans (relink linked) (append added))

/-- Emptying a queue. -/
theorem resetQueue {queue : QueueId} (done : domain.resetQueue queue = .ok next) :
    domain.Rearranged next := by
  obtain ⟨_, _, linked⟩ := bind_eq_ok.1 done
  exact trans (setWaiters ..) (relink linked)

/-- Detaching a thread. -/
theorem detach {id : ThreadId} {hook : Option (AbortHook ν)}
    (done : domain.detach id = .ok (next, hook)) : domain.Rearranged next := by
  obtain ⟨thread, _, changed⟩ := bind_eq_ok.1 done
  cases recorded : thread.waitingOn with
  | none =>
    rw [recorded] at changed
    cases changed
    exact setThread ..
  | some queue =>
    rw [recorded] at changed
    obtain ⟨_, left, handed⟩ := bind_eq_ok.1 changed
    cases handed
    exact trans (setThread ..) (unlink left)

end Rearranged

end Domain

/-- A thread still executes what it did, but a result may have been written to the top of the
innermost frame's part of its operand stack. -/
structure Thread.Keeps (before after : Thread ν) : Prop where
  pendingAbort : after.pendingAbort = before.pendingAbort
  execution : after.execution = before.execution ∨
    ∃ execution frame frames value, before.execution = some execution ∧
      execution.frames = frame :: frames ∧ frame.pc.isSome ∧
      after.execution =
        some { execution with stack := execution.stack.set! (frame.top - 1) value }

/-- A thread that executes nothing yet. -/
def Thread.Fresh (thread : Thread ν) : Prop :=
  thread.execution = some {} ∧ thread.pendingAbort = none

/-- The threads of a domain still execute what they did, and new ones nothing. Functions and the
active thread are the same. -/
structure Domain.Keeps (domain next : Domain ν) : Prop where
  active : next.active = domain.active
  functions : next.functions = domain.functions
  old : ∀ id before, domain.thread? id = some before →
    ∃ after, next.thread? id = some after ∧ before.Keeps after
  new : ∀ id after, next.thread? id = some after →
    (∃ before, domain.thread? id = some before ∧ before.Keeps after) ∨
      domain.thread? id = none ∧ after.Fresh

namespace Thread.Keeps

/-- A thread of which neither the execution nor the requested abort is replaced. -/
theorem of_same {before after : Thread ν} (execution : after.execution = before.execution)
    (pendingAbort : after.pendingAbort = before.pendingAbort) : before.Keeps after :=
  ⟨pendingAbort, .inl execution⟩

/-- A thread that keeps what it executes runs exactly if it did. -/
theorem running {before after : Thread ν} (keeps : before.Keeps after) :
    after.execution = none ↔ before.execution = none := by
  rcases keeps.execution with same | ⟨_, _, _, _, held, _, _, written⟩
  · rw [same]
  · simp [held, written]

end Thread.Keeps

namespace Domain.Keeps

variable {domain next : Domain ν}

/-- Each thread stays or is replaced by one that keeps what it executes. -/
theorem of_threads (rearranged : domain.Rearranged next)
    (threads : ∀ id, next.thread? id = domain.thread? id ∨ ∃ before after,
      domain.thread? id = some before ∧ next.thread? id = some after ∧ before.Keeps after) :
    domain.Keeps next where
  active := by rw [rearranged]
  functions := by rw [rearranged]
  old id before present := by
    rcases threads id with same | ⟨known, after, found, there, kept⟩
    · exact ⟨before, same.trans present, .of_same rfl rfl⟩
    · obtain rfl := Option.some.inj (found.symm.trans present)
      exact ⟨after, there, kept⟩
  new id after present := by
    rcases threads id with same | ⟨before, known, found, there, kept⟩
    · exact .inl ⟨after, same.symm.trans present, .of_same rfl rfl⟩
    · obtain rfl := Option.some.inj (there.symm.trans present)
      exact .inl ⟨before, found, kept⟩

/-- One thread is replaced by one that keeps what it executes. -/
theorem of_thread (rearranged : domain.Rearranged next) {id : ThreadId} {before after : Thread ν}
    (present : domain.thread? id = some before)
    (threads : ∀ other, next.thread? other =
      if other = id then some after else domain.thread? other) (kept : before.Keeps after) :
    domain.Keeps next := by
  refine of_threads rearranged fun other => ?_
  by_cases same : other = id
  · subst same
    exact .inr ⟨before, after, present, by rw [threads, if_pos rfl], kept⟩
  · exact .inl (by rw [threads, if_neg same])

/-- Some threads record another queue. -/
theorem of_waitingOn (rearranged : domain.Rearranged next) {ids : List ThreadId}
    {waitingOn : Option QueueId}
    (threads : ∀ other, next.thread? other =
      if other ∈ ids then (domain.thread? other).map fun thread => { thread with waitingOn }
      else domain.thread? other) : domain.Keeps next := by
  refine of_threads rearranged fun other => ?_
  by_cases listed : other ∈ ids
  · cases found : domain.thread? other with
    | none => exact .inl (by rw [threads, if_pos listed, found]; rfl)
    | some thread =>
      refine .inr ⟨thread, { thread with waitingOn }, rfl, ?_, .of_same rfl rfl⟩
      rw [threads, if_pos listed, found]
      rfl
  · exact .inl (by rw [threads, if_neg listed])

/-- Replacing one thread. -/
theorem setThread {id : ThreadId} {before after : Thread ν}
    (present : domain.thread? id = some before) (kept : before.Keeps after) :
    domain.Keeps (domain.setThread id after) :=
  of_thread (.setThread ..) present (thread?_setThread present after) kept

/-- Nothing is replaced. -/
theorem of_same (threads : next.threads = domain.threads)
    (functions : next.functions = domain.functions) (active : next.active = domain.active) :
    domain.Keeps next where
  active := active
  functions := functions
  old id before present := ⟨before, by rw [thread?, threads]; exact present, .of_same rfl rfl⟩
  new id after present := by
    rw [thread?, threads] at present
    exact .inl ⟨after, present, .of_same rfl rfl⟩

/-- A new thread executes nothing. -/
theorem createThread (domain : Domain ν) : domain.Keeps domain.createThread.1 := by
  have threads : ∀ id, domain.createThread.1.thread? id =
      if id.index = domain.threads.size then
        some { «variables» := Array.replicate domain.threadVariables 0,
               joinQueue := domain.createQueue.2 }
      else domain.thread? id := by
    intro id
    simp [Domain.createThread, Domain.createQueue, thread?, Array.getElem?_push]
  have unknown : ∀ id : ThreadId, id.index = domain.threads.size → domain.thread? id = none := by
    intro id last
    simp [thread?, last]
  refine ⟨rfl, rfl, fun id before present => ?_, fun id after present => ?_⟩
  · refine ⟨before, ?_, .of_same rfl rfl⟩
    rw [threads, if_neg, present]
    intro last
    rw [unknown id last] at present
    cases present
  · rw [threads] at present
    split at present
    · rename_i last
      cases present
      exact .inr ⟨unknown id last, rfl, rfl⟩
    · exact .inl ⟨after, present, .of_same rfl rfl⟩

/-- Detaching a thread replaces nothing that it executes. -/
theorem detach {id : ThreadId} {hook : Option (AbortHook ν)}
    (done : domain.detach id = .ok (next, hook)) : domain.Keeps next := by
  obtain ⟨thread, present, _, threads, _⟩ := detach_eq_ok done
  exact of_thread (.detach done) present threads (.of_same rfl rfl)

/-- An update keeps what threads execute, unless it empties the domain. -/
theorem of_updated (update : domain.Updated next) :
    domain.Keeps next ∨ domain.clear = .ok next := by
  cases update with
  | clear done => exact .inr done
  | tables threads queues functions active => exact .inl (of_same threads functions active)
  | values present values => exact .inl (setThread present (.of_same rfl rfl))
  | createThread => exact .inl (createThread domain)
  | createQueue => exact .inl (of_same rfl rfl rfl)
  | supply done =>
    left
    obtain ⟨thread, execution, frame, frames, present, _, taken, first, saved, _, _, rfl⟩ :=
      supplyResult_eq_ok done
    exact setThread present ⟨rfl, .inr ⟨execution, frame, frames, _, taken, first, saved, rfl⟩⟩
  | suspend done =>
    left
    obtain ⟨thread, present, rfl⟩ := suspend_eq_ok done
    exact setThread present (.of_same rfl rfl)
  | park done =>
    left
    obtain ⟨thread, present, threads, _⟩ := park_eq_ok done
    exact of_thread (.park done) present threads (.of_same rfl rfl)
  | pop done =>
    left
    obtain ⟨_, rfl, _⟩ | ⟨head, rest, thread, _, _, present, threads, _⟩ := popWaiter_eq_ok done
    · exact of_same rfl rfl rfl
    · exact of_thread (.popWaiter done) present threads (.of_same rfl rfl)
  | transferNext done =>
    left
    obtain ⟨rfl, _⟩ | ⟨head, rest, thread, _, _, present, threads, _⟩ :=
      transferNext_eq_ok done
    · exact of_same rfl rfl rfl
    · exact of_thread (.transferNext done) present threads (.of_same rfl rfl)
  | transferAll done =>
    left
    obtain ⟨rfl, _⟩ | ⟨_, threads, _⟩ := transferAll_eq_ok done
    · exact of_same rfl rfl rfl
    · exact of_waitingOn (.transferAll done) threads
  | reset done =>
    left
    obtain ⟨threads, _⟩ := resetQueue_eq_ok done
    exact of_waitingOn (.resetQueue done) threads

end Domain.Keeps

end ScriptMachine

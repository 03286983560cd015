import ScriptMachine.Domain.Thread
import ScriptMachine.Proofs.Sequencing

/-!
# The tables of a domain

A domain is seen through two functions: the thread of an identifier, if there is one, and the
waiters of a queue, none if there is no such queue. Each operation on threads and queues is
characterized by what it does to these two views, and later modules use nothing else of it.
-/

namespace ScriptMachine

namespace Domain

variable {ν : Type}

/-- The thread of an identifier. -/
def thread? (domain : Domain ν) (id : ThreadId) : Option (Thread ν) := domain.threads[id.index]?

/-- The waiters of a queue, the one that waits longest first. -/
def waitersOf (domain : Domain ν) (queue : QueueId) : List ThreadId :=
  (domain.queues[queue.index]?).getD []

/-- Looking up a thread succeeds exactly if there is one. -/
theorem thread_eq_ok {domain : Domain ν} {id : ThreadId} {thread : Thread ν} :
    domain.thread id = .ok thread ↔ domain.thread? id = some thread := by
  unfold Domain.thread thread?
  split
  · rename_i found
    simp [found]
  · rename_i missing
    simp [missing]

/-- Looking up the waiters of a queue succeeds exactly if there is such a queue. -/
theorem waiters_eq_ok {domain : Domain ν} {queue : QueueId} {waiters : List ThreadId} :
    domain.waiters queue = .ok waiters ↔
      queue.index < domain.queues.size ∧ domain.waitersOf queue = waiters := by
  unfold Domain.waiters waitersOf
  split
  · rename_i found
    have inside := (Array.getElem?_eq_some_iff.1 found).1
    rw [found]
    simp [inside]
  · rename_i missing
    have outside := Array.getElem?_eq_none_iff.1 missing
    simp only [reduceCtorEq, false_iff, not_and]
    omega

/-- A queue in which a thread waits exists. -/
theorem queue_exists_of_mem {domain : Domain ν} {queue : QueueId} {id : ThreadId}
    (waiting : id ∈ domain.waitersOf queue) : queue.index < domain.queues.size := by
  rcases Nat.lt_or_ge queue.index domain.queues.size with inside | outside
  · exact inside
  · have missing : domain.queues[queue.index]? = none := Array.getElem?_eq_none outside
    simp [waitersOf, missing] at waiting

/-- Identifiers are equal when their indices are. -/
theorem threadId_index_inj {first second : ThreadId} :
    first.index = second.index ↔ first = second := by
  cases first
  cases second
  simp

/-- Identifiers are equal when their indices are. -/
theorem queueId_index_inj {first second : QueueId} :
    first.index = second.index ↔ first = second := by
  cases first
  cases second
  simp

/-! ## Replacing an entry -/

/-- A replaced thread is found, and the others stay. -/
theorem thread?_setThread {domain : Domain ν} {id : ThreadId} {old : Thread ν}
    (present : domain.thread? id = some old) (thread : Thread ν) (other : ThreadId) :
    (domain.setThread id thread).thread? other =
      if other = id then some thread else domain.thread? other := by
  have inside := (Array.getElem?_eq_some_iff.1 present).1
  simp only [thread?, setThread, Array.set!_eq_setIfInBounds, Array.getElem?_setIfInBounds]
  by_cases same : other = id
  · subst same
    simp [inside]
  · have apart : id.index ≠ other.index := fun h => same (threadId_index_inj.1 h.symm)
    simp [same, apart]

@[simp] theorem waitersOf_setThread (domain : Domain ν) (id : ThreadId) (thread : Thread ν)
    (queue : QueueId) : (domain.setThread id thread).waitersOf queue = domain.waitersOf queue :=
  rfl

@[simp] theorem thread?_setWaiters (domain : Domain ν) (queue : QueueId)
    (waiters : List ThreadId) (id : ThreadId) :
    (domain.setWaiters queue waiters).thread? id = domain.thread? id := rfl

@[simp] theorem queues_size_setWaiters (domain : Domain ν) (queue : QueueId)
    (waiters : List ThreadId) :
    (domain.setWaiters queue waiters).queues.size = domain.queues.size := by
  simp [setWaiters]

/-- Replaced waiters are found, and the other queues stay. -/
theorem waitersOf_setWaiters {domain : Domain ν} {queue : QueueId}
    (present : queue.index < domain.queues.size) (waiters : List ThreadId) (other : QueueId) :
    (domain.setWaiters queue waiters).waitersOf other =
      if other = queue then waiters else domain.waitersOf other := by
  simp only [waitersOf, setWaiters, Array.set!_eq_setIfInBounds, Array.getElem?_setIfInBounds]
  by_cases same : other = queue
  · subst same
    simp [present]
  · have apart : queue.index ≠ other.index := fun h => same (queueId_index_inj.1 h.symm)
    simp [same, apart]

/-- A new queue is empty, and the others stay. -/
theorem waitersOf_createQueue (domain : Domain ν) (queue : QueueId) :
    domain.createQueue.1.waitersOf queue = domain.waitersOf queue := by
  simp only [createQueue, waitersOf, Array.getElem?_push]
  split
  · rename_i last
    simp [last]
  · rfl

/-- Of two replacements of a thread the second counts. -/
theorem setThread_setThread (domain : Domain ν) (id : ThreadId) (first second : Thread ν) :
    (domain.setThread id first).setThread id second = domain.setThread id second := by
  simp [setThread]

/-- A thread that is replaced by itself stays. -/
theorem setThread_self {domain : Domain ν} {id : ThreadId} {thread : Thread ν}
    (present : domain.thread? id = some thread) : domain.setThread id thread = domain := by
  obtain ⟨inside, found⟩ := Array.getElem?_eq_some_iff.1 present
  have same : domain.threads.set! id.index thread = domain.threads := by
    rw [Array.set!_eq_setIfInBounds, Array.setIfInBounds, dif_pos inside, ← found]
    exact Array.set_getElem_self inside
  rw [setThread, same]

/-- Of two replacements of the waiters of a queue the second counts. -/
theorem setWaiters_setWaiters (domain : Domain ν) (queue : QueueId)
    (first second : List ThreadId) :
    (domain.setWaiters queue first).setWaiters queue second = domain.setWaiters queue second := by
  simp [setWaiters]

/-- Waiters that are replaced by themselves stay. -/
theorem setWaiters_self {domain : Domain ν} {queue : QueueId} {waiters : List ThreadId}
    (found : domain.waiters queue = .ok waiters) : domain.setWaiters queue waiters = domain := by
  obtain ⟨inside, rfl⟩ := waiters_eq_ok.1 found
  have same : domain.queues.set! queue.index (domain.waitersOf queue) = domain.queues := by
    rw [Array.set!_eq_setIfInBounds, Array.setIfInBounds, dif_pos inside, waitersOf,
      Array.getElem?_eq_getElem inside]
    exact Array.set_getElem_self inside
  rw [setWaiters, same]

/-! ## Operations on queues -/

/-- Unlinking succeeds only for a queue that exists, and removes the thread from it. -/
theorem unlink_eq_ok {domain next : Domain ν} {queue : QueueId} {id : ThreadId}
    (done : domain.unlink queue id = .ok next) :
    (∀ other, next.thread? other = domain.thread? other) ∧
      ∀ other, next.waitersOf other =
        if other = queue then (domain.waitersOf queue).erase id else domain.waitersOf other := by
  obtain ⟨waiters, found, changed⟩ := bind_eq_ok.1 done
  obtain ⟨present, rfl⟩ := waiters_eq_ok.1 found
  cases changed
  exact ⟨fun other => rfl, fun other => waitersOf_setWaiters present _ other⟩

/-- Unlinking from a queue that exists succeeds. -/
theorem unlink_isOk {domain : Domain ν} {queue : QueueId} (id : ThreadId)
    (present : queue.index < domain.queues.size) : ∃ next, domain.unlink queue id = .ok next := by
  refine ⟨_, bind_eq_ok.2 ⟨_, waiters_eq_ok.2 ⟨present, rfl⟩, rfl⟩⟩

/-- Recording a queue in some threads changes nothing else. -/
theorem relink_eq_ok {domain next : Domain ν} {waitingOn : Option QueueId} {ids : List ThreadId}
    (done : relink waitingOn domain ids = .ok next) :
    (∀ other, next.waitersOf other = domain.waitersOf other) ∧
      next.queues.size = domain.queues.size ∧
      ∀ other, next.thread? other =
        if other ∈ ids then (domain.thread? other).map fun thread => { thread with waitingOn }
        else domain.thread? other := by
  induction ids generalizing domain with
  | nil =>
    cases done
    exact ⟨fun _ => rfl, rfl, fun _ => by simp⟩
  | cons id ids ih =>
    obtain ⟨middle, first, rest⟩ := bind_eq_ok.1 done
    obtain ⟨thread, found, changed⟩ := bind_eq_ok.1 first
    cases changed
    have present := thread_eq_ok.1 found
    obtain ⟨queues, size, threads⟩ := ih rest
    refine ⟨fun other => (queues other).trans rfl, size.trans rfl, fun other => ?_⟩
    rw [threads other, thread?_setThread present]
    by_cases same : other = id
    · subst same
      by_cases again : other ∈ ids
      · simp [again, present]
      · simp [again, present]
    · simp [same]

/-- The longest waiting thread is the head of its queue. -/
theorem nextWaiter?_eq_ok {domain : Domain ν} {queue : QueueId} {first : Option ThreadId}
    (done : domain.nextWaiter? queue = .ok first) : (domain.waitersOf queue).head? = first := by
  obtain ⟨waiters, found, same⟩ := bind_eq_ok.1 done
  obtain ⟨_, rfl⟩ := waiters_eq_ok.1 found
  cases same
  rfl

/-- Popping from an empty queue changes nothing; otherwise the head leaves, and records it. -/
theorem popWaiter_eq_ok {domain next : Domain ν} {queue : QueueId} {popped : Option ThreadId}
    (done : domain.popWaiter queue = .ok (next, popped)) :
    (domain.waitersOf queue = [] ∧ next = domain ∧ popped = none) ∨
      ∃ head rest thread, domain.waitersOf queue = head :: rest ∧ popped = some head ∧
        domain.thread? head = some thread ∧
        (∀ other, next.thread? other =
          if other = head then some { thread with waitingOn := none }
          else domain.thread? other) ∧
        ∀ other, next.waitersOf other =
          if other = queue then rest else domain.waitersOf other := by
  obtain ⟨waiters, found, changed⟩ := bind_eq_ok.1 done
  obtain ⟨present, same⟩ := waiters_eq_ok.1 found
  cases waiters with
  | nil =>
    cases changed
    exact .inl ⟨same, rfl, rfl⟩
  | cons head rest =>
    obtain ⟨thread, looked, moved⟩ := bind_eq_ok.1 changed
    cases moved
    have there : domain.thread? head = some thread := thread_eq_ok.1 looked
    exact .inr ⟨head, rest, thread, same, rfl, there,
      fun other => @thread?_setThread _ (domain.setWaiters queue rest) head thread there _ other,
      fun other => waitersOf_setWaiters present rest other⟩

/-- Transferring the head moves it to the end of another queue, which it records. Within one queue
nothing moves. -/
theorem transferNext_eq_ok {domain next : Domain ν} {source target : QueueId}
    {moved : Option ThreadId} (done : domain.transferNext source target = .ok (next, moved)) :
    (next = domain ∧ (source = target ∨ domain.waitersOf source = [])) ∨
      ∃ head rest thread, source ≠ target ∧ domain.waitersOf source = head :: rest ∧
        domain.thread? head = some thread ∧
        (∀ other, next.thread? other =
          if other = head then some { thread with waitingOn := some target }
          else domain.thread? other) ∧
        ∀ other, next.waitersOf other =
          if other = target then domain.waitersOf target ++ [head]
          else if other = source then rest else domain.waitersOf other := by
  obtain ⟨waiters, found, changed⟩ := bind_eq_ok.1 done
  obtain ⟨present, same⟩ := waiters_eq_ok.1 found
  cases waiters with
  | nil =>
    cases changed
    exact .inl ⟨rfl, .inr same⟩
  | cons head rest =>
    dsimp only at changed
    split at changed
    · rename_i within
      cases changed
      exact .inl ⟨rfl, .inl within⟩
    · rename_i apart
      right
      obtain ⟨middle, linked, added⟩ := bind_eq_ok.1 changed
      obtain ⟨waiters, looked, put⟩ := bind_eq_ok.1 added
      cases put
      obtain ⟨there, rfl⟩ := waiters_eq_ok.1 looked
      obtain ⟨thread, seen, _⟩ := bind_eq_ok.1 linked
      obtain ⟨thread, known, _⟩ := bind_eq_ok.1 seen
      have inside : domain.thread? head = some thread := thread_eq_ok.1 known
      obtain ⟨queues, size, threads⟩ := relink_eq_ok linked
      refine ⟨head, rest, thread, apart, same, inside, fun other => ?_, fun other => ?_⟩
      · rw [thread?_setWaiters, threads, thread?_setWaiters]
        by_cases chosen : other = head
        · subst chosen
          simp [inside]
        · simp [chosen]
      · rw [waitersOf_setWaiters there, queues target, queues other,
          waitersOf_setWaiters present, waitersOf_setWaiters present]
        have back : target ≠ source := fun h => apart h.symm
        simp [back]

/-- Transferring all waiters appends them to another queue, which each of them records. Within one
queue nothing moves. -/
theorem transferAll_eq_ok {domain next : Domain ν} {source target : QueueId}
    (done : domain.transferAll source target = .ok next) :
    (next = domain ∧ source = target) ∨
      source ≠ target ∧
        (∀ other, next.thread? other =
          if other ∈ domain.waitersOf source then
            (domain.thread? other).map fun thread => { thread with waitingOn := some target }
          else domain.thread? other) ∧
        ∀ other, next.waitersOf other =
          if other = target then domain.waitersOf target ++ domain.waitersOf source
          else if other = source then [] else domain.waitersOf other := by
  unfold transferAll at done
  split at done
  · rename_i within
    cases done
    exact .inl ⟨rfl, within⟩
  · rename_i apart
    right
    obtain ⟨moved, found, changed⟩ := bind_eq_ok.1 done
    obtain ⟨present, rfl⟩ := waiters_eq_ok.1 found
    obtain ⟨middle, linked, added⟩ := bind_eq_ok.1 changed
    obtain ⟨waiters, looked, put⟩ := bind_eq_ok.1 added
    cases put
    obtain ⟨there, rfl⟩ := waiters_eq_ok.1 looked
    obtain ⟨queues, size, threads⟩ := relink_eq_ok linked
    refine ⟨apart, fun other => ?_, fun other => ?_⟩
    · rw [thread?_setWaiters, threads, thread?_setWaiters]
    · rw [waitersOf_setWaiters there, queues target, queues other,
        waitersOf_setWaiters present, waitersOf_setWaiters present]
      have back : target ≠ source := fun h => apart h.symm
      simp [back]

/-- Emptying a queue makes each of its waiters record that it waits in none. -/
theorem resetQueue_eq_ok {domain next : Domain ν} {queue : QueueId}
    (done : domain.resetQueue queue = .ok next) :
    (∀ other, next.thread? other =
      if other ∈ domain.waitersOf queue then
        (domain.thread? other).map fun thread => { thread with waitingOn := none }
      else domain.thread? other) ∧
      ∀ other, next.waitersOf other =
        if other = queue then [] else domain.waitersOf other := by
  obtain ⟨removed, found, linked⟩ := bind_eq_ok.1 done
  obtain ⟨present, rfl⟩ := waiters_eq_ok.1 found
  obtain ⟨queues, size, threads⟩ := relink_eq_ok linked
  refine ⟨fun other => ?_, fun other => ?_⟩
  · rw [threads, thread?_setWaiters]
  · rw [queues, waitersOf_setWaiters present]

/-- The queues after a thread has left the one it recorded, if any. -/
def waitersWithout (domain : Domain ν) (recorded : Option QueueId) (id : ThreadId)
    (queue : QueueId) : List ThreadId :=
  if recorded = some queue then (domain.waitersOf queue).erase id else domain.waitersOf queue

/-- Takes a thread out of the queue it recorded, if any. -/
def leave (domain : Domain ν) (recorded : Option QueueId) (id : ThreadId) :
    Except Fault (Domain ν) :=
  match recorded with
  | some queue => domain.unlink queue id
  | none => .ok domain

/-- Leaving the recorded queue, if there is one, touches no thread. -/
theorem leave_eq_ok {domain next : Domain ν} {recorded : Option QueueId} {id : ThreadId}
    (done : domain.leave recorded id = .ok next) :
    (∀ other, next.thread? other = domain.thread? other) ∧
      ∀ other, next.waitersOf other = domain.waitersWithout recorded id other := by
  cases recorded with
  | none =>
    cases done
    exact ⟨fun _ => rfl, fun _ => by simp [waitersWithout]⟩
  | some queue =>
    obtain ⟨threads, queues⟩ := unlink_eq_ok done
    refine ⟨threads, fun other => ?_⟩
    rw [queues, waitersWithout]
    by_cases same : other = queue
    · simp [same]
    · have apart : queue ≠ other := fun h => same h.symm
      simp [same, apart]

/-- Parking moves a thread to the end of a queue, suspended and without a hook. -/
theorem park_eq_ok {domain next : Domain ν} {queue : QueueId} {id : ThreadId}
    (done : domain.park queue id = .ok next) :
    ∃ thread, domain.thread? id = some thread ∧
      (∀ other, next.thread? other =
        if other = id then
          some { thread with waitingOn := some queue, hook := none, suspended := true }
        else domain.thread? other) ∧
      ∀ other, next.waitersOf other =
        if other = queue then domain.waitersWithout thread.waitingOn id queue ++ [id]
        else domain.waitersWithout thread.waitingOn id other := by
  obtain ⟨thread, looked, changed⟩ := bind_eq_ok.1 done
  have present := thread_eq_ok.1 looked
  obtain ⟨middle, left, added⟩ : ∃ middle,
      (domain.setThread id
        { thread with waitingOn := some queue, hook := none, suspended := true }).leave
          thread.waitingOn id = .ok middle ∧
        (do
          let waiters ← middle.waiters queue
          return middle.setWaiters queue (waiters ++ [id])) = .ok next := by
    cases recorded : thread.waitingOn with
    | none =>
      rw [recorded] at changed
      exact bind_eq_ok.1 changed
    | some previous =>
      rw [recorded] at changed
      exact bind_eq_ok.1 changed
  obtain ⟨waiters, found, put⟩ := bind_eq_ok.1 added
  cases put
  obtain ⟨there, rfl⟩ := waiters_eq_ok.1 found
  obtain ⟨threads, queues⟩ := leave_eq_ok left
  refine ⟨thread, present, fun other => ?_, fun other => ?_⟩
  · rw [thread?_setWaiters, threads, thread?_setThread present]
  · rw [waitersOf_setWaiters there, queues, queues]
    rfl

/-! ## Operations on threads -/

/-- Suspending arms the given hook. -/
theorem suspend_eq_ok {domain next : Domain ν} {id : ThreadId} {hook : Option (AbortHook ν)}
    (done : domain.suspend id hook = .ok next) :
    ∃ thread, domain.thread? id = some thread ∧
      next = domain.setThread id { thread with suspended := true, hook } := by
  obtain ⟨thread, looked, changed⟩ := bind_eq_ok.1 done
  cases changed
  exact ⟨thread, thread_eq_ok.1 looked, rfl⟩

/-- Detaching clears the suspension, takes the thread out of its queue and hands over the hook. -/
theorem detach_eq_ok {domain next : Domain ν} {id : ThreadId} {hook : Option (AbortHook ν)}
    (done : domain.detach id = .ok (next, hook)) :
    ∃ thread, domain.thread? id = some thread ∧ hook = thread.hook ∧
      (∀ other, next.thread? other =
        if other = id then
          some { thread with suspended := false, waitingOn := none, hook := none }
        else domain.thread? other) ∧
      ∀ other, next.waitersOf other = domain.waitersWithout thread.waitingOn id other := by
  obtain ⟨thread, looked, changed⟩ := bind_eq_ok.1 done
  have present := thread_eq_ok.1 looked
  obtain ⟨left, rfl⟩ : (domain.setThread id
      { thread with suspended := false, waitingOn := none, hook := none }).leave
        thread.waitingOn id = .ok next ∧ hook = thread.hook := by
    cases recorded : thread.waitingOn with
    | none =>
      rw [recorded] at changed
      cases changed
      exact ⟨rfl, rfl⟩
    | some previous =>
      rw [recorded] at changed
      obtain ⟨middle, left, handed⟩ := bind_eq_ok.1 changed
      cases handed
      exact ⟨left, rfl⟩
  obtain ⟨threads, queues⟩ := leave_eq_ok left
  refine ⟨thread, present, rfl, fun other => ?_, fun other => ?_⟩
  · rw [threads, thread?_setThread present]
  · rw [queues]
    rfl

/-- Discarding the frames of a thread, or recording the abort of a running one, touches neither
its suspension nor the queues. -/
theorem discard_eq_ok {domain next : Domain ν} {id : ThreadId} {reason : AbortReason}
    (done : domain.discard id reason = .ok next) :
    ∃ thread, domain.thread? id = some thread ∧
      ((∃ execution, thread.execution = some execution ∧ next = domain.setThread id
          { thread with execution := some { execution with frames := [] } }) ∨
        thread.execution = none ∧ next = domain.setThread id
          { thread with pendingAbort := thread.pendingAbort <|> some reason }) := by
  obtain ⟨thread, looked, changed⟩ := bind_eq_ok.1 done
  refine ⟨thread, thread_eq_ok.1 looked, ?_⟩
  split at changed
  · rename_i execution taken
    cases changed
    exact .inl ⟨execution, taken, rfl⟩
  · rename_i taken
    cases changed
    exact .inr ⟨taken, rfl⟩

/-- A supplied result goes to one slot of the operand stack of a thread that does not run. -/
theorem supplyResult_eq_ok {domain next : Domain ν} {id : ThreadId} {value : Int32}
    (done : domain.supplyResult id value = .ok (.ok next)) :
    ∃ thread execution frame frames, domain.thread? id = some thread ∧
      thread.suspended = true ∧ thread.execution = some execution ∧
      execution.frames = frame :: frames ∧ frame.pc.isSome ∧ 0 < frame.top ∧
      frame.top - 1 < execution.stack.size ∧
      next = domain.setThread id { thread with
        execution := some { execution with stack := execution.stack.set! (frame.top - 1) value } }
    := by
  obtain ⟨thread, looked, changed⟩ := bind_eq_ok.1 done
  have present := thread_eq_ok.1 looked
  split at changed
  · cases changed
  · rename_i awake
    split at changed
    · rename_i execution taken
      split at changed
      · rename_i frame first
        split at changed
        · cases changed
        · rename_i started
          split at changed
          · rename_i inside
            cases changed
            obtain ⟨rest, frames⟩ := List.head?_eq_some_iff.1 first
            refine ⟨thread, execution, frame, rest, present, by simpa using awake, taken, frames,
              by simpa [Option.isSome_iff_ne_none] using started, inside.1, inside.2, rfl⟩
          · cases changed
      · cases changed
    · cases changed

end Domain

end ScriptMachine

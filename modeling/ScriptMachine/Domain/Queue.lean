import ScriptMachine.Domain.Basic

/-!
# Wait queues

A wait queue holds suspended threads in the order in which they began to wait. Parking, popping and
transferring keep the two records of a waiting thread together: the place of the thread in a queue,
and the queue in the thread.
-/

namespace ScriptMachine.Domain

variable {ν : Type}

/-- Creates an empty queue. -/
def createQueue (domain : Domain ν) : Domain ν × QueueId :=
  ({ domain with queues := domain.queues.push [] }, ⟨domain.queues.size⟩)

/-- Removes a thread from a queue and keeps the order of the others. -/
def unlink (domain : Domain ν) (queue : QueueId) (id : ThreadId) : Except Fault (Domain ν) := do
  let waiters ← domain.waiters queue
  return domain.setWaiters queue (waiters.erase id)

/-- Suspends a thread and puts it at the end of a queue. It leaves the queue it waited in, and an
armed hook is dropped: aborting a waiting thread only takes it out of its queue. -/
def park (domain : Domain ν) (queue : QueueId) (id : ThreadId) : Except Fault (Domain ν) := do
  let thread ← domain.thread id
  let domain := domain.setThread id
    { thread with waitingOn := some queue, hook := none, suspended := true }
  let domain ← match thread.waitingOn with
    | some previous => domain.unlink previous id
    | none => .ok domain
  let waiters ← domain.waiters queue
  return domain.setWaiters queue (waiters ++ [id])

/-- The thread that has waited longest. -/
def nextWaiter? (domain : Domain ν) (queue : QueueId) : Except Fault (Option ThreadId) := do
  let waiters ← domain.waiters queue
  return waiters.head?

/-- Removes the thread that has waited longest. It stays suspended. -/
def popWaiter (domain : Domain ν) (queue : QueueId) :
    Except Fault (Domain ν × Option ThreadId) := do
  match ← domain.waiters queue with
  | [] => return (domain, none)
  | head :: rest =>
    let domain := domain.setWaiters queue rest
    let thread ← domain.thread head
    return (domain.setThread head { thread with waitingOn := none }, some head)

/-- Records a new queue in each of some threads. -/
def relink (waitingOn : Option QueueId) (domain : Domain ν) (ids : List ThreadId) :
    Except Fault (Domain ν) :=
  ids.foldlM (fun domain id => do
    let thread ← domain.thread id
    return domain.setThread id { thread with waitingOn }) domain

/-- Moves the thread that has waited longest to the end of another queue. Within one queue nothing
moves. -/
def transferNext (domain : Domain ν) (source target : QueueId) :
    Except Fault (Domain ν × Option ThreadId) := do
  match ← domain.waiters source with
  | [] => return (domain, none)
  | head :: rest =>
    if source = target then return (domain, some head)
    let domain ← relink (some target) (domain.setWaiters source rest) [head]
    let waiters ← domain.waiters target
    return (domain.setWaiters target (waiters ++ [head]), some head)

/-- Moves every thread of a queue to the end of another, in order. -/
def transferAll (domain : Domain ν) (source target : QueueId) : Except Fault (Domain ν) := do
  if source = target then return domain
  let moved ← domain.waiters source
  let domain ← relink (some target) (domain.setWaiters source []) moved
  let waiters ← domain.waiters target
  return domain.setWaiters target (waiters ++ moved)

/-- Empties a queue. Its threads stay suspended. -/
def resetQueue (domain : Domain ν) (queue : QueueId) : Except Fault (Domain ν) := do
  let removed ← domain.waiters queue
  relink none (domain.setWaiters queue []) removed

end ScriptMachine.Domain

import ScriptMachine.Proofs.Changes

/-!
# The links between threads and queues

That a thread waits in a queue is recorded twice, in the thread and in the queue. The two records
agree in every configuration that the machine passes through, whatever the bodies of the host do,
and a thread that waits or that has an armed hook is suspended. Every operation on threads and
queues keeps this, so every step does.
-/

namespace ScriptMachine

variable {ν σ : Type}

/-- The two records of waiting agree, and what waits or is armed is suspended. -/
structure Domain.Linked (domain : Domain ν) : Prop where
  /-- A thread records a queue exactly if it waits there. -/
  waits : ∀ id thread queue, domain.thread? id = some thread →
    (thread.waitingOn = some queue ↔ id ∈ domain.waitersOf queue)
  once : ∀ queue, (domain.waitersOf queue).Nodup
  present : ∀ queue id, id ∈ domain.waitersOf queue → (domain.thread? id).isSome
  suspended : ∀ id thread, domain.thread? id = some thread →
    thread.waitingOn.isSome ∨ thread.hook.isSome → thread.suspended = true

namespace Domain.Linked

variable {domain next : Domain ν}

/-- A waiter is a thread that records the queue and is suspended. -/
theorem waiter (linked : domain.Linked) {queue : QueueId} {id : ThreadId}
    (waiting : id ∈ domain.waitersOf queue) :
    ∃ thread, domain.thread? id = some thread ∧ thread.waitingOn = some queue ∧
      thread.suspended = true := by
  obtain ⟨thread, present⟩ := Option.isSome_iff_exists.1 (linked.present queue id waiting)
  have recorded := (linked.waits id thread queue present).2 waiting
  exact ⟨thread, present, recorded, linked.suspended id thread present (.inl (by simp [recorded]))⟩

/-- No thread waits in two queues. -/
theorem apart (linked : domain.Linked) {first second : QueueId} {id : ThreadId}
    (here : id ∈ domain.waitersOf first) (there : id ∈ domain.waitersOf second) :
    first = second := by
  obtain ⟨thread, present, recorded, _⟩ := linked.waiter here
  have again := (linked.waits id thread second present).2 there
  exact Option.some.inj (recorded.symm.trans again)

/-- A domain without threads and queues is linked. -/
theorem of_empty (threads : domain.threads = #[]) (queues : domain.queues = #[]) :
    domain.Linked := by
  constructor <;> simp [Domain.thread?, Domain.waitersOf, threads, queues]

/-- Links depend only on the queues and on what the threads record about waiting. -/
theorem of_same (linked : domain.Linked)
    (queues : ∀ queue, next.waitersOf queue = domain.waitersOf queue)
    (threads : ∀ id, (next.thread? id).map (fun thread =>
        (thread.waitingOn, thread.hook.isSome, thread.suspended)) =
      (domain.thread? id).map fun thread =>
        (thread.waitingOn, thread.hook.isSome, thread.suspended)) : next.Linked where
  waits id thread queue present := by
    have same := threads id
    rw [present] at same
    obtain ⟨old, found, fields⟩ := Option.map_eq_some_iff.1 same.symm
    rw [queues, ← linked.waits id old queue found]
    simp only [Prod.mk.injEq] at fields
    rw [fields.1]
  once queue := by
    rw [queues]
    exact linked.once queue
  present queue id waiting := by
    rw [queues] at waiting
    have there := linked.present queue id waiting
    have same := congrArg Option.isSome (threads id)
    simpa [there] using same
  suspended id thread present armed := by
    have same := threads id
    rw [present] at same
    obtain ⟨old, found, fields⟩ := Option.map_eq_some_iff.1 same.symm
    simp only [Prod.mk.injEq] at fields
    rw [← fields.2.2]
    apply linked.suspended id old found
    rwa [fields.1, fields.2.1]

/-- Replacing a thread by one that records the same about waiting keeps the links. -/
theorem setThread (linked : domain.Linked) {id : ThreadId} {old thread : Thread ν}
    (present : domain.thread? id = some old) (waitingOn : thread.waitingOn = old.waitingOn)
    (hook : thread.hook.isSome = old.hook.isSome) (suspended : thread.suspended = old.suspended) :
    (domain.setThread id thread).Linked := by
  refine linked.of_same (waitersOf_setThread domain id thread) fun other => ?_
  rw [thread?_setThread present]
  by_cases same : other = id
  · subst same
    simp [present, waitingOn, hook, suspended]
  · simp [same]

/-- Suspending a thread keeps the links, whatever hook is armed. -/
theorem suspend (linked : domain.Linked) {id : ThreadId} {hook : Option (AbortHook ν)}
    (done : domain.suspend id hook = .ok next) : next.Linked := by
  obtain ⟨thread, present, rfl⟩ := suspend_eq_ok done
  have threads := thread?_setThread present { thread with suspended := true, hook }
  constructor
  · intro other found queue known
    rw [threads] at known
    have old := linked.waits other
    grind [waitersOf_setThread]
  · exact linked.once
  · intro queue other waiting
    rw [threads]
    have old := linked.present queue other waiting
    grind
  · intro other found known armed
    rw [threads] at known
    have old := linked.suspended other
    grind

/-- Continuing a thread that waits nowhere keeps the links. -/
theorem release (linked : domain.Linked) {id : ThreadId} {thread : Thread ν}
    (present : domain.thread? id = some thread) (free : thread.waitingOn = none) :
    (domain.setThread id { thread with suspended := false, hook := none }).Linked := by
  have threads := thread?_setThread present { thread with suspended := false, hook := none }
  constructor
  · intro other found queue known
    rw [threads] at known
    have old := linked.waits other
    grind [waitersOf_setThread]
  · exact linked.once
  · intro queue other waiting
    rw [threads]
    have old := linked.present queue other waiting
    grind
  · intro other found known armed
    rw [threads] at known
    have old := linked.suspended other
    grind

/-- After a thread has left the queue it recorded, the others wait as before. -/
theorem mem_waitersWithout (linked : domain.Linked) {id : ThreadId} {thread : Thread ν}
    (present : domain.thread? id = some thread) (queue : QueueId) (other : ThreadId) :
    other ∈ domain.waitersWithout thread.waitingOn id queue ↔
      other ≠ id ∧ other ∈ domain.waitersOf queue := by
  have recorded := linked.waits id thread queue present
  have distinct := linked.once queue
  unfold waitersWithout
  split
  · rw [distinct.mem_erase_iff]
  · rename_i elsewhere
    constructor
    · intro waiting
      refine ⟨fun same => ?_, waiting⟩
      subst same
      exact elsewhere (recorded.2 waiting)
    · exact fun waiting => waiting.2

/-- After a thread has left the queue it recorded, no other waits twice. -/
theorem nodup_waitersWithout (linked : domain.Linked) (recorded : Option QueueId) (id : ThreadId)
    (queue : QueueId) : (domain.waitersWithout recorded id queue).Nodup := by
  unfold waitersWithout
  split
  · exact (linked.once queue).erase id
  · exact linked.once queue

/-- Detaching a thread keeps the links. -/
theorem detach (linked : domain.Linked) {id : ThreadId} {hook : Option (AbortHook ν)}
    (done : domain.detach id = .ok (next, hook)) : next.Linked := by
  obtain ⟨thread, present, _, threads, queues⟩ := detach_eq_ok done
  have members := linked.mem_waitersWithout present
  constructor
  · intro other found queue known
    rw [threads] at known
    rw [queues, members]
    have old := linked.waits other
    grind
  · intro queue
    rw [queues]
    exact linked.nodup_waitersWithout _ id queue
  · intro queue other waiting
    rw [queues, members] at waiting
    rw [threads]
    have old := linked.present queue other waiting.2
    grind
  · intro other found known armed
    rw [threads] at known
    have old := linked.suspended other
    grind

/-- Parking a thread keeps the links. -/
theorem park (linked : domain.Linked) {queue : QueueId} {id : ThreadId}
    (done : domain.park queue id = .ok next) : next.Linked := by
  obtain ⟨thread, present, threads, queues⟩ := park_eq_ok done
  have members := linked.mem_waitersWithout present
  constructor
  · intro other found place known
    rw [threads] at known
    rw [queues]
    have old := linked.waits other
    grind
  · intro place
    rw [queues]
    have distinct := linked.nodup_waitersWithout thread.waitingOn id
    grind [List.nodup_append]
  · intro place other waiting
    rw [queues] at waiting
    rw [threads]
    have old := linked.present place other
    grind
  · intro other found known armed
    rw [threads] at known
    have old := linked.suspended other
    grind

/-- Popping a waiter keeps the links. -/
theorem popWaiter (linked : domain.Linked) {queue : QueueId} {popped : Option ThreadId}
    (done : domain.popWaiter queue = .ok (next, popped)) : next.Linked := by
  obtain ⟨_, rfl, _⟩ | ⟨head, rest, thread, waiters, _, present, threads, queues⟩ :=
    popWaiter_eq_ok done
  · exact linked
  have distinct := linked.once queue
  rw [waiters, List.nodup_cons] at distinct
  have here : head ∈ domain.waitersOf queue := by simp [waiters]
  constructor
  · intro other found place known
    rw [threads] at known
    rw [queues]
    have old := linked.waits other
    have elsewhere := @Linked.apart _ _ linked queue place head here
    grind
  · intro place
    rw [queues]
    have old := linked.once place
    grind
  · intro place other waiting
    rw [queues] at waiting
    rw [threads]
    have old := linked.present place other
    grind
  · intro other found known armed
    rw [threads] at known
    have old := linked.suspended other
    grind

/-- Transferring a waiter keeps the links. -/
theorem transferNext (linked : domain.Linked) {source target : QueueId}
    {moved : Option ThreadId} (done : domain.transferNext source target = .ok (next, moved)) :
    next.Linked := by
  obtain ⟨rfl, _⟩ | ⟨head, rest, thread, elsewhere, waiters, present, threads, queues⟩ :=
    transferNext_eq_ok done
  · exact linked
  have distinct := linked.once source
  rw [waiters, List.nodup_cons] at distinct
  have here : head ∈ domain.waitersOf source := by simp [waiters]
  have only := fun place => @Linked.apart _ _ linked source place head here
  constructor
  · intro other found place known
    rw [threads] at known
    rw [queues]
    have old := linked.waits other
    grind
  · intro place
    rw [queues]
    have old := linked.once place
    grind [List.nodup_append]
  · intro place other waiting
    rw [queues] at waiting
    rw [threads]
    have old := fun place => linked.present place other
    grind
  · intro other found known armed
    rw [threads] at known
    have old := linked.suspended other
    have held := linked.waiter here
    grind

/-- Transferring all waiters keeps the links. -/
theorem transferAll (linked : domain.Linked) {source target : QueueId}
    (done : domain.transferAll source target = .ok next) : next.Linked := by
  obtain ⟨rfl, _⟩ | ⟨elsewhere, threads, queues⟩ := transferAll_eq_ok done
  · exact linked
  have only := fun place id => @Linked.apart _ _ linked source place id
  constructor
  · intro other found place known
    rw [threads] at known
    rw [queues]
    split at known
    · rename_i moved
      obtain ⟨thread, present, rfl⟩ := Option.map_eq_some_iff.1 known
      have single := only place other moved
      grind
    · have old := linked.waits other found place known
      grind
  · intro place
    rw [queues]
    have old := linked.once
    grind [List.nodup_append]
  · intro place other waiting
    rw [queues] at waiting
    rw [threads]
    have old := fun place => linked.present place other
    grind
  · intro other found known armed
    rw [threads] at known
    split at known
    · rename_i moved
      obtain ⟨thread, present, rfl⟩ := Option.map_eq_some_iff.1 known
      obtain ⟨again, same, _, held⟩ := linked.waiter moved
      grind
    · exact linked.suspended other found known armed

/-- Emptying a queue keeps the links. -/
theorem resetQueue (linked : domain.Linked) {queue : QueueId}
    (done : domain.resetQueue queue = .ok next) : next.Linked := by
  obtain ⟨threads, queues⟩ := resetQueue_eq_ok done
  have only := fun place id => @Linked.apart _ _ linked queue place id
  constructor
  · intro other found place known
    rw [threads] at known
    rw [queues]
    split at known
    · rename_i removed
      obtain ⟨thread, present, rfl⟩ := Option.map_eq_some_iff.1 known
      have single := only place other removed
      grind
    · have old := linked.waits other found place known
      grind
  · intro place
    rw [queues]
    have old := linked.once place
    grind
  · intro place other waiting
    rw [queues] at waiting
    rw [threads]
    have old := linked.present place other
    grind
  · intro other found known armed
    rw [threads] at known
    split at known
    · rename_i removed
      obtain ⟨thread, present, rfl⟩ := Option.map_eq_some_iff.1 known
      exact linked.suspended other thread present (by grind)
    · exact linked.suspended other found known armed

/-- A new queue is empty and keeps the links. -/
theorem createQueue (linked : domain.Linked) : domain.createQueue.1.Linked :=
  linked.of_same (waitersOf_createQueue domain) fun _ => rfl

/-- A new thread waits nowhere and keeps the links. -/
theorem createThread (linked : domain.Linked) : domain.createThread.1.Linked := by
  have queued := linked.createQueue
  have threads : ∀ id, domain.createThread.1.thread? id =
      if id.index = domain.threads.size then
        some { «variables» := Array.replicate domain.threadVariables 0,
               joinQueue := domain.createQueue.2 }
      else domain.createQueue.1.thread? id := by
    intro id
    simp [Domain.createThread, Domain.createQueue, Domain.thread?, Array.getElem?_push]
  have fresh : ∀ id : ThreadId, id.index = domain.threads.size →
      domain.createQueue.1.thread? id = none := by
    intro id last
    simp [Domain.createQueue, Domain.thread?, last]
  have queues : ∀ queue, domain.createThread.1.waitersOf queue =
      domain.createQueue.1.waitersOf queue := fun _ => rfl
  constructor
  · intro id found queue known
    rw [threads] at known
    rw [queues]
    have old := queued.waits id
    have there := queued.present queue id
    have none := fresh id
    grind
  · intro queue
    rw [queues]
    exact queued.once queue
  · intro queue id waiting
    rw [queues] at waiting
    rw [threads]
    have there := queued.present queue id waiting
    grind
  · intro id found known armed
    rw [threads] at known
    have old := queued.suspended id
    grind

/-- Every update keeps the links. -/
theorem of_updated (linked : domain.Linked) (update : domain.Updated next) : next.Linked := by
  cases update with
  | tables threads queues functions active =>
    exact linked.of_same (fun queue => by simp only [waitersOf, queues])
      fun id => by simp only [thread?, threads]
  | clear done =>
    unfold Domain.clear at done
    split at done <;> cases done
    exact of_empty rfl rfl
  | values present values => exact linked.setThread present rfl rfl rfl
  | createThread => exact linked.createThread
  | createQueue => exact linked.createQueue
  | supply done =>
    obtain ⟨thread, _, _, _, present, _, _, _, _, _, _, rfl⟩ := supplyResult_eq_ok done
    exact linked.setThread present rfl rfl rfl
  | suspend done => exact linked.suspend done
  | park done => exact linked.park done
  | pop done => exact linked.popWaiter done
  | transferNext done => exact linked.transferNext done
  | transferAll done => exact linked.transferAll done
  | reset done => exact linked.resetQueue done

/-- Every elementary change keeps the links. -/
theorem of_change (linked : domain.Linked) (change : domain.Change next) : next.Linked := by
  cases change with
  | updated update => exact linked.of_updated update
  | register function => exact linked.of_same (fun _ => rfl) fun _ => rfl
  | execution present execution pendingAbort => exact linked.setThread present rfl rfl rfl
  | active id => exact linked.of_same (fun _ => rfl) fun _ => rfl
  | release present free => exact linked.release present free
  | detach done => exact linked.detach done

/-- Elementary changes in a row keep the links. -/
theorem of_changes (linked : domain.Linked)
    (changes : Relation.ReflTransGen Domain.Change domain next) : next.Linked := by
  induction changes with
  | refl => exact linked
  | tail _ change ih => exact ih.of_change change

end Domain.Linked

namespace Config

variable {host : Host ν σ} {allowed : Request ν → Prop} {config : Config ν σ}

/-- The domain of a reachable configuration is linked. -/
theorem linked_of_reachable (reached : config.Reachable host allowed) :
    config.world.domain.Linked := by
  induction reached with
  | initial state body asks => exact .of_empty rfl rfl
  | again reached ended state body asks ih => exact ih
  | step reached ih => exact ih.of_changes (step_evolves host _)

/-- In every reachable configuration, and so at every point at which a body of the host acts, the
domain is linked, and no thread waits in two queues. -/
theorem links_agree (reached : config.Reachable host allowed) :
    config.world.domain.Linked ∧
      ∀ id first second, id ∈ config.world.domain.waitersOf first →
        id ∈ config.world.domain.waitersOf second → first = second := by
  have linked := linked_of_reachable reached
  exact ⟨linked, fun id first second here there => linked.apart here there⟩

/-- Two threads are parked in one queue, the first of them is transferred to another, and the
second is given a hook. -/
def transferring : Program Unit Unit Int32 := do
  let _ ← Program.update .createThread
  let _ ← Program.update .createThread
  let _ ← Program.update (.park ⟨1⟩ ⟨0⟩)
  let _ ← Program.update (.park ⟨1⟩ ⟨1⟩)
  let _ ← Program.update (.transferNext ⟨1⟩ ⟨0⟩)
  let _ ← Program.update (.suspend ⟨1⟩ (some .leaveSleep))
  return 0

/-- A host whose callbacks do nothing. -/
def idleHost : Host Unit Unit where
  native _ _ := .done 0
  onAbort _ _ := .done 0
  onLimit _ _ state := state
  onEvent _ _ state := state

/-- The links after a transfer. -/
theorem links_agree_transferred :
    let config := (Config.initial {} () transferring).run idleHost 6
    config.Reachable idleHost (fun _ => True) ∧
      config.world.domain.waitersOf ⟨0⟩ = [⟨0⟩] ∧ config.world.domain.waitersOf ⟨1⟩ = [⟨1⟩] ∧
      config.world.domain.Linked := by
  have reached := @Reachable.run _ _ idleHost (fun _ => True) _
    (.initial () transferring (Program.asks_of_forall (fun _ => trivial) _)) 6
  exact ⟨reached, by decide +kernel, by decide +kernel, (links_agree reached).1⟩

end Config

end ScriptMachine

import ScriptMachine.Proofs.Keeping
import ScriptMachine.Proofs.Links

/-!
# Moves of waiting threads

There are few things that can happen to the threads that wait: one arrives at the end of a queue or
departs from wherever it waits, the first one of a queue is served or goes to another queue, a whole
queue goes there, or one or all queues are emptied. Each operation on queues is one of these moves,
and leaves alone what the tables of the domain say for good.
-/

namespace ScriptMachine

variable {ν σ : Type}

/-- What happens to the threads that wait. -/
inductive QueueMove where
  /-- Nothing happens. -/
  | stay
  /-- A thread leaves the queue it waits in, if any, and goes to the end of this one. -/
  | arrive (id : ThreadId) (queue : QueueId)
  /-- A thread leaves the queue it waits in, if any. -/
  | depart (id : ThreadId)
  /-- The first thread of a queue leaves it. -/
  | serve (queue : QueueId)
  /-- The first thread of a queue goes to the end of another. -/
  | transferNext (source target : QueueId)
  /-- The threads of a queue go to the end of another. -/
  | transferAll (source target : QueueId)
  /-- The threads of a queue leave it. -/
  | reset (queue : QueueId)
  /-- Every thread leaves its queue. -/
  | clear
  deriving DecidableEq

namespace QueueMove

/-- The waiters of a queue that a move leaves in their places. -/
def kept (move : QueueMove) (waiters : QueueId → List ThreadId) (queue : QueueId) :
    List ThreadId :=
  match move with
  | stay => waiters queue
  | arrive id _ | depart id => (waiters queue).erase id
  | serve first => if queue = first then (waiters queue).tail else waiters queue
  | transferNext source target =>
    if queue = source ∧ source ≠ target then (waiters queue).tail else waiters queue
  | transferAll source target =>
    if queue = source ∧ source ≠ target then [] else waiters queue
  | reset emptied => if queue = emptied then [] else waiters queue
  | clear => []

/-- The threads that a move puts at the end of a queue. -/
def added (move : QueueMove) (waiters : QueueId → List ThreadId) (queue : QueueId) :
    List ThreadId :=
  match move with
  | arrive id target => if queue = target then [id] else []
  | transferNext source target =>
    if queue = target ∧ source ≠ target then (waiters source).head?.toList else []
  | transferAll source target => if queue = target ∧ source ≠ target then waiters source else []
  | stay | depart _ | serve _ | reset _ | clear => []

/-- The waiters of each queue after a move, from those before it. -/
def apply (move : QueueMove) (waiters : QueueId → List ThreadId) (queue : QueueId) :
    List ThreadId := move.kept waiters queue ++ move.added waiters queue

/-- Where nothing happens, the waiters are the same. -/
@[simp] theorem apply_stay (waiters : QueueId → List ThreadId) (queue : QueueId) :
    stay.apply waiters queue = waiters queue := List.append_nil _

/-- Where a thread departs, the others wait as before. -/
@[simp] theorem apply_depart (id : ThreadId) (waiters : QueueId → List ThreadId)
    (queue : QueueId) : (depart id).apply waiters queue = (waiters queue).erase id :=
  List.append_nil _

/-- Where a queue is served, the others wait as before. -/
@[simp] theorem apply_serve (first : QueueId) (waiters : QueueId → List ThreadId)
    (queue : QueueId) : (serve first).apply waiters queue =
      if queue = first then (waiters queue).tail else waiters queue :=
  List.append_nil _

/-- Where a queue is emptied, the others wait as before. -/
@[simp] theorem apply_reset (emptied : QueueId) (waiters : QueueId → List ThreadId)
    (queue : QueueId) : (reset emptied).apply waiters queue =
      if queue = emptied then [] else waiters queue :=
  List.append_nil _

end QueueMove

/-- What is fixed of a thread when it is created: the number of its variables, and the queue in
which others can wait for it. -/
def Thread.standing (thread : Thread ν) : Nat × QueueId :=
  (thread.variables.size, thread.joinQueue)

/-- The waiting threads have moved, and the tables are as they were: nothing is declared, registered
or created. -/
structure Domain.Moves (move : QueueMove) (domain next : Domain ν) : Prop where
  functions : next.functions = domain.functions
  objects : next.objects = domain.objects
  globals : next.globals.size = domain.globals.size
  specials : next.specials.size = domain.specials.size
  threadVariables : next.threadVariables = domain.threadVariables
  threads : ∀ id, (next.thread? id).map Thread.standing = (domain.thread? id).map Thread.standing
  queues : next.queues.size = domain.queues.size
  waiters : ∀ queue, next.waitersOf queue = move.apply domain.waitersOf queue

namespace Domain

variable {domain middle next : Domain ν} {move : QueueMove}

/-! ## The number of queues -/

/-- Leaving a queue leaves the number of queues alone. -/
theorem queues_size_leave {recorded : Option QueueId} {id : ThreadId}
    (done : domain.leave recorded id = .ok next) : next.queues.size = domain.queues.size := by
  cases recorded with
  | none =>
    cases done
    rfl
  | some queue =>
    obtain ⟨waiters, _, changed⟩ := bind_eq_ok.1 done
    cases changed
    exact queues_size_setWaiters ..

/-- Appending to a queue leaves the number of queues alone. -/
theorem queues_size_append {queue : QueueId} {added : List ThreadId}
    (done : (do
      let waiters ← domain.waiters queue
      return domain.setWaiters queue (waiters ++ added)) = Except.ok (ε := Fault) next) :
    next.queues.size = domain.queues.size := by
  obtain ⟨waiters, _, same⟩ := bind_eq_ok.1 done
  cases same
  exact queues_size_setWaiters ..

/-- Parking a thread leaves the number of queues alone. -/
theorem queues_size_park {queue : QueueId} {id : ThreadId}
    (done : domain.park queue id = .ok next) : next.queues.size = domain.queues.size := by
  obtain ⟨thread, _, changed⟩ := bind_eq_ok.1 done
  cases recorded : thread.waitingOn with
  | none =>
    rw [recorded] at changed
    obtain ⟨_, same, added⟩ := bind_eq_ok.1 changed
    cases same
    exact (queues_size_append added).trans rfl
  | some previous =>
    rw [recorded] at changed
    obtain ⟨_, left, added⟩ := bind_eq_ok.1 changed
    have kept := @queues_size_leave _ _ _ (some previous) id left
    exact (queues_size_append added).trans kept

/-- Popping a waiter leaves the number of queues alone. -/
theorem queues_size_popWaiter {queue : QueueId} {popped : Option ThreadId}
    (done : domain.popWaiter queue = .ok (next, popped)) :
    next.queues.size = domain.queues.size := by
  obtain ⟨waiters, _, changed⟩ := bind_eq_ok.1 done
  cases waiters with
  | nil =>
    cases changed
    rfl
  | cons head rest =>
    obtain ⟨thread, _, same⟩ := bind_eq_ok.1 changed
    cases same
    exact queues_size_setWaiters ..

/-- Transferring a waiter leaves the number of queues alone. -/
theorem queues_size_transferNext {source target : QueueId} {moved : Option ThreadId}
    (done : domain.transferNext source target = .ok (next, moved)) :
    next.queues.size = domain.queues.size := by
  obtain ⟨waiters, _, changed⟩ := bind_eq_ok.1 done
  cases waiters with
  | nil =>
    cases changed
    rfl
  | cons head rest =>
    dsimp only at changed
    split at changed
    · cases changed
      rfl
    · obtain ⟨_, linked, added⟩ := bind_eq_ok.1 changed
      obtain ⟨_, _, same⟩ := bind_eq_ok.1 added
      cases same
      rw [queues_size_setWaiters, (relink_eq_ok linked).2.1, queues_size_setWaiters]

/-- Transferring all waiters leaves the number of queues alone. -/
theorem queues_size_transferAll {source target : QueueId}
    (done : domain.transferAll source target = .ok next) :
    next.queues.size = domain.queues.size := by
  unfold Domain.transferAll at done
  split at done
  · cases done
    rfl
  · obtain ⟨_, _, changed⟩ := bind_eq_ok.1 done
    obtain ⟨_, linked, added⟩ := bind_eq_ok.1 changed
    rw [queues_size_append added, (relink_eq_ok linked).2.1, queues_size_setWaiters]

/-- Emptying a queue leaves the number of queues alone. -/
theorem queues_size_resetQueue {queue : QueueId} (done : domain.resetQueue queue = .ok next) :
    next.queues.size = domain.queues.size := by
  obtain ⟨_, _, linked⟩ := bind_eq_ok.1 done
  rw [(relink_eq_ok linked).2.1, queues_size_setWaiters]

/-- Detaching a thread leaves the number of queues alone. -/
theorem queues_size_detach {id : ThreadId} {hook : Option (AbortHook ν)}
    (done : domain.detach id = .ok (next, hook)) : next.queues.size = domain.queues.size := by
  obtain ⟨thread, _, changed⟩ := bind_eq_ok.1 done
  cases recorded : thread.waitingOn with
  | none =>
    rw [recorded] at changed
    cases changed
    rfl
  | some queue =>
    rw [recorded] at changed
    obtain ⟨_, left, handed⟩ := bind_eq_ok.1 changed
    cases handed
    have kept := @queues_size_leave _ _ _ (some queue) id left
    exact kept

/-! ## Moves -/

namespace Moves

/-- Nothing happens. -/
theorem refl (domain : Domain ν) : domain.Moves .stay domain :=
  ⟨rfl, rfl, rfl, rfl, rfl, fun _ => rfl, rfl, fun _ => (QueueMove.apply_stay ..).symm⟩

/-- After a move nothing more happens. -/
theorem trans_stay (first : domain.Moves move middle) (second : middle.Moves .stay next) :
    domain.Moves move next where
  functions := second.functions.trans first.functions
  objects := second.objects.trans first.objects
  globals := second.globals.trans first.globals
  specials := second.specials.trans first.specials
  threadVariables := second.threadVariables.trans first.threadVariables
  threads id := (second.threads id).trans (first.threads id)
  queues := second.queues.trans first.queues
  waiters queue := by rw [second.waiters, QueueMove.apply_stay, first.waiters]

/-- Before a move nothing happens. -/
theorem stay_trans (first : domain.Moves .stay middle) (second : middle.Moves move next) :
    domain.Moves move next where
  functions := second.functions.trans first.functions
  objects := second.objects.trans first.objects
  globals := second.globals.trans first.globals
  specials := second.specials.trans first.specials
  threadVariables := second.threadVariables.trans first.threadVariables
  threads id := (second.threads id).trans (first.threads id)
  queues := second.queues.trans first.queues
  waiters queue := by
    have same : middle.waitersOf = domain.waitersOf := funext fun other => by
      rw [first.waiters, QueueMove.apply_stay]
    rw [second.waiters, same]

/-- A thread is replaced by one that records the same for good. -/
theorem setThread {id : ThreadId} {old thread : Thread ν}
    (present : domain.thread? id = some old) (same : thread.standing = old.standing) :
    domain.Moves .stay (domain.setThread id thread) where
  functions := rfl
  objects := rfl
  globals := rfl
  specials := rfl
  threadVariables := rfl
  threads other := by
    rw [thread?_setThread present]
    by_cases here : other = id
    · rw [if_pos here, here, present, Option.map_some, Option.map_some, same]
    · rw [if_neg here]
  queues := rfl
  waiters _ := (QueueMove.apply_stay ..).symm

/-- Threads and queues are rearranged, and the threads record the same for good. -/
theorem of_rearranged (rearranged : domain.Rearranged next)
    (threads : ∀ id, (next.thread? id).map Thread.standing =
      (domain.thread? id).map Thread.standing)
    (queues : next.queues.size = domain.queues.size)
    (waiters : ∀ queue, next.waitersOf queue = move.apply domain.waitersOf queue) :
    domain.Moves move next where
  functions := by rw [rearranged]
  objects := by rw [rearranged]
  globals := by rw [rearranged]
  specials := by rw [rearranged]
  threadVariables := by rw [rearranged]
  threads := threads
  queues := queues
  waiters := waiters

/-- One thread is replaced by one that records the same for good. -/
theorem standing_of_thread {id : ThreadId} {old thread : Thread ν}
    (present : domain.thread? id = some old)
    (threads : ∀ other, next.thread? other =
      if other = id then some thread else domain.thread? other)
    (same : thread.standing = old.standing) (other : ThreadId) :
    (next.thread? other).map Thread.standing = (domain.thread? other).map Thread.standing := by
  rw [threads]
  by_cases here : other = id
  · rw [if_pos here, here, present, Option.map_some, Option.map_some, same]
  · rw [if_neg here]

/-- Some threads record another queue and stay the same otherwise. -/
theorem standing_of_waitingOn {ids : List ThreadId} {waitingOn : Option QueueId}
    (threads : ∀ other, next.thread? other =
      if other ∈ ids then (domain.thread? other).map fun thread => { thread with waitingOn }
      else domain.thread? other) (other : ThreadId) :
    (next.thread? other).map Thread.standing = (domain.thread? other).map Thread.standing := by
  rw [threads]
  by_cases listed : other ∈ ids
  · rw [if_pos listed, Option.map_map]
    rfl
  · rw [if_neg listed]

/-- In a linked domain a thread that leaves the queue it records is gone from every queue. -/
theorem waitersWithout_eq (linked : domain.Linked) {id : ThreadId} {thread : Thread ν}
    (present : domain.thread? id = some thread) (queue : QueueId) :
    domain.waitersWithout thread.waitingOn id queue = (domain.waitersOf queue).erase id := by
  unfold waitersWithout
  split
  · rfl
  · rename_i elsewhere
    have absent : id ∉ domain.waitersOf queue := fun waiting =>
      elsewhere ((linked.waits id thread queue present).2 waiting)
    rw [List.erase_of_not_mem absent]

/-- A thread that waits nowhere departs. -/
theorem depart (stays : domain.Moves .stay next) {id : ThreadId}
    (free : ∀ queue, id ∉ domain.waitersOf queue) : domain.Moves (.depart id) next :=
  { stays with
    waiters := fun queue => by
      rw [stays.waiters, QueueMove.apply_stay, QueueMove.apply_depart,
        List.erase_of_not_mem (free queue)] }

/-- Detaching a thread. -/
theorem detach (linked : domain.Linked) {id : ThreadId} {hook : Option (AbortHook ν)}
    (done : domain.detach id = .ok (next, hook)) : domain.Moves (.depart id) next := by
  obtain ⟨thread, present, _, threads, queues⟩ := detach_eq_ok done
  refine of_rearranged (.detach done) (standing_of_thread present threads rfl)
    (queues_size_detach done) fun queue => ?_
  rw [queues, waitersWithout_eq linked present, QueueMove.apply_depart]

/-- Parking a thread. -/
theorem park (linked : domain.Linked) {queue : QueueId} {id : ThreadId}
    (done : domain.park queue id = .ok next) : domain.Moves (.arrive id queue) next := by
  obtain ⟨thread, present, threads, queues⟩ := park_eq_ok done
  refine of_rearranged (.park done) (standing_of_thread present threads rfl)
    (queues_size_park done) fun other => ?_
  rw [queues, waitersWithout_eq linked present, waitersWithout_eq linked present]
  by_cases here : other = queue
  · simp [QueueMove.apply, QueueMove.kept, QueueMove.added, here]
  · simp [QueueMove.apply, QueueMove.kept, QueueMove.added, here]

/-- Nobody is served where nobody waits. -/
theorem serve_empty {queue : QueueId} (empty : domain.waitersOf queue = []) :
    domain.Moves (.serve queue) domain :=
  { refl domain with
    waiters := fun other => by
      rw [QueueMove.apply_serve]
      split
      · rename_i here
        rw [here, empty, List.tail_nil]
      · rfl }

/-- Popping a waiter. -/
theorem popWaiter {queue : QueueId} {popped : Option ThreadId}
    (done : domain.popWaiter queue = .ok (next, popped)) : domain.Moves (.serve queue) next := by
  obtain ⟨empty, rfl, _⟩ | ⟨head, rest, thread, waiters, _, present, threads, queues⟩ :=
    popWaiter_eq_ok done
  · exact serve_empty empty
  · refine of_rearranged (.popWaiter done) (standing_of_thread present threads rfl)
      (queues_size_popWaiter done) fun other => ?_
    rw [queues, QueueMove.apply_serve]
    by_cases here : other = queue
    · rw [if_pos here, if_pos here, here, waiters, List.tail_cons]
    · rw [if_neg here, if_neg here]

/-- Transferring a waiter. -/
theorem transferNext {source target : QueueId} {moved : Option ThreadId}
    (done : domain.transferNext source target = .ok (next, moved)) :
    domain.Moves (.transferNext source target) next := by
  obtain ⟨rfl, nothing⟩ | ⟨head, rest, thread, apart, waiters, present, threads, queues⟩ :=
    transferNext_eq_ok done
  · refine { refl next with waiters := fun other => ?_ }
    rcases nothing with same | empty
    · simp [QueueMove.apply, QueueMove.kept, QueueMove.added, same]
    · by_cases there : other = source
      · simp [QueueMove.apply, QueueMove.kept, QueueMove.added, there, empty]
      · simp [QueueMove.apply, QueueMove.kept, QueueMove.added, there, empty]
  · refine of_rearranged (.transferNext done) (standing_of_thread present threads rfl)
      (queues_size_transferNext done) fun other => ?_
    rw [queues]
    have back : target ≠ source := fun same => apart same.symm
    by_cases here : other = target
    · simp [QueueMove.apply, QueueMove.kept, QueueMove.added, here, apart, back, waiters]
    · by_cases there : other = source
      · simp [QueueMove.apply, QueueMove.kept, QueueMove.added, there, apart, waiters]
      · simp [QueueMove.apply, QueueMove.kept, QueueMove.added, here, there]

/-- Transferring all waiters. -/
theorem transferAll {source target : QueueId} (done : domain.transferAll source target = .ok next) :
    domain.Moves (.transferAll source target) next := by
  obtain ⟨rfl, same⟩ | ⟨apart, threads, queues⟩ := transferAll_eq_ok done
  · exact { refl next with
      waiters := fun other => by
        simp [QueueMove.apply, QueueMove.kept, QueueMove.added, same] }
  · refine of_rearranged (.transferAll done) (standing_of_waitingOn threads)
      (queues_size_transferAll done) fun other => ?_
    rw [queues]
    have back : target ≠ source := fun same => apart same.symm
    by_cases here : other = target
    · simp [QueueMove.apply, QueueMove.kept, QueueMove.added, here, apart, back]
    · by_cases there : other = source
      · simp [QueueMove.apply, QueueMove.kept, QueueMove.added, there, apart]
      · simp [QueueMove.apply, QueueMove.kept, QueueMove.added, here, there]

/-- Emptying a queue. -/
theorem resetQueue {queue : QueueId} (done : domain.resetQueue queue = .ok next) :
    domain.Moves (.reset queue) next := by
  obtain ⟨threads, queues⟩ := resetQueue_eq_ok done
  refine of_rearranged (.resetQueue done) (standing_of_waitingOn threads)
    (queues_size_resetQueue done) fun other => ?_
  rw [queues, QueueMove.apply_reset]

/-- Suspending a thread. -/
theorem suspend {id : ThreadId} {hook : Option (AbortHook ν)}
    (done : domain.suspend id hook = .ok next) : domain.Moves .stay next := by
  obtain ⟨thread, present, rfl⟩ := suspend_eq_ok done
  exact setThread present rfl

/-- Handing a result to a suspended thread. -/
theorem supplyResult {id : ThreadId} {value : Int32}
    (done : domain.supplyResult id value = .ok (.ok next)) : domain.Moves .stay next := by
  obtain ⟨thread, _, _, _, present, _, _, _, _, _, _, rfl⟩ := supplyResult_eq_ok done
  exact setThread present rfl

/-- Handing a result to a woken thread. -/
theorem handResult {id : ThreadId} {value : Option Int32}
    (done : Config.handResult domain id value = .ok (.ok next)) : domain.Moves .stay next := by
  cases value with
  | none =>
    cases done
    exact refl domain
  | some value =>
    obtain ⟨result, supplied, rest⟩ := bind_eq_ok.1 done
    split at rest
    · cases rest
      exact refl domain
    · cases rest
      exact refl domain
    · cases rest
      exact supplyResult supplied

/-- Discarding the frames of a thread. -/
theorem discard {id : ThreadId} {reason : AbortReason}
    (done : domain.discard id reason = .ok next) : domain.Moves .stay next := by
  obtain ⟨thread, present, ⟨execution, _, rfl⟩ | ⟨_, rfl⟩⟩ := discard_eq_ok done
  · exact setThread present rfl
  · exact setThread present rfl

end Moves

end Domain

end ScriptMachine

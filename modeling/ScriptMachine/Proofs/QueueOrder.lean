import ScriptMachine.Proofs.TableSteps

/-!
# The order in which threads wait

Wait queues are fair. A thread that begins to wait does so at the end of its queue, and what a step
leaves of a queue keeps its order, so at every moment the threads of a queue are listed in the order
in which they came there. Whoever pops a queue or wakes a thread through it takes the one that has
been there longest. Nobody is lost: a thread leaves a queue only by a request that names the queue,
the thread, or everything.
-/

namespace ScriptMachine

variable {ν σ : Type}

namespace QueueMove

variable {move : QueueMove} {waiters : QueueId → List ThreadId} {queue : QueueId} {id : ThreadId}

/-- What a move leaves of a queue keeps its order. -/
theorem kept_sublist (move : QueueMove) (waiters : QueueId → List ThreadId) (queue : QueueId) :
    (move.kept waiters queue).Sublist (waiters queue) := by
  cases move with
  | stay => exact .refl _
  | arrive id target => exact List.erase_sublist
  | depart id => exact List.erase_sublist
  | serve first =>
    simp only [kept]
    split
    · exact List.tail_sublist _
    · exact .refl _
  | transferNext source target =>
    simp only [kept]
    split
    · exact List.tail_sublist _
    · exact .refl _
  | transferAll source target =>
    simp only [kept]
    split
    · exact List.nil_sublist _
    · exact .refl _
  | reset emptied =>
    simp only [kept]
    split
    · exact List.nil_sublist _
    · exact .refl _
  | clear => exact List.nil_sublist _

/-- What a move puts at the end of a queue is not what it leaves there, if no thread waits twice. -/
theorem not_added_of_kept (once : ∀ queue, (waiters queue).Nodup)
    (apart : ∀ {id first second}, id ∈ waiters first → id ∈ waiters second → first = second)
    (kept : id ∈ move.kept waiters queue) : id ∉ move.added waiters queue := by
  intro added
  have here := (move.kept_sublist waiters queue).subset kept
  cases move with
  | arrive thread target =>
    simp only [QueueMove.added] at added
    split at added
    · obtain rfl := List.mem_singleton.1 added
      exact ((once queue).mem_erase_iff.1 kept).1 rfl
    · exact absurd added List.not_mem_nil
  | transferNext source target =>
    simp only [QueueMove.added] at added
    split at added
    · rename_i within
      have there := List.mem_of_mem_head? (Option.mem_toList.1 added)
      exact within.2 ((apart there here).trans within.1)
    · exact absurd added List.not_mem_nil
  | transferAll source target =>
    simp only [QueueMove.added] at added
    split at added
    · rename_i within
      exact within.2 ((apart added here).trans within.1)
    · exact absurd added List.not_mem_nil
  | stay | depart _ | serve _ | reset _ | clear => exact absurd added List.not_mem_nil

/-- Only a transfer of a whole queue puts several threads into another at once. They come in the
order in which they waited. -/
theorem eq_transferAll_of_added {first second : ThreadId}
    (added : [first, second].Sublist (move.added waiters queue)) :
    ∃ source, move = .transferAll source queue ∧ [first, second].Sublist (waiters source) := by
  have two : 2 ≤ (move.added waiters queue).length := added.length_le
  cases move with
  | transferAll source target =>
    simp only [QueueMove.added] at added two
    split at added
    · rename_i within
      exact ⟨source, by rw [within.1], added⟩
    · exact absurd added.length_le (by simp)
  | arrive thread target =>
    simp only [QueueMove.added] at two
    split at two <;> simp at two
  | transferNext source target =>
    simp only [QueueMove.added] at two
    split at two
    · have one := Option.length_toList_le (o := (waiters source).head?)
      omega
    · simp at two
  | stay | depart _ | serve _ | reset _ | clear => simp [QueueMove.added] at two

/-- A move takes a thread out of the place it has in a queue. -/
def Removes (waiters : QueueId → List ThreadId) (queue : QueueId) (id : ThreadId) :
    QueueMove → Prop
  | arrive thread _ | depart thread => thread = id
  | serve first => queue = first ∧ (waiters queue).head? = some id
  | transferNext source target =>
    queue = source ∧ source ≠ target ∧ (waiters queue).head? = some id
  | transferAll source target => queue = source ∧ source ≠ target
  | reset emptied => queue = emptied
  | clear => True
  | stay => False

/-- A thread that a move does not leave in its queue is taken out of it. -/
theorem removes_of_not_kept (waiting : id ∈ waiters queue) (gone : id ∉ move.kept waiters queue) :
    move.Removes waiters queue id := by
  have head_of_tail (left : id ∉ (waiters queue).tail) : (waiters queue).head? = some id := by
    cases listed : waiters queue with
    | nil => simp [listed] at waiting
    | cons first rest =>
      rw [listed] at waiting left
      rw [List.head?_cons, (List.mem_cons.1 waiting).resolve_right left]
  have erased (thread : ThreadId) (left : id ∉ (waiters queue).erase thread) : thread = id := by
    by_contra apart
    exact left ((List.mem_erase_of_ne (Ne.symm apart)).2 waiting)
  cases move with
  | stay => exact gone waiting
  | arrive thread target => exact erased thread gone
  | depart thread => exact erased thread gone
  | serve first =>
    simp only [kept] at gone
    split at gone
    · rename_i here
      exact ⟨here, head_of_tail gone⟩
    · exact absurd waiting gone
  | transferNext source target =>
    simp only [kept] at gone
    split at gone
    · rename_i within
      exact ⟨within.1, within.2, head_of_tail gone⟩
    · exact absurd waiting gone
  | transferAll source target =>
    simp only [kept] at gone
    split at gone
    · assumption
    · exact absurd waiting gone
  | reset emptied =>
    simp only [kept] at gone
    split at gone
    · assumption
    · exact absurd waiting gone
  | clear => trivial

end QueueMove

namespace Domain

variable {domain next : Domain ν} {move : QueueMove}

/-- Whatever a domain undergoes, its queues change by the move alone. -/
theorem Undergoes.waitersOf (undergoes : domain.Undergoes move next) (queue : QueueId) :
    next.waitersOf queue = move.apply domain.waitersOf queue := by
  cases undergoes with
  | moves moves => exact moves.waiters queue
  | declares _ same _ _ _ =>
    rw [same, QueueMove.apply_stay]
    rfl
  | registers functions objects => exact (QueueMove.apply_stay ..).symm
  | createQueue => exact (waitersOf_createQueue domain queue).trans (QueueMove.apply_stay ..).symm
  | createThread => exact (waitersOf_createQueue domain queue).trans (QueueMove.apply_stay ..).symm
  | clears done =>
    unfold Domain.clear at done
    split at done <;> cases done
    simp [Domain.waitersOf, QueueMove.apply, QueueMove.kept, QueueMove.added]

end Domain

/-- In a list without repetitions, two entries stand in the same order in any part of the list that
has both. -/
theorem pair_sublist_iff {α : Type} {part whole : List α} (part_sublist : part.Sublist whole)
    (distinct : whole.Nodup) {first second : α} (here : first ∈ part) (there : second ∈ part) :
    [first, second].Sublist part ↔ [first, second].Sublist whole := by
  refine ⟨fun pair => pair.trans part_sublist, fun pair => ?_⟩
  induction part_sublist with
  | slnil => exact pair
  | cons other rest ih =>
    have fresh := (List.nodup_cons.1 distinct).1
    refine ih (List.nodup_cons.1 distinct).2 here there ?_
    rcases List.sublist_cons_iff.1 pair with later | ⟨_, same, _⟩
    · exact later
    · cases same
      exact absurd (rest.subset here) fresh
  | cons_cons other rest ih =>
    have fresh := (List.nodup_cons.1 distinct).1
    rcases List.sublist_cons_iff.1 pair with later | ⟨_, same, one⟩
    · have first_apart : first ≠ other := fun same => fresh (same ▸ later.subset (by simp))
      have second_apart : second ≠ other := fun same => fresh (same ▸ later.subset (by simp))
      have inner := ih (List.nodup_cons.1 distinct).2 (List.mem_of_ne_of_mem first_apart here)
        (List.mem_of_ne_of_mem second_apart there) later
      exact inner.cons other
    · cases same
      refine List.Sublist.cons_cons _ (List.singleton_sublist.2 ?_)
      have apart : second ≠ first := fun same => fresh (same ▸ one.subset (by simp))
      exact List.mem_of_ne_of_mem apart there

namespace Config

/-- The threads that wait in a queue, in the order of the queue. -/
def waiters (config : Config ν σ) (queue : QueueId) : List ThreadId :=
  config.world.domain.waitersOf queue

/-- The next step puts a thread at the end of a queue. -/
def Enqueues (queue : QueueId) (id : ThreadId) (config : Config ν σ) : Prop :=
  id ∈ config.queueMove.added config.waiters queue

/-- The waiting threads move as the work at hand says, or the machine stops before they do. -/
def MovesTo (config next : Config ν σ) : Prop :=
  (∀ queue, next.waiters queue = config.queueMove.apply config.waiters queue) ∨
    (∃ fault, next.focus = .faulted fault) ∧ ∀ queue, next.waiters queue = config.waiters queue

section

variable (configs : Nat → Config ν σ)

/-- A thread stays in a queue from one moment to another: it is there all the time, and is not put
there anew. -/
def Stays (queue : QueueId) (id : ThreadId) (first last : Nat) : Prop :=
  ∀ moment, first ≤ moment → moment ≤ last →
    id ∈ (configs moment).waiters queue ∧ (moment < last → ¬(configs moment).Enqueues queue id)

/-- A thread waits in a queue since a moment: it was put there then, and has stayed. -/
structure WaitsSince (queue : QueueId) (id : ThreadId) (since time : Nat) : Prop where
  earlier : since < time
  enqueues : (configs since).Enqueues queue id
  stays : Stays configs queue id (since + 1) time

end

/-- What holds from one moment to another holds in between. -/
theorem Stays.between {configs : Nat → Config ν σ} {queue : QueueId} {id : ThreadId}
    {first last from_ to_ : Nat} (stays : Stays configs queue id first last)
    (not_before : first ≤ from_) (not_after : to_ ≤ last) : Stays configs queue id from_ to_ :=
  fun moment begins ends =>
    ⟨(stays moment (by omega) (by omega)).1,
      fun inside => (stays moment (by omega) (by omega)).2 (by omega)⟩

/-- A thread waits in a queue since one moment only. -/
theorem WaitsSince.unique {configs : Nat → Config ν σ} {queue : QueueId} {id : ThreadId}
    {since again time : Nat} (waits : WaitsSince configs queue id since time)
    (waits_too : WaitsSince configs queue id again time) : since = again := by
  have earlier := waits.earlier
  have earlier_too := waits_too.earlier
  rcases Nat.lt_trichotomy since again with before | same | after
  · exact absurd waits_too.enqueues ((waits.stays again before (by omega)).2 earlier_too)
  · exact same
  · exact absurd waits.enqueues ((waits_too.stays since after (by omega)).2 earlier)

/-- Why a thread leaves a queue in the next step: the queue is popped, or the thread is woken
through it, while it is the first one; it is moved to another queue, alone or with all others, or
suspended into one; the queue or the domain is emptied; or the thread is aborted, be it to start a
function on it. -/
inductive Withdraws (queue : QueueId) (id : ThreadId) (config : Config ν σ) : Prop where
  | popped {next : Answer ν → Body ν σ}
    (focus : config.focus = .body (.ask (.update (.popWaiter queue)) next))
    (first : (config.waiters queue).head? = some id)
  | woken {value : Option Int32} {next : Answer ν → Body ν σ}
    (focus : config.focus = .body (.ask (.wake queue value) next))
    (first : (config.waiters queue).head? = some id)
  | transferred {target : QueueId} {next : Answer ν → Body ν σ}
    (focus : config.focus = .body (.ask (.update (.transferNext queue target)) next))
    (apart : queue ≠ target) (first : (config.waiters queue).head? = some id)
  | migrated {target : QueueId} {next : Answer ν → Body ν σ}
    (focus : config.focus = .body (.ask (.update (.transferAll queue target)) next))
    (apart : queue ≠ target)
  | parked {target : QueueId} {next : Answer ν → Body ν σ}
    (focus : config.focus = .body (.ask (.update (.park target id)) next)) (apart : queue ≠ target)
  | reset {next : Answer ν → Body ν σ}
    (focus : config.focus = .body (.ask (.update (.resetQueue queue)) next))
  | cleared {next : Answer ν → Body ν σ} (focus : config.focus = .body (.ask (.update .clear) next))
    (idle : config.world.domain.active = none)
  | takenDown (downs : config.TakesDown id)

section

variable {host : Host ν σ} {allowed : Request ν → Prop} {configs : Nat → Config ν σ}
  {config next : Config ν σ}

/-- A machine that is not at its end has not stopped. -/
theorem works_of_isFinal (going : config.isFinal = false) (fault : Fault) :
    config.focus ≠ .faulted fault := by
  intro faulted
  simp [isFinal, faulted] at going

/-- The next step moves the waiting threads. -/
theorem step_movesTo (host : Host ν σ) (linked : config.world.domain.Linked) :
    config.MovesTo (config.step host) := by
  rcases (step_undergoes host linked).domain with undergoes | ⟨faulted, moves⟩
  · exact .inl undergoes.waitersOf
  · exact .inr ⟨faulted, fun queue => (moves.waiters queue).trans (QueueMove.apply_stay ..)⟩

/-- Between two bodies of the host nobody moves. -/
theorem Precedes.movesTo (precedes : config.Precedes host allowed next)
    (linked : config.world.domain.Linked) : config.MovesTo next := by
  cases precedes with
  | step => exact step_movesTo host linked
  | again ended state body asks =>
    have moves : config.queueMove = .stay := by simp only [queueMove, ended]
    refine .inl fun queue => ?_
    rw [moves, QueueMove.apply_stay]
    rfl

namespace History

/-- In a machine that goes on, a queue is what a step leaves of it, followed by what the step puts
at its end. -/
theorem waiters_succ (history : History host allowed configs) {time : Nat}
    (works : ∀ fault, (configs (time + 1)).focus ≠ .faulted fault) (queue : QueueId) :
    (configs (time + 1)).waiters queue =
      (configs time).queueMove.kept (configs time).waiters queue ++
        (configs time).queueMove.added (configs time).waiters queue := by
  rcases (history.goes time).movesTo (linked_of_reachable (history.reachable time)) with
    moves | ⟨⟨fault, faulted⟩, _⟩
  · exact moves queue
  · exact absurd faulted (works fault)

/-- What a step leaves in a queue it does not put there anew. -/
theorem not_enqueues_of_kept (history : History host allowed configs) {time : Nat}
    {queue : QueueId} {id : ThreadId}
    (kept : id ∈ (configs time).queueMove.kept (configs time).waiters queue) :
    ¬(configs time).Enqueues queue id :=
  have linked := linked_of_reachable (history.reachable time)
  QueueMove.not_added_of_kept linked.once linked.apart kept

/-- Whoever waits in a queue does so since some moment. -/
theorem exists_waitsSince (history : History host allowed configs) {time : Nat} {queue : QueueId}
    {id : ThreadId} (works : ∀ fault, (configs time).focus ≠ .faulted fault)
    (waiting : id ∈ (configs time).waiters queue) :
    ∃ since, WaitsSince configs queue id since time := by
  induction time with
  | zero =>
    obtain ⟨state, body, _, first⟩ := history.begins
    rw [first] at waiting
    simp [waiters, initial, Domain.waitersOf] at waiting
  | succ time ih =>
    have here := waiting
    rw [history.waiters_succ works, List.mem_append] at waiting
    rcases waiting with kept | added
    · have before := (QueueMove.kept_sublist ..).subset kept
      obtain ⟨since, earlier, enqueues, stays⟩ :=
        ih (fun fault => (history.works works fault).1) before
      refine ⟨since, by omega, enqueues, fun moment from_since to_time => ?_⟩
      rcases Nat.lt_or_eq_of_le to_time with inside | rfl
      · refine ⟨(stays moment from_since (by omega)).1, fun _ => ?_⟩
        rcases Nat.lt_or_eq_of_le (Nat.le_of_lt_succ inside) with before_time | rfl
        · exact (stays moment from_since (by omega)).2 before_time
        · exact history.not_enqueues_of_kept kept
      · exact ⟨here, fun later => absurd later (Nat.lt_irrefl _)⟩
    · refine ⟨time, Nat.lt_succ_self time, added, fun moment from_time to_time => ?_⟩
      obtain rfl : moment = time + 1 := by omega
      exact ⟨here, fun later => absurd later (Nat.lt_irrefl _)⟩

/-- A step does not exchange two threads that stay in a queue. -/
theorem order_succ (history : History host allowed configs) {time : Nat} {queue : QueueId}
    {first second : ThreadId} (stays_first : Stays configs queue first time (time + 1))
    (stays_second : Stays configs queue second time (time + 1)) :
    [first, second].Sublist ((configs time).waiters queue) ↔
      [first, second].Sublist ((configs (time + 1)).waiters queue) := by
  have linked := linked_of_reachable (history.reachable time)
  have linked_after := linked_of_reachable (history.reachable (time + 1))
  obtain ⟨_, first_quiet⟩ := stays_first time (by omega) (by omega)
  obtain ⟨_, second_quiet⟩ := stays_second time (by omega) (by omega)
  obtain ⟨first_after, _⟩ := stays_first (time + 1) (by omega) (by omega)
  obtain ⟨second_after, _⟩ := stays_second (time + 1) (by omega) (by omega)
  rcases (history.goes time).movesTo linked with moves | ⟨_, same⟩
  · -- Both are among those that the step leaves, and these keep their order.
    have after := moves queue
    unfold QueueMove.apply at after
    have first_kept : first ∈ (configs time).queueMove.kept (configs time).waiters queue := by
      rw [after, List.mem_append] at first_after
      exact first_after.resolve_right (first_quiet (by omega))
    have second_kept : second ∈ (configs time).queueMove.kept (configs time).waiters queue := by
      rw [after, List.mem_append] at second_after
      exact second_after.resolve_right (second_quiet (by omega))
    have among_all := pair_sublist_iff (QueueMove.kept_sublist ..) (linked.once queue) first_kept
      second_kept
    have distinct : ((configs (time + 1)).waiters queue).Nodup := linked_after.once queue
    rw [after] at distinct ⊢
    have among_new := pair_sublist_iff (List.sublist_append_left ..) distinct first_kept second_kept
    exact among_all.symm.trans among_new
  · rw [same]

/-- Two threads that stay in a queue are never exchanged. -/
theorem order_kept (history : History host allowed configs) {from_ to_ : Nat} {queue : QueueId}
    {first second : ThreadId} (ordered : from_ ≤ to_)
    (stays_first : Stays configs queue first from_ to_)
    (stays_second : Stays configs queue second from_ to_) :
    [first, second].Sublist ((configs from_).waiters queue) ↔
      [first, second].Sublist ((configs to_).waiters queue) := by
  induction to_, ordered using Nat.le_induction with
  | base => rfl
  | succ time later ih =>
    have until_time := ih (stays_first.between (Nat.le_refl _) (Nat.le_succ _))
      (stays_second.between (Nat.le_refl _) (Nat.le_succ _))
    exact until_time.trans (history.order_succ (stays_first.between later (Nat.le_refl _))
      (stays_second.between later (Nat.le_refl _)))

/-- A machine that goes on has not stopped before. -/
theorem works_before (history : History host allowed configs) {earlier time : Nat}
    (works : ∀ fault, (configs time).focus ≠ .faulted fault) (before : earlier ≤ time)
    (fault : Fault) : (configs earlier).focus ≠ .faulted fault := by
  induction time, before using Nat.le_induction with
  | base => exact works fault
  | succ time _ ih => exact ih fun fault => (history.works works fault).1

/-- The threads of a queue are listed in the order in which they came there. Two that came at once
have been moved there together, and keep the order of the queue they come from. -/
theorem order_of_arrival (history : History host allowed configs) {time : Nat} {queue : QueueId}
    {first second : ThreadId} {since later : Nat}
    (works : ∀ fault, (configs time).focus ≠ .faulted fault)
    (listed : [first, second].Sublist ((configs time).waiters queue))
    (first_since : WaitsSince configs queue first since time)
    (second_since : WaitsSince configs queue second later time) :
    since < later ∨ since = later ∧ ∃ source,
      (configs since).queueMove = .transferAll source queue ∧
        [first, second].Sublist ((configs since).waiters source) := by
  have at_arrival := history.waiters_succ
    (fun fault => history.works_before works first_since.earlier fault) queue
  have distinct (moment : Nat) : ((configs moment).waiters queue).Nodup :=
    (linked_of_reachable (history.reachable moment)).once queue
  rcases Nat.lt_trichotomy since later with earlier | rfl | after
  · exact .inl earlier
  · -- Both are at the end of the queue that the common step has left.
    refine .inr ⟨rfl, QueueMove.eq_transferAll_of_added ?_⟩
    have then_listed := (history.order_kept first_since.earlier first_since.stays
      second_since.stays).2 listed
    have then_distinct := distinct (since + 1)
    rw [at_arrival] at then_listed then_distinct
    exact (pair_sublist_iff (List.sublist_append_right ..) then_distinct first_since.enqueues
      second_since.enqueues).2 then_listed
  · -- The second was there when the first came, so they would be listed the other way round.
    exfalso
    have earlier := first_since.earlier
    obtain ⟨was_there, quiet⟩ := second_since.stays since after (by omega)
    have still := (second_since.stays (since + 1) (by omega) earlier).1
    rw [at_arrival, List.mem_append] at still
    have kept := still.resolve_right (quiet earlier)
    have behind : [second, first].Sublist ((configs (since + 1)).waiters queue) := by
      rw [at_arrival]
      exact List.Sublist.append (List.singleton_sublist.2 kept)
        (List.singleton_sublist.2 first_since.enqueues)
    have now := (history.order_kept first_since.earlier
      (second_since.stays.between (by omega) (Nat.le_refl _)) first_since.stays).1 behind
    have swapped := (pair_sublist_iff listed (distinct time) (by simp) (by simp)).2 now
    have same := swapped.eq_of_length rfl
    have apart := listed.nodup (distinct time)
    simp only [List.cons.injEq] at same
    simp [same.1] at apart

end History

/-- A waiting thread that leaves its queue because a function is started on it is aborted. -/
theorem Withdraws.of_start {queue : QueueId} {id thread : ThreadId} {called : FunctionId}
    {request : Request ν} {resume : Answer ν → Body ν σ} (linked : config.world.domain.Linked)
    (waiting : id ∈ config.waiters queue) (focus : config.focus = .body (.ask request resume))
    (starts : request.StartsWith thread called)
    (removes : (if (config.world.domain.function? called).isSome &&
        !config.world.domain.isRunning thread then QueueMove.depart thread else .stay).Removes
      config.waiters queue id) : config.Withdraws queue id := by
  split at removes
  · rename_i startable
    obtain rfl : thread = id := removes
    rw [Bool.and_eq_true] at startable
    obtain ⟨function, registered⟩ := Option.isSome_iff_exists.1 startable.1
    obtain ⟨held, present, _, suspended⟩ := linked.waiter waiting
    have idle := startable.2
    simp only [Domain.isRunning, present, Option.any_some, Thread.isRunning] at idle
    obtain ⟨execution, taken⟩ : ∃ execution, held.execution = some execution := by
      cases found : held.execution with
      | none => simp [found] at idle
      | some execution => exact ⟨execution, rfl⟩
    exact .takenDown (.restarted focus starts registered present taken (.inl suspended))
  · exact removes.elim

/-- A waiting thread that leaves its queue because a body ends has been asked to stop before. -/
theorem Withdraws.of_done {queue : QueueId} {id : ThreadId} {value : Int32} (host : Host ν σ)
    (linked : config.world.domain.Linked) (waiting : id ∈ config.waiters queue)
    (focus : config.focus = .body (.done value))
    (gone : id ∉ (config.step host).waiters queue)
    (removes : config.queueMove.Removes config.waiters queue id) : config.Withdraws queue id := by
  unfold queueMove at removes
  rw [focus] at removes
  cases pending : config.pending with
  | nil =>
    simp only [pending] at removes
    exact removes.elim
  | cons work rest =>
    cases work with
    | aborting next =>
      simp only [pending] at removes
      exact removes.elim
    | calling run registers call =>
      simp only [pending] at removes
      split at removes
      · obtain rfl : run.thread = id := removes
        rename_i asked
        obtain ⟨thread, present, _⟩ := linked.waiter waiting
        simp only [present, Option.any_some] at asked
        obtain ⟨reason, requested⟩ := Option.isSome_iff_exists.1 asked
        cases stored : storeResult run.execution.stack call.result call.base value with
        | ok stack =>
          exact .takenDown (.honored focus pending stored present rfl requested)
        | error fault =>
          -- The machine stops before the abort is honored.
          have stops : config.step host =
              (emit host { config with pending := rest }
                (.scopeExit (.native call.kind call.method) registers.function call.pc)).goto
                (.faulted fault) := by
            simp only [step, focus, finishBody, pending, returnNative, stored, attempt]
          rw [stops] at gone
          simp only [waiters, goto_world, emit_world] at gone
          exact absurd waiting gone
      · exact removes.elim

/-- A thread that leaves a queue is withdrawn for one of the reasons that there are. -/
theorem withdraws_of_leaves (host : Host ν σ) (linked : config.world.domain.Linked)
    {queue : QueueId} {id : ThreadId} (waiting : id ∈ config.waiters queue)
    (gone : id ∉ (config.step host).waiters queue) : config.Withdraws queue id := by
  have moves : ∀ queue, (config.step host).waiters queue =
      config.queueMove.apply config.waiters queue := by
    rcases step_movesTo host linked with moves | ⟨_, same⟩
    · exact moves
    · exact absurd waiting (same queue ▸ gone)
  have left := gone
  rw [moves queue, QueueMove.apply, List.mem_append, not_or] at left
  have removes := QueueMove.removes_of_not_kept waiting left.1
  cases focus : config.focus with
  | body body =>
    cases body with
    | done value => exact .of_done host linked waiting focus gone removes
    | modify _ _ | crash _ =>
      simp only [queueMove, focus] at removes
      exact removes.elim
    | ask request next =>
      have asked : config.queueMove = request.queueMove config.world.domain := by
        simp only [queueMove, focus]
      rw [asked] at removes left
      cases request with
      | observe => exact removes.elim
      | resume thread => exact removes.elim
      | start thread called => exact .of_start linked waiting focus ⟨rfl, rfl⟩ removes
      | run thread called => exact .of_start linked waiting focus ⟨rfl, rfl⟩ removes
      | runInt thread called => exact .of_start linked waiting focus ⟨rfl, rfl⟩ removes
      | abort thread =>
        obtain rfl : thread = id := removes
        exact .takenDown (.asked focus)
      | faultActive error =>
        cases active : config.world.domain.active with
        | none =>
          simp only [Request.queueMove, active] at removes
          exact removes.elim
        | some thread =>
          simp only [Request.queueMove, active] at removes
          obtain rfl : thread = id := removes
          exact .takenDown (.faulted focus active)
      | wake other value =>
        simp only [Request.queueMove] at removes
        split at removes
        · exact removes.elim
        · obtain ⟨rfl, first⟩ := removes
          exact .woken focus first
      | update update =>
        cases update with
        | popWaiter other =>
          obtain ⟨rfl, first⟩ := removes
          exact .popped focus first
        | transferNext source target =>
          obtain ⟨rfl, apart, first⟩ := removes
          exact .transferred focus apart first
        | transferAll source target =>
          obtain ⟨rfl, apart⟩ := removes
          exact .migrated focus apart
        | park target thread =>
          obtain rfl : thread = id := removes
          refine .parked focus fun here => left.2 ?_
          simp [Request.queueMove, Update.queueMove, QueueMove.added, here]
        | resetQueue other =>
          obtain rfl : queue = other := removes
          exact .reset focus
        | clear =>
          cases active : config.world.domain.active with
          | none => exact .cleared focus active
          | some thread =>
            simp only [Request.queueMove, Update.queueMove, active] at removes
            exact removes.elim
        | _ => exact removes.elim
  | _ =>
    simp only [queueMove, focus] at removes
    exact removes.elim

/-- A body that pops a queue is told the first of its threads. -/
theorem popped_is_first {queue : QueueId} {resume : Answer ν → Body ν σ} (host : Host ν σ)
    (focus : config.focus = .body (.ask (.update (.popWaiter queue)) resume))
    (works : ∀ fault, (config.step host).focus ≠ .faulted fault) :
    (config.step host).focus = .body (resume (.thread (config.waiters queue).head?)) := by
  have made : config.step host = config.perform host (.update (.popWaiter queue)) resume := by
    simp only [step, focus]
  rw [made] at works ⊢
  unfold perform at works ⊢
  dsimp only at works ⊢
  cases done : Update.apply config.world (.popWaiter queue) with
  | error fault =>
    rw [done] at works
    exact absurd rfl (works fault)
  | ok result =>
    obtain ⟨⟨domain, popped⟩, found, same⟩ := bind_eq_ok.1 done
    cases same
    rw [attempt_ok]
    unfold waiters
    obtain ⟨empty, _, rfl⟩ | ⟨head, rest, thread, listed, rfl, _⟩ := Domain.popWaiter_eq_ok found
    · rw [empty]
      rfl
    · rw [listed]
      rfl

/-- Every step moves the threads that wait as the work at hand says: what it leaves of a queue is
followed by what it puts at the end. No thread waits in two places. Whoever waits has come to the
queue at some moment and stayed since, and the threads of a queue are listed in the order of these
moments; those that have come at once have been moved there together, in the order that they had.
So a step that serves a queue, by popping it or by waking a thread, takes the thread that has been
there longest, and a body that pops is told this thread. A thread leaves a queue only when it is
withdrawn, and two threads that stay in a queue are never exchanged, whatever else happens. -/
theorem queues_are_fair (history : History host allowed configs) :
    (∀ time, (configs time).MovesTo (configs (time + 1))) ∧
      (∀ time queue, ((configs time).waiters queue).Nodup ∧ ∀ id other,
        id ∈ (configs time).waiters queue → id ∈ (configs time).waiters other → queue = other) ∧
      (∀ time queue, (∀ fault, (configs time).focus ≠ .faulted fault) →
        (∀ id ∈ (configs time).waiters queue, ∃ since, WaitsSince configs queue id since time) ∧
        ∀ first second since later, [first, second].Sublist ((configs time).waiters queue) →
          WaitsSince configs queue first since time → WaitsSince configs queue second later time →
          since < later ∨ since = later ∧ ∃ source,
            (configs since).queueMove = .transferAll source queue ∧
              [first, second].Sublist ((configs since).waiters source)) ∧
      (∀ time queue, (configs time).queueMove = .serve queue →
        (∀ fault, (configs (time + 1)).focus ≠ .faulted fault) →
        (configs (time + 1)).waiters queue = ((configs time).waiters queue).tail ∧
        (∀ resume, (configs time).focus = .body (.ask (.update (.popWaiter queue)) resume) →
          (configs (time + 1)).focus =
            .body (resume (.thread ((configs time).waiters queue).head?))) ∧
        ∀ first ∈ ((configs time).waiters queue).head?, ∀ other ∈ (configs time).waiters queue,
          ∀ since later, WaitsSince configs queue first since time →
            WaitsSince configs queue other later time → since ≤ later) ∧
      (∀ time queue id, id ∈ (configs time).waiters queue →
        id ∉ (configs (time + 1)).waiters queue → (configs time).Withdraws queue id) ∧
      ∀ from_ to_ queue first second, from_ ≤ to_ → Stays configs queue first from_ to_ →
        Stays configs queue second from_ to_ →
        ([first, second].Sublist ((configs from_).waiters queue) ↔
          [first, second].Sublist ((configs to_).waiters queue)) := by
  have linked (time : Nat) := linked_of_reachable (history.reachable time)
  refine ⟨fun time => (history.goes time).movesTo (linked time), fun time queue =>
    ⟨(linked time).once queue, fun id other here there => (linked time).apart here there⟩,
    fun time queue works => ⟨fun id waiting => history.exists_waitsSince works waiting,
      fun first second since later listed => history.order_of_arrival works listed⟩,
    fun time queue serves works => ⟨?_, fun resume focus => ?_,
      fun first head other waiting since later first_since other_since => ?_⟩,
    fun time queue id waiting gone => ?_,
    fun from_ to_ queue first second ordered stays_first stays_second =>
      history.order_kept ordered stays_first stays_second⟩
  · rw [history.waiters_succ works, serves]
    simp [QueueMove.kept, QueueMove.added]
  · have next := (history.goes time).eq_step (by simp [focus])
    rw [next] at works ⊢
    exact popped_is_first host focus works
  · obtain ⟨rest, listed⟩ := List.head?_eq_some_iff.1 head
    have working := fun fault => (history.works works fault).1
    rw [listed] at waiting
    rcases List.mem_cons.1 waiting with rfl | behind
    · exact Nat.le_of_eq (first_since.unique other_since)
    · have pair : [first, other].Sublist ((configs time).waiters queue) := by
        rw [listed]
        exact (List.singleton_sublist.2 behind).cons_cons first
      rcases history.order_of_arrival working pair first_since other_since with
        earlier | ⟨same, _⟩
      · exact Nat.le_of_lt earlier
      · exact Nat.le_of_eq same
  · refine withdraws_of_leaves host (linked time) waiting ?_
    unfold waiters at gone ⊢
    rw [← (history.goes time).world]
    exact gone

end

/-- Three threads wait in a queue, the second of them is aborted and waits anew, and the queue is
popped. -/
def queueing : Program Unit Unit Int32 := do
  let _ ← Program.update .createThread
  let _ ← Program.update .createThread
  let _ ← Program.update .createThread
  let _ ← Program.update .createQueue
  let _ ← Program.update (.park ⟨3⟩ ⟨0⟩)
  let _ ← Program.update (.park ⟨3⟩ ⟨1⟩)
  let _ ← Program.update (.park ⟨3⟩ ⟨2⟩)
  let _ ← Program.request (.abort ⟨1⟩)
  let _ ← Program.update (.park ⟨3⟩ ⟨1⟩)
  let _ ← Program.update (.popWaiter ⟨3⟩)
  return 0

/-- The thread that waits anew has come last, and the one that has been there longest is popped. -/
theorem queues_are_fair_queueing :
    let configs := fun time => (Config.initial {} () queueing).run idleHost time
    History idleHost (fun _ => True) configs ∧ (configs 7).Withdraws ⟨3⟩ ⟨1⟩ ∧
      (configs 9).waiters ⟨3⟩ = [⟨0⟩, ⟨2⟩, ⟨1⟩] ∧ (configs 10).waiters ⟨3⟩ = [⟨2⟩, ⟨1⟩] ∧
      ∃ since later, WaitsSince configs ⟨3⟩ ⟨0⟩ since 9 ∧ WaitsSince configs ⟨3⟩ ⟨1⟩ later 9 ∧
        since ≤ later := by
  intro configs
  have history : History idleHost (fun _ => True) configs :=
    .of_initial () (Program.asks_of_forall (fun _ => trivial) _)
  obtain ⟨_, _, waits, serves, leaves, _⟩ := queues_are_fair history
  have listed : (configs 9).waiters ⟨3⟩ = [⟨0⟩, ⟨2⟩, ⟨1⟩] := by decide +kernel
  have works (fault : Fault) : (configs 9).focus ≠ .faulted fault :=
    works_of_isFinal (by decide +kernel) fault
  have works_after (fault : Fault) : (configs 10).focus ≠ .faulted fault :=
    works_of_isFinal (by decide +kernel) fault
  obtain ⟨since, first_since⟩ := (waits 9 ⟨3⟩ works).1 ⟨0⟩ (by simp [listed])
  obtain ⟨later, other_since⟩ := (waits 9 ⟨3⟩ works).1 ⟨1⟩ (by simp [listed])
  obtain ⟨served, _, longest⟩ := serves 9 ⟨3⟩ rfl works_after
  refine ⟨history, leaves 7 ⟨3⟩ ⟨1⟩ (by decide +kernel) (by decide +kernel), listed, ?_,
    since, later, first_since, other_since,
    longest ⟨0⟩ (by simp [listed]) ⟨1⟩ (by simp [listed]) since later first_since other_since⟩
  rw [served, listed]
  rfl

end Config

end ScriptMachine

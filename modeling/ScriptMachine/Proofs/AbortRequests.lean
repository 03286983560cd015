import ScriptMachine.Proofs.Replies
import ScriptMachine.Proofs.Residues

/-!
# Requests for aborts

A thread that runs is not aborted at once. The request is recorded in the thread, and the first one
stands. Nothing but the end of the run, or the answer of the native method that the run waits for,
takes it away again: what suspends, queues, wakes, starts or detaches threads leaves the requests
alone.
-/

namespace ScriptMachine

variable {ν σ : Type}

namespace Domain

variable {domain next : Domain ν} {id other : ThreadId} {thread : Thread ν} {places : List Place}

/-- The abort that is requested of a thread. -/
def abortRequest? (domain : Domain ν) (id : ThreadId) : Option AbortReason :=
  (domain.thread? id).bind Thread.pendingAbort

/-- A thread that exists records the request. -/
theorem abortRequest?_of_present (present : domain.thread? id = some thread) :
    domain.abortRequest? id = thread.pendingAbort := by
  rw [abortRequest?, present, Option.bind_some]

/-- The same threads record the same requests. -/
theorem abortRequest?_congr (threads : next.threads = domain.threads) (id : ThreadId) :
    next.abortRequest? id = domain.abortRequest? id := by
  simp only [abortRequest?, thread?, threads]

/-- One thread is replaced. -/
theorem abortRequest?_setThread (present : domain.thread? id = some thread) (after : Thread ν)
    (other : ThreadId) : (domain.setThread id after).abortRequest? other =
      if other = id then after.pendingAbort else domain.abortRequest? other := by
  unfold abortRequest?
  rw [thread?_setThread present]
  split <;> rfl

/-- One thread is replaced by one that records the same request. -/
theorem abortRequest?_setThread_same (present : domain.thread? id = some thread)
    {after : Thread ν} (same : after.pendingAbort = thread.pendingAbort) (other : ThreadId) :
    (domain.setThread id after).abortRequest? other = domain.abortRequest? other := by
  rw [abortRequest?_setThread present]
  by_cases here : other = id
  · rw [if_pos here, here, abortRequest?_of_present present, same]
  · rw [if_neg here]

/-- Threads that keep what they execute keep what is requested of them, and of new threads nothing
is. -/
theorem Keeps.abortRequest? (keeps : domain.Keeps next) (id : ThreadId) :
    next.abortRequest? id = domain.abortRequest? id := by
  cases found : next.thread? id with
  | none =>
    cases known : domain.thread? id with
    | none => simp only [Domain.abortRequest?, found, known]
    | some before =>
      obtain ⟨after, there, _⟩ := keeps.old id before known
      rw [found] at there
      cases there
  | some after =>
    rw [abortRequest?_of_present found]
    rcases keeps.new id after found with ⟨before, present, kept⟩ | ⟨unknown, fresh⟩
    · rw [abortRequest?_of_present present, kept.pendingAbort]
    · simp only [Domain.abortRequest?, unknown, fresh.2, Option.bind_none]

/-- An abort is requested only of the threads of the runs in progress. -/
theorem Nested.abortRequest?_eq_none (nested : domain.Nested places)
    (idle : id ∉ places.map Place.thread) : domain.abortRequest? id = none := by
  cases found : domain.thread? id with
  | none => rw [abortRequest?, found, Option.bind_none]
  | some thread =>
    rw [abortRequest?_of_present found]
    cases asked : thread.pendingAbort with
    | none => rfl
    | some reason =>
      have running := (nested.requested id thread reason found asked).1
      exact absurd ((nested.running id).2 ⟨thread, found, running⟩) idle

/-- An update leaves the requests alone. The domain is emptied only when no run is in progress. -/
theorem Nested.abortRequest?_of_updated (nested : domain.Nested places)
    (update : domain.Updated next) (id : ThreadId) :
    next.abortRequest? id = domain.abortRequest? id := by
  rcases Keeps.of_updated update with keeps | cleared
  · exact keeps.abortRequest? id
  · have after := nested.of_updated update
    have nobody := nested.nobody_of_clear cleared
    subst nobody
    have idle : id ∉ ([] : List Place).map Place.thread := List.not_mem_nil
    rw [nested.abortRequest?_eq_none idle, after.abortRequest?_eq_none idle]

/-- Discarding the frames of a thread that does not run requests no abort. -/
theorem abortRequest?_discard_held {execution : Execution ν} {reason : AbortReason}
    (present : domain.thread? id = some thread) (held : thread.execution = some execution)
    (done : domain.discard id reason = .ok next) (other : ThreadId) :
    next.abortRequest? other = domain.abortRequest? other := by
  obtain ⟨found, there, ⟨executed, _, rfl⟩ | ⟨taken, _⟩⟩ := discard_eq_ok done
  · let bare : Thread ν := { found with execution := some { executed with frames := [] } }
    have same : bare.pendingAbort = found.pendingAbort := rfl
    exact abortRequest?_setThread_same there same other
  · obtain rfl := Option.some.inj (there.symm.trans present)
    rw [held] at taken
    cases taken

/-- No abort is requested of another thread than the one that is to be aborted. -/
theorem abortRequest?_discard_other {reason : AbortReason} (apart : other ≠ id)
    (done : domain.discard id reason = .ok next) :
    next.abortRequest? other = domain.abortRequest? other := by
  obtain ⟨found, there, ⟨executed, _, rfl⟩ | ⟨_, rfl⟩⟩ := discard_eq_ok done
  · rw [abortRequest?_setThread there, if_neg apart]
  · rw [abortRequest?_setThread there, if_neg apart]

/-- An abort is requested of a thread that runs, unless one has been requested before. -/
theorem abortRequest?_discard_running {reason : AbortReason}
    (present : domain.thread? id = some thread) (taken : thread.execution = none)
    (done : domain.discard id reason = .ok next) :
    next.abortRequest? id = (domain.abortRequest? id <|> some reason) := by
  obtain ⟨found, there, ⟨executed, held, _⟩ | ⟨_, rfl⟩⟩ := discard_eq_ok done
  · obtain rfl := Option.some.inj (there.symm.trans present)
    rw [taken] at held
    cases held
  · rw [abortRequest?_setThread there, if_pos rfl, abortRequest?_of_present there]

end Domain

namespace Config

variable {host : Host ν σ} {config : Config ν σ} {id : ThreadId} {run : Run ν σ}
  {places : List Place}

/-- What is requested of a thread is as it was. -/
def Quiet (id : ThreadId) (before after : Config ν σ) : Prop :=
  after.world.domain.abortRequest? id = before.world.domain.abortRequest? id

/-- A request for an abort is something that a thread records. -/
theorem Retains.quiet {before after : Config ν σ} (retains : before.Retains after) :
    Quiet id before after := by
  have recorded (found : Option (Thread ν)) : found.bind Thread.pendingAbort =
      (found.map Thread.record).bind Thread.pendingAbort := by cases found <;> rfl
  unfold Quiet Domain.abortRequest?
  rw [recorded, retains id, ← recorded]

namespace Quiet

variable {before middle after : Config ν σ}

/-- The same threads. -/
theorem of_threads (threads : after.world.domain.threads = before.world.domain.threads) :
    Quiet id before after := Domain.abortRequest?_congr threads id

/-- A thread is replaced by one that records the same request. -/
theorem setThread {thread : ThreadId} {old new : Thread ν}
    (present : config.world.domain.thread? thread = some old)
    (same : new.pendingAbort = old.pendingAbort) :
    Quiet id config (config.setDomain (config.world.domain.setThread thread new)) :=
  Domain.abortRequest?_setThread_same present same id

/-- Nothing is requested of a thread of which nothing was requested. -/
theorem unrequested (quiet : Quiet id before after)
    (none : before.world.domain.abortRequest? id = none) :
    after.world.domain.abortRequest? id = .none := Eq.trans quiet none

/-- Twice in a row. -/
theorem trans (first : Quiet id before middle) (second : Quiet id middle after) :
    Quiet id before after := Eq.trans second first

/-- Detaching a thread. -/
theorem detach (thread : ThreadId) (next : AfterAbort ν σ) :
    Quiet id config (config.detach host thread next) := by
  refine attempt_induction (fun _ => of_threads rfl) fun ⟨domain, hook⟩ done => ?_
  have detached : Quiet id config (config.setDomain domain) :=
    Domain.Keeps.abortRequest? (.detach done) id
  dsimp only
  split
  · exact trans detached (Retains.afterAbort next).quiet
  · refine trans detached (trans (of_threads ?_) (Retains.afterAbort next).quiet)
    rfl
  · exact detached

/-- Aborting another thread. -/
theorem abort_other {thread : ThreadId} (apart : id ≠ thread) (reason : AbortReason)
    (next : AfterAbort ν σ) : Quiet id config (config.abort host thread reason next) := by
  refine attempt_induction (fun _ => of_threads rfl) fun domain done => ?_
  have discarded : Quiet id config (config.setDomain domain) :=
    Domain.abortRequest?_discard_other apart done
  exact trans discarded (detach thread next)

/-- Starting a function. A thread that has to be aborted to make room for it does not run. -/
theorem start (thread : ThreadId) (function : FunctionId) (purpose : Option Purpose)
    (next : Answer ν → Body ν σ) :
    Quiet id config (config.start host thread function purpose next) := by
  refine start_induction (fun _ => of_threads rfl) (fun _ => of_threads rfl)
    (fun _ _ _ => of_threads rfl)
    fun _ found execution _ present held => ⟨fun _ => ?_, fun _ _ => ?_⟩
  · refine attempt_induction (fun _ => of_threads rfl) fun domain done => ?_
    have discarded : Quiet id config (config.setDomain domain) :=
      Domain.abortRequest?_discard_held present held done id
    exact trans discarded (detach thread _)
  · exact (Retains.afterAbort _).quiet

/-- Letting a thread go on. -/
theorem continueThread (thread : ThreadId) (purpose : Purpose) (next : Answer ν → Body ν σ) :
    Quiet id config (config.continueThread host thread purpose next) := by
  refine attempt_induction (fun _ => of_threads rfl) fun found looked => ?_
  have released : Quiet id config (config.setDomain (config.world.domain.setThread thread
      { found with suspended := false, hook := none })) :=
    setThread (Domain.thread_eq_ok.1 looked) rfl
  dsimp only
  split
  · exact released
  · exact trans released (Retains.launch thread purpose next).quiet

/-- Resuming a thread. -/
theorem resume (thread : ThreadId) (next : Answer ν → Body ν σ) :
    Quiet id config (config.resume host thread next) :=
  resume_induction (fun _ => of_threads rfl) (fun _ => of_threads rfl) fun _ _ _ _ _ =>
    continueThread thread .plain next

/-- Waking a thread through its queue. -/
theorem wake (nested : config.world.domain.Nested places) (queue : QueueId)
    (value : Option Int32) (next : Answer ν → Body ν σ) :
    Quiet id config (config.wake host queue value next) := by
  refine wake_induction (fun _ => of_threads rfl) (fun _ => of_threads rfl)
    (fun _ _ _ _ _ => of_threads rfl) fun head _ domain _ _ _ _ done => ?_
  have left : Quiet id config (config.setDomain domain) :=
    nested.abortRequest?_of_updated (.pop done) id
  have nested := nested.of_updated (.pop done)
  refine ⟨fun _ => trans left (of_threads rfl), fun _ _ => trans left (of_threads rfl),
    fun supplied handed => ?_⟩
  have given : Quiet id (config.setDomain domain) (config.setDomain supplied) :=
    nested.abortRequest?_of_updated (Evolves.handResult handed).1 id
  exact trans left (trans given (continueThread head .woken next))

/-- An update. -/
theorem update (nested : config.world.domain.Nested places) (update : Update ν)
    (next : Answer ν → Body ν σ) :
    Quiet id config (config.perform host (.update update) next) := by
  refine attempt_induction (fun _ => of_threads rfl) fun ⟨world, answer⟩ done => ?_
  rcases Update.updated_of_apply done with ⟨function, _, registered⟩ | updated
  · refine of_threads ?_
    dsimp only
    rw [registered]
  · exact nested.abortRequest?_of_updated updated id

/-- Ending the run of another thread. -/
theorem finishRun_other (apart : id ≠ run.thread) (outcome : Outcome) :
    Quiet id config (config.finishRun host run outcome) := by
  refine attempt_induction (fun _ => of_threads rfl) fun found looked => ?_
  have gave : Quiet id config (config.setDomain (config.world.domain.setThread run.thread
      { found with execution := some run.execution, pendingAbort := none })) :=
    (Domain.abortRequest?_setThread (Domain.thread_eq_ok.1 looked) _ id).trans (if_neg apart)
  exact trans gave (of_threads (by simp))

/-- Going on with the run of another thread after its native method has answered. -/
theorem returnNative_other (apart : id ≠ run.thread) (registers : Registers ν) (call : NativeCall)
    (value : Int32) : Quiet id config (config.returnNative host run registers call value) := by
  refine returnNative_induction fun shown emitted => ?_
  have world : shown.world = config.world := by rw [← emitted, emit_world]
  have quiet : Quiet id config shown := of_threads (by rw [world])
  refine ⟨fun _ => quiet, fun stack thread _ present =>
    ⟨fun reason _ => ?_, fun _ _ => trans quiet (of_threads (by simp)), fun _ _ => quiet⟩⟩
  have honored : Quiet id shown (shown.setDomain (shown.world.domain.setThread run.thread
      { thread with pendingAbort := none })) :=
    (Domain.abortRequest?_setThread present _ id).trans (if_neg apart)
  exact trans quiet (trans honored (detach run.thread _))

end Quiet

/-- The abort that the next step asks for, if it asks for one of this thread. -/
def asksAbort? (config : Config ν σ) (id : ThreadId) : Option AbortReason :=
  match config.focus with
  | .body (.ask (.abort thread) _) => if thread = id then some .requested else none
  | .body (.ask (.faultActive error) _) =>
    if config.world.domain.active = some id then some (.badArgument error) else none
  | _ => none

/-- A step that asks for the abort of a thread aborts it. -/
theorem step_of_asksAbort? {reason : AbortReason} (asked : config.asksAbort? id = some reason) :
    ∃ next, config.step host = config.abort host id reason (.reply next) := by
  unfold asksAbort? at asked
  split at asked
  · rename_i thread next focus
    split at asked
    · rename_i same
      cases asked
      subst same
      exact ⟨next, by simp only [step, focus, perform]⟩
    · cases asked
  · rename_i error next focus
    split at asked
    · rename_i active
      cases asked
      exact ⟨next, by simp only [step, focus, perform, active]⟩
    · cases asked
  · cases asked

/-- The next step ends the run of a thread, or goes on with it after a native method. -/
inductive Honors (id : ThreadId) (config : Config ν σ) : Prop where
  | ends (run : Run ν σ) (outcome : Outcome) (focus : config.focus = .ended run outcome)
    (same : run.thread = id)
  | answers (value : Int32) (run : Run ν σ) (registers : Registers ν) (call : NativeCall)
    (rest : List (Pending ν σ)) (focus : config.focus = .body (.done value))
    (pending : config.pending = .calling run registers call :: rest) (same : run.thread = id)

/-- A request that does not ask for the abort of a thread. -/
theorem Quiet.perform {request : Request ν} {next : Answer ν → Body ν σ}
    (nested : config.world.domain.Nested places)
    (focus : config.focus = .body (.ask request next)) (unasked : config.asksAbort? id = none) :
    Quiet id config (config.perform host request next) := by
  cases request with
  | observe => exact .of_threads rfl
  | update update => exact .update nested update next
  | start thread function => exact .start thread function none next
  | run thread function => exact .start thread function (some .plain) next
  | runInt thread function => exact .start thread function (some .result) next
  | resume thread => exact .resume thread next
  | wake queue value => exact .wake nested queue value next
  | abort thread =>
    have apart : id ≠ thread := by
      rintro rfl
      simp [asksAbort?, focus] at unasked
    exact .abort_other apart .requested (.reply next)
  | faultActive error =>
    unfold Config.perform
    dsimp only
    split
    · exact .of_threads rfl
    · rename_i thread active
      have apart : id ≠ thread := by
        rintro rfl
        simp [asksAbort?, focus, active] at unasked
      exact .abort_other apart (.badArgument error) (.reply next)

/-- A step leaves alone what is requested of a thread, unless it asks for an abort of the thread,
ends its run or goes on with it after a native method. -/
theorem step_quiet (nested : config.Nested) (unasked : config.asksAbort? id = none)
    (stays : ¬config.Honors id) : Quiet id config (config.step host) := by
  rcases nested with ⟨fault, faulted⟩ | ⟨nests, _⟩
  · rw [step_of_isFinal host (by simp [isFinal, faulted])]
    exact .of_threads rfl
  exact step_induction {
    rests _ := .of_threads rfl
    enters run _ := (Retains.enterFrame run).quiet
    executes run registers _ := (Retains.execute run registers).quiet
    ends run outcome focus :=
      .finishRun_other (fun same => stays (.ends run outcome focus same.symm)) outcome
    asks _ _ focus := .perform nests.domain focus unasked
    modifies _ _ _ := .of_threads rfl
    crashes _ _ := .of_threads rfl
    concludes _ _ _ := .of_threads rfl
    answers value run registers call rest focus pending :=
      @Quiet.returnNative_other _ _ host { config with pending := rest } id run
        (fun same => stays (.answers value run registers call rest focus pending same.symm))
        registers call value
    goesOn _ next rest _ _ :=
      (@Retains.afterAbort _ _ host { config with pending := rest } next).quiet }

/-- A step that asks for the abort of a thread that runs records the request, unless one has been
recorded before. -/
theorem step_asked {thread : Thread ν} {reason : AbortReason}
    (present : config.world.domain.thread? id = some thread) (taken : thread.execution = none)
    (asked : config.asksAbort? id = some reason)
    (works : ∀ fault, (config.step host).focus ≠ .faulted fault) :
    (config.step host).world.domain.abortRequest? id =
      (config.world.domain.abortRequest? id <|> some reason) := by
  obtain ⟨next, made⟩ := @step_of_asksAbort? _ _ host config id reason asked
  rw [made] at works ⊢
  unfold abort at works ⊢
  cases done : config.world.domain.discard id reason with
  | error fault =>
    rw [done] at works
    exact absurd rfl (works fault)
  | ok domain =>
    have recorded := Domain.abortRequest?_discard_running present taken done
    have detached : Quiet id (config.setDomain domain)
        ((config.setDomain domain).detach host id (.reply next)) := .detach id (.reply next)
    exact Eq.trans detached recorded

/-- While nothing takes a request away from a thread that runs, a step adds what it asks for, and
the first request stands. -/
theorem step_abortRequest? {thread : Thread ν} (nested : config.Nested)
    (present : config.world.domain.thread? id = some thread) (taken : thread.execution = none)
    (stays : ¬config.Honors id) (works : ∀ fault, (config.step host).focus ≠ .faulted fault) :
    (config.step host).world.domain.abortRequest? id =
      (config.world.domain.abortRequest? id <|> config.asksAbort? id) := by
  cases asked : config.asksAbort? id with
  | some reason => exact step_asked present taken asked works
  | none =>
    have same := @step_quiet _ _ host config id nested asked stays
    rw [same]
    cases config.world.domain.abortRequest? id <;> rfl

/-! ## Runs begin without a request -/

/-- The thread of the run at hand is that of no run that waits. -/
theorem Nested.apart (nested : config.Nested) (handed : config.focus.run? = some run) :
    run.thread ∉ (config.pending.filterMap Pending.place?).map Place.thread := by
  rcases nested with ⟨fault, faulted⟩ | ⟨nests, _⟩
  · rw [faulted] at handed
    cases handed
  · have distinct := nests.domain.distinct
    simp only [Focus.place?, handed, Option.map_some, Option.toList_some, List.singleton_append,
      List.map_cons] at distinct
    exact (List.nodup_cons.1 distinct).1

/-- Nothing is requested of a thread, unless the machine has stopped. -/
inductive Cleared (id : ThreadId) (config : Config ν σ) : Prop where
  | faulted (fault : Fault) (focus : config.focus = .faulted fault)
  | cleared (unrequested : config.world.domain.abortRequest? id = none)

/-- A native method has answered: what has been requested of the thread is honored. -/
theorem Cleared.returnNative (run : Run ν σ) (registers : Registers ν) (call : NativeCall)
    (value : Int32) :
    (config.returnNative host run registers call value).Cleared run.thread := by
  refine returnNative_induction fun shown _ => ⟨fun fault => .faulted fault rfl,
    fun stack thread _ present => ?_⟩
  refine ⟨fun reason _ => ?_, fun unasked _ => ?_, fun unasked _ => ?_⟩
  · have honored := Domain.abortRequest?_setThread present { thread with pendingAbort := none }
      run.thread
    rw [if_pos rfl] at honored
    exact .cleared ((Quiet.detach run.thread _).unrequested honored)
  · have none := (Domain.abortRequest?_of_present present).trans unasked
    exact .cleared (by simpa only [goto_world, emit_world] using none)
  · exact .cleared ((Domain.abortRequest?_of_present present).trans unasked)

/-- A run has ended: nothing is requested of its thread any more. -/
theorem Cleared.finishRun (run : Run ν σ) (outcome : Outcome) :
    (config.finishRun host run outcome).Cleared run.thread := by
  refine attempt_induction (fun fault => .faulted fault rfl) fun thread looked => .cleared ?_
  have given := Domain.abortRequest?_setThread (Domain.thread_eq_ok.1 looked)
    { thread with execution := some run.execution, pendingAbort := none } run.thread
  rw [if_pos rfl] at given
  refine Eq.trans (Domain.abortRequest?_congr ?_ run.thread) given
  simp

/-- No abort is requested of the thread of a run that goes on. -/
def Unrequested (config : Config ν σ) : Prop :=
  ∀ run, config.focus.run? = some run → (∀ outcome, config.focus ≠ .ended run outcome) →
    config.world.domain.abortRequest? run.thread = none

/-- A thread whose run has just begun had no request before. -/
theorem Nested.unrequested_before (nested : config.Nested) {body : Body ν σ} {next : Config ν σ}
    (focus : config.focus = .body body) (after : next.Nested)
    (handed : next.focus.run? = some run)
    (same : next.pending.filterMap Pending.place? = config.pending.filterMap Pending.place?) :
    config.world.domain.abortRequest? run.thread = none := by
  have apart := after.apart handed
  rw [same] at apart
  rcases nested with ⟨fault, faulted⟩ | ⟨nests, _⟩
  · rw [focus] at faulted
    cases faulted
  · have domain := nests.domain
    rw [focus] at domain
    exact domain.abortRequest?_eq_none apart

/-- A run that begins does so above the work that waited for it. -/
theorem Follows.pending_of_run {next : Answer ν → Body ν σ} {rest : List (Pending ν σ)}
    (follows : config.Follows next rest) (handed : config.focus.run? = some run) :
    config.pending = rest := by
  cases follows with
  | runs other focus reply pending => exact pending
  | answered answer focus pending => exact pending
  | waits body work focus continues pending =>
    rw [focus] at handed
    cases handed
  | faulted fault focus =>
    rw [focus] at handed
    cases handed

/-- A step that carries out a request takes no request for an abort away. -/
theorem not_honors_of_ask {request : Request ν} {next : Answer ν → Body ν σ}
    (asks : config.focus = .body (.ask request next)) : ¬config.Honors id := by
  rintro (⟨other, outcome, found, _⟩ | ⟨value, other, registers, call, rest, found, _, _⟩)
  · rw [asks] at found
    cases found
  · rw [asks] at found
    cases found

/-- A step of a run leaves its thread without a request. -/
theorem Unrequested.step_run (unrequested : config.Unrequested)
    (here : config.focus.run? = some run) (goes : ∀ outcome, config.focus ≠ .ended run outcome) :
    (config.step host).Unrequested := by
  intro later handed _
  have same : run.thread = later.thread :=
    Option.some.inj ((Hands.step_run here).thread later handed)
  have retains : config.Retains (config.step host) := by
    unfold Config.step
    split
    all_goals rename_i found; rw [found] at here; try cases here
    · exact .enterFrame run
    · exact .execute run _
    · exact absurd found (goes _)
  rw [← same]
  exact retains.quiet.unrequested (unrequested run here goes)

/-- A request that starts a run leaves its thread without a request for an abort. -/
theorem unrequested_perform {request : Request ν} {next : Answer ν → Body ν σ}
    (nested : config.Nested) (asks : config.focus = .body (.ask request next)) :
    (config.step host).Unrequested := by
  intro run handed _
  have made : config.step host = config.perform host request next := by simp only [step, asks]
  have follows : (config.step host).Follows next config.pending := by
    rw [made]
    exact .perform rfl
  have pending := follows.pending_of_run handed
  have before : config.world.domain.abortRequest? run.thread = none :=
    nested.unrequested_before asks (nested.step host) handed (by rw [pending])
  cases asked : config.asksAbort? run.thread with
  | none =>
    exact (step_quiet nested asked (not_honors_of_ask asks)).unrequested before
  | some reason =>
    -- a request for an abort starts no run
    obtain ⟨resume, aborts⟩ := @step_of_asksAbort? _ _ host config run.thread reason asked
    rw [aborts] at handed
    have hands := @Hands.abort _ _ host config run.thread reason (.reply resume)
    cases hands.thread run handed

/-- The end of a body leaves the thread of the run that it gives way to without a request. -/
theorem unrequested_finishBody {value : Int32} (nested : config.Nested)
    (ended : config.focus = .body (.done value)) : (config.step host).Unrequested := by
  intro run handed goes
  cases pending : config.pending with
  | nil =>
    simp only [step, ended, finishBody, pending] at handed
    cases handed
  | cons work rest =>
    cases work with
    | calling caller registers call =>
      have made := @step_of_calling _ _ host _ _ _ _ _ _ ended pending
      rw [made] at handed ⊢
      have same := (Hands.returnNative caller registers call value).thread run handed
      cases @Cleared.returnNative _ _ host { config with pending := rest } caller registers call
        value with
      | faulted fault focus =>
        rw [focus] at handed
        cases handed
      | cleared unrequested =>
        rw [← Option.some.inj same]
        exact unrequested
    | aborting next =>
      have made := @step_of_aborting _ _ host _ _ _ _ ended pending
      cases next with
      | reply next =>
        rw [made] at handed
        cases handed
      | stop stopped function pc reason =>
        rw [made] at handed goes
        cases handed
        exact absurd rfl (goes _)
      | start id function purpose next =>
        have follows : (config.step host).Follows next rest := by
          rw [made]
          exact @Follows.afterAbort _ _ host { config with pending := rest } rest
            (.start id function purpose next) rfl
        have below := follows.pending_of_run handed
        have before : config.world.domain.abortRequest? run.thread = none :=
          nested.unrequested_before ended (nested.step host) handed (by rw [below, pending]; rfl)
        rw [made]
        exact (Retains.afterAbort (.start id function purpose next)).quiet.unrequested before

/-- A step leaves the thread of the run at hand without a request. -/
theorem Unrequested.step (unrequested : config.Unrequested) (nested : config.Nested) :
    (config.step host).Unrequested := by
  cases focus : config.focus with
  | enter run | execute run registers =>
    exact unrequested.step_run (by rw [focus]; rfl) (by simp [focus])
  | ended run outcome =>
    intro later handed _
    simp only [Config.step, focus] at handed
    rw [run?_finishRun] at handed
    cases handed
  | finished value | faulted fault =>
    rw [step_of_isFinal host (by simp [isFinal, focus])]
    exact unrequested
  | body body =>
    cases body with
    | ask request next => exact unrequested_perform nested focus
    | done value => exact unrequested_finishBody nested focus
    | modify change next | crash fault =>
      intro run handed _
      simp only [Config.step, focus] at handed
      cases handed

/-- In a reachable configuration no abort is requested of the thread of a run that goes on. -/
theorem unrequested_of_reachable {allowed : Request ν → Prop}
    (reached : config.Reachable host allowed) : config.Unrequested := by
  induction reached with
  | initial state body asks =>
    intro run handed
    cases handed
  | again reached ended state body asks ih =>
    intro run handed
    cases handed
  | step reached ih => exact ih.step (nested_of_reachable reached)

end Config

end ScriptMachine

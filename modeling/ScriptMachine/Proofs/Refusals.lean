import ScriptMachine.Proofs.Callbacks
import ScriptMachine.Proofs.FreshStarts
import ScriptMachine.Proofs.Replies
import ScriptMachine.Proofs.Residues

/-!
# Refused requests

A request is refused at once or not at all. Nothing has been changed when it is refused, and nobody
has been called. Some requests change the domain and can still be refused afterwards: a thread is
aborted to make room for a function, a waiter is taken from its queue. Where this would happen the
thread would have to run, and the runs in progress are nested, so it does not.
-/

namespace ScriptMachine

variable {ν σ : Type}

/-- The answer is no refusal. -/
def Answer.Granted (answer : Answer ν) : Prop := ∀ reason, answer ≠ .refused reason

namespace Answer

@[simp] theorem granted_done : (done : Answer ν).Granted := by simp [Granted]

@[simp] theorem granted_woke (run : Option (ThreadId × Outcome)) :
    (woke run : Answer ν).Granted := by simp [Granted]

@[simp] theorem granted_seen (world : World ν) : (seen world : Answer ν).Granted := by
  simp [Granted]

end Answer

/-- Whoever has started a run is not refused when it ends. -/
theorem Purpose.granted_answer (purpose : Purpose) (id : ThreadId) (outcome : Outcome)
    (stack : Array Int32) : (purpose.answer id outcome stack : Answer ν).Granted := by
  cases purpose <;> simp [answer, Answer.Granted]

namespace Update

variable {world next : World ν}

/-- An update that is refused changes nothing. -/
theorem apply_refused {update : Update ν} {reason : Refusal}
    (done : update.apply world = .ok (next, .refused reason)) : next = world := by
  cases yields_of_apply done
  rfl

end Update

/-- A thread that does not run has frames and an operand stack. -/
theorem Thread.exists_execution {thread : Thread ν} (idle : ¬thread.isRunning = true) :
    ∃ execution, thread.execution = some execution := by
  have held : thread.execution ≠ none := by simpa [isRunning] using idle
  exact Option.ne_none_iff_exists'.1 held

/-- A thread that is taken from its queue keeps what it executes, and stays suspended. -/
theorem Domain.Linked.popped {domain next : Domain ν} {queue : QueueId} {id : ThreadId}
    {thread : Thread ν} {popped : Option ThreadId} (linked : domain.Linked)
    (first : (domain.waitersOf queue).head? = some id)
    (present : domain.thread? id = some thread)
    (done : domain.popWaiter queue = .ok (next, popped)) :
    next.thread? id = some { thread with waitingOn := none } ∧ thread.suspended = true := by
  rcases Domain.popWaiter_eq_ok done with ⟨empty, _⟩ |
    ⟨head, others, found, waiters, _, there, threads, _⟩
  · rw [empty] at first
    cases first
  · obtain rfl : head = id := by simpa [waiters] using first
    obtain rfl := Option.some.inj (there.symm.trans present)
    have waiting : head ∈ domain.waitersOf queue := by
      rw [waiters]
      exact List.mem_cons_self
    obtain ⟨known, also, _, suspended⟩ := linked.waiter waiting
    obtain rfl := Option.some.inj (there.symm.trans also)
    exact ⟨by rw [threads, if_pos rfl], suspended⟩

namespace Config

variable {domain next : Domain ν} {id : ThreadId} {thread : Thread ν} {execution : Execution ν}
  {value : Option Int32}

/-- A suspended thread that does not run is not refused a result when it is woken. -/
theorem handResult_granted (present : domain.thread? id = some thread)
    (suspended : thread.suspended = true) (held : thread.execution = some execution)
    (error : ThreadError) : handResult domain id value ≠ .ok (.error error) := by
  intro handed
  cases value with
  | none => cases handed
  | some value =>
    obtain ⟨result, supplied, rest⟩ := bind_eq_ok.1 handed
    split at rest
    · cases rest
    · cases rest
    · rename_i unstarted unawaited
      cases rest
      obtain ⟨found, looked, refused⟩ := bind_eq_ok.1 supplied
      obtain rfl := Option.some.inj ((Domain.thread_eq_ok.1 looked).symm.trans present)
      simp only [suspended, held, Bool.not_true, Bool.false_eq_true, ↓reduceIte] at refused
      split at refused
      · split at refused
        · cases refused
          exact unawaited rfl
        · split at refused <;> cases refused
          exact unawaited rfl
      · cases refused
        exact unstarted rfl

/-- A thread that does not run does not run either when it has been handed a result. -/
theorem handResult_held (present : domain.thread? id = some thread)
    (held : thread.execution = some execution)
    (handed : handResult domain id value = .ok (.ok next)) :
    ∃ after kept, next.thread? id = some after ∧ after.execution = some kept := by
  cases value with
  | none =>
    cases handed
    exact ⟨thread, execution, present, held⟩
  | some value =>
    obtain ⟨result, supplied, rest⟩ := bind_eq_ok.1 handed
    split at rest
    · cases rest
      exact ⟨thread, execution, present, held⟩
    · cases rest
      exact ⟨thread, execution, present, held⟩
    · cases rest
      obtain ⟨_, _, _, _, found, _, _, _, _, _, _, rfl⟩ := Domain.supplyResult_eq_ok supplied
      exact ⟨_, _, (Domain.thread?_setThread found _ id).trans (if_pos rfl), rfl⟩

end Config

/-- When the work goes on, no run that waits below has the thread that is to be started. -/
def Pending.Apart (rest : List (Pending ν σ)) : Pending ν σ → Prop
  | .aborting (.start id _ _ _) => id ∉ (rest.filterMap Pending.place?).map Place.thread
  | _ => True

/-- Nothing is to be started on behalf of a run that waits. -/
theorem Pending.apart_of_run? {work : Pending ν σ} {run : Run ν σ} (holds : work.run? = some run)
    (rest : List (Pending ν σ)) : work.Apart rest := by
  cases work with
  | calling run registers call => trivial
  | aborting next =>
    cases next with
    | stop run function pc reason => trivial
    | reply next => cases holds
    | start id function purpose next => cases holds

namespace Config

variable {host : Host ν σ} {config : Config ν σ} {run : Run ν σ} {registers : Registers ν}
  {next : Answer ν → Body ν σ} {rest : List (Pending ν σ)}

/-- A request with this continuation, made above this waiting work, has not been refused and will
not be. -/
inductive Grants (next : Answer ν → Body ν σ) (rest : List (Pending ν σ))
    (config : Config ν σ) : Prop where
  | answered (answer : Answer ν) (granted : answer.Granted)
    (focus : config.focus = .body (next answer)) (pending : config.pending = rest)
  | runs (run : Run ν σ) (focus : config.focus.run? = some run) (reply : run.reply = next)
    (pending : config.pending = rest)
  | waits (work : Pending ν σ) (inner : List (Pending ν σ)) (continues : work.continuation = next)
    (apart : work.Apart rest) (pending : config.pending = inner ++ work :: rest)
  | faulted (fault : Fault) (focus : config.focus = .faulted fault)

namespace Grants

/-- Stopping for a misuse. -/
theorem stop {config : Config ν σ} (fault : Fault) :
    (config.goto (.faulted fault)).Grants next rest := .faulted fault rfl

/-- A run that goes on will answer. -/
theorem of_called (follows : config.Follows next rest)
    (called : config.AtBody (Pending.Holds rest)) :
    config.Grants next rest := by
  cases follows with
  | answered answer focus pending =>
    obtain ⟨work, run, below, _⟩ := called _ focus
    rw [pending] at below
    exact absurd below.symm (List.cons_ne_self work rest)
  | runs run focus reply pending => exact .runs run focus reply pending
  | waits body work focus continues pending =>
    obtain ⟨other, run, below, holds⟩ := called body focus
    obtain ⟨rfl, _⟩ := List.cons.inj (pending.symm.trans below)
    exact .waits work [] continues (Pending.apart_of_run? holds rest) pending
  | faulted fault focus => exact .faulted fault focus

/-- A thread that begins to run. -/
theorem launch {id : ThreadId} {thread : Thread ν} {execution : Execution ν} {purpose : Purpose}
    (present : config.world.domain.thread? id = some thread)
    (held : thread.execution = some execution) (above : config.pending = rest) :
    (config.launch host id purpose next).Grants next rest := by
  unfold Config.launch
  rw [Domain.thread_eq_ok.2 present, attempt_ok]
  simp only [held]
  refine .runs _ rfl rfl ?_
  split
  · exact above
  · simp [above]

/-- A thread that is given a fresh frame once there is room for it. -/
theorem entering {id : ThreadId} {thread : Thread ν} {execution : Execution ν}
    {function : Function ν} {purpose : Option Purpose}
    (present : config.world.domain.thread? id = some thread) (above : config.pending = rest) :
    (config.entering host id thread execution function purpose next).Grants next rest := by
  cases purpose with
  | none => exact .answered .done Answer.granted_done rfl above
  | some purpose =>
    obtain ⟨run, _, _, reply, _, focus, pending⟩ :=
      @launch_enter _ _ host config id next thread execution { function, base := 0, top := 0 }
        purpose present
    exact .runs run (congrArg Focus.run? focus) reply (pending.trans above)

/-- A thread that is aborted, after which whoever has asked for it goes on. -/
theorem abort {id : ThreadId} {reason : AbortReason} (above : config.pending = rest) :
    (config.abort host id reason (.reply next)).Grants next rest := by
  refine attempt_induction stop fun discarded _ => ?_
  refine attempt_induction stop fun ⟨domain, hook⟩ _ => ?_
  dsimp only
  split
  · exact .answered .done Answer.granted_done rfl above
  · exact .answered .done Answer.granted_done rfl above
  · exact .waits (.aborting (.reply next)) [] rfl trivial (congrArg _ above)

/-- A thread that goes on. -/
theorem continueThread {id : ThreadId} {thread : Thread ν} {execution : Execution ν}
    {purpose : Purpose} (present : config.world.domain.thread? id = some thread)
    (held : thread.execution = some execution) (above : config.pending = rest) :
    (config.continueThread host id purpose next).Grants next rest := by
  unfold Config.continueThread
  dsimp only
  rw [Domain.thread_eq_ok.2 present, attempt_ok]
  split
  · exact .answered _ (purpose.granted_answer _ _ _) rfl above
  · have released := Domain.thread?_setThread present
      { thread with suspended := false, hook := none } id
    rw [if_pos rfl] at released
    exact @launch _ _ host (config.setDomain _) next rest id _ execution purpose released held above

/-- A hook has made room for a function. Its thread does not run, for no run has it that waits. -/
theorem afterAbort_start {id : ThreadId} {function : Function ν} {purpose : Option Purpose}
    (nested : config.world.domain.Nested (rest.filterMap Pending.place?))
    (apart : id ∉ (rest.filterMap Pending.place?).map Place.thread)
    (above : config.pending = rest) :
    (config.afterAbort host (.start id function purpose next)).Grants next rest := by
  rcases Config.afterAbort_start host config id function purpose next with ⟨fault, faulted⟩ |
    ⟨thread, present, ⟨taken, _⟩ | ⟨execution, held, entered⟩⟩
  · exact .faulted fault faulted
  · exact absurd ((nested.running id).2 ⟨thread, present, taken⟩) apart
  · rw [entered]
    exact entering present above

/-- A body has ended for which work has waited. -/
theorem finishBody {work : Pending ν σ} {value : Int32}
    (nested : config.world.domain.Nested ((work :: rest).filterMap Pending.place?))
    (apart : work.Apart rest) (waiting : config.pending = work :: rest) :
    (config.finishBody host value).Grants work.continuation rest := by
  have follows := @Follows.finishBody _ _ host config rest work value waiting
  unfold Config.finishBody at follows ⊢
  rw [waiting] at follows ⊢
  cases work with
  | calling run registers call => exact of_called follows (.returnNative rfl)
  | aborting after =>
    cases after with
    | reply next => exact .answered .done Answer.granted_done rfl rfl
    | stop run function pc reason => exact of_called follows (.abortRun function pc reason)
    | start id function purpose next => exact afterAbort_start nested apart rfl

/-- A request that will not be refused is answered, or will not be refused after the next step
either. -/
theorem step (grants : config.Grants next rest) (nested : config.Nested)
    (unanswered : ∀ body, config.focus = .body body → config.pending ≠ rest) :
    (config.step host).Grants next rest := by
  cases grants with
  | answered answer granted focus pending => exact absurd pending (unanswered _ focus)
  | faulted fault focus =>
    rw [step_of_isFinal host (by simp [isFinal, focus])]
    exact .faulted fault focus
  | runs run focus reply pending =>
    have follows := @Follows.step_run _ _ host _ _ _ focus pending
    by_cases ends : ∃ outcome, config.focus = .ended run outcome
    · obtain ⟨outcome, ended⟩ := ends
      rcases step_of_ended host ended with ⟨fault, faulted⟩ | ⟨answers, below⟩
      · exact .faulted fault faulted
      · rw [reply] at answers
        exact .answered _ (run.purpose.granted_answer _ _ _) answers (below.trans pending)
    · rw [reply] at follows
      exact of_called follows (.step_run focus (fun outcome ended => ends ⟨outcome, ended⟩) pending)
  | waits work inner continues apart pending =>
    rcases @step_waiting _ _ host _ _ _ _ pending with ⟨more, below⟩ | ⟨rfl, value, ended⟩ |
      ⟨fault, focus⟩
    · exact .waits work more continues apart below
    · rcases nested with ⟨fault, faulted⟩ | ⟨nests, _⟩
      · rw [ended] at faulted
        cases faulted
      · have domain := nests.domain
        rw [ended, pending] at domain
        have goes : config.step host = config.finishBody host value := by
          simp only [Config.step, ended]
        rw [goes, ← continues]
        exact finishBody domain apart pending
    · exact .faulted fault focus

end Grants

/-- A request is refused at once, and nothing has been changed then, or it will not be refused. Only
a thread that runs cannot be woken through its queue. -/
inductive Decides (config : Config ν σ) (request : Request ν) (next : Answer ν → Body ν σ)
    (after : Config ν σ) : Prop where
  | refused (reason : Refusal) (unchanged : after = config.goto (.body (next (.refused reason))))
    (wakes : ∀ queue value, request = .wake queue value → reason = .thread .running)
  | granted (grants : after.Grants next config.pending)

namespace Decides

variable {request : Request ν}

/-- Stopping for a misuse. -/
theorem stop (fault : Fault) : config.Decides request next (config.goto (.faulted fault)) :=
  .granted (.stop fault)

/-- An answer is given at once. -/
theorem answered {answer : Answer ν} (granted : answer.Granted) :
    config.Decides request next (config.goto (.body (next answer))) :=
  .granted (.answered answer granted rfl rfl)

/-- A function is started on a thread. -/
theorem start (linked : config.world.domain.Linked)
    (nested : config.world.domain.Nested (config.pending.filterMap Pending.place?))
    (id : ThreadId) (called : FunctionId) (purpose : Option Purpose)
    (other : ∀ queue value, request ≠ .wake queue value) :
    config.Decides request next (config.start host id called purpose next) := by
  have wakes (reason : Refusal) (queue : QueueId) (value : Option Int32)
      (same : request = .wake queue value) : reason = .thread .running :=
    absurd same (other queue value)
  cases @starts _ _ host config id next purpose linked called with
  | unknown missing refused => exact .refused _ refused (wakes _)
  | running thread present taken refused => exact .refused _ refused (wakes _)
  | faulted fault focus => exact .granted (.faulted fault focus)
  | unhooked function room registered pending vacant goes =>
    refine .granted ?_
    rw [goes]
    rcases afterAbort_start host room id function purpose next with ⟨fault, faulted⟩ |
      ⟨thread, present, ⟨taken, _⟩ | ⟨execution, _, entered⟩⟩
    · exact .faulted fault faulted
    · exact absurd vacant (Domain.not_awake present taken [])
    · rw [entered]
      exact Grants.entering present pending
  | hooked function registered pending =>
    let work : Pending ν σ := .aborting (.start id function purpose next)
    have apart : work.Apart config.pending := by
      intro listed
      obtain ⟨thread, present, taken⟩ := (nested.running id).1 listed
      rw [start_refused purpose registered present taken, goto_pending] at pending
      exact List.cons_ne_self _ _ pending.symm
    exact .granted (.waits work [] rfl apart pending)

/-- The host resumes a thread. -/
theorem resume (id : ThreadId) :
    config.Decides (.resume id) next (config.resume host id next) := by
  refine resume_induction stop (fun error => .refused _ rfl (by simp))
    fun thread present idle _ _ => ?_
  obtain ⟨execution, held⟩ := Thread.exists_execution idle
  exact .granted (.continueThread present held rfl)

/-- A thread is woken through its queue. Once it has left the queue, nothing can go wrong, for it is
suspended and does not run. -/
theorem wake (linked : config.world.domain.Linked) (queue : QueueId) (value : Option Int32) :
    config.Decides (.wake queue value) next (config.wake host queue value next) := by
  refine wake_induction stop (fun _ => answered (Answer.granted_woke none))
    (fun _ _ _ _ _ => .refused _ rfl (by simp)) fun head thread domain popped first present idle
    done => ?_
  obtain ⟨execution, held⟩ := Thread.exists_execution idle
  obtain ⟨left, suspended⟩ := linked.popped first present done
  refine ⟨fun fault => .granted (.faulted fault rfl),
    fun error handed => absurd handed (handResult_granted left suspended held error),
    fun supplied handed => ?_⟩
  obtain ⟨after, kept, there, held⟩ := handResult_held left held handed
  exact .granted (@Grants.continueThread _ _ host (config.setDomain supplied) next _ _ after kept
    .woken there held rfl)

/-- A request that is carried out. -/
theorem perform (linked : config.world.domain.Linked)
    (nested : config.world.domain.Nested (config.pending.filterMap Pending.place?))
    (request : Request ν) : config.Decides request next (config.perform host request next) := by
  cases request with
  | observe => exact answered (Answer.granted_seen _)
  | update update =>
    refine attempt_induction stop fun ⟨world, answer⟩ done => ?_
    by_cases granted : answer.Granted
    · exact .granted (.answered answer granted rfl rfl)
    · obtain ⟨reason, rfl⟩ : ∃ reason, answer = .refused reason := by
        simpa [Answer.Granted] using granted
      obtain rfl := Update.apply_refused done
      exact .refused reason rfl (by simp)
  | start id function => exact start linked nested id function none (by simp)
  | run id function => exact start linked nested id function (some .plain) (by simp)
  | runInt id function => exact start linked nested id function (some .result) (by simp)
  | resume id => exact resume id
  | abort id => exact .granted (.abort rfl)
  | faultActive error =>
    unfold Config.perform
    dsimp only
    split
    · exact answered Answer.granted_done
    · exact .granted (.abort rfl)
  | wake queue value => exact wake linked queue value

end Decides

/-- A request that will not be refused has not been refused when the body goes on that has made
it. -/
theorem GoesOn.granted {steps : Nat} {body : Body ν σ} (goesOn : config.GoesOn host steps body)
    (nested : ∀ moment, (config.run host moment).Nested)
    (grants : (config.step host).Grants next config.pending) :
    ∃ answer, answer.Granted ∧ body = next answer := by
  have started := goesOn.started
  -- until the body goes on, the request will not be refused
  have lasts (moment : Nat) (upTo : moment + 1 ≤ steps) :
      (config.run host (moment + 1)).Grants next config.pending := by
    induction moment with
    | zero =>
      rw [run_succ]
      exact grants
    | succ moment ih =>
      rw [run_succ_last]
      refine (ih (by omega)).step (nested _) fun other focus level => ?_
      have level := congrArg List.length level
      exact goesOn.first (moment + 1) (Nat.succ_pos _) (by omega) level other focus
  have arrived := lasts (steps - 1) (by omega)
  rw [Nat.sub_add_cancel started] at arrived
  cases arrived with
  | answered answer granted focus pending =>
    exact ⟨answer, granted, Focus.body.inj (goesOn.focus.symm.trans focus)⟩
  | runs run focus reply pending =>
    rw [goesOn.focus] at focus
    cases focus
  | waits work inner continues apart pending =>
    have level := goesOn.level
    rw [pending] at level
    simp only [List.length_append, List.length_cons] at level
    omega
  | faulted fault focus => exact absurd focus (goesOn.works (Nat.le_refl _) fault)

/-- A request is refused at once, and then nothing in the world or in the host's own state has been
changed, no callback has been called and no run has been started; or it is not refused, whatever
runs and whoever is called before the body goes on that has made it. A wake is refused only because
the first waiter runs. -/
theorem refused_unchanged_or_granted {allowed : Request ν → Prop} {request : Request ν}
    (reached : config.Reachable host allowed) (asks : config.focus = .body (.ask request next)) :
    (∃ reason, config.step host = config.goto (.body (next (.refused reason))) ∧
        ∀ queue value, request = .wake queue value → reason = .thread .running) ∨
      ∀ steps body, config.GoesOn host steps body →
        ∃ answer, answer.Granted ∧ body = next answer := by
  have linked := linked_of_reachable reached
  have made : config.step host = config.perform host request next := by simp only [step, asks]
  rcases nested_of_reachable reached with ⟨fault, faulted⟩ | ⟨nests, _⟩
  · rw [asks] at faulted
    cases faulted
  · have domain := nests.domain
    rw [asks] at domain
    have decides := @Decides.perform _ _ host config next linked domain request
    rw [← made] at decides
    cases decides with
    | refused reason unchanged wakes => exact .inl ⟨reason, unchanged, wakes⟩
    | granted grants =>
      exact .inr fun steps body goesOn =>
        goesOn.granted (fun moment => nested_of_reachable (reached.run moment)) grants

/-- A body that tells whether its request has been refused. -/
def tellRefused (answer : Answer Unit) : Program Unit Unit Int32 :=
  match answer with
  | .refused _ => .done 1
  | _ => .done 0

/-- The first thread is parked, and is to be woken at once. -/
def parkingThenWaking : Program Unit Unit Int32 := do
  let _ ← Program.update (.park ⟨1⟩ ⟨0⟩)
  Program.ask (.wake ⟨1⟩ none) tellRefused

/-- A host whose native methods park the thread and try to wake it. -/
def impatientHost : Host Unit Unit where
  native _ _ := parkingThenWaking
  onAbort _ _ := parking
  onLimit _ _ state := state
  onEvent _ _ state := state

/-- A thread that has parked itself cannot be woken before its run ends, and stays in its queue. -/
theorem refused_unchanged_or_granted_waking :
    let config := (Config.initial {} () running).run impatientHost 7
    config.Reachable impatientHost (fun _ => True) ∧
      config.focus = .body (.ask (.wake ⟨1⟩ none) tellRefused) ∧
      config.step impatientHost =
        config.goto (.body (tellRefused (.refused (.thread .running)))) ∧
      config.world.domain.waitersOf ⟨1⟩ = [⟨0⟩] := by
  intro config
  have reached : config.Reachable impatientHost (fun _ => True) :=
    (Reachable.initial () running (Program.asks_of_forall (fun _ => trivial) _)).run 7
  have asks : config.focus = .body (.ask (.wake ⟨1⟩ none) tellRefused) := by rfl
  refine ⟨reached, asks, ?_, by decide +kernel⟩
  rcases refused_unchanged_or_granted reached asks with ⟨reason, unchanged, wakes⟩ | granted
  · rw [wakes ⟨1⟩ none rfl] at unchanged
    exact unchanged
  · have told : config.GoesOn impatientHost 1 (.done 1) :=
      ⟨Nat.one_pos, by rfl, by rfl, fun between positive earlier => by omega⟩
    obtain ⟨answer, unrefused, same⟩ := granted 1 (.done 1) told
    cases answer with
    | refused reason => exact absurd rfl (unrefused reason)
    | done | index | flag | thread | ran | returned | woke | resolved | seen =>
      have different : (1 : Int32) ≠ 0 := by decide
      exact absurd (Program.done.inj same) different

end Config

end ScriptMachine

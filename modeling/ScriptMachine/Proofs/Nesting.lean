import ScriptMachine.Proofs.Keeping

/-!
# Runs within runs

A native method may start a run within the run that called it. The runs in progress form a chain:
the innermost one has the active thread, each other one has the thread that was active when the run
within it started, and the outermost one was started with no active thread. The threads of these
runs are distinct, exist, and are exactly the threads whose frames are not in the domain. An abort
is requested only of such a thread, and never for an instruction that could not be executed.
-/

namespace ScriptMachine

variable {ν σ : Type}

/-- The place of a run among the runs in progress: its thread, and the thread that was active when
it started. -/
structure Place where
  thread : ThreadId
  previous : Option ThreadId

/-- The place of a run. -/
def Run.place (run : Run ν σ) : Place := ⟨run.thread, run.previous⟩

@[simp] theorem Run.place_setStack (run : Run ν σ) (stack : Array Int32) :
    (run.setStack stack).place = run.place := rfl

@[simp] theorem Run.place_setFrames (run : Run ν σ) (frames : List (Frame ν)) :
    (run.setFrames frames).place = run.place := rfl

@[simp] theorem Run.place_saveFrame (run : Run ν σ) (pc top : Nat) :
    (run.saveFrame pc top).place = run.place := by
  unfold saveFrame
  split <;> rfl

/-- The active thread leads through the places from the innermost one outwards. -/
def Chained : Option ThreadId → List Place → Prop
  | active, [] => active = none
  | active, place :: places => active = some place.thread ∧ Chained place.previous places

/-- The runs at these places are the runs in progress. -/
structure Domain.Nested (domain : Domain ν) (places : List Place) : Prop where
  chained : Chained domain.active places
  distinct : (places.map Place.thread).Nodup
  running : ∀ id, id ∈ places.map Place.thread ↔
    ∃ thread, domain.thread? id = some thread ∧ thread.execution = none
  requested : ∀ id thread reason, domain.thread? id = some thread →
    thread.pendingAbort = some reason → thread.execution = none ∧ reason ≠ .invalidBytecode

namespace Domain.Nested

variable {domain next : Domain ν} {places : List Place}

/-- No run is in progress in a domain without threads and without an active thread. -/
theorem of_empty (active : domain.active = none) (threads : domain.threads = #[]) :
    domain.Nested [] := by
  constructor <;> simp [Chained, active, Domain.thread?, threads]

/-- The same runs are in progress when threads keep what they execute. -/
theorem of_keeps (nested : domain.Nested places) (keeps : domain.Keeps next) :
    next.Nested places where
  chained := by
    rw [keeps.active]
    exact nested.chained
  distinct := nested.distinct
  running id := by
    rw [nested.running]
    constructor
    · rintro ⟨before, present, taken⟩
      obtain ⟨after, there, kept⟩ := keeps.old id before present
      exact ⟨after, there, kept.running.2 taken⟩
    · rintro ⟨after, there, taken⟩
      rcases keeps.new id after there with ⟨before, present, kept⟩ | ⟨_, fresh⟩
      · exact ⟨before, present, kept.running.1 taken⟩
      · rw [fresh.1] at taken
        cases taken
  requested id after reason there asked := by
    rcases keeps.new id after there with ⟨before, present, kept⟩ | ⟨_, fresh⟩
    · rw [kept.pendingAbort] at asked
      rw [kept.running]
      exact nested.requested id before reason present asked
    · rw [fresh.2] at asked
      cases asked

/-- A domain can be emptied only when no run is in progress. -/
theorem nobody_of_clear (nested : domain.Nested places) (done : domain.clear = .ok next) :
    places = [] := by
  unfold Domain.clear at done
  split at done
  · cases done
  · rename_i idle
    have inactive : domain.active = none := by simpa using idle
    have chained := nested.chained
    cases places with
    | nil => rfl
    | cons place places =>
      rw [inactive] at chained
      cases chained.1

/-- No run is in progress in a domain that has been emptied. -/
theorem clear (nested : domain.Nested places) (done : domain.clear = .ok next) :
    next.Nested places := by
  rw [nested.nobody_of_clear done]
  unfold Domain.clear at done
  split at done <;> cases done
  exact of_empty rfl rfl

/-- An update leaves the runs in progress alone. -/
theorem of_updated (nested : domain.Nested places) (update : domain.Updated next) :
    next.Nested places := by
  rcases Domain.Keeps.of_updated update with keeps | cleared
  · exact nested.of_keeps keeps
  · exact nested.clear cleared

/-- A thread is replaced by one that runs exactly if it did. -/
theorem setThread (nested : domain.Nested places) {id : ThreadId} {before after : Thread ν}
    (present : domain.thread? id = some before)
    (running : after.execution = none ↔ before.execution = none)
    (requested : ∀ reason, after.pendingAbort = some reason →
      after.execution = none ∧ reason ≠ .invalidBytecode) :
    (domain.setThread id after).Nested places where
  chained := nested.chained
  distinct := nested.distinct
  running other := by
    rw [nested.running, thread?_setThread present]
    by_cases same : other = id
    · subst same
      simp [present, running]
    · simp [same]
  requested other thread reason there asked := by
    rw [thread?_setThread present] at there
    split at there
    · cases there
      exact requested reason asked
    · exact nested.requested other thread reason there asked

/-- A run that starts is the innermost one. -/
theorem launch (nested : domain.Nested places) {id : ThreadId} {thread : Thread ν}
    {execution : Execution ν} (present : domain.thread? id = some thread)
    (held : thread.execution = some execution) :
    Domain.Nested { domain.setThread id { thread with execution := none } with active := some id }
      (⟨id, domain.active⟩ :: places) where
  chained := ⟨rfl, nested.chained⟩
  distinct := by
    refine List.nodup_cons.2 ⟨fun listed => ?_, nested.distinct⟩
    obtain ⟨other, known, taken⟩ := (nested.running id).1 listed
    obtain rfl := Option.some.inj (present.symm.trans known)
    rw [held] at taken
    cases taken
  running other := by
    have threads := thread?_setThread present { thread with execution := none } other
    rw [List.map_cons, List.mem_cons, nested.running]
    simp only [thread?] at threads ⊢
    rw [threads]
    by_cases same : other = id
    · subst same
      simp
    · simp [same]
  requested other found reason there asked := by
    have threads := thread?_setThread present { thread with execution := none } other
    simp only [thread?] at threads there
    rw [threads] at there
    split at there
    · cases there
      exact ⟨rfl, (nested.requested id thread reason present asked).2⟩
    · exact nested.requested other found reason there asked

/-- The innermost run is the one that ends. -/
theorem finish {id : ThreadId} {previous : Option ThreadId}
    (nested : domain.Nested (⟨id, previous⟩ :: places)) {thread : Thread ν}
    {execution : Execution ν} (present : domain.thread? id = some thread) :
    Domain.Nested { domain.setThread id
      { thread with execution := some execution, pendingAbort := none } with active := previous }
      places where
  chained := nested.chained.2
  distinct := (List.nodup_cons.1 nested.distinct).2
  running other := by
    have threads := thread?_setThread present
      { thread with execution := some execution, pendingAbort := none } other
    have listed := nested.running other
    have apart := (List.nodup_cons.1 nested.distinct).1
    rw [List.map_cons, List.mem_cons] at listed
    simp only [thread?] at threads listed ⊢
    rw [threads]
    by_cases same : other = id
    · subst same
      simpa using apart
    · simpa [same] using listed
  requested other found reason there asked := by
    have threads := thread?_setThread present
      { thread with execution := some execution, pendingAbort := none } other
    simp only [thread?] at threads there
    rw [threads] at there
    split at there
    · cases there
      cases asked
    · exact nested.requested other found reason there asked

/-- Discarding frames leaves the runs in progress alone; of a thread that runs, an abort is
requested. -/
theorem discard (nested : domain.Nested places) {id : ThreadId} {reason : AbortReason}
    (valid : reason ≠ .invalidBytecode) (done : domain.discard id reason = .ok next) :
    next.Nested places := by
  obtain ⟨thread, present, ⟨execution, held, rfl⟩ | ⟨taken, rfl⟩⟩ := discard_eq_ok done
  · refine nested.setThread present (by simp [held]) fun asked found => ?_
    have running := (nested.requested id thread asked present found).1
    rw [held] at running
    cases running
  · refine nested.setThread present Iff.rfl fun asked found => ⟨taken, ?_⟩
    cases earlier : thread.pendingAbort with
    | none =>
      rw [earlier] at found
      cases found
      exact valid
    | some first =>
      rw [earlier] at found
      cases found
      exact (nested.requested id thread _ present earlier).2

end Domain.Nested

/-- The run that an abort will stop. -/
def AfterAbort.run? : AfterAbort ν σ → Option (Run ν σ)
  | .stop run _ _ _ => some run
  | _ => none

/-- The run that waits for a body to end. -/
def Pending.run? : Pending ν σ → Option (Run ν σ)
  | .calling run _ _ => some run
  | .aborting next => next.run?

/-- The run at hand. -/
def Focus.run? : Focus ν σ → Option (Run ν σ)
  | .enter run | .execute run _ | .ended run _ => some run
  | _ => none

/-- The place of the run that an abort will stop. -/
def AfterAbort.place? (next : AfterAbort ν σ) : Option Place := next.run?.map Run.place

/-- The place of the run that waits for a body to end. -/
def Pending.place? (work : Pending ν σ) : Option Place := work.run?.map Run.place

/-- The place of the run at hand. -/
def Focus.place? (focus : Focus ν σ) : Option Place := focus.run?.map Run.place

@[simp] theorem Pending.place?_calling (run : Run ν σ) (registers : Registers ν)
    (call : NativeCall) : (Pending.calling run registers call).place? = some run.place := rfl

@[simp] theorem Pending.place?_aborting (next : AfterAbort ν σ) :
    (Pending.aborting next).place? = next.place? := rfl

@[simp] theorem Focus.place?_body (body : Body ν σ) : (Focus.body body).place? = none := rfl

@[simp] theorem Focus.place?_finished (value : Int32) :
    (Focus.finished value : Focus ν σ).place? = none := rfl

/-- An abort stops a run for no other reason than a request. -/
def AfterAbort.Requested : AfterAbort ν σ → Prop
  | .stop _ _ _ reason => reason ≠ .invalidBytecode
  | _ => True

namespace Config

/-- The runs in progress are the ones at the given places and those that wait for bodies. -/
structure Nests (config : Config ν σ) (held : List Place) : Prop where
  domain : config.world.domain.Nested (held ++ config.pending.filterMap Pending.place?)
  requested : ∀ next, .aborting next ∈ config.pending → next.Requested

/-- Unless the machine has stopped for a misuse, the runs in progress are the one at hand and those
that wait for bodies, and nothing waits when the outermost body has ended. -/
def Nested (config : Config ν σ) : Prop :=
  (∃ fault, config.focus = .faulted fault) ∨
    config.Nests config.focus.place?.toList ∧
      ∀ value, config.focus = .finished value → config.pending = []

namespace Nests

variable {config other : Config ν σ} {held : List Place}

/-- Only the domain and the work that waits matter. -/
theorem congr (nests : config.Nests held) (domain : other.world.domain = config.world.domain)
    (pending : other.pending = config.pending) : other.Nests held := by
  refine ⟨?_, ?_⟩
  · rw [domain, pending]
    exact nests.domain
  · rw [pending]
    exact nests.requested

/-- The domain is replaced by one with the same runs in progress. -/
theorem setDomain {domain : Domain ν} (nests : config.Nests held)
    (nested : domain.Nested (held ++ config.pending.filterMap Pending.place?)) :
    (config.setDomain domain).Nests held := ⟨nested, nests.requested⟩

/-- Going on with work that holds these runs. -/
theorem nested (nests : config.Nests held) (same : config.focus.place?.toList = held)
    (working : ∀ value, config.focus ≠ .finished value) : config.Nested := by
  subst same
  exact .inr ⟨nests, fun value finished => absurd finished (working value)⟩

/-- Going on with a body. -/
theorem body (nests : config.Nests []) (body : Body ν σ) : (config.goto (.body body)).Nested :=
  (nests.congr rfl rfl : (config.goto (.body body)).Nests []).nested rfl (by simp)

/-- Stopping for a misuse. -/
theorem faulted (config : Config ν σ) (fault : Fault) : (config.goto (.faulted fault)).Nested :=
  .inl ⟨fault, rfl⟩

/-- A thread that begins to run. -/
theorem launch (host : Host ν σ) (nests : config.Nests []) (id : ThreadId) (purpose : Purpose)
    (reply : Answer ν → Body ν σ) : (config.launch host id purpose reply).Nested := by
  refine attempt_induction (faulted config) fun thread found => ?_
  have present := Domain.thread_eq_ok.1 found
  split
  · exact nests.body _
  · rename_i execution held
    have launched : Nests (config.setDomain _) [⟨id, config.world.domain.active⟩] :=
      ⟨nests.domain.launch present held, nests.requested⟩
    refine nested (launched.congr ?_ ?_) rfl (by simp)
    · split <;> simp
    · split <;> simp

/-- A run that ends. -/
theorem finishRun (host : Host ν σ) {run : Run ν σ} (nests : config.Nests [run.place])
    (outcome : Outcome) : (config.finishRun host run outcome).Nested := by
  refine attempt_induction (faulted config) fun thread found => ?_
  have present := Domain.thread_eq_ok.1 found
  have finished : Nests (config.setDomain _) [] :=
    ⟨@Domain.Nested.finish _ _ _ _ _ nests.domain _ run.execution present, nests.requested⟩
  exact nested (finished.congr (by simp) (by simp)) rfl (by simp)

/-- A run that is aborted. -/
theorem abortRun (host : Host ν σ) {run : Run ν σ} (nests : config.Nests [run.place])
    (function : Function ν) (pc : Nat) (reason : AbortReason) :
    (config.abortRun host run function pc reason).Nested :=
  .inr ⟨⟨nests.domain, nests.requested⟩, by simp [Config.abortRun]⟩

/-- What follows an abort. -/
theorem afterAbort (host : Host ν σ) {next : AfterAbort ν σ}
    (nests : config.Nests next.place?.toList) : (config.afterAbort host next).Nested := by
  cases next with
  | reply next => exact nests.body _
  | stop run function pc reason => exact nests.abortRun host function pc reason
  | start id function purpose next =>
    refine attempt_induction (faulted config) fun thread found => ?_
    have present := Domain.thread_eq_ok.1 found
    split
    · exact nests.body _
    · rename_i execution held
      have pushed := nests.setDomain (nests.domain.setThread present
        (iff_of_false (by simp) (by simp [held]) :
          ({ thread with execution := some { execution with
            frames := { function, base := 0, top := 0 } :: execution.frames } }
              : Thread ν).execution = none ↔ thread.execution = none)
        fun reason asked => absurd (nests.domain.requested id thread reason present asked).1
          (by simp [held]))
      cases purpose with
      | none => exact pushed.body _
      | some purpose => exact pushed.launch host id purpose next

/-- A thread that is detached. -/
theorem detach (host : Host ν σ) {next : AfterAbort ν σ} (nests : config.Nests next.place?.toList)
    (requested : next.Requested) (id : ThreadId) : (config.detach host id next).Nested := by
  refine attempt_induction (faulted config) fun ⟨domain, hook⟩ done => ?_
  have detached := nests.setDomain (nests.domain.of_keeps (.detach done))
  dsimp only
  split
  · exact detached.afterAbort host
  · refine afterAbort host (detached.congr ?_ ?_)
    · rfl
    · rfl
  · refine nested ⟨?_, fun other waiting => ?_⟩ rfl (by simp)
    · cases place : next.place? with
      | none => simpa [place] using detached.domain
      | some place => simpa [place] using detached.domain
    · rcases List.mem_cons.1 waiting with same | earlier
      · cases same
        exact requested
      · exact nests.requested other earlier

/-- A thread that is aborted. -/
theorem abort (host : Host ν σ) {next : AfterAbort ν σ} (nests : config.Nests next.place?.toList)
    (requested : next.Requested) (id : ThreadId) {reason : AbortReason}
    (valid : reason ≠ .invalidBytecode) : (config.abort host id reason next).Nested :=
  attempt_induction (faulted config) fun _ done =>
    (nests.setDomain (nests.domain.discard valid done)).detach host requested id

/-- A thread that is given a fresh frame. -/
theorem start (host : Host ν σ) (nests : config.Nests []) (id : ThreadId) (function : FunctionId)
    (purpose : Option Purpose) (next : Answer ν → Body ν σ) :
    (config.start host id function purpose next).Nested := by
  refine start_induction (faulted config) (fun _ => nests.body _) (fun _ _ _ => nests.body _)
    fun function _ _ _ _ _ => ?_
  have empty : config.Nests
      (AfterAbort.start id function purpose next : AfterAbort ν σ).place?.toList := nests
  exact ⟨fun _ => empty.abort host trivial id (by simp : AbortReason.requested ≠ .invalidBytecode),
    fun _ _ => empty.afterAbort host⟩

/-- A thread that goes on. -/
theorem continueThread (host : Host ν σ) (nests : config.Nests []) (id : ThreadId)
    (purpose : Purpose) (next : Answer ν → Body ν σ) :
    (config.continueThread host id purpose next).Nested := by
  refine attempt_induction (faulted config) fun thread found => ?_
  have released := nests.setDomain (nests.domain.of_keeps
    (Domain.Keeps.setThread (Domain.thread_eq_ok.1 found)
      (.of_same rfl rfl : thread.Keeps { thread with suspended := false, hook := none })))
  dsimp only
  split
  · exact released.body _
  · exact released.launch host id purpose next

/-- A thread that the host resumes. -/
theorem resume (host : Host ν σ) (nests : config.Nests []) (id : ThreadId)
    (next : Answer ν → Body ν σ) : (config.resume host id next).Nested :=
  resume_induction (faulted config) (fun _ => nests.body _) fun _ _ _ _ _ =>
    nests.continueThread host id .plain next

/-- A thread that is woken through its queue. -/
theorem wake (host : Host ν σ) (nests : config.Nests []) (queue : QueueId) (value : Option Int32)
    (next : Answer ν → Body ν σ) : (config.wake host queue value next).Nested := by
  refine wake_induction (faulted config) (fun _ => nests.body _) (fun _ _ _ _ _ => nests.body _)
    fun head _ domain _ _ _ _ done => ?_
  have left := nests.setDomain (nests.domain.of_updated (.pop done))
  refine ⟨faulted _, fun _ _ => left.body _, fun supplied handed => ?_⟩
  have handed := left.setDomain (left.domain.of_updated (Evolves.handResult handed).1)
  exact handed.continueThread host head .woken next

/-- A request that is carried out. -/
theorem perform (host : Host ν σ) (nests : config.Nests []) (request : Request ν)
    (next : Answer ν → Body ν σ) : (config.perform host request next).Nested := by
  cases request with
  | observe => exact nests.body _
  | update update =>
    refine attempt_induction (faulted config) fun ⟨world, answer⟩ done => ?_
    refine nested ⟨?_, nests.requested⟩ rfl (by simp)
    obtain ⟨function, _, registered⟩ | updated := Update.updated_of_apply done
    · dsimp only
      rw [registered]
      exact ⟨nests.domain.chained, nests.domain.distinct, nests.domain.running,
        nests.domain.requested⟩
    · exact nests.domain.of_updated updated
  | start id function => exact nests.start host id function none next
  | run id function => exact nests.start host id function (some .plain) next
  | runInt id function => exact nests.start host id function (some .result) next
  | resume id => exact nests.resume host id next
  | abort id =>
    exact @abort _ _ _ host (.reply next) nests trivial id .requested (by simp)
  | faultActive error =>
    unfold Config.perform
    dsimp only
    split
    · exact nests.body _
    · exact @abort _ _ _ host (.reply next) nests trivial _ (.badArgument error) (by simp)
  | wake queue value => exact nests.wake host queue value next

variable {run : Run ν σ}

/-- A frame that is entered. -/
theorem enterFrame (host : Host ν σ) (nests : config.Nests [run.place]) :
    (config.enterFrame host run).Nested := by
  unfold Config.enterFrame
  split
  · exact nested (nests.congr rfl rfl) rfl (by simp)
  · split
    · exact nested (nests.congr rfl rfl) rfl (by simp)
    · exact nested (nests.congr (by simp) (by simp)) rfl (by simp)

/-- A frame that is left. -/
theorem leaveFrame (host : Host ν σ) (nests : config.Nests [run.place]) (function : Function ν)
    (stack : Array Int32) : (config.leaveFrame host run function stack).Nested :=
  nested (nests.congr (by simp [Config.leaveFrame]) (by simp [Config.leaveFrame])) rfl
    (by simp [Config.leaveFrame])

/-- A native method that is called. -/
theorem callNative (host : Host ν σ) (nests : config.Nests [run.place]) (registers : Registers ν)
    (next : Nat) (call : NativeCall) :
    (config.callNative host run registers next call).Nested := by
  unfold Config.callNative
  split
  · exact nests.abortRun host ..
  · dsimp only
    split
    · refine nested ⟨?_, fun other waiting => ?_⟩ rfl (by simp)
      · simpa using nests.domain
      · simp only [emit_pending, List.mem_cons, reduceCtorEq, false_or] at waiting
        exact nests.requested other waiting
    · exact faulted _ _

/-- A native method that answers. -/
theorem returnNative (host : Host ν σ) (nests : config.Nests [run.place])
    (registers : Registers ν) (call : NativeCall) (value : Int32) :
    (config.returnNative host run registers call value).Nested := by
  refine returnNative_induction fun shown emitted => ?_
  replace nests : shown.Nests [run.place] :=
    nests.congr (by rw [← emitted, emit_world]) (by rw [← emitted, emit_pending])
  refine ⟨faulted _, fun stack thread _ present =>
    ⟨fun reason asked => ?_, fun _ _ => ?_, fun _ _ => ?_⟩⟩
  · have requested := nests.domain.requested run.thread thread reason present asked
    have honored := nests.setDomain (nests.domain.setThread present
      (Iff.rfl : ({ thread with pendingAbort := none } : Thread ν).execution = none ↔ _)
      (by simp))
    exact @detach _ _ _ host (.stop (run.setStack stack) registers.function call.pc reason) honored
      requested.2 run.thread
  · exact nested (nests.congr (by simp) (by simp)) (by simp [Focus.place?, Focus.run?]) (by simp)
  · exact nested (nests.congr rfl rfl) rfl (by simp)

/-- A script function that is called. -/
theorem callScript (host : Host ν σ) (nests : config.Nests [run.place]) (registers : Registers ν)
    (next : Nat) (result : ResultKind) (callee : FunctionId) (argc : Nat) :
    (config.callScript host run registers next result callee argc).Nested := by
  have saved : config.Nests [(run.saveFrame next (registers.sp - argc + result.count)).place] := by
    rw [Run.place_saveFrame]
    exact nests
  refine callScript_induction (faulted _) (fun _ => nests.abortRun host ..)
    fun function _ _ => ⟨fun stack _ _ => ?_, fun _ => ?_⟩
  · rw [← Run.place_setStack _ stack] at saved
    exact saved.abortRun host ..
  · exact nested (saved.congr rfl rfl) rfl (by simp)

/-- An instruction that is executed. -/
theorem execute (host : Host ν σ) (nests : config.Nests [run.place]) (registers : Registers ν) :
    (config.execute host run registers).Nested := by
  refine execute_induction (nests.abortRun host ..) fun instruction pc shown _ emitted => ?_
  replace nests : shown.Nests [run.place] :=
    nests.congr (by rw [← emitted, emit_world]) (by rw [← emitted, emit_pending])
  exact {
    stops := faulted _
    aborts _ := nests.abortRun host ..
    goes _ _ _ _ := nested (nests.congr rfl rfl) rfl (by simp)
    writes _ _ _ _ := nested ⟨nests.domain.of_keeps (.of_same rfl rfl rfl), nests.requested⟩ rfl
      (by simp)
    native _ _ _ _ _ := nests.callNative host ..
    script _ _ _ _ := nests.callScript host ..
    leaves _ _ _ := nests.leaveFrame host .. }

end Nests

/-- A step keeps the runs in progress nested. -/
theorem Nested.step (host : Host ν σ) {config : Config ν σ} (nested : config.Nested) :
    (config.step host).Nested := by
  have kept := nested
  rcases nested with ⟨fault, faulted⟩ | ⟨nests, _⟩
  · exact .inl ⟨fault, by simp only [Config.step, faulted]⟩
  have here {focus : Focus ν σ} (found : config.focus = focus) :
      config.Nests focus.place?.toList := found ▸ nests
  refine step_induction {
    rests _ := kept
    enters _ found := (here found).enterFrame host
    executes _ _ found := (here found).execute host _
    ends _ _ found := (here found).finishRun host _
    asks _ _ found := (here found).perform host _ _
    modifies _ _ found := Nests.nested ((here found).congr rfl rfl) rfl (by simp)
    crashes _ _ := .inl ⟨_, rfl⟩
    concludes _ found nothing := .inr ⟨(here found).congr rfl rfl, fun _ _ => nothing⟩
    answers value run registers call rest found waiting := ?_
    goesOn _ next rest found waiting := ?_ }
  · refine Nests.returnNative host ⟨?_, fun next later => ?_⟩ registers call value
    · simpa [waiting] using (here found).domain
    · exact nests.requested next (waiting ▸ List.mem_cons_of_mem _ later)
  · refine Nests.afterAbort host ⟨?_, fun other later => ?_⟩
    · cases place : next.place? with
      | none => simpa [waiting, place] using (here found).domain
      | some place => simpa [waiting, place] using (here found).domain
    · exact nests.requested other (waiting ▸ List.mem_cons_of_mem _ later)

/-- Any number of steps keep the runs in progress nested. -/
theorem Nested.run (host : Host ν σ) {config : Config ν σ} (nested : config.Nested) (steps : Nat) :
    (config.run host steps).Nested := by
  induction steps with
  | zero => exact nested
  | succ steps ih =>
    rw [run_succ_last]
    exact ih.step host

/-- Nothing waits when the outermost body has ended. -/
theorem Nested.pending_of_finished {config : Config ν σ} (nested : config.Nested) {value : Int32}
    (ended : config.focus = .finished value) : config.pending = [] := by
  rcases nested with ⟨fault, faulted⟩ | ⟨_, nothing⟩
  · cases ended.symm.trans faulted
  · exact nothing value ended

/-- The runs in progress are nested in every reachable configuration. -/
theorem nested_of_reachable {host : Host ν σ} {allowed : Request ν → Prop} {config : Config ν σ}
    (reached : config.Reachable host allowed) : config.Nested := by
  induction reached with
  | initial state body asks =>
    exact .inr ⟨⟨.of_empty rfl rfl, by simp [initial]⟩, by simp [initial]⟩
  | @again config value reached ended state body asks ih =>
    rcases ih with ⟨fault, faulted⟩ | ⟨nests, working⟩
    · simp [faulted] at ended
    · have nothing := working value ended
      refine .inr ⟨⟨?_, by simp [initial]⟩, by simp [initial]⟩
      simpa [ended, nothing, initial] using nests.domain
  | step reached ih => exact ih.step host

/-- No run is in progress once the outermost body has ended. -/
theorem nested_of_finished {host : Host ν σ} {allowed : Request ν → Prop} {config : Config ν σ}
    (reached : config.Reachable host allowed) {value : Int32}
    (ended : config.focus = .finished value) : config.world.domain.Nested [] := by
  rcases nested_of_reachable reached with ⟨fault, faulted⟩ | ⟨nests, working⟩
  · rw [ended] at faulted
    cases faulted
  · have nothing := working value ended
    have domain := nests.domain
    rw [ended, nothing] at domain
    exact domain

end Config

end ScriptMachine

import ScriptMachine.Proofs.Handovers
import ScriptMachine.Proofs.Histories
import ScriptMachine.Proofs.Stopping
import ScriptMachine.Proofs.Suspensions

/-!
# What an aborted run leaves behind

A run that is aborted gives back a thread without frames and without a pending abort. The thread is
not suspended either when its run begins, and when a native method goes on; so it is not when the
run is aborted, unless the hook of an abort has left it suspended: the hook of the abort that stops
the run, or of the one that made room for the run. Nothing clears a suspension after such a hook.
-/

namespace ScriptMachine

variable {ν σ : Type}

namespace Config

variable {host : Host ν σ} {config : Config ν σ} {id : Option ThreadId} {run : Run ν σ}

/-- If a run is at hand that has not just been suspended, its thread is not suspended, waits nowhere
and has no hook. -/
def Clean (config : Config ν σ) : Prop :=
  ∀ run, config.focus.run? = some run → config.focus ≠ .ended run .suspended →
    config.world.domain.suspension run.thread = {}

namespace Clean

/-- Without a run at hand nothing is claimed. -/
theorem of_none (nothing : config.focus.run? = none) : config.Clean := by
  intro run handed
  rw [nothing] at handed
  cases handed

/-- A run that has been suspended. -/
theorem of_suspended (ended : config.focus = .ended run .suspended) : config.Clean := by
  intro other handed goes
  rw [ended] at handed
  cases handed
  exact absurd ended goes

/-- A run whose thread was clean before and is as it was. -/
theorem of_rests {before after : Config ν σ} {thread : ThreadId}
    (hands : after.Hands (some thread)) (rests : before.Rests after)
    (clean : before.world.domain.suspension thread = {}) : after.Clean := by
  intro run handed _
  obtain rfl := Option.some.inj (hands.thread run handed)
  rw [rests, clean]

/-- A run whose thread has been aborted. -/
theorem of_detaches {before after : Config ν σ} {thread : ThreadId}
    (hands : after.Hands (some thread)) (detaches : before.Detaches thread after) :
    after.Clean := by
  cases detaches with
  | stopped focus rests => exact of_none (by rw [focus]; rfl)
  | detached ends _ =>
    intro run handed _
    obtain rfl := Option.some.inj (hands.thread run handed)
    rw [ends, if_pos rfl]

/-- A run whose thread has been let go on. -/
theorem of_frees {before after : Config ν σ} {thread : ThreadId}
    (hands : after.Hands (some thread)) (frees : before.Frees thread after) : after.Clean := by
  cases frees with
  | stopped focus rests => exact of_none (by rw [focus]; rfl)
  | freed ends =>
    intro run handed _
    obtain rfl := Option.some.inj (hands.thread run handed)
    rw [ends, if_pos rfl]

/-- No run has come to be at hand. -/
theorem of_hands (hands : config.Hands none) : config.Clean := by
  intro run handed _
  cases hands.thread run handed

/-- A thread that is given a fresh frame. -/
theorem start (linked : config.world.domain.Linked) (thread : ThreadId) (function : FunctionId)
    (purpose : Option Purpose) (next : Answer ν → Body ν σ) :
    (config.start host thread function purpose next).Clean := by
  refine start_induction (fun _ => of_none rfl) (fun _ => of_none rfl) (fun _ _ _ => of_none rfl)
    fun registered found execution _ present _ => ?_
  let after (purpose : Option Purpose) : AfterAbort ν σ := .start thread registered purpose next
  cases purpose with
  | none =>
    exact ⟨fun _ => of_hands (Hands.abort thread .requested (after none)),
      fun _ _ => of_hands (Hands.afterAbort (after none))⟩
  | some purpose =>
    refine ⟨fun _ => of_detaches (Hands.abort thread .requested (after (some purpose))) (.abort ..),
      fun awake _ => of_rests (Hands.afterAbort (after (some purpose)))
        (Retains.afterAbort _).rests (linked.suspension_eq ?_)⟩
    rw [Domain.suspension_of_present present]
    exact awake

/-- A thread that the host resumes. -/
theorem resume (thread : ThreadId) (next : Answer ν → Body ν σ) :
    (config.resume host thread next).Clean := by
  refine resume_induction (fun _ => of_none rfl) (fun _ => of_none rfl)
    fun found present _ _ free =>
      of_frees (.continueThread ..) (.continueThread thread .plain next ?_)
  rw [Domain.suspension_of_present present]
  exact free

/-- A thread that is woken through its queue. -/
theorem wake (queue : QueueId) (value : Option Int32) (next : Answer ν → Body ν σ) :
    (config.wake host queue value next).Clean := by
  refine wake_induction (fun _ => of_none rfl) (fun _ => of_none rfl) (fun _ _ _ _ _ => of_none rfl)
    fun head _ domain _ first _ _ done => ⟨fun _ => of_none rfl, fun _ _ => of_none rfl,
      fun supplied handed => ?_⟩
  refine @of_frees _ _ (config.setDomain supplied) _ head (.continueThread ..)
    (.continueThread head .woken next ?_)
  have free := Domain.suspension_popWaiter done first
  rw [setDomain_world, Domain.suspension_handResult handed, free]

/-- A request that is carried out. -/
theorem perform (linked : config.world.domain.Linked) (request : Request ν)
    (next : Answer ν → Body ν σ) : (config.perform host request next).Clean := by
  cases request with
  | observe => exact of_none rfl
  | update update => exact attempt_induction (fun _ => of_none rfl) fun _ _ => of_none rfl
  | start id function => exact start linked id function none next
  | run id function => exact start linked id function (some .plain) next
  | runInt id function => exact start linked id function (some .result) next
  | resume id => exact resume id next
  | abort id => exact of_hands (@Hands.abort _ _ host config id .requested (.reply next))
  | faultActive error =>
    unfold Config.perform
    dsimp only
    split
    · exact of_none rfl
    · exact of_hands (@Hands.abort _ _ host config _ (.badArgument error) (.reply next))
  | wake queue value => exact wake queue value next

/-- A native method that answers. -/
theorem returnNative (linked : config.world.domain.Linked) (run : Run ν σ)
    (registers : Registers ν) (call : NativeCall) (value : Int32) :
    (config.returnNative host run registers call value).Clean := by
  refine returnNative_induction fun shown emitted => ?_
  replace linked : shown.world.domain.Linked := by rw [← emitted, emit_world]; exact linked
  refine ⟨fun _ => of_none rfl, fun stack thread _ present =>
    ⟨fun reason _ => ?_, fun _ _ => of_suspended rfl, fun _ awake => ?_⟩⟩
  · let after : AfterAbort ν σ := .stop (run.setStack stack) registers.function call.pc reason
    exact of_detaches (Hands.detach run.thread after) (.detach run.thread after)
  · refine of_rests (.of_run rfl rfl (by simp)) (.of_threads rfl) (linked.suspension_eq ?_)
    exact (congrArg Suspension.suspended (Domain.suspension_of_present present)).trans awake

end Clean

/-- A hook has ended for which a run of a thread waits, either to begin or to stop. -/
def EndsHook (id : ThreadId) (config : Config ν σ) : Prop :=
  ∃ value next rest, config.focus = .body (.done value) ∧ config.pending = .aborting next :: rest ∧
    next.thread? = some id

/-- A run of a thread is at hand. -/
def Runs (id : ThreadId) (config : Config ν σ) : Prop :=
  ∃ run, config.focus.run? = some run ∧ run.thread = id

/-- The end of a hook leaves every suspension as it is. -/
theorem EndsHook.rests {thread : ThreadId} (hook : config.EndsHook thread) :
    config.Rests (config.step host) := by
  obtain ⟨value, next, rest, focus, pending, _⟩ := hook
  simp only [step, focus, finishBody, pending]
  exact fun id => (Retains.afterAbort next).rests id

/-- A run that has ended gives way to a body. -/
theorem run?_finishRun (outcome : Outcome) :
    (config.finishRun host run outcome).focus.run? = none :=
  @attempt_induction _ _ _ (fun after => after.focus.run? = none) _ _ _ (fun _ => rfl)
    fun _ _ => rfl

/-- A step hands over a run of a clean thread, unless it goes on with a run that has been at hand
before or the hook of an abort has ended. -/
theorem step_clean (linked : config.world.domain.Linked)
    (handed : (config.step host).focus.run? = some run) :
    (config.step host).Clean ∨
      (∃ before, config.focus.run? = some before ∧ before.thread = run.thread ∧
        ∀ outcome, config.focus ≠ .ended before outcome) ∨
      config.EndsHook run.thread := by
  let comes (after : Config ν σ) : Prop := after.focus.run? = some run →
    after.Clean ∨
      (∃ before, config.focus.run? = some before ∧ before.thread = run.thread ∧
        ∀ outcome, config.focus ≠ .ended before outcome) ∨
      config.EndsHook run.thread
  have idle {after : Config ν σ} (nothing : after.focus.run? = none) : comes after := by
    intro handed
    rw [nothing] at handed
    cases handed
  have goesOn {before : Run ν σ} {after : Config ν σ} {focus : Focus ν σ}
      (here : config.focus = focus) (has : focus.run? = some before)
      (goes : ∀ outcome, focus ≠ .ended before outcome)
      (hands : after.Hands (some before.thread)) : comes after := fun handed =>
    .inr (.inl ⟨before, by rw [here, has], Option.some.inj (hands.thread run handed),
      by rw [here]; exact goes⟩)
  exact @step_induction _ _ comes host config {
    rests final := idle (run?_of_isFinal final)
    enters before focus := goesOn focus rfl (by simp) (.enterFrame before)
    executes before registers focus := goesOn focus rfl (by simp) (.execute before registers)
    ends _ outcome _ := idle (run?_finishRun outcome)
    asks request next _ := fun _ => .inl (.perform linked request next)
    modifies _ _ _ := idle rfl
    crashes _ _ := idle rfl
    concludes _ _ _ := idle rfl
    answers value before registers call rest _ _ := fun _ =>
      .inl (@Clean.returnNative _ _ host { config with pending := rest } linked before registers
        call value)
    goesOn value next rest focus pending := fun handed =>
      .inr (.inr ⟨value, next, rest, focus, pending, (Hands.afterAbort next).thread run handed⟩) }
    handed

/-- The hook of an abort has ended and left its thread suspended, although a run of the thread is to
begin or to stop now. -/
structure Leaves (id : ThreadId) (config : Config ν σ) : Prop where
  hook : config.EndsHook id
  suspended : (config.world.domain.suspension id).suspended = true

section

variable {allowed : Request ν → Prop} {configs : Nat → Config ν σ} {time : Nat}

/-- A hook has left a thread suspended, and since then nothing but runs of the thread have been at
hand. -/
structure LeftSince (configs : Nat → Config ν σ) (id : ThreadId) (since time : Nat) : Prop where
  leaves : (configs since).Leaves id
  runs : ∀ between, since < between → between ≤ time → (configs between).Runs id

/-- A run is at hand only after a step of the machine. -/
theorem Precedes.step_of_run {next : Config ν σ} (precedes : config.Precedes host allowed next)
    (handed : next.focus.run? = some run) : next = config.step host := by
  cases precedes with
  | step => rfl
  | again ended state body asks => cases handed

/-- A thread whose run is at hand is clean, unless the run has just been suspended, or a hook has
left the thread suspended. -/
theorem History.clean_or_left (history : History host allowed configs)
    (handed : (configs time).focus.run? = some run)
    (goes : (configs time).focus ≠ .ended run .suspended) :
    (configs time).world.domain.suspension run.thread = {} ∨
      ∃ since < time, LeftSince configs run.thread since time := by
  induction time generalizing run with
  | zero =>
    obtain ⟨state, body, _, first⟩ := history.begins
    rw [first] at handed
    cases handed
  | succ time ih =>
    have made := (history.goes time).step_of_run handed
    have linked := linked_of_reachable (history.reachable time)
    have here : (configs (time + 1)).Runs run.thread := ⟨run, handed, rfl⟩
    rw [made] at handed goes
    rcases step_clean linked handed with clean | ⟨before, found, same, goesOn⟩ | hook
    · rw [made]
      exact .inl (clean run handed goes)
    · rcases ih found (goesOn _) with clean | ⟨since, past, leaves, runs⟩
      · left
        rw [made, Rests.step_run found, ← same, clean]
      · rw [same] at leaves runs
        refine .inr ⟨since, by omega, leaves, fun between later upTo => ?_⟩
        rcases Nat.lt_or_ge time between with last | earlier
        · obtain rfl : between = time + 1 := by omega
          exact here
        · exact runs between later earlier
    · cases suspended : ((configs time).world.domain.suspension run.thread).suspended with
      | false =>
        left
        rw [made, hook.rests, linked.suspension_eq suspended]
      | true =>
        refine .inr ⟨time, Nat.lt_succ_self _, ⟨hook, suspended⟩, fun between later upTo => ?_⟩
        obtain rfl : between = time + 1 := by omega
        exact here

/-- A thread that a hook has left suspended stays so as long as nothing but its runs are at hand. -/
theorem History.suspended_of_left (history : History host allowed configs) {id : ThreadId}
    {since : Nat} (past : since ≤ time) (left : LeftSince configs id since time) :
    ((configs time).world.domain.suspension id).suspended = true := by
  induction time with
  | zero =>
    obtain rfl : since = 0 := by omega
    exact left.leaves.suspended
  | succ time ih =>
    rcases Nat.eq_or_lt_of_le past with same | later
    · exact same ▸ left.leaves.suspended
    · have before := ih (by omega)
        ⟨left.leaves, fun between after upTo => left.runs between after (by omega)⟩
      obtain ⟨run, handed, _⟩ := left.runs (time + 1) (by omega) (Nat.le_refl _)
      have made := (history.goes time).step_of_run handed
      have rests : (configs time).Rests ((configs time).step host) := by
        rcases Nat.eq_or_lt_of_le (by omega : since ≤ time) with same | inside
        · exact (same ▸ left.leaves.hook).rests
        · obtain ⟨run, found, _⟩ := left.runs time inside (Nat.le_succ _)
          exact .step_run found
      rw [made, rests, before]

/-- A thread that waits in some queue has waited at an earlier moment or has been parked since. -/
theorem History.parks_of_waiting (history : History host allowed configs) {id : ThreadId}
    {since : Nat} (past : since ≤ time)
    (free : (configs since).world.domain.suspension id = {})
    (waiting : ((configs time).world.domain.suspension id).waitingOn.isSome) :
    ∃ between, since ≤ between ∧ between < time ∧ (configs between).Parks id := by
  induction time with
  | zero =>
    obtain rfl : since = 0 := by omega
    rw [free] at waiting
    cases waiting
  | succ time ih =>
    rcases Nat.eq_or_lt_of_le past with same | later
    · rw [← same, free] at waiting
      cases waiting
    · have before (waited : ((configs time).world.domain.suspension id).waitingOn.isSome) :
          ∃ between, since ≤ between ∧ between < time + 1 ∧ (configs between).Parks id := by
        obtain ⟨between, after, earlier, parks⟩ := ih (by omega) waited
        exact ⟨between, after, by omega, parks⟩
      rw [(history.goes time).world] at waiting
      cases step_treats host (linked_of_reachable (history.reachable time)) id with
      | lasts lasts => exact before (lasts.waits waiting)
      | suspends _ waits =>
        rcases waits waiting with waited | parks
        · exact before waited
        · exact ⟨time, by omega, Nat.lt_succ_self _, parks⟩
      | releases _ ended | aborts _ ended _ =>
        rw [ended] at waiting
        cases waiting

/-- A run that has been aborted has no frames. -/
theorem History.frames_of_aborted (history : History host allowed configs) {info : AbortInfo}
    (ended : (configs time).focus = .ended run (.aborted info)) : run.execution.frames = [] := by
  cases time with
  | zero =>
    obtain ⟨state, body, _, first⟩ := history.begins
    rw [first] at ended
    cases ended
  | succ time =>
    obtain ⟨id, hands⟩ := Hands.step host (configs time)
    rw [← (history.goes time).step_of_run (by rw [ended]; rfl)] at hands
    exact hands.bare run info ended

/-- The end of a run gives the thread what the run has executed, and tells whoever started the run
how it ended. -/
theorem finishRun_eq (host : Host ν σ) {thread : Thread ν} (outcome : Outcome)
    (present : config.world.domain.thread? run.thread = some thread) :
    (config.finishRun host run outcome).focus =
        .body (run.reply (run.purpose.answer run.thread outcome run.execution.stack)) ∧
      (config.finishRun host run outcome).world.domain.thread? run.thread =
        some { thread with execution := some run.execution, pendingAbort := none } := by
  unfold finishRun
  dsimp only
  rw [Domain.thread_eq_ok.2 present, attempt_ok]
  refine ⟨rfl, ?_⟩
  simp only [goto_world, emit_world]
  have given := Domain.thread?_setThread present
    { thread with execution := some run.execution, pendingAbort := none } run.thread
  rw [if_pos rfl] at given
  exact given

/-- When an aborted run returns, its thread has no frames and no pending abort. It is not suspended
either, waits in no queue and has no hook, exactly if no hook has left it suspended right before the
run was to begin or to stop; and then it waits in a queue only after it has been parked again. -/
theorem aborted_runs_leave_no_residue (history : History host allowed configs) {info : AbortInfo}
    (ended : (configs time).focus = .ended run (.aborted info)) :
    (configs (time + 1)).focus =
        .body (run.reply (run.purpose.answer run.thread (.aborted info) run.execution.stack)) ∧
      ∃ thread, (configs (time + 1)).world.domain.thread? run.thread = some thread ∧
        thread.execution = some ⟨[], run.execution.stack⟩ ∧ thread.pendingAbort = none ∧
        (thread.suspension = {} ∧
            (∀ queue, run.thread ∉ (configs (time + 1)).world.domain.waitersOf queue) ↔
          ¬∃ since < time, LeftSince configs run.thread since time) ∧
        (thread.suspension = {} → ∀ later queue, time < later →
          run.thread ∈ (configs later).world.domain.waitersOf queue →
          ∃ between, time < between ∧ between < later ∧ (configs between).Parks run.thread) := by
  have handed : (configs time).focus.run? = some run := by rw [ended]; rfl
  have made : configs (time + 1) = (configs time).finishRun host run (.aborted info) := by
    rw [(history.goes time).eq_step (by simp [ended])]
    simp only [step, ended]
  obtain ⟨fault, faulted⟩ | ⟨nests, _⟩ := nested_of_reachable (history.reachable time)
  · rw [ended] at faulted
    cases faulted
  rw [ended] at nests
  obtain ⟨thread, present⟩ := nests.present
  obtain ⟨answers, given⟩ := finishRun_eq host (.aborted info) present
  rw [← made] at answers given
  have linked := linked_of_reachable (history.reachable (time + 1))
  have bare : run.execution = ⟨[], run.execution.stack⟩ := by
    rw [← history.frames_of_aborted ended]
  have same : (configs (time + 1)).world.domain.suspension run.thread =
      (configs time).world.domain.suspension run.thread := by
    rw [made]
    exact Rests.finishRun run _ run.thread
  have records := Domain.suspension_of_present given
  refine ⟨answers, _, given, congrArg some bare, rfl, ⟨?_, fun unhooked => ?_⟩, ?_⟩
  · rintro ⟨clean, _⟩ ⟨since, past, left⟩
    have suspended := history.suspended_of_left (Nat.le_of_lt past) left
    rw [← same, records, clean] at suspended
    cases suspended
  · have clean := (history.clean_or_left handed (by simp [ended])).resolve_right unhooked
    rw [← same] at clean
    refine ⟨records.symm.trans clean, fun queue waiting => ?_⟩
    have waits := linked.waiting_iff.2 ⟨queue, waiting⟩
    rw [clean] at waits
    cases waits
  · intro clean later queue after waiting
    have waits := (linked_of_reachable (history.reachable later)).waiting_iff.2 ⟨queue, waiting⟩
    exact history.parks_of_waiting after (records.trans clean) waits

end

/-- The thread of the run that has just been aborted. -/
def aborted? (config : Config ν σ) : Option ThreadId :=
  match config.focus with
  | .ended run (.aborted _) => some run.thread
  | _ => none

/-- A run of this thread has just been aborted. -/
theorem aborted?_eq_some {thread : ThreadId} (found : config.aborted? = some thread) :
    ∃ run info, config.focus = .ended run (.aborted info) ∧ run.thread = thread := by
  unfold aborted? at found
  split at found
  · rename_i run info focus
    exact ⟨run, info, focus, Option.some.inj found⟩
  · cases found

/-- A hook has ended. -/
def hooked (config : Config ν σ) : Bool :=
  match config.focus, config.pending with
  | .body (.done _), .aborting _ :: _ => true
  | _, _ => false

/-- Where a thread has been left suspended a hook has ended. -/
theorem LeftSince.hooked {configs : Nat → Config ν σ} {thread : ThreadId} {since time : Nat}
    (left : LeftSince configs thread since time) : (configs since).hooked = true := by
  obtain ⟨value, next, rest, focus, pending, _⟩ := left.leaves.hook
  unfold Config.hooked
  rw [focus, pending]

/-- A function that calls its native method without arguments. -/
def quitting : Definition Unit where
  name := "quitting"
  code := #[0x29, 0, 0, 0x2D]
  methods := #[()]

/-- The host runs the function on a new thread, after it has created a queue. -/
def running : Program Unit Unit Int32 := do
  let _ ← Program.update (.addFunction (.trusted quitting 0))
  let _ ← Program.update .createThread
  let _ ← Program.update .createQueue
  let _ ← Program.request (.run ⟨0⟩ ⟨0⟩)
  return 0

/-- The first thread is parked. -/
def parking : Program Unit Unit Int32 := do
  let _ ← Program.update (.park ⟨1⟩ ⟨0⟩)
  return 0

/-- The first thread is aborted, and parked before the abort is honored. -/
def abortingThenParking : Program Unit Unit Int32 := do
  let _ ← Program.request (.abort ⟨0⟩)
  parking

/-- The first thread is aborted, and suspended with a hook before the abort is honored. -/
def abortingThenArming : Program Unit Unit Int32 := do
  let _ ← Program.request (.abort ⟨0⟩)
  let _ ← Program.update (.suspend ⟨0⟩ (some (.custom ())))
  return 0

/-- A host whose native methods abort the thread and park it. -/
def yieldingHost : Host Unit Unit where
  native _ _ := abortingThenParking
  onAbort _ _ := parking
  onLimit _ _ state := state
  onEvent _ _ state := state

/-- A host whose native methods abort the thread and arm a hook, which parks it. -/
def clingingHost : Host Unit Unit where
  native _ _ := abortingThenArming
  onAbort _ _ := parking
  onLimit _ _ state := state
  onEvent _ _ state := state

/-- A thread that has been aborted and parked in one native call waits nowhere when its run
returns. -/
theorem aborted_runs_leave_no_residue_parked :
    let configs := fun time => (Config.initial {} () running).run yieldingHost time
    History yieldingHost (fun _ => True) configs ∧
      ∃ run info, (configs 9).focus = .ended run (.aborted info) ∧ run.thread = ⟨0⟩ ∧
        ((configs 8).world.domain.waitersOf ⟨1⟩ = [⟨0⟩]) ∧
        ∀ queue, ⟨0⟩ ∉ (configs 10).world.domain.waitersOf queue := by
  intro configs
  have history : History yieldingHost (fun _ => True) configs :=
    .of_initial () (Program.asks_of_forall (fun _ => trivial) _)
  obtain ⟨run, info, ended, same⟩ :=
    aborted?_eq_some (by decide +kernel : (configs 9).aborted? = some ⟨0⟩)
  obtain ⟨_, thread, _, _, _, exactly, _⟩ := aborted_runs_leave_no_residue history ended
  refine ⟨history, run, info, ended, same, by decide +kernel, ?_⟩
  rw [← same]
  refine (exactly.2 ?_).2
  rintro ⟨since, past, left⟩
  have none : ∀ moment < 9, (configs moment).hooked = false := by decide +kernel
  exact Bool.false_ne_true ((none since past).symm.trans left.hooked)

/-- A thread whose run has been aborted waits in a queue when the run returns: its hook has parked
it. -/
theorem aborted_run_leaves_waiter :
    let configs := fun time => (Config.initial {} () running).run clingingHost time
    History clingingHost (fun _ => True) configs ∧
      (∃ run info, (configs 11).focus = .ended run (.aborted info) ∧ run.thread = ⟨0⟩) ∧
      ((configs 12).world.domain.suspension ⟨0⟩).suspended = true ∧
      (configs 12).world.domain.waitersOf ⟨1⟩ = [⟨0⟩] := by
  intro configs
  exact ⟨.of_initial () (Program.asks_of_forall (fun _ => trivial) _),
    aborted?_eq_some (by decide +kernel), by decide +kernel, by decide +kernel⟩

end Config

end ScriptMachine

import ScriptMachine.Proofs.AbortRequests
import ScriptMachine.Proofs.Callbacks

/-!
# Honored aborts

When an abort of a thread is requested while a native method that its run has called is in progress,
the run stops once the method has answered, whatever else the method has done and however deep below
it the request was made. The run ends as aborted for the first such request, at the call of the
method. No other native method's answer aborts the run, and nothing of the request is left when
whoever has started the run goes on.
-/

namespace ScriptMachine

variable {ν σ : Type}

/-- A run as it is later: of the same thread, and for the same request. -/
structure Run.Lasts (run later : Run ν σ) : Prop where
  thread : later.thread = run.thread
  purpose : later.purpose = run.purpose
  reply : later.reply = run.reply

namespace Run.Lasts

/-- A run as it is. -/
theorem refl (run : Run ν σ) : run.Lasts run := ⟨rfl, rfl, rfl⟩

/-- Saving a frame. -/
theorem saveFrame (run : Run ν σ) (pc top : Nat) : run.Lasts (run.saveFrame pc top) := by
  unfold Run.saveFrame
  split <;> exact ⟨rfl, rfl, rfl⟩

end Run.Lasts

namespace Config

variable {host : Host ν σ} {config : Config ν σ} {run : Run ν σ} {registers : Registers ν}
  {rest : List (Pending ν σ)} {info : AbortInfo}

/-- A run stops: it has ended as aborted, or the hook of the abort that stops it is in progress. -/
inductive Stopping (run : Run ν σ) (info : AbortInfo) (rest : List (Pending ν σ))
    (config : Config ν σ) : Prop where
  | ended (last : Run ν σ) (focus : config.focus = .ended last (.aborted info))
    (lasts : run.Lasts last) (pending : config.pending = rest)
  | hooked (last : Run ν σ) (function : Function ν) (inner : List (Pending ν σ))
    (lasts : run.Lasts last) (name : function.name = info.function)
    (pending : config.pending =
      inner ++ .aborting (.stop last function info.pc info.reason) :: rest)
  | faulted (fault : Fault) (focus : config.focus = .faulted fault)

/-- Whoever has started a run goes on, told that the run has been aborted, and no abort is requested
of its thread any more. -/
structure Reports (run : Run ν σ) (info : AbortInfo) (rest : List (Pending ν σ))
    (config : Config ν σ) : Prop where
  focus : ∃ stack,
    config.focus = .body (run.reply (run.purpose.answer run.thread (.aborted info) stack))
  pending : config.pending = rest
  cleared : config.world.domain.abortRequest? run.thread = none

/-- A run goes on after a native method, or is suspended as the method has asked for. -/
inductive Proceeds (run : Run ν σ) (rest : List (Pending ν σ)) (config : Config ν σ) : Prop where
  | executes (later : Run ν σ) (registers : Registers ν)
    (focus : config.focus = .execute later registers) (lasts : run.Lasts later)
    (pending : config.pending = rest)
  | suspended (later : Run ν σ) (focus : config.focus = .ended later .suspended)
    (lasts : run.Lasts later) (pending : config.pending = rest)
  | faulted (fault : Fault) (focus : config.focus = .faulted fault)

/-! ## The answer of a native method -/

/-- A run that is aborted. -/
theorem Stopping.abortRun {last : Run ν σ} {function : Function ν} {pc : Nat}
    {reason : AbortReason} (lasts : run.Lasts last) (above : config.pending = rest) :
    (config.abortRun host last function pc reason).Stopping run ⟨function.name, pc, reason⟩ rest :=
  .ended (last.setFrames []) rfl ⟨lasts.thread, lasts.purpose, lasts.reply⟩ above

/-- A thread that is detached to stop its run. -/
theorem Stopping.detach {last : Run ν σ} {id : ThreadId} {function : Function ν} {pc : Nat}
    {reason : AbortReason} (lasts : run.Lasts last) (above : config.pending = rest) :
    (config.detach host id (.stop last function pc reason)).Stopping run
      ⟨function.name, pc, reason⟩ rest := by
  refine attempt_induction (fun fault => .faulted fault rfl) fun ⟨domain, hook⟩ _ => ?_
  dsimp only
  split
  · exact abortRun lasts above
  · exact abortRun lasts above
  · exact .hooked last function [] lasts rfl (congrArg _ above)

/-- If an abort has been requested, the run stops when its native method has answered, whether or
not the thread has been suspended. -/
theorem Stopping.returnNative {call : NativeCall} {reason : AbortReason} (value : Int32)
    (asked : config.world.domain.abortRequest? run.thread = some reason)
    (above : config.pending = rest) :
    (config.returnNative host run registers call value).Stopping run
      ⟨registers.function.name, call.pc, reason⟩ rest := by
  refine returnNative_induction fun shown emitted => ⟨fun fault => .faulted fault rfl,
    fun stack thread _ present => ?_⟩
  replace above : shown.pending = rest := by rw [← emitted, emit_pending, above]
  rw [← emitted, emit_world] at present
  rw [Domain.abortRequest?_of_present present] at asked
  refine ⟨fun other recorded => ?_, fun unasked _ => ?_, fun unasked _ => ?_⟩
  · obtain rfl := Option.some.inj (asked.symm.trans recorded)
    exact detach ⟨rfl, rfl, rfl⟩ above
  · cases asked.symm.trans unasked
  · cases asked.symm.trans unasked

/-- If no abort has been requested, the run is not aborted when its native method has answered. -/
theorem Proceeds.returnNative {call : NativeCall} (value : Int32)
    (unasked : config.world.domain.abortRequest? run.thread = none)
    (above : config.pending = rest) :
    (config.returnNative host run registers call value).Proceeds run rest := by
  refine returnNative_induction fun shown emitted => ⟨fun fault => .faulted fault rfl,
    fun stack thread _ present => ?_⟩
  replace above : shown.pending = rest := by rw [← emitted, emit_pending, above]
  rw [← emitted, emit_world] at present
  rw [Domain.abortRequest?_of_present present] at unasked
  refine ⟨fun reason recorded => ?_, fun _ _ => ?_, fun _ _ => ?_⟩
  · cases unasked.symm.trans recorded
  · have lasts := Run.Lasts.saveFrame (run.setStack stack) registers.pc registers.sp
    exact .suspended _ rfl ⟨lasts.thread, lasts.purpose, lasts.reply⟩ (by simp [above])
  · exact .executes _ registers rfl ⟨rfl, rfl, rfl⟩ above

/-! ## Until the run has stopped -/

/-- A run that stops has stopped after the next step, or stops still. -/
theorem Stopping.step (stopping : config.Stopping run info rest) :
    (config.step host).Stopping run info rest ∨ (config.step host).Reports run info rest := by
  cases stopping with
  | ended last focus lasts pending =>
    rcases step_of_ended host focus with ⟨fault, faulted⟩ | ⟨answers, below⟩
    · exact .inl (.faulted fault faulted)
    · right
      refine ⟨⟨last.execution.stack, ?_⟩, below.trans pending, ?_⟩
      · rw [answers, lasts.thread, lasts.purpose, lasts.reply]
      · have made : config.step host = config.finishRun host last (.aborted info) := by
          simp only [Config.step, focus]
        rw [made] at answers ⊢
        cases @Cleared.finishRun _ _ host config last (.aborted info) with
        | faulted fault faulted =>
          rw [faulted] at answers
          cases answers
        | cleared unrequested =>
          rw [← lasts.thread]
          exact unrequested
  | hooked last function inner lasts name pending =>
    left
    rcases @step_waiting _ _ host _ _ _ _ pending with ⟨more, below⟩ | ⟨rfl, value, ended⟩ |
      ⟨fault, faulted⟩
    · exact .hooked last function more lasts name below
    · rw [step_of_aborting ended pending]
      have same : info = ⟨function.name, info.pc, info.reason⟩ := by rw [name]
      rw [same]
      exact abortRun lasts rfl
    · exact .faulted fault faulted
  | faulted fault focus =>
    left
    rw [step_of_isFinal host (by simp [isFinal, focus])]
    exact .faulted fault focus

/-- A run that stops goes on stopping until whoever has started it is told. -/
theorem Stopping.until_reported (stopping : config.Stopping run info rest) (moment : Nat) :
    (∀ between ≤ moment, (config.run host between).Stopping run info rest) ∨
      ∃ told ≤ moment, (∀ between < told, (config.run host between).Stopping run info rest) ∧
        (config.run host told).Reports run info rest := by
  induction moment with
  | zero =>
    refine .inl fun between upTo => ?_
    obtain rfl : between = 0 := by omega
    exact stopping
  | succ moment ih =>
    rcases ih with still | ⟨told, upTo, before, reports⟩
    · rcases @Stopping.step _ _ host _ _ _ _ (still moment (Nat.le_refl _)) with next | reports
      · refine .inl fun between upTo => ?_
        rcases Nat.eq_or_lt_of_le upTo with rfl | earlier
        · rw [run_succ_last]
          exact next
        · exact still between (by omega)
      · refine .inr ⟨moment + 1, Nat.le_refl _, fun between earlier => still between (by omega), ?_⟩
        rw [run_succ_last]
        exact reports
    · exact .inr ⟨told, by omega, before, reports⟩

/-! ## While the native method is in progress -/

/-- A run waits for a native method that it has called, or for the hook of the abort that stops it.
What they have started in turn lies above. -/
def Waits (run : Run ν σ) (rest : List (Pending ν σ)) (config : Config ν σ) : Prop :=
  ∃ inner work last, config.pending = inner ++ work :: rest ∧ work.run? = some last ∧ run.Lasts last

/-- A run that waits is among those that do. -/
theorem Waits.listed (waits : config.Waits run rest) :
    run.thread ∈ (config.pending.filterMap Pending.place?).map Place.thread := by
  obtain ⟨inner, work, last, pending, holds, lasts⟩ := waits
  rw [pending]
  simp [Pending.place?, holds, Run.place, lasts.thread]

/-- The thread of a run that waits runs. -/
theorem Waits.running (waits : config.Waits run rest) (nested : config.Nested)
    (works : ∀ fault, config.focus ≠ .faulted fault) :
    ∃ thread, config.world.domain.thread? run.thread = some thread ∧ thread.execution = none := by
  rcases nested with ⟨fault, faulted⟩ | ⟨nests, _⟩
  · exact absurd faulted (works fault)
  · rw [← nests.domain.running, List.map_append]
    exact List.mem_append_right _ waits.listed

/-- The run at hand is of another thread than a run that waits. -/
theorem Waits.apart (waits : config.Waits run rest) (nested : config.Nested) {other : Run ν σ}
    (handed : config.focus.run? = some other) : other.thread ≠ run.thread := by
  intro same
  have apart := nested.apart handed
  rw [same] at apart
  exact apart waits.listed

/-- A run that has called a native method waits. -/
theorem Waits.of_calling {inner : List (Pending ν σ)} {after : Registers ν} {call : NativeCall}
    (pending : config.pending = inner ++ .calling run after call :: rest) :
    config.Waits run rest := ⟨inner, _, run, pending, rfl, .refl run⟩

/-- Nothing honors a request for an abort before the native method has answered. -/
theorem not_honors_of_calling {inner : List (Pending ν σ)} {after : Registers ν} {call : NativeCall}
    (pending : config.pending = inner ++ .calling run after call :: rest) (nested : config.Nested)
    (unanswered : inner = [] → ∀ value, config.focus ≠ .body (.done value)) :
    ¬config.Honors run.thread := by
  rintro (⟨other, outcome, focus, same⟩ | ⟨value, other, registers, last, below, focus, top, same⟩)
  · exact (Waits.of_calling pending).apart nested (by rw [focus]; rfl) same
  · cases inner with
    | nil => exact unanswered rfl value focus
    | cons upper inner =>
      rcases nested with ⟨fault, faulted⟩ | ⟨nests, _⟩
      · rw [focus] at faulted
        cases faulted
      · -- the thread of the run that goes on would be that of two runs in progress
        have distinct := nests.domain.distinct
        rw [focus, pending] at distinct
        rw [top] at pending
        obtain ⟨rfl, _⟩ := List.cons.inj pending
        have apart := (List.nodup_cons.1 distinct).1
        exact apart (by simp [Run.place, same])

/-- Until a body returns, the work right below it waits. -/
theorem Returns.waits {steps moment : Nat} {value : Int32} {work : Pending ν σ}
    (returns : config.Returns host steps value) (waits : config.pending = work :: rest)
    (upTo : moment ≤ steps) :
    ∃ inner, (config.run host moment).pending = inner ++ work :: rest := by
  rcases @run_waiting _ _ host _ _ _ waits moment with still |
    ⟨middle, earlier, ⟨other, ended⟩, level⟩ | ⟨fault, faulted⟩
  · exact still
  · exact absurd ended (returns.first middle (by omega) (by rw [level, waits]) other)
  · exact absurd faulted (returns.works upTo fault)

/-- When a body returns, nothing waits above the work right below it. -/
theorem Returns.pending {steps : Nat} {value : Int32} {work : Pending ν σ}
    (returns : config.Returns host steps value) (waits : config.pending = work :: rest) :
    (config.run host steps).pending = work :: rest := by
  obtain ⟨inner, pending⟩ := returns.waits waits (Nat.le_refl steps)
  have level := returns.level
  rw [pending, waits] at level
  simp only [List.length_append, List.length_cons] at level
  have bare : inner = [] := List.length_eq_zero_iff.1 (by omega)
  rw [pending, bare, List.nil_append]

/-- The first abort of a thread that is asked for is this one, at this moment. -/
structure FirstAsked (host : Host ν σ) (config : Config ν σ) (id : ThreadId) (time : Nat)
    (reason : AbortReason) : Prop where
  asked : (config.run host time).asksAbort? id = some reason
  first : ∀ earlier < time, (config.run host earlier).asksAbort? id = none

/-- There is only one first request. -/
theorem FirstAsked.unique {id : ThreadId} {time later : Nat} {reason other : AbortReason}
    (first : config.FirstAsked host id time reason)
    (second : config.FirstAsked host id later other) : reason = other := by
  rcases Nat.lt_trichotomy time later with before | rfl | after
  · have none := second.first time before
    rw [first.asked] at none
    cases none
  · exact Option.some.inj (first.asked.symm.trans second.asked)
  · have none := first.first later after
    rw [second.asked] at none
    cases none

/-- While a native method is in progress, its run's thread records the first request that has been
made since it was called. -/
theorem Returns.recorded {steps moment : Nat} {value : Int32} {after : Registers ν}
    {call : NativeCall} (returns : config.Returns host steps value)
    (waits : config.pending = .calling run after call :: rest)
    (nested : ∀ time, (config.run host time).Nested)
    (unasked : config.world.domain.abortRequest? run.thread = none) (upTo : moment ≤ steps) :
    (∀ time < moment, (config.run host time).asksAbort? run.thread = none) ∧
        (config.run host moment).world.domain.abortRequest? run.thread = none ∨
      ∃ time < moment, ∃ reason, config.FirstAsked host run.thread time reason ∧
        (config.run host moment).world.domain.abortRequest? run.thread = some reason := by
  induction moment with
  | zero => exact .inl ⟨fun time earlier => by omega, unasked⟩
  | succ moment ih =>
    obtain ⟨inner, pending⟩ := returns.waits waits (by omega : moment ≤ steps)
    have works := fun fault => returns.works (by omega : moment ≤ steps) fault
    have unanswered (bare : inner = []) (other : Int32) :
        (config.run host moment).focus ≠ .body (.done other) := by
      refine returns.first moment (by omega) ?_ other
      rw [pending, bare, waits, List.nil_append]
    have stays := not_honors_of_calling pending (nested moment) unanswered
    obtain ⟨thread, present, taken⟩ := (Waits.of_calling pending).running (nested moment) works
    have after : ∀ fault, ((config.run host moment).step host).focus ≠ .faulted fault := by
      intro fault
      rw [← run_succ_last]
      exact returns.works upTo fault
    have recorded := step_abortRequest? (nested moment) present taken stays after
    rw [← run_succ_last] at recorded
    rcases ih (by omega) with ⟨quiet, none⟩ | ⟨time, earlier, reason, first, found⟩
    · replace recorded : (config.run host (moment + 1)).world.domain.abortRequest? run.thread =
          (config.run host moment).asksAbort? run.thread := by
        rw [recorded, none]
        rfl
      cases asked : (config.run host moment).asksAbort? run.thread with
      | none =>
        rw [asked] at recorded
        refine .inl ⟨fun time earlier => ?_, recorded⟩
        rcases Nat.eq_or_lt_of_le (Nat.le_of_lt_succ earlier) with rfl | before
        · exact asked
        · exact quiet time before
      | some reason =>
        rw [asked] at recorded
        exact .inr ⟨moment, Nat.lt_succ_self _, reason, ⟨asked, quiet⟩, recorded⟩
    · rw [found] at recorded
      exact .inr ⟨time, by omega, reason, first, recorded⟩

/-! ## Aborts that are requested during a native call -/

/-- No instruction of a run is executed: if a run is at hand that has not ended, it is of another
thread. -/
def Silent (run : Run ν σ) (config : Config ν σ) : Prop :=
  ∀ other, config.focus.run? = some other → (∀ outcome, config.focus ≠ .ended other outcome) →
    other.thread ≠ run.thread

/-- No instruction of a run that waits is executed. -/
theorem Waits.silent (waits : config.Waits run rest) (nested : config.Nested) :
    config.Silent run := fun _ handed _ => waits.apart nested handed

/-- No instruction of a run that stops is executed. -/
theorem Stopping.silent (stopping : config.Stopping run info rest) (nested : config.Nested) :
    config.Silent run := by
  cases stopping with
  | ended last focus lasts pending =>
    intro other handed goes
    rw [focus] at handed goes
    cases handed
    exact absurd rfl (goes _)
  | hooked last function inner lasts name pending =>
    have waits : config.Waits run rest := ⟨inner, _, last, pending, rfl, lasts⟩
    exact waits.silent nested
  | faulted fault focus =>
    intro other handed
    rw [focus] at handed
    cases handed

/-- After its native method has returned, a run stops, until whoever has started it is told that it
has been aborted. From the native call on no instruction of it has been executed then. -/
def StopsAfter (host : Host ν σ) (config : Config ν σ) (steps : Nat) (run : Run ν σ)
    (info : AbortInfo) (rest : List (Pending ν σ)) : Prop :=
  ∀ moment, steps < moment →
    ((config.run host moment).Stopping run info rest ∧
        ∀ between ≤ moment, (config.run host between).Silent run) ∨
      ∃ told, steps < told ∧ told ≤ moment ∧ (config.run host told).Reports run info rest ∧
        ∀ between < told, (config.run host between).Silent run

/-- A run stops if it does so when its native method has returned. -/
theorem Returns.stopsAfter {steps : Nat} {value : Int32} {after : Registers ν}
    {call : NativeCall} (returns : config.Returns host steps value)
    (waits : config.pending = .calling run after call :: rest)
    (nested : ∀ time, (config.run host time).Nested)
    (stopping : (config.run host (steps + 1)).Stopping run info rest) :
    config.StopsAfter host steps run info rest := by
  -- as long as the run stops it is silent
  have silent {left between : Nat}
      (still : ∀ time < left, ((config.run host (steps + 1)).run host time).Stopping run info rest)
      (upTo : between < steps + 1 + left) : (config.run host between).Silent run := by
    rcases Nat.lt_or_ge steps between with later | during
    · have stops := still (between - (steps + 1)) (by omega)
      rw [← run_add, Nat.add_sub_cancel' later] at stops
      exact stops.silent (nested between)
    · obtain ⟨inner, pending⟩ := returns.waits waits during
      exact (Waits.of_calling pending).silent (nested between)
  intro moment after
  obtain ⟨left, rfl⟩ : ∃ left, moment = steps + 1 + left := ⟨moment - (steps + 1), by omega⟩
  rcases @Stopping.until_reported _ _ host _ _ _ _ stopping left with still |
    ⟨told, upTo, before, reports⟩
  · have upTo : ∀ time < left + 1,
        ((config.run host (steps + 1)).run host time).Stopping run info rest :=
      fun time earlier => still time (by omega)
    refine .inl ⟨?_, fun between earlier => silent upTo (by omega)⟩
    rw [run_add]
    exact still left (Nat.le_refl _)
  · refine .inr ⟨steps + 1 + told, by omega, by omega, ?_, fun between => silent before⟩
    rw [run_add]
    exact reports

/-- If an abort of the thread of a run is asked for while a native method that the run has called is
in progress, by whomever and however deep below it, then no instruction of the run is executed any
more, whatever else happens before the method returns. The run ends as aborted for the first such
request at the call of the method, and nothing of the request is left when whoever has started the
run is told. If no abort has been asked for since the call, the run is not aborted when the method
returns. -/
theorem requested_abort_honored {allowed : Request ν → Prop} {body : Body ν σ} {steps : Nat}
    {value : Int32} (reached : config.Reachable host allowed)
    (executes : config.focus = .execute run registers)
    (calls : (config.step host).focus = .body body)
    (returns : (config.step host).Returns host steps value) :
    (∀ time < steps, ∀ reason, (config.step host).FirstAsked host run.thread time reason →
        (config.step host).StopsAfter host steps run ⟨registers.function.name, registers.pc, reason⟩
          config.pending) ∧
      ((∀ time < steps, ((config.step host).run host time).asksAbort? run.thread = none) →
        ((config.step host).run host (steps + 1)).Proceeds run config.pending) := by
  have made : config.step host = config.execute host run registers := by
    simp only [step, executes]
  obtain ⟨after, call, waits, function, pc⟩ :
      run.CallsNative registers config.pending (config.step host).pending := by
    rw [made] at calls ⊢
    exact AtBody.execute rfl body calls
  have nested (time : Nat) : ((config.step host).run host time).Nested :=
    nested_of_reachable (reached.step.run time)
  have unasked : (config.step host).world.domain.abortRequest? run.thread = none := by
    rw [made]
    have before := unrequested_of_reachable reached run (by rw [executes]; rfl) (by simp [executes])
    exact (Quiet.of_threads (threads_execute run registers)).unrequested before
  -- when the native method has ended, nothing else waits above its run
  have pending : ((config.step host).run host steps).pending =
      .calling run after call :: config.pending := by
    obtain ⟨inner, pending⟩ := returns.waits waits (Nat.le_refl steps)
    have level := returns.level
    rw [pending, waits] at level
    simp only [List.length_append, List.length_cons] at level
    have bare : inner = [] := List.length_eq_zero_iff.1 (by omega)
    rw [pending, bare, List.nil_append]
  have goes := @step_of_calling _ _ host _ _ _ _ _ _ returns.ends pending
  rw [← run_succ_last] at goes
  rw [← function, ← pc]
  rcases returns.recorded waits nested unasked (Nat.le_refl steps) with ⟨quiet, none⟩ |
    ⟨first, earlier, reason, asked, found⟩
  · refine ⟨fun time before reason asked => ?_, fun _ => ?_⟩
    · have nothing := quiet time before
      rw [asked.asked] at nothing
      cases nothing
    · rw [goes]
      exact .returnNative value none rfl
  · refine ⟨fun time before other again => ?_, fun quiet => ?_⟩
    · rw [again.unique asked]
      refine returns.stopsAfter waits nested ?_
      rw [goes]
      exact .returnNative value found rfl
    · have nothing := quiet first earlier
      rw [asked.asked] at nothing
      cases nothing

/-- The host runs a function on the first of two threads. -/
def runningFirst : Program Unit Nat Int32 := do
  let _ ← Program.update (.addFunction (.trusted quitting 0))
  let _ ← Program.update .createThread
  let _ ← Program.update .createThread
  let _ ← Program.request (.run ⟨0⟩ ⟨0⟩)
  return 0

/-- The function is run on the second thread, and the first one is parked. -/
def runningSecondThenParking : Program Unit Nat Int32 := do
  let _ ← Program.request (.run ⟨1⟩ ⟨0⟩)
  let _ ← Program.update (.park ⟨1⟩ ⟨0⟩)
  return 0

/-- The first thread is aborted. -/
def abortingFirst : Program Unit Nat Int32 := do
  let _ ← Program.request (.abort ⟨0⟩)
  return 0

/-- A host that counts the calls of its native methods. The first one runs the second thread and
parks the first one, and the others abort the first thread. -/
def nestingHost : Host Unit Nat where
  native _ _ := .modify (· + 1) fun calls =>
    if calls = 1 then runningSecondThenParking else abortingFirst
  onAbort _ _ := .done 0
  onLimit _ _ state := state
  onEvent _ _ state := state

/-- A run is aborted for a request that the run of another thread has made within its native call,
although its own thread has been parked since. -/
theorem requested_abort_honored_nested :
    let config := (Config.initial {} 0 runningFirst).run nestingHost 5
    ∃ run registers, config.Reachable nestingHost (fun _ => True) ∧
      config.focus = .execute run registers ∧
      ((config.step nestingHost).run nestingHost 11).world.domain.waitersOf ⟨1⟩ = [⟨0⟩] ∧
      ∃ told, 11 < told ∧ told ≤ 13 ∧ ((config.step nestingHost).run nestingHost told).Reports run
        ⟨registers.function.name, registers.pc, .requested⟩ config.pending := by
  intro config
  have reached : config.Reachable nestingHost (fun _ => True) :=
    (Reachable.initial 0 runningFirst (Program.asks_of_forall (fun _ => trivial) _)).run 5
  obtain ⟨run, registers, executes⟩ : ∃ run registers, config.focus = .execute run registers :=
    ⟨_, _, rfl⟩
  obtain ⟨body, calls⟩ : ∃ body, (config.step nestingHost).focus = .body body := ⟨_, rfl⟩
  have returns : (config.step nestingHost).Returns nestingHost 11 0 :=
    .of_answered? (by decide +kernel) (by decide +kernel) (by decide +kernel)
  have thread : run.thread = ⟨0⟩ := by
    have same : config.focus.run?.map Run.thread = some ⟨0⟩ := by decide +kernel
    rw [executes] at same
    exact Option.some.inj same
  have asked : (config.step nestingHost).FirstAsked nestingHost run.thread 5 .requested := by
    rw [thread]
    exact ⟨by decide +kernel, by decide +kernel⟩
  refine ⟨run, registers, reached, executes, by decide +kernel, ?_⟩
  have honored := (requested_abort_honored reached executes calls returns).1 5 (by omega) _ asked
  rcases honored 13 (by omega) with ⟨stopping, _⟩ | ⟨told, after, upTo, reports, _⟩
  · -- by then the run has stopped
    have idle : ((config.step nestingHost).run nestingHost 13).focus.run?.isNone = true := by
      decide +kernel
    have works : ((config.step nestingHost).run nestingHost 13).isFinal = false := by
      decide +kernel
    have alone : ((config.step nestingHost).run nestingHost 13).pending.length = 0 := by
      decide +kernel
    cases stopping with
    | ended last focus lasts pending =>
      rw [focus] at idle
      cases idle
    | hooked last function inner lasts name pending =>
      rw [pending] at alone
      simp only [List.length_append, List.length_cons] at alone
      omega
    | faulted fault focus =>
      rw [isFinal, focus] at works
      cases works
  · exact ⟨told, after, upTo, reports⟩

end Config

end ScriptMachine

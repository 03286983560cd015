import ScriptMachine.Proofs.Lockstep

/-!
# Pausing and answering at once

Two machines in lockstep that call a native method are in lockstep again once it has answered, also
if it pauses in the second one and the host has to supply the result. Each pause uses up some of the
host's patience, and each step of the first machine leads to one pause at most. By induction over
the steps of the first machine, the second keeps up with it to the end: the run ends, and the host
records the outcome.
-/

namespace ScriptMachine

variable {ν σ : Type}

/-- Writing globals leaves the thread running. -/
theorem Domain.Runs.setGlobals {domain : Domain ν} {schedule : Nat → Option Pause} {id : ThreadId}
    {thread : Thread ν} (runs : domain.Runs schedule id thread) (globals : Array Int32) :
    Domain.Runs { domain with globals } schedule id thread := { runs with }

/-- The second of two runs in lockstep pauses and is resumed over the same operand stack, with all
of the loop budget. -/
theorem Run.Twins.resume {id : ThreadId} {rounds limit : Nat}
    {first second resumed : Run ν (Transcript ν)} (runs : first.Twins id (rounds + 1) limit second)
    (thread : resumed.thread = second.thread) (previous : resumed.previous = second.previous)
    (reply : resumed.reply = Program.settle second.thread rounds) (budget : resumed.budget = limit)
    {stack : Array Int32} (stored : resumed.execution.stack = stack) :
    (first.setStack stack).Twins id rounds limit resumed where
  thread := ⟨runs.thread.1, thread.trans runs.thread.2⟩
  previous := previous.trans runs.previous
  stack := stored
  budget := by
    rw [budget]
    exact runs.limit
  limit := runs.limit
  reply := by
    rw [reply, runs.thread.2]
    exact ⟨runs.reply.1, rfl⟩

namespace Config

/-- A result that is stored lies in a slot of the operand stack. -/
theorem storeResult_int_eq_ok {stack next : Array Int32} {base : Nat} {value : Int32}
    (stored : storeResult stack .int base value = .ok next) :
    base < stack.size ∧ stack.set! base value = next := by
  unfold storeResult at stored
  by_cases inside : base < stack.size
  · simp only [if_pos inside] at stored
    exact ⟨inside, Except.ok.inj stored⟩
  · simp only [if_neg inside] at stored
    cases stored

section

variable {environment : Environment ν} {schedule : Nat → Option Pause} {id : ThreadId}
  {rounds : Nat} {config : Config ν (Transcript ν)} {run : Run ν (Transcript ν)}
  {registers : Registers ν} {call : NativeCall} {method : ν} {arguments : List Int32}

/-- A native method that does not pause answers its result. -/
theorem passes_unpaused (alone : config.pending = []) (plan : Nat → Option Pause)
    (unpaused : plan config.state.calls.length = none) :
    (({ config with pending := [.calling run registers call] }).goto
        (.body (environment.native plan method arguments))).Passes (environment.host plan)
      (((environment.carry config method arguments none).goto (.body (.done
          (environment method arguments config.world.domain.globals).2))).returnNative
        (environment.host plan) run registers call
          (environment method arguments config.world.domain.globals).2) := by
  let result := (environment method arguments config.world.domain.globals).2
  let waiting : Config ν (Transcript ν) :=
    { config with pending := [.calling run registers call] }
  let carried := (environment.carry waiting method arguments none).goto (.body (.done result))
  have called := @Environment.passes_native _ environment plan (environment.host plan) waiting
    method arguments
  have silent : plan waiting.state.calls.length = none := unpaused
  rw [silent] at called
  have handed : carried.step (environment.host plan) =
      ({ carried with pending := [] }).returnNative (environment.host plan) run registers call
        result := step_answer rfl rfl
  have same : { carried with pending := [] } =
      (environment.carry config method arguments none).goto (.body (.done result)) := by
    simp only [carried, waiting, Environment.carry, goto, setDomain, ← alone]
  rw [same] at handed
  refine called.trans (.step ?_)
  change Passes _ (carried.step _) _
  rw [handed]
  exact .refl _

/-- A native method that does not pause fails to store its result, and the machine stops. -/
theorem passes_overrun (alone : config.pending = []) (plan : Nat → Option Pause)
    (unpaused : plan config.state.calls.length = none) {fault : Fault}
    (overrun : storeResult run.execution.stack call.result call.base
      (environment method arguments config.world.domain.globals).2 = .error fault) :
    (({ config with pending := [.calling run registers call] }).goto
        (.body (environment.native plan method arguments))).Passes (environment.host plan)
      ((environment.carry config method arguments none).goto (.faulted fault)) := by
  have answers := @passes_unpaused _ environment config run registers call method arguments alone
    plan unpaused
  simp only [returnNative, Environment.emit_host, overrun] at answers
  exact answers

/-- A native method that does not pause is followed by the next instruction. -/
theorem passes_answering {thread : Thread ν}
    (playing : config.world.domain.Runs schedule run.thread thread)
    (alone : config.pending = []) (plan : Nat → Option Pause)
    (unpaused : plan config.state.calls.length = none) {stack : Array Int32}
    (stored : storeResult run.execution.stack call.result call.base
      (environment method arguments config.world.domain.globals).2 = .ok stack) :
    (({ config with pending := [.calling run registers call] }).goto
        (.body (environment.native plan method arguments))).Passes (environment.host plan)
      ((environment.carry config method arguments none).goto
        (.execute (run.setStack stack) registers)) := by
  let result := (environment method arguments config.world.domain.globals).2
  let carried := (environment.carry config method arguments none).goto (.body (.done result))
  have playing' := playing.setGlobals (written config.world.domain.globals
    (environment method arguments config.world.domain.globals).1)
  have present : carried.world.domain.thread? run.thread = some thread := playing'.present
  have goes := @returnNative_continues _ environment plan carried run registers call result stack
    thread stored present playing.pendingAbort playing.suspended
  have answers := @passes_unpaused _ environment config run registers call method arguments alone
    plan unpaused
  change Passes _ _ (carried.returnNative _ run registers call result) at answers
  rw [goes] at answers
  exact answers

/-- A native method that pauses is followed by the next instruction as well, once the host has
supplied its result. -/
theorem passes_resuming {thread : Thread ν} {rest : List (Frame ν)}
    (playing : config.world.domain.Runs schedule run.thread thread)
    (alone : config.pending = []) {pause : Pause}
    (scheduled : schedule config.state.calls.length = some pause)
    (inFrame : run.InFrame registers rest) (height : registers.sp = call.base + 1)
    (answers : call.result = .int) (inside : call.base < run.execution.stack.size)
    (reply : run.reply = Program.settle run.thread (rounds + 1)) :
    ∃ resumed : Run ν (Transcript ν),
      (({ config with pending := [.calling run registers call] }).goto
          (.body (environment.native schedule method arguments))).Passes
        (environment.host schedule)
        ((environment.carry config method arguments none).goto (.execute resumed registers)) ∧
      resumed.thread = run.thread ∧ resumed.previous = run.previous ∧
      resumed.reply = Program.settle run.thread rounds ∧
      resumed.budget = config.world.domain.limits.loopBudget ∧ resumed.InFrame registers rest ∧
      resumed.execution.stack = run.execution.stack.set! call.base
        (environment method arguments config.world.domain.globals).2 := by
  let waiting : Config ν (Transcript ν) :=
    { config with pending := [.calling run registers call] }
  let carried := environment.carry waiting method arguments (some pause)
  have called := @Environment.passes_native _ environment schedule (environment.host schedule)
    waiting method arguments
  have paused : schedule waiting.state.calls.length = some pause := scheduled
  rw [paused] at called
  have playing' : carried.world.domain.Runs schedule run.thread thread :=
    playing.setGlobals (written config.world.domain.globals
      (environment method arguments config.world.domain.globals).1)
  obtain ⟨resumed, resumes, thread', previous, reply', budget, inFrame', stack⟩ :=
    @passes_pausing _ environment schedule carried thread rest run registers call playing' _ rounds
      pause scheduled inFrame height answers inside reply _ rfl rfl
  have same : { carried with
      state := { carried.state with owed := none }
      focus := .execute resumed registers
      pending := [] } =
        (environment.carry config method arguments none).goto (.execute resumed registers) := by
    simp only [carried, waiting, Environment.carry, goto, setDomain, Transcript.add, ← alone,
      Option.map_none]
  rw [same] at resumes
  exact ⟨resumed, called.trans resumes, thread', previous, reply', budget, inFrame', stack⟩

/-- The method has been carried out and the machines are in lockstep again. -/
theorem Twins.carry {first second : Run ν (Transcript ν)} {rounds' : Nat}
    (twins : config.Twins schedule id rounds (.execute first registers)
      (.execute second registers))
    {first' second' : Run ν (Transcript ν)} {rest : List (Frame ν)}
    (runs : first'.Twins id rounds' config.world.domain.limits.loopBudget second')
    (inFrame : first'.InFrame registers rest ∧ second'.InFrame registers rest) :
    Together schedule id rounds'
      ((environment.carry config method arguments none).goto (.execute first' registers))
      ((environment.carry config method arguments none).goto (.execute second' registers)) := by
  obtain ⟨thread, playing⟩ := twins.runs
  have playing' := playing.setGlobals (written config.world.domain.globals
    (environment method arguments config.world.domain.globals).1)
  exact ⟨environment.carry config method arguments none, _, _, rfl, rfl,
    ⟨twins.pending, rfl, ⟨thread, playing'⟩, .execute runs inFrame⟩⟩

/-- Two machines in lockstep that have called the same native method are in lockstep again once it
has answered, one pause later at most, unless it overruns the operand stack. -/
theorem Twins.answers {first second : Run ν (Transcript ν)}
    (twins : config.Twins schedule id (rounds + 1) (.execute first registers)
      (.execute second registers))
    (height : registers.sp = call.base + call.result.count)
    (unpaused : call.result = .void → schedule config.state.calls.length = none) :
    ∃ before after,
      (({ config with pending := [.calling first registers call] }).goto
        (.body (environment.native (fun _ => none) method arguments))).Passes
          (environment.host fun _ => none) before ∧
      (({ config with pending := [.calling second registers call] }).goto
        (.body (environment.native schedule method arguments))).Passes
          (environment.host schedule) after ∧
      ((∃ fault, before.focus = .faulted fault) ∨
        ∃ rounds' ≥ rounds, Together schedule id rounds' before after) := by
  let result := (environment method arguments config.world.domain.globals).2
  obtain ⟨thread, playing⟩ := twins.runs
  cases twins.focus with
  | @execute _ _ _ rest runs inFrame =>
    have playing₁ : config.world.domain.Runs schedule first.thread thread := by
      rw [runs.thread.1]
      exact playing
    have playing₂ : config.world.domain.Runs schedule second.thread thread := by
      rw [runs.thread.2]
      exact playing
    cases stored : storeResult first.execution.stack call.result call.base result with
    | error fault =>
      have stops := @passes_overrun _ environment config first registers call method arguments
        twins.pending (fun _ => none) rfl fault stored
      exact ⟨_, _, stops, .refl _, .inl ⟨fault, rfl⟩⟩
    | ok stack =>
      have goes := @passes_answering _ environment schedule config first registers call method
        arguments thread playing₁ twins.pending (fun _ => none) rfl stack stored
      cases planned : schedule config.state.calls.length with
      | none =>
        rw [← runs.stack] at stored
        have goes' := @passes_answering _ environment schedule config second registers call method
          arguments thread playing₂ twins.pending schedule planned stack stored
        exact ⟨_, _, goes, goes', .inr ⟨rounds + 1, by omega,
          twins.carry (runs.setStack stack) inFrame⟩⟩
      | some pause =>
        -- Only the second machine pauses, so the first one must have stored the same result.
        have int : call.result = .int := by
          cases kind : call.result with
          | void => rw [unpaused kind] at planned; cases planned
          | int => rfl
        rw [int] at stored height
        obtain ⟨inside, rfl⟩ : call.base < first.execution.stack.size ∧
            first.execution.stack.set! call.base result = stack := storeResult_int_eq_ok stored
        have reply : second.reply = Program.settle second.thread (rounds + 1) := by
          rw [runs.thread.2]
          exact runs.reply.2
        rw [← runs.stack] at inside
        obtain ⟨resumed, goes', thread', previous, reply', budget, inFrame', stack⟩ :=
          @passes_resuming _ environment schedule rounds config second registers call method
            arguments thread rest playing₂ twins.pending pause planned inFrame.2 height int inside
            reply
        rw [runs.stack] at stack
        have runs' := runs.resume thread' previous reply' budget stack
        exact ⟨_, _, goes, goes', .inr ⟨rounds, Nat.le_refl _,
          twins.carry runs' ⟨inFrame.1, inFrame'⟩⟩⟩

end

end Config

/-! ## Ends of runs -/

/-- Once a run has ended other than by a suspension the host records that and does no more. -/
theorem Program.settle_awake {answer : Answer ν} (awake : answer.outcome? ≠ some .suspended)
    (id : ThreadId) (rounds : Nat) : Program.settle id rounds answer = Program.conclude answer := by
  cases rounds with
  | zero => rfl
  | succ rounds =>
    unfold Program.settle
    split
    · rename_i asleep
      exact absurd asleep awake
    · rfl

namespace Config

section

variable {environment : Environment ν} {schedule : Nat → Option Pause} {id : ThreadId}
  {rounds steps : Nat} {config before after middle middle' : Config ν (Transcript ν)}
  {first second : Run ν (Transcript ν)}

/-- The host records how a run has ended, and comes to its end. -/
theorem passes_conclude {host : Host ν (Transcript ν)} (alone : config.pending = [])
    (answer : Answer ν) :
    (config.goto (.body (Program.conclude answer))).Passes host { config with
      state := { config.state with ending := answer.outcome? }
      focus := .finished 0 } := by
  let recorded : Config ν (Transcript ν) := { config with
    state := { config.state with ending := answer.outcome? }
    focus := .body (.done 0) }
  have finishes : recorded.step host = recorded.goto (.finished 0) := by
    simp only [recorded, Config.step, finishBody, alone]
  apply Passes.step
  change Passes _ recorded _
  apply Passes.step
  rw [finishes]
  exact .refl _

/-- The machine once a run has ended and the host has recorded how. -/
def concluded (config : Config ν (Transcript ν)) (run : Run ν (Transcript ν)) (thread : Thread ν)
    (outcome : Outcome) : Config ν (Transcript ν) :=
  { config.setDomain { config.world.domain.setThread run.thread { thread with
      execution := some run.execution, pendingAbort := none } with active := run.previous } with
    state := { config.state with ending := some outcome }
    focus := .finished 0 }

/-- A run that ends other than by a suspension is the end. -/
theorem passes_ending {thread : Thread ν} {outcome : Outcome} (alone : config.pending = [])
    (present : config.world.domain.thread? first.thread = some thread)
    (awake : outcome ≠ .suspended) (reply : first.reply = Program.settle id rounds) :
    (config.goto (.ended first outcome)).Passes (environment.host schedule)
      (config.concluded first thread outcome) := by
  let answer : Answer ν :=
    first.purpose.answer first.thread outcome first.execution.stack
  let stopped := config.setDomain { config.world.domain.setThread first.thread { thread with
    execution := some first.execution, pendingAbort := none } with active := first.previous }
  have told : answer.outcome? = some outcome := Purpose.outcome?_answer _ _ _ _
  have replies : first.reply answer = Program.conclude answer := by
    have other : answer.outcome? ≠ some .suspended := by
      rw [told]
      exact fun same => awake (Option.some.inj same)
    rw [reply]
    exact Program.settle_awake other id rounds
  have ends : (config.goto (.ended first outcome)).step (environment.host schedule) =
      stopped.goto (.body (Program.conclude answer)) := by
    have finished := @finishRun_host _ environment schedule (config.goto (.ended first outcome))
      first thread outcome present
    refine finished.trans ?_
    exact congrArg (fun body => stopped.goto (.body body)) replies
  have concludes := @passes_conclude _ stopped (environment.host schedule) alone answer
  rw [told] at concludes
  apply Passes.step
  rw [ends]
  exact concludes

/-- Two machines in lockstep whose runs have ended come to the same end. -/
theorem Twins.concludes {outcome : Outcome}
    (twins : config.Twins schedule id rounds (.ended first outcome) (.ended second outcome)) :
    ∃ last, (config.goto (.ended first outcome)).Passes (environment.host fun _ => none) last ∧
      (config.goto (.ended second outcome)).Passes (environment.host schedule) last ∧
      last.isFinal = true ∧ last.state.ending = some outcome := by
  obtain ⟨thread, playing⟩ := twins.runs
  cases twins.focus with
  | ended runs frames awake =>
    have present : config.world.domain.thread? first.thread = some thread := by
      rw [runs.thread.1]
      exact playing.present
    have present' : config.world.domain.thread? second.thread = some thread := by
      rw [runs.thread.2]
      exact playing.present
    have ends := @passes_ending _ environment (fun _ => none) id 0 config first thread outcome
      twins.pending present awake runs.reply.1
    have ends' := @passes_ending _ environment schedule id rounds config second thread outcome
      twins.pending present' awake runs.reply.2
    have execution : second.execution = first.execution := by
      calc
        second.execution = ⟨second.execution.frames, second.execution.stack⟩ := rfl
        _ = ⟨first.execution.frames, first.execution.stack⟩ := by rw [frames, runs.stack]
    have same : config.concluded second thread outcome =
        config.concluded first thread outcome := by
      simp only [concluded, execution, runs.thread.1, runs.thread.2, runs.previous]
    rw [same] at ends'
    exact ⟨_, ends, ends', rfl, rfl⟩

/-! ## Whole runs -/

/-- If the first machine comes to its end after some steps, never drops the answer of a call that
pauses, and does not run out of its loop budget, the second machine comes to the same end. -/
def KeepsUp (environment : Environment ν) (schedule : Nat → Option Pause) (steps : Nat)
    (before after : Config ν (Transcript ν)) : Prop :=
  ∀ last value, before.run (environment.host fun _ => none) steps = last →
    last.focus = .finished value →
    (∀ next, before.Passes (environment.host fun _ => none) next → next.callsVoid →
      schedule next.state.calls.length = none) →
    (∀ info, last.state.ending = some (.aborted info) → info.reason ≠ .loopLimit) →
    after.Passes (environment.host schedule) last

/-- Both machines take a step, and one step fewer is left. -/
theorem KeepsUp.of_step (working : before.isFinal = false)
    (later : ∀ fewer < steps, KeepsUp environment schedule fewer
      (before.step (environment.host fun _ => none)) (after.step (environment.host schedule))) :
    KeepsUp environment schedule steps before after := by
  intro last value arrived ends silent unlimited
  cases steps with
  | zero =>
    have final : last.isFinal = true := by simp only [isFinal, ends]
    rw [← arrived] at final
    exact absurd final (by simp only [run, working, Bool.false_eq_true, not_false_eq_true])
  | succ fewer =>
    rw [run_succ] at arrived
    have rest := later fewer (Nat.lt_succ_self fewer) last value arrived ends
      (fun next passes => silent next passes.step) unlimited
    exact rest.step

/-- Both machines pass to other configurations. -/
theorem KeepsUp.of_passes (passes : before.Passes (environment.host fun _ => none) middle)
    (passes' : after.Passes (environment.host schedule) middle')
    (later : ∀ left ≤ steps, KeepsUp environment schedule left middle middle') :
    KeepsUp environment schedule steps before after := by
  intro last value arrived ends silent unlimited
  have final : last.isFinal = true := by simp only [isFinal, ends]
  rw [← arrived] at final
  obtain ⟨left, few, same⟩ := passes.remaining final
  have rest := later left few last value (same.trans arrived) ends
    (fun next more => silent next (passes.trans more)) unlimited
  exact passes'.trans rest

/-- A machine that has stopped for a misuse does not come to its end. -/
theorem KeepsUp.of_faulted {fault : Fault} (stopped : before.focus = .faulted fault) :
    KeepsUp environment schedule steps before after := by
  intro last value arrived ends
  have final : before.isFinal = true := by simp only [isFinal, stopped]
  rw [run_of_isFinal _ final] at arrived
  rw [← arrived, stopped] at ends
  cases ends

/-- Both machines come to the same end. -/
theorem KeepsUp.of_end (passes : before.Passes (environment.host fun _ => none) middle)
    (passes' : after.Passes (environment.host schedule) middle) (final : middle.isFinal = true) :
    KeepsUp environment schedule steps before after := by
  intro last value arrived ends _ _
  have ended : last.isFinal = true := by simp only [isFinal, ends]
  have same : last = middle := by
    rw [← arrived] at ended ⊢
    exact passes.ends final ended
  rw [same]
  exact passes'

/-- Both runs have ended. -/
theorem Twins.keepsUp_ended {outcome : Outcome}
    (twins : config.Twins schedule id rounds (.ended first outcome) (.ended second outcome)) :
    KeepsUp environment schedule steps (config.goto (.ended first outcome))
      (config.goto (.ended second outcome)) := by
  obtain ⟨_, passes, passes', final, _⟩ := @Twins.concludes _ environment _ _ _ _ _ _ _ twins
  exact .of_end passes passes' final

/-- The first run has run out of its loop budget. -/
theorem Twins.keepsUp_exhausted {info : AbortInfo}
    (twins : config.Twins schedule id rounds (.ended first (.aborted info))
      (.ended second (.aborted info)))
    (reason : info.reason = .loopLimit) :
    KeepsUp environment schedule steps (config.goto (.ended first (.aborted info))) after := by
  intro last value arrived ends _ unlimited
  obtain ⟨there, passes, _, final, ending⟩ := @Twins.concludes _ environment _ _ _ _ _ _ _ twins
  have ended : last.isFinal = true := by simp only [isFinal, ends]
  have same : last = there := by
    rw [← arrived] at ended ⊢
    exact passes.ends final ended
  rw [← same] at ending
  exact absurd reason (unlimited info ending)

/-- Two machines that advance in lockstep come to the same end if machines in lockstep do. -/
theorem Advances.keepsUp (advances : Advances environment schedule id rounds before after)
    (patient : steps < rounds)
    (together : ∀ left ≤ steps, ∀ rounds ≥ left, ∀ before after,
      Together schedule id rounds before after →
        KeepsUp environment schedule left before after) :
    KeepsUp environment schedule steps before after := by
  cases advances with
  | together next => exact together steps (Nat.le_refl _) rounds (Nat.le_of_lt patient) _ _ next
  | calls twins height unpaused called called' =>
    obtain ⟨fewer, rfl⟩ : ∃ fewer, rounds = fewer + 1 := ⟨rounds - 1, by omega⟩
    obtain ⟨middle, middle', passes, passes', answered⟩ :=
      @Twins.answers _ environment _ _ _ _ _ _ _ _ _ _ twins height unpaused
    rw [called, called']
    refine .of_passes passes passes' fun left few => ?_
    rcases answered with ⟨fault, stopped⟩ | ⟨later, enough, next⟩
    · exact .of_faulted stopped
    · exact together left few later (by omega) _ _ next
  | faulted fault stopped => exact .of_faulted stopped
  | exhausted twins aborted reason =>
    rw [aborted]
    exact twins.keepsUp_exhausted reason

/-- Two machines in lockstep come to the same end. -/
theorem Together.keepsUp (together : Together schedule id rounds before after)
    (patient : steps ≤ rounds) : KeepsUp environment schedule steps before after := by
  -- On the steps that are left to the first machine: a pause uses up one round, and the call that
  -- pauses takes the first machine at least one step.
  induction steps using Nat.strongRecOn generalizing rounds before after with
  | ind steps ih =>
    obtain ⟨config, first, second, rfl, rfl, twins⟩ := together
    cases twins.focus with
    | enter runs frames =>
      have next := @Twins.enter _ environment _ _ _ _ _ _ twins
      exact .of_step rfl fun fewer less => ih fewer less next (by omega)
    | ended runs frames awake => exact twins.keepsUp_ended
    | execute runs inFrame =>
      intro last value arrived ends silent unlimited
      have advances := @Twins.execute _ environment _ _ _ _ _ _ _ twins (silent _ (.refl _))
      have goes : KeepsUp environment schedule steps _ _ :=
        .of_step rfl fun fewer less => advances.keepsUp (by omega)
          fun left few rounds enough before after next => ih left (by omega) next enough
      exact goes last value arrived ends silent unlimited

/-! ## Starts of runs -/

end

end Config

end ScriptMachine

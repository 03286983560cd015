import ScriptMachine.Proofs.Courses

/-!
# Limits of runs

The limits of a run are exact. A run is aborted for its loop budget at the loop check that would
spend the last unit, at the first one if there is no budget at all, and at no other instruction. It
is aborted for its call depth at a call of a registered function that finds as many frames as are
allowed, and at no other; a run may begin with more. Only then is the limit handler told, once, and
the thread is left without frames.
-/

namespace ScriptMachine

variable {ν σ : Type}

namespace Config

variable {host : Host ν σ} {config start : Config ν σ} {run current : Run ν σ}
  {rest : List (Pending ν σ)} {limits : Limits} {checks : Nat}

/-- A run is in progress above this waiting work: it is at hand, or waits right above the work. -/
def Has (rest : List (Pending ν σ)) (current : Run ν σ) (config : Config ν σ) : Prop :=
  config.focus.run? = some current ∧ config.pending.length = rest.length ∨
    ∃ inner work, config.pending = inner ++ work :: rest ∧ work.run? = some current

/-- The next step is one of a run above so many pieces of waiting work: it is at hand, or the body
that it waits for has ended. -/
def Moves (level : Nat) (config : Config ν σ) : Prop :=
  (∃ current, config.focus.run? = some current) ∧ config.pending.length = level ∨
    (∃ value, config.focus = .body (.done value)) ∧ config.pending.length = level + 1

/-- A run above so many pieces of waiting work has been aborted for this reason. -/
def EndsFor (level : Nat) (reason : AbortReason) (config : Config ν σ) : Prop :=
  config.pending.length = level ∧
    ∃ last info, config.focus = .ended last (.aborted info) ∧ info.reason = reason

/-- A run above so many pieces of waiting work is about to call a registered script function, and
has this many frames or more. -/
def CallsBeyond (level depth : Nat) (config : Config ν σ) : Prop :=
  config.pending.length = level ∧ ∃ current registers result argc callee,
    config.focus = .execute current registers ∧
      registers.instruction? = some (.script result argc callee) ∧
      (config.world.domain.function? ⟨callee.toNat⟩).isSome ∧
      depth ≤ current.execution.frames.length

namespace Course

/-- Work that waits right above the work below a run lies higher than the run. -/
theorem above {inner : List (Pending ν σ)} {work : Pending ν σ}
    (pending : config.pending = inner ++ work :: rest) :
    config.pending.length = rest.length + inner.length + 1 := by
  rw [pending]
  simp only [List.length_append, List.length_cons]
  omega

/-- The run that is in progress is within its limits. -/
theorem frames_le (course : config.Course run rest limits checks) (has : config.Has rest current)
    (works : ∀ fault, config.focus ≠ .faulted fault) :
    current.execution.frames.length ≤ max run.execution.frames.length limits.callDepth := by
  have waiting {inner : List (Pending ν σ)} {work : Pending ν σ} {last : Run ν σ}
      (pending : config.pending = inner ++ work :: rest) (holds : work.run? = some last)
      (frames : last.execution.frames.length ≤ max run.execution.frames.length limits.callDepth) :
      current.execution.frames.length ≤ max run.execution.frames.length limits.callDepth := by
    rcases has with ⟨_, level⟩ | ⟨others, other, also, held⟩
    · rw [above pending] at level
      omega
    · obtain ⟨_, same⟩ := List.append_inj' (also.symm.trans pending) (by simp)
      rw [(List.cons.inj same).1, holds] at held
      rw [← Option.some.inj held]
      exact frames
  have atHand {last : Run ν σ} (focus : config.focus.run? = some last)
      (pending : config.pending = rest)
      (frames : last.execution.frames.length ≤ max run.execution.frames.length limits.callDepth) :
      current.execution.frames.length ≤ max run.execution.frames.length limits.callDepth := by
    rcases has with ⟨found, _⟩ | ⟨inner, work, waits, _⟩
    · rw [focus] at found
      rw [← Option.some.inj found]
      exact frames
    · have level := above waits
      rw [pending] at level
      omega
  cases course with
  | enters last focus pending within | executes last registers focus pending within =>
    exact atHand (by rw [focus]; rfl) pending within.frames
  | ends last outcome focus pending lasts frames =>
    exact atHand (by rw [focus]; rfl) pending frames
  | calls inner last registers call pending within => exact waiting pending rfl within.frames
  | stops inner last function pc reason pending within => exact waiting pending rfl within.frames
  | faulted fault focus => exact absurd focus (works fault)

/-- The run whose instruction is executed at the level of a run is this run. -/
theorem of_execute {registers : Registers ν} (course : config.Course run rest limits checks)
    (focus : config.focus = .execute current registers)
    (level : config.pending.length = rest.length) :
    config.pending = rest ∧ run.Within limits checks current ∧
      config.world.domain.limits = limits := by
  cases course with
  | executes other others found pending within same =>
    rw [focus] at found
    cases found
    exact ⟨pending, within, same⟩
  | calls inner other others call pending | stops inner last function pc reason pending =>
    rw [above pending] at level
    omega
  | enters other found | ends other outcome found | faulted fault found =>
    rw [focus] at found
    cases found

/-- The run that ends at the level of a run is this run, and it is without frames if it has been
aborted. -/
theorem of_ended {outcome : Outcome} (course : config.Course run rest limits checks)
    (ended : config.focus = .ended current outcome)
    (level : config.pending.length = rest.length) :
    run.Lasts current ∧ config.pending = rest ∧
      ∀ info, outcome = .aborted info → current.execution.frames = [] := by
  cases course with
  | ends last other focus pending lasts frames bare =>
    rw [ended] at focus
    cases focus
    exact ⟨lasts, pending, bare⟩
  | calls inner other others call pending | stops inner last function pc reason pending =>
    rw [above pending] at level
    omega
  | enters other found | executes other registers found | faulted fault found =>
    rw [ended] at found
    cases found

/-- An abort by a limit comes at an instruction that the run executes at its level. -/
theorem executes_of_endsFor {reason : AbortReason} (course : config.Course run rest limits checks)
    (deliberate : config.Deliberate) (limit : reason.isLimit = true)
    (ends : (config.step host).EndsFor rest.length reason) :
    ∃ current registers, config.focus = .execute current registers ∧ config.pending = rest ∧
      run.Within limits checks current ∧ config.world.domain.limits = limits := by
  obtain ⟨level, last, info, ended, rfl⟩ := ends
  obtain ⟨current, registers, focus⟩ := deliberate.executes ended limit
  refine ⟨current, registers, focus, course.of_execute focus ?_⟩
  have follows := @Follows.step_run _ _ host config current config.pending (by rw [focus]; rfl) rfl
  rw [← follows.pending_of_run (by rw [ended]; rfl)]
  exact level

/-- The next step aborts a run for its loop budget exactly if it executes the loop check that takes
the last unit. -/
theorem loopLimit_iff (course : config.Course run rest limits checks)
    (deliberate : config.Deliberate) (nested : config.Nested) :
    (config.step host).EndsFor rest.length .loopLimit ↔
      config.atLoopCheck rest.length = true ∧ checks + 1 = max 1 run.budget := by
  constructor
  · intro ends
    obtain ⟨current, registers, focus, pending, within, _⟩ :=
      course.executes_of_endsFor deliberate rfl ends
    obtain ⟨_, last, info, ended, reason⟩ := ends
    have made : config.step host = config.execute host current registers := by
      simp only [Config.step, focus]
    rw [made] at ended
    cases (execute_acts host config current registers).1 with
    | overruns other reads spent =>
      have budget := within.budget
      refine ⟨(atLoopCheck_of_execute focus (by rw [pending])).2 reads, by omega⟩
    | stuck _ other | exceeds _ _ _ _ _ _ _ _ _ _ _ other =>
      rw [ended] at other
      cases other
      cases reason
    | faulted _ other | goes _ _ _ _ _ _ _ other | spends _ _ _ other
    | calls _ _ _ _ _ _ _ _ _ _ other | enters _ _ _ _ _ _ _ _ _ _ other | leaves _ _ _ other =>
      rw [ended] at other
      cases other
  · rintro ⟨checked, last⟩
    obtain ⟨current, registers, focus, level, reads⟩ : ∃ current registers,
        config.focus = .execute current registers ∧ config.pending.length = rest.length ∧
          registers.instruction? = some .loopCheck := by
      unfold atLoopCheck at checked
      split at checked
      · rename_i current registers focus
        simp only [Bool.and_eq_true, beq_iff_eq] at checked
        exact ⟨current, registers, focus, checked⟩
      · cases checked
    obtain ⟨pending, within, _⟩ := course.of_execute focus level
    have budget := within.budget
    have made : config.step host = config.execute host current registers := by
      simp only [Config.step, focus]
    rw [made]
    have other {instruction : Instruction} (found : registers.instruction? = some instruction)
        (unchecked : instruction ≠ .loopCheck) :
        (config.execute host current registers).EndsFor rest.length .loopLimit :=
      absurd (Option.some.inj (found.symm.trans reads)) unchecked
    cases (execute_acts host config current registers).1 with
    | overruns last _ _ focus above => exact ⟨by rw [above, pending], last, _, focus, rfl⟩
    | faulted fault _ unfit =>
      obtain ⟨thread, present⟩ := nested.present (by rw [focus]; rfl)
      rw [unfit reads] at present
      cases present
    | stuck _ _ _ _ unchecked => exact absurd reads unchecked
    | spends _ _ more => omega
    | goes _ _ _ _ found unchecked => exact other found unchecked
    | calls _ _ _ _ _ _ _ found => exact other found (by simp)
    | enters _ _ _ _ _ _ _ found => exact other found (by simp)
    | exceeds _ _ _ _ _ _ found => exact other found (by simp)
    | leaves _ _ found => exact other found (by simp)

/-- The next step aborts a run for its call depth exactly if it executes a call of a registered
script function without room for another frame, unless the machine stops for a misuse. -/
theorem callDepth_iff (course : config.Course run rest limits checks)
    (deliberate : config.Deliberate) :
    (config.step host).EndsFor rest.length .callDepth ↔
      config.CallsBeyond rest.length limits.callDepth ∧
        ∀ fault, (config.step host).focus ≠ .faulted fault := by
  constructor
  · intro ends
    obtain ⟨current, registers, focus, pending, _, same⟩ :=
      course.executes_of_endsFor deliberate rfl ends
    obtain ⟨_, last, info, ended, reason⟩ := ends
    have made : config.step host = config.execute host current registers := by
      simp only [Config.step, focus]
    rw [made] at ended ⊢
    refine ⟨?_, fun fault faulted => by rw [ended] at faulted; cases faulted⟩
    cases (execute_acts host config current registers).1 with
    | exceeds result argc callee function other stack reads registered full =>
      refine ⟨by rw [pending], current, registers, result, argc, callee, focus, reads, ?_, ?_⟩
      · rw [registered]
        rfl
      · rw [← same]
        exact full
    | stuck _ other | overruns _ _ _ other =>
      rw [ended] at other
      cases other
      cases reason
    | faulted _ other | goes _ _ _ _ _ _ _ other | spends _ _ _ other
    | calls _ _ _ _ _ _ _ _ _ _ other | enters _ _ _ _ _ _ _ _ _ _ other | leaves _ _ _ other =>
      rw [ended] at other
      cases other
  · rintro ⟨⟨level, current, registers, result, argc, callee, focus, reads, registered, full⟩,
      works⟩
    obtain ⟨pending, within, same⟩ := course.of_execute focus level
    have made : config.step host = config.execute host current registers := by
      simp only [Config.step, focus]
    rw [made] at works ⊢
    have other {instruction : Instruction} (found : registers.instruction? = some instruction)
        (unscripted : ∀ result argc callee, instruction ≠ .script result argc callee) :
        (config.execute host current registers).EndsFor rest.length .callDepth :=
      absurd (Option.some.inj (found.symm.trans reads)) (unscripted _ _ _)
    cases (execute_acts host config current registers).1 with
    | exceeds _ _ _ _ last _ _ _ _ _ _ focus above =>
      exact ⟨by rw [above, pending], last, _, focus, rfl⟩
    | faulted fault focus => exact absurd focus (works fault)
    | stuck _ _ _ _ _ unregistered =>
      rw [unregistered _ _ _ reads] at registered
      cases registered
    | enters _ _ _ _ _ _ _ found _ room =>
      rw [same] at room
      omega
    | goes _ _ _ _ found _ uncalling =>
      refine other found ?_
      rintro result argc callee rfl
      cases uncalling
    | calls _ _ _ _ _ _ _ found => exact other found (by simp)
    | spends _ found => exact other found (by simp)
    | overruns _ found => exact other found (by simp)
    | leaves _ _ found => exact other found (by simp)

/-- A step of a run tells the limit handler of the function in which the run has exceeded a limit,
and of nothing else. -/
theorem told (course : config.Course run rest limits checks) (moves : config.Moves rest.length) :
    host.Told config.state
      ((config.step host).focus.limitCalls config.world.domain.limitHandler)
      (config.step host).state := by
  have ended {inner : List (Pending ν σ)} {work : Pending ν σ}
      (pending : config.pending = inner ++ work :: rest) :
      inner = [] ∧ ∃ value, config.focus = .body (.done value) := by
    have level := above pending
    rcases moves with ⟨_, here⟩ | ⟨done, here⟩
    · omega
    · exact ⟨List.length_eq_zero_iff.1 (by omega), done⟩
  cases course with
  | enters last focus =>
    simp only [Config.step, focus]
    exact (enterFrame_entered host config last).2.told
  | executes last registers focus =>
    simp only [Config.step, focus]
    exact (execute_acts host config last registers).2.told
  | ends last outcome focus =>
    simp only [Config.step, focus]
    exact (besides_finishRun host config last outcome).told
  | calls inner last registers call pending =>
    obtain ⟨rfl, value, focus⟩ := ended pending
    rw [step_of_calling focus pending]
    exact (returnNative_returned host { config with pending := rest } last registers call
      value).2.told
  | stops inner last function pc reason pending =>
    obtain ⟨rfl, value, focus⟩ := ended pending
    rw [step_of_aborting focus pending]
    exact ((Besides.refl { config with pending := rest }).abortRun function pc reason).told
  | faulted fault focus =>
    rcases moves with ⟨⟨other, found⟩, _⟩ | ⟨⟨value, found⟩, _⟩
    · rw [focus] at found
      cases found
    · rw [focus] at found
      cases found

/-- A run that has been aborted gives its thread back without frames, and whoever has started it is
told. -/
theorem left {info : AbortInfo} (course : config.Course run rest limits checks)
    (nested : config.Nested) (level : config.pending.length = rest.length)
    (ended : config.focus = .ended current (.aborted info)) :
    (config.step host).focus =
        .body (run.reply (run.purpose.answer run.thread (.aborted info) current.execution.stack)) ∧
      (config.step host).pending = rest ∧
      ∃ thread, (config.step host).world.domain.thread? run.thread = some thread ∧
        thread.execution = some ⟨[], current.execution.stack⟩ := by
  have made : config.step host = config.finishRun host current (.aborted info) := by
    simp only [Config.step, ended]
  obtain ⟨lasts, pending, bare⟩ := course.of_ended ended level
  obtain ⟨thread, present⟩ := nested.present (by rw [ended]; rfl)
  obtain ⟨answers, given⟩ := finishRun_eq host (.aborted info) present
  have executed : current.execution = ⟨[], current.execution.stack⟩ := by
    rw [← bare info rfl]
  rw [lasts.thread] at given
  rw [lasts.thread, lasts.purpose, lasts.reply] at answers
  rw [← made] at answers given
  rcases step_of_ended host ended with ⟨fault, faulted⟩ | ⟨_, below⟩
  · rw [answers] at faulted
    cases faulted
  · exact ⟨answers, below.trans pending, _, given, congrArg some executed⟩

end Course

/-- The run that begins in a configuration keeps exactly to its limits. -/
structure Limited (host : Host ν σ) (start : Config ν σ) (run : Run ν σ) : Prop where
  /-- There are never more frames than at the beginning or than the limit allows. -/
  frames : ∀ time current, Ongoing host start time →
    (start.run host time).Has start.pending current →
    current.execution.frames.length ≤
      max run.execution.frames.length start.world.domain.limits.callDepth
  /-- The run is aborted for its loop budget exactly when it executes this loop check. -/
  loopLimit : ∀ time, Ongoing host start time →
    ((start.run host (time + 1)).EndsFor start.pending.length .loopLimit ↔
      (start.run host time).atLoopCheck start.pending.length = true ∧
        loopChecks host start time + 1 = max 1 start.world.domain.limits.loopBudget)
  /-- The run is aborted for its call depth exactly when it executes such a call. -/
  callDepth : ∀ time, Ongoing host start time →
    ((start.run host (time + 1)).EndsFor start.pending.length .callDepth ↔
      (start.run host time).CallsBeyond start.pending.length
          start.world.domain.limits.callDepth ∧
        ∀ fault, (start.run host (time + 1)).focus ≠ .faulted fault)
  /-- Each step of the run tells the limit handler exactly if it aborts the run for a limit. -/
  told : ∀ time, Ongoing host start time → (start.run host time).Moves start.pending.length →
    host.Told (start.run host time).state
      ((start.run host (time + 1)).focus.limitCalls
        (start.run host time).world.domain.limitHandler)
      (start.run host (time + 1)).state
  /-- After an abort whoever has started the run goes on, and the thread has no frames. -/
  left : ∀ time last info, Ongoing host start time →
    (start.run host time).focus = .ended last (.aborted info) →
    (start.run host time).pending.length = start.pending.length →
      (start.run host (time + 1)).focus =
          .body (run.reply (run.purpose.answer run.thread (.aborted info) last.execution.stack)) ∧
        (start.run host (time + 1)).pending = start.pending ∧
        ∃ thread, (start.run host (time + 1)).world.domain.thread? run.thread = some thread ∧
          thread.execution = some ⟨[], last.execution.stack⟩

/-- Whatever functions the host has registered, every run whose native methods leave the limits
unchanged keeps exactly to them. -/
theorem limits_are_exact {allowed : Request ν → Prop} (reached : config.Reachable host allowed)
    (begins : config.Begins host run) (unchanged : LeavesLimits host (config.step host)) :
    Limited host (config.step host) run := by
  have reachable (time : Nat) : ((config.step host).run host time).Reachable host allowed :=
    reached.step.run time
  have course {time : Nat} (ongoing : Ongoing host (config.step host) time) :=
    ongoing.course begins.focus unchanged
  have deliberate (time : Nat) := deliberate_of_reachable (reachable time)
  have nested (time : Nat) := nested_of_reachable (reachable time)
  constructor
  · intro time current ongoing has
    exact (course ongoing).frames_le has ongoing.works
  · intro time ongoing
    rw [run_succ_last, ← begins.budget]
    exact (course ongoing).loopLimit_iff (deliberate time) (nested time)
  · intro time ongoing
    rw [run_succ_last]
    exact (course ongoing).callDepth_iff (deliberate time)
  · intro time ongoing moves
    rw [run_succ_last]
    exact (course ongoing).told moves
  · intro time last info ongoing ended level
    rw [run_succ_last]
    exact (course ongoing).left (nested time) level ended

/-- A function that calls its native method and checks the loop budget again and again. -/
def spinning : Definition Unit where
  name := "spinning"
  code := #[0x29, 0, 0, 0x26, 0x22, 0xFA]
  methods := #[()]

/-- The function is run with a loop budget of two, and a limit handler is set. -/
def runningSpinning : Program Unit (List String) Int32 := do
  let _ ← Program.update (.setLimits { loopBudget := 2 })
  let _ ← Program.update (.setLimitHandler (some ()))
  let _ ← Program.update (.addFunction (.trusted spinning 0))
  let _ ← Program.update .createThread
  let _ ← Program.request (.run ⟨0⟩ ⟨0⟩)
  return 0

/-- A host that records of which functions its limit handler is told. -/
def recordingHost : Host Unit (List String) where
  native _ _ := .done 0
  onAbort _ _ := .done 0
  onLimit _ name names := name :: names
  onEvent _ _ names := names

/-- A run with a loop budget of two is aborted at its second loop check. Its limit handler is told
of it then and not before. -/
theorem limits_are_exact_spinning :
    let config := (Config.initial {} [] runningSpinning).run recordingHost 4
    ∃ run, config.Reachable recordingHost (fun _ => True) ∧ config.Begins recordingHost run ∧
      LeavesLimits recordingHost (config.step recordingHost) ∧
      loopChecks recordingHost (config.step recordingHost) 7 = 1 ∧
      ((config.step recordingHost).run recordingHost 8).EndsFor 0 .loopLimit ∧
      ((config.step recordingHost).run recordingHost 7).state = [] ∧
      ((config.step recordingHost).run recordingHost 8).state = ["spinning"] := by
  intro config
  have reached : config.Reachable recordingHost (fun _ => True) :=
    (Reachable.initial [] runningSpinning (Program.asks_of_forall (fun _ => trivial) _)).run 4
  obtain ⟨run, begins⟩ : ∃ run, config.Begins recordingHost run := ⟨_, ⟨_, rfl⟩, rfl⟩
  have unchanged : LeavesLimits recordingHost (config.step recordingHost) := by
    -- the run has ended after eight steps, and until then nobody sets a limit
    have ended : ((config.step recordingHost).run recordingHost 8).hasEnded = true := by
      decide +kernel
    have level : ((config.step recordingHost).run recordingHost 8).pending.length =
        (config.step recordingHost).pending.length := by decide +kernel
    have same : ∀ time ≤ 8,
        ((config.step recordingHost).run recordingHost time).world.domain.limits =
          (config.step recordingHost).world.domain.limits := by decide +kernel
    intro time value current registers call ongoing _ _
    exact same time (ongoing.le_of_hasEnded level ended)
  have ongoing : Ongoing recordingHost (config.step recordingHost) 7 :=
    .of_hasEnded (by decide +kernel) (by decide +kernel)
  have counted : loopChecks recordingHost (config.step recordingHost) 7 = 1 := by decide +kernel
  have exactly := (limits_are_exact reached begins unchanged).loopLimit 7 ongoing
  exact ⟨run, reached, begins, unchanged, counted, exactly.2 (by decide +kernel), by decide +kernel,
    by decide +kernel⟩

end Config

end ScriptMachine

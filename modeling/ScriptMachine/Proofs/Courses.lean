import ScriptMachine.Proofs.AbortReasons

/-!
# Courses of runs

From its beginning to its end a run is at hand or waits for a body: a native method that it has
called, or the hook of the abort that stops it. On the way it spends its loop budget at loop checks
and nowhere else, and no frame is entered beyond the greatest number of frames. Each step of the run
does one of a few things, and what the run has spent is the number of loop checks that it has
executed.
-/

namespace ScriptMachine

variable {ν σ : Type}

/-- A run as it is later than later. -/
theorem Run.Lasts.trans {run middle last : Run ν σ} (first : run.Lasts middle)
    (second : middle.Lasts last) : run.Lasts last where
  thread := second.thread.trans first.thread
  purpose := second.purpose.trans first.purpose
  reply := second.reply.trans first.reply

/-- What is left of a run after a number of loop checks: there are no more frames than at its
beginning or than the limit allows, and each check has taken a unit of the budget. The last unit is
never taken, and a run without a budget has it too. -/
structure Run.Within (run : Run ν σ) (limits : Limits) (checks : Nat) (current : Run ν σ) : Prop
    extends Run.Lasts run current where
  frames : current.execution.frames.length ≤ max run.execution.frames.length limits.callDepth
  budget : checks + max 1 current.budget = max 1 run.budget

namespace Run.Within

variable {run current later : Run ν σ} {limits : Limits} {checks : Nat}

/-- A run as it begins. -/
theorem refl (run : Run ν σ) (limits : Limits) : run.Within limits 0 run :=
  ⟨.refl run, Nat.le_max_left .., Nat.zero_add _⟩

/-- A run with no more frames and the same rest of its budget. -/
theorem of_lasts (within : run.Within limits checks current) (lasts : current.Lasts later)
    (fewer : later.execution.frames.length ≤ current.execution.frames.length)
    (budget : later.budget = current.budget) : run.Within limits checks later where
  toLasts := within.toLasts.trans lasts
  frames := Nat.le_trans fewer within.frames
  budget := by
    rw [budget]
    exact within.budget

/-- A run with the same frames and the same rest of its budget. -/
theorem of_keeps (within : run.Within limits checks current) (keeps : current.Keeps later) :
    run.Within limits checks later :=
  within.of_lasts keeps.toLasts (by rw [keeps.frames]) keeps.budget

end Run.Within

namespace Config

variable {host : Host ν σ} {config start : Config ν σ} {run : Run ν σ}
  {rest : List (Pending ν σ)} {limits : Limits} {checks : Nat}

/-- A run above so many pieces of waiting work is about to execute a loop check. -/
def atLoopCheck (level : Nat) (config : Config ν σ) : Bool :=
  match config.focus with
  | .execute _ registers =>
    config.pending.length == level && registers.instruction? == some .loopCheck
  | _ => false

/-- A loop check is about to be executed where one is read. -/
theorem atLoopCheck_of_execute {registers : Registers ν} {current : Run ν σ} {level : Nat}
    (focus : config.focus = .execute current registers) (pending : config.pending.length = level) :
    config.atLoopCheck level = true ↔ registers.instruction? = some .loopCheck := by
  simp [atLoopCheck, focus, pending]

/-- Loop checks are executed by runs at hand, at their own level. -/
theorem not_atLoopCheck {level : Nat} (other : config.pending.length ≠ level ∨
    ∀ current registers, config.focus ≠ .execute current registers) :
    config.atLoopCheck level = false := by
  unfold atLoopCheck
  split
  · rename_i current registers focus
    rcases other with apart | idle
    · simp [apart]
    · exact absurd focus (idle current registers)
  · rfl

/-- A run that has begun above this waiting work is on its way, after so many loop checks, with
these limits. -/
inductive Course (run : Run ν σ) (rest : List (Pending ν σ)) (limits : Limits) (checks : Nat)
    (config : Config ν σ) : Prop where
  | enters (current : Run ν σ) (focus : config.focus = .enter current)
    (pending : config.pending = rest) (within : run.Within limits checks current)
    (same : config.world.domain.limits = limits)
  | executes (current : Run ν σ) (registers : Registers ν)
    (focus : config.focus = .execute current registers) (pending : config.pending = rest)
    (within : run.Within limits checks current) (same : config.world.domain.limits = limits)
  | calls (inner : List (Pending ν σ)) (current : Run ν σ) (registers : Registers ν)
    (call : NativeCall)
    (pending : config.pending = inner ++ .calling current registers call :: rest)
    (within : run.Within limits checks current)
  | stops (inner : List (Pending ν σ)) (last : Run ν σ) (function : Function ν) (pc : Nat)
    (reason : AbortReason)
    (pending : config.pending = inner ++ .aborting (.stop last function pc reason) :: rest)
    (within : run.Within limits checks last)
  | ends (last : Run ν σ) (outcome : Outcome) (focus : config.focus = .ended last outcome)
    (pending : config.pending = rest) (lasts : run.Lasts last)
    (frames : last.execution.frames.length ≤ max run.execution.frames.length limits.callDepth)
    (bare : ∀ info, outcome = .aborted info → last.execution.frames = [])
  | faulted (fault : Fault) (focus : config.focus = .faulted fault)

namespace Course

variable {current : Run ν σ} {registers : Registers ν}

/-- A run that is aborted ends without frames. -/
theorem of_aborted {next : Config ν σ} {last : Run ν σ} {info : AbortInfo}
    (within : run.Within limits checks current) (lasts : current.Lasts last)
    (focus : next.focus = .ended last (.aborted info)) (pending : next.pending = rest)
    (bare : last.execution.frames = []) {later : Nat} : next.Course run rest limits later := by
  exact .ends last _ focus pending (within.toLasts.trans lasts) (by simp [bare]) fun _ _ => bare

/-- A frame that is entered. -/
theorem enterFrame (pending : config.pending = rest) (within : run.Within limits checks current)
    (same : config.world.domain.limits = limits) :
    (config.enterFrame host current).Course run rest limits checks := by
  obtain ⟨entered, besides⟩ := enterFrame_entered host config current
  cases entered with
  | completes bare focus above =>
    exact .ends current _ focus (above.trans pending) within.toLasts within.frames (by simp)
  | continues frame outer after top frames focus above keeps =>
    exact .executes after _ focus (above.trans pending) (within.of_keeps keeps)
      (besides.limits.trans same)

/-- An instruction that is executed. -/
theorem execute (focus : config.focus = .execute current registers)
    (pending : config.pending = rest) (within : run.Within limits checks current)
    (same : config.world.domain.limits = limits) :
    (config.execute host current registers).Course run rest limits
      (checks + if config.atLoopCheck rest.length then 1 else 0) := by
  have here := @atLoopCheck_of_execute _ _ config registers current rest.length focus
    (by rw [pending])
  have none {instruction : Instruction} (reads : registers.instruction? = some instruction)
      (unchecked : instruction ≠ .loopCheck) :
      checks + (if config.atLoopCheck rest.length then 1 else 0) = checks := by
    rw [if_neg, Nat.add_zero]
    rw [here, reads]
    exact fun found => unchecked (Option.some.inj found)
  have bare {last : Run ν σ} {info : AbortInfo}
      (ended : (config.execute host current registers).focus = .ended last (.aborted info)) :
      last.execution.frames = [] := (Hands.execute current registers).bare last info ended
  obtain ⟨acts, besides⟩ := execute_acts host config current registers
  have limited := besides.limits.trans same
  cases acts with
  | faulted fault focus => exact .faulted fault focus
  | stuck last focus above lasts =>
    exact of_aborted within lasts focus (above.trans pending) (bare focus)
  | overruns last reads spent focus above lasts =>
    exact of_aborted within lasts focus (above.trans pending) (bare focus)
  | exceeds result argc callee function last stack reads registered full enough stored focus above
      lasts =>
    exact of_aborted within lasts focus (above.trans pending) (bare focus)
  | goes instruction after pc sp reads unchecked uncalling focus above keeps =>
    rw [none reads unchecked]
    exact .executes after _ focus (above.trans pending) (within.of_keeps keeps) limited
  | spends pc reads more focus above =>
    rw [if_pos (here.2 reads)]
    have lasts := within.toLasts
    refine .executes _ _ focus (above.trans pending)
      ⟨⟨lasts.thread, lasts.purpose, lasts.reply⟩, within.frames, ?_⟩ limited
    have budget := within.budget
    dsimp only
    omega
  | calls kind result argc index method pc start reads known taken focus above =>
    rw [none reads (by simp)]
    exact .calls [] current _ _ (by rw [above, pending]; rfl) within
  | enters result argc callee function after pc top reads registered room focus above lasts budget
      frames =>
    rw [none reads (by simp)]
    refine .enters after focus (above.trans pending) ⟨within.toLasts.trans lasts, ?_, ?_⟩ limited
    · rw [same] at room
      rw [frames, List.length_cons, Run.length_saveFrame]
      omega
    · rw [budget]
      exact within.budget
  | leaves kind after reads focus above lasts budget frames =>
    rw [none reads (by simp)]
    exact .enters after focus (above.trans pending) (within.of_lasts lasts (by simp [frames])
      budget) limited

/-- A native method that answers. -/
theorem returnNative {call : NativeCall} {value : Int32} (pending : config.pending = rest)
    (within : run.Within limits checks current) (same : config.world.domain.limits = limits) :
    (config.returnNative host current registers call value).Course run rest limits checks := by
  cases (returnNative_returned host config current registers call value).1 with
  | faulted fault focus => exact .faulted fault focus
  | executes after focus above keeps limited =>
    exact .executes after registers focus (above.trans pending) (within.of_keeps keeps)
      (limited.trans same)
  | suspends last focus above lasts frames =>
    refine .ends last _ focus (above.trans pending) (within.toLasts.trans lasts) ?_ (by simp)
    rw [frames]
    exact within.frames
  | stops last reason asked focus above lasts =>
    refine of_aborted within lasts focus (above.trans pending) ?_
    exact (Hands.returnNative current registers call value).bare last _ focus
  | hooks body last reason asked focus above keeps =>
    exact .stops [] last registers.function call.pc reason (by rw [above, pending]; rfl)
      (within.of_keeps keeps)

/-- A step takes a run along its course, as long as native methods leave the limits unchanged. A
loop check that is executed counts. -/
theorem step (course : config.Course run rest limits checks)
    (unchanged : ∀ value current registers call, config.focus = .body (.done value) →
      config.pending = .calling current registers call :: rest →
        config.world.domain.limits = limits)
    (ongoing : config.pending.length = rest.length → ∀ last outcome,
      config.focus ≠ .ended last outcome) :
    (config.step host).Course run rest limits
      (checks + if config.atLoopCheck rest.length then 1 else 0) := by
  have above {inner : List (Pending ν σ)} {work : Pending ν σ}
      (pending : config.pending = inner ++ work :: rest) :
      (checks + if config.atLoopCheck rest.length then 1 else 0) = checks := by
    rw [not_atLoopCheck (.inl ?_)]
    · simp
    · rw [pending]
      simp only [List.length_append, List.length_cons]
      omega
  cases course with
  | enters current focus pending within same =>
    rw [not_atLoopCheck (.inr (by simp [focus]))]
    simp only [Config.step, focus]
    exact enterFrame pending within same
  | executes current registers focus pending within same =>
    have made : config.step host = config.execute host current registers := by
      simp only [Config.step, focus]
    rw [made]
    exact execute focus pending within same
  | calls inner current registers call pending within =>
    rw [above pending]
    rcases @step_waiting _ _ host _ _ _ _ pending with ⟨more, below⟩ | ⟨rfl, value, ended⟩ |
      ⟨fault, focus⟩
    · exact .calls more current registers call below within
    · rw [step_of_calling ended pending]
      exact returnNative rfl within (unchanged value current registers call ended pending)
    · exact .faulted fault focus
  | stops inner last function pc reason pending within =>
    rw [above pending]
    rcases @step_waiting _ _ host _ _ _ _ pending with ⟨more, below⟩ | ⟨rfl, value, ended⟩ |
      ⟨fault, focus⟩
    · exact .stops more last function pc reason below within
    · rw [step_of_aborting ended pending]
      have lasts : last.Lasts (last.setFrames []) := ⟨rfl, rfl, rfl⟩
      exact .ends (last.setFrames []) _ rfl rfl (within.toLasts.trans lasts) (Nat.zero_le _)
        fun _ _ => rfl
    · exact .faulted fault focus
  | ends last outcome focus pending =>
    exact absurd focus (ongoing (by rw [pending]) last outcome)
  | faulted fault focus =>
    rw [step_of_isFinal host (by simp [isFinal, focus])]
    exact .faulted fault focus

end Course

/-! ## From the beginning of a run -/

/-- A run begins: a body is at hand, and after the next step the run is. -/
structure Begins (host : Host ν σ) (config : Config ν σ) (run : Run ν σ) : Prop where
  body : ∃ body, config.focus = .body body
  focus : (config.step host).focus = .enter run

/-- The run that begins in a configuration has not ended before this moment, and the machine has not
stopped. -/
structure Ongoing (host : Host ν σ) (start : Config ν σ) (time : Nat) : Prop where
  works : ∀ fault, (start.run host time).focus ≠ .faulted fault
  first : ∀ earlier < time, (start.run host earlier).pending.length = start.pending.length →
    ∀ last outcome, (start.run host earlier).focus ≠ .ended last outcome

/-- A run has ended but still holds its thread. -/
def hasEnded (config : Config ν σ) : Bool :=
  match config.focus with
  | .ended _ _ => true
  | _ => false

/-- A run is ongoing if the machine has not come to an end, and no run has ended at its level. -/
theorem Ongoing.of_hasEnded {time : Nat} (works : (start.run host time).isFinal = false)
    (first : ∀ earlier < time, (start.run host earlier).pending.length = start.pending.length →
      (start.run host earlier).hasEnded = false) : Ongoing host start time where
  works fault faulted := by
    rw [isFinal, faulted] at works
    cases works
  first earlier before level last outcome ended := by
    have goesOn := first earlier before level
    rw [hasEnded, ended] at goesOn
    cases goesOn

/-- Until a moment at which a run has ended at its level, a run is ongoing no longer. -/
theorem Ongoing.le_of_hasEnded {time last : Nat} (ongoing : Ongoing host start time)
    (level : (start.run host last).pending.length = start.pending.length)
    (ended : (start.run host last).hasEnded = true) : time ≤ last := by
  rcases Nat.lt_or_ge last time with past | upTo
  · unfold hasEnded at ended
    split at ended
    · rename_i found
      exact absurd found (ongoing.first last past level _ _)
    · cases ended
  · exact upTo

/-- The number of loop checks that the run that begins in a configuration has executed before this
moment, in whatever frames; those of runs that its native methods have started do not count. -/
def loopChecks (host : Host ν σ) (start : Config ν σ) (time : Nat) : Nat :=
  Nat.count (fun moment => (start.run host moment).atLoopCheck start.pending.length = true) time

/-- Whenever a native method answers the run that begins in a configuration, the limits are as they
were at the beginning. -/
def LeavesLimits (host : Host ν σ) (start : Config ν σ) : Prop :=
  ∀ time value current registers call, Ongoing host start time →
    (start.run host time).focus = .body (.done value) →
    (start.run host time).pending = .calling current registers call :: start.pending →
      (start.run host time).world.domain.limits = start.world.domain.limits

/-- A run begins with the loop budget of the domain. -/
theorem Begins.budget (begins : config.Begins host run) :
    run.budget = (config.step host).world.domain.limits.loopBudget := by
  obtain ⟨⟨body, focus⟩, entered⟩ := begins
  have opened {rest : List (Pending ν σ)} (opens : (config.step host).Opens rest) :
      run.budget = (config.step host).world.domain.limits.loopBudget := by
    cases opens with
    | begins other found pending budget =>
      obtain rfl := Focus.enter.inj (entered.symm.trans found)
      exact budget
    | speaks body found | hooks body after found | faulted fault found =>
      rw [found] at entered
      cases entered
  cases body with
  | ask request next =>
    refine @opened config.pending ?_
    simpa only [step, focus] using Opens.perform rfl
  | modify change next | crash fault =>
    simp only [step, focus] at entered
    cases entered
  | done value =>
    cases pending : config.pending with
    | nil =>
      simp only [step, focus, finishBody, pending] at entered
      cases entered
    | cons work rest =>
      cases work with
      | calling caller registers call =>
        rw [step_of_calling focus pending] at entered
        cases (returnNative_returned host { config with pending := rest } caller registers call
          value).1 with
        | faulted _ other | executes _ other | suspends _ other | stops _ _ _ other
        | hooks _ _ _ _ other =>
          rw [entered] at other
          cases other
      | aborting next =>
        have made := @step_of_aborting _ _ host _ _ _ _ focus pending
        cases stopped : next.run? with
        | none =>
          refine @opened rest ?_
          rw [made]
          exact Opens.afterAbort stopped rfl
        | some last =>
          cases next with
          | stop last function pc reason =>
            rw [made] at entered
            cases entered
          | reply next | start id function purpose next => cases stopped

/-- A run that has not ended had not ended earlier. -/
theorem Ongoing.earlier {time earlier : Nat} (ongoing : Ongoing host start time)
    (upTo : earlier ≤ time) : Ongoing host start earlier where
  works fault faulted := by
    refine ongoing.works fault ?_
    rw [← Nat.add_sub_cancel' upTo, run_add]
    exact run_of_faulted faulted _
  first moment before := ongoing.first moment (by omega)

/-- A run that has not ended is on its way, after as many loop checks as it has executed. -/
theorem Ongoing.course {time : Nat} (ongoing : Ongoing host start time)
    (entered : start.focus = .enter run) (unchanged : LeavesLimits host start) :
    (start.run host time).Course run start.pending start.world.domain.limits
      (loopChecks host start time) := by
  induction time with
  | zero => exact .enters run entered rfl (.refl run _) rfl
  | succ time ih =>
    have before := ongoing.earlier (Nat.le_succ time)
    have course := ih before
    rw [run_succ_last, loopChecks, Nat.count_succ]
    refine course.step (fun value current registers call => ?_) ?_
    · exact unchanged time value current registers call before
    · exact ongoing.first time (Nat.lt_succ_self time)

end Config

end ScriptMachine

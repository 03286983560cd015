import ScriptMachine.Proofs.Guards
import ScriptMachine.Proofs.Limits

/-!
# Runs of guarded functions end

A run of guarded functions ends, if the native methods that it calls return and leave the limits
alone. What falls with every instruction is no single number. The rest of the loop budget comes
first: a loop check spends a unit of it, and nothing gives a unit back. Then come the frames, the
outermost first, each with the rank of the offset where it stands. An instruction that is no loop
check lowers the rank of the innermost frame; a call does so before it puts a frame on top, and a
return takes the frame away. There are never more frames than the limit allows, so the order of
these sequences is well founded.
-/

namespace ScriptMachine

variable {ν σ : Type}

/-! ## The order of sequences -/

/-- A sequence of marks as digits, the most significant first. Where a mark is missing there is the
least digit. -/
def digits (depth : Nat) (marks : List Nat) : Lex (Fin depth → Nat) :=
  toLex fun place => (marks[place.val]?).elim 0 (· + 1)

/-- A sequence that has a lower mark at some place, or ends before it, comes first. -/
theorem digits_lt {depth : Nat} {outer low : List Nat} {high : Nat}
    (shallow : outer.length < depth) (less : ∀ first ∈ low.head?, first < high) :
    digits depth (outer ++ low) < digits depth (outer ++ [high]) := by
  refine ⟨⟨outer.length, shallow⟩, fun place before => ?_, ?_⟩
  · have inside : place.val < outer.length := before
    change ((outer ++ low)[place.val]?).elim 0 _ = ((outer ++ [high])[place.val]?).elim 0 _
    rw [List.getElem?_append_left inside, List.getElem?_append_left inside]
  · cases low with
    | nil => simp [digits]
    | cons first rest => simpa [digits] using less first rfl

/-- The rest of a loop budget, and then a sequence of marks. -/
def measure (depth budget : Nat) (marks : List Nat) : Nat ×ₗ Lex (Fin depth → Nat) :=
  toLex (budget, digits depth marks)

/-- With a smaller budget the marks do not matter. -/
theorem measure_lt_of_budget {depth less budget : Nat} (spent : less < budget)
    (marks others : List Nat) : measure depth less others < measure depth budget marks :=
  Prod.Lex.toLex_lt_toLex.2 (.inl spent)

/-- With the same budget the first mark that differs counts. -/
theorem measure_lt_of_marks {depth budget : Nat} {outer low : List Nat} {high : Nat}
    (shallow : outer.length < depth) (less : ∀ first ∈ low.head?, first < high) :
    measure depth budget (outer ++ low) < measure depth budget (outer ++ [high]) :=
  Prod.Lex.toLex_lt_toLex.2 (.inr ⟨rfl, digits_lt shallow less⟩)

/-! ## Where a run stands -/

/-- What a frame counts for that is to be entered or continued. -/
noncomputable def Frame.mark (frame : Frame ν) : Nat :=
  2 * frame.function.rank (frame.pc.getD 0) + 1

/-- What a frame counts for whose instruction is about to be executed. -/
noncomputable def Registers.mark (registers : Registers ν) : Nat :=
  2 * registers.function.rank registers.pc

/-- What frames count for, the outermost first. -/
noncomputable def marks (frames : List (Frame ν)) : List Nat := frames.reverse.map Frame.mark

@[simp] theorem marks_cons (frame : Frame ν) (outer : List (Frame ν)) :
    marks (frame :: outer) = marks outer ++ [frame.mark] := by simp [marks]

@[simp] theorem length_marks (frames : List (Frame ν)) : (marks frames).length = frames.length := by
  simp [marks]

/-- The instruction that is read in an activation of a verified function is listed. -/
theorem Run.At.listed {run : Run ν σ} {registers : Registers ν} (at' : run.At registers)
    {instruction : Instruction} (reads : registers.instruction? = some instruction) :
    (registers.pc, instruction) ∈ registers.function.code.instructions.instructions := by
  obtain ⟨other, ready⟩ := at'.fits.ready
  simp only [Registers.instruction?, ready.decode, Option.some.injEq] at reads
  exact reads ▸ ready.listed

/-- An instruction of a guarded function that is no loop check lowers the mark. -/
theorem Registers.mark_lt {registers : Registers ν} (guarded : registers.function.Guarded)
    {pc : Nat} (slips : registers.function.Slips registers.pc pc) (sp : Nat) :
    (registers.move pc sp).mark + 1 < registers.mark := by
  have lower := guarded.rank_lt slips
  simp only [mark, move]
  omega

namespace Config

/-- A run with such a budget and such marks is at hand above this waiting work. -/
inductive Stands (rest : List (Pending ν σ)) (config : Config ν σ) : Nat → List Nat → Prop where
  | enters (run : Run ν σ) (focus : config.focus = .enter run) (pending : config.pending = rest) :
    Stands rest config run.budget (marks run.execution.frames)
  | executes (run : Run ν σ) (registers : Registers ν)
    (focus : config.focus = .execute run registers) (pending : config.pending = rest) :
    Stands rest config run.budget (marks run.execution.frames.tail ++ [registers.mark])

/-- A run has ended above this waiting work. -/
def EndsAbove (rest : List (Pending ν σ)) (config : Config ν σ) : Prop :=
  (∃ last outcome, config.focus = .ended last outcome) ∧ config.pending = rest

/-- Every body that the run that begins in a configuration calls returns: its native methods, and
the hook of the abort that stops it. -/
def CallbacksReturn (host : Host ν σ) (start : Config ν σ) : Prop :=
  ∀ time body work, Ongoing host start time → (start.run host time).focus = .body body →
    (start.run host time).pending = work :: start.pending →
      ∃ steps value, (start.run host time).Returns host steps value

variable {host : Host ν σ} {config start : Config ν σ} {run current : Run ν σ}
  {registers : Registers ν} {rest : List (Pending ν σ)} {time : Nat}

/-- A machine with a run at hand dispatches. -/
theorem dispatching_of_run (focus : config.focus.run? = some run) : config.Dispatching := by
  obtain ⟨world, state, focus', pending⟩ := config
  cases focus' with
  | enter _ | execute _ _ | ended _ _ => trivial
  | body _ | finished _ | faulted _ => cases focus

/-- A machine dispatches when a body has ended for which a run waits. -/
theorem dispatching_of_answer {value : Int32} {work : Pending ν σ}
    (focus : config.focus = .body (.done value)) (pending : config.pending = work :: rest)
    (holds : work.run? = some run) : config.Dispatching := by
  simp only [Dispatching, focus, pending]
  cases work with
  | calling _ _ _ => trivial
  | aborting next =>
    cases next with
    | stop _ _ _ _ => trivial
    | reply _ | start _ _ _ _ => cases holds

/-- A run that has not ended goes on with a step that does not stop the machine. -/
theorem Ongoing.succ (ongoing : Ongoing host start time)
    (lives : (start.run host (time + 1)).Lives)
    (goes : (start.run host time).pending.length = start.pending.length →
      ∀ last outcome, (start.run host time).focus ≠ .ended last outcome) :
    Ongoing host start (time + 1) where
  works := lives
  first earlier before level := by
    rcases Nat.eq_or_lt_of_le (Nat.le_of_lt_succ before) with rfl | past
    · exact goes level
    · exact ongoing.first earlier past level

/-- While a body is in progress that a run has called, the run does not end. -/
theorem Ongoing.returns (ongoing : Ongoing host start time) {work : Pending ν σ} {steps : Nat}
    {value : Int32} (pending : (start.run host time).pending = work :: start.pending)
    (returns : (start.run host time).Returns host steps value) :
    Ongoing host start (time + steps) ∧
      (start.run host (time + steps)).focus = .body (.done value) ∧
      (start.run host (time + steps)).pending = work :: start.pending := by
  rw [run_add]
  refine ⟨⟨fun fault => ?_, fun earlier before level => ?_⟩, returns.ends, returns.pending pending⟩
  · rw [run_add]
    exact returns.works (Nat.le_refl steps) fault
  · rcases Nat.lt_or_ge earlier time with past | later
    · exact ongoing.first earlier past level
    · obtain ⟨inner, above⟩ := returns.waits pending (by omega : earlier - time ≤ steps)
      rw [← run_add, Nat.add_sub_cancel' later] at above
      rw [above] at level
      simp only [List.length_append, List.length_cons] at level
      omega

/-- A frame that records where to continue counts for that. -/
theorem marks_saveFrame {frame : Frame ν} {outer : List (Frame ν)}
    (frames : run.execution.frames = frame :: outer) (same : frame.function = registers.function)
    (pc sp top : Nat) :
    marks (run.saveFrame pc top).execution.frames =
      marks outer ++ [(registers.move pc sp).mark + 1] := by
  unfold Run.saveFrame
  rw [frames]
  simp [Run.setFrames, Frame.mark, Registers.mark, Registers.move, same]

/-- The host registers guarded functions only, and the native methods that a run calls return and
leave the limits alone. -/
structure Guards (host : Host ν σ) (start : Config ν σ) (run : Run ν σ) : Prop where
  hosted : host.Asks Request.RegistersGuarded
  reached : start.Reachable host Request.RegistersGuarded
  entered : start.focus = .enter run
  leaves : LeavesLimits host start
  returns : CallbacksReturn host start

/-- The greatest number of frames that a run can come to have. -/
def greatestDepth (start : Config ν σ) (run : Run ν σ) : Nat :=
  max run.execution.frames.length start.world.domain.limits.callDepth

/-- The run that begins in a configuration ends, or comes to stand lower. -/
def Descends (host : Host ν σ) (start : Config ν σ) (depth : Nat)
    (bound : Nat ×ₗ Lex (Fin depth → Nat)) : Prop :=
  ∃ later, Ongoing host start later ∧
    ((start.run host later).EndsAbove start.pending ∨ ∃ budget marks,
      (start.run host later).Stands start.pending budget marks ∧
        measure depth budget marks < bound)

namespace Guards

variable {depth budget : Nat} {bound : Nat ×ₗ Lex (Fin depth → Nat)}

/-- Everything that the run passes through is sound. -/
theorem sound (guards : Guards host start run) (time : Nat) : (start.run host time).Sound :=
  sound_of_reachable (guards.hosted.mono Request.verified_of_guarded)
    ((guards.reached.run time).mono Request.verified_of_guarded)

/-- The machine does not stop at a step of a run. -/
theorem lives (guards : Guards host start run) (time : Nat)
    (dispatching : (start.run host time).Dispatching) : (start.run host (time + 1)).Lives := by
  have reached := guards.reached.run time
  rw [run_succ_last]
  exact lives_step (linked_of_reachable reached) (nested_of_reachable reached) (guards.sound time)
    dispatching

/-- A run that is at hand and has not ended goes on. -/
theorem next (guards : Guards host start run) (ongoing : Ongoing host start time)
    (focus : (start.run host time).focus.run? = some current)
    (goes : ∀ last outcome, (start.run host time).focus ≠ .ended last outcome) :
    Ongoing host start (time + 1) :=
  ongoing.succ (guards.lives time (dispatching_of_run focus)) fun _ => goes

/-- A body that the run has called returns, and its answer is the next thing that happens. -/
theorem answered (guards : Guards host start run) (ongoing : Ongoing host start time)
    {body : Body ν σ} {work : Pending ν σ} (focus : (start.run host time).focus = .body body)
    (pending : (start.run host time).pending = work :: start.pending)
    (holds : work.run? = some current) :
    ∃ later value, Ongoing host start (later + 1) ∧
      (start.run host later).focus = .body (.done value) ∧
      (start.run host later).pending = work :: start.pending := by
  obtain ⟨steps, value, returns⟩ := guards.returns time body work ongoing focus pending
  obtain ⟨ongoing, ended, waits⟩ := ongoing.returns pending returns
  refine ⟨time + steps, value, ongoing.succ (guards.lives _ ?_) fun _ => ?_, ended, waits⟩
  · exact dispatching_of_answer ended waits holds
  · rw [ended]
    simp

/-- A run for whose abort a hook has been called ends. -/
theorem ends_of_hook (guards : Guards host start run) (ongoing : Ongoing host start time)
    {body : Body ν σ} {last : Run ν σ} {function : Function ν} {pc : Nat} {reason : AbortReason}
    (focus : (start.run host time).focus = .body body)
    (pending : (start.run host time).pending =
      .aborting (.stop last function pc reason) :: start.pending) :
    Descends host start depth bound := by
  obtain ⟨later, value, ongoing, ended, waits⟩ := guards.answered ongoing focus pending rfl
  refine ⟨later + 1, ongoing, .inl ?_⟩
  rw [run_succ_last, step_of_aborting ended waits]
  exact ⟨⟨last.setFrames [], _, rfl⟩, rfl⟩

/-- A run that has called a native method goes on behind the call, or ends. -/
theorem descends_of_call (guards : Guards host start run) (ongoing : Ongoing host start time)
    {body : Body ν σ} {call : NativeCall} (focus : (start.run host time).focus = .body body)
    (pending : (start.run host time).pending = .calling current registers call :: start.pending)
    (less : measure depth current.budget
      (marks current.execution.frames.tail ++ [registers.mark]) < bound) :
    Descends host start depth bound := by
  obtain ⟨later, value, ongoing, ended, waits⟩ := guards.answered ongoing focus pending rfl
  have made := @step_of_calling _ _ host _ _ _ _ _ _ ended waits
  rw [← run_succ_last] at made
  have returned := (returnNative_returned host
    { start.run host later with pending := start.pending } current registers call value).1
  rw [← made] at returned
  cases returned with
  | faulted fault focus => exact absurd focus (ongoing.works fault)
  | executes after focus pending keeps =>
    refine ⟨later + 1, ongoing, .inr ⟨_, _, .executes after registers focus pending, ?_⟩⟩
    rw [keeps.frames, keeps.budget]
    exact less
  | suspends last focus pending => exact ⟨later + 1, ongoing, .inl ⟨⟨last, _, focus⟩, pending⟩⟩
  | stops last reason asked focus pending =>
    exact ⟨later + 1, ongoing, .inl ⟨⟨last, _, focus⟩, pending⟩⟩
  | hooks body last reason asked focus pending => exact guards.ends_of_hook ongoing focus pending

/-- A run whose innermost frame is entered goes on there, or ends. -/
theorem descends_of_enter (guards : Guards host start run) (ongoing : Ongoing host start time)
    (focus : (start.run host time).focus = .enter current)
    (pending : (start.run host time).pending = start.pending)
    (frames : current.execution.frames.length ≤ depth) :
    Descends host start depth (measure depth current.budget (marks current.execution.frames)) := by
  have made : start.run host (time + 1) = (start.run host time).enterFrame host current := by
    rw [run_succ_last, Config.step, focus]
  have ongoing : Ongoing host start (time + 1) :=
    guards.next ongoing (by rw [focus]; rfl) (by simp [focus])
  have entered := (enterFrame_entered host (start.run host time) current).1
  rw [← made] at entered
  refine ⟨time + 1, ongoing, ?_⟩
  cases entered with
  | completes bare ended above => exact .inl ⟨⟨current, _, ended⟩, above.trans pending⟩
  | continues frame outer after top split goes above keeps =>
    refine .inr ⟨_, _, .executes after _ goes (above.trans pending), ?_⟩
    rw [keeps.frames, keeps.budget, split, marks_cons, List.tail_cons]
    rw [split, List.length_cons] at frames
    refine measure_lt_of_marks (by simpa using frames) fun first found => ?_
    cases found
    simp [Registers.mark, Frame.mark]

/-- A run whose instruction is executed comes to stand lower, or ends. -/
theorem descends_of_execute (guards : Guards host start run) (ongoing : Ongoing host start time)
    (focus : (start.run host time).focus = .execute current registers)
    (pending : (start.run host time).pending = start.pending)
    (frames : current.execution.frames.length ≤ depth) :
    Descends host start depth (measure depth current.budget
      (marks current.execution.frames.tail ++ [registers.mark])) := by
  have made : start.run host (time + 1) = (start.run host time).execute host current registers := by
    rw [run_succ_last, Config.step, focus]
  have ongoing : Ongoing host start (time + 1) :=
    guards.next ongoing (by rw [focus]; rfl) (by simp [focus])
  have sound := (guards.sound time).focus
  rw [focus] at sound
  obtain ⟨guarded, reached⟩ := guarded_of_execute guards.hosted (guards.reached.run time) focus
  obtain ⟨frame, outer, split, function, _⟩ := sound.2.innermost
  rw [split, List.tail_cons]
  rw [split, List.length_cons, Nat.succ_le_iff, ← length_marks outer] at frames
  have lower {instruction : Instruction} {pc : Nat} (sp : Nat)
      (reads : registers.instruction? = some instruction) (unchecked : instruction ≠ .loopCheck)
      (leads : instruction.Leads registers.pc pc) :
      (registers.move pc sp).mark + 1 < registers.mark :=
    Registers.mark_lt guarded ⟨reached, instruction, sound.2.listed reads, unchecked, leads⟩ sp
  have acts := (execute_acts host (start.run host time) current registers).1
  rw [← made] at acts
  cases acts with
  | faulted fault focus => exact absurd focus (ongoing.works fault)
  | stuck last focus above =>
    exact ⟨time + 1, ongoing, .inl ⟨⟨last, _, focus⟩, above.trans pending⟩⟩
  | overruns last reads spent focus above =>
    exact ⟨time + 1, ongoing, .inl ⟨⟨last, _, focus⟩, above.trans pending⟩⟩
  | exceeds result argc callee function last stack reads registered full enough stored focus
      above =>
    exact ⟨time + 1, ongoing, .inl ⟨⟨last, _, focus⟩, above.trans pending⟩⟩
  | goes instruction after pc sp reads unchecked uncalling focus above keeps leads =>
    refine ⟨time + 1, ongoing, .inr ⟨_, _, .executes after _ focus (above.trans pending), ?_⟩⟩
    rw [keeps.frames, keeps.budget, split, List.tail_cons]
    refine measure_lt_of_marks frames fun first found => ?_
    cases found
    exact Nat.lt_of_succ_lt (lower sp reads unchecked leads)
  | spends pc reads more focus above leads =>
    refine ⟨time + 1, ongoing, .inr ⟨_, _, .executes _ _ focus (above.trans pending), ?_⟩⟩
    exact measure_lt_of_budget (Nat.sub_lt (by omega) Nat.one_pos) _ _
  | calls kind result argc index method pc start reads known taken focus above leads =>
    refine guards.descends_of_call ongoing focus (by rw [above, pending]) ?_
    rw [split, List.tail_cons]
    refine measure_lt_of_marks frames fun first found => ?_
    cases found
    exact Nat.lt_of_succ_lt (lower _ reads (by simp) leads)
  | enters result argc callee function after pc top reads registered room focus above lasts budget
      entered leads =>
    refine ⟨time + 1, ongoing, .inr ⟨_, _, .enters after focus (above.trans pending), ?_⟩⟩
    rw [budget, entered, marks_cons, marks_saveFrame split ‹frame.function = _› pc 0,
      List.append_assoc]
    refine measure_lt_of_marks frames fun first found => ?_
    cases found
    exact lower 0 reads (by simp) leads
  | leaves kind after reads focus above lasts budget left =>
    refine ⟨time + 1, ongoing, .inr ⟨_, _, .enters after focus (above.trans pending), ?_⟩⟩
    rw [budget, left, split, List.tail_cons]
    nth_rewrite 1 [← List.append_nil (marks outer)]
    exact measure_lt_of_marks frames (by simp)

/-- A run that is at hand comes to stand lower, or ends. -/
theorem descends (guards : Guards host start run) (ongoing : Ongoing host start time) {budget : Nat}
    {marks : List Nat} (stands : (start.run host time).Stands start.pending budget marks) :
    Descends host start (start.greatestDepth run)
      (measure (start.greatestDepth run) budget marks) := by
  have within {current : Run ν σ} (handed : (start.run host time).focus.run? = some current)
      (pending : (start.run host time).pending = start.pending) :
      current.execution.frames.length ≤ start.greatestDepth run :=
    (ongoing.course guards.entered guards.leaves).frames_le (.inl ⟨handed, by rw [pending]⟩)
      ongoing.works
  cases stands with
  | enters current focus pending =>
    exact guards.descends_of_enter ongoing focus pending (within (by rw [focus]; rfl) pending)
  | executes current registers focus pending =>
    exact guards.descends_of_execute ongoing focus pending (within (by rw [focus]; rfl) pending)

/-- A run that is at hand ends. -/
theorem ends (guards : Guards host start run) (ongoing : Ongoing host start time) {budget : Nat}
    {marks : List Nat} (stands : (start.run host time).Stands start.pending budget marks) :
    ∃ last, Ongoing host start last ∧ (start.run host last).EndsAbove start.pending := by
  -- by induction on where the run stands, in the order that the module is about
  generalize found : measure (start.greatestDepth run) budget marks = standing
  induction standing using WellFoundedLT.induction generalizing time budget marks with
  | ind standing ih =>
    obtain ⟨later, ongoing, ended | ⟨budget, marks, stands, lower⟩⟩ :=
      guards.descends ongoing stands
    · exact ⟨later, ongoing, ended⟩
    · exact ih _ (found ▸ lower) ongoing stands rfl

end Guards

/-- Whatever verified and guarded functions the host has registered, every run that begins ends, if
its native methods return and leave the limits unchanged: it is over after a number of steps, it has
been completed, suspended or aborted, and whoever has started it is told how. -/
theorem guarded_runs_end (hosted : host.Asks Request.RegistersGuarded)
    (reached : config.Reachable host Request.RegistersGuarded) (begins : config.Begins host run)
    (unchanged : LeavesLimits host (config.step host))
    (returns : CallbacksReturn host (config.step host)) :
    ∃ time last outcome, Ongoing host (config.step host) time ∧
      ((config.step host).run host time).focus = .ended last outcome ∧ run.Lasts last ∧
      ((config.step host).run host (time + 1)).focus =
        .body (run.reply (run.purpose.answer run.thread outcome last.execution.stack)) ∧
      ((config.step host).run host (time + 1)).pending = (config.step host).pending := by
  have guards : Guards host (config.step host) run :=
    ⟨hosted, reached.step, begins.focus, unchanged, returns⟩
  have first : Ongoing host (config.step host) 0 :=
    ⟨by simp [Config.run, begins.focus], fun _ before => by omega⟩
  obtain ⟨time, ongoing, ⟨last, outcome, ended⟩, level⟩ :=
    guards.ends first (.enters run begins.focus rfl)
  obtain ⟨lasts, _⟩ := (ongoing.course begins.focus unchanged).of_ended ended (by rw [level])
  have lives := guards.lives time (dispatching_of_run (by rw [ended]; rfl))
  rw [run_succ_last] at lives
  refine ⟨time, last, outcome, ongoing, ended, lasts, ?_⟩
  rw [run_succ_last]
  rcases step_of_ended host ended with ⟨fault, faulted⟩ | ⟨told, pending⟩
  · exact absurd faulted (lives fault)
  · rw [lasts.reply, lasts.purpose, lasts.thread] at told
    exact ⟨told, pending.trans level⟩

/-- A function that calls its native method, checks the loop budget and calls itself again and
again. -/
def recurring : Definition Unit where
  name := "recurring"
  code := #[0x29, 0, 0, 0x26, 0x2B, 0, 0, 0x22, 0xF7]
  methods := #[()]

/-- The function that verification makes of `recurring`. -/
theorem verified_recurring : (Function.trusted recurring 0).Verified := by
  have slots : recurring.verify {} = .ok 0 := by decide +kernel
  exact .of_verify slots

/-- Between two loop checks, control comes from the call of itself over the branch to the call of
the native method. -/
theorem guarded_recurring : recurring.Guarded := by
  have listing : recurring.code.instructions.instructions =
      #[(0, .native .static .void 0 0), (3, .loopCheck), (4, .script .void 0 0),
        (7, .branch .always (-9))] := by decide +kernel
  let number (pc : Nat) : Nat := if pc = 4 then 3 else if pc = 7 then 2 else if pc = 0 then 1 else 0
  refine @Definition.Guarded.of_numbers _ _ number fun pc target slips => ?_
  obtain ⟨_, instruction, listed, unchecked, leads⟩ := slips
  rw [listing] at listed
  simp only [Array.mem_def, List.mem_cons, List.not_mem_nil, or_false, Prod.mk.injEq] at listed
  rcases listed with ⟨rfl, rfl⟩ | ⟨rfl, rfl⟩ | ⟨rfl, rfl⟩ | ⟨rfl, rfl⟩
  · cases leads with
    | branch branches lands => cases branches
    | next falls => decide
  · exact absurd rfl unchecked
  · cases leads with
    | branch branches lands => cases branches
    | next falls => decide
  · cases leads with
    | next falls => cases falls
    | branch branches lands =>
      cases branches
      have back : branchTarget? (7 + (Instruction.branch .always (-9)).length) (-9 : Int8).toInt =
          some 0 := by decide +kernel
      obtain rfl := Option.some.inj (back.symm.trans lands)
      decide

/-- The function is run where it may take two loop checks and have three frames. -/
def runningRecurring : Program Unit (List String) Int32 := do
  let _ ← Program.update (.setLimits { loopBudget := 2, callDepth := 3 })
  let _ ← Program.update (.addFunction (.trusted recurring 0))
  let _ ← Program.update .createThread
  let _ ← Program.request (.run ⟨0⟩ ⟨0⟩)
  return 0

/-- A run that calls its native method and its own function without end is over when it meets its
second loop check. -/
theorem guarded_runs_end_recurring :
    let config := (Config.initial {} [] runningRecurring).run recordingHost 3
    recordingHost.Asks Request.RegistersGuarded ∧
      config.Reachable recordingHost Request.RegistersGuarded ∧
      LeavesLimits recordingHost (config.step recordingHost) ∧
      CallbacksReturn recordingHost (config.step recordingHost) ∧
      ∃ run, config.Begins recordingHost run ∧ ∃ time ≤ 9, ∃ last outcome,
        ((config.step recordingHost).run recordingHost time).focus = .ended last outcome := by
  intro config
  have hosted : recordingHost.Asks Request.RegistersGuarded :=
    ⟨fun _ _ => trivial, fun _ _ => trivial⟩
  have asks : runningRecurring.Asks Request.RegistersGuarded :=
    ⟨trivial, fun _ => ⟨⟨verified_recurring, guarded_recurring⟩, fun _ => ⟨trivial, fun _ =>
      ⟨trivial, fun _ => trivial⟩⟩⟩⟩
  have reached : config.Reachable recordingHost Request.RegistersGuarded :=
    (Reachable.initial [] runningRecurring asks).run 3
  obtain ⟨run, begins⟩ : ∃ run, config.Begins recordingHost run := ⟨_, ⟨_, rfl⟩, rfl⟩
  have ended : ((config.step recordingHost).run recordingHost 9).hasEnded = true := by
    decide +kernel
  have level : ((config.step recordingHost).run recordingHost 9).pending.length =
      (config.step recordingHost).pending.length := by decide +kernel
  have unchanged : LeavesLimits recordingHost (config.step recordingHost) := by
    have same : ∀ time ≤ 9,
        ((config.step recordingHost).run recordingHost time).world.domain.limits =
          (config.step recordingHost).world.domain.limits := by decide +kernel
    intro time value current registers call ongoing _ _
    exact same time (ongoing.le_of_hasEnded level ended)
  have returns : CallbacksReturn recordingHost (config.step recordingHost) := by
    -- a body that is at hand has answered at once
    have answers : ∀ time ≤ 9,
        ((config.step recordingHost).run recordingHost time).pending.length =
            (config.step recordingHost).pending.length + 1 →
          ((config.step recordingHost).run recordingHost time).answered? = some 0 := by
      decide +kernel
    intro time body work ongoing _ pending
    have upTo := ongoing.le_of_hasEnded level ended
    exact ⟨0, 0, .of_answered? (answers time upTo (by simp [pending])) rfl
      fun earlier before => by omega⟩
  obtain ⟨time, last, outcome, ongoing, halted, _⟩ :=
    guarded_runs_end hosted reached begins unchanged returns
  exact ⟨hosted, reached, unchanged, returns, run, begins, time,
    ongoing.le_of_hasEnded level ended, last, outcome, halted⟩

end Config

end ScriptMachine

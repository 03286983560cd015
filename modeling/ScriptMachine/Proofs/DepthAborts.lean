import ScriptMachine.Proofs.Courses
import ScriptMachine.Proofs.FreshStarts

/-!
# Results of runs that go too deep

A call that exceeds the call depth leaves a zero behind if it has a result, in the slot where its
arguments begin. Whoever has asked for the result of a function is given the first slot of the
operand stack, whatever the outcome. So the answer is zero if the call that goes too deep has a
result and its arguments begin at the bottom of the stack, and otherwise what the first slot held.
-/

namespace ScriptMachine

variable {ν σ : Type}

namespace Config

variable {host : Host ν σ} {config : Config ν σ} {id : ThreadId} {next : Answer ν → Body ν σ}

/-- Once a result has been stored, the first slot holds the result if it belongs there, and
otherwise what it held before. -/
theorem storeResult_first {stack stored : Array Int32} {result : ResultKind} {base : Nat}
    {value : Int32} (done : storeResult stack result base value = .ok stored) :
    stored[0]?.getD 0 =
      if result = .int ∧ base = 0 then value else stack[0]?.getD 0 := by
  cases result with
  | void =>
    cases done
    simp
  | int =>
    simp only [storeResult] at done
    split at done <;> cases done
    rename_i inside
    by_cases bottom : base = 0
    · subst bottom
      simp [inside]
    · simp [bottom]

/-- A run of a thread is about to execute a call that goes too deep, and this is what the first slot
of its operand stack holds then: the zero that the call leaves behind for its result, if its
arguments begin there, and otherwise what the slot has held before. -/
def GoesTooDeep (config : Config ν σ) (id : ThreadId) (value : Int32) : Prop :=
  ∃ run registers result argc callee, config.focus = .execute run registers ∧ run.thread = id ∧
    registers.instruction? = some (.script result argc callee) ∧ argc.toNat ≤ registers.sp ∧
    config.world.domain.limits.callDepth ≤ run.execution.frames.length ∧
    value = if result = .int ∧ registers.sp = argc.toNat then 0 else run.execution.stack[0]?.getD 0

/-- A run that is aborted for its call depth was about to execute a call that goes too deep. -/
theorem Deliberate.goesTooDeep {run : Run ν σ} {info : AbortInfo} (deliberate : config.Deliberate)
    (ended : (config.step host).focus = .ended run (.aborted info))
    (exceeded : info.reason = .callDepth) :
    config.GoesTooDeep run.thread (run.execution.stack[0]?.getD 0) := by
  obtain ⟨before, registers, focus⟩ := deliberate.executes ended (by rw [exceeded]; rfl)
  have made : config.step host = config.execute host before registers := by
    simp only [Config.step, focus]
  rw [made] at ended
  cases (execute_acts host config before registers).1 with
  | exceeds result argc callee function last stack reads _ full enough stored found _ lasts
      executes =>
    rw [ended] at found
    cases found
    refine ⟨before, registers, result, argc, callee, focus, lasts.thread.symm, reads, enough, full,
      ?_⟩
    have bottom : registers.sp - argc.toNat = 0 ↔ registers.sp = argc.toNat := by omega
    rw [executes, storeResult_first stored]
    simp only [bottom]
  | stuck _ found | overruns _ _ _ found =>
    rw [ended] at found
    cases found
    cases exceeded
  | faulted _ found | goes _ _ _ _ _ _ _ found | spends _ _ _ found
  | calls _ _ _ _ _ _ _ _ _ _ found | enters _ _ _ _ _ _ _ _ _ _ found | leaves _ _ _ found =>
    rw [ended] at found
    cases found

/-- A request for the result of a function that is not refused is answered by the first slot of the
operand stack of the thread, which keeps it. If the run is aborted for its call depth, this is the
zero that the call leaves behind that goes too deep, if this call has a result and its arguments
begin at the bottom of the stack, and otherwise what the slot has held when the call was made. -/
theorem depth_aborts_answer_first_slot {allowed : Request ν → Prop}
    (reached : config.Reachable host allowed) {called : FunctionId} {steps : Nat} {body : Body ν σ}
    (asks : config.focus = .body (.ask (.runInt id called) next))
    (goesOn : config.GoesOn host steps body) :
    config.Refuses host id called next steps body ∨
      ∃ outcome value, body = next (.returned outcome value) ∧
        (∃ thread, (config.run host steps).world.domain.thread? id = some thread ∧
          thread.result? = some value) ∧
        ∀ info, outcome = .aborted info → info.reason = .callDepth →
          (config.run host (steps - 2)).GoesTooDeep id value := by
  have made : config.step host = config.start host id called (some .result) next := by
    simp only [step, asks]
    rfl
  rcases goesOn.enters (linked_of_reachable reached) made with refused |
    ⟨function, moment, room, thread, execution, registered, earlier, enters⟩
  · exact .inl refused
  · obtain ⟨run, outcome, ended, rfl, answers, _⟩ := enters.answers goesOn earlier
    right
    refine ⟨outcome, run.execution.stack[0]?.getD 0, answers, ?_, ?_⟩
    · obtain ⟨thread, present⟩ :=
        (nested_of_reachable (reached.run (steps - 1))).present (by rw [ended]; rfl)
      have last : config.run host steps =
          (config.run host (steps - 1)).finishRun host run outcome := by
        have positive := goesOn.started
        obtain ⟨before, rfl⟩ : ∃ before, steps = before + 1 := ⟨steps - 1, by omega⟩
        rw [run_succ_last]
        simp only [Nat.add_sub_cancel] at ended ⊢
        simp only [Config.step, ended]
      rw [last]
      exact ⟨_, (finishRun_eq host outcome present).2, rfl⟩
    · rintro info rfl exceeded
      have begun : steps - 1 ≠ 0 := by
        intro first
        rw [first, Config.run, asks] at ended
        cases ended
      obtain ⟨before, rfl⟩ : ∃ before, steps = before + 2 := ⟨steps - 2, by omega⟩
      simp only [Nat.add_sub_cancel, Nat.add_succ_sub_one] at ended ⊢
      rw [run_succ_last] at ended
      exact (deliberate_of_reachable (reached.run before)).goesTooDeep ended exceeded

/-- A function that adds its own result to an operand is run for its result where a single frame is
allowed. -/
def addingWithoutEnd : Program Unit Unit Int32 := do
  let _ ← Program.update (.setLimits { callDepth := 1 })
  let _ ← Program.update (.addFunction (.trusted adding 2))
  let _ ← Program.update .createThread
  match ← Program.request (.runInt ⟨0⟩ ⟨0⟩) with
  | .returned (.aborted info) value => if info.reason = .callDepth then return value else return 0
  | _ => return 0

/-- The first slot holds the operand of the function when the call goes too deep. -/
theorem depth_aborts_answer_first_slot_adding :
    let config := (Config.initial {} () addingWithoutEnd).run idleHost 3
    config.Reachable idleHost (fun _ => True) ∧
      (∃ next, config.focus = .body (.ask (.runInt ⟨0⟩ ⟨0⟩) next)) ∧
      config.GoesOn idleHost 5 (.done 3) ∧ (config.run idleHost 3).GoesTooDeep ⟨0⟩ 3 := by
  intro config
  have reached : config.Reachable idleHost (fun _ => True) :=
    (Reachable.initial () addingWithoutEnd (Program.asks_of_forall (fun _ => trivial) _)).run 3
  have goesOn : config.GoesOn idleHost 5 (.done 3) :=
    .of_speaks (by decide) (answered?_eq_some.1 (by decide +kernel)) (by decide +kernel)
      (by decide +kernel)
  refine ⟨reached, ⟨_, rfl⟩, goesOn, ?_⟩
  rcases depth_aborts_answer_first_slot reached rfl goesOn with (⟨_, answer⟩ | ⟨_, _, _, answer⟩) |
    ⟨outcome, value, answer, _, tooDeep⟩
  · cases answer
  · cases answer
  · cases outcome with
    | completed | suspended => cases answer
    | aborted info =>
      by_cases exceeded : info.reason = .callDepth
      · rw [Program.done.inj (answer.trans (if_pos exceeded))]
        exact tooDeep info rfl exceeded
      · cases answer.trans (if_neg exceeded)

/-- The run of a verified function that is aborted for its call depth answers an operand of the
function, and the thread keeps it as its result. -/
theorem depth_abort_answers_operand :
    let configs := fun steps => (Config.initial {} () addingWithoutEnd).run idleHost steps
    idleHost.Asks Request.RegistersVerified ∧
      (configs 3).Reachable idleHost Request.RegistersVerified ∧
      ∃ next, (configs 3).focus = .body (.ask (.runInt ⟨0⟩ ⟨0⟩) next) ∧
        (configs 3).GoesOn idleHost 5
          (next (.returned (.aborted ⟨"adding", 2, .callDepth⟩) 3)) ∧
        ((configs 8).world.domain.thread? ⟨0⟩).bind Thread.result? = some 3 := by
  intro configs
  have hosted : idleHost.Asks Request.RegistersVerified := ⟨fun _ _ => trivial, fun _ _ => trivial⟩
  have asks : addingWithoutEnd.Asks Request.RegistersVerified := by
    refine ⟨trivial, fun _ => ⟨verified_adding, fun _ => ⟨trivial, fun _ => ⟨trivial, ?_⟩⟩⟩⟩
    intro answer
    simp only [Program.bind]
    split
    · split <;> trivial
    · trivial
  refine ⟨hosted, .run (.initial () addingWithoutEnd asks) 3, _, rfl, ?_, by decide +kernel⟩
  exact .of_speaks (by decide) (answered?_eq_some.1 (by decide +kernel)) (by decide +kernel)
    (by decide +kernel)

end Config

end ScriptMachine

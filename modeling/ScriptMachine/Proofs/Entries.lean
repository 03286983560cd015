import ScriptMachine.Proofs.Replies

/-!
# What an entry function returns

The outermost frame of a run belongs to the function that the run was started with, whatever frames
come and go above it. The run is complete only when this frame has returned, and what the frame
returns lies in the first slot of the operand stack then. Whoever asked for a result is given this
slot.
-/

namespace ScriptMachine

variable {ν σ : Type}

/-- Only a return leaves the frame. It puts what it returns into the first slot of the frame. -/
theorem Instruction.effect_eq_ret {reach : Variables} {base sp : Nat} {stack after : Array Int32}
    {instruction : Instruction} (leaves : instruction.effect reach base stack sp = .ret after) :
    ∃ kind, instruction = .ret kind ∧
      match kind with
      | .void => after = stack
      | .int => ∃ value, Effect.top? stack sp = some value ∧ base < stack.size ∧
          after = stack.set! base value := by
  have notPushed (value : Int32) : Effect.push stack sp value ≠ .ret after := by
    unfold Effect.push
    split <;> simp
  have notVariable (values : Array Int32) (index : UInt8) :
      Effect.pushVariable stack sp values index ≠ .ret after := by
    unfold Effect.pushVariable
    split
    · exact notPushed _
    · simp
  have notTop {height : Nat} {next : Int32 → Effect} (goes : ∀ value, next value ≠ .ret after) :
      Effect.withTop stack height next ≠ .ret after := by
    unfold Effect.withTop
    split
    · exact goes _
    · simp
  have notBranched (test : Test) (delta : Int) :
      Effect.branchOn stack sp test delta ≠ .ret after := by
    unfold Effect.branchOn
    split
    · simp
    all_goals
      refine notTop fun value => ?_
      split <;> simp
  cases instruction with
  | ret kind =>
    refine ⟨kind, rfl, ?_⟩
    cases kind with
    | void =>
      cases leaves
      rfl
    | int =>
      simp only [effect, Effect.withTop] at leaves
      split at leaves
      · rename_i value top
        split at leaves
        · rename_i inside
          cases leaves
          exact ⟨value, top, inside, rfl⟩
        · cases leaves
      · cases leaves
  | const value | const8 value => exact absurd leaves (notPushed _)
  | globalLoad index | specialLoad index | threadLoad index =>
    exact absurd leaves (notVariable _ index)
  | branch test delta | longBranch test delta => exact absurd leaves (notBranched test _)
  | dup => exact absurd leaves (notTop notPushed)
  | unary op => exact absurd leaves (notTop fun value => by simp)
  | binary op => exact absurd leaves (notTop fun second => notTop fun first => by simp)
  | localStore index =>
    refine absurd leaves (notTop fun value => ?_)
    dsimp only
    split <;> simp
  | localLoad index =>
    simp only [effect] at leaves
    split at leaves
    · exact absurd leaves (notPushed _)
    · cases leaves
  | globalStore index =>
    simp only [effect] at leaves
    split at leaves
    · cases leaves
    · split at leaves
      · exact absurd leaves (notTop fun value => by simp)
      · cases leaves
  | pop | native kind result argc method =>
    simp only [effect] at leaves
    split at leaves <;> cases leaves
  | nop | loopCheck | script result argc callee => cases leaves

/-- The run was started by a request for the result of a function, and answers it. -/
structure Run.Owed (run : Run ν σ) (id : ThreadId) (next : Answer ν → Body ν σ) : Prop where
  thread : run.thread = id
  purpose : run.purpose = .result
  reply : run.reply = next

/-- The outermost frame of a run belongs to this function, and its locals start here. -/
def Run.Outermost (run : Run ν σ) (function : Function ν) (base : Nat) : Prop :=
  ∃ inner frame, run.execution.frames = inner ++ [frame] ∧ frame.function = function ∧
    frame.base = base

/-- A run with frames has an outermost one. -/
theorem Run.exists_outermost {run : Run ν σ} (occupied : run.execution.frames ≠ []) :
    ∃ function base, run.Outermost function base := by
  obtain nothing | ⟨inner, frame, frames⟩ := List.eq_nil_or_concat run.execution.frames
  · exact absurd nothing occupied
  · exact ⟨frame.function, frame.base, inner, frame, by simpa using frames, rfl, rfl⟩

/-- A run is in the innermost of its frames. -/
def Run.Innermost (run : Run ν σ) (registers : Registers ν) : Prop :=
  ∃ frame frames, run.execution.frames = frame :: frames ∧
    frame.function = registers.function ∧ frame.base = registers.base

section

variable {run : Run ν σ} {id : ThreadId} {next : Answer ν → Body ν σ} {function : Function ν}
  {base : Nat}

/-- Recording where to continue changes neither the thread of a run nor whom it answers. -/
theorem Run.Owed.saveFrame (owed : run.Owed id next) (pc top : Nat) :
    (run.saveFrame pc top).Owed id next := by
  unfold Run.saveFrame
  split
  · exact owed
  · exact ⟨owed.thread, owed.purpose, owed.reply⟩

/-- Recording where to continue leaves the outermost frame to its function. -/
theorem Run.Outermost.saveFrame (outermost : run.Outermost function base) (pc top : Nat) :
    (run.saveFrame pc top).Outermost function base := by
  obtain ⟨inner, frame, frames, same, base⟩ := outermost
  unfold Run.saveFrame
  cases inner with
  | nil =>
    rw [frames]
    exact ⟨[], { frame with pc := some pc, top }, rfl, same, base⟩
  | cons first inner =>
    rw [frames]
    exact ⟨{ first with pc := some pc, top } :: inner, frame, rfl, same, base⟩

/-- A frame that is entered lies above the outermost one. -/
theorem Run.Outermost.push (outermost : run.Outermost function base) (frame : Frame ν) :
    (run.setFrames (frame :: run.execution.frames)).Outermost function base := by
  obtain ⟨inner, last, frames, same, base⟩ := outermost
  exact ⟨frame :: inner, last, by simp [Run.setFrames, frames], same, base⟩

end

namespace Config

variable {host : Host ν σ} {config : Config ν σ} {id : ThreadId} {function : Function ν}
  {base : Nat} {next : Answer ν → Body ν σ} {rest : List (Pending ν σ)}

/-- The run of a thread is about to leave its only frame, one of this function, with a value: what
the function returns, or what is in the first slot when it returns nothing. -/
def HandsOver (config : Config ν σ) (id : ThreadId) (function : Function ν) (value : Int32) :
    Prop :=
  ∃ run registers kind following, config.focus = .execute run registers ∧ run.thread = id ∧
    (∃ frame, run.execution.frames = [frame]) ∧ registers.function = function ∧
    registers.base = 0 ∧
    Instruction.decode function.code registers.pc = .ok (.ret kind, following) ∧
    match kind with
    | .void => value = run.execution.stack[0]?.getD 0
    | .int => Effect.top? run.execution.stack registers.sp = some value

/-- A request for the result of a function is being served: the run it has started is at hand or
waits for a body, and its outermost frame belongs to the function, until this frame has handed over
what it returns or the run stops early. -/
inductive Serves (id : ThreadId) (function : Function ν) (base : Nat) (next : Answer ν → Body ν σ)
    (rest : List (Pending ν σ)) (handed : Int32 → Prop) (config : Config ν σ) : Prop where
  | enters (run : Run ν σ) (focus : config.focus = .enter run) (pending : config.pending = rest)
    (owed : run.Owed id next) (outermost : run.Outermost function base)
  | executes (run : Run ν σ) (registers : Registers ν)
    (focus : config.focus = .execute run registers) (pending : config.pending = rest)
    (owed : run.Owed id next) (outermost : run.Outermost function base)
    (innermost : run.Innermost registers)
  | calls (inner : List (Pending ν σ)) (run : Run ν σ) (registers : Registers ν) (call : NativeCall)
    (pending : config.pending = inner ++ .calling run registers call :: rest)
    (owed : run.Owed id next) (outermost : run.Outermost function base)
    (innermost : run.Innermost registers)
  | stops (inner : List (Pending ν σ)) (run : Run ν σ) (stopped : Function ν) (pc : Nat)
    (reason : AbortReason)
    (pending : config.pending = inner ++ .aborting (.stop run stopped pc reason) :: rest)
    (owed : run.Owed id next)
  | leaves (run : Run ν σ) (focus : config.focus = .enter run) (pending : config.pending = rest)
    (owed : run.Owed id next) (bare : run.execution.frames = [])
    (given : base = 0 → handed (run.execution.stack[0]?.getD 0))
  | ends (run : Run ν σ) (outcome : Outcome) (focus : config.focus = .ended run outcome)
    (pending : config.pending = rest) (owed : run.Owed id next)
    (given : outcome = .completed → base = 0 → handed (run.execution.stack[0]?.getD 0))
  | faulted (fault : Fault) (focus : config.focus = .faulted fault)

namespace Serves

variable {run : Run ν σ} {registers : Registers ν} {handed : Int32 → Prop} {thread : ThreadId}
  {stopped : Function ν} {pc : Nat} {reason : AbortReason} {call : NativeCall}

/-- Stopping for a misuse. -/
theorem stop {config : Config ν σ} (fault : Fault) :
    (config.goto (.faulted fault)).Serves id function base next rest handed := .faulted fault rfl

/-- What is handed over is handed over later too. -/
theorem mono {later : Int32 → Prop} (serves : config.Serves id function base next rest handed)
    (grows : ∀ value, handed value → later value) :
    config.Serves id function base next rest later := by
  cases serves with
  | enters run focus pending owed outermost => exact .enters run focus pending owed outermost
  | executes run registers focus pending owed outermost innermost =>
    exact .executes run registers focus pending owed outermost innermost
  | calls inner run registers call pending owed outermost innermost =>
    exact .calls inner run registers call pending owed outermost innermost
  | stops inner run stopped pc reason pending owed =>
    exact .stops inner run stopped pc reason pending owed
  | leaves run focus pending owed bare given =>
    exact .leaves run focus pending owed bare fun bottom => grows _ (given bottom)
  | ends run outcome focus pending owed given =>
    exact .ends run outcome focus pending owed fun completed bottom =>
      grows _ (given completed bottom)
  | faulted fault focus => exact .faulted fault focus

/-- A run that is aborted. -/
theorem abortRun (above : config.pending = rest) (owed : run.Owed id next) :
    (config.abortRun host run stopped pc reason).Serves id function base next rest handed :=
  .ends (run.setFrames []) _ rfl above ⟨owed.thread, owed.purpose, owed.reply⟩ (by simp)

/-- A run that is stopped after an abort. -/
theorem afterAbort (above : config.pending = rest) (owed : run.Owed id next) :
    (config.afterAbort host (.stop run stopped pc reason)).Serves id function base next rest
      handed := by
  unfold Config.afterAbort
  exact abortRun above owed

/-- A run that is stopped once its thread has been detached. -/
theorem detach (above : config.pending = rest) (owed : run.Owed id next) :
    (config.detach host thread (.stop run stopped pc reason)).Serves id function base next rest
      handed := by
  refine attempt_induction stop fun ⟨domain, hook⟩ _ => ?_
  dsimp only
  split
  · exact afterAbort above owed
  · exact afterAbort above owed
  · exact .stops [] run stopped pc reason (congrArg _ above) owed

/-- A frame that is entered. -/
theorem enterFrame (above : config.pending = rest) (owed : run.Owed id next)
    (outermost : run.Outermost function base) :
    (config.enterFrame host run).Serves id function base next rest handed := by
  unfold Config.enterFrame
  split
  · rename_i bare
    obtain ⟨inner, last, frames, _⟩ := outermost
    simp [bare] at frames
  · rename_i frame outer first
    have here : run.Innermost ⟨frame.function, frame.base, 0, 0⟩ := ⟨frame, outer, first, rfl, rfl⟩
    split
    · exact .executes run _ rfl above owed outermost here
    · refine .executes (run.setStack _) _ rfl (by simp [above]) ?_ outermost here
      exact ⟨owed.thread, owed.purpose, owed.reply⟩

/-- A frame that is left: if it is the outermost one, its value has been handed over. -/
theorem leaveFrame {left : Function ν} {stack : Array Int32} (above : config.pending = rest)
    (owed : run.Owed id next) (outermost : run.Outermost function base)
    (given : (∃ frame, run.execution.frames = [frame]) → base = 0 → handed (stack[0]?.getD 0)) :
    (config.leaveFrame host run left stack).Serves id function base next rest handed := by
  have same : ((run.setStack stack).setFrames run.execution.frames.tail).Owed id next :=
    ⟨owed.thread, owed.purpose, owed.reply⟩
  have pending : (config.leaveFrame host run left stack).pending = rest := by
    simp [Config.leaveFrame, above]
  obtain ⟨inner, last, frames, belongs⟩ := outermost
  cases inner with
  | nil =>
    refine .leaves _ rfl pending same ?_ (given ⟨last, frames⟩)
    simp [Run.setFrames, frames]
  | cons first inner =>
    refine .enters _ rfl pending same ⟨inner, last, ?_, belongs⟩
    simp [Run.setFrames, frames]

/-- A native method that is called. -/
theorem callNative (above : config.pending = rest) (owed : run.Owed id next)
    (outermost : run.Outermost function base) (innermost : run.Innermost registers) :
    (config.callNative host run registers pc call).Serves id function base next rest handed := by
  unfold Config.callNative
  split
  · exact abortRun above owed
  · dsimp only
    split
    · refine .calls [] run (registers.move pc (call.base + call.result.count)) call ?_ owed
        outermost innermost
      rw [← above]
      simp [Registers.move]
    · exact stop _

/-- A native method that answers. -/
theorem returnNative (above : config.pending = rest) (owed : run.Owed id next)
    (outermost : run.Outermost function base) (innermost : run.Innermost registers)
    (value : Int32) :
    (config.returnNative host run registers call value).Serves id function base next rest
      handed := by
  refine returnNative_induction fun shown emitted => ?_
  replace above : shown.pending = rest := by rw [← emitted, emit_pending, above]
  refine ⟨stop, fun stack thread _ _ => ?_⟩
  have same : (run.setStack stack).Owed id next := ⟨owed.thread, owed.purpose, owed.reply⟩
  refine ⟨fun reason _ => ?_, fun _ _ => ?_, fun _ _ => ?_⟩
  · exact @detach _ _ host (shown.setDomain _) id function base next rest (run.setStack stack)
      handed run.thread registers.function call.pc reason above same
  · exact .ends _ .suspended rfl (by simp [above]) (same.saveFrame ..) (by simp)
  · exact .executes _ registers rfl above same outermost innermost

/-- A script function that is called. -/
theorem callScript {result : ResultKind} {callee : FunctionId} {argc : Nat}
    (above : config.pending = rest) (owed : run.Owed id next)
    (outermost : run.Outermost function base) :
    (config.callScript host run registers pc result callee argc).Serves id function base next rest
      handed := by
  have saved := owed.saveFrame pc (registers.sp - argc + result.count)
  have same : ∀ execution, Run.Owed { run.saveFrame pc (registers.sp - argc + result.count) with
      execution } id next := fun _ => ⟨saved.thread, saved.purpose, saved.reply⟩
  exact callScript_induction stop (fun _ => abortRun above owed) fun _ _ _ =>
    ⟨fun stack _ _ => abortRun above (same _), fun _ => .enters _ rfl above (same _)
      ((outermost.saveFrame ..).push _)⟩

/-- An instruction that is executed. -/
theorem execute (focus : config.focus = .execute run registers) (above : config.pending = rest)
    (owed : run.Owed id next) (outermost : run.Outermost function base)
    (innermost : run.Innermost registers)
    (hands : ∀ value, config.HandsOver id function value → handed value) :
    (config.execute host run registers).Serves id function base next rest handed := by
  refine execute_induction (abortRun above owed)
    fun instruction following shown decoded emitted => ?_
  replace above : shown.pending = rest := by rw [← emitted, emit_pending, above]
  refine {
    stops := stop
    aborts _ := abortRun above owed
    goes _ _ _ _ := .executes _ _ rfl above ⟨owed.thread, owed.purpose, owed.reply⟩ outermost
      innermost
    writes _ _ _ _ := .executes run _ rfl above owed outermost innermost
    native _ _ _ _ _ := callNative above owed outermost innermost
    script _ _ _ _ := callScript above owed outermost
    leaves _ _ does := leaveFrame above owed outermost fun single bottom => hands _ ?_ }
  obtain ⟨only, frames⟩ := single
  obtain ⟨kind, rfl, returned⟩ := Instruction.effect_eq_ret does
  obtain ⟨inner, last, outer, belongs, lowest⟩ := outermost
  obtain ⟨frame, others, first, function, place⟩ := innermost
  obtain ⟨rfl, rfl⟩ := List.cons.inj (frames.symm.trans first)
  obtain rfl : last = only := by
    rw [frames] at outer
    exact (List.append_eq_singleton_iff.1 outer.symm).elim
      (fun found => (List.cons.inj found.2).1) (fun found => by simp at found)
  rw [belongs] at function
  rw [lowest, bottom] at place
  refine ⟨run, registers, kind, following, focus, owed.thread, ⟨last, frames⟩, function.symm,
    place.symm, function ▸ decoded, ?_⟩
  cases kind with
  | void => rw [returned]
  | int =>
    obtain ⟨value, top, inside, rfl⟩ := returned
    rw [← place] at inside ⊢
    simpa [inside] using top

/-- The body at hand, if there is one, lies above the body that made the request. -/
theorem inside (serves : config.Serves id function base next rest handed) {body : Body ν σ}
    (found : config.focus = .body body) : rest.length < config.pending.length := by
  cases serves with
  | calls inner run registers call pending | stops inner run stopped pc reason pending =>
    rw [pending]
    simp only [List.length_append, List.length_cons]
    omega
  | enters run focus | executes run registers focus | leaves run focus | ends run outcome focus
  | faulted fault focus =>
    rw [found] at focus
    cases focus

/-- A step serves the request further, unless the run has ended and the body that made the request
is told so. -/
theorem step {later : Int32 → Prop} (serves : config.Serves id function base next rest handed)
    (grows : ∀ value, handed value → later value)
    (hands : ∀ value, config.HandsOver id function value → later value) :
    (config.step host).Serves id function base next rest later ∨
      ∃ run outcome, config.focus = .ended run outcome ∧ run.Owed id next ∧
        (outcome = .completed → base = 0 → later (run.execution.stack[0]?.getD 0)) ∧
        (config.step host).focus =
          .body (next (.returned outcome (run.execution.stack[0]?.getD 0))) ∧
        (config.step host).pending = rest := by
  cases serves with
  | enters run focus pending owed outermost =>
    left
    simp only [Config.step, focus]
    exact enterFrame pending owed outermost
  | executes run registers focus pending owed outermost innermost =>
    left
    simp only [Config.step, focus]
    exact execute focus pending owed outermost innermost hands
  | calls inner run registers call pending owed outermost innermost =>
    left
    rcases @step_waiting _ _ host _ _ _ _ pending with ⟨more, below⟩ | ⟨rfl, value, ended⟩ |
      ⟨fault, focus⟩
    · exact .calls more run registers call below owed outermost innermost
    · rw [step_of_calling ended pending]
      refine returnNative ?_ owed outermost innermost value
      rfl
    · exact .faulted fault focus
  | stops inner run stopped pc reason pending owed =>
    left
    rcases @step_waiting _ _ host _ _ _ _ pending with ⟨more, below⟩ | ⟨rfl, value, ended⟩ |
      ⟨fault, focus⟩
    · exact .stops more run stopped pc reason below owed
    · rw [step_of_aborting ended pending]
      refine afterAbort ?_ owed
      rfl
    · exact .faulted fault focus
  | leaves run focus pending owed bare given =>
    left
    simp only [Config.step, focus, Config.enterFrame, bare]
    exact .ends run .completed rfl pending owed fun _ bottom => grows _ (given bottom)
  | ends run outcome focus pending owed given =>
    rcases step_of_ended host focus with ⟨fault, faulted⟩ | ⟨answers, above⟩
    · exact .inl (.faulted fault faulted)
    · rw [owed.reply, owed.purpose] at answers
      exact .inr ⟨run, outcome, focus, owed,
        fun completed bottom => grows _ (given completed bottom), answers, above.trans pending⟩
  | faulted fault focus =>
    refine .inl (.faulted fault ?_)
    simp only [Config.step, focus]

end Serves

/-- A request for the result of a function that is being served at some moment is served until the
run that it has started ends. A run that is complete has handed over what the function returns. -/
theorem GoesOn.served {steps middle : Nat} {body : Body ν σ}
    (goesOn : config.GoesOn host steps body) (started : 0 < middle) (earlier : middle < steps)
    (serves : (config.run host middle).Serves id function base next config.pending fun _ => False) :
    ∃ run outcome, (config.run host (steps - 1)).focus = .ended run outcome ∧ run.thread = id ∧
      body = next (.returned outcome (run.execution.stack[0]?.getD 0)) ∧
      (outcome = .completed → base = 0 → ∃ last < steps,
        (config.run host last).HandsOver id function (run.execution.stack[0]?.getD 0)) := by
  let handed (steps : Nat) (value : Int32) : Prop :=
    ∃ last < steps, (config.run host last).HandsOver id function value
  have further (moment : Nat)
      (here : (config.run host moment).Serves id function base next config.pending
        (handed moment)) :=
    @Serves.step _ _ host _ _ _ _ _ _ _ (handed (moment + 1)) here
      (fun value ⟨last, past, hands⟩ => ⟨last, Nat.lt_succ_of_lt past, hands⟩)
      (fun value hands => ⟨moment, Nat.lt_succ_self _, hands⟩)
  have serving (moment : Nat) (after : middle ≤ moment) (before : moment < steps) :
      (config.run host moment).Serves id function base next config.pending (handed moment) := by
    induction moment with
    | zero => omega
    | succ moment ih =>
      rcases Nat.eq_or_lt_of_le after with rfl | later
      · exact serves.mono fun value none => none.elim
      · rw [run_succ_last]
        rcases further moment (ih (by omega) (by omega)) with still | ⟨_, _, _, _, _, focus, above⟩
        · exact still
        · rw [← run_succ_last] at focus above
          exact absurd focus (goesOn.first (moment + 1) (by omega) before (by rw [above]) _)
  have last : steps - 1 + 1 = steps := by omega
  have ends := further (steps - 1) (serving (steps - 1) (by omega) (by omega))
  rw [← run_succ_last, last] at ends
  rcases ends with still | ⟨run, outcome, focus, owed, given, answers, _⟩
  · have inside := still.inside goesOn.focus
    rw [goesOn.level] at inside
    exact absurd inside (Nat.lt_irrefl _)
  · rw [goesOn.focus] at answers
    exact ⟨run, outcome, focus, owed.thread, Focus.body.inj answers, given⟩

end Config

end ScriptMachine

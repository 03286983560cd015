import ScriptMachine.Proofs.Activations
import ScriptMachine.Proofs.Nesting

/-!
# Requests and their answers

A body that makes a request goes on with an answer to it, and with nothing else. Until then the way
it goes on is kept by the run or the abort that the request has started, and everything that runs in
between lies above: the work that waited when the request was made is not touched before the body
goes on.
-/

namespace ScriptMachine

variable {ν σ : Type}

/-- How the body goes on that asked for an abort, or for what the abort is part of. -/
def AfterAbort.continuation : AfterAbort ν σ → Answer ν → Body ν σ
  | .reply next => next
  | .start _ _ _ next => next
  | .stop run _ _ _ => run.reply

/-- How the body goes on that waits for the work. -/
def Pending.continuation : Pending ν σ → Answer ν → Body ν σ
  | .calling run _ _ => run.reply
  | .aborting next => next.continuation

namespace Config

/-- A request with this continuation, made above this waiting work, is answered, has started a run,
has called back, or has stopped the machine. -/
inductive Follows (next : Answer ν → Body ν σ) (rest : List (Pending ν σ))
    (config : Config ν σ) : Prop where
  | answered (answer : Answer ν) (focus : config.focus = .body (next answer))
    (pending : config.pending = rest)
  | runs (run : Run ν σ) (focus : config.focus.run? = some run) (reply : run.reply = next)
    (pending : config.pending = rest)
  | waits (body : Body ν σ) (work : Pending ν σ) (focus : config.focus = .body body)
    (continues : work.continuation = next) (pending : config.pending = work :: rest)
  | faulted (fault : Fault) (focus : config.focus = .faulted fault)

namespace Follows

variable {host : Host ν σ} {config : Config ν σ} {run : Run ν σ} {registers : Registers ν}
  {next : Answer ν → Body ν σ} {rest : List (Pending ν σ)}

/-- Stopping for a misuse. -/
theorem stop {config : Config ν σ} (fault : Fault) :
    (config.goto (.faulted fault)).Follows next rest := .faulted fault rfl

/-- A thread that begins to run. -/
theorem launch {id : ThreadId} {purpose : Purpose} (above : config.pending = rest) :
    (config.launch host id purpose next).Follows next rest := by
  refine attempt_induction stop fun thread _ => ?_
  split
  · exact .answered _ rfl above
  · refine .runs _ rfl rfl ?_
    dsimp only
    split
    · exact above
    · simp [above]

/-- A run that ends. -/
theorem finishRun {outcome : Outcome} (above : config.pending = rest) :
    (config.finishRun host run outcome).Follows run.reply rest :=
  attempt_induction stop fun thread _ => .answered _ rfl (by simp [above])

/-- A run that is aborted. -/
theorem abortRun {function : Function ν} {pc : Nat} {reason : AbortReason}
    (above : config.pending = rest) :
    (config.abortRun host run function pc reason).Follows run.reply rest :=
  .runs (run.setFrames []) rfl rfl above

/-- What follows an abort. -/
theorem afterAbort {next : AfterAbort ν σ} (above : config.pending = rest) :
    (config.afterAbort host next).Follows next.continuation rest := by
  cases next with
  | reply next => exact .answered _ rfl above
  | stop run function pc reason => exact abortRun above
  | start id function purpose next =>
    refine attempt_induction stop fun thread _ => ?_
    split
    · exact .answered _ rfl above
    · cases purpose with
      | none => exact .answered _ rfl above
      | some purpose => exact launch above

/-- A thread that is detached. -/
theorem detach {id : ThreadId} {next : AfterAbort ν σ} (above : config.pending = rest) :
    (config.detach host id next).Follows next.continuation rest := by
  refine attempt_induction stop fun ⟨domain, hook⟩ _ => ?_
  dsimp only
  split
  · exact afterAbort above
  · exact afterAbort above
  · exact .waits _ (.aborting next) rfl rfl (congrArg _ above)

/-- A thread that is aborted. -/
theorem abort {id : ThreadId} {reason : AbortReason} {next : AfterAbort ν σ}
    (above : config.pending = rest) :
    (config.abort host id reason next).Follows next.continuation rest :=
  attempt_induction stop fun _ _ => detach above

/-- A thread that is given a fresh frame. -/
theorem start {id : ThreadId} {function : FunctionId} {purpose : Option Purpose}
    (above : config.pending = rest) :
    (config.start host id function purpose next).Follows next rest := by
  refine start_induction stop (fun _ => .answered _ rfl above) (fun _ _ _ => .answered _ rfl above)
    fun registered _ _ _ _ _ => ?_
  let after : AfterAbort ν σ := .start id registered purpose next
  exact ⟨fun _ => @abort _ _ host config rest id .requested after above,
    fun _ _ => @afterAbort _ _ host config rest after above⟩

/-- A thread that goes on. -/
theorem continueThread {id : ThreadId} {purpose : Purpose} (above : config.pending = rest) :
    (config.continueThread host id purpose next).Follows next rest := by
  refine attempt_induction stop fun thread _ => ?_
  dsimp only
  split
  · exact .answered _ rfl above
  · exact launch above

/-- A thread that the host resumes. -/
theorem resume {id : ThreadId} (above : config.pending = rest) :
    (config.resume host id next).Follows next rest :=
  resume_induction stop (fun _ => .answered _ rfl above) fun _ _ _ _ _ => continueThread above

/-- A thread that is woken through its queue. -/
theorem wake {queue : QueueId} {value : Option Int32} (above : config.pending = rest) :
    (config.wake host queue value next).Follows next rest :=
  wake_induction stop (fun _ => .answered _ rfl above) (fun _ _ _ _ _ => .answered _ rfl above)
    fun _ _ _ _ _ _ _ _ => ⟨stop, fun _ _ => .answered _ rfl above, fun _ _ =>
      continueThread above⟩

/-- A request that is carried out. -/
theorem perform {request : Request ν} (above : config.pending = rest) :
    (config.perform host request next).Follows next rest := by
  cases request with
  | observe => exact .answered _ rfl above
  | update update => exact attempt_induction stop fun _ _ => .answered _ rfl above
  | start id function => exact start above
  | run id function => exact start above
  | runInt id function => exact start above
  | resume id => exact resume above
  | abort id => exact @abort _ _ host config rest id .requested (.reply next) above
  | faultActive error =>
    unfold Config.perform
    dsimp only
    split
    · exact .answered _ rfl above
    · exact @abort _ _ host config rest _ _ (.reply next) above
  | wake queue value => exact wake above

/-- A frame that is entered. -/
theorem enterFrame (above : config.pending = rest) :
    (config.enterFrame host run).Follows run.reply rest := by
  unfold Config.enterFrame
  split
  · exact .runs run rfl rfl above
  · split
    · exact .runs run rfl rfl above
    · exact .runs _ rfl rfl (by simp [above])

/-- A frame that is left. -/
theorem leaveFrame {function : Function ν} {stack : Array Int32}
    (above : config.pending = rest) :
    (config.leaveFrame host run function stack).Follows run.reply rest :=
  .runs _ rfl rfl (by simp [Config.leaveFrame, above])

/-- A native method that is called. -/
theorem callNative {pc : Nat} {call : NativeCall} (above : config.pending = rest) :
    (config.callNative host run registers pc call).Follows run.reply rest := by
  unfold Config.callNative
  split
  · exact abortRun above
  · dsimp only
    split
    · refine .waits _ (.calling run (registers.move pc (call.base + call.result.count)) call) rfl
        rfl ?_
      rw [← above]
      simp [Registers.move]
    · exact stop _

/-- A native method that answers. -/
theorem returnNative {call : NativeCall} {value : Int32} (above : config.pending = rest) :
    (config.returnNative host run registers call value).Follows run.reply rest := by
  refine returnNative_induction fun shown emitted => ?_
  replace above : shown.pending = rest := by rw [← emitted, emit_pending, above]
  refine ⟨stop, fun stack thread _ _ => ⟨fun reason _ => ?_, fun _ _ => ?_, fun _ _ => ?_⟩⟩
  · exact @detach _ _ host (shown.setDomain _) rest run.thread
      (.stop (run.setStack stack) registers.function call.pc reason) above
  · exact .runs _ rfl (Run.reply_saveFrame _ _ _) (by simp [above])
  · exact .runs _ rfl rfl above

/-- A script function that is called. -/
theorem callScript {pc : Nat} {result : ResultKind} {callee : FunctionId} {argc : Nat}
    (above : config.pending = rest) :
    (config.callScript host run registers pc result callee argc).Follows run.reply rest := by
  refine callScript_induction stop (fun _ => abortRun above) fun function _ _ => ?_
  rw [← run.reply_saveFrame pc (registers.sp - argc + result.count)]
  exact ⟨fun stack _ _ => @abortRun _ _ host config (Run.setStack _ stack) _ _ _ _ above,
    fun _ => .runs _ rfl rfl above⟩

/-- An instruction that is executed. -/
theorem execute (above : config.pending = rest) :
    (config.execute host run registers).Follows run.reply rest := by
  refine execute_induction (abortRun above) fun instruction pc shown _ emitted => ?_
  replace above : shown.pending = rest := by rw [← emitted, emit_pending, above]
  exact {
    stops := stop
    aborts _ := abortRun above
    goes _ _ _ _ := .runs _ rfl rfl above
    writes _ _ _ _ := .runs run rfl rfl above
    native _ _ _ _ _ := callNative above
    script _ _ _ _ := callScript above
    leaves _ _ _ := leaveFrame above }

/-- A body that ends lets the work that waited for it go on. -/
theorem finishBody {work : Pending ν σ} {value : Int32}
    (waiting : config.pending = work :: rest) :
    (config.finishBody host value).Follows work.continuation rest := by
  unfold Config.finishBody
  rw [waiting]
  cases work with
  | calling run registers call => exact returnNative rfl
  | aborting next => exact afterAbort rfl

/-- A step of a run. -/
theorem step_run (focus : config.focus.run? = some run) (above : config.pending = rest) :
    (config.step host).Follows run.reply rest := by
  unfold Config.step
  split
  all_goals rename_i found; rw [found] at focus; try cases focus
  · exact enterFrame above
  · exact execute above
  · exact finishRun above

end Follows

/-- A request with this continuation, made above this waiting work, has not been answered yet: a run
that it has started is at hand, or a body above that run or above an abort. -/
inductive Owes (next : Answer ν → Body ν σ) (rest : List (Pending ν σ))
    (config : Config ν σ) : Prop where
  | running (run : Run ν σ) (focus : config.focus.run? = some run) (reply : run.reply = next)
    (pending : config.pending = rest)
  | waiting (work : Pending ν σ) (inner : List (Pending ν σ))
    (continues : work.continuation = next) (pending : config.pending = inner ++ work :: rest)

/-- A request is answered, is still owed an answer, or has stopped the machine. -/
inductive Progresses (next : Answer ν → Body ν σ) (rest : List (Pending ν σ))
    (config : Config ν σ) : Prop where
  | answered (answer : Answer ν) (focus : config.focus = .body (next answer))
    (pending : config.pending = rest)
  | owes (owes : config.Owes next rest)
  | faulted (fault : Fault) (focus : config.focus = .faulted fault)

section

variable {host : Host ν σ} {config : Config ν σ} {next : Answer ν → Body ν σ}
  {rest : List (Pending ν σ)}

/-- A request that has been made progresses. -/
theorem Follows.progresses (follows : config.Follows next rest) :
    config.Progresses next rest := by
  cases follows with
  | answered answer focus pending => exact .answered answer focus pending
  | runs run focus reply pending => exact .owes (.running run focus reply pending)
  | waits body work focus continues pending => exact .owes (.waiting work [] continues pending)
  | faulted fault focus => exact .faulted fault focus

/-- A body that ends lets the run go on that called it. -/
theorem step_of_calling {run : Run ν σ} {registers : Registers ν} {call : NativeCall}
    {value : Int32} (ended : config.focus = .body (.done value))
    (waiting : config.pending = .calling run registers call :: rest) :
    config.step host =
      { config with pending := rest }.returnNative host run registers call value := by
  simp only [Config.step, ended, finishBody]
  rw [waiting]

/-- A hook that ends lets the abort go on that called it. -/
theorem step_of_aborting {after : AfterAbort ν σ} {value : Int32}
    (ended : config.focus = .body (.done value))
    (waiting : config.pending = .aborting after :: rest) :
    config.step host = { config with pending := rest }.afterAbort host after := by
  simp only [Config.step, ended, finishBody]
  rw [waiting]

/-- When a run ends, whoever started it is told how, unless the machine stops. -/
theorem step_of_ended (host : Host ν σ) {run : Run ν σ} {outcome : Outcome}
    (ended : config.focus = .ended run outcome) :
    (∃ fault, (config.step host).focus = .faulted fault) ∨
      (config.step host).focus =
          .body (run.reply (run.purpose.answer run.thread outcome run.execution.stack)) ∧
        (config.step host).pending = config.pending := by
  simp only [Config.step, ended, finishRun]
  cases config.world.domain.thread run.thread with
  | error fault => exact .inl ⟨fault, rfl⟩
  | ok thread => exact .inr ⟨rfl, by simp⟩

/-- What follows a request leaves the waiting work below alone. -/
theorem Follows.beneath (follows : config.Follows next rest) :
    (∃ inner, config.pending = inner ++ rest) ∨ ∃ fault, config.focus = .faulted fault := by
  cases follows with
  | answered answer focus pending => exact .inl ⟨[], pending⟩
  | runs run focus reply pending => exact .inl ⟨[], pending⟩
  | waits body work focus continues pending => exact .inl ⟨[work], pending⟩
  | faulted fault focus => exact .inr ⟨fault, focus⟩

/-- Waiting work stays as it is until the body right above it has ended. -/
theorem step_waiting {work : Pending ν σ} {inner : List (Pending ν σ)}
    (pending : config.pending = inner ++ work :: rest) :
    (∃ inner, (config.step host).pending = inner ++ work :: rest) ∨
      (inner = [] ∧ ∃ value, config.focus = .body (.done value)) ∨
      ∃ fault, (config.step host).focus = .faulted fault := by
  have beneath {next : Answer ν → Body ν σ} {upper : List (Pending ν σ)}
      (follows : (config.step host).Follows next (upper ++ work :: rest)) :
      (∃ inner, (config.step host).pending = inner ++ work :: rest) ∨
        (inner = [] ∧ ∃ value, config.focus = .body (.done value)) ∨
        ∃ fault, (config.step host).focus = .faulted fault := by
    rcases follows.beneath with ⟨more, below⟩ | faulted
    · exact .inl ⟨more ++ upper, by rw [below, List.append_assoc]⟩
    · exact .inr (.inr faulted)
  cases at' : config.focus with
  | enter run | execute run registers | ended run outcome =>
    have focus : config.focus.run? = some run := by rw [at']; rfl
    rw [← at']
    exact beneath (.step_run focus pending)
  | finished value | faulted fault =>
    refine .inl ⟨inner, ?_⟩
    simpa only [Config.step, at'] using pending
  | body body =>
    cases body with
    | ask request resume =>
      rw [← at']
      refine @beneath resume inner ?_
      simpa only [Config.step, at'] using Follows.perform pending
    | modify change resume =>
      refine .inl ⟨inner, ?_⟩
      simpa only [Config.step, at'] using pending
    | crash fault =>
      refine .inr (.inr ⟨fault, ?_⟩)
      simp only [Config.step, at', goto_focus]
    | done value =>
      cases inner with
      | nil => exact .inr (.inl ⟨rfl, value, rfl⟩)
      | cons upper inner =>
        have follows : (config.step host).Follows upper.continuation (inner ++ work :: rest) := by
          simp only [Config.step, at']
          exact Follows.finishBody pending
        rw [← at']
        exact beneath follows

/-- A step towards the answer to a request. -/
theorem Owes.step (owes : config.Owes next rest) : (config.step host).Progresses next rest := by
  cases owes with
  | running run focus reply pending =>
    rw [← reply]
    exact (Follows.step_run focus pending).progresses
  | waiting work inner continues pending =>
    rcases @step_waiting _ _ host _ _ _ _ pending with ⟨more, below⟩ | ⟨rfl, value, ended⟩ |
      ⟨fault, focus⟩
    · exact .owes (.waiting work more continues below)
    · have goes : config.step host = config.finishBody host value := by
        simp only [Config.step, ended]
      rw [goes, ← continues]
      exact (Follows.finishBody pending).progresses
    · exact .faulted fault focus

/-- Until the body right above waiting work has ended, the work stays as it is. -/
theorem run_waiting {work : Pending ν σ} (pending : config.pending = work :: rest) (steps : Nat) :
    (∃ inner, (config.run host steps).pending = inner ++ work :: rest) ∨
      (∃ middle < steps, (∃ value, (config.run host middle).focus = .body (.done value)) ∧
        (config.run host middle).pending = work :: rest) ∨
      ∃ fault, (config.run host steps).focus = .faulted fault := by
  induction steps with
  | zero => exact .inl ⟨[], pending⟩
  | succ steps ih =>
    rw [run_succ_last]
    rcases ih with ⟨inner, waits⟩ | ⟨middle, earlier, found⟩ | ⟨fault, faulted⟩
    · rcases @step_waiting _ _ host _ _ _ _ waits with still | ⟨rfl, ended⟩ | faulted
      · exact .inl still
      · exact .inr (.inl ⟨steps, Nat.lt_succ_self _, ended, waits⟩)
      · exact .inr (.inr faulted)
    · exact .inr (.inl ⟨middle, Nat.lt_succ_of_lt earlier, found⟩)
    · refine .inr (.inr ⟨fault, ?_⟩)
      rw [step_of_isFinal host (by simp [isFinal, faulted])]
      exact faulted

/-- A machine that has stopped for a misuse stays so. -/
theorem run_of_faulted {fault : Fault} (focus : config.focus = .faulted fault) (steps : Nat) :
    (config.run host steps).focus = .faulted fault := by
  rw [run_of_isFinal host (by simp [isFinal, focus])]
  exact focus

/-- The machine, which carries out a body, arrives at the end of this body after a number of steps,
for the first time. -/
structure Returns (host : Host ν σ) (config : Config ν σ) (steps : Nat) (value : Int32) :
    Prop where
  ends : (config.run host steps).focus = .body (.done value)
  level : (config.run host steps).pending.length = config.pending.length
  first : ∀ earlier < steps, (config.run host earlier).pending.length = config.pending.length →
    ∀ value, (config.run host earlier).focus ≠ .body (.done value)

/-- The machine, which carries out a request, is back at the body that has made it after a number of
steps, for the first time, and the body goes on like this. -/
structure GoesOn (host : Host ν σ) (config : Config ν σ) (steps : Nat) (body : Body ν σ) :
    Prop where
  started : 0 < steps
  focus : (config.run host steps).focus = .body body
  level : (config.run host steps).pending.length = config.pending.length
  first : ∀ between, 0 < between → between < steps →
    (config.run host between).pending.length = config.pending.length →
    ∀ other, (config.run host between).focus ≠ .body other

/-- What the body at hand answers, if it has ended. -/
def answered? (config : Config ν σ) : Option Int32 :=
  match config.focus with
  | .body (.done value) => some value
  | _ => none

/-- A body that has ended is at hand when it answers. -/
theorem answered?_eq_some {value : Int32} :
    config.answered? = some value ↔ config.focus = .body (.done value) := by
  unfold answered?
  split
  · rename_i found
    simp [found]
  · rename_i other
    simp only [reduceCtorEq, false_iff]
    exact other value

/-- A body returns if it answers after a number of steps and not before. -/
theorem Returns.of_answered? {steps : Nat} {value : Int32}
    (ends : (config.run host steps).answered? = some value)
    (level : (config.run host steps).pending.length = config.pending.length)
    (first : ∀ earlier < steps, (config.run host earlier).pending.length = config.pending.length →
      (config.run host earlier).answered? = none) : config.Returns host steps value where
  ends := answered?_eq_some.1 ends
  level := level
  first earlier before same value found := by
    have none := first earlier before same
    rw [answered?_eq_some.2 found] at none
    cases none

/-- The first body that is at hand at the level of the request, after the request, is the one that
goes on. -/
theorem GoesOn.arrives {steps moment : Nat} {body other : Body ν σ}
    (goesOn : config.GoesOn host steps body) (after : 0 < moment) (upTo : moment ≤ steps)
    (focus : (config.run host moment).focus = .body other)
    (level : (config.run host moment).pending = config.pending) :
    moment = steps ∧ other = body := by
  rcases Nat.eq_or_lt_of_le upTo with rfl | earlier
  · exact ⟨rfl, Focus.body.inj (focus.symm.trans goesOn.focus)⟩
  · exact absurd focus (goesOn.first moment after earlier (by rw [level]) other)

/-- The machine has not stopped before it carries out a body. -/
theorem works_of_body {steps moment : Nat} {body : Body ν σ}
    (focus : (config.run host steps).focus = .body body) (upTo : moment ≤ steps) (fault : Fault) :
    (config.run host moment).focus ≠ .faulted fault := by
  intro faulted
  have stays := @run_of_faulted _ _ host _ fault faulted (steps - moment)
  rw [← run_add, Nat.add_sub_cancel' upTo, focus] at stays
  cases stays

/-- The machine has not stopped before a body goes on. -/
theorem GoesOn.works {steps moment : Nat} {body : Body ν σ}
    (goesOn : config.GoesOn host steps body) (upTo : moment ≤ steps) (fault : Fault) :
    (config.run host moment).focus ≠ .faulted fault := works_of_body goesOn.focus upTo fault

/-- The machine has not stopped before a body returns. -/
theorem Returns.works {steps moment : Nat} {value : Int32}
    (returns : config.Returns host steps value) (upTo : moment ≤ steps) (fault : Fault) :
    (config.run host moment).focus ≠ .faulted fault := works_of_body returns.ends upTo fault

/-- Up to a number of steps after a request, it has been answered, is still owed an answer, or has
stopped the machine. -/
theorem run_ask {request : Request ν} (asks : config.focus = .body (.ask request next))
    (steps : Nat) :
    (∃ middle answer, 0 < middle ∧ middle ≤ steps ∧
        (config.run host middle).focus = .body (next answer) ∧
        (config.run host middle).pending = config.pending ∧
        ∀ between, 0 < between → between < middle →
          (config.run host between).Owes next config.pending) ∨
      (∀ between, 0 < between → between ≤ steps →
        (config.run host between).Owes next config.pending) ∨
      ∃ fault, (config.run host steps).focus = .faulted fault := by
  -- What a step towards the answer adds to what is known of the steps before.
  have extend (last : Nat)
      (before : ∀ between, 0 < between → between ≤ last →
        (config.run host between).Owes next config.pending)
      (progress : (config.run host (last + 1)).Progresses next config.pending) :
      (∃ middle answer, 0 < middle ∧ middle ≤ last + 1 ∧
        (config.run host middle).focus = .body (next answer) ∧
        (config.run host middle).pending = config.pending ∧
        ∀ between, 0 < between → between < middle →
          (config.run host between).Owes next config.pending) ∨
      (∀ between, 0 < between → between ≤ last + 1 →
        (config.run host between).Owes next config.pending) ∨
      ∃ fault, (config.run host (last + 1)).focus = .faulted fault := by
    cases progress with
    | answered answer focus pending =>
      exact .inl ⟨last + 1, answer, by omega, Nat.le_refl _, focus, pending,
        fun between positive earlier => before between positive (by omega)⟩
    | owes owes =>
      refine .inr (.inl fun between positive upTo => ?_)
      rcases Nat.lt_or_ge between (last + 1) with earlier | here
      · exact before between positive (by omega)
      · obtain rfl : between = last + 1 := by omega
        exact owes
    | faulted fault focus => exact .inr (.inr ⟨fault, focus⟩)
  induction steps with
  | zero => exact .inr (.inl fun between positive upTo => by omega)
  | succ steps ih =>
    rcases ih with ⟨middle, answer, positive, upTo, found⟩ | owing | ⟨fault, faulted⟩
    · exact .inl ⟨middle, answer, positive, by omega, found⟩
    · refine extend steps owing ?_
      cases steps with
      | zero =>
        have made : config.run host 1 = config.perform host request next := by
          rw [run_succ, Config.run]
          simp only [Config.step, asks]
        rw [made]
        exact (Follows.perform rfl).progresses
      | succ steps =>
        rw [run_succ_last]
        exact (owing (steps + 1) (by omega) (Nat.le_refl _)).step
    · refine .inr (.inr ⟨fault, ?_⟩)
      rw [run_add]
      exact run_of_faulted faulted 1

/-- A body that makes a request and ends later is given an answer first, and ends from there. -/
theorem Returns.ask {request : Request ν} {steps : Nat} {value : Int32}
    (asks : config.focus = .body (.ask request next)) (returns : config.Returns host steps value) :
    ∃ middle answer, 0 < middle ∧ middle ≤ steps ∧
      (config.run host middle).focus = .body (next answer) ∧
      (config.run host middle).pending = config.pending ∧
      (∀ between, 0 < between → between < middle →
        (config.run host between).Owes next config.pending) ∧
      (config.run host middle).Returns host (steps - middle) value := by
  have positive : 0 < steps := by
    rcases Nat.eq_zero_or_pos steps with none | some
    · subst none
      have ends := returns.ends
      simp only [Config.run, asks] at ends
      cases ends
    · exact some
  rcases run_ask asks steps with ⟨middle, answer, started, upTo, focus, pending, between⟩ |
    owing | ⟨fault, faulted⟩
  · refine ⟨middle, answer, started, upTo, focus, pending, between, ?_, ?_, ?_⟩
    · rw [← run_add, Nat.add_sub_cancel' upTo]
      exact returns.ends
    · rw [← run_add, Nat.add_sub_cancel' upTo, pending]
      exact returns.level
    · intro earlier before level
      rw [← run_add] at level ⊢
      exact returns.first (middle + earlier) (by omega) (by rw [level, pending])
  · have ends := returns.ends
    have level := returns.level
    cases owing steps positive (Nat.le_refl _) with
    | running run focus reply pending =>
      rw [ends] at focus
      cases focus
    | waiting work inner continues pending =>
      rw [pending] at level
      simp only [List.length_append, List.length_cons] at level
      omega
  · have ends := returns.ends
    rw [faulted] at ends
    cases ends

/-- A body that makes an update returns after the step that carries it out. -/
theorem Returns.update {steps : Nat} {value : Int32} {request : Request ν}
    (returns : config.Returns host steps value)
    (asks : config.focus = .body (.ask request next))
    (level : (config.step host).pending = config.pending) :
    ∃ left, steps = left + 1 ∧ (config.step host).Returns host left value := by
  cases steps with
  | zero =>
    have ends := returns.ends
    simp only [Config.run, asks] at ends
    cases ends
  | succ left =>
    refine ⟨left, rfl, ?_, ?_, fun earlier before same => ?_⟩
    · rw [← run_succ]
      exact returns.ends
    · rw [← run_succ, level]
      exact returns.level
    · rw [← run_succ] at same ⊢
      exact returns.first (earlier + 1) (by omega) (by rw [same, level])

/-- While a request is owed an answer, the body at hand, if there is one, lies above the body that
made the request. -/
theorem Owes.inside (owes : config.Owes next rest) {body : Body ν σ}
    (focus : config.focus = .body body) : rest.length < config.pending.length := by
  cases owes with
  | running run found reply pending =>
    rw [focus] at found
    cases found
  | waiting work inner continues pending =>
    rw [pending]
    simp only [List.length_append, List.length_cons]
    omega

end

end Config

end ScriptMachine

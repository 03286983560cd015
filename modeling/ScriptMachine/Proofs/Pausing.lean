import ScriptMachine.Proofs.Reachable
import ScriptMachine.Proofs.Tables

/-!
# Native methods that pause

An environment says what native methods do that depend on nothing but their arguments and the
globals, and affect nothing but the globals. A host can let each native call answer at once, or
pause: the call suspends the thread and answers a placeholder, and the host supplies the result and
resumes the thread later. A schedule says which of the calls pause, by their numbers in the order in
which they are made. The host keeps a transcript of the calls and of how the run of the thread ends.
-/

namespace ScriptMachine

variable {ν σ : Type}

/-- What native methods do: the globals that they write, in turn, and what they answer, by their
arguments and the globals they find. -/
abbrev Environment (ν : Type) := ν → List Int32 → Array Int32 → List (UInt8 × Int32) × Int32

/-- How a native call pauses. -/
structure Pause where
  /-- The queue in which the thread waits; without one it is only suspended. -/
  queue : Option QueueId
  /-- What the call answers for the time being. -/
  placeholder : Int32

/-- A native call that has been made. -/
structure Call (ν : Type) where
  method : ν
  arguments : List Int32
  /-- What the call answers, or is owed if it pauses. -/
  result : Int32

/-- What the host keeps of a run. -/
structure Transcript (ν : Type) where
  /-- The native calls, in order. -/
  calls : List (Call ν) := []
  /-- The pause that lasts, and the result that the thread is owed. -/
  owed : Option (Pause × Int32) := none
  /-- How the run has ended. -/
  ending : Option Outcome := none

/-- Records a call, and the pause that it begins. -/
def Transcript.add (transcript : Transcript ν) (call : Call ν) (pause : Option Pause) :
    Transcript ν :=
  { transcript with
    calls := transcript.calls ++ [call]
    owed := pause.map fun pause => (pause, call.result) }

/-- Writes globals in turn. A write to a global that is not there is refused. -/
def Program.writeGlobals : List (UInt8 × Int32) → Program ν σ Unit
  | [] => return ()
  | (index, value) :: writes => do
    let _ ← Program.update (.setGlobal index value)
    writeGlobals writes

/-- Suspends the active thread, in the queue if there is one. -/
def Pause.begin (pause : Pause) : Program ν σ Unit :=
  match pause.queue with
  | none => do
    let _ ← Program.update (.suspendActive none)
    return ()
  | some queue => do
    match (← Program.world).domain.active with
    | none => return ()
    | some thread =>
      let _ ← Program.update (.park queue thread)
      return ()

/-- Answers a result at once, or pauses and answers the placeholder. -/
def Pause.answer (result : Int32) : Option Pause → Program ν σ Int32
  | none => return result
  | some pause => do
    pause.begin
    return pause.placeholder

namespace Environment

/-- A native method, which pauses if the schedule says so. -/
def native (environment : Environment ν) (schedule : Nat → Option Pause) (method : ν)
    (arguments : List Int32) : Program ν (Transcript ν) Int32 := do
  let effect := environment method arguments (← Program.world).domain.globals
  Program.writeGlobals effect.1
  let pause := schedule (← Program.state).calls.length
  Program.change fun transcript => transcript.add ⟨method, arguments, effect.2⟩ pause
  Pause.answer effect.2 pause

/-- A host with these native methods, which pays no heed to anything else. -/
def host (environment : Environment ν) (schedule : Nat → Option Pause) :
    Host ν (Transcript ν) where
  native := environment.native schedule
  onAbort _ _ := .done 0
  onLimit _ _ transcript := transcript
  onEvent _ _ transcript := transcript

end Environment

/-- How a run has ended, if the answer tells. -/
def Answer.outcome? : Answer ν → Option Outcome
  | .ran outcome | .returned outcome _ | .woke (some (_, outcome)) => some outcome
  | _ => none

namespace Program

/-- Records how the run has ended. -/
def conclude (answer : Answer ν) : Program ν (Transcript ν) Int32 := do
  Program.change fun transcript => { transcript with ending := answer.outcome? }
  return 0

/-- Supplies the result that a suspended thread is owed and resumes it, for a number of times, and
records how its run has ended. -/
def settle (thread : ThreadId) : Nat → Answer ν → Program ν (Transcript ν) Int32
  | 0, answer => conclude answer
  | rounds + 1, answer =>
    match answer.outcome? with
    | some .suspended => do
      let owed := (← Program.state).owed
      Program.change fun transcript => { transcript with owed := none }
      match owed with
      | none => conclude answer
      | some (⟨none, _⟩, result) =>
        let _ ← Program.update (.supplyResult thread result)
        settle thread rounds (← Program.request (.resume thread))
      | some (⟨some queue, _⟩, result) =>
        settle thread rounds (← Program.request (.wake queue (some result)))
    | _ => conclude answer

/-- Runs a function on a thread, and sees the thread through a number of pauses. -/
def play (thread : ThreadId) (function : FunctionId) (rounds : Nat) :
    Program ν (Transcript ν) Int32 := do
  settle thread rounds (← Program.request (.run thread function))

end Program

/-- The globals after some writes in turn. -/
def written (globals : Array Int32) : List (UInt8 × Int32) → Array Int32
  | [] => globals
  | (index, value) :: writes =>
    written (if index.toNat < globals.size then globals.set! index.toNat value else globals) writes

namespace Config

/-- The machine passes from one configuration to another. -/
def Passes (host : Host ν σ) (config next : Config ν σ) : Prop :=
  ∃ steps, config.run host steps = next

namespace Passes

variable {host : Host ν σ} {config middle next : Config ν σ}

/-- The machine passes from each configuration to itself. -/
theorem refl (config : Config ν σ) : config.Passes host config := ⟨0, rfl⟩

/-- One passage after another. -/
theorem trans (first : config.Passes host middle) (second : middle.Passes host next) :
    config.Passes host next := by
  obtain ⟨before, rfl⟩ := first
  obtain ⟨after, arrived⟩ := second
  exact ⟨before + after, (run_add host config before after).trans arrived⟩

/-- A passage that begins with a step. -/
theorem step (passes : (config.step host).Passes host next) : config.Passes host next := by
  obtain ⟨steps, arrived⟩ := passes
  exact ⟨steps + 1, (run_succ host config steps).trans arrived⟩

/-- A machine that comes to its end does so from every configuration that it passes to. -/
theorem remaining (passes : config.Passes host next) {steps : Nat}
    (ends : (config.run host steps).isFinal = true) :
    ∃ left ≤ steps, next.run host left = config.run host steps := by
  obtain ⟨count, rfl⟩ := passes
  by_cases upTo : count ≤ steps
  · refine ⟨steps - count, Nat.sub_le _ _, ?_⟩
    rw [← run_add, Nat.add_sub_cancel' upTo]
  · have later : steps ≤ count := by omega
    refine ⟨0, Nat.zero_le _, ?_⟩
    rw [← Nat.add_sub_cancel' later, run_add, run_of_isFinal host ends]
    rfl

/-- A machine that comes to its end passes to what it runs through before, and to the end. -/
theorem early_or_last (passes : config.Passes host next) {steps : Nat}
    (ends : (config.run host steps).isFinal = true) :
    (∃ count < steps, config.run host count = next) ∨ next = config.run host steps := by
  obtain ⟨count, arrived⟩ := passes
  by_cases early : count < steps
  · exact .inl ⟨count, early, arrived⟩
  · right
    have later : steps + (count - steps) = count := by omega
    rw [← arrived, ← later, run_add, run_of_isFinal host ends]

/-- A machine comes to one end. -/
theorem ends (passes : config.Passes host next) (final : next.isFinal = true) {steps : Nat}
    (ends : (config.run host steps).isFinal = true) : config.run host steps = next := by
  obtain ⟨left, _, arrived⟩ := passes.remaining ends
  rw [← arrived, run_of_isFinal host final]

end Passes

/-- An update is carried out in one step. -/
theorem step_update {host : Host ν σ} {config : Config ν σ} {update : Update ν}
    {next : Answer ν → Body ν σ} {world : World ν} {answer : Answer ν}
    (done : update.apply config.world = .ok (world, answer)) :
    (config.goto (.body (.ask (.update update) next))).step host =
      { config with world, focus := .body (next answer) } := by
  simp only [Config.step, goto_focus, perform, goto_world, done, attempt_ok]
  rfl

/-- Writing globals in turn. -/
theorem passes_writeGlobals (host : Host ν σ) (writes : List (UInt8 × Int32))
    (config : Config ν σ) (next : Unit → Body ν σ) :
    (config.goto (.body ((Program.writeGlobals writes).bind next))).Passes host
      ((config.setDomain { config.world.domain with
        globals := written config.world.domain.globals writes }).goto (.body (next ()))) := by
  induction writes generalizing config with
  | nil => exact .refl _
  | cons first writes ih =>
    obtain ⟨index, value⟩ := first
    have asks : (Program.writeGlobals ((index, value) :: writes)).bind next =
        .ask (.update (.setGlobal index value)) fun _ =>
          (Program.writeGlobals writes).bind next := rfl
    let globals := if index.toNat < config.world.domain.globals.size then
      config.world.domain.globals.set! index.toNat value else config.world.domain.globals
    obtain ⟨answer, made⟩ : ∃ answer, Update.apply config.world (.setGlobal index value) =
        .ok ({ config.world with domain := { config.world.domain with globals } }, answer) := by
      simp only [Update.apply, Domain.setGlobal, Domain.writeVariable, globals]
      by_cases inside : index.toNat < config.world.domain.globals.size
      · simp only [if_pos inside]
        exact ⟨_, rfl⟩
      · simp only [if_neg inside]
        exact ⟨_, rfl⟩
    apply Passes.step
    rw [asks, step_update made]
    exact ih (config.setDomain { config.world.domain with globals })

end Config

namespace Environment

/-- The configuration once a native method has written its globals and the call is recorded. -/
def carry (environment : Environment ν) (config : Config ν (Transcript ν)) (method : ν)
    (arguments : List Int32) (pause : Option Pause) : Config ν (Transcript ν) :=
  let domain := config.world.domain
  let effect := environment method arguments domain.globals
  { config.setDomain { domain with globals := written domain.globals effect.1 } with
    state := config.state.add ⟨method, arguments, effect.2⟩ pause }

/-- A native method takes effect, and answers or pauses. -/
theorem passes_native (environment : Environment ν) (schedule : Nat → Option Pause)
    {host : Host ν (Transcript ν)} (config : Config ν (Transcript ν)) (method : ν)
    (arguments : List Int32) :
    (config.goto (.body (environment.native schedule method arguments))).Passes host
      ((environment.carry config method arguments (schedule config.state.calls.length)).goto
        (.body (Pause.answer (environment method arguments config.world.domain.globals).2
          (schedule config.state.calls.length)))) := by
  let effect := environment method arguments config.world.domain.globals
  let rest : Unit → Body ν (Transcript ν) := fun _ => .modify id fun transcript =>
    .modify (fun now => now.add ⟨method, arguments, effect.2⟩ (schedule transcript.calls.length))
      fun _ => Pause.answer effect.2 (schedule transcript.calls.length)
  have looks : (config.goto (.body (environment.native schedule method arguments))).step host =
      config.goto (.body ((Program.writeGlobals effect.1).bind rest)) := rfl
  apply Config.Passes.step
  rw [looks]
  exact (config.passes_writeGlobals host effect.1 rest).trans (.step (.step (.refl _)))

/-- The host does not show that it is shown an event. -/
@[simp] theorem emit_host (environment : Environment ν) (schedule : Nat → Option Pause)
    (config : Config ν (Transcript ν)) (event : Event ν) :
    config.emit (environment.host schedule) event = config := by
  unfold Config.emit
  split
  · split <;> rfl
  · rfl

/-- The host does not show that it is told of a limit. -/
@[simp] theorem abortRun_host (environment : Environment ν) (schedule : Nat → Option Pause)
    (config : Config ν (Transcript ν)) (run : Run ν (Transcript ν)) (function : Function ν)
    (pc : Nat) (reason : AbortReason) :
    config.abortRun (environment.host schedule) run function pc reason =
      config.goto (.ended (run.setFrames []) (.aborted ⟨function.name, pc, reason⟩)) := by
  unfold Config.abortRun
  dsimp only
  split
  · split <;> rfl
  · rfl

end Environment

end ScriptMachine

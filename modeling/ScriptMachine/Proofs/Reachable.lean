import Mathlib
import ScriptMachine.Machine.Step

/-!
# Reachable configurations

The host begins with an empty world, carries out one body after the other, and answers callbacks
with bodies of its own. A configuration is reachable when the machine passes through it in this
way. What bodies may ask for is a parameter, so that a property that rests on the restraint of the
host says so, and one that does not holds for every parameter.
-/

namespace ScriptMachine

variable {ν σ α β : Type}

/-- Every request that a program can make, however it is answered, is allowed. -/
def Program.Asks (allowed : Request ν → Prop) : Program ν σ α → Prop
  | .done _ => True
  | .ask request next => allowed request ∧ ∀ answer, Program.Asks allowed (next answer)
  | .modify _ next => ∀ state, Program.Asks allowed (next state)
  | .crash _ => True

/-- A program makes only allowed requests if every request is allowed. -/
theorem Program.asks_of_forall {allowed : Request ν → Prop} (every : ∀ request, allowed request)
    (program : Program ν σ α) : program.Asks allowed := by
  induction program with
  | done result => trivial
  | ask request next ih => exact ⟨every request, ih⟩
  | modify change next ih => exact ih
  | crash fault => trivial

/-- A program that makes only allowed requests does so if more is allowed. -/
theorem Program.Asks.mono {allowed wider : Request ν → Prop}
    (implies : ∀ request, allowed request → wider request) {program : Program ν σ α}
    (asks : program.Asks allowed) : program.Asks wider := by
  induction program with
  | done result => trivial
  | ask request next ih => exact ⟨implies request asks.1, fun answer => ih answer (asks.2 answer)⟩
  | modify change next ih => exact fun state => ih state (asks state)
  | crash fault => trivial

/-- Every request that a callback of the host can make is allowed. -/
structure Host.Asks (host : Host ν σ) (allowed : Request ν → Prop) : Prop where
  native : ∀ method arguments, (host.native method arguments).Asks allowed
  onAbort : ∀ hook id, (host.onAbort hook id).Asks allowed

/-- A host that makes only allowed requests does so if more is allowed. -/
theorem Host.Asks.mono {host : Host ν σ} {allowed wider : Request ν → Prop}
    (implies : ∀ request, allowed request → wider request) (asks : host.Asks allowed) :
    host.Asks wider :=
  ⟨fun method arguments => (asks.native method arguments).mono implies,
    fun hook id => (asks.onAbort hook id).mono implies⟩

namespace Config

/-- The configurations that the machine passes through for a host whose bodies make only allowed
requests. The host may change its own state between two bodies. -/
inductive Reachable (host : Host ν σ) (allowed : Request ν → Prop) : Config ν σ → Prop where
  | initial (state : σ) (body : Body ν σ) (asks : body.Asks allowed) :
    Reachable host allowed (.initial {} state body)
  /-- The host goes on with another body once one has ended. -/
  | again {config : Config ν σ} {value : Int32} (reached : Reachable host allowed config)
    (ended : config.focus = .finished value) (state : σ) (body : Body ν σ)
    (asks : body.Asks allowed) : Reachable host allowed (.initial config.world state body)
  | step {config : Config ν σ} (reached : Reachable host allowed config) :
    Reachable host allowed (config.step host)

/-- What is reachable stays so if more is allowed. -/
theorem Reachable.mono {host : Host ν σ} {allowed wider : Request ν → Prop}
    (implies : ∀ request, allowed request → wider request) {config : Config ν σ}
    (reached : Reachable host allowed config) : Reachable host wider config := by
  induction reached with
  | initial state body asks => exact .initial state body (asks.mono implies)
  | again reached ended state body asks ih => exact .again ih ended state body (asks.mono implies)
  | step reached ih => exact ih.step

/-! ## Runs of the machine -/

/-- A machine that has come to an end stays as it is. -/
theorem step_of_isFinal (host : Host ν σ) {config : Config ν σ} (final : config.isFinal) :
    config.step host = config := by
  unfold isFinal at final
  unfold step
  split at final
  · rename_i found
    rw [found]
  · rename_i found
    rw [found]
  · contradiction

/-- A machine that has come to an end does not run. -/
theorem run_of_isFinal (host : Host ν σ) {config : Config ν σ} (final : config.isFinal)
    (fuel : Nat) : config.run host fuel = config := by
  cases fuel with
  | zero => rfl
  | succ fuel => simp only [run, final, ↓reduceIte]

/-- A run begins with a step. -/
theorem run_succ (host : Host ν σ) (config : Config ν σ) (fuel : Nat) :
    config.run host (fuel + 1) = (config.step host).run host fuel := by
  by_cases final : config.isFinal
  · rw [step_of_isFinal host final, run_of_isFinal host final, run_of_isFinal host final]
  · simp only [run, final, Bool.false_eq_true, ↓reduceIte]

/-- Two runs in a row are one run. -/
theorem run_add (host : Host ν σ) (config : Config ν σ) (first second : Nat) :
    config.run host (first + second) = (config.run host first).run host second := by
  induction first generalizing config with
  | zero => simp only [Nat.zero_add, run]
  | succ first ih => rw [Nat.succ_add, run_succ, run_succ, ih]

/-- A run ends with a step. -/
theorem run_succ_last (host : Host ν σ) (config : Config ν σ) (fuel : Nat) :
    config.run host (fuel + 1) = (config.run host fuel).step host := by
  rw [run_add, run_succ]
  rfl

/-- What is reached by a run from a reachable configuration is reachable. -/
theorem Reachable.run {host : Host ν σ} {allowed : Request ν → Prop} {config : Config ν σ}
    (reached : Reachable host allowed config) (fuel : Nat) :
    Reachable host allowed (config.run host fuel) := by
  induction fuel with
  | zero => exact reached
  | succ fuel ih =>
    rw [run_succ_last]
    exact ih.step

/-! ## Pieces of a step -/

/-- A property of all outcomes of an attempt holds of the attempt. -/
theorem attempt_induction {property : Config ν σ → Prop} {config : Config ν σ}
    {result : Except Fault α} {next : α → Config ν σ}
    (stopped : ∀ fault, property (config.goto (.faulted fault)))
    (went : ∀ value, result = .ok value → property (next value)) :
    property (config.attempt result next) := by
  cases result with
  | error fault => exact stopped fault
  | ok value => exact went value rfl

@[simp] theorem attempt_ok (config : Config ν σ) (value : α) (next : α → Config ν σ) :
    config.attempt (.ok value) next = next value := rfl

@[simp] theorem goto_world (config : Config ν σ) (focus : Focus ν σ) :
    (config.goto focus).world = config.world := rfl

@[simp] theorem goto_state (config : Config ν σ) (focus : Focus ν σ) :
    (config.goto focus).state = config.state := rfl

@[simp] theorem goto_focus (config : Config ν σ) (focus : Focus ν σ) :
    (config.goto focus).focus = focus := rfl

@[simp] theorem goto_pending (config : Config ν σ) (focus : Focus ν σ) :
    (config.goto focus).pending = config.pending := rfl

@[simp] theorem setDomain_world (config : Config ν σ) (domain : Domain ν) :
    (config.setDomain domain).world = { config.world with domain } := rfl

@[simp] theorem setDomain_focus (config : Config ν σ) (domain : Domain ν) :
    (config.setDomain domain).focus = config.focus := rfl

@[simp] theorem setDomain_pending (config : Config ν σ) (domain : Domain ν) :
    (config.setDomain domain).pending = config.pending := rfl

/-- Showing an event changes at most the state of the host. -/
theorem emit_eq (host : Host ν σ) (config : Config ν σ) (event : Event ν) :
    config.emit host event = { config with state := (config.emit host event).state } := by
  unfold emit
  split
  · split <;> rfl
  · rfl

@[simp] theorem emit_world (host : Host ν σ) (config : Config ν σ) (event : Event ν) :
    (config.emit host event).world = config.world := by rw [emit_eq]

@[simp] theorem emit_focus (host : Host ν σ) (config : Config ν σ) (event : Event ν) :
    (config.emit host event).focus = config.focus := by rw [emit_eq]

@[simp] theorem emit_pending (host : Host ν σ) (config : Config ν σ) (event : Event ν) :
    (config.emit host event).pending = config.pending := by rw [emit_eq]

end Config

end ScriptMachine

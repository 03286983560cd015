import ScriptMachine.Machine.Execution

/-!
# Steps of the machine

`Config.step` does one thing at a time: it executes one instruction, enters or leaves one frame,
carries out one request, or starts or ends one callback. It is total and calls nothing
recursively; that a script may call a native method that runs another script shows only in the
pending work of the configuration.
-/

namespace ScriptMachine

namespace Config

variable {ν σ : Type}

/-- A body has ended: the work that waited for it goes on. -/
def finishBody (host : Host ν σ) (config : Config ν σ) (value : Int32) : Config ν σ :=
  match config.pending with
  | [] => config.goto (.finished value)
  | .calling run registers call :: pending =>
    { config with pending }.returnNative host run registers call value
  | .aborting next :: pending => { config with pending }.afterAbort host next

/-- One step. -/
def step (host : Host ν σ) (config : Config ν σ) : Config ν σ :=
  match config.focus with
  | .body (.done value) => config.finishBody host value
  | .body (.ask request next) => config.perform host request next
  | .body (.modify change next) =>
    let state := change config.state
    { config with state, focus := .body (next state) }
  | .body (.crash fault) => config.goto (.faulted fault)
  | .enter run => config.enterFrame host run
  | .execute run registers => config.execute host run registers
  | .ended run outcome => config.finishRun host run outcome
  | .finished _ | .faulted _ => config

/-- At most the given number of steps. -/
def run (host : Host ν σ) : Nat → Config ν σ → Config ν σ
  | 0, config => config
  | fuel + 1, config => if config.isFinal then config else (config.step host).run host fuel

end Config

end ScriptMachine

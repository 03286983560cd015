import ScriptMachine.Proofs.Nesting

/-!
# Bodies that a run calls

A body that is at hand after a step of a run has been called by this run: a native method, for which
the run waits, or the hook of the abort that stops the run. The same holds after a native method has
answered.
-/

namespace ScriptMachine

variable {ν σ : Type}

/-- A run of which an instruction is executed waits for a native method that the instruction
calls. -/
def Run.CallsNative (run : Run ν σ) (registers : Registers ν) (rest pending : List (Pending ν σ)) :
    Prop :=
  ∃ after call, pending = .calling run after call :: rest ∧
    after.function = registers.function ∧ call.pc = registers.pc

/-- A run waits right above this work. -/
def Pending.Holds (rest pending : List (Pending ν σ)) : Prop :=
  ∃ work run, pending = work :: rest ∧ work.run? = some run

/-- A run that waits for a native method waits. -/
theorem Run.CallsNative.holds {run : Run ν σ} {registers : Registers ν}
    {rest pending : List (Pending ν σ)} (calls : run.CallsNative registers rest pending) :
    Pending.Holds rest pending := by
  obtain ⟨after, call, waits, _⟩ := calls
  exact ⟨.calling run after call, run, waits, rfl⟩

namespace Config

variable {host : Host ν σ} {config : Config ν σ} {run : Run ν σ} {registers : Registers ν}
  {rest : List (Pending ν σ)} {holds : List (Pending ν σ) → Prop}

/-- If a body is at hand, this holds of the work that waits. -/
def AtBody (holds : List (Pending ν σ) → Prop) (config : Config ν σ) : Prop :=
  ∀ body, config.focus = .body body → holds config.pending

namespace AtBody

/-- A run is at hand. -/
theorem of_run (focus : config.focus.run? = some run) : config.AtBody holds := by
  intro body found
  rw [found] at focus
  cases focus

/-- Stopping for a misuse. -/
theorem faulted (config : Config ν σ) (fault : Fault) :
    (config.goto (.faulted fault)).AtBody holds := by
  intro body found
  cases found

/-- A run that is aborted. -/
theorem abortRun (function : Function ν) (pc : Nat) (reason : AbortReason) :
    (config.abortRun host run function pc reason).AtBody holds :=
  of_run rfl

/-- A frame that is entered. -/
theorem enterFrame : (config.enterFrame host run).AtBody holds := by
  unfold Config.enterFrame
  split
  · exact of_run rfl
  · split
    · exact of_run rfl
    · exact of_run rfl

/-- A script function that is called. -/
theorem callScript (pc : Nat) (result : ResultKind) (callee : FunctionId) (argc : Nat) :
    (config.callScript host run registers pc result callee argc).AtBody holds :=
  callScript_induction (faulted config) (fun _ => abortRun _ _ _)
    fun _ _ _ => ⟨fun _ _ _ => abortRun _ _ _, fun _ => of_run rfl⟩

/-- A native method that is called. -/
theorem callNative (pc : Nat) {call : NativeCall} (here : call.pc = registers.pc)
    (above : config.pending = rest) :
    (config.callNative host run registers pc call).AtBody (run.CallsNative registers rest) := by
  unfold Config.callNative
  split
  · exact abortRun _ _ _
  · dsimp only
    split
    · intro body _
      let after := { registers with pc, sp := call.base + call.result.count }
      refine ⟨after, call, ?_, rfl, here⟩
      rw [← above]
      simp [after]
    · exact faulted _ _

/-- An instruction that is executed. -/
theorem execute (above : config.pending = rest) :
    (config.execute host run registers).AtBody (run.CallsNative registers rest) := by
  refine execute_induction (abortRun _ _ _) fun instruction pc shown _ emitted => ?_
  replace above : shown.pending = rest := by rw [← emitted, emit_pending, above]
  exact {
    stops := faulted shown
    aborts _ := abortRun _ _ _
    goes _ _ _ _ := of_run rfl
    writes _ _ _ _ := of_run rfl
    native _ _ _ _ _ := callNative _ rfl above
    script _ _ _ _ := callScript _ _ _ _
    leaves _ _ _ := of_run rfl }

/-- A thread that is detached to stop its run. -/
theorem detach_stop {id : ThreadId} {function : Function ν} {pc : Nat} {reason : AbortReason}
    (above : config.pending = rest) :
    (config.detach host id (.stop run function pc reason)).AtBody (Pending.Holds rest) := by
  refine attempt_induction (faulted config) fun ⟨domain, hook⟩ _ => ?_
  dsimp only
  split
  · exact abortRun function pc reason
  · exact abortRun function pc reason
  · intro body _
    exact ⟨_, run, congrArg _ above, rfl⟩

/-- A native method that answers. -/
theorem returnNative {call : NativeCall} {value : Int32} (above : config.pending = rest) :
    (config.returnNative host run registers call value).AtBody (Pending.Holds rest) := by
  refine returnNative_induction fun shown emitted => ?_
  replace above : shown.pending = rest := by rw [← emitted, emit_pending, above]
  exact ⟨faulted shown, fun _ _ _ _ =>
    ⟨fun _ _ => detach_stop above, fun _ _ => of_run rfl, fun _ _ => of_run rfl⟩⟩

/-- A step of a run that has not ended. -/
theorem step_run (focus : config.focus.run? = some run)
    (goes : ∀ outcome, config.focus ≠ .ended run outcome) (above : config.pending = rest) :
    (config.step host).AtBody (Pending.Holds rest) := by
  unfold Config.step
  split
  all_goals rename_i found; rw [found] at focus; try cases focus
  · exact enterFrame
  · intro body called
    exact (execute above body called).holds
  · exact absurd found (goes _)

end AtBody

end Config

end ScriptMachine

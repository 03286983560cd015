import ScriptMachine.Proofs.Reachable

/-!
# Histories

What happens between two moments cannot be said of one configuration. A history lists the
configurations that the machine passes through, from the empty world on: each is followed by the one
after a step, or, when a body has ended, by the one in which the host goes on with another body.
Every configuration of a history is reachable, and every reachable one occurs in a history.
-/

namespace ScriptMachine

variable {ν σ : Type}

namespace Config

/-- One configuration is followed by another: the machine makes a step, or the host goes on with
another body once one has ended. -/
inductive Precedes (host : Host ν σ) (allowed : Request ν → Prop) (config : Config ν σ) :
    Config ν σ → Prop where
  | step : config.Precedes host allowed (config.step host)
  | again {value : Int32} (ended : config.focus = .finished value) (state : σ) (body : Body ν σ)
    (asks : body.Asks allowed) : config.Precedes host allowed (.initial config.world state body)

/-- Whether the outermost body has ended can be decided, though bodies cannot be compared. -/
instance (focus : Focus ν σ) (value : Int32) : Decidable (focus = .finished value) :=
  match focus with
  | .finished other => decidable_of_iff (other = value) (by simp)
  | .body _ | .enter _ | .execute _ _ | .ended _ _ | .faulted _ => isFalse (by simp)

/-- What a machine passes through whose host makes only allowed requests, one configuration after
the other. -/
structure History (host : Host ν σ) (allowed : Request ν → Prop)
    (configs : Nat → Config ν σ) : Prop where
  begins : ∃ (state : σ) (body : Body ν σ), body.Asks allowed ∧ configs 0 = .initial {} state body
  goes : ∀ time, (configs time).Precedes host allowed (configs (time + 1))

section

variable {host : Host ν σ} {allowed : Request ν → Prop} {configs : Nat → Config ν σ}

/-- A reachable configuration is followed by reachable ones. -/
theorem Precedes.reachable {config next : Config ν σ} (precedes : config.Precedes host allowed next)
    (reached : config.Reachable host allowed) : next.Reachable host allowed := by
  cases precedes with
  | step => exact reached.step
  | again ended state body asks => exact reached.again ended state body asks

/-- As long as a machine has not ended, it makes steps. -/
theorem Precedes.eq_step {config next : Config ν σ} (precedes : config.Precedes host allowed next)
    (working : ∀ value, config.focus ≠ .finished value) : next = config.step host := by
  cases precedes with
  | step => rfl
  | again ended state body asks => exact absurd ended (working _)

/-- The world of the configuration that follows is that after a step: between two bodies the world
stays as it is. -/
theorem Precedes.world {config next : Config ν σ} (precedes : config.Precedes host allowed next) :
    next.world = (config.step host).world := by
  cases precedes with
  | step => rfl
  | again ended state body asks =>
    rw [step_of_isFinal host (by simp [isFinal, ended])]
    rfl

namespace History

/-- Every configuration of a history is reachable. -/
theorem reachable (history : History host allowed configs) (time : Nat) :
    (configs time).Reachable host allowed := by
  induction time with
  | zero =>
    obtain ⟨state, body, asks, first⟩ := history.begins
    rw [first]
    exact .initial state body asks
  | succ time ih => exact (history.goes time).reachable ih

/-- A history up to some moment goes on with the steps of the machine, from any configuration that
may follow at this moment. -/
theorem branch (history : History host allowed configs) (time : Nat) {next : Config ν σ}
    (precedes : (configs time).Precedes host allowed next) :
    History host allowed fun moment =>
      if moment ≤ time then configs moment else next.run host (moment - (time + 1)) := by
  obtain ⟨state, body, asks, first⟩ := history.begins
  refine ⟨⟨state, body, asks, first⟩, fun moment => ?_⟩
  rcases Nat.lt_trichotomy moment time with earlier | rfl | later
  · rw [if_pos (by omega), if_pos (by omega)]
    exact history.goes moment
  · rw [if_pos (Nat.le_refl _), if_neg (by omega), Nat.sub_self]
    exact precedes
  · have one : moment + 1 - (time + 1) = moment - (time + 1) + 1 := by omega
    rw [if_neg (by omega), if_neg (by omega), one, run_succ_last]
    exact .step

/-- The steps of the machine from its beginning are a history. -/
theorem of_initial (state : σ) {body : Body ν σ} (asks : body.Asks allowed) :
    History host allowed fun time => (Config.initial {} state body).run host time := by
  refine ⟨⟨state, body, asks, rfl⟩, fun time => ?_⟩
  rw [run_succ_last]
  exact .step

/-- Every reachable configuration occurs in a history. -/
theorem exists_of_reachable {config : Config ν σ} (reached : config.Reachable host allowed) :
    ∃ configs time, History host allowed configs ∧ configs time = config := by
  -- Whatever follows a configuration of a history occurs in the history that branches off there.
  have extend {config next : Config ν σ} (precedes : config.Precedes host allowed next)
      (occurs : ∃ configs time, History host allowed configs ∧ configs time = config) :
      ∃ configs time, History host allowed configs ∧ configs time = next := by
    obtain ⟨configs, time, history, rfl⟩ := occurs
    refine ⟨_, time + 1, history.branch time precedes, ?_⟩
    rw [if_neg (by omega), Nat.sub_self]
    rfl
  induction reached with
  | initial state body asks => exact ⟨_, 0, of_initial state asks, rfl⟩
  | again reached ended state body asks ih => exact extend (.again ended state body asks) ih
  | step reached ih => exact extend .step ih

end History

end

end Config

end ScriptMachine

import ScriptMachine.Proofs.Registrations

/-!
# Guarded functions

A function is guarded if every cycle of its control flow passes a loop check. Without the loop
checks control then has nowhere to return to, so every offset has a rank: the number of offsets that
control can come through from there before it meets a loop check. Each instruction that is no loop
check leads to an offset of lower rank.
-/

namespace ScriptMachine

variable {ν σ : Type}

namespace Definition

/-- Control can go from one offset to another by the instruction that starts there. -/
def Flows (definition : Definition ν) (pc target : Nat) : Prop :=
  ∃ instruction, (pc, instruction) ∈ definition.code.instructions.instructions ∧
    instruction.Leads pc target

/-- Control comes back to an offset along these further ones. -/
def Cycle (definition : Definition ν) (pc : Nat) (path : List Nat) : Prop :=
  (pc :: path ++ [pc]).IsChain definition.Flows

/-- Every cycle that control can enter contains a loop check. -/
def Guarded (definition : Definition ν) : Prop :=
  ∀ pc path, definition.Reaches pc → definition.Cycle pc path →
    ∃ place ∈ pc :: path, (place, .loopCheck) ∈ definition.code.instructions.instructions

/-- Control can go from one offset to another, both of which it can reach, by an instruction that is
no loop check. -/
def Slips (definition : Definition ν) (pc target : Nat) : Prop :=
  definition.Reaches pc ∧ ∃ instruction,
    (pc, instruction) ∈ definition.code.instructions.instructions ∧ instruction ≠ .loopCheck ∧
      instruction.Leads pc target

/-- The offsets that control can come through from this one before it meets a loop check. -/
def ahead (definition : Definition ν) (pc : Nat) : Set Nat :=
  {place | place < definition.code.size ∧ Relation.ReflTransGen definition.Slips pc place}

/-- The number of offsets that control can come through before it meets a loop check. -/
noncomputable def rank (definition : Definition ν) (pc : Nat) : Nat := (definition.ahead pc).ncard

variable {definition : Definition ν} {pc target : Nat}

/-- Going on past an instruction that is no loop check is going on. -/
theorem Slips.flows (slips : definition.Slips pc target) : definition.Flows pc target := by
  obtain ⟨_, instruction, listed, _, leads⟩ := slips
  exact ⟨instruction, listed, leads⟩

/-- Every place of a chain before the last one has a place that follows it. -/
theorem exists_next_of_isChain {follows : Nat → Nat → Prop} {places : List Nat} {last : Nat}
    (chain : (places ++ [last]).IsChain follows) :
    ∀ place ∈ places, ∃ next, follows place next := by
  induction places with
  | nil => simp
  | cons first rest ih =>
    intro place visited
    rcases List.mem_cons.1 visited with rfl | later
    · cases rest with
      | nil => exact ⟨last, (List.isChain_cons_cons.1 chain).1⟩
      | cons second rest => exact ⟨second, (List.isChain_cons_cons.1 chain).1⟩
    · exact ih chain.tail place later

/-- In a guarded function control never comes back without a loop check. -/
theorem Guarded.acyclic (guarded : definition.Guarded) (slips : definition.Slips pc target) :
    ¬Relation.ReflTransGen definition.Slips target pc := by
  intro returns
  obtain ⟨tail, chain, last⟩ := List.exists_isChain_cons_of_relationReflTransGen returns
  -- the offsets on the way, without the one that control comes back to
  have cycle : pc :: target :: tail = pc :: (target :: tail).dropLast ++ [pc] := by
    rw [List.cons_append, ← last, List.dropLast_append_getLast]
  have closed : (pc :: (target :: tail).dropLast ++ [pc]).IsChain definition.Slips :=
    cycle ▸ List.IsChain.cons_cons slips chain
  obtain ⟨place, visited, checks⟩ :=
    guarded pc (target :: tail).dropLast slips.1 (closed.imp fun _ _ => Slips.flows)
  obtain ⟨_, _, instruction, listed, unchecked, _⟩ := exists_next_of_isChain closed place visited
  exact unchecked (Code.Boundary.eq_of_begins listed checks)

/-- There are finitely many offsets. -/
theorem finite_ahead (definition : Definition ν) (pc : Nat) : (definition.ahead pc).Finite :=
  (Set.finite_lt_nat definition.code.size).subset fun _ ahead => ahead.1

/-- In a guarded function an instruction that is no loop check leads to an offset of lower rank. -/
theorem Guarded.rank_lt (guarded : definition.Guarded) (slips : definition.Slips pc target) :
    definition.rank target < definition.rank pc := by
  refine Set.ncard_lt_ncard ⟨fun place ahead => ?_, fun within => ?_⟩ (definition.finite_ahead pc)
  · exact ⟨ahead.1, .head slips ahead.2⟩
  · have inside : pc < definition.code.size := by
      obtain ⟨_, instruction, listed, _⟩ := slips
      exact Code.Boundary.inside ⟨instruction, listed⟩
    exact guarded.acyclic slips (within ⟨inside, .refl⟩).2

/-- A function is guarded if offsets can be numbered so that every instruction that is no loop check
leads to a lower number. -/
theorem Guarded.of_numbers {number : Nat → Nat}
    (lower : ∀ pc target, definition.Slips pc target → number target < number pc) :
    definition.Guarded := by
  -- along a path without loop checks the numbers fall
  have falls (last : Nat) (path : List Nat) : ∀ pc, definition.Reaches pc →
      (pc :: path ++ [last]).IsChain definition.Flows →
      (∀ place ∈ pc :: path, (place, .loopCheck) ∉ definition.code.instructions.instructions) →
        number last < number pc := by
    induction path with
    | nil =>
      intro pc reached chain unchecked
      obtain ⟨instruction, listed, leads⟩ := (List.isChain_cons_cons.1 chain).1
      refine lower pc last ⟨reached, instruction, listed, ?_, leads⟩
      rintro rfl
      exact unchecked pc (by simp) listed
    | cons next path ih =>
      intro pc reached chain unchecked
      obtain ⟨⟨instruction, listed, leads⟩, chain⟩ := List.isChain_cons_cons.1 chain
      have further := ih next (.follow reached listed leads) chain fun place visited =>
        unchecked place (List.mem_cons_of_mem _ visited)
      refine Nat.lt_trans further (lower pc next ⟨reached, instruction, listed, ?_, leads⟩)
      rintro rfl
      exact unchecked pc (by simp) listed
  intro pc path reached cycle
  by_contra unguarded
  have unchecked : ∀ place ∈ pc :: path,
      (place, .loopCheck) ∉ definition.code.instructions.instructions :=
    fun place visited checks => unguarded ⟨place, visited, checks⟩
  exact Nat.lt_irrefl _ (falls pc path pc reached cycle unchecked)

end Definition

/-- A request registers no function that is not verified and guarded. -/
def Request.RegistersGuarded : Request ν → Prop
  | .update (.addFunction function) => function.Verified ∧ function.Guarded
  | _ => True

/-- A request that registers no function that is not verified and guarded registers none that is not
verified. -/
theorem Request.verified_of_guarded (request : Request ν) (guarded : request.RegistersGuarded) :
    request.RegistersVerified := by
  unfold RegistersVerified
  split
  · exact guarded.1
  · trivial

namespace Config

variable {host : Host ν σ} {config : Config ν σ} {run : Run ν σ} {registers : Registers ν}

/-- A run of a host that registers guarded functions only is in a guarded function, at an offset
that control reaches. -/
theorem guarded_of_execute (hosted : host.Asks Request.RegistersGuarded)
    (reached : config.Reachable host Request.RegistersGuarded)
    (focus : config.focus = .execute run registers) :
    registers.function.Guarded ∧ registers.function.Reaches registers.pc := by
  have placed := (placed_of_reachable hosted Request.verified_of_guarded reached).focus
  have sound := (sound_of_reachable (hosted.mono Request.verified_of_guarded)
    (reached.mono Request.verified_of_guarded)).focus
  rw [focus] at placed sound
  exact ⟨(placed.1.admitted sound.2).2, placed.2⟩

end Config

end ScriptMachine

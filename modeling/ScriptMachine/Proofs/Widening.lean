import ScriptMachine.Machine.Effect
import ScriptMachine.Proofs.Acceptance
import ScriptMachine.Proofs.Assembling
import ScriptMachine.Proofs.Offsets

/-!
# Short and long encodings

A constant that fits a byte, and a branch, have a short and a long encoding. Two sequences of
statements that differ only in this are the same in their long encodings. The offsets before their
statements then belong together in pairs, level with each other, although no two of them need to be
equal. Level offsets come in the same order, and both first placements of a label are level.
-/

namespace ScriptMachine

/-! ## Instructions -/

namespace Instruction

/-- The instruction in its long encoding. How far a branch leads is left open. -/
def widened : Instruction → Instruction
  | const8 value => .const value.toInt32
  | branch test _ | longBranch test _ => .longBranch test 0
  | instruction => instruction

variable {instruction other : Instruction}

@[simp] theorem stackEffect_widened (instruction : Instruction) :
    instruction.widened.stackEffect = instruction.stackEffect := by
  cases instruction <;> rfl

@[simp] theorem isTerminator_widened (instruction : Instruction) :
    instruction.widened.isTerminator = instruction.isTerminator := by
  cases instruction with
  | branch test | longBranch test => cases test <;> rfl
  | _ => rfl

@[simp] theorem isSome_delta?_widened (instruction : Instruction) :
    instruction.widened.delta?.isSome = instruction.delta?.isSome := by
  cases instruction <;> rfl

/-- Only a native call is one in its long encoding. -/
theorem widened_eq_native_iff {kind : MethodKind} {result : ResultKind} {argc method : UInt8} :
    instruction.widened = .native kind result argc method ↔
      instruction = .native kind result argc method := by
  cases instruction <;> simp [widened]

/-- The depth behind an instruction does not depend on the encoding. -/
theorem after_eq_of_widened_eq (same : other.widened = instruction.widened) (depth : Nat) :
    other.after depth = instruction.after depth := by
  rw [after, after, ← other.stackEffect_widened, same, stackEffect_widened]

/-- Both encodings fall through, or neither does. -/
theorem isTerminator_eq_of_widened_eq (same : other.widened = instruction.widened) :
    other.isTerminator = instruction.isTerminator := by
  rw [← other.isTerminator_widened, same, isTerminator_widened]

/-- If one encoding is a branch, the other one is. -/
theorem exists_delta?_of_widened_eq (same : other.widened = instruction.widened) {delta : Int}
    (branches : instruction.delta? = some delta) : ∃ delta', other.delta? = some delta' := by
  rw [← Option.isSome_iff_exists, ← other.isSome_delta?_widened, same, isSome_delta?_widened,
    branches]
  rfl

/-- What is in range does not depend on the encoding. -/
theorem inRange_widened {ν : Type} (definition : Definition ν) (instruction : Instruction) :
    definition.InRange instruction.widened ↔ definition.InRange instruction := by
  cases instruction <;> rfl

end Instruction

/-- The same effect, with another distance to branch. -/
def Effect.redirected (delta : Int) : Effect → Effect
  | .jump _ sp => .jump delta sp
  | effect => effect

namespace Instruction

variable {instruction : Instruction} {reach : Variables} {base sp : Nat} {stack : Array Int32}

/-- A branch is an instruction with a distance. -/
theorem delta?_of_jump {delta : Int} {height : Nat}
    (jumps : instruction.effect reach base stack sp = .jump delta height) :
    instruction.delta? = some delta := by
  cases instruction with
  | branch test | longBranch test =>
    cases test <;> grind [effect, Effect.branchOn, Effect.withTop, delta?]
  | ret result => cases result <;> grind [effect, Effect.withTop]
  | _ => grind [effect, Effect.push, Effect.pushVariable, Effect.withTop]

/-- The effect of an instruction is that of its long encoding, but for the distance of a branch. -/
theorem effect_eq_redirected (instruction : Instruction) :
    instruction.effect reach base stack sp =
      (instruction.widened.effect reach base stack sp).redirected (instruction.delta?.getD 0) := by
  have plain (silent : instruction.delta? = none) (effect : Effect)
      (does : instruction.effect reach base stack sp = effect) : effect = effect.redirected 0 := by
    cases effect with
    | jump delta height =>
      rw [delta?_of_jump does] at silent
      cases silent
    | _ => rfl
  cases instruction with
  | branch test | longBranch test =>
    cases test <;>
      grind [effect, widened, delta?, Effect.branchOn, Effect.withTop, Effect.redirected]
  | _ => exact plain rfl _ rfl

end Instruction

/-! ## Statements -/

namespace Statement

/-- The statement that appends the long encoding. -/
def widened : Statement → Statement
  | .emit instruction => .emit instruction.widened
  | .branch test target => .longBranch test target
  | statement => statement

@[simp] theorem allocates_widened (statement : Statement) :
    statement.widened.allocates = statement.allocates := by
  cases statement <;> rfl

/-- Both encodings append bytes, or neither does. -/
theorem size_widened_eq_zero_iff (statement : Statement) :
    statement.widened.size = 0 ↔ statement.size = 0 := by
  have positive (instruction : Instruction) : instruction.length ≠ 0 :=
    Nat.ne_of_gt (Opcode.length_pos _)
  cases statement with
  | emit instruction => exact iff_of_false (positive _) (positive _)
  | branch test target => exact iff_of_false (by decide : 5 ≠ 0) (by decide : 2 ≠ 0)
  | _ => exact Iff.rfl

/-- Only a placement is one in its long encoding. -/
theorem eq_place_of_widened_eq {statement : Statement} {label : Label}
    (same : statement.widened = .place label) : statement = .place label := by
  cases statement <;> cases same
  rfl

variable {first second : List Statement}

/-- Statements append no bytes if none of them does. -/
theorem sizes_eq_zero_iff {statements : List Statement} :
    sizes statements = 0 ↔ ∀ statement ∈ statements.map widened, statement.size = 0 := by
  simp [sizes, List.sum_eq_zero_iff, size_widened_eq_zero_iff]

/-- Where one of two sequences appends nothing, the other one does not either. -/
theorem sizes_eq_zero_of_same (same : first.map widened = second.map widened)
    (silent : sizes first = 0) : sizes second = 0 := by
  rw [sizes_eq_zero_iff] at silent ⊢
  rwa [← same]

/-- Two offsets are level in two sequences if the same number of statements comes before each. -/
def Level (first second : List Statement) (pc pc' : Nat) : Prop :=
  ∃ count, pc = sizes (first.take count) ∧ pc' = sizes (second.take count)

namespace Level

variable {pc pc' other other' : Nat} {label : Label}

/-- The beginnings are level. -/
theorem start (first second : List Statement) : Level first second 0 0 := ⟨0, rfl, rfl⟩

/-- The order of the sequences does not matter. -/
theorem symm (level : Level first second pc pc') : Level second first pc' pc := by
  obtain ⟨count, rfl, rfl⟩ := level
  exact ⟨count, rfl, rfl⟩

/-- Level offsets come in the same order. -/
theorem mono (same : first.map widened = second.map widened) (level : Level first second pc pc')
    (level' : Level first second other other') (ordered : pc ≤ other) : pc' ≤ other' := by
  obtain ⟨count, rfl, rfl⟩ := level
  obtain ⟨more, rfl, rfl⟩ := level'
  rcases Nat.le_total count more with fewer | fewer
  · obtain ⟨rest, rfl⟩ := Nat.exists_eq_add_of_le fewer
    rw [List.take_add, sizes_append]
    exact Nat.le_add_right ..
  · -- The statements between the two append nothing in either sequence.
    obtain ⟨rest, rfl⟩ := Nat.exists_eq_add_of_le fewer
    rw [List.take_add, sizes_append] at ordered ⊢
    have silent : sizes ((second.drop more).take rest) = 0 := by
      refine @sizes_eq_zero_of_same ((first.drop more).take rest) _ ?_ (by omega)
      rw [List.map_take, List.map_drop, same, List.map_take, List.map_drop]
    omega

/-- An offset is level with one offset only. -/
theorem unique (same : first.map widened = second.map widened) (level : Level first second pc pc')
    (level' : Level first second pc other') : pc' = other' :=
  Nat.le_antisymm (level.mono same level' (Nat.le_refl _)) (level'.mono same level (Nat.le_refl _))

end Level

/-- The offsets before and behind a statement. -/
theorem sizes_take_split (before after : List Statement) (statement : Statement) :
    sizes ((before ++ statement :: after).take before.length) = sizes before ∧
      sizes ((before ++ statement :: after).take (before.length + 1)) =
        sizes before + statement.size := by
  refine ⟨by rw [List.take_left], ?_⟩
  rw [List.append_cons, List.take_left' (by simp), sizes_append, sizes_cons]
  rfl

/-- Where a statement stands in one sequence, one that has the same long encoding stands in the
other. -/
theorem exists_split_of_same (same : first.map widened = second.map widened)
    {before after : List Statement} {statement : Statement}
    (split : first = before ++ statement :: after) :
    ∃ before' statement' after', second = before' ++ statement' :: after' ∧
      before.map widened = before'.map widened ∧ statement.widened = statement'.widened ∧
      Level first second (sizes before) (sizes before') ∧
      Level first second (sizes before + statement.size) (sizes before' + statement'.size) := by
  subst split
  rw [List.map_append, List.map_cons] at same
  obtain ⟨before', rest, rfl, earlier, later⟩ := List.map_eq_append_iff.1 same.symm
  obtain ⟨statement', after', rfl, here, _⟩ := List.map_eq_cons_iff.1 later
  have length : before'.length = before.length := by simpa using congrArg List.length earlier
  have offsets := sizes_take_split before after statement
  have offsets' := sizes_take_split before' after' statement'
  rw [length] at offsets'
  exact ⟨before', statement', after', rfl, earlier.symm, here.symm,
    ⟨before.length, offsets.1.symm, offsets'.1.symm⟩,
    ⟨before.length + 1, offsets.2.symm, offsets'.2.symm⟩⟩

/-- Where one sequence places a label, the other one does too. -/
theorem Places.exists_level (same : first.map widened = second.map widened) {label : Label}
    {pc : Nat} (placed : Places first label pc) :
    ∃ pc', Level first second pc pc' ∧ Places second label pc' := by
  obtain ⟨before, after, split, allocated, rfl⟩ := placed
  obtain ⟨before', statement, after', rfl, earlier, here, level, _⟩ :=
    exists_split_of_same same split
  obtain rfl := eq_place_of_widened_eq here.symm
  refine ⟨_, level, before', after', rfl, ?_, rfl⟩
  have counted (statements : List Statement) :
      (statements.map widened).countP allocates = statements.countP allocates := by
    rw [List.countP_map]
    exact List.countP_congr fun statement _ => by simp
  rwa [← counted, ← earlier, counted]

/-- The first placements of a label are level. -/
theorem PlacedFirst.level (same : first.map widened = second.map widened) {label : Label}
    {pc pc' : Nat} (placed : PlacedFirst first label pc) (placed' : PlacedFirst second label pc') :
    Level first second pc pc' := by
  obtain ⟨target', level, places'⟩ := placed.1.exists_level same
  obtain ⟨target, level', places⟩ := placed'.1.exists_level same.symm
  have most := level.mono same level'.symm (placed.2 places)
  rwa [Nat.le_antisymm (placed'.2 places') most]

end Statement

end ScriptMachine

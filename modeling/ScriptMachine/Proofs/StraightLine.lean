import ScriptMachine.Proofs.Acceptance
import ScriptMachine.Proofs.Offsets

/-!
# Code without branches

Instructions that stand one after the other and do not branch are executed in order, so the operand
depth before each of them follows from the ones before it. Such code is accepted if every
instruction finds its operands and names what exists, control ends with a return, and the deepest
depth fits. The slots that verification computes are then the locals and this deepest depth.
-/

namespace ScriptMachine

variable {ν : Type}

/-- Control goes on behind the instruction, and nowhere else. -/
structure Instruction.Plain (instruction : Instruction) : Prop where
  straight : instruction.delta? = none
  falls : instruction.isTerminator = false

namespace Code

/-- The operand depth after instructions that are executed in order. -/
def depthAfter : Nat → List Instruction → Nat
  | depth, [] => depth
  | depth, instruction :: rest => depthAfter (instruction.after depth) rest

/-- The greatest operand depth before, between and after such instructions. -/
def deepest : Nat → List Instruction → Nat
  | depth, [] => depth
  | depth, instruction :: rest => max depth (deepest (instruction.after depth) rest)

/-- Every one of such instructions finds its operands. -/
def Supplied : Nat → List Instruction → Prop
  | _, [] => True
  | depth, instruction :: rest =>
    instruction.stackEffect.pops ≤ depth ∧ Supplied (instruction.after depth) rest

variable {depth index : Nat} {instruction : Instruction}
  {first second instructions : List Instruction}

theorem depthAfter_append :
    depthAfter depth (first ++ second) = depthAfter (depthAfter depth first) second := by
  induction first generalizing depth with
  | nil => rfl
  | cons instruction rest ih => exact ih

theorem le_deepest : depth ≤ deepest depth instructions := by
  cases instructions with
  | nil => exact Nat.le_refl _
  | cons instruction rest => exact Nat.le_max_left ..

theorem deepest_append : deepest depth (first ++ second) =
    max (deepest depth first) (deepest (depthAfter depth first) second) := by
  induction first generalizing depth with
  | nil => exact (max_eq_right le_deepest).symm
  | cons instruction rest ih =>
    rw [List.cons_append, deepest, ih, deepest, depthAfter, Nat.max_assoc]

theorem supplied_append : Supplied depth (first ++ second) ↔
    Supplied depth first ∧ Supplied (depthAfter depth first) second := by
  induction first generalizing depth with
  | nil => simp [Supplied, depthAfter]
  | cons instruction rest ih => rw [List.cons_append, Supplied, ih, Supplied, depthAfter, and_assoc]

/-- The depth before an instruction is at most the deepest one. -/
theorem depthAfter_take_le (index : Nat) :
    depthAfter depth (instructions.take index) ≤ deepest depth instructions := by
  induction instructions generalizing depth index with
  | nil =>
    rw [List.take_nil]
    exact le_deepest
  | cons instruction rest ih =>
    cases index with
    | zero => exact le_deepest
    | succ index => exact Nat.le_trans (ih index) (Nat.le_max_right ..)

/-- The depth at the end is at most the deepest one. -/
theorem depthAfter_le_deepest : depthAfter depth instructions ≤ deepest depth instructions := by
  have whole := @depthAfter_take_le depth instructions instructions.length
  rwa [List.take_length] at whole

/-- The deepest depth is found before some instruction, or at the end. -/
theorem exists_depthAfter_take : ∃ index ≤ instructions.length,
    depthAfter depth (instructions.take index) = deepest depth instructions := by
  induction instructions generalizing depth with
  | nil => exact ⟨0, Nat.le_refl _, rfl⟩
  | cons instruction rest ih =>
    obtain ⟨index, inside, found⟩ := @ih (instruction.after depth)
    rcases Nat.le_total depth (deepest (instruction.after depth) rest) with later | now
    · exact ⟨index + 1, Nat.succ_le_succ inside, found.trans (max_eq_right later).symm⟩
    · exact ⟨0, Nat.zero_le _, (max_eq_left now).symm⟩

/-- One more instruction is executed. -/
theorem depthAfter_take_succ (found : instructions[index]? = some instruction) :
    depthAfter depth (instructions.take (index + 1)) =
      instruction.after (depthAfter depth (instructions.take index)) := by
  rw [List.take_add_one, found, Option.toList_some, depthAfter_append]
  rfl

/-- Each instruction finds its operands. -/
theorem Supplied.enough (supplied : Supplied depth instructions)
    (found : instructions[index]? = some instruction) :
    instruction.stackEffect.pops ≤ depthAfter depth (instructions.take index) := by
  rw [← List.take_append_drop index instructions, supplied_append] at supplied
  have here : instructions.drop index = instruction :: instructions.drop (index + 1) := by
    obtain ⟨inside, rfl⟩ := List.getElem?_eq_some_iff.1 found
    exact List.drop_eq_getElem_cons inside
  rw [here] at supplied
  exact supplied.2.1

end Code

/-! ## Verification -/

namespace Definition

open Code

/-- Code that is executed in order up to a return at its end. -/
structure Straight (definition : Definition ν) (body : List Instruction) (result : ResultKind) :
    Prop where
  code : definition.code =
    ((body ++ [Instruction.ret result]).flatMap Instruction.encode).toArray
  plain : ∀ instruction ∈ body, instruction.Plain
  inRange : ∀ instruction ∈ body, definition.InRange instruction
  supplied : Supplied 0 (body ++ [.ret result])

namespace Straight

variable {definition : Definition ν} {limits : VerificationLimits} {body : List Instruction}
  {result : ResultKind} {pc depth index : Nat} {instruction : Instruction}

/-- Each instruction is the last one, or one of those before, which are plain. -/
theorem last_or_plain (straight : definition.Straight body result)
    (found : (body ++ [Instruction.ret result])[index]? = some instruction) :
    index = body.length ∧ instruction = .ret result ∨
      index < body.length ∧ instruction ∈ body ∧ instruction.Plain := by
  rcases Nat.lt_or_ge index body.length with inside | outside
  · rw [List.getElem?_append_left inside] at found
    have listed := List.mem_of_getElem? found
    exact .inr ⟨inside, listed, straight.plain instruction listed⟩
  · rw [List.getElem?_append_right outside] at found
    have only : index - body.length = 0 := by
      have bound := (List.getElem?_eq_some_iff.1 found).1
      simpa using bound
    rw [only] at found
    exact .inl ⟨by omega, (Option.some.inj found).symm⟩

/-- Control goes from an instruction to the next one. -/
theorem leads_iff (straight : definition.Straight body result)
    (found : (body ++ [Instruction.ret result])[index]? = some instruction) {target : Nat} :
    instruction.Leads (span ((body ++ [Instruction.ret result]).take index)) target ↔
      index < body.length ∧
        target = span ((body ++ [Instruction.ret result]).take (index + 1)) := by
  rw [span_take_succ found]
  rcases straight.last_or_plain found with ⟨last, rfl⟩ | ⟨inside, _, plain⟩
  · refine iff_of_false (fun leads => ?_) fun also => absurd also.1 (by omega)
    cases leads with
    | branch branches _ => cases branches
    | next falls => cases falls
  · constructor
    · intro leads
      cases leads with
      | branch branches _ =>
        rw [plain.straight] at branches
        cases branches
      | next _ => exact ⟨inside, rfl⟩
    · rintro ⟨_, rfl⟩
      exact .next plain.falls

/-- Paths arrive before each instruction, with the depth that the ones before it leave. -/
theorem arrives_iff (straight : definition.Straight body result) :
    definition.Arrives pc depth ↔ ∃ index ≤ body.length,
      pc = span ((body ++ [Instruction.ret result]).take index) ∧
        depth = depthAfter 0 ((body ++ [Instruction.ret result]).take index) := by
  constructor
  · intro arrives
    induction arrives with
    | entry => exact ⟨0, Nat.zero_le _, rfl, rfl⟩
    | follow _ listed leads ih =>
      obtain ⟨index, upTo, rfl, rfl⟩ := ih
      rw [straight.code, mem_instructions_encode] at listed
      obtain ⟨same, found, offset⟩ := listed
      have bound := (List.getElem?_eq_some_iff.1 found).1
      obtain rfl := span_take_inj (by simp; omega) (Nat.le_of_lt bound) offset
      obtain ⟨inside, rfl⟩ := (straight.leads_iff found).1 leads
      exact ⟨index + 1, inside, rfl, (depthAfter_take_succ found).symm⟩
  · rintro ⟨index, upTo, rfl, rfl⟩
    induction index with
    | zero => exact .entry
    | succ index ih =>
      have inside : index < (body ++ [Instruction.ret result]).length := by simp; omega
      have found := List.getElem?_eq_getElem inside
      have arrives := ih (Nat.le_of_succ_le upTo)
      rw [depthAfter_take_succ found]
      refine arrives.follow ?_ ((straight.leads_iff found).2 ⟨upTo, rfl⟩)
      rw [straight.code, mem_instructions_encode]
      exact ⟨index, found, rfl⟩

/-- Up to the return the instructions are those of the body. -/
theorem depthAfter_take (upTo : index ≤ body.length) :
    depthAfter 0 ((body ++ [Instruction.ret result]).take index) =
      depthAfter 0 (body.take index) := by
  rw [List.take_append_of_le_length upTo]

/-- The greatest depth with which a path arrives is the deepest one of the body. -/
theorem isGreatest_deepest (straight : definition.Straight body result) :
    IsGreatest {depth | ∃ pc, definition.Arrives pc depth} (deepest 0 body) := by
  constructor
  · obtain ⟨index, upTo, found⟩ := @exists_depthAfter_take 0 body
    refine ⟨_, straight.arrives_iff.2 ⟨index, upTo, rfl, ?_⟩⟩
    rw [depthAfter_take upTo, found]
  · rintro depth ⟨pc, arrives⟩
    obtain ⟨index, upTo, _, rfl⟩ := straight.arrives_iff.1 arrives
    rw [depthAfter_take upTo]
    exact depthAfter_take_le index

/-- An instruction agrees with the depths that are assigned to the offsets in order. -/
theorem consistent (straight : definition.Straight body result) {assigned : Nat → Nat}
    (assigns : ∀ index ≤ body.length,
      assigned (span ((body ++ [Instruction.ret result]).take index)) =
        depthAfter 0 (body.take index))
    (bounded : definition.locals + deepest 0 body ≤ limits.stackSlots)
    (found : (body ++ [Instruction.ret result])[index]? = some instruction) :
    definition.Consistent limits assigned
      (span ((body ++ [Instruction.ret result]).take index)) instruction := by
  have upTo : index ≤ body.length := by
    rcases straight.last_or_plain found with ⟨last, _⟩ | ⟨inside, _⟩
    · omega
    · omega
  have depth := assigns index upTo
  have enough := straight.supplied.enough found
  rw [depthAfter_take upTo] at enough
  have below := @depthAfter_take_le 0 body index
  refine ⟨?_, depth ▸ enough, fun delta branches => ?_, fun falls => ?_, fun target leads => ?_,
    by omega⟩
  · rcases straight.last_or_plain found with ⟨_, rfl⟩ | ⟨_, listed, _⟩
    · trivial
    · exact straight.inRange instruction listed
  · rcases straight.last_or_plain found with ⟨_, rfl⟩ | ⟨_, _, plain⟩
    · cases branches
    · rw [plain.straight] at branches
      cases branches
  · have inside := ((straight.leads_iff found).1 (.next falls)).1
    have later := @span_take_lt (index + 1) (body.length + 1) (body ++ [Instruction.ret result])
      (by omega) (by simp)
    rw [← span_take_succ found, straight.code, List.size_toArray, length_encode]
    rwa [List.take_of_length_le (i := body.length + 1) (by simp)] at later
  · obtain ⟨inside, rfl⟩ := (straight.leads_iff found).1 leads
    rw [assigns _ inside, depth, ← @depthAfter_take body result (index + 1) inside,
      depthAfter_take_succ found, depthAfter_take upTo]

/-- Such code is well formed if its deepest depth and the locals fit. -/
theorem wellFormed (straight : definition.Straight body result)
    (fits : definition.code.size ≤ limits.codeLength) (addressable : definition.locals ≤ 256)
    (paired : definition.params ≤ definition.locals)
    (bounded : definition.locals + deepest 0 body ≤ limits.stackSlots) :
    definition.WellFormed limits := by
  let offset (index : Nat) := span ((body ++ [Instruction.ret result]).take index)
  let indices : Set Nat := {index | index ≤ body.length}
  have apart : Set.InjOn offset indices := fun index inside other inside' same =>
    span_take_inj (Nat.le_trans inside (by simp)) (Nat.le_trans inside' (by simp)) same
  let assigned (pc : Nat) := depthAfter 0 (body.take (Function.invFunOn offset indices pc))
  have assigns : ∀ index ≤ body.length, assigned (offset index) = depthAfter 0 (body.take index) :=
    fun index inside => congrArg (fun index => depthAfter 0 (body.take index))
      (apart.leftInvOn_invFunOn inside)
  have filled : 0 < definition.code.size := by
    rw [straight.code, List.size_toArray, length_encode]
    have first := @span_take_lt 0 (body.length + 1) (body ++ [Instruction.ret result])
      (Nat.succ_pos _) (by simp)
    rw [List.take_of_length_le (i := body.length + 1) (by simp)] at first
    omega
  have readable : definition.code.instructions.error = none := by
    rw [straight.code, instructions_encode]
  refine ⟨filled, fits, readable, addressable, paired, assigned, assigns 0 (Nat.zero_le _),
    fun pc instruction _ listed => ?_⟩
  rw [straight.code, mem_instructions_encode] at listed
  obtain ⟨index, found, rfl⟩ := listed
  exact straight.consistent assigns bounded found

/-- Verification computes the locals and the deepest depth. -/
theorem verify_eq_ok (straight : definition.Straight body result)
    (fits : definition.code.size ≤ limits.codeLength) (addressable : definition.locals ≤ 256)
    (paired : definition.params ≤ definition.locals)
    (bounded : definition.locals + deepest 0 body ≤ limits.stackSlots) :
    definition.verify limits = .ok (definition.locals + deepest 0 body) := by
  rw [← verifyBy_first]
  exact verifyBy_iff.2 ⟨straight.wellFormed fits addressable paired bounded, _,
    straight.isGreatest_deepest, rfl⟩

end Straight

end Definition

end ScriptMachine

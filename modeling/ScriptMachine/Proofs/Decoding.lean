import Mathlib
import ScriptMachine.Verification

/-!
# Reading code

Reading some code from its start is a walk: every instruction that is read begins where the one
before it ends, up to the end of the code or to the first offset where nothing can be read. The
offsets of a walk are the boundaries of the code. A layout holds exactly the instructions of the
walk it was made from.
-/

namespace ScriptMachine

/-- Operand bytes make an instruction of the opcode they follow. -/
theorem Opcode.opcode_of_withOperands {op : Opcode} {bytes : List UInt8}
    {instruction : Instruction} (made : op.withOperands bytes = some instruction) :
    instruction.opcode = op := by
  -- The operations are grouped by the number of their operand bytes.
  cases op with
  | nop | pop | dup | unary | binary | loopCheck | ret =>
    rcases bytes with _ | _
    all_goals cases made
    rfl
  | globalLoad | globalStore | localLoad | localStore | specialLoad | threadLoad | const8
  | branch =>
    rcases bytes with _ | ⟨_, _ | _⟩
    all_goals cases made
    rfl
  | native | script =>
    rcases bytes with _ | ⟨_, _ | ⟨_, _ | _⟩⟩
    all_goals cases made
    rfl
  | const | longBranch =>
    rcases bytes with _ | ⟨_, _ | ⟨_, _ | ⟨_, _ | ⟨_, _ | _⟩⟩⟩⟩
    all_goals cases made
    rfl

/-- A decoded instruction ends where its length says. -/
theorem Instruction.next_eq_of_decode {code : Code} {pc next : Nat} {instruction : Instruction}
    (read : decode code pc = .ok (instruction, next)) : next = pc + instruction.length := by
  unfold decode at read
  split at read
  · cases read
  · split at read
    · cases read
    · dsimp only at read
      split at read
      · cases read
      · rename_i made
        cases read
        rw [Instruction.length, Opcode.opcode_of_withOperands made]

namespace Code

/-- The instructions that are read from an offset on, each with its offset, and the error that
ends the reading, if there is one. -/
inductive Walk (code : Code) : Nat → List (Nat × Instruction) → Option DecodeError → Prop where
  | ended {pc : Nat} (outside : code.size ≤ pc) : code.Walk pc [] none
  | stuck {pc : Nat} {error : DecodeError} (inside : pc < code.size)
    (failed : Instruction.decode code pc = .error error) : code.Walk pc [] (some error)
  | read {pc next : Nat} {instruction : Instruction} {rest : List (Nat × Instruction)}
    {error : Option DecodeError} (inside : pc < code.size)
    (decoded : Instruction.decode code pc = .ok (instruction, next))
    (walk : code.Walk next rest error) : code.Walk pc ((pc, instruction) :: rest) error

/-- Reading on from an offset is a walk from there. -/
theorem decodeFrom_walk (code : Code) (pc : Nat) (before : Array (Nat × Instruction)) :
    ∃ rest, (code.decodeFrom pc before).instructions.toList = before.toList ++ rest ∧
      code.Walk pc rest (code.decodeFrom pc before).error := by
  fun_induction decodeFrom code pc before with
  | case1 pc before inside error failed => exact ⟨[], by simp, .stuck inside failed⟩
  | case2 pc before inside instruction next decoded ih =>
    obtain ⟨rest, listed, walk⟩ := ih
    refine ⟨(pc, instruction) :: rest, ?_, .read inside decoded walk⟩
    rw [listed]
    simp
  | case3 pc before outside => exact ⟨[], by simp, .ended (Nat.le_of_not_lt outside)⟩

/-- Reading code from its start is a walk from there. -/
theorem instructions_walk (code : Code) :
    code.Walk 0 code.instructions.instructions.toList code.instructions.error := by
  obtain ⟨rest, listed, walk⟩ := decodeFrom_walk code 0 #[]
  simp only [List.nil_append] at listed
  rw [instructions, listed]
  exact walk

/-- An offset at which an instruction begins when the code is read from its start. -/
def Boundary (code : Code) (pc : Nat) : Prop :=
  ∃ instruction, (pc, instruction) ∈ code.instructions.instructions

namespace Walk

variable {code : Code} {pc start : Nat} {instruction : Instruction}
  {read : List (Nat × Instruction)} {error : Option DecodeError}

/-- Every instruction of a walk is decoded at its offset. -/
theorem decode_of_mem (walk : code.Walk start read error) (listed : (pc, instruction) ∈ read) :
    pc < code.size ∧ Instruction.decode code pc = .ok (instruction, pc + instruction.length) := by
  induction walk with
  | ended outside => simp at listed
  | stuck inside failed => simp at listed
  | read inside decoded walk ih =>
    rcases List.mem_cons.1 listed with same | later
    · cases same
      rw [Instruction.next_eq_of_decode decoded] at decoded
      exact ⟨inside, decoded⟩
    · exact ih later

/-- A walk reads no instruction before its start. -/
theorem start_le (walk : code.Walk start read error) (listed : (pc, instruction) ∈ read) :
    start ≤ pc := by
  induction walk with
  | ended outside => simp at listed
  | stuck inside failed => simp at listed
  | read inside decoded walk ih =>
    rcases List.mem_cons.1 listed with same | later
    · cases same
      exact Nat.le_refl _
    · have beyond := ih later
      rw [Instruction.next_eq_of_decode decoded] at beyond
      exact Nat.le_trans (Nat.le_add_right _ _) beyond

/-- No two instructions of a walk end at the same offset. -/
theorem eq_of_ends (walk : code.Walk start read error) {other : Nat} {second : Instruction}
    (listed : (pc, instruction) ∈ read) (also : (other, second) ∈ read)
    (ends : pc + instruction.length = other + second.length) :
    pc = other ∧ instruction = second := by
  induction walk with
  | ended outside => simp at listed
  | stuck inside failed => simp at listed
  | read inside decoded walk ih =>
    have next := Instruction.next_eq_of_decode decoded
    -- What is read later begins where the first instruction ends, and takes up space.
    rcases List.mem_cons.1 listed with same | later
    · rcases List.mem_cons.1 also with same' | later
      · cases same
        cases same'
        exact ⟨rfl, rfl⟩
      · cases same
        have beyond := walk.start_le later
        have long : 0 < second.length := second.opcode.length_pos
        omega
    · rcases List.mem_cons.1 also with same | further
      · cases same
        have beyond := walk.start_le later
        have long : 0 < instruction.length := instruction.opcode.length_pos
        omega
      · exact ih later further

/-- A walk without an error reads an instruction where it starts. -/
theorem exists_start (walk : code.Walk start read none) (inside : start < code.size) :
    ∃ instruction, (start, instruction) ∈ read := by
  cases walk with
  | ended outside => omega
  | read _ _ _ => exact ⟨_, List.mem_cons_self⟩

/-- A walk without an error reads an instruction where one of its instructions ends. -/
theorem exists_next (walk : code.Walk start read none) (listed : (pc, instruction) ∈ read)
    (inside : pc + instruction.length < code.size) :
    ∃ following, (pc + instruction.length, following) ∈ read := by
  generalize sound : (none : Option DecodeError) = error at walk
  induction walk with
  | ended outside => simp at listed
  | stuck _ failed => cases sound
  | read here decoded walk ih =>
    subst sound
    rcases List.mem_cons.1 listed with same | later
    · cases same
      rw [Instruction.next_eq_of_decode decoded] at walk
      obtain ⟨following, found⟩ := walk.exists_start inside
      exact ⟨following, List.mem_cons_of_mem _ found⟩
    · obtain ⟨following, found⟩ := ih later rfl
      exact ⟨following, List.mem_cons_of_mem _ found⟩

end Walk

namespace Boundary

variable {code : Code} {pc : Nat}

/-- What is read at a boundary is what decoding gives there. -/
theorem decode {instruction : Instruction}
    (listed : (pc, instruction) ∈ code.instructions.instructions) :
    pc < code.size ∧ Instruction.decode code pc = .ok (instruction, pc + instruction.length) :=
  code.instructions_walk.decode_of_mem (Array.mem_toList_iff.2 listed)

/-- An instruction is determined by where it begins. -/
theorem eq_of_begins {instruction second : Instruction}
    (listed : (pc, instruction) ∈ code.instructions.instructions)
    (also : (pc, second) ∈ code.instructions.instructions) : instruction = second := by
  have same := (decode listed).2.symm.trans (decode also).2
  exact congrArg Prod.fst (Except.ok.inj same)

/-- An instruction is determined by where it ends. -/
theorem eq_of_ends {other : Nat} {instruction second : Instruction}
    (listed : (pc, instruction) ∈ code.instructions.instructions)
    (also : (other, second) ∈ code.instructions.instructions)
    (ends : pc + instruction.length = other + second.length) :
    pc = other ∧ instruction = second :=
  code.instructions_walk.eq_of_ends (Array.mem_toList_iff.2 listed) (Array.mem_toList_iff.2 also)
    ends

/-- A boundary lies inside the code. -/
theorem inside (boundary : code.Boundary pc) : pc < code.size := by
  obtain ⟨instruction, listed⟩ := boundary
  exact (decode listed).1

/-- Code that can be read to its end begins with a boundary. -/
theorem start (sound : code.instructions.error = none) (filled : 0 < code.size) :
    code.Boundary 0 := by
  have walk := code.instructions_walk
  rw [sound] at walk
  obtain ⟨instruction, listed⟩ := walk.exists_start filled
  exact ⟨instruction, Array.mem_toList_iff.1 listed⟩

/-- In code that can be read to its end an instruction ends at a boundary, unless it is the last
one. -/
theorem next (sound : code.instructions.error = none) {instruction : Instruction}
    (listed : (pc, instruction) ∈ code.instructions.instructions)
    (more : pc + instruction.length < code.size) : code.Boundary (pc + instruction.length) := by
  have walk := code.instructions_walk
  rw [sound] at walk
  obtain ⟨following, found⟩ := walk.exists_next (Array.mem_toList_iff.2 listed) more
  exact ⟨following, Array.mem_toList_iff.1 found⟩

end Boundary

end Code

namespace Layout

/-- Arranging one more instruction. -/
theorem at?_set (layout : Layout) (pc : Nat) (instruction : Instruction) (other : Nat) :
    Layout.at? (layout.set! pc (some instruction)) other =
      if pc = other ∧ pc < layout.size then some instruction else layout.at? other := by
  unfold Layout.at?
  simp only [Array.set!_eq_setIfInBounds, Array.getElem?_setIfInBounds]
  by_cases same : pc = other
  · subst same
    by_cases inside : pc < layout.size
    · simp [inside]
    · simp [inside]
  · simp [same]

variable {read : List (Nat × Instruction)}

/-- Arranging instructions one after the other keeps the size, holds nothing else, and forgets no
offset inside. -/
theorem arranged (layout : Layout) :
    let arranged := read.foldl (fun (layout : Layout) (entry : Nat × Instruction) =>
      layout.set! entry.1 (some entry.2)) layout
    arranged.size = layout.size ∧
      (∀ pc instruction, Layout.at? arranged pc = some instruction →
        layout.at? pc = some instruction ∨ (pc, instruction) ∈ read) ∧
      ∀ pc, pc < layout.size → ((layout.at? pc).isSome ∨ ∃ instruction, (pc, instruction) ∈ read) →
        (Layout.at? arranged pc).isSome := by
  induction read generalizing layout with
  | nil => simp
  | cons entry rest ih =>
    obtain ⟨start, first⟩ := entry
    obtain ⟨size, holds, kept⟩ := ih (layout.set! start (some first))
    simp only [List.foldl_cons]
    refine ⟨by simpa using size, fun pc instruction found => ?_, fun pc inside known => ?_⟩
    · rcases holds pc instruction found with earlier | later
      · rw [at?_set] at earlier
        split at earlier
        · rename_i here
          cases earlier
          exact .inr (by simp [here.1])
        · exact .inl earlier
      · exact .inr (List.mem_cons_of_mem _ later)
    · apply kept pc (by simpa using inside)
      rw [at?_set]
      by_cases same : start = pc
      · subst same
        simp [inside]
      · rcases known with earlier | ⟨instruction, listed⟩
        · simp [same, earlier]
        · right
          refine ⟨instruction, (List.mem_cons.1 listed).resolve_left fun equal => ?_⟩
          exact same (congrArg Prod.fst equal).symm

/-- The layout of decoded instructions holds nothing else, and one at each of their offsets. -/
theorem at?_ofDecoded (size : Nat) (decoded : Array (Nat × Instruction)) :
    (Layout.ofDecoded size decoded).size = size ∧
      (∀ pc instruction, (Layout.ofDecoded size decoded).at? pc = some instruction →
        (pc, instruction) ∈ decoded) ∧
      ∀ pc instruction, pc < size → (pc, instruction) ∈ decoded →
        ((Layout.ofDecoded size decoded).at? pc).isSome := by
  have empty : ∀ pc, Layout.at? (Array.replicate size none) pc = none := by
    intro pc
    unfold Layout.at?
    by_cases inside : pc < size
    · simp [inside]
    · simp [inside]
  obtain ⟨length, holds, kept⟩ :=
    @arranged decoded.toList (Array.replicate size (none : Option Instruction))
  unfold ofDecoded
  rw [← Array.foldl_toList]
  refine ⟨by simpa using length, fun pc instruction found => ?_,
    fun pc instruction inside listed => ?_⟩
  · rcases holds pc instruction found with nothing | listed
    · rw [empty] at nothing
      cases nothing
    · exact Array.mem_toList_iff.1 listed
  · exact kept pc (by simpa using inside) (.inr ⟨instruction, Array.mem_toList_iff.2 listed⟩)

end Layout

end ScriptMachine

import ScriptMachine.Proofs.Reading

/-!
# Offsets of instructions

Instructions that are encoded one after the other begin at increasing offsets, each where the ones
before it end. At these offsets, and at no others, an instruction is read, and it is the one that
was encoded there.
-/

namespace ScriptMachine

namespace Code

variable {index other : Nat} {instruction : Instruction} {encoded : List Instruction}

theorem span_append (first second : List Instruction) :
    span (first ++ second) = span first + span second := by
  rw [span, List.map_append, List.sum_append, span, span]

/-- An instruction begins where the ones before it end. -/
theorem span_take_succ (found : encoded[index]? = some instruction) :
    span (encoded.take (index + 1)) = span (encoded.take index) + instruction.length := by
  rw [List.take_add_one, found, Option.toList_some, span_append, span_cons]
  rfl

/-- Later instructions begin at greater offsets. -/
theorem span_take_lt (earlier : index < other) (inside : other ≤ encoded.length) :
    span (encoded.take index) < span (encoded.take other) := by
  induction other, earlier using Nat.le_induction with
  | base =>
    rw [span_take_succ (List.getElem?_eq_getElem inside)]
    exact Nat.lt_add_of_pos_right (Opcode.length_pos _)
  | succ other earlier ih =>
    have before := ih (Nat.le_of_succ_le inside)
    rw [span_take_succ (List.getElem?_eq_getElem inside)]
    omega

/-- Instructions are told apart by their offsets. -/
theorem span_take_inj (inside : index ≤ encoded.length) (inside' : other ≤ encoded.length)
    (same : span (encoded.take index) = span (encoded.take other)) : index = other := by
  rcases Nat.lt_trichotomy index other with less | equal | greater
  · exact absurd same (Nat.ne_of_lt (span_take_lt less inside'))
  · exact equal
  · exact absurd same (Nat.ne_of_gt (span_take_lt greater inside))

/-- What is read of encoded instructions. -/
theorem mem_instructions_encode {pc : Nat} :
    (pc, instruction) ∈
        (Code.instructions (encoded.flatMap Instruction.encode).toArray).instructions ↔
      ∃ index, encoded[index]? = some instruction ∧ pc = span (encoded.take index) := by
  rw [instructions_encode, located_eq, List.mem_toArray, List.mem_mapIdx]
  constructor
  · rintro ⟨index, inside, same⟩
    cases same
    exact ⟨index, List.getElem?_eq_getElem inside, Nat.zero_add _⟩
  · rintro ⟨index, found, rfl⟩
    obtain ⟨inside, rfl⟩ := List.getElem?_eq_some_iff.1 found
    exact ⟨index, inside, by rw [Nat.zero_add]⟩

/-- Encoded instructions are as long as their encodings. -/
theorem length_encode (encoded : List Instruction) :
    (encoded.flatMap Instruction.encode).length = span encoded := List.length_flatMap

/-- Where an instruction was encoded it is read, and the next one begins behind it. -/
theorem decode_encode (before after : List Instruction) (instruction : Instruction) :
    Instruction.decode ((before ++ instruction :: after).flatMap Instruction.encode).toArray
      (span before) = .ok (instruction, span (before ++ [instruction])) := by
  have read := instruction.decode_encode (before.flatMap Instruction.encode)
    (after.flatMap Instruction.encode)
  rw [length_encode] at read
  rw [List.flatMap_append, List.flatMap_cons, read, span_append, span_cons]
  rfl

end Code

end ScriptMachine

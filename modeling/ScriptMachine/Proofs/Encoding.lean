import ScriptMachine.Proofs.Decoding

/-!
# Reading back what was encoded

An instruction is decoded from its encoding, wherever that stands in some code. Code that is a
sequence of encodings is therefore read as exactly those instructions, each of them where the ones
before it end.
-/

namespace ScriptMachine

/-- The bytes of a word make up the word. -/
theorem wordOfBytes_wordBytes (word : Int32) :
    wordOfBytes word.toUInt32.toUInt8 (word.toUInt32 >>> 8).toUInt8
      (word.toUInt32 >>> 16).toUInt8 (word.toUInt32 >>> 24).toUInt8 = word := by
  have bits : ∀ bits : UInt32, bits.toUInt8.toUInt32 ||| (bits >>> 8).toUInt8.toUInt32 <<< 8 |||
      (bits >>> 16).toUInt8.toUInt32 <<< 16 ||| (bits >>> 24).toUInt8.toUInt32 <<< 24 = bits := by
    intro bits
    apply UInt32.toBitVec_inj.1
    apply BitVec.eq_of_getLsbD_eq
    intro place inside
    have shifts : (8 : UInt32).toBitVec % 32 = 8#32 ∧ (16 : UInt32).toBitVec % 32 = 16#32 ∧
        (24 : UInt32).toBitVec % 32 = 24#32 := by decide
    simp only [UInt32.toBitVec_or, UInt32.toBitVec_shiftLeft, UInt32.toBitVec_shiftRight,
      UInt8.toBitVec_toUInt32, UInt32.toBitVec_toUInt8, shifts, BitVec.shiftLeft_eq',
      BitVec.ushiftRight_eq', BitVec.toNat_ofNat, Nat.reducePow, Nat.reduceMod, BitVec.getLsbD_or,
      BitVec.getLsbD_shiftLeft, BitVec.getLsbD_ushiftRight, BitVec.getLsbD_setWidth]
    -- Each of the four bytes gives the bits of its own place.
    rcases (by omega : place < 8 ∨ 8 ≤ place ∧ place < 16 ∨ 16 ≤ place ∧ place < 24 ∨ 24 ≤ place)
      with first | second | third | fourth
    all_goals grind
  unfold wordOfBytes
  rw [bits, Int32.toInt32_toUInt32]

namespace Instruction

/-- The operand bytes of an instruction make it up again. -/
theorem withOperands_operandBytes (instruction : Instruction) :
    instruction.opcode.withOperands instruction.operandBytes = some instruction := by
  cases instruction with
  | const value => exact congrArg (fun word => some (const word)) (wordOfBytes_wordBytes value)
  | longBranch test delta =>
    exact congrArg (fun word => some (longBranch test word)) (wordOfBytes_wordBytes delta)
  | _ => rfl

/-- An encoding is as long as the instruction says. -/
theorem length_encode (instruction : Instruction) :
    instruction.encode.length = instruction.length := by
  have operands : instruction.operandBytes.length = instruction.opcode.shape.size := by
    cases instruction <;> rfl
  rw [encode, List.length_cons, operands, length, Opcode.length, Nat.add_comm]

/-- An instruction is decoded wherever its encoding stands. -/
theorem decode_encode (before after : List UInt8) (instruction : Instruction) :
    decode (before ++ (instruction.encode ++ after)).toArray before.length =
      .ok (instruction, before.length + instruction.length) := by
  have opcode : (before ++ (instruction.encode ++ after)).toArray[before.length]? =
      some instruction.opcode.byte := by
    simp [encode]
  have operands : ((before ++ (instruction.encode ++ after)).toArray.extract (before.length + 1)
      (before.length + instruction.opcode.length)).toList = instruction.operandBytes := by
    have size : instruction.opcode.length = instruction.operandBytes.length + 1 :=
      (instruction.length_encode).symm
    have rest : (before ++ (instruction.encode ++ after)).drop (before.length + 1) =
        instruction.operandBytes ++ after := by
      rw [List.drop_append]
      simp [encode]
    have count : before.length + instruction.opcode.length - (before.length + 1) =
        instruction.operandBytes.length := by omega
    simp only [List.extract_toArray, List.extract_eq_take_drop, rest, count, List.take_left']
  unfold decode
  simp only [opcode, Opcode.ofByte?_byte, operands, withOperands_operandBytes]
  rfl

end Instruction

namespace Code

/-- Instructions that stand one after the other, each with its offset. -/
def located : Nat → List Instruction → List (Nat × Instruction)
  | _, [] => []
  | pc, instruction :: rest => (pc, instruction) :: located (pc + instruction.length) rest

/-- Reading on where a sequence of encodings begins reads exactly its instructions. -/
theorem decodeFrom_encode (before : List UInt8) (encoded : List Instruction)
    (read : Array (Nat × Instruction)) :
    decodeFrom (before ++ encoded.flatMap Instruction.encode).toArray before.length read =
      ⟨read ++ located before.length encoded, none⟩ := by
  induction encoded generalizing before read with
  | nil =>
    rw [decodeFrom]
    simp [located]
  | cons instruction rest ih =>
    have inside : before.length <
        (before ++ (instruction :: rest).flatMap Instruction.encode).toArray.size := by
      simp [Instruction.encode]
    have length : (before ++ instruction.encode).length = before.length + instruction.length := by
      rw [List.length_append, instruction.length_encode]
    have decoded := instruction.decode_encode before (rest.flatMap Instruction.encode)
    rw [decodeFrom, if_pos inside]
    rw [← List.flatMap_cons] at decoded
    split
    · rename_i failed
      rw [decoded] at failed
      cases failed
    · rename_i found
      cases decoded.symm.trans found
      have next := ih (before ++ instruction.encode) (read.push (before.length, instruction))
      rw [List.append_assoc, length] at next
      rw [List.flatMap_cons, next, located]
      simp

/-- A sequence of encodings is read as exactly its instructions. -/
theorem instructions_encode (encoded : List Instruction) :
    instructions (encoded.flatMap Instruction.encode).toArray =
      ⟨(located 0 encoded).toArray, none⟩ := by
  have whole := decodeFrom_encode [] encoded #[]
  simpa [instructions] using whole

end Code

end ScriptMachine

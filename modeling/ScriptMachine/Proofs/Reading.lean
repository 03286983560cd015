import ScriptMachine.Proofs.Encoding

/-!
# One way to write an instruction

An instruction that is read is followed in the code by nothing but the bytes of its encoding, so no
instruction has a second encoding. What has been read of some code, written again, is therefore the
code up to the offset where reading stopped. Reading stops at the end of the code, or at the first
offset whose byte is no opcode or whose operands run past the end. A reader that is asked for one
instruction after the other gives the same instructions in the same order, and an error at most as
the last thing.
-/

namespace ScriptMachine

/-- The bytes of a word that is made up of bytes are these bytes. -/
theorem wordBytes_wordOfBytes (b0 b1 b2 b3 : UInt8) :
    wordBytes (wordOfBytes b0 b1 b2 b3) = [b0, b1, b2, b3] := by
  have bytes (byte other : UInt8) :
      (∀ place < 8, byte.toBitVec.getLsbD place = other.toBitVec.getLsbD place) → byte = other :=
    fun same => UInt8.toBitVec_inj.1 (BitVec.eq_of_getLsbD_eq same)
  have shifts : (8 : UInt32).toBitVec % 32 = 8#32 ∧ (16 : UInt32).toBitVec % 32 = 16#32 ∧
      (24 : UInt32).toBitVec % 32 = 24#32 := by decide
  unfold wordBytes wordOfBytes
  dsimp only
  rw [UInt32.toUInt32_toInt32]
  -- Of each byte the others are shifted out.
  refine congrArg₂ _ (bytes _ _ ?_) (congrArg₂ _ (bytes _ _ ?_)
    (congrArg₂ _ (bytes _ _ ?_) (congrArg₂ _ (bytes _ _ ?_) rfl)))
  all_goals
    intro place inside
    simp only [UInt32.toBitVec_or, UInt32.toBitVec_shiftLeft, UInt32.toBitVec_shiftRight,
      UInt8.toBitVec_toUInt32, UInt32.toBitVec_toUInt8, shifts, BitVec.shiftLeft_eq',
      BitVec.ushiftRight_eq', BitVec.toNat_ofNat, Nat.reducePow, Nat.reduceMod, BitVec.getLsbD_or,
      BitVec.getLsbD_shiftLeft, BitVec.getLsbD_ushiftRight, BitVec.getLsbD_setWidth]
    grind

namespace Opcode

/-- The opcodes are the first forty-seven bytes. -/
theorem exists_byte_iff {byte : UInt8} : (∃ op : Opcode, op.byte = byte) ↔ byte.toNat < 47 := by
  constructor
  · rintro ⟨op, rfl⟩
    have listed := op.ofByte?_byte
    exact (Array.getElem?_eq_some_iff.1 listed).1
  · intro small
    exact ⟨_, byte_of_ofByte? (Array.getElem?_eq_getElem (show byte.toNat < all.size from small))⟩

/-- Operand bytes that make an instruction are the operand bytes of the instruction. -/
theorem operandBytes_of_withOperands {op : Opcode} {bytes : List UInt8}
    {instruction : Instruction} (made : op.withOperands bytes = some instruction) :
    instruction.operandBytes = bytes := by
  cases op with
  | nop | pop | dup | unary | binary | loopCheck | ret =>
    rcases bytes with _ | _
    all_goals cases made
    rfl
  | globalLoad | globalStore | localLoad | localStore | specialLoad | threadLoad =>
    rcases bytes with _ | ⟨_, _ | _⟩
    all_goals cases made
    rfl
  | const8 | branch =>
    rcases bytes with _ | ⟨byte, _ | _⟩
    all_goals cases made
    exact congrArg (fun byte => [byte]) (UInt8.toUInt8_toInt8 byte)
  | native | script =>
    rcases bytes with _ | ⟨_, _ | ⟨_, _ | _⟩⟩
    all_goals cases made
    rfl
  | const | longBranch =>
    rcases bytes with _ | ⟨_, _ | ⟨_, _ | ⟨_, _ | ⟨_, _ | _⟩⟩⟩⟩
    all_goals cases made
    exact wordBytes_wordOfBytes _ _ _ _

/-- Operand bytes make an instruction exactly if there are as many as the opcode asks for. -/
theorem withOperands_isSome_iff (op : Opcode) (bytes : List UInt8) :
    (op.withOperands bytes).isSome ↔ bytes.length = op.shape.size := by
  constructor
  · intro made
    obtain ⟨instruction, made⟩ := Option.isSome_iff_exists.1 made
    have long := instruction.length_encode
    rw [Instruction.encode, List.length_cons, operandBytes_of_withOperands made,
      Instruction.length, opcode_of_withOperands made, length] at long
    omega
  · intro sized
    cases op with
    | nop | pop | dup | unary | binary | loopCheck | ret =>
      obtain rfl := List.length_eq_zero_iff.1 sized
      rfl
    | globalLoad | globalStore | localLoad | localStore | specialLoad | threadLoad | const8
    | branch =>
      obtain ⟨_, rfl⟩ := List.length_eq_one_iff.1 sized
      rfl
    | native | script =>
      obtain ⟨_, _, rfl⟩ := List.length_eq_two.1 sized
      rfl
    | const | longBranch =>
      rcases bytes with _ | ⟨_, _ | ⟨_, _ | ⟨_, _ | ⟨_, _ | _⟩⟩⟩⟩
      all_goals cases sized
      rfl

/-- The bytes behind an opcode make an instruction exactly if the code is long enough. -/
theorem withOperands_extract_isSome_iff (op : Opcode) {code : Code} {pc : Nat}
    (inside : pc < code.size) :
    (op.withOperands (code.extract (pc + 1) (pc + op.length)).toList).isSome ↔
      pc + op.length ≤ code.size := by
  rw [withOperands_isSome_iff, Array.length_toList, Array.size_extract, length]
  omega

end Opcode

namespace Instruction

/-- An instruction that is read stands in the code with the bytes of its encoding. -/
theorem encode_of_decode {code : Code} {pc next : Nat} {instruction : Instruction}
    (read : decode code pc = .ok (instruction, next)) :
    next ≤ code.size ∧ instruction.encode = (code.extract pc next).toList := by
  unfold decode at read
  split at read
  · cases read
  · rename_i byte present
    obtain ⟨inside, rfl⟩ := Array.getElem?_eq_some_iff.1 present
    split at read
    · cases read
    · rename_i op known
      dsimp only at read
      split at read
      · cases read
      · rename_i made
        cases read
        have room := (op.withOperands_extract_isSome_iff inside).1 (by rw [made]; rfl)
        have positive := op.length_pos
        have first : (code.extract pc (pc + op.length)).toList =
            code[pc] :: (code.extract (pc + 1) (pc + op.length)).toList := by
          simp only [Array.toList_extract, List.extract_eq_take_drop]
          have shorter : pc + op.length - pc = (pc + op.length - (pc + 1)) + 1 := by omega
          rw [List.drop_eq_getElem_cons (by simpa using inside), Array.getElem_toList, shorter,
            List.take_succ_cons]
        refine ⟨room, ?_⟩
        rw [first, encode, Opcode.opcode_of_withOperands made, Opcode.byte_of_ofByte? known,
          Opcode.operandBytes_of_withOperands made]

/-- No instruction can be read at an offset inside the code: its byte is no opcode, or the operands
run past the end. -/
inductive Unreadable (code : Code) (pc : Nat) : DecodeError → Prop where
  | unknown {byte : UInt8} (present : code[pc]? = some byte) (foreign : 47 ≤ byte.toNat) :
    Unreadable code pc (.unknownOpcode pc byte)
  | truncated {op : Opcode} (present : code[pc]? = some op.byte)
    (short : code.size < pc + op.length) : Unreadable code pc (.truncated pc)

/-- An offset at which no instruction can be read lies inside the code. -/
theorem Unreadable.inside {code : Code} {pc : Nat} {error : DecodeError}
    (unreadable : Unreadable code pc error) : pc < code.size := by
  cases unreadable with
  | unknown present _ => exact (Array.getElem?_eq_some_iff.1 present).1
  | truncated present _ => exact (Array.getElem?_eq_some_iff.1 present).1

/-- Decoding fails inside the code exactly where no instruction can be read, and says why. -/
theorem decode_eq_error_iff {code : Code} {pc : Nat} (inside : pc < code.size)
    {error : DecodeError} : decode code pc = .error error ↔ Unreadable code pc error := by
  constructor
  · intro failed
    have present : code[pc]? = some code[pc] := Array.getElem?_eq_getElem inside
    unfold decode at failed
    rw [present] at failed
    dsimp only at failed
    split at failed
    · rename_i unknown
      cases failed
      refine .unknown present (Nat.le_of_not_lt fun small => ?_)
      obtain ⟨op, same⟩ := Opcode.exists_byte_iff.2 small
      rw [← same, op.ofByte?_byte] at unknown
      cases unknown
    · rename_i op known
      split at failed
      · rename_i unmade
        cases failed
        rw [← Opcode.byte_of_ofByte? known] at present
        refine .truncated present (Nat.lt_of_not_le fun room => ?_)
        have made := (op.withOperands_extract_isSome_iff inside).2 room
        rw [unmade] at made
        cases made
      · cases failed
  · rintro (⟨found, foreign⟩ | ⟨found, short⟩)
    · rename_i byte
      unfold decode
      rw [found]
      dsimp only
      split
      · rfl
      · rename_i op known
        have small := Opcode.exists_byte_iff.1 ⟨op, Opcode.byte_of_ofByte? known⟩
        omega
    · rename_i op
      unfold decode
      rw [found]
      simp only [op.ofByte?_byte]
      split
      · rfl
      · rename_i made
        have room := (op.withOperands_extract_isSome_iff inside).1 (by rw [made]; rfl)
        omega

end Instruction

namespace Code

/-- The number of bytes that instructions take up. -/
def span (instructions : List Instruction) : Nat :=
  (instructions.map fun instruction => instruction.encode.length).sum

/-- Instructions that stand one after the other begin where the ones before them end. -/
theorem located_eq (pc : Nat) (encoded : List Instruction) :
    located pc encoded =
      encoded.mapIdx fun index instruction => (pc + span (encoded.take index), instruction) := by
  induction encoded generalizing pc with
  | nil => rfl
  | cons instruction rest ih =>
    rw [located, ih, List.mapIdx_cons]
    simp only [span, List.take_zero, List.map_nil, List.sum_nil, Nat.add_zero,
      List.take_succ_cons, List.map_cons, List.sum_cons, instruction.length_encode, Nat.add_assoc]

/-- The first instruction takes up its own bytes. -/
theorem span_cons (instruction : Instruction) (rest : List Instruction) :
    span (instruction :: rest) = instruction.length + span rest := by
  rw [span, List.map_cons, List.sum_cons, instruction.length_encode, span]

/-- What a walk reads stands one after the other, and written again it is the code between the start
of the walk and its end. The walk ends with the code, or where no instruction can be read. -/
theorem Walk.written {code : Code} {start : Nat} {read : List (Nat × Instruction)}
    {error : Option DecodeError} (walk : code.Walk start read error) (inside : start ≤ code.size) :
    let stop := start + span (read.map Prod.snd)
    read = located start (read.map Prod.snd) ∧
      stop ≤ code.size ∧
      (read.map Prod.snd).flatMap Instruction.encode = (code.extract start stop).toList ∧
      (error = none ↔ stop = code.size) ∧
      ∀ other, error = some other ↔ Instruction.Unreadable code stop other := by
  induction walk with
  | ended outside =>
    have ends := Nat.le_antisymm inside outside
    subst ends
    refine ⟨rfl, Nat.le_refl _, by simp [span], by simp [span], fun other => ?_⟩
    exact iff_of_false (by simp) fun unreadable => Nat.lt_irrefl _ unreadable.inside
  | stuck here failed =>
    refine ⟨rfl, inside, by simp [span], iff_of_false (by simp) (Nat.ne_of_lt here),
      fun other => ?_⟩
    rw [Option.some.injEq]
    refine ⟨?_, fun unreadable => ?_⟩
    · rintro rfl
      exact (Instruction.decode_eq_error_iff here).1 failed
    · have also := (Instruction.decode_eq_error_iff here).2 unreadable
      exact Except.error.inj (failed.symm.trans also)
  | @read pc next instruction rest error here decoded walk ih =>
    obtain ⟨room, bytes⟩ := Instruction.encode_of_decode decoded
    obtain ⟨placed, bounded, written, whole, stuck⟩ := ih room
    have ends := Instruction.next_eq_of_decode decoded
    have stop : pc + span (((pc, instruction) :: rest).map Prod.snd) =
        next + span (rest.map Prod.snd) := by
      rw [List.map_cons, span_cons, ends, Nat.add_assoc]
    rw [stop]
    refine ⟨?_, bounded, ?_, whole, stuck⟩
    · rw [List.map_cons, located, ← ends, ← placed]
    · rw [List.map_cons, List.flatMap_cons, written, bytes, ← Array.toList_append,
        Array.extract_append_extract, Nat.min_eq_left (by omega), Nat.max_eq_right (by omega)]

end Code

/-- The instructions and the error, in the order in which they come. -/
def Decoded.items (decoded : Decoded) : List (Except DecodeError (Nat × Instruction)) :=
  decoded.instructions.toList.map .ok ++ (decoded.error.map .error).toList

/-- Code that is being read one instruction after the other. -/
structure Reader where
  code : Code
  /-- The offset of the next instruction. -/
  pc : Nat := 0
  /-- No instruction could be read at the offset. -/
  failed : Bool := false

namespace Reader

/-- What comes next: an instruction with its offset, or the error that ends the reading. -/
def next? (reader : Reader) : Option (Except DecodeError (Nat × Instruction) × Reader) :=
  if reader.failed || reader.code.size ≤ reader.pc then none
  else
    match Instruction.decode reader.code reader.pc with
    | .ok (instruction, next) => some (.ok (reader.pc, instruction), { reader with pc := next })
    | .error error => some (.error error, { reader with failed := true })

/-- A reader gives these items one after the other, and then nothing more. -/
inductive Gives : Reader → List (Except DecodeError (Nat × Instruction)) → Prop where
  | ended {reader : Reader} (nothing : reader.next? = none) : reader.Gives []
  | item {reader after : Reader} {first : Except DecodeError (Nat × Instruction)}
    {items : List (Except DecodeError (Nat × Instruction))}
    (found : reader.next? = some (first, after)) (rest : after.Gives items) :
    reader.Gives (first :: items)

/-- A reader gives one thing after the other, whatever is expected of it. -/
theorem Gives.unique {reader : Reader}
    {items others : List (Except DecodeError (Nat × Instruction))}
    (gives : reader.Gives items) (also : reader.Gives others) : items = others := by
  induction gives generalizing others with
  | ended nothing =>
    cases also with
    | ended _ => rfl
    | item found _ =>
      rw [nothing] at found
      cases found
  | item found _ ih =>
    cases also with
    | ended nothing =>
      rw [found] at nothing
      cases nothing
    | item second rest =>
      cases found.symm.trans second
      rw [ih rest]

/-- A reader gives what a walk reads, and then the error that ends the walk. -/
theorem gives_of_walk {code : Code} {start : Nat} {read : List (Nat × Instruction)}
    {error : Option DecodeError} (walk : code.Walk start read error) :
    Gives { code, pc := start } (read.map .ok ++ (error.map .error).toList) := by
  induction walk with
  | ended outside => exact .ended (by simp [next?, outside])
  | @stuck pc error inside failed =>
    have found : next? { code, pc } = some (.error error, { code, pc, failed := true }) := by
      simp [next?, Nat.not_le_of_lt inside, failed]
    exact .item found (.ended (by simp [next?]))
  | @read pc next instruction rest error inside decoded walk ih =>
    have found : next? { code, pc } = some (.ok (pc, instruction), { code, pc := next }) := by
      simp [next?, Nat.not_le_of_lt inside, decoded]
    exact .item found ih

/-- A reader gives exactly what is read of its code. -/
theorem gives_iff (code : Code) (items : List (Except DecodeError (Nat × Instruction))) :
    Gives { code } items ↔ items = code.instructions.items := by
  have gives : Gives { code } code.instructions.items := gives_of_walk code.instructions_walk
  constructor
  · intro also
    exact also.unique gives
  · rintro rfl
    exact gives

end Reader

namespace Code

/-- Reading and writing code are inverse to each other. A sequence of encodings is read as exactly
its instructions, each of them at the number of bytes before it, without an error. What is read of
any code, written again, is the code up to the offset where reading stops; an error comes last, and
exactly if reading stops before the end of the code, because no instruction can be read there, which
was not so at any instruction before. -/
theorem reading_inverts_writing :
    (∀ code items, Reader.Gives { code } items ↔ items = code.instructions.items) ∧
    (∀ encoded : List Instruction,
      let code : Code := (encoded.flatMap Instruction.encode).toArray
      code.instructions.instructions.toList =
          encoded.mapIdx (fun index instruction => (span (encoded.take index), instruction)) ∧
        code.instructions.error = none) ∧
    ∀ code : Code,
      let read := code.instructions.instructions.toList.map Prod.snd
      code.instructions.instructions.toList =
          read.mapIdx (fun index instruction => (span (read.take index), instruction)) ∧
        read.flatMap Instruction.encode = code.toList.take (span read) ∧
        (code.instructions.error = none ↔ code.toList.take (span read) = code.toList) ∧
        (∀ error, code.instructions.error = some error ↔
          Instruction.Unreadable code (span read) error) ∧
        ∀ pc, code.Boundary pc → ∀ error, ¬Instruction.Unreadable code pc error := by
  refine ⟨Reader.gives_iff, fun encoded => ?_, fun code => ?_⟩
  · dsimp only
    rw [instructions_encode, located_eq]
    simp
  · obtain ⟨placed, bounded, written, whole, stuck⟩ :=
      code.instructions_walk.written (Nat.zero_le _)
    simp only [Nat.zero_add] at bounded written whole stuck
    dsimp only
    refine ⟨?_, ?_, ?_, stuck, ?_⟩
    · rw [located_eq] at placed
      simpa only [Nat.zero_add] using placed
    · rw [written]
      simp
    · rw [whole, List.take_eq_self_iff, Array.length_toList]
      omega
    · rintro pc ⟨instruction, listed⟩ error unreadable
      have failed := (Instruction.decode_eq_error_iff unreadable.inside).2 unreadable
      rw [(Boundary.decode listed).2] at failed
      cases failed

end Code

end ScriptMachine

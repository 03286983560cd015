import ScriptMachine.Listing
import ScriptMachine.Proofs.Numerals

/-!
# The lines of a listing

Below its header a listing consists of lines, and no line holds a line break, so the text determines
the lines. An instruction has one line, and before it the line of its label if it has one; the two
kinds of lines differ in their first character after the blanks. The line of an instruction shows
its offset, its mnemonic and its operands, and nothing of them is lost.
-/

namespace ScriptMachine

/-- Lines that hold no line break are determined by the text that they make up. -/
theorem lines_inj {lines lines' : List String} (unbroken : ∀ line ∈ lines, '\n' ∉ line.toList)
    (unbroken' : ∀ line ∈ lines', '\n' ∉ line.toList)
    (same : String.join (lines.map (· ++ "\n")) = String.join (lines'.map (· ++ "\n"))) :
    lines = lines' := by
  have cons (line : String) (rest : List String) :
      (String.join ((line :: rest).map (· ++ "\n"))).toList =
        line.toList ++ '\n' :: (String.join (rest.map (· ++ "\n"))).toList := by
    simp
  induction lines generalizing lines' with
  | nil =>
    cases lines' with
    | nil => rfl
    | cons line rest =>
      have empty := congrArg String.toList same
      rw [cons] at empty
      simp at empty
  | cons line rest ih =>
    cases lines' with
    | nil =>
      have empty := congrArg String.toList same
      rw [cons] at empty
      simp at empty
    | cons line' rest' =>
      have texts := congrArg String.toList same
      rw [cons, cons] at texts
      obtain ⟨first, others⟩ := append_inj_of_mark (unbroken _ List.mem_cons_self)
        (unbroken' _ List.mem_cons_self) (by simp) (by simp) texts
      have later := ih (fun line inside => unbroken _ (List.mem_cons_of_mem _ inside))
        (fun line inside => unbroken' _ (List.mem_cons_of_mem _ inside))
        (String.toList_inj.1 (List.cons.inj others).2)
      rw [String.toList_inj.1 first, later]

namespace Opcode

/-- A mnemonic holds no blank and no line break. -/
theorem mark_notMem_mnemonic (op : Opcode) :
    ' ' ∉ op.mnemonic.toList ∧ '\n' ∉ op.mnemonic.toList := by
  have all : ∀ i : Fin all.size, ' ' ∉ all[i].mnemonic.toList ∧ '\n' ∉ all[i].mnemonic.toList := by
    decide +kernel
  obtain ⟨inside, same⟩ := Array.getElem?_eq_some_iff.1 op.ofByte?_byte
  exact same ▸ all ⟨_, inside⟩

/-- Opcodes are told apart by their mnemonics. -/
theorem mnemonic_inj {first second : Opcode} :
    first.mnemonic = second.mnemonic ↔ first = second := by
  refine ⟨fun same => ?_, fun same => same ▸ rfl⟩
  have distinct : ∀ i j : Fin all.size, all[i].mnemonic = all[j].mnemonic → i = j := by
    decide +kernel
  obtain ⟨inside, listed⟩ := Array.getElem?_eq_some_iff.1 first.ofByte?_byte
  obtain ⟨inside', listed'⟩ := Array.getElem?_eq_some_iff.1 second.ofByte?_byte
  have place : first.byte.toNat = second.byte.toNat :=
    Fin.mk.inj (distinct ⟨_, inside⟩ ⟨_, inside'⟩ (by
      rw [Fin.getElem_fin, Fin.getElem_fin, listed, listed', same]))
  simp only [place] at listed
  exact listed.symm.trans listed'

end Opcode

namespace Listing

variable {ν : Type} {labels : List Nat} {pc : Nat} {instruction : Instruction}

/-- The line that defines a label. -/
def labelLine (number : Nat) : String := s!"  @L{number}:"

/-- The line of the instruction at an offset. -/
def instructionLine (labels : List Nat) (pc : Nat) (instruction : Instruction) : String :=
  "  " ++ Numeral.zeroPadded 6 pc ++ ": " ++ instruction.opcode.mnemonic
    ++ operandText labels pc instruction

/-- The lines of the instruction at an offset, with that of its label. -/
def entryLines (labels : List Nat) (entry : Nat × Instruction) : List String :=
  ((labels.idxOf? entry.1).map labelLine).toList ++ [instructionLine labels entry.1 entry.2]

/-- The line of an error that ends the decoding. -/
def errorLine (error : DecodeError) : String := "  <decode error: " ++ error.message ++ ">"

/-- The lines below the header. -/
def lines (listing : Listing ν) : List String :=
  listing.instructions.flatMap (entryLines listing.labels) ++ (listing.error.map errorLine).toList

/-- The text of an instruction consists of its lines. -/
theorem instructionText_eq (labels : List Nat) (pc : Nat) (instruction : Instruction) :
    instructionText labels pc instruction =
      String.join ((entryLines labels (pc, instruction)).map (· ++ "\n")) := by
  have label (number : Nat) : s!"  @L{number}:\n" = labelLine number ++ "\n" := by
    rw [← String.toList_inj]
    simp [labelLine, toString]
  unfold instructionText entryLines
  dsimp only
  cases labels.idxOf? pc with
  | none => simp [instructionLine]
  | some number =>
    dsimp only
    rw [label, ← String.toList_inj]
    simp [instructionLine]

/-- A listing is its header and its lines. -/
theorem text_eq (listing : Listing ν) :
    listing.text = listing.header ++ String.join (listing.lines.map (· ++ "\n")) := by
  have entries (labels : List Nat) (instructions : List (Nat × Instruction)) :
      String.join (instructions.map fun entry => instructionText labels entry.1 entry.2) =
        String.join ((instructions.flatMap (entryLines labels)).map (· ++ "\n")) := by
    induction instructions with
    | nil => rfl
    | cons entry rest ih =>
      rw [List.map_cons, List.flatMap_cons, List.map_append, String.join_append, String.join_cons,
        ih, instructionText_eq]
  have ending (message : String) : "  <decode error: " ++ message ++ ">\n" =
      String.join ["  <decode error: " ++ message ++ ">" ++ "\n"] := by
    rw [← String.toList_inj]
    simp
  unfold text lines
  dsimp only
  rw [List.map_append, String.join_append, ← entries, ← String.append_assoc]
  cases listing.error with
  | none => rfl
  | some error => exact congrArg (_ ++ ·) (ending error.message)

/-! ## Line breaks -/

/-- A text that consists of two texts without a mark is without it. -/
theorem notMem_append {mark : Char} {first second : String} (free : mark ∉ first.toList)
    (free' : mark ∉ second.toList) : mark ∉ (first ++ second).toList := by
  rw [String.toList_append, List.mem_append, not_or]
  exact ⟨free, free'⟩

/-- A natural number is written without marks. -/
theorem notMem_repr {mark : Char} (foreign : mark.isDigit = false) (n : Nat) :
    mark ∉ n.repr.toList := fun inside => by
  rw [Numeral.isDigit_of_mem_repr inside] at foreign
  cases foreign

/-- What a branch shows, from where it leads or else from its distance. -/
theorem operandText_of_delta {delta : Int} (branches : instruction.delta? = some delta) :
    operandText labels pc instruction =
      match instruction.target? pc with
      | some target => " " ++ targetText labels target
      | none => " <" ++ Numeral.signed delta ++ ">" := by
  cases instruction with
  | branch | longBranch =>
    cases branches
    rfl
  | _ => cases branches

theorem lineBreak_notMem_targetText (labels : List Nat) (target : Nat) :
    '\n' ∉ (targetText labels target).toList := by
  unfold targetText
  split
  · exact notMem_append (by decide) (notMem_repr rfl _)
  · refine notMem_append (by decide) fun inside => ?_
    cases Numeral.isDigit_of_mem_zeroPadded inside

/-- Operands that are no branch targets are written in digits and a few other characters. -/
theorem notMem_operandText {mark : Char} (foreign : mark.isDigit = false)
    (apart : mark ∉ " ,mf-".toList) (straight : instruction.delta? = none) :
    mark ∉ (operandText labels pc instruction).toList := by
  have part {text : String} (within : text.toList ⊆ " ,mf-".toList) : mark ∉ text.toList :=
    fun inside => apart (within inside)
  have natural (n : Nat) : mark ∉ n.repr.toList := notMem_repr foreign n
  have integer (n : Int) : mark ∉ n.repr.toList := by
    rw [Int.repr_eq_if]
    split
    · exact natural _
    · exact notMem_append (part (by decide)) (natural _)
  cases instruction with
  | branch | longBranch => cases straight
  | globalLoad | globalStore | localLoad | localStore | specialLoad | threadLoad =>
    exact notMem_append (part (by decide)) (natural _)
  | const | const8 => exact notMem_append (part (by decide)) (integer _)
  | native =>
    exact notMem_append (notMem_append (notMem_append (part (by decide)) (natural _))
      (part (by decide))) (natural _)
  | script =>
    exact notMem_append (notMem_append (notMem_append (part (by decide)) (natural _))
      (part (by decide))) (notMem_append (part (by decide)) (natural _))
  | nop | pop | dup | unary | binary | loopCheck | ret => exact List.not_mem_nil

theorem lineBreak_notMem_operandText (labels : List Nat) (pc : Nat) (instruction : Instruction) :
    '\n' ∉ (operandText labels pc instruction).toList := by
  cases branches : instruction.delta? with
  | none => exact notMem_operandText rfl (by decide) branches
  | some delta =>
    rw [operandText_of_delta branches]
    split
    · exact notMem_append (by decide) (lineBreak_notMem_targetText _ _)
    · refine notMem_append (notMem_append (by decide) ?_) (by decide)
      unfold Numeral.signed
      split <;> exact notMem_append (by decide) (notMem_repr rfl _)

theorem lineBreak_notMem_errorLine (error : DecodeError) : '\n' ∉ (errorLine error).toList := by
  have byte (b : UInt8) : '\n' ∉ (Numeral.hexByte b).toList := by
    obtain ⟨high, small, low, small', _, digits⟩ := Numeral.exists_digits_hexByte b
    rw [digits]
    have unbroken {n : Nat} (small : n < 16) : '\n' ≠ Numeral.digit n :=
      (Numeral.digit_ne rfl small).symm
    simp [unbroken small, unbroken small']
  refine notMem_append (notMem_append (by decide) ?_) (by decide)
  cases error with
  | truncated => exact notMem_append (by decide) (notMem_repr rfl _)
  | unknownOpcode =>
    exact notMem_append (notMem_append (by decide) (byte _))
      (notMem_append (by decide) (notMem_repr rfl _))

/-- No line of a listing holds a line break. -/
theorem lineBreak_notMem_lines (listing : Listing ν) :
    ∀ line ∈ listing.lines, '\n' ∉ line.toList := by
  have entry (labels : List Nat) (entry : Nat × Instruction) :
      ∀ line ∈ entryLines labels entry, '\n' ∉ line.toList := by
    intro line inside
    rcases List.mem_append.1 inside with label | instruction
    · obtain ⟨number, _, rfl⟩ := Option.map_eq_some_iff.1 (Option.mem_toList.1 label)
      exact notMem_append (notMem_append (by decide) (notMem_repr rfl _)) (by decide)
    · rw [List.mem_singleton.1 instruction]
      refine notMem_append (notMem_append (notMem_append (notMem_append (by decide)
        fun inside => ?_) (by decide)) entry.2.opcode.mark_notMem_mnemonic.2)
        (lineBreak_notMem_operandText _ _ _)
      cases Numeral.isDigit_of_mem_zeroPadded inside
  intro line inside
  rcases List.mem_append.1 inside with listed | failed
  · obtain ⟨_, _, inside⟩ := List.mem_flatMap.1 listed
    exact entry _ _ _ inside
  · obtain ⟨error, _, rfl⟩ := Option.map_eq_some_iff.1 (Option.mem_toList.1 failed)
    exact lineBreak_notMem_errorLine error

/-! ## What a line shows -/

theorem labelLine_inj {number number' : Nat} :
    labelLine number = labelLine number' ↔ number = number' := by
  refine ⟨fun same => ?_, fun same => same ▸ rfl⟩
  unfold labelLine at same
  rw [String.append_left_inj, String.append_right_inj] at same
  exact Nat.repr_inj.1 same

/-- The line of a label is not that of an instruction. -/
theorem labelLine_ne_instructionLine (number : Nat) :
    labelLine number ≠ instructionLine labels pc instruction := by
  intro same
  obtain ⟨first, rest, digits, isDigit⟩ := Numeral.exists_digit_zeroPadded 6 pc
  have texts := congrArg (fun line => line.toList[2]?) same
  have at_sign : (labelLine number).toList[2]? = some '@' := by simp [labelLine, toString]
  have digit : (instructionLine labels pc instruction).toList[2]? = some first := by
    simp [instructionLine, digits]
  rw [at_sign, digit] at texts
  obtain rfl := Option.some.inj texts
  cases isDigit

/-- The line of a label is not that of an error. -/
theorem labelLine_ne_errorLine (number : Nat) (error : DecodeError) :
    labelLine number ≠ errorLine error := by
  intro same
  have texts := congrArg (fun line => line.toList[2]?) same
  have at_sign : (labelLine number).toList[2]? = some '@' := by simp [labelLine, toString]
  have bracket (message : String) :
      ("  <decode error: " ++ message ++ ">").toList[2]? = some '<' := by simp
  rw [at_sign, show (errorLine error).toList[2]? = some '<' from bracket _] at texts
  cases texts

/-- Operands follow a blank. -/
theorem head_operandText (labels : List Nat) (pc : Nat) (instruction : Instruction) :
    ∀ first ∈ (operandText labels pc instruction).toList.head?, first = ' ' := by
  have blank {first second : String} (begins : first.toList.head? = some ' ') :
      (first ++ second).toList.head? = some ' ' := by
    rw [String.toList_append, List.head?_append, begins, Option.some_or]
  have shown (some_blank : (operandText labels pc instruction).toList.head? = some ' ') :
      ∀ first ∈ (operandText labels pc instruction).toList.head?, first = ' ' := by
    intro first begins
    rw [some_blank] at begins
    exact (Option.some.inj begins).symm
  have branch {delta : Int} (branches : instruction.delta? = some delta) :
      (operandText labels pc instruction).toList.head? = some ' ' := by
    rw [operandText_of_delta branches]
    split
    · exact blank rfl
    · exact blank (blank rfl)
  cases instruction with
  | branch | longBranch => exact shown (branch rfl)
  | globalLoad | globalStore | localLoad | localStore | specialLoad | threadLoad | const
  | const8 => exact shown (blank rfl)
  | native | script => exact shown (blank (blank (blank rfl)))
  | nop | pop | dup | unary | binary | loopCheck | ret =>
    intro first begins
    cases begins

/-- The line of an instruction shows its offset, its opcode and its operands. -/
theorem instructionLine_inj {labels' : List Nat} {pc' : Nat} {instruction' : Instruction} :
    instructionLine labels pc instruction = instructionLine labels' pc' instruction' ↔
      pc = pc' ∧ instruction.opcode = instruction'.opcode ∧
        operandText labels pc instruction = operandText labels' pc' instruction' := by
  constructor
  · intro same
    unfold instructionLine at same
    simp only [String.append_assoc, String.append_right_inj] at same
    have texts := congrArg String.toList same
    simp only [String.toList_append] at texts
    have colon (pc : Nat) : ':' ∉ (Numeral.zeroPadded 6 pc).toList := fun inside => by
      cases Numeral.isDigit_of_mem_zeroPadded inside
    obtain ⟨offset, rest⟩ := append_inj_of_mark (colon pc) (colon pc') (by simp) (by simp) texts
    obtain ⟨opcode, operands⟩ := append_inj_of_mark instruction.opcode.mark_notMem_mnemonic.1
      instruction'.opcode.mark_notMem_mnemonic.1 (head_operandText _ _ _) (head_operandText _ _ _)
      (List.append_cancel_left rest)
    exact ⟨Numeral.zeroPadded_inj.1 (String.toList_inj.1 offset),
      Opcode.mnemonic_inj.1 (String.toList_inj.1 opcode), String.toList_inj.1 operands⟩
  · rintro ⟨rfl, opcode, operands⟩
    rw [instructionLine, instructionLine, opcode, operands]

end Listing

end ScriptMachine

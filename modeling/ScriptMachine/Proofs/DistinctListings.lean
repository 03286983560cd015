import ScriptMachine.Proofs.Labels
import ScriptMachine.Proofs.Reading

/-!
# Listings that tell code apart

A listing does not show the distances of branches, but the numbers of labels in a table that depends
on the whole code. Still it determines the code if every branch leads to an instruction or to the
end of the code. For the text determines its lines, and the lines of an instruction determine its
offset, its opcode, its operands and the number of its label, if it has one. So two functions with
the same listing have instructions with the same opcodes at the same offsets, and their tables give
the same number to each of these offsets. A number that two branches refer to therefore stands for
the same target in both functions, or else for the end of the code in both.
-/

namespace ScriptMachine

/-- Every branch leads to an instruction or to the end of the code. -/
def Code.TargetsAligned (code : Code) : Prop :=
  ∀ pc instruction target, (pc, instruction) ∈ code.instructions.instructions →
    instruction.target? pc = some target → code.Boundary target ∨ target = code.size

/-- Whether code is aligned can be computed from its instructions. -/
theorem Code.targetsAligned_iff {code : Code} : code.TargetsAligned ↔
    ∀ entry ∈ code.instructions.instructions.toList, ∀ target ∈ entry.2.target? entry.1,
      target ∈ code.instructions.instructions.toList.map Prod.fst ∨ target = code.size := by
  have begins (target : Nat) : target ∈ code.instructions.instructions.toList.map Prod.fst ↔
      code.Boundary target := by
    simp [Code.Boundary]
  simp only [begins, Option.mem_def, Prod.forall, Array.mem_toList_iff]
  exact ⟨fun aligned pc instruction listed target => aligned pc instruction target listed,
    fun aligned pc instruction target listed => aligned pc instruction listed target⟩

instance (code : Code) : Decidable code.TargetsAligned :=
  decidable_of_iff _ Code.targetsAligned_iff.symm

/-- A branch of aligned code leads to an instruction that is read, or to the end. -/
theorem Code.TargetsAligned.begins_or_ends {code : Code} (aligned : code.TargetsAligned)
    {pc target : Nat} {instruction : Instruction}
    (listed : (pc, instruction) ∈ code.instructions.instructions.toList)
    (leads : instruction.target? pc = some target) :
    (∃ other, (target, other) ∈ code.instructions.instructions.toList) ∨ target = code.size :=
  (aligned pc instruction target (Array.mem_toList_iff.1 listed) leads).imp_left
    fun ⟨other, begins⟩ => ⟨other, Array.mem_toList_iff.2 begins⟩

/-- A distance is determined by where it leads. -/
theorem branchTarget?_inj {next target : Nat} {delta delta' : Int}
    (leads : branchTarget? next delta = some target)
    (leads' : branchTarget? next delta' = some target) : delta = delta' := by
  unfold branchTarget? at leads leads'
  dsimp only at leads leads'
  split at leads <;> split at leads'
  · have same := Option.some.inj leads
    have same' := Option.some.inj leads'
    omega
  · cases leads'
  · cases leads
  · cases leads

/-- Code that is read to its end consists of the encodings of its instructions. -/
theorem Code.written_of_read {code : Code} (read : code.instructions.error = none) :
    let instructions := code.instructions.instructions.toList.map Prod.snd
    code.size = span instructions ∧ instructions.flatMap Instruction.encode = code.toList := by
  obtain ⟨_, _, written, whole, _⟩ := code.instructions_walk.written (Nat.zero_le _)
  have stop := whole.1 read
  rw [Nat.zero_add] at stop
  refine ⟨stop.symm, ?_⟩
  rw [written, Nat.zero_add, stop, Array.extract_size]

/-- Whether an instruction branches is known from the shape of its operands. -/
theorem Instruction.isSome_delta? (instruction : Instruction) : instruction.delta?.isSome =
    (instruction.opcode.shape == .delta8 || instruction.opcode.shape == .delta32) := by
  cases instruction <;> rfl

namespace Listing

variable {ν : Type} {labels labels' : List Nat} {pc : Nat} {instruction instruction' : Instruction}

/-! ## Operands -/

theorem toString_byte_inj {first second : UInt8} : toString first = toString second ↔
    first = second :=
  Nat.repr_inj.trans UInt8.toNat_inj

/-- The operands of a call are told apart by the comma between them. -/
theorem callText_inj {argc argc' : UInt8} {comma callee callee' : String}
    (mark : comma.toList.head? = some ',')
    (same : " " ++ toString argc ++ comma ++ callee = " " ++ toString argc' ++ comma ++ callee') :
    argc = argc' ∧ callee = callee' := by
  have free (argc : UInt8) : ',' ∉ (" " ++ toString argc).toList :=
    notMem_append (by decide) (notMem_repr rfl argc.toNat)
  have marked (callee : String) : ∀ first ∈ (comma ++ callee).toList.head?, first = ',' := by
    rw [String.toList_append, List.head?_append, mark]
    simp
  have split (argc : UInt8) (callee : String) : (" " ++ toString argc ++ comma ++ callee).toList =
      (" " ++ toString argc).toList ++ (comma ++ callee).toList := by
    rw [String.append_assoc, String.toList_append]
  have texts := congrArg String.toList same
  rw [split, split] at texts
  obtain ⟨count, rest⟩ := append_inj_of_mark (free argc) (free argc') (marked _) (marked _) texts
  exact ⟨toString_byte_inj.1 ((String.append_right_inj " ").1 (String.toList_inj.1 count)),
    (String.append_right_inj comma).1 (String.toList_inj.1 rest)⟩

/-- Instructions with the same opcode and the same distance are told apart by the operands they
show. -/
theorem eq_of_operandText (opcode : instruction.opcode = instruction'.opcode)
    (delta : instruction.delta? = instruction'.delta?)
    (operands : operandText labels pc instruction = operandText labels' pc instruction') :
    instruction = instruction' := by
  have index {first second : UInt8} (same : s!" {first}" = s!" {second}") : first = second :=
    toString_byte_inj.1 ((String.append_right_inj " ").1 same)
  have value {first second : Int} (same : s!" {first}" = s!" {second}") : first = second :=
    Int.repr_inj.1 ((String.append_right_inj " ").1 same)
  cases instruction with
  | nop | pop | dup | loopCheck | unary | binary | ret =>
    cases instruction' <;> cases opcode
    rfl
  | globalLoad | globalStore | localLoad | localStore | specialLoad | threadLoad =>
    cases instruction' <;> cases opcode
    rw [index operands]
  | const =>
    cases instruction' <;> cases opcode
    rw [Int32.toInt_inj.1 (value operands)]
  | const8 =>
    cases instruction' <;> cases opcode
    rw [Int8.toInt_inj.1 (value operands)]
  | branch =>
    cases instruction' <;> cases opcode
    rw [Int8.toInt_inj.1 (Option.some.inj delta)]
  | longBranch =>
    cases instruction' <;> cases opcode
    rw [Int32.toInt_inj.1 (Option.some.inj delta)]
  | native =>
    cases instruction' <;> cases opcode
    obtain ⟨rfl, callee⟩ := callText_inj rfl operands
    rw [toString_byte_inj.1 callee]
  | script =>
    cases instruction' <;> cases opcode
    obtain ⟨rfl, callee⟩ := callText_inj rfl operands
    rw [UInt8.toNat_inj.1 (Nat.repr_inj.1 ((String.append_right_inj "f").1 callee))]

/-- Instructions with the same opcode that show the same operands at the same offset have the same
distance, if the targets are labels and no number stands for different targets of the two. -/
theorem delta?_eq_of_operandText (increasing : labels.Pairwise (· < ·))
    (increasing' : labels'.Pairwise (· < ·))
    (labeled : ∀ target, instruction.target? pc = some target → target ∈ labels)
    (labeled' : ∀ target, instruction'.target? pc = some target → target ∈ labels')
    (agree : ∀ number target target' : Nat, instruction.target? pc = some target →
      instruction'.target? pc = some target' → labels[number]? = some target →
      labels'[number]? = some target' → target = target')
    (opcode : instruction.opcode = instruction'.opcode)
    (operands : operandText labels pc instruction = operandText labels' pc instruction') :
    instruction.delta? = instruction'.delta? := by
  have refers (number : Nat) : operandText labels pc instruction = reference number ↔ _ :=
    operandText_eq_reference_iff increasing labeled
  have refers' (number : Nat) : operandText labels' pc instruction' = reference number ↔ _ :=
    operandText_eq_reference_iff increasing' labeled'
  have length : instruction.length = instruction'.length := congrArg Opcode.length opcode
  have both : instruction.delta?.isSome = instruction'.delta?.isSome := by
    rw [instruction.isSome_delta?, instruction'.isSome_delta?, opcode]
  cases branches : instruction.delta? with
  | none =>
    rw [branches] at both
    exact (Option.isNone_iff_eq_none.1 (by simpa using both)).symm
  | some delta =>
    obtain ⟨delta', branches'⟩ : ∃ delta', instruction'.delta? = some delta' := by
      rw [branches] at both
      exact Option.isSome_iff_exists.1 both.symm
    rw [branches', Option.some.injEq]
    cases leads : instruction.target? pc with
    | some target =>
      obtain ⟨number, place⟩ := List.mem_iff_getElem?.1 (labeled target leads)
      have reference := (refers number).2 ⟨target, leads, place⟩
      obtain ⟨target', leads', place'⟩ := (refers' number).1 (operands ▸ reference)
      obtain rfl := agree number target target' leads leads' place place'
      rw [Instruction.target?, branches] at leads
      rw [Instruction.target?, branches', ← length] at leads'
      exact branchTarget?_inj leads leads'
    | none =>
      have nowhere : instruction'.target? pc = none := by
        rw [Option.eq_none_iff_forall_ne_some]
        intro target' leads'
        obtain ⟨number, place'⟩ := List.mem_iff_getElem?.1 (labeled' target' leads')
        have reference := (refers' number).2 ⟨target', leads', place'⟩
        obtain ⟨target, found, _⟩ := (refers number).1 (operands ▸ reference)
        rw [leads] at found
        cases found
      rw [operandText_of_delta branches, operandText_of_delta branches', leads, nowhere] at operands
      exact Numeral.signed_inj.1
        ((String.append_right_inj " <").1 ((String.append_left_inj ">").1 operands))

/-! ## Lines -/

/-- What the lines of an instruction show. -/
structure Shown where
  /-- The number of the label at its offset. -/
  label : Option Nat
  offset : Nat
  opcode : Opcode
  operands : String

/-- What the lines of the instruction at an offset show. -/
def shown (labels : List Nat) (entry : Nat × Instruction) : Shown where
  label := labels.idxOf? entry.1
  offset := entry.1
  opcode := entry.2.opcode
  operands := operandText labels entry.1 entry.2

/-- The lines that begin with those of an instruction determine what the instruction shows. -/
theorem entryLines_append_inj {entry entry' : Nat × Instruction} {rest rest' : List String}
    (same : entryLines labels entry ++ rest = entryLines labels' entry' ++ rest') :
    shown labels entry = shown labels' entry' ∧ rest = rest' := by
  unfold entryLines at same
  unfold shown
  -- If only one of the two has a label, the line of a label stands against that of an instruction.
  cases label : labels.idxOf? entry.1 with
  | none =>
    cases label' : labels'.idxOf? entry'.1 with
    | none =>
      rw [label, label'] at same
      obtain ⟨line, rfl⟩ := List.cons.inj same
      obtain ⟨offset, opcode, operands⟩ := instructionLine_inj.1 line
      rw [operands, offset, opcode]
      exact ⟨rfl, rfl⟩
    | some number' =>
      rw [label, label'] at same
      exact absurd (List.cons.inj same).1.symm (labelLine_ne_instructionLine number')
  | some number =>
    cases label' : labels'.idxOf? entry'.1 with
    | none =>
      rw [label, label'] at same
      exact absurd (List.cons.inj same).1 (labelLine_ne_instructionLine number)
    | some number' =>
      rw [label, label'] at same
      obtain ⟨first, same⟩ := List.cons.inj same
      obtain ⟨line, rfl⟩ := List.cons.inj same
      obtain ⟨offset, opcode, operands⟩ := instructionLine_inj.1 line
      rw [operands, offset, opcode, labelLine_inj.1 first]
      exact ⟨rfl, rfl⟩

/-- Instructions with the same lines show the same. -/
theorem shown_eq_of_lines {entries entries' : List (Nat × Instruction)}
    (same : entries.flatMap (entryLines labels) = entries'.flatMap (entryLines labels')) :
    entries.map (shown labels) = entries'.map (shown labels') := by
  have filled (labels : List Nat) (entry : Nat × Instruction) (rest : List String) :
      entryLines labels entry ++ rest ≠ [] := by
    simp [entryLines]
  induction entries generalizing entries' with
  | nil =>
    cases entries' with
    | nil => rfl
    | cons entry' rest' => exact absurd same.symm (filled _ _ _)
  | cons entry rest ih =>
    cases entries' with
    | nil => exact absurd same (filled _ _ _)
    | cons entry' rest' =>
      rw [List.flatMap_cons, List.flatMap_cons] at same
      obtain ⟨first, others⟩ := entryLines_append_inj same
      rw [List.map_cons, List.map_cons, first, ih others]

/-- The first line of a listing behind the quote that opens the name. -/
def title (function : Function ν) : String :=
  function.name ++ "\": returns=" ++ function.returnType.text
    ++ s!" params={function.params} locals={function.locals} stack={function.stackSlots}\n"

/-- The first line shows the identifier, and nothing before the name but that. -/
theorem exists_header (function : Function ν) (id : Option FunctionId) : ∃ begin : String,
    '"' ∉ begin.toList ∧ (ofFunction function id).header = begin ++ ("\"" ++ title function) := by
  cases id with
  | none =>
    refine ⟨"func ", by decide, ?_⟩
    simp only [header, ofFunction, title, String.append_assoc, String.empty_append]
  | some id =>
    refine ⟨"func " ++ (id.text ++ " "), ?_, ?_⟩
    · exact notMem_append (by decide) (notMem_append (notMem_append (by decide)
        (notMem_repr rfl _)) (by decide))
    · simp only [header, ofFunction, title, String.append_assoc]

/-- Functions whose first lines differ at most in the identifier have the same lines if they have
the same listing. -/
theorem lines_eq_of_text_eq {first second : Function ν} {id id' : Option FunctionId}
    (titles : title first = title second)
    (same : (ofFunction first id).text = (ofFunction second id').text) :
    (ofFunction first id).lines = (ofFunction second id').lines := by
  obtain ⟨begin, free, header⟩ := exists_header first id
  obtain ⟨begin', free', header'⟩ := exists_header second id'
  rw [text_eq, text_eq, header, header', titles] at same
  have texts := congrArg String.toList same
  simp only [String.toList_append, List.append_assoc] at texts
  obtain ⟨_, rest⟩ := append_inj_of_mark free free' (by simp) (by simp) texts
  have body := String.toList_inj.1 (List.append_cancel_left (List.append_cancel_left rest))
  exact lines_inj (lineBreak_notMem_lines _) (lineBreak_notMem_lines _) body

/-! ## Code -/

variable {entries entries' : List (Nat × Instruction)}

/-- The offset of an instruction has the same number in both tables if the instructions show the
same. -/
theorem idxOf?_eq_of_shown_eq (same : entries.map (shown labels) = entries'.map (shown labels'))
    (listed : (pc, instruction) ∈ entries) : labels.idxOf? pc = labels'.idxOf? pc := by
  have shows := List.mem_map_of_mem (f := shown labels) listed
  rw [same] at shows
  obtain ⟨entry, _, shows⟩ := List.mem_map.1 shows
  have offset : entry.1 = pc := congrArg Shown.offset shows
  have number : labels'.idxOf? entry.1 = labels.idxOf? pc := congrArg Shown.label shows
  rw [← number, offset]

/-- Instructions that show the same take up the same number of bytes. -/
theorem span_eq_of_shown_eq (same : entries.map (shown labels) = entries'.map (shown labels')) :
    Code.span (entries.map Prod.snd) = Code.span (entries'.map Prod.snd) := by
  have opcodes (labels : List Nat) (entries : List (Nat × Instruction)) :
      Code.span (entries.map Prod.snd) =
        ((entries.map (shown labels)).map fun shown => shown.opcode.length).sum := by
    rw [Code.span, List.map_map, List.map_map]
    simp only [Function.comp_def, Instruction.length_encode]
    rfl
  rw [opcodes labels, opcodes labels', same]

/-- Instructions that show the same are the same, if both tables are in order and hold every target,
and every target is the offset of an instruction or the end, which both have in common. -/
theorem entries_eq_of_shown_eq {stop : Nat} (increasing : labels.Pairwise (· < ·))
    (increasing' : labels'.Pairwise (· < ·))
    (labeled : ∀ pc instruction target, (pc, instruction) ∈ entries →
      instruction.target? pc = some target → target ∈ labels)
    (labeled' : ∀ pc instruction target, (pc, instruction) ∈ entries' →
      instruction.target? pc = some target → target ∈ labels')
    (aligned : ∀ pc instruction target, (pc, instruction) ∈ entries →
      instruction.target? pc = some target → (∃ other, (target, other) ∈ entries) ∨ target = stop)
    (aligned' : ∀ pc instruction target, (pc, instruction) ∈ entries' →
      instruction.target? pc = some target → (∃ other, (target, other) ∈ entries') ∨ target = stop)
    (same : entries.map (shown labels) = entries'.map (shown labels')) : entries = entries' := by
  refine List.ext_getElem? fun index => ?_
  have shows := congrArg (·[index]?) same
  simp only [List.getElem?_map] at shows
  cases found : entries[index]? with
  | none =>
    rw [found] at shows
    exact (Option.map_eq_none_iff.1 shows.symm).symm
  | some entry =>
    rw [found] at shows
    obtain ⟨entry', found', shows⟩ := Option.map_eq_some_iff.1 shows.symm
    obtain ⟨pc, instruction⟩ := entry
    obtain ⟨pc', instruction'⟩ := entry'
    obtain rfl : pc' = pc := congrArg Shown.offset shows
    have opcode : instruction.opcode = instruction'.opcode := congrArg Shown.opcode shows.symm
    have operands : operandText labels pc' instruction = operandText labels' pc' instruction' :=
      congrArg Shown.operands shows.symm
    have listed := List.mem_of_getElem? found
    have listed' := List.mem_of_getElem? found'
    have agree (number target target' : Nat) (leads : instruction.target? pc' = some target)
        (leads' : instruction'.target? pc' = some target') (place : labels[number]? = some target)
        (place' : labels'[number]? = some target') : target = target' := by
      rw [← idxOf?_eq_some_iff_of_increasing increasing] at place
      rw [← idxOf?_eq_some_iff_of_increasing increasing'] at place'
      rcases aligned _ _ _ listed leads with ⟨other, begins⟩ | ends
      · rw [idxOf?_eq_of_shown_eq same begins,
          idxOf?_eq_some_iff_of_increasing increasing'] at place
        rw [idxOf?_eq_some_iff_of_increasing increasing', place] at place'
        exact Option.some.inj place'
      · rcases aligned' _ _ _ listed' leads' with ⟨other, begins⟩ | ends'
        · rw [idxOf?_eq_of_shown_eq same.symm begins,
            idxOf?_eq_some_iff_of_increasing increasing] at place'
          rw [idxOf?_eq_some_iff_of_increasing increasing, place'] at place
          exact (Option.some.inj place).symm
        · rw [ends, ends']
    have delta := delta?_eq_of_operandText increasing increasing'
      (fun target => labeled _ _ target listed) (fun target => labeled' _ _ target listed') agree
      opcode operands
    rw [found', eq_of_operandText opcode delta operands]

/-- Two functions that agree in name, return type and slots and have the same listing have the same
code, if the code of both can be read to its end and every branch leads to an instruction or to the
end of the code. -/
theorem code_eq_of_text_eq {first second : Function ν} {id id' : Option FunctionId}
    (name : first.name = second.name) (returns : first.returnType = second.returnType)
    (params : first.params = second.params) (locals : first.locals = second.locals)
    (slots : first.stackSlots = second.stackSlots)
    (read : first.code.instructions.error = none) (read' : second.code.instructions.error = none)
    (aligned : first.code.TargetsAligned) (aligned' : second.code.TargetsAligned)
    (same : (ofFunction first id).text = (ofFunction second id').text) :
    first.code = second.code := by
  have titles : title first = title second := by
    rw [title, title, name, returns, params, locals, slots]
  have lines := lines_eq_of_text_eq titles same
  obtain ⟨increasing, members⟩ := (ofFunction first id).labels_spec
  obtain ⟨increasing', members'⟩ := (ofFunction second id').labels_spec
  obtain ⟨size, bytes⟩ := Code.written_of_read read
  obtain ⟨size', bytes'⟩ := Code.written_of_read read'
  have shows :
      first.code.instructions.instructions.toList.map (shown (ofFunction first id).labels) =
        second.code.instructions.instructions.toList.map
          (shown (ofFunction second id').labels) := by
    apply shown_eq_of_lines
    simpa only [Listing.lines, ofFunction, read, read', Option.map_none, Option.toList_none,
      List.append_nil] using lines
  have stops : first.code.size = second.code.size := by
    rw [size, size', span_eq_of_shown_eq shows]
  have entries : first.code.instructions.instructions.toList =
      second.code.instructions.instructions.toList := by
    refine entries_eq_of_shown_eq increasing increasing' ?_ ?_
      (fun _ _ _ listed leads => aligned.begins_or_ends listed leads) ?_ shows
    · exact fun pc instruction target listed leads =>
        (members target).2 (.inr ⟨pc, instruction, listed, leads⟩)
    · exact fun pc instruction target listed leads =>
        (members' target).2 (.inr ⟨pc, instruction, listed, leads⟩)
    · rw [stops]
      exact fun _ _ _ listed leads => aligned'.begins_or_ends listed leads
  rw [← Array.toList_inj, ← bytes, ← bytes', entries]

/-- A listing does not show the attributes of a function, but it shows the code of its loop. -/
theorem code_eq_of_text_eq_countdown :
    let waiting : Function Unit := { countdown with flags := .async }
    countdown.code.instructions.error = none ∧ countdown.code.TargetsAligned ∧
      (ofFunction countdown none).text = (ofFunction waiting none).text ∧
      countdown.code = waiting.code := by
  intro waiting
  have read : countdown.code.instructions.error = none := by decide +kernel
  have aligned : countdown.code.TargetsAligned := by decide +kernel
  have same : (ofFunction countdown none).text = (ofFunction waiting none).text := rfl
  exact ⟨read, aligned, same,
    code_eq_of_text_eq rfl rfl rfl rfl rfl read read aligned aligned same⟩

end Listing

end ScriptMachine

import ScriptMachine.Proofs.Decoding
import ScriptMachine.Proofs.ListingLines

/-!
# Labels of listings

The labels of a listing are the entry point and the offsets to which branches lead, each of them
once and in increasing order. They need not lie inside the code: a branch may lead beyond it, and
its target is a label as well. A branch that leads anywhere refers to its target by the number of
the label. The line that defines a label stands once, right before the instruction at its offset, if
an instruction begins there, and nowhere otherwise.
-/

namespace ScriptMachine

/-- Dropping repetitions from a sorted sequence keeps its members, in strictly increasing order. -/
theorem eraseReps_loop (first : Nat) (rest kept : List Nat) :
    ∃ others, List.eraseRepsBy.loop (· == ·) first rest kept = kept.reverse ++ first :: others ∧
      (∀ n, n ∈ first :: others ↔ n ∈ first :: rest) ∧
      ((first :: rest).Pairwise (· ≤ ·) → (first :: others).Pairwise (· < ·)) := by
  induction rest generalizing first kept with
  | nil => exact ⟨[], by simp [List.eraseRepsBy.loop], by simp, by simp⟩
  | cons second rest ih =>
    rw [List.eraseRepsBy.loop]
    by_cases same : first = second
    · subst same
      obtain ⟨others, erased, members, increasing⟩ := ih first kept
      refine ⟨others, by simpa using erased, fun n => by simp [members n], fun sorted => ?_⟩
      exact increasing (List.pairwise_cons.1 sorted).2
    · obtain ⟨others, erased, members, increasing⟩ := ih second (first :: kept)
      refine ⟨second :: others, ?_, fun n => ?_, fun sorted => ?_⟩
      · rw [beq_false_of_ne same]
        simpa using erased
      · rw [List.mem_cons, members n, ← List.mem_cons]
      obtain ⟨least, sorted⟩ := List.pairwise_cons.1 sorted
      refine List.pairwise_cons.2 ⟨fun n inside => ?_, increasing sorted⟩
      have before := List.pairwise_cons.1 sorted
      have above := least second List.mem_cons_self
      rcases List.mem_cons.1 ((members n).1 inside) with rfl | later
      · omega
      · have beyond := before.1 n later
        omega

/-- Instructions of a walk begin at increasing offsets. -/
theorem Code.Walk.increasing {code : Code} {start : Nat} {read : List (Nat × Instruction)}
    {error : Option DecodeError} (walk : code.Walk start read error) :
    read.Pairwise fun first second => first.1 < second.1 := by
  induction walk with
  | ended outside => exact .nil
  | stuck inside failed => exact .nil
  | read inside decoded walk ih =>
    refine List.pairwise_cons.2 ⟨fun ⟨other, second⟩ later => ?_, ih⟩
    have beyond := walk.start_le later
    have next := Instruction.next_of_decode decoded
    omega

namespace Listing

variable {ν : Type} {listing : Listing ν} {labels : List Nat} {number offset target pc : Nat}
  {instruction : Instruction}

/-- A branch of the listing leads to an offset. -/
def LeadsTo (listing : Listing ν) (offset : Nat) : Prop :=
  ∃ pc instruction, (pc, instruction) ∈ listing.instructions ∧ instruction.target? pc = some offset

/-! ## The labels -/

/-- The labels are computed from the targets of the branches. -/
theorem labels_of_targets {targets : List Nat}
    (found : listing.instructions.filterMap (fun entry => entry.2.target? entry.1) = targets) :
    listing.labels = (0 :: targets).mergeSort.eraseReps := by
  rw [labels, ← found]

theorem labels_spec (listing : Listing ν) :
    listing.labels.Pairwise (· < ·) ∧
      ∀ offset, offset ∈ listing.labels ↔ offset = 0 ∨ listing.LeadsTo offset := by
  have sorted (offsets : List Nat) : offsets.mergeSort.Pairwise (· ≤ ·) := by
    simpa using List.pairwise_mergeSort' (· ≤ ·) offsets
  generalize targeted : listing.instructions.filterMap (fun entry => entry.2.target? entry.1) =
    targets
  rw [labels_of_targets targeted]
  have members : ∀ offset,
      offset ∈ (0 :: targets).mergeSort ↔ offset = 0 ∨ listing.LeadsTo offset := by
    intro offset
    rw [List.mem_mergeSort, List.mem_cons, ← targeted, List.mem_filterMap]
    simp only [Prod.exists, LeadsTo]
  have increasing := sorted (0 :: targets)
  generalize (0 :: targets).mergeSort = offsets at members increasing
  cases offsets with
  | nil => exact absurd ((members 0).2 (.inl rfl)) List.not_mem_nil
  | cons first rest =>
    obtain ⟨others, erased, kept, strict⟩ := eraseReps_loop first rest []
    rw [List.eraseReps, List.eraseRepsBy, erased]
    exact ⟨strict increasing, fun offset => (kept offset).trans (members offset)⟩

/-- The number of a label is its place. -/
theorem idxOf?_eq_some_iff_of_increasing (increasing : labels.Pairwise (· < ·)) :
    labels.idxOf? offset = some number ↔ labels[number]? = some offset := by
  rw [List.idxOf?_eq_some_iff, List.getElem?_eq_some_iff]
  refine ⟨fun ⟨inside, found, _⟩ => ⟨inside, found⟩, fun ⟨inside, found⟩ => ⟨inside, found, ?_⟩⟩
  intro earlier before same
  have less := List.pairwise_iff_getElem.1 increasing earlier number (by omega) inside before
  omega

/-- A label has a number. -/
theorem exists_idxOf? (labeled : offset ∈ labels) :
    ∃ number, labels.idxOf? offset = some number := by
  cases found : labels.idxOf? offset with
  | none => exact absurd labeled (List.idxOf?_eq_none_iff.1 found)
  | some number => exact ⟨number, rfl⟩

/-- The operand that refers to a label. -/
def reference (number : Nat) : String := s!" @L{number}"

theorem reference_inj {number number' : Nat} : reference number = reference number' ↔
    number = number' :=
  (String.append_right_inj " @L").trans Nat.repr_inj

/-- A branch refers to its target by the number of the label, and nothing else is such a
reference. -/
theorem operandText_eq_reference_iff (increasing : labels.Pairwise (· < ·))
    (labeled : ∀ target, instruction.target? pc = some target → target ∈ labels) :
    operandText labels pc instruction = reference number ↔
      ∃ target, instruction.target? pc = some target ∧ labels[number]? = some target := by
  have at_sign : '@' ∈ (reference number).toList := by
    simp [reference, toString]
  cases branches : instruction.delta? with
  | none =>
    refine iff_of_false (fun same => ?_) ?_
    · exact notMem_operandText rfl (by decide) branches (same ▸ at_sign)
    · rintro ⟨target, leads, _⟩
      rw [Instruction.target?, branches] at leads
      cases leads
  | some delta =>
    rw [operandText_of_delta branches]
    cases leads : instruction.target? pc with
    | none =>
      refine iff_of_false (fun same => ?_) (by simp)
      have second := congrArg (fun text => text.toList[1]?) same
      simp [reference, toString] at second
    | some target =>
      obtain ⟨found, place⟩ := exists_idxOf? (labeled target leads)
      simp only [Option.some.injEq, exists_eq_left']
      rw [← idxOf?_eq_some_iff_of_increasing increasing, targetText, place, Option.some.injEq]
      have blank : " " ++ s!"@L{found}" = reference found := by
        rw [← String.toList_inj]
        simp [reference, toString]
      change " " ++ s!"@L{found}" = reference number ↔ found = number
      rw [blank, reference_inj]

/-! ## Their lines -/

/-- The line that defines a label stands once, right before the line of the instruction at an
offset. -/
def DefinesOnce (listing : Listing ν) (number offset : Nat) : Prop :=
  ∃ before instruction after, (offset, instruction) ∈ listing.instructions ∧
    listing.lines = before ++
      labelLine number :: instructionLine listing.labels offset instruction :: after ∧
    labelLine number ∉ before ∧ labelLine number ∉ after

/-- The lines of an instruction define the label at its offset. -/
theorem labelLine_mem_entryLines {entry : Nat × Instruction} :
    labelLine number ∈ entryLines labels entry ↔ labels.idxOf? entry.1 = some number := by
  unfold entryLines
  rw [List.mem_append, Option.mem_toList, Option.map_eq_some_iff, List.mem_singleton]
  constructor
  · rintro (⟨other, found, same⟩ | same)
    · rw [found, labelLine_inj.1 same]
    · exact absurd same (labelLine_ne_instructionLine number)
  · intro found
    exact .inl ⟨number, found, rfl⟩

/-- A label is defined where an instruction begins at its offset. -/
theorem labelLine_mem_lines : labelLine number ∈ listing.lines ↔
    ∃ entry ∈ listing.instructions, listing.labels.idxOf? entry.1 = some number := by
  unfold lines
  rw [List.mem_append, List.mem_flatMap]
  simp only [labelLine_mem_entryLines]
  refine or_iff_left fun failed => ?_
  obtain ⟨error, _, same⟩ := Option.map_eq_some_iff.1 (Option.mem_toList.1 failed)
  exact labelLine_ne_errorLine number error same.symm

/-- The label of an offset at which an instruction begins is defined once, right before it. -/
theorem definesOnce
    (placed : listing.instructions.Pairwise fun first second => first.1 < second.1)
    (listed : (offset, instruction) ∈ listing.instructions)
    (place : listing.labels[number]? = some offset) : listing.DefinesOnce number offset := by
  have number_iff (other : Nat) : listing.labels.idxOf? other = some number ↔ other = offset := by
    rw [idxOf?_eq_some_iff_of_increasing listing.labels_spec.1, place, Option.some.injEq, eq_comm]
  obtain ⟨earlier, later, split⟩ := List.append_of_mem listed
  rw [split, List.pairwise_append, List.pairwise_cons] at placed
  obtain ⟨_, ⟨below, _⟩, above⟩ := placed
  have elsewhere {entries : List (Nat × Instruction)}
      (apart : ∀ entry ∈ entries, entry.1 ≠ offset) :
      labelLine number ∉ entries.flatMap (entryLines listing.labels) := by
    intro inside
    obtain ⟨entry, listed, inside⟩ := List.mem_flatMap.1 inside
    exact apart entry listed ((number_iff _).1 (labelLine_mem_entryLines.1 inside))
  have own : entryLines listing.labels (offset, instruction) =
      [labelLine number, instructionLine listing.labels offset instruction] := by
    rw [entryLines, (number_iff offset).2 rfl]
    rfl
  refine ⟨earlier.flatMap (entryLines listing.labels), instruction,
    later.flatMap (entryLines listing.labels) ++ (listing.error.map errorLine).toList, listed, ?_,
    elsewhere fun entry before => Nat.ne_of_lt (above entry before _ List.mem_cons_self), ?_⟩
  · rw [lines, split, List.flatMap_append, List.flatMap_cons, own]
    simp
  · rw [List.mem_append, not_or]
    refine ⟨elsewhere fun entry after => Nat.ne_of_gt (below entry after), fun failed => ?_⟩
    obtain ⟨error, _, same⟩ := Option.map_eq_some_iff.1 (Option.mem_toList.1 failed)
    exact labelLine_ne_errorLine number error same.symm

/-! ## Labels and targets -/

/-- The labels are the entry point and the targets of branches that lie inside the code. -/
def LabelsInside (listing : Listing ν) : Prop :=
  ∀ offset, offset ∈ listing.labels ↔
    offset = 0 ∨ listing.LeadsTo offset ∧ offset < listing.function.code.size

/-- The labels lie inside the code exactly if no branch leads beyond it. -/
theorem labelsInside_iff (function : Function ν) (id : Option FunctionId) :
    (ofFunction function id).LabelsInside ↔
      ∀ offset, (ofFunction function id).LeadsTo offset → offset < function.code.size := by
  obtain ⟨_, members⟩ := (ofFunction function id).labels_spec
  constructor
  · intro inside offset leads
    rcases (inside offset).1 ((members offset).2 (.inr leads)) with rfl | ⟨_, below⟩
    · -- the branch itself lies inside the code, so there is an offset inside it
      obtain ⟨pc, instruction, listed, _⟩ := leads
      have listed : (pc, instruction) ∈ function.code.instructions.instructions :=
        Array.mem_toList_iff.1 listed
      exact Nat.lt_of_le_of_lt (Nat.zero_le pc) (Code.Boundary.decode listed).1
    · exact below
  · intro inside offset
    rw [members]
    exact or_congr_right (iff_self_and.2 (inside offset))

/-- The labels of a function are the entry point and the targets of its branches, in strictly
increasing order; they lie inside the code exactly if no branch leads beyond it. Below the header
the listing consists of its lines. Every instruction has its line, which refers to a label exactly
if the instruction is a branch, and then to the label of its target, be it inside the code or not.
The line that defines a label stands once in the listing, right before the instruction that begins
at its offset, or not at all if there is none. -/
theorem labels_name_targets (function : Function ν) (id : Option FunctionId) :
    let listing := ofFunction function id
    listing.labels.Pairwise (· < ·) ∧
      (∀ offset, offset ∈ listing.labels ↔ offset = 0 ∨ listing.LeadsTo offset) ∧
      (listing.LabelsInside ↔ ∀ offset, listing.LeadsTo offset → offset < function.code.size) ∧
      listing.text = listing.header ++ String.join (listing.lines.map (· ++ "\n")) ∧
      (∀ line ∈ listing.lines, '\n' ∉ line.toList) ∧
      (∀ pc instruction, (pc, instruction) ∈ listing.instructions →
        instructionLine listing.labels pc instruction ∈ listing.lines ∧
        ∀ number, operandText listing.labels pc instruction = reference number ↔
          ∃ target, instruction.target? pc = some target ∧
            listing.labels[number]? = some target) ∧
      ∀ number offset, listing.labels[number]? = some offset →
        (function.code.Boundary offset → listing.DefinesOnce number offset) ∧
        (¬function.code.Boundary offset → labelLine number ∉ listing.lines) := by
  intro listing
  obtain ⟨increasing, members⟩ := listing.labels_spec
  refine ⟨increasing, members, labelsInside_iff function id, listing.text_eq,
    listing.lineBreak_notMem_lines, ?_, ?_⟩
  · intro pc instruction listed
    refine ⟨?_, fun number => operandText_eq_reference_iff increasing fun target leads =>
      (members target).2 (.inr ⟨pc, instruction, listed, leads⟩)⟩
    exact List.mem_append_left _ (List.mem_flatMap.2 ⟨(pc, instruction), listed,
      List.mem_append_right _ (List.mem_singleton.2 rfl)⟩)
  · intro number offset place
    refine ⟨fun ⟨instruction, listed⟩ => ?_, fun nowhere defined => ?_⟩
    · exact definesOnce function.code.instructions_walk.increasing
        (Array.mem_toList_iff.2 listed) place
    · obtain ⟨⟨pc, instruction⟩, listed, found⟩ := labelLine_mem_lines.1 defined
      rw [idxOf?_eq_some_iff_of_increasing increasing, place, Option.some.injEq] at found
      subst found
      exact nowhere ⟨instruction, Array.mem_toList_iff.1 listed⟩

/-- A function that counts its argument down. -/
def countdown : Function Unit := .trusted
  { name := "countdown"
    returnType := .void
    code := #[0x26, 0x05, 0, 0x20, 9, 0x05, 0, 0x0A, 1, 0x0C, 0x06, 0, 0x22, 0xF2, 0x2D]
    params := 1
    locals := 1 } 3

/-- The loop of the function leads back to the entry point and out of it to the last instruction,
whose label is defined right before it. -/
theorem labels_name_targets_countdown :
    let listing := ofFunction countdown none
    listing.labels[1]? = some 14 ∧ countdown.code.Boundary 14 ∧ listing.DefinesOnce 1 14 := by
  intro listing
  have targets : listing.instructions.filterMap (fun entry => entry.2.target? entry.1) =
      [14, 0] := by decide +kernel
  have labels : listing.labels = [0, 14] := by
    rw [labels_of_targets targets]
    cbv
  have place : listing.labels[1]? = some 14 := by rw [labels]; rfl
  have boundary : countdown.code.Boundary 14 := by
    refine ⟨.ret .void, ?_⟩
    decide +kernel
  obtain ⟨_, _, _, _, _, _, defined⟩ := labels_name_targets countdown none
  exact ⟨place, boundary, (defined 1 14 place).1 boundary⟩

/-- A function that returns, with a branch behind the return that leads beyond the code. -/
def overshooting : Definition Unit where
  name := "overshooting"
  returnType := .void
  code := #[0x2D, 0x22, 5]

/-- A branch of a verified function leads to an offset beyond the code, which is a label all the
same. The branch refers to it, and it is not defined. -/
theorem label_beyond_code :
    ∃ limits function, Function.verified overshooting limits = .ok function ∧
      let listing := ofFunction function none
      listing.error = none ∧ listing.function.code.size = 3 ∧ listing.labels = [0, 8] ∧
      ¬listing.LabelsInside ∧ (1, .branch .always 5) ∈ listing.instructions ∧
      operandText listing.labels 1 (.branch .always 5) = reference 1 ∧
      labelLine 1 ∉ listing.lines := by
  have verified : Function.verified overshooting {} = .ok (.trusted overshooting 0) := by
    have slots : overshooting.verify {} = .ok 0 := by decide +kernel
    rw [Function.verified, slots]
    rfl
  refine ⟨{}, .trusted overshooting 0, verified, ?_⟩
  intro listing
  have targets : listing.instructions.filterMap (fun entry => entry.2.target? entry.1) =
      [8] := by decide +kernel
  have labels : listing.labels = [0, 8] := by
    rw [labels_of_targets targets]
    cbv
  have beyond : ¬listing.LabelsInside := by
    intro inside
    rcases (inside 8).1 (by rw [labels]; decide) with zero | ⟨_, below⟩
    · cases zero
    · exact absurd below (by decide +kernel)
  refine ⟨by decide +kernel, rfl, labels, beyond, by decide +kernel, ?_, ?_⟩
  · rw [labels]
    decide +kernel
  · rw [lines, labels]
    decide +kernel

end Listing

end ScriptMachine

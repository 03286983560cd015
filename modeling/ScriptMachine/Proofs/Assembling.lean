import ScriptMachine.Proofs.Statements
import ScriptMachine.Proofs.Tables

/-!
# What assembling produces

Writing a distance into bytes that were emitted long before is the same as emitting the branch with
its distance in the first place, because the encodings of a branch with and without its distance
have one length and differ in the operand bytes only. Finished code is therefore the encoding of the
completed instructions. It is read as these instructions, in order, at the offsets reported while
assembling, and each branch leads to the first placement of its label. What cannot be completed is
reported: the first call whose callee does not fit, or else the first branch that misses.
-/

namespace ScriptMachine

/-! ## Distances -/

namespace Statement

/-- The instruction of a statement, with the distance that the labels give a branch. -/
def complete (labels : Array (Option Nat)) : Nat × Statement → Except AssemblyError Instruction
  | (pc, .branch test label) =>
    match labels[label.index]? with
    | some (some target) =>
      if Near pc target then .ok (.branch test (Int8.ofInt ((target : Int) - (pc + 2 : Nat))))
      else .error (.branchOutOfRange pc)
    | _ => .error .unresolvedLabel
  | (pc, .longBranch test label) =>
    match labels[label.index]? with
    | some (some target) => .ok (.longBranch test (Int32.ofInt ((target : Int) - (pc + 5 : Nat))))
    | _ => .error .unresolvedLabel
  | (_, statement) => .ok (statement.placeholder?.getD .nop)

variable {labels : Array (Option Nat)} {statement : Statement} {pc : Nat}
  {instruction : Instruction}

/-- A completed instruction is as long as the bytes of its statement. -/
theorem length_of_complete (appends : 0 < statement.size)
    (completed : complete labels (pc, statement) = .ok instruction) :
    instruction.length = statement.size := by
  cases statement with
  | allocate | place label => exact (Nat.lt_irrefl 0 appends).elim
  | emit | call =>
    cases completed
    rfl
  | branch test label =>
    simp only [complete] at completed
    split at completed
    · split at completed <;> cases completed
      rfl
    · cases completed
  | longBranch test label =>
    simp only [complete] at completed
    split at completed <;> cases completed
    rfl

/-- What refers to no label is complete as it is. -/
theorem complete_of_reference?_eq_none (appends : 0 < statement.size)
    (plain : reference? (pc, statement) = none) :
    ∃ instruction, complete labels (pc, statement) = .ok instruction ∧
      instruction.encode = statement.bytes := by
  cases statement with
  | allocate | place label => exact (Nat.lt_irrefl 0 appends).elim
  | branch | longBranch => cases plain
  | emit | call => exact ⟨_, rfl, rfl⟩

end Statement

namespace Assembler

open Statement

/-- Overwriting as many bytes as there were leaves everything around them alone. -/
theorem overwrite_eq (before after old new : List UInt8) (same : old.length = new.length) :
    overwrite (before ++ (old ++ after)).toArray before.length new =
      (before ++ (new ++ after)).toArray := by
  induction new generalizing before old with
  | nil =>
    obtain rfl := List.eq_nil_of_length_eq_zero same
    rfl
  | cons byte rest ih =>
    obtain _ | ⟨first, others⟩ := old
    · cases same
    have next := ih (before ++ [byte]) others (Nat.succ.inj same)
    simp only [List.append_assoc, List.length_append, List.length_singleton,
      List.cons_append, List.nil_append] at next
    have written : (before ++ (first :: others ++ after)).toArray.set! before.length byte =
        (before ++ byte :: (others ++ after)).toArray := by
      simp [Array.setIfInBounds]
    rw [overwrite, written, next, List.cons_append]

/-- Writing the distance of a branch makes its bytes the encoding of the branch with its
distance. -/
theorem resolve_eq (labels : Array (Option Nat)) (before after : List UInt8)
    {statement : Statement} {reference : Reference}
    (refers : reference? (before.length, statement) = some reference) :
    resolve labels (before ++ (statement.bytes ++ after)).toArray reference =
      (complete labels (before.length, statement)).map fun instruction =>
        (before ++ (instruction.encode ++ after)).toArray := by
  -- Past the opcode, which stays, the operand bytes are overwritten.
  have written : ∀ (opcode : UInt8) (old new : List UInt8), old.length = new.length →
      overwrite (before ++ (opcode :: old ++ after)).toArray (before.length + 1) new =
        (before ++ (opcode :: new ++ after)).toArray := by
    intro opcode old new same
    have past := overwrite_eq (before ++ [opcode]) after old new same
    simpa using past
  cases statement with
  | allocate | place | emit | call => cases refers
  | branch test label =>
    cases refers
    have zero : (branch test label).bytes = (Opcode.branch test).byte :: [0] := rfl
    rcases held : labels[label.index]? with _ | _ | target
    · simp only [resolve, complete, held, Except.map]
    · simp only [resolve, complete, held, Except.map]
    · simp only [resolve, complete, held, ← Near.eq_def]
      split
      · rw [zero, written _ [0] [(Int8.ofInt ((target : Int) - (before.length + 2 : Nat))).toUInt8]
          rfl]
        rfl
      · rfl
  | longBranch test label =>
    cases refers
    have zero : (longBranch test label).bytes =
        (Opcode.longBranch test).byte :: [0, 0, 0, 0] :=
      congrArg ((Opcode.longBranch test).byte :: ·) (by decide : wordBytes 0 = [0, 0, 0, 0])
    rcases held : labels[label.index]? with _ | _ | target
    · simp only [resolve, complete, held, Except.map]
    · simp only [resolve, complete, held, Except.map]
    · simp only [resolve, complete, held]
      rw [zero, written _ [0, 0, 0, 0]
        (wordBytes (Int32.ofInt ((target : Int) - (before.length + 5 : Nat)))) rfl]
      rfl

/-- Writing all distances gives the encodings of the completed instructions. -/
theorem resolve_all (labels : Array (Option Nat)) (before : List UInt8)
    (statements : List Statement) :
    ((emissions before.length statements).filterMap reference?).foldlM (resolve labels)
        (before ++ statements.flatMap bytes).toArray =
      ((emissions before.length statements).mapM (complete labels)).map fun instructions =>
        (before ++ instructions.flatMap Instruction.encode).toArray := by
  induction statements generalizing before with
  | nil => rfl
  | cons statement rest ih =>
    rw [emissions, List.flatMap_cons]
    split
    · rename_i appends
      rw [List.mapM_cons, List.filterMap_cons]
      -- Once the first instruction is complete, its encoding joins what stands before the rest.
      have go : ∀ instruction, complete labels (before.length, statement) = .ok instruction →
          ((emissions (before.length + statement.size) rest).filterMap reference?).foldlM
              (resolve labels)
              (before ++ (instruction.encode ++ rest.flatMap bytes)).toArray =
            ((emissions (before.length + statement.size) rest).mapM (complete labels)).map
              fun instructions =>
                (before ++ (instruction :: instructions).flatMap Instruction.encode).toArray := by
        intro instruction completed
        have step := ih (before ++ instruction.encode)
        rw [List.length_append, instruction.length_encode,
          length_of_complete appends completed] at step
        simpa only [List.append_assoc, List.flatMap_cons] using step
      cases refers : reference? (before.length, statement) with
      | none =>
        obtain ⟨instruction, completed, encoded⟩ :=
          @complete_of_reference?_eq_none labels _ _ appends refers
        rw [← encoded]
        simp only [go instruction completed, completed]
        cases (emissions (before.length + statement.size) rest).mapM (complete labels) <;> rfl
      | some reference =>
        simp only [List.foldlM_cons, resolve_eq labels before _ refers]
        cases completed : complete labels (before.length, statement) with
        | error error => rfl
        | ok instruction =>
          refine (go instruction completed).trans ?_
          cases (emissions (before.length + statement.size) rest).mapM (complete labels) <;> rfl
    · rename_i silent
      have nothing : statement.bytes = [] :=
        List.eq_nil_of_length_eq_zero (statement.length_bytes.trans (Nat.eq_zero_of_not_pos silent))
      rw [nothing, List.nil_append, ih]

/-- Finishing reports the first oversized call, or else the first branch that cannot be completed,
or else encodes the completed instructions. -/
theorem finish_applyAll (statements : List Statement) :
    (({} : Assembler).applyAll statements).finish =
      match (emissions 0 statements).findSome? oversized? with
      | some pc => .error (.functionOutOfRange pc)
      | none => ((emissions 0 statements).mapM
          (complete (({} : Assembler).applyAll statements).labels)).map fun instructions =>
            (instructions.flatMap Instruction.encode).toArray := by
  have oversized := oversizedCall_applyAll {} statements
  have references := references_applyAll {} statements
  have code := code_applyAll {} statements
  generalize ({} : Assembler).applyAll statements = assembler at *
  have bytes : assembler.code = ([] ++ statements.flatMap bytes).toArray :=
    Array.toList_inj.1 (code.trans rfl)
  have whole := resolve_all assembler.labels [] statements
  unfold finish
  rw [oversized]
  change (match (emissions 0 statements).findSome? oversized? with
    | some pc => _
    | none => _) = _
  split
  · rfl
  · rw [bytes, ← Array.foldlM_toList, references]
    exact whole

end Assembler

/-! ## Verdicts -/

namespace Statement

variable {statements : List Statement} {labels : Array (Option Nat)} {entry : Nat × Statement}

/-- The error of an oversized call. -/
theorem oversized_iff {error : AssemblyError} :
    Oversized entry error ↔ ∃ pc, oversized? entry = some pc ∧ error = .functionOutOfRange pc := by
  constructor
  · rintro ⟨_, _, large⟩
    exact ⟨_, if_neg (Nat.not_lt.2 large), rfl⟩
  · rintro ⟨pc, found, rfl⟩
    obtain ⟨start, statement⟩ := entry
    cases statement with
    | call result argc callee =>
      simp only [oversized?] at found
      split at found <;> cases found
      rename_i large
      exact .call result argc (Nat.not_lt.1 large)
    | _ => cases found

/-- What is not an oversized call. -/
theorem oversized?_eq_none_iff : oversized? entry = none ↔ ∀ error, ¬ Oversized entry error := by
  rw [Option.eq_none_iff_forall_ne_some]
  constructor
  · intro none error large
    obtain ⟨pc, found, _⟩ := oversized_iff.1 large
    exact none pc found
  · intro none pc found
    exact none _ (oversized_iff.2 ⟨pc, found, rfl⟩)

/-- A statement fails to be completed exactly if its branch misses. -/
theorem complete_eq_error {error : AssemblyError}
    (placed : ∀ (label : Label) (target : Nat),
      labels[label.index]? = some (some target) ↔ PlacedFirst statements label target) :
    complete labels entry = .error error ↔ Misses statements entry error := by
  obtain ⟨pc, statement⟩ := entry
  have unplaced : ∀ label : Label, (∀ target, labels[label.index]? ≠ some (some target)) ↔
      ∀ target, ¬ PlacedFirst statements label target :=
    fun label => forall_congr' fun target => not_congr (placed label target)
  cases statement with
  | branch test label =>
    simp only [complete]
    split
    · rename_i target held
      have first := (placed label target).1 held
      by_cases near : Near pc target
      · rw [if_pos near]
        refine ⟨fun failed => (by cases failed), fun misses => ?_⟩
        cases misses with
        | branch _ nowhere => exact (nowhere target first).elim
        | far _ second far =>
          rw [second.unique first] at far
          exact (far near).elim
      · rw [if_neg near]
        constructor
        · intro failed
          cases failed
          exact .far test first near
        · intro misses
          cases misses with
          | branch _ nowhere => exact (nowhere target first).elim
          | far => rfl
    · rename_i nowhere
      have nowhere := (unplaced label).1 nowhere
      constructor
      · intro failed
        cases failed
        exact .branch test nowhere
      · intro misses
        cases misses with
        | branch => rfl
        | far _ first => exact (nowhere _ first).elim
  | longBranch test label =>
    simp only [complete]
    split
    · rename_i target held
      refine ⟨fun failed => (by cases failed), fun misses => ?_⟩
      cases misses with
      | longBranch _ nowhere => exact (nowhere target ((placed label target).1 held)).elim
    · rename_i nowhere
      have nowhere := (unplaced label).1 nowhere
      constructor
      · intro failed
        cases failed
        exact .longBranch test nowhere
      · intro misses
        cases misses
        rfl
  | _ => exact ⟨fun failed => (by cases failed), fun misses => by cases misses⟩

/-- The first oversized call is the one that is remembered. -/
theorem firstFailure_oversized_iff {entries : List (Nat × Statement)} {error : AssemblyError} :
    FirstFailure Oversized entries error ↔
      ∃ pc, entries.findSome? oversized? = some pc ∧ error = .functionOutOfRange pc := by
  simp only [List.findSome?_eq_some_iff]
  constructor
  · rintro ⟨earlier, entry, later, split, large, small⟩
    obtain ⟨pc, found, rfl⟩ := oversized_iff.1 large
    exact ⟨pc, ⟨earlier, entry, later, split, found,
      fun passed listed => oversized?_eq_none_iff.2 (small passed listed)⟩, rfl⟩
  · rintro ⟨pc, ⟨earlier, entry, later, split, found, small⟩, rfl⟩
    exact ⟨earlier, entry, later, split, oversized_iff.2 ⟨pc, found, rfl⟩,
      fun passed listed => oversized?_eq_none_iff.1 (small passed listed)⟩

/-- Completing every statement fails with the error of the first branch that misses. -/
theorem firstFailure_misses_iff {entries : List (Nat × Statement)} {error : AssemblyError}
    (placed : ∀ (label : Label) (target : Nat),
      labels[label.index]? = some (some target) ↔ PlacedFirst statements label target) :
    FirstFailure (Misses statements) entries error ↔
      entries.mapM (complete labels) = .error error := by
  have passes : ∀ passed, (∃ instruction, complete labels passed = .ok instruction) ↔
      ∀ other, ¬ Misses statements passed other := by
    intro passed
    simp only [← complete_eq_error placed]
    cases complete labels passed <;> simp
  simp only [FirstFailure, mapM_eq_error, passes, complete_eq_error placed]

/-- A statement can be completed exactly if it is no oversized call and its branch does not
miss. -/
theorem completes_iff : Completes statements entry ↔
    (∀ error, ¬ Oversized entry error) ∧ ∀ error, ¬ Misses statements entry error := by
  obtain ⟨pc, statement⟩ := entry
  cases statement with
  | branch test label =>
    constructor
    · rintro ⟨target, first, near⟩
      refine ⟨fun error large => (by cases large), fun error misses => ?_⟩
      cases misses with
      | branch _ nowhere => exact nowhere target first
      | far _ second far => exact far (second.unique first ▸ near)
    · rintro ⟨_, hits⟩
      by_contra incomplete
      by_cases nowhere : ∀ target, ¬ PlacedFirst statements label target
      · exact hits _ (.branch test nowhere)
      · obtain ⟨target, first⟩ := not_forall_not.1 nowhere
        exact hits _ (.far test first fun near => incomplete ⟨target, first, near⟩)
  | longBranch test label =>
    constructor
    · rintro ⟨target, first⟩
      refine ⟨fun error large => (by cases large), fun error misses => ?_⟩
      cases misses with
      | longBranch _ nowhere => exact nowhere target first
    · rintro ⟨_, hits⟩
      by_contra incomplete
      exact hits _ (.longBranch test fun target first => incomplete ⟨target, first⟩)
  | call result argc callee =>
    constructor
    · intro fits
      refine ⟨fun error large => ?_, fun error misses => by cases misses⟩
      cases large with
      | call _ _ large => exact Nat.not_lt.2 large fits
    · rintro ⟨small, _⟩
      exact Nat.not_le.1 fun large => small _ (.call result argc large)
  | _ =>
    exact ⟨fun _ => ⟨fun error large => (by cases large), fun error misses => by cases misses⟩,
      fun _ => trivial⟩

/-- A branch by the distance between its end and its target leads to the target. -/
theorem branchTarget?_distance {next target : Nat} (near : next < 2 ^ 32)
    (inside : target < 2 ^ 32) :
    branchTarget? next ((target : Int) - (next : Nat)) = some target := by
  have room : 2 ^ 32 < offsetLimit := by decide
  have sum : (next : Int) + (target - next) = target := by omega
  simp only [branchTarget?, sum]
  rw [if_pos ⟨by omega, by omega, by omega⟩]
  rfl

/-- A completed instruction is what its statement asks for, in code that is not too long. -/
theorem realizes_of_complete {instruction : Instruction} (short : sizes statements < 2 ^ 31)
    (placed : ∀ (label : Label) (target : Nat),
      labels[label.index]? = some (some target) ↔ PlacedFirst statements label target)
    (listed : entry ∈ emissions 0 statements) (small : oversized? entry = none)
    (completed : complete labels entry = .ok instruction) :
    Realizes statements entry (entry.1, instruction) := by
  obtain ⟨appends, inside⟩ := room_of_mem_emissions listed
  obtain ⟨pc, statement⟩ := entry
  cases statement with
  | allocate | place label => exact (Nat.lt_irrefl 0 appends).elim
  | emit emitted =>
    cases completed
    exact .emit pc emitted
  | call result argc callee =>
    simp only [oversized?] at small
    split at small
    · rename_i fits
      obtain rfl : Instruction.script result argc (UInt8.ofNat callee.index) = instruction := by
        simpa [complete, placeholder?, fits] using completed
      have made := @Realizes.call statements pc result argc
        (UInt8.ofNat callee.index)
      rwa [UInt8.toNat_ofNat_of_lt' fits] at made
    · cases small
  | branch test label =>
    simp only [complete] at completed
    split at completed
    · rename_i target held
      split at completed <;> cases completed
      rename_i near
      have first := (placed label target).1 held
      have below := first.1.le
      refine .branch test first ?_
      rw [Int8.toInt_ofInt_of_le near.1 near.2]
      simp only [size] at inside
      exact branchTarget?_distance (by omega) (by omega)
    · cases completed
  | longBranch test label =>
    simp only [complete] at completed
    split at completed
    · rename_i target held
      cases completed
      have first := (placed label target).1 held
      have below := first.1.le
      simp only [size] at inside
      refine .longBranch test first ?_
      rw [Int32.toInt_ofInt_of_le (by omega) (by omega)]
      exact branchTarget?_distance (by omega) (by omega)
    · cases completed

/-- Where all statements have been completed, each one has. -/
theorem exists_complete_of_mem {entries : List (Nat × Statement)} {instructions : List Instruction}
    (completed : List.Forall₂ (fun entry instruction => complete labels entry = .ok instruction)
      entries instructions) (listed : entry ∈ entries) :
    ∃ instruction, complete labels entry = .ok instruction := by
  induction completed with
  | nil => cases listed
  | cons first _ ih =>
    rcases List.mem_cons.1 listed with rfl | later
    · exact ⟨_, first⟩
    · exact ih later

/-- Completed instructions stand at the offsets of their statements. -/
theorem forall₂_located {instructions : List Instruction} {start : Nat}
    {Fulfils : Nat × Statement → Nat × Instruction → Prop}
    (completed : List.Forall₂ (fun entry instruction => complete labels entry = .ok instruction)
      (emissions start statements) instructions)
    (fulfils : ∀ entry ∈ emissions start statements, ∀ instruction,
      complete labels entry = .ok instruction → Fulfils entry (entry.1, instruction)) :
    List.Forall₂ Fulfils (emissions start statements) (Code.located start instructions) := by
  induction statements generalizing start instructions with
  | nil =>
    cases completed
    exact .nil
  | cons statement rest ih =>
    rw [emissions] at completed fulfils ⊢
    split at completed
    · rename_i appends
      rw [if_pos appends] at fulfils ⊢
      cases completed with
      | cons first others =>
        have length := length_of_complete appends first
        rw [Code.located, length]
        exact .cons (fulfils _ List.mem_cons_self _ first)
          (ih others fun entry listed => fulfils entry (List.mem_cons_of_mem _ listed))
    · rename_i silent
      rw [if_neg silent] at fulfils ⊢
      exact ih completed fulfils

end Statement

namespace Assembler

open Statement

variable {statements : List Statement}

/-- Finished code encodes the completed instructions. -/
theorem finish_eq_ok {code : Code} :
    (({} : Assembler).applyAll statements).finish = .ok code ↔
      (∀ entry ∈ emissions 0 statements, oversized? entry = none) ∧ ∃ instructions,
        List.Forall₂ (fun entry instruction =>
          complete (({} : Assembler).applyAll statements).labels entry = .ok instruction)
          (emissions 0 statements) instructions ∧
        (instructions.flatMap Instruction.encode).toArray = code := by
  rw [finish_applyAll, ← List.findSome?_eq_none_iff]
  cases found : (emissions 0 statements).findSome? oversized? with
  | some pc => simp
  | none =>
    simp only [true_and]
    constructor
    · intro done
      cases mapped : (emissions 0 statements).mapM
          (complete (({} : Assembler).applyAll statements).labels) with
      | error error =>
        rw [mapped] at done
        cases done
      | ok instructions =>
        rw [mapped] at done
        exact ⟨instructions, mapM_eq_ok.1 mapped, Except.ok.inj done⟩
    · rintro ⟨instructions, completed, rfl⟩
      rw [mapM_eq_ok.2 completed]
      rfl

/-- Finishing fails with the error of the first call that is too large, or else with that of the
first branch that cannot be completed. -/
theorem finish_eq_error {error : AssemblyError} :
    (({} : Assembler).applyAll statements).finish = .error error ↔
      FirstFailure Oversized (emissions 0 statements) error ∨
      (∀ entry ∈ emissions 0 statements, ∀ other, ¬ Oversized entry other) ∧
        FirstFailure (Misses statements) (emissions 0 statements) error := by
  have small : (∀ entry ∈ emissions 0 statements, ∀ other, ¬ Oversized entry other) ↔
      (emissions 0 statements).findSome? oversized? = none := by
    rw [List.findSome?_eq_none_iff]
    exact forall₂_congr fun entry _ => oversized?_eq_none_iff.symm
  rw [finish_applyAll, firstFailure_oversized_iff, small,
    firstFailure_misses_iff (labels_applyAll statements).placed]
  cases (emissions 0 statements).findSome? oversized? with
  | some pc => simp [eq_comm]
  | none =>
    cases (emissions 0 statements).mapM
      (complete (({} : Assembler).applyAll statements).labels) with
    | error reason => simp [Except.map]
    | ok instructions => simp [Except.map]

/-- Code is assembled exactly if every callee fits a byte, every label that is branched to is
placed, and every short branch is near its label. It is then read as the emitted instructions, in
order, at the offsets reported while assembling, and each branch leads to the first placement of its
label. Otherwise the error is that of the first call whose callee does not fit, or else that of the
first branch that cannot be completed. -/
theorem finish_assembles (statements : List Statement) (short : sizes statements < 2 ^ 31) :
    (∀ before after, statements = before ++ after →
      (({} : Assembler).applyAll before).pc = sizes before) ∧
    ((∃ code, (({} : Assembler).applyAll statements).finish = .ok code) ↔
      ∀ entry ∈ emissions 0 statements, Completes statements entry) ∧
    (∀ code, (({} : Assembler).applyAll statements).finish = .ok code →
      code.instructions.error = none ∧
      List.Forall₂ (Realizes statements) (emissions 0 statements)
        code.instructions.instructions.toList) ∧
    ∀ error, (({} : Assembler).applyAll statements).finish = .error error ↔
      FirstFailure Oversized (emissions 0 statements) error ∨
      (∀ entry ∈ emissions 0 statements, ∀ other, ¬ Oversized entry other) ∧
        FirstFailure (Misses statements) (emissions 0 statements) error := by
  have placed := (labels_applyAll statements).placed
  refine ⟨fun before after _ => (pc_applyAll {} before).trans (Nat.zero_add _), ?_,
    fun code done => ?_, fun error => finish_eq_error⟩
  · constructor
    · rintro ⟨code, done⟩ entry listed
      obtain ⟨small, instructions, completed, _⟩ := finish_eq_ok.1 done
      obtain ⟨instruction, made⟩ := exists_complete_of_mem completed listed
      refine completes_iff.2 ⟨oversized?_eq_none_iff.1 (small entry listed), fun error misses => ?_⟩
      cases made.symm.trans ((complete_eq_error placed).2 misses)
    · intro completes
      cases finished : (({} : Assembler).applyAll statements).finish with
      | ok code => exact ⟨code, rfl⟩
      | error error =>
        -- The first failure is a statement that cannot be completed.
        rcases finish_eq_error.1 finished with
          ⟨_, entry, _, split, large, _⟩ | ⟨_, _, entry, _, split, misses, _⟩
        · have listed : entry ∈ emissions 0 statements := by simp [split]
          exact ((completes_iff.1 (completes entry listed)).1 error large).elim
        · have listed : entry ∈ emissions 0 statements := by simp [split]
          exact ((completes_iff.1 (completes entry listed)).2 error misses).elim
  · obtain ⟨small, instructions, completed, rfl⟩ := finish_eq_ok.1 done
    rw [Code.instructions_encode]
    refine ⟨rfl, ?_⟩
    exact forall₂_located completed fun entry listed instruction made =>
      realizes_of_complete short placed listed (small entry listed) made

/-- A constant, a long branch over two instructions, and the end. -/
def forwardBranch : List Statement :=
  [.allocate, .emit (.const8 0), .longBranch .zero ⟨0⟩, .emit .nop, .emit .nop, .place ⟨0⟩,
    .emit (.ret .void)]

/-- The long branch leads over the two instructions, by two bytes. -/
theorem forwardBranch_assembles :
    sizes forwardBranch < 2 ^ 31 ∧
      (({} : Assembler).applyAll forwardBranch).finish =
        .ok #[0x0A, 0, 0x23, 2, 0, 0, 0, 0, 0, 0x2D] ∧
      List.Forall₂ (Realizes forwardBranch) (emissions 0 forwardBranch)
        [(0, .const8 0), (2, .longBranch .zero 2), (7, .nop), (8, .nop), (9, .ret .void)] := by
  have short : sizes forwardBranch < 2 ^ 31 := by decide
  have made : (({} : Assembler).applyAll forwardBranch).finish =
      .ok #[0x0A, 0, 0x23, 2, 0, 0, 0, 0, 0, 0x2D] := by rfl
  have read : Code.instructions #[0x0A, 0, 0x23, 2, 0, 0, 0, 0, 0, 0x2D] =
      ⟨#[(0, .const8 0), (2, .longBranch .zero 2), (7, .nop), (8, .nop), (9, .ret .void)], none⟩ :=
    Code.instructions_encode [.const8 0, .longBranch .zero 2, .nop, .nop, .ret .void]
  have realized := ((finish_assembles forwardBranch short).2.2.1 _ made).2
  rw [read] at realized
  exact ⟨short, made, realized⟩

end Assembler

end ScriptMachine

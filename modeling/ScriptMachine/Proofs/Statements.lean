import ScriptMachine.Assembly
import ScriptMachine.Proofs.Encoding

/-!
# What statements emit

A statement appends a fixed number of bytes, and a label is placed where the bytes before its first
placement end. Neither depends on an assembler. This module says what finished code is to be in
these terms, and that the state of an assembler agrees with them after any statements: its offset,
its labels, the branches it has still to complete, and the oversized call it remembers.
-/

namespace ScriptMachine

namespace Statement

/-- The number of bytes that a statement appends. -/
def size : Statement → Nat
  | .allocate | .place _ => 0
  | .emit instruction => instruction.length
  | .branch _ _ => 2
  | .longBranch _ _ => 5
  | .call _ _ _ => 3

/-- The number of bytes that statements append. -/
def sizes (statements : List Statement) : Nat := (statements.map size).sum

/-- The statements that append an instruction, each with the offset of its instruction, where the
first one begins at the given offset. -/
def emissions : Nat → List Statement → List (Nat × Statement)
  | _, [] => []
  | pc, statement :: rest =>
    if 0 < statement.size then (pc, statement) :: emissions (pc + statement.size) rest
    else emissions pc rest

/-- Whether a statement allocates a label. -/
def allocates : Statement → Bool
  | .allocate => true
  | _ => false

/-- Some statement places the label at this offset. A placement that comes before the allocation of
the label places nothing. -/
def Places (statements : List Statement) (label : Label) (pc : Nat) : Prop :=
  ∃ before after, statements = before ++ .place label :: after ∧
    label.index < before.countP allocates ∧ pc = sizes before

/-- The first placement of the label is at this offset. Offsets never decrease from one statement to
the next. -/
def PlacedFirst (statements : List Statement) (label : Label) (pc : Nat) : Prop :=
  IsLeast {pc | Places statements label pc} pc

/-- The distance from the end of a short branch to its target fits a signed byte. -/
def Near (pc target : Nat) : Prop :=
  -128 ≤ (target : Int) - (pc + 2 : Nat) ∧ (target : Int) - (pc + 2 : Nat) < 128

instance (pc target : Nat) : Decidable (Near pc target) := inferInstanceAs (Decidable (_ ∧ _))

/-- A statement can be completed: a callee fits a byte, and the label of a branch is placed, near
enough for a short branch. -/
def Completes (statements : List Statement) : Nat × Statement → Prop
  | (pc, .branch _ label) => ∃ target, PlacedFirst statements label target ∧ Near pc target
  | (_, .longBranch _ label) => ∃ target, PlacedFirst statements label target
  | (_, .call _ _ callee) => callee.index < 256
  | _ => True

/-- An instruction at an offset is what a statement asks for there. A branch leads to the first
placement of its label. -/
inductive Realizes (statements : List Statement) : Nat × Statement → Nat × Instruction → Prop where
  | emit (pc : Nat) (instruction : Instruction) :
    Realizes statements (pc, .emit instruction) (pc, instruction)
  | branch {pc target : Nat} {label : Label} {delta : Int8} (test : Test)
    (placed : PlacedFirst statements label target)
    (leads : branchTarget? (pc + 2) delta.toInt = some target) :
    Realizes statements (pc, .branch test label) (pc, .branch test delta)
  | longBranch {pc target : Nat} {label : Label} {delta : Int32} (test : Test)
    (placed : PlacedFirst statements label target)
    (leads : branchTarget? (pc + 5) delta.toInt = some target) :
    Realizes statements (pc, .longBranch test label) (pc, .longBranch test delta)
  | call (pc : Nat) (result : ResultKind) (argc index : UInt8) :
    Realizes statements (pc, .call result argc ⟨index.toNat⟩) (pc, .script result argc index)

/-- A call whose callee does not fit a byte, and its error. -/
inductive Oversized : Nat × Statement → AssemblyError → Prop where
  | call {pc : Nat} {callee : FunctionId} (result : ResultKind) (argc : UInt8)
    (large : 256 ≤ callee.index) :
    Oversized (pc, .call result argc callee) (.functionOutOfRange pc)

/-- A branch that cannot be completed, and its error. -/
inductive Misses (statements : List Statement) : Nat × Statement → AssemblyError → Prop where
  | branch {pc : Nat} {label : Label} (test : Test)
    (unplaced : ∀ target, ¬ PlacedFirst statements label target) :
    Misses statements (pc, .branch test label) .unresolvedLabel
  | longBranch {pc : Nat} {label : Label} (test : Test)
    (unplaced : ∀ target, ¬ PlacedFirst statements label target) :
    Misses statements (pc, .longBranch test label) .unresolvedLabel
  | far {pc target : Nat} {label : Label} (test : Test)
    (placed : PlacedFirst statements label target) (far : ¬ Near pc target) :
    Misses statements (pc, .branch test label) (.branchOutOfRange pc)

/-- Of all entries that fail, the first one fails with this error. -/
def FirstFailure (Fails : Nat × Statement → AssemblyError → Prop)
    (entries : List (Nat × Statement)) (error : AssemblyError) : Prop :=
  ∃ earlier entry later, entries = earlier ++ entry :: later ∧ Fails entry error ∧
    ∀ passed ∈ earlier, ∀ other, ¬ Fails passed other

/-! ## Offsets -/

variable {statements : List Statement} {label : Label} {pc target : Nat}

theorem sizes_cons (statement : Statement) (rest : List Statement) :
    sizes (statement :: rest) = statement.size + sizes rest := by
  simp [sizes]

theorem sizes_append (before after : List Statement) :
    sizes (before ++ after) = sizes before + sizes after := by
  simp [sizes]

/-- An emitted instruction takes up some of the bytes of the statements. -/
theorem room_of_mem_emissions {start : Nat} {entry : Nat × Statement}
    (listed : entry ∈ emissions start statements) :
    0 < entry.2.size ∧ entry.1 + entry.2.size ≤ start + sizes statements := by
  induction statements generalizing start with
  | nil => simp [emissions] at listed
  | cons statement rest ih =>
    rw [sizes_cons]
    rw [emissions] at listed
    split at listed
    · rename_i appends
      rcases List.mem_cons.1 listed with rfl | later
      · refine ⟨appends, ?_⟩
        simp only
        omega
      · obtain ⟨positive, bound⟩ := ih later
        exact ⟨positive, by omega⟩
    · obtain ⟨positive, bound⟩ := ih listed
      exact ⟨positive, by omega⟩

/-- A label is placed within the bytes of the statements. -/
theorem Places.le (placed : Places statements label pc) : pc ≤ sizes statements := by
  obtain ⟨before, after, rfl, _, rfl⟩ := placed
  rw [sizes_append]
  exact Nat.le_add_right ..

/-- One more statement places a label only if it is a placement of the label. -/
theorem places_snoc (statement : Statement) :
    Places (statements ++ [statement]) label pc ↔ Places statements label pc ∨
      statement = .place label ∧ label.index < statements.countP allocates ∧
        pc = sizes statements := by
  constructor
  · rintro ⟨before, after, split, allocated, rfl⟩
    rcases List.eq_nil_or_concat after with rfl | ⟨most, last, rfl⟩
    · obtain ⟨rfl, same⟩ := List.append_inj' split rfl
      cases same
      exact .inr ⟨rfl, allocated, rfl⟩
    · rw [List.concat_eq_append, ← List.cons_append, ← List.append_assoc] at split
      obtain ⟨rfl, _⟩ := List.append_inj' split rfl
      exact .inl ⟨before, most, rfl, allocated, rfl⟩
  · rintro (⟨before, after, rfl, allocated, rfl⟩ | ⟨rfl, allocated, rfl⟩)
    · exact ⟨before, after ++ [statement], by simp, allocated, rfl⟩
    · exact ⟨statements, [], rfl, allocated, rfl⟩

/-- A label that is placed at all has a first placement. -/
theorem Places.exists_first (placed : Places statements label pc) :
    ∃ first, PlacedFirst statements label first :=
  ⟨sInf {pc | Places statements label pc}, Nat.sInf_mem ⟨pc, placed⟩,
    fun _ other => Nat.sInf_le other⟩

/-- A statement that does not place the label leaves its first placement alone. -/
theorem placedFirst_snoc_of_ne {statement : Statement}
    (other : ¬ (statement = .place label ∧ label.index < statements.countP allocates)) :
    PlacedFirst (statements ++ [statement]) label pc ↔ PlacedFirst statements label pc := by
  have same : {pc | Places (statements ++ [statement]) label pc} =
      {pc | Places statements label pc} := by
    ext pc
    rw [Set.mem_ofPred_eq, Set.mem_ofPred_eq, places_snoc]
    exact or_iff_left fun ⟨places, allocated, _⟩ => other ⟨places, allocated⟩
  rw [PlacedFirst, PlacedFirst, same]

/-- A second placement leaves the first one alone. -/
theorem PlacedFirst.snoc (placed : PlacedFirst statements label pc) (statement : Statement) :
    PlacedFirst (statements ++ [statement]) label pc := by
  refine ⟨(places_snoc statement).2 (.inl placed.1), fun other places => ?_⟩
  rcases (places_snoc statement).1 places with earlier | ⟨_, _, rfl⟩
  · exact placed.2 earlier
  · exact Places.le placed.1

/-- A first placement is where the statements before it end. -/
theorem placedFirst_snoc_of_unplaced (allocated : label.index < statements.countP allocates)
    (unplaced : ∀ pc, ¬ PlacedFirst statements label pc) :
    PlacedFirst (statements ++ [.place label]) label pc ↔ pc = sizes statements := by
  have here : {pc | Places (statements ++ [.place label]) label pc} = {sizes statements} := by
    ext pc
    rw [Set.mem_ofPred_eq, places_snoc]
    constructor
    · rintro (earlier | ⟨_, _, rfl⟩)
      · obtain ⟨first, placed⟩ := earlier.exists_first
        exact (unplaced first placed).elim
      · rfl
    · rintro rfl
      exact .inr ⟨rfl, allocated, rfl⟩
  rw [PlacedFirst, here]
  exact ⟨fun least => least.1, fun same => same ▸ isLeast_singleton⟩

/-! ## Statements before their distances are known -/

/-- The instruction that a statement appends, with zero for what is not known to fit. -/
def placeholder? : Statement → Option Instruction
  | .allocate | .place _ => none
  | .emit instruction => some instruction
  | .branch test _ => some (.branch test 0)
  | .longBranch test _ => some (.longBranch test 0)
  | .call result argc callee =>
    some (.script result argc (if callee.index < 256 then UInt8.ofNat callee.index else 0))

/-- The bytes that a statement appends. -/
def bytes (statement : Statement) : List UInt8 :=
  (statement.placeholder?.map Instruction.encode).getD []

/-- The branch that a statement appends at an offset. -/
def reference? : Nat × Statement → Option Reference
  | (pc, .branch _ label) => some ⟨pc, label, .short⟩
  | (pc, .longBranch _ label) => some ⟨pc, label, .long⟩
  | _ => none

/-- The offset of a call whose callee does not fit a byte. -/
def oversized? : Nat × Statement → Option Nat
  | (pc, .call _ _ callee) => if callee.index < 256 then none else some pc
  | _ => none

/-- The bytes of a statement are as many as it appends. -/
theorem length_bytes (statement : Statement) : statement.bytes.length = statement.size := by
  cases statement with
  | emit instruction => exact instruction.length_encode
  | _ => rfl

end Statement

namespace Assembler

open Statement

variable {statements : List Statement} {assembler : Assembler}

/-- What one statement changes, apart from the labels. -/
theorem apply_appends (assembler : Assembler) (statement : Statement) :
    (assembler.apply statement).1.code.toList = assembler.code.toList ++ statement.bytes ∧
      (assembler.apply statement).1.references.toList = assembler.references.toList ++
        (reference? (assembler.pc, statement)).toList ∧
      (assembler.apply statement).1.oversizedCall =
        assembler.oversizedCall.or (oversized? (assembler.pc, statement)) := by
  cases statement with
  | allocate => simp [apply, allocate, bytes, placeholder?, reference?, oversized?]
  | place label =>
    have silent : bytes (.place label) = [] ∧ reference? (assembler.pc, .place label) = none ∧
        oversized? (assembler.pc, .place label) = none := ⟨rfl, rfl, rfl⟩
    simp only [apply, silent]
    split
    · rename_i placed
      unfold place at placed
      split at placed <;> cases placed
      simp
    · simp
  | emit instruction => simp [apply, emit, bytes, placeholder?, reference?, oversized?]
  | branch test label =>
    simp [apply, refer, emit, pc, bytes, placeholder?, reference?, oversized?]
  | longBranch test label =>
    simp [apply, refer, emit, pc, bytes, placeholder?, reference?, oversized?]
  | call result argc callee =>
    simp only [apply, call, bytes, placeholder?, reference?, oversized?]
    split <;> simp [emit]

theorem applyAll_cons (assembler : Assembler) (statement : Statement) (rest : List Statement) :
    assembler.applyAll (statement :: rest) = (assembler.apply statement).1.applyAll rest := rfl

theorem applyAll_snoc (assembler : Assembler) (statement : Statement) :
    assembler.applyAll (statements ++ [statement]) =
      ((assembler.applyAll statements).apply statement).1 := by
  simp [applyAll]

/-- The offset advances by the bytes of the statement. -/
theorem pc_apply (assembler : Assembler) (statement : Statement) :
    (assembler.apply statement).1.pc = assembler.pc + statement.size := by
  have code := congrArg List.length (assembler.apply_appends statement).1
  rw [List.length_append, statement.length_bytes] at code
  exact code

/-- The offset advances by the bytes of the statements. -/
theorem pc_applyAll (assembler : Assembler) (statements : List Statement) :
    (assembler.applyAll statements).pc = assembler.pc + sizes statements := by
  induction statements generalizing assembler with
  | nil => rfl
  | cons statement rest ih => rw [applyAll_cons, ih, pc_apply, sizes_cons, Nat.add_assoc]

/-- The code is the bytes of the statements one after the other. -/
theorem code_applyAll (assembler : Assembler) (statements : List Statement) :
    (assembler.applyAll statements).code.toList =
      assembler.code.toList ++ statements.flatMap bytes := by
  induction statements generalizing assembler with
  | nil => simp [applyAll]
  | cons statement rest ih =>
    rw [applyAll_cons, ih, (assembler.apply_appends statement).1]
    simp

/-- A statement without bytes is no branch and no call. -/
theorem silent_of_size_eq_zero {statement : Statement} (silent : ¬ 0 < statement.size) (pc : Nat) :
    reference? (pc, statement) = none ∧ oversized? (pc, statement) = none := by
  cases statement with
  | allocate | place label => exact ⟨rfl, rfl⟩
  | emit instruction => exact ⟨rfl, rfl⟩
  | branch | longBranch | call => exact (silent (by simp [size])).elim

/-- The branches to labels are those of the emitted instructions, in order. -/
theorem references_applyAll (assembler : Assembler) (statements : List Statement) :
    (assembler.applyAll statements).references.toList = assembler.references.toList ++
      (emissions assembler.pc statements).filterMap reference? := by
  induction statements generalizing assembler with
  | nil => simp [applyAll, emissions]
  | cons statement rest ih =>
    rw [applyAll_cons, ih, (assembler.apply_appends statement).2.1, pc_apply, emissions]
    split
    · rw [List.append_assoc, List.filterMap_cons]
      cases reference? (assembler.pc, statement) <;> rfl
    · rename_i silent
      rw [(silent_of_size_eq_zero silent _).1, Nat.eq_zero_of_not_pos silent]
      simp

/-- The oversized call that is remembered is the first one. -/
theorem oversizedCall_applyAll (assembler : Assembler) (statements : List Statement) :
    (assembler.applyAll statements).oversizedCall = assembler.oversizedCall.or
      ((emissions assembler.pc statements).findSome? oversized?) := by
  induction statements generalizing assembler with
  | nil => simp [applyAll, emissions]
  | cons statement rest ih =>
    rw [applyAll_cons, ih, (assembler.apply_appends statement).2.2, pc_apply, emissions]
    split
    · rw [Option.or_assoc, List.findSome?_cons]
      cases oversized? (assembler.pc, statement) <;> rfl
    · rename_i silent
      rw [(silent_of_size_eq_zero silent _).2, Nat.eq_zero_of_not_pos silent]
      simp

/-! ## Labels -/

/-- The allocated labels are known, each with the offset of its first placement, if any. -/
structure Labelled (statements : List Statement) (assembler : Assembler) : Prop where
  size : assembler.labels.size = statements.countP allocates
  placed : ∀ (label : Label) (target : Nat),
    assembler.labels[label.index]? = some (some target) ↔ PlacedFirst statements label target

namespace Labelled

variable {statement : Statement}

/-- A statement that leaves the labels alone allocates none, and places none that is allocated for
the first time. -/
theorem untouched {next : Assembler} (labelled : Labelled statements assembler)
    (same : next.labels = assembler.labels) (other : statement.allocates = false)
    (again : ∀ label, statement = .place label → label.index < assembler.labels.size →
      ∃ target, PlacedFirst statements label target) :
    Labelled (statements ++ [statement]) next where
  size := by simp [same, labelled.size, other]
  placed label target := by
    rw [same, labelled.placed]
    by_cases places : statement = .place label ∧ label.index < statements.countP allocates
    · obtain ⟨first, before⟩ := again label places.1 (labelled.size ▸ places.2)
      constructor
      · exact fun known => known.snoc statement
      · intro known
        rw [known.unique (before.snoc statement)]
        exact before
    · exact (placedFirst_snoc_of_ne places).symm

/-- An allocation adds a label that is placed nowhere. -/
theorem allocate (labelled : Labelled statements assembler) :
    Labelled (statements ++ [.allocate]) assembler.allocate where
  size := by simp [Assembler.allocate, labelled.size, allocates]
  placed label target := by
    rw [placedFirst_snoc_of_ne (fun places => by cases places.1), ← labelled.placed]
    simp only [Assembler.allocate, Array.getElem?_push]
    split
    · rename_i last
      simp [last]
    · rfl

/-- The first placement of an allocated label gives it the offset that has been reached. -/
theorem place {label : Label} (labelled : Labelled statements assembler)
    (offset : assembler.pc = sizes statements)
    (held : assembler.labels[label.index]? = some none) :
    Labelled (statements ++ [.place label]) (assembler.apply (.place label)).1 where
  size := by simp [apply, Assembler.place, held, labelled.size, allocates]
  placed other target := by
    have allocated : label.index < statements.countP allocates := by
      rw [← labelled.size]
      exact (Array.getElem?_eq_some_iff.1 held).1
    have unplaced : ∀ target, ¬ PlacedFirst statements label target := by
      intro target placed
      rw [← labelled.placed, held] at placed
      cases placed
    simp only [apply, Assembler.place, held, Array.set!_eq_setIfInBounds,
      Array.getElem?_setIfInBounds]
    by_cases same : other = label
    · subst same
      rw [placedFirst_snoc_of_unplaced allocated unplaced, if_pos rfl,
        if_pos (labelled.size ▸ allocated), Option.some.injEq, Option.some.injEq, offset, eq_comm]
    · have apart : label.index ≠ other.index := fun equal => same (by
        cases other
        cases label
        exact congrArg Label.mk equal.symm)
      rw [if_neg apart, labelled.placed, placedFirst_snoc_of_ne]
      rintro ⟨places, _⟩
      cases places
      exact same rfl

/-- Every statement keeps account of the labels. -/
theorem apply (labelled : Labelled statements assembler) (offset : assembler.pc = sizes statements)
    (statement : Statement) :
    Labelled (statements ++ [statement]) (assembler.apply statement).1 := by
  cases statement with
  | allocate => exact labelled.allocate
  | place label =>
    cases held : assembler.labels[label.index]? with
    | none =>
      refine labelled.untouched ?_ rfl fun other same inside => ?_
      · simp only [Assembler.apply, Assembler.place, held]
      · cases same
        rw [Array.getElem?_eq_none_iff] at held
        omega
    | some placed =>
      cases placed with
      | none => exact labelled.place offset held
      | some first =>
        refine labelled.untouched ?_ rfl fun other same _ => ?_
        · simp only [Assembler.apply, Assembler.place, held]
        · cases same
          exact ⟨first, (labelled.placed label first).1 held⟩
  | emit instruction => exact labelled.untouched rfl rfl (fun _ same => by cases same)
  | branch test label => exact labelled.untouched rfl rfl (fun _ same => by cases same)
  | longBranch test label => exact labelled.untouched rfl rfl (fun _ same => by cases same)
  | call result argc callee =>
    refine labelled.untouched ?_ rfl (fun _ same => by cases same)
    simp only [Assembler.apply, call]
    split <;> rfl

end Labelled

/-- A label has an offset exactly if it is placed, and then that of its first placement. -/
theorem labels_applyAll (statements : List Statement) :
    Labelled statements (({} : Assembler).applyAll statements) := by
  induction statements using List.reverseRecOn with
  | nil =>
    refine ⟨rfl, fun label target => ⟨fun found => ?_, fun placed => ?_⟩⟩
    · simp [applyAll] at found
    · obtain ⟨before, after, split, _⟩ := placed.1
      simp at split
  | append_singleton done statement ih =>
    rw [applyAll_snoc]
    exact ih.apply ((pc_applyAll {} done).trans (Nat.zero_add _)) statement

end Assembler

end ScriptMachine

import ScriptMachine.Proofs.Widening

/-!
# Aligned codes

Two codes are aligned if their offsets can be paired so that paired offsets are both the end of
their code, or begin instructions that are the same but for their encodings and lead to paired
offsets again. Code that is assembled with short and with long encodings is aligned, and
verification gives the same verdict on aligned codes: a path through one of them is a path through
the other, with the same operand depths.
-/

namespace ScriptMachine

section Optional

variable {α β : Type} {related related' : α → β → Prop} {first : Option α} {second : Option β}

/-- Of two optional values that correspond both are there, or neither is. -/
theorem isSome_eq_of_rel (same : Option.Rel related first second) :
    second.isSome = first.isSome := by
  cases same <;> rfl

/-- Optional values that correspond do so by a weaker relation. -/
theorem rel_mono (same : Option.Rel related first second)
    (weaker : ∀ entry other, related entry other → related' entry other) :
    Option.Rel related' first second := by
  cases same with
  | some same => exact .some (weaker _ _ same)
  | none => exact .none

/-- Optional values correspond in the other order by the relation in the other order. -/
theorem rel_flip (same : Option.Rel related first second) :
    Option.Rel (fun other entry => related entry other) second first := by
  cases same with
  | some same => exact .some same
  | none => exact .none

end Optional

/-! ## Instructions at paired offsets -/

/-- An instruction and the offset behind it, as they are read in one code and in another. The two
are the same but for their encodings, and lead to paired offsets. -/
structure Instruction.Tallies (paired : Nat → Nat → Prop) (read read' : Instruction × Nat) :
    Prop where
  widened : read'.1.widened = read.1.widened
  next : paired read.2 read'.2
  target : ∀ delta delta', read.1.delta? = some delta → read'.1.delta? = some delta' →
    Option.Rel paired (branchTarget? read.2 delta) (branchTarget? read'.2 delta')

namespace Instruction.Tallies

variable {paired paired' : Nat → Nat → Prop} {read read' : Instruction × Nat}

/-- More offsets may be paired. -/
theorem mono (tallies : Tallies paired read read')
    (more : ∀ pc pc', paired pc pc' → paired' pc pc') : Tallies paired' read read' where
  widened := tallies.widened
  next := more _ _ tallies.next
  target delta delta' branches branches' :=
    rel_mono (tallies.target delta delta' branches branches') more

/-- The order of the codes does not matter. -/
theorem symm (tallies : Tallies paired read read') :
    Tallies (fun pc pc' => paired pc' pc) read' read where
  widened := tallies.widened.symm
  next := tallies.next
  target delta delta' branches branches' :=
    rel_flip (tallies.target delta' delta branches' branches)

/-- If one of two branches leads somewhere, the other one leads to a paired offset. -/
theorem exists_target (tallies : Tallies paired read read') {delta delta' : Int} {target : Nat}
    (branches : read.1.delta? = some delta) (branches' : read'.1.delta? = some delta')
    (leads : branchTarget? read.2 delta = some target) :
    ∃ target', branchTarget? read'.2 delta' = some target' ∧ paired target target' := by
  have landing := tallies.target delta delta' branches branches'
  rw [leads] at landing
  generalize branchTarget? read'.2 delta' = second at landing ⊢
  cases landing with
  | some same => exact ⟨_, rfl, same⟩

/-- Where control can go from one instruction, it can go to a paired offset from the other. -/
theorem exists_leads {instruction instruction' : Instruction} {pc pc' target : Nat}
    (tallies : Tallies paired (instruction, pc + instruction.length)
      (instruction', pc' + instruction'.length)) (leads : instruction.Leads pc target) :
    ∃ target', paired target target' ∧ instruction'.Leads pc' target' := by
  cases leads with
  | next falls =>
    exact ⟨_, tallies.next, .next ((isTerminator_eq_of_widened_eq tallies.widened).trans falls)⟩
  | branch branches leads =>
    obtain ⟨delta', branches'⟩ := exists_delta?_of_widened_eq tallies.widened branches
    obtain ⟨target', leads', same⟩ := tallies.exists_target branches branches' leads
    exact ⟨target', same, .branch branches' leads'⟩

end Instruction.Tallies

/-- Two codes are aligned by a pairing of their offsets. -/
structure Code.Aligned (paired : Nat → Nat → Prop) (first second : Code) : Prop where
  start : paired 0 0
  readable : first.instructions.error = none
  readable' : second.instructions.error = none
  /-- At paired offsets both codes end, or an instruction begins in each. -/
  reads : ∀ pc pc', paired pc pc' → pc = first.size ∧ pc' = second.size ∨
    ∃ instruction instruction', (pc, instruction) ∈ first.instructions.instructions ∧
      (pc', instruction') ∈ second.instructions.instructions ∧
      Instruction.Tallies paired (instruction, pc + instruction.length)
        (instruction', pc' + instruction'.length)
  unique : ∀ pc pc' other, paired pc pc' → paired pc other → pc' = other
  unique' : ∀ pc pc' other, paired pc pc' → paired other pc' → pc = other

/-! ## Assembled codes -/

namespace Statement

variable {first second statements : List Statement} {pc pc' : Nat}
  {statement statement' : Statement} {instruction instruction' : Instruction}

/-- The long encoding of a statement asks for the long encoding of its instruction. -/
theorem Realizes.placeholder?_widened
    (realizes : Realizes statements (pc, statement) (pc, instruction)) :
    statement.widened.placeholder? = some instruction.widened := by
  cases realizes with
  | call pc result argc index =>
    have small : index.toNat < 256 := index.toNat_lt
    simp [widened, placeholder?, small, Instruction.widened]
  | _ => rfl

/-- An instruction is as long as what its statement appends. -/
theorem Realizes.length_eq (realizes : Realizes statements (pc, statement) (pc, instruction)) :
    instruction.length = statement.size := by
  cases realizes <;> rfl

/-- A branch to a label leads to its first placement. -/
theorem Realizes.leads {delta : Int}
    (realizes : Realizes statements (pc, statement) (pc, instruction))
    (labelled : ∀ emitted, statement = .emit emitted → emitted.delta? = none)
    (branches : instruction.delta? = some delta) :
    ∃ test label target, statement.widened = .longBranch test label ∧
      PlacedFirst statements label target ∧
      branchTarget? (pc + instruction.length) delta = some target := by
  cases realizes with
  | emit pc emitted =>
    rw [labelled _ rfl] at branches
    cases branches
  | branch test placed leads =>
    cases branches
    exact ⟨test, _, _, rfl, placed, leads⟩
  | longBranch test placed leads =>
    cases branches
    exact ⟨test, _, _, rfl, placed, leads⟩
  | call => cases branches

/-- Statements that have the same long encoding make instructions that tally. -/
theorem Realizes.tallies (same : first.map widened = second.map widened)
    (realizes : Realizes first (pc, statement) (pc, instruction))
    (realizes' : Realizes second (pc', statement') (pc', instruction'))
    (here : statement.widened = statement'.widened)
    (labelled : ∀ emitted, statement = .emit emitted → emitted.delta? = none)
    (labelled' : ∀ emitted, statement' = .emit emitted → emitted.delta? = none)
    (next : Level first second (pc + statement.size) (pc' + statement'.size)) :
    Instruction.Tallies (Level first second) (instruction, pc + instruction.length)
      (instruction', pc' + instruction'.length) where
  widened := by
    have made := realizes.placeholder?_widened
    rw [here, realizes'.placeholder?_widened] at made
    exact Option.some.inj made
  next := by rwa [realizes.length_eq, realizes'.length_eq]
  target delta delta' branches branches' := by
    obtain ⟨test, label, target, long, placed, leads⟩ := realizes.leads labelled branches
    obtain ⟨test', label', target', long', placed', leads'⟩ := realizes'.leads labelled' branches'
    cases long.symm.trans (here.trans long')
    rw [leads, leads']
    exact .some (placed.level same placed')

/-- A statement that appends bytes is emitted at its offset. -/
theorem mem_emissions (start : Nat) (before after : List Statement)
    (appends : 0 < statement.size) :
    (start + sizes before, statement) ∈ emissions start (before ++ statement :: after) := by
  induction before generalizing start with
  | nil => simp [emissions, appends, sizes]
  | cons earlier rest ih =>
    rw [List.cons_append, emissions, sizes_cons, ← Nat.add_assoc]
    split
    · exact List.mem_cons_of_mem _ (ih _)
    · rename_i silent
      rw [Nat.eq_zero_of_not_pos silent]
      exact ih _

/-- The bytes up to a statement and those behind it are all. -/
theorem sizes_take_add_drop (count : Nat) (statements : List Statement) :
    sizes (statements.take count) + sizes (statements.drop count) = sizes statements := by
  rw [← sizes_append, List.take_append_drop]

/-- If the branches of one sequence refer to labels, those of the other one do. -/
theorem labelled_of_same (same : first.map widened = second.map widened)
    (labelled : ∀ emitted, .emit emitted ∈ first → emitted.delta? = none) (emitted : Instruction)
    (listed : .emit emitted ∈ second) : emitted.delta? = none := by
  have long : (Statement.emit emitted).widened ∈ first.map widened :=
    same ▸ List.mem_map_of_mem listed
  obtain ⟨statement, listed, made⟩ := List.mem_map.1 long
  obtain ⟨original, rfl⟩ : ∃ original, statement = .emit original := by
    cases statement with
    | emit original => exact ⟨original, rfl⟩
    | _ => cases made
  have plain := labelled original listed
  injection made with made
  rw [← Option.not_isSome_iff_eq_none, ← Instruction.isSome_delta?_widened] at plain ⊢
  rwa [← made]

/-- The first statement that appends bytes, if there is one. -/
theorem exists_appending (statements : List Statement) :
    sizes statements = 0 ∨ ∃ before statement after, statements = before ++ statement :: after ∧
      sizes before = 0 ∧ 0 < statement.size := by
  induction statements with
  | nil => exact .inl rfl
  | cons statement rest ih =>
    by_cases appends : 0 < statement.size
    · exact .inr ⟨[], statement, rest, rfl, rfl, appends⟩
    · have silent := Nat.eq_zero_of_not_pos appends
      rcases ih with nothing | ⟨before, other, after, rfl, nothing, appends⟩
      · exact .inl (by rw [sizes_cons, silent, nothing])
      · exact .inr ⟨statement :: before, other, after, rfl, by rw [sizes_cons, silent, nothing],
          appends⟩

/-- Completed instructions take up as many bytes as their statements append. -/
theorem span_of_complete {labels : Array (Option Nat)} {start : Nat}
    {instructions : List Instruction}
    (completed : List.Forall₂ (fun entry instruction => complete labels entry = .ok instruction)
      (emissions start statements) instructions) :
    Code.span instructions = sizes statements := by
  induction statements generalizing start instructions with
  | nil =>
    cases completed
    rfl
  | cons statement rest ih =>
    rw [sizes_cons]
    rw [emissions] at completed
    split at completed
    · rename_i appends
      cases completed with
      | cons first others => rw [Code.span_cons, length_of_complete appends first, ih others]
    · rename_i silent
      rw [ih completed, Nat.eq_zero_of_not_pos silent, Nat.zero_add]

end Statement

/-- What stands in one of two lists that correspond has a counterpart in the other. -/
theorem exists_of_forall₂ {α β : Type} {related : α → β → Prop} {first : List α} {second : List β}
    {entry : α} (all : List.Forall₂ related first second) (listed : entry ∈ first) :
    ∃ other ∈ second, related entry other := by
  obtain ⟨index, inside, rfl⟩ := List.getElem_of_mem listed
  exact ⟨_, List.getElem_mem (all.length_eq ▸ inside), all.get inside _⟩

namespace Assembler

open Statement

variable {statements : List Statement} {code : Code}

/-- Finished code is as long as what the statements append. -/
theorem size_of_finish (done : (({} : Assembler).applyAll statements).finish = .ok code) :
    code.size = sizes statements := by
  obtain ⟨_, instructions, completed, rfl⟩ := finish_eq_ok.1 done
  rw [List.size_toArray, Code.length_encode]
  exact span_of_complete completed

/-- Finished code is read as what the statements ask for. -/
theorem realizes_of_finish (done : (({} : Assembler).applyAll statements).finish = .ok code)
    (short : code.size < 2 ^ 31) :
    code.instructions.error = none ∧
      List.Forall₂ (Realizes statements) (emissions 0 statements)
        code.instructions.instructions.toList := by
  rw [size_of_finish done] at short
  obtain ⟨small, instructions, completed, rfl⟩ := finish_eq_ok.1 done
  rw [Code.instructions_encode]
  exact ⟨rfl, forall₂_located completed fun entry listed instruction made =>
    realizes_of_complete short (labels_applyAll statements).placed listed (small entry listed) made⟩

/-- A statement that appends bytes has its instruction at its offset. -/
theorem exists_realized (done : (({} : Assembler).applyAll statements).finish = .ok code)
    (short : code.size < 2 ^ 31) {before after : List Statement} {statement : Statement}
    (split : statements = before ++ statement :: after) (appends : 0 < statement.size) :
    ∃ instruction, (sizes before, instruction) ∈ code.instructions.instructions ∧
      Realizes statements (sizes before, statement) (sizes before, instruction) := by
  have listed := mem_emissions 0 before after appends
  rw [← split, Nat.zero_add] at listed
  obtain ⟨⟨pc, instruction⟩, found, realizes⟩ :=
    exists_of_forall₂ (realizes_of_finish done short).2 listed
  obtain rfl : sizes before = pc := by cases realizes <;> rfl
  exact ⟨instruction, Array.mem_toList_iff.1 found, realizes⟩

variable {first second : List Statement} {code' : Code}

/-- Codes that are assembled from statements with the same long encodings are aligned, by the
offsets before the same number of statements. -/
theorem aligned_of_finish (same : first.map widened = second.map widened)
    (labelled : ∀ emitted, .emit emitted ∈ first → emitted.delta? = none)
    (done : (({} : Assembler).applyAll first).finish = .ok code)
    (done' : (({} : Assembler).applyAll second).finish = .ok code')
    (short : code.size < 2 ^ 31) (short' : code'.size < 2 ^ 31) :
    Code.Aligned (Level first second) code code' where
  start := .start first second
  readable := (realizes_of_finish done short).1
  readable' := (realizes_of_finish done' short').1
  unique _ _ _ level level' := level.unique same level'
  unique' _ _ _ level level' := level.symm.unique same.symm level'.symm
  reads pc pc' level := by
    obtain ⟨count, rfl, rfl⟩ := level
    have whole := List.take_append_drop count first
    rcases exists_appending (first.drop count) with silent | ⟨passed, statement, after, rest,
      silent, appends⟩
    · have silent' : sizes (second.drop count) = 0 :=
        sizes_eq_zero_of_same (by rw [List.map_drop, same, List.map_drop]) silent
      refine .inl ⟨?_, ?_⟩
      · rw [size_of_finish done, ← sizes_take_add_drop count first, silent, Nat.add_zero]
      · rw [size_of_finish done', ← sizes_take_add_drop count second, silent', Nat.add_zero]
    · rw [rest, ← List.append_assoc] at whole
      obtain ⟨before', statement', after', split', _, here, level, next⟩ :=
        exists_split_of_same same whole.symm
      have appends' : 0 < statement'.size := by
        rw [Nat.pos_iff_ne_zero, Ne, ← size_widened_eq_zero_iff, ← here,
          size_widened_eq_zero_iff]
        exact Nat.ne_of_gt appends
      obtain ⟨instruction, listed, realizes⟩ := exists_realized done short whole.symm appends
      obtain ⟨instruction', listed', realizes'⟩ := exists_realized done' short' split' appends'
      have tallies := realizes.tallies same realizes' here
        (fun emitted emits => labelled emitted (by rw [← whole, emits]; simp))
        (fun emitted emits => labelled_of_same same labelled emitted (by
          rw [split', emits]
          simp)) next
      rw [sizes_append, silent, Nat.add_zero] at level listed tallies
      rw [Level.unique same ⟨count, rfl, rfl⟩ level]
      exact .inr ⟨instruction, instruction', listed, listed', tallies⟩

end Assembler

/-! ## Verification -/

namespace Code.Aligned

variable {paired : Nat → Nat → Prop} {first second : Code} {pc pc' : Nat}
  {instruction : Instruction}

/-- The order of the codes does not matter. -/
theorem symm (aligned : Aligned paired first second) :
    Aligned (fun pc pc' => paired pc' pc) second first where
  start := aligned.start
  readable := aligned.readable'
  readable' := aligned.readable
  unique _ _ _ := aligned.unique' _ _ _
  unique' _ _ _ := aligned.unique _ _ _
  reads pc pc' level := by
    rcases aligned.reads pc' pc level with ⟨ends, ends'⟩ |
      ⟨instruction, instruction', listed, listed', tallies⟩
    · exact .inl ⟨ends', ends⟩
    · exact .inr ⟨instruction', instruction, listed', listed, tallies.symm⟩

/-- Where an instruction begins in one code, one that tallies begins in the other. -/
theorem exists_listed (aligned : Aligned paired first second) (level : paired pc pc')
    (listed : (pc, instruction) ∈ first.instructions.instructions) :
    ∃ instruction', (pc', instruction') ∈ second.instructions.instructions ∧
      Instruction.Tallies paired (instruction, pc + instruction.length)
        (instruction', pc' + instruction'.length) := by
  rcases aligned.reads pc pc' level with ⟨rfl, _⟩ | ⟨same, instruction', also, listed', tallies⟩
  · exact absurd (Boundary.inside ⟨_, listed⟩) (Nat.lt_irrefl _)
  · obtain rfl := Boundary.eq_of_begins also listed
    exact ⟨instruction', listed', tallies⟩

/-- An offset is a boundary if it is paired with one. -/
theorem boundary (aligned : Aligned paired first second) (level : paired pc pc')
    (boundary : first.Boundary pc) : second.Boundary pc' := by
  obtain ⟨instruction, listed⟩ := boundary
  obtain ⟨instruction', listed', _⟩ := aligned.exists_listed level listed
  exact ⟨instruction', listed'⟩

/-- An offset lies inside its code if it is paired with one that does. -/
theorem inside (aligned : Aligned paired first second) (level : paired pc pc')
    (inside : pc < first.size) : pc' < second.size := by
  rcases aligned.reads pc pc' level with ⟨rfl, _⟩ | ⟨_, _, _, listed', _⟩
  · exact absurd inside (Nat.lt_irrefl _)
  · exact Boundary.inside ⟨_, listed'⟩

end Code.Aligned

/-- Two definitions are the same but for their codes, which are aligned. -/
structure Definition.Aligned {ν : Type} (paired : Nat → Nat → Prop) (first second : Definition ν) :
    Prop where
  header : second = { first with code := second.code }
  code : Code.Aligned paired first.code second.code

namespace Definition

variable {ν : Type} {paired : Nat → Nat → Prop} {first second : Definition ν}
  {limits : VerificationLimits} {pc depth : Nat}

namespace Aligned

/-- The order of the definitions does not matter. -/
theorem symm (aligned : Aligned paired first second) :
    Aligned (fun pc pc' => paired pc' pc) second first where
  header := by rw [aligned.header]
  code := aligned.code.symm

theorem locals_eq (aligned : Aligned paired first second) : second.locals = first.locals := by
  rw [aligned.header]

/-- What is in range is the same for both. -/
theorem inRange (aligned : Aligned paired first second) {instruction instruction' : Instruction}
    (widened : instruction'.widened = instruction.widened) (inRange : first.InRange instruction) :
    second.InRange instruction' := by
  have same : second.InRange instruction' ↔ first.InRange instruction' := by
    rw [aligned.header]
    cases instruction' <;> rfl
  rw [same, ← Instruction.inRange_widened, widened, Instruction.inRange_widened]
  exact inRange

end Aligned

/-- A path through one definition is a path through the other, with the same depth. -/
theorem Arrives.exists_paired (aligned : Aligned paired first second)
    (arrives : first.Arrives pc depth) : ∃ pc', paired pc pc' ∧ second.Arrives pc' depth := by
  induction arrives with
  | entry => exact ⟨0, aligned.code.start, .entry⟩
  | follow arrives listed leads ih =>
    obtain ⟨pc', level, arrives'⟩ := ih
    obtain ⟨instruction', listed', tallies⟩ := aligned.code.exists_listed level listed
    obtain ⟨target', level', leads'⟩ := tallies.exists_leads leads
    refine ⟨target', level', ?_⟩
    rw [← Instruction.after_eq_of_widened_eq tallies.widened]
    exact arrives'.follow listed' leads'

/-- Control can go to the counterpart of every offset that it can go to. -/
theorem Reaches.exists_paired (aligned : Aligned paired first second) (reached : first.Reaches pc) :
    ∃ pc', paired pc pc' ∧ second.Reaches pc' := by
  obtain ⟨depth, arrives⟩ := reached.arrives
  obtain ⟨pc', level, arrives'⟩ := arrives.exists_paired aligned
  exact ⟨pc', level, arrives'.reaches⟩

/-- Depths that agree with an instruction agree with its counterpart. -/
theorem Consistent.of_aligned (aligned : Aligned paired first second) {depth depth' : Nat → Nat}
    {pc pc' : Nat} {instruction instruction' : Instruction} (level : paired pc pc')
    (same : ∀ pc pc', paired pc pc' → depth' pc' = depth pc)
    (tallies : Instruction.Tallies paired (instruction, pc + instruction.length)
      (instruction', pc' + instruction'.length))
    (agrees : first.Consistent limits depth pc instruction) :
    second.Consistent limits depth' pc' instruction' where
  inRange := aligned.inRange tallies.widened agrees.inRange
  enough := by
    rw [same pc pc' level, ← instruction'.stackEffect_widened, tallies.widened,
      Instruction.stackEffect_widened]
    exact agrees.enough
  lands delta' branches' := by
    obtain ⟨delta, branches⟩ :=
      Instruction.exists_delta?_of_widened_eq tallies.widened.symm branches'
    obtain ⟨target, lands, boundary⟩ := agrees.lands delta branches
    obtain ⟨target', lands', level'⟩ := tallies.exists_target branches branches' lands
    exact ⟨target', lands', aligned.code.boundary level' boundary⟩
  continues falls := by
    rw [Instruction.isTerminator_eq_of_widened_eq tallies.widened] at falls
    exact aligned.code.inside tallies.next (agrees.continues falls)
  leads target' leads' := by
    obtain ⟨target, level', leads⟩ := tallies.symm.exists_leads leads'
    rw [same target target' level', same pc pc' level, agrees.leads target leads,
      Instruction.after_eq_of_widened_eq tallies.widened]
  bounded := by
    rw [aligned.locals_eq, same pc pc' level]
    exact agrees.bounded

open Classical in
/-- If one definition is well formed, the other one is, unless its code is too long. -/
theorem WellFormed.of_aligned (aligned : Aligned paired first second)
    (fits : second.code.size ≤ limits.codeLength) (formed : first.WellFormed limits) :
    second.WellFormed limits where
  filled := aligned.code.inside aligned.code.start formed.filled
  fits := fits
  readable := aligned.code.readable'
  addressable := aligned.locals_eq ▸ formed.addressable
  paired := by
    rw [aligned.header]
    exact formed.paired
  depths := by
    obtain ⟨depth, entry, consistent⟩ := formed.depths
    -- A paired offset has the depth of its counterpart.
    let depth' (pc' : Nat) : Nat :=
      if level : ∃ pc, paired pc pc' then depth level.choose else 0
    have same (pc pc' : Nat) (level : paired pc pc') : depth' pc' = depth pc := by
      have exist : ∃ pc, paired pc pc' := ⟨pc, level⟩
      simp only [depth', dif_pos exist]
      rw [aligned.code.unique' _ _ _ exist.choose_spec level]
    refine ⟨depth', (same 0 0 aligned.code.start).trans entry,
      fun pc' instruction' reached' listed' => ?_⟩
    obtain ⟨pc, level, reached⟩ := reached'.exists_paired aligned.symm
    obtain ⟨instruction, listed, tallies⟩ := aligned.symm.code.exists_listed level listed'
    exact (consistent pc instruction reached listed).of_aligned aligned level same tallies.symm

/-- Verification gives the same verdict on definitions that are aligned. -/
theorem verify_eq_ok_of_aligned (aligned : Aligned paired first second)
    (fits : second.code.size ≤ limits.codeLength) {slots : Nat}
    (accepted : first.verify limits = .ok slots) : second.verify limits = .ok slots := by
  rw [← verifyBy_first, verifyBy_iff] at accepted ⊢
  obtain ⟨formed, deepest, greatest, rfl⟩ := accepted
  refine ⟨formed.of_aligned aligned fits, deepest, ?_, by rw [aligned.locals_eq]⟩
  have same : {depth | ∃ pc, second.Arrives pc depth} = {depth | ∃ pc, first.Arrives pc depth} := by
    ext depth
    constructor
    · rintro ⟨pc', arrives'⟩
      obtain ⟨pc, _, arrives⟩ := arrives'.exists_paired aligned.symm
      exact ⟨pc, arrives⟩
    · rintro ⟨pc, arrives⟩
      obtain ⟨pc', _, arrives'⟩ := arrives.exists_paired aligned
      exact ⟨pc', arrives'⟩
  rwa [same]

end Definition

end ScriptMachine

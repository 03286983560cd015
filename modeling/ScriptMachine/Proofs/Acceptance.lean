import ScriptMachine.Proofs.Settling

/-!
# What verification accepts

A definition is well formed if one operand depth can be assigned to every instruction that control
can reach, so that each of them finds its operands, names locals and methods that exist, leads to
instructions only, and hands the depth behind it to wherever it leads. This says nothing of how
such depths are found. Verification accepts exactly the well-formed definitions, and the slots that
it computes are the locals and the greatest depth with which some path arrives somewhere. What waits
may be followed in any order: neither the verdict nor the slots depend on it.
-/

namespace ScriptMachine

variable {ν : Type}

namespace Definition

/-- Control can go from the first instruction to this offset. -/
inductive Reaches (definition : Definition ν) : Nat → Prop where
  | entry : definition.Reaches 0
  | follow {pc target : Nat} {instruction : Instruction} (reached : definition.Reaches pc)
    (listed : (pc, instruction) ∈ definition.code.instructions.instructions)
    (leads : instruction.Leads pc target) : definition.Reaches target

/-- Some path from the first instruction arrives at this offset with this operand depth. -/
inductive Arrives (definition : Definition ν) : Nat → Nat → Prop where
  | entry : definition.Arrives 0 0
  | follow {pc target depth : Nat} {instruction : Instruction}
    (arrives : definition.Arrives pc depth)
    (listed : (pc, instruction) ∈ definition.code.instructions.instructions)
    (leads : instruction.Leads pc target) : definition.Arrives target (instruction.after depth)

/-- An instruction agrees with the depths assigned to it and to the offsets it leads to. -/
structure Consistent (definition : Definition ν) (limits : VerificationLimits)
    (depth : Nat → Nat) (pc : Nat) (instruction : Instruction) : Prop where
  inRange : definition.InRange instruction
  enough : instruction.stackEffect.pops ≤ depth pc
  /-- A branch leads to the start of an instruction inside the code. -/
  lands : ∀ delta, instruction.delta? = some delta →
    ∃ target, branchTarget? (pc + instruction.length) delta = some target ∧
      definition.code.Boundary target
  /-- Control does not run past the end. -/
  continues : instruction.isTerminator = false →
    pc + instruction.length < definition.code.size
  leads : ∀ target, instruction.Leads pc target → depth target = instruction.after (depth pc)
  bounded : definition.locals + depth pc ≤ limits.stackSlots

/-- A definition that can be executed safely within the limits. -/
structure WellFormed (definition : Definition ν) (limits : VerificationLimits) : Prop where
  filled : 0 < definition.code.size
  fits : definition.code.size ≤ limits.codeLength
  readable : definition.code.instructions.error = none
  addressable : definition.locals ≤ 256
  paired : definition.params ≤ definition.locals
  /-- Every instruction that is reached has one depth, and agrees with it. -/
  depths : ∃ depth : Nat → Nat, depth 0 = 0 ∧ ∀ pc instruction, definition.Reaches pc →
    (pc, instruction) ∈ definition.code.instructions.instructions →
    definition.Consistent limits depth pc instruction

/-- Verification with a search in which `choose` says what is followed next. -/
def verifyBy (definition : Definition ν) (choose : Exploration → Nat)
    (limits : VerificationLimits) : Except VerificationError Nat := do
  let size := definition.code.size
  if limits.codeLength < size then throw (.codeTooLarge size)
  if 256 < definition.locals then throw (.tooManyLocals definition.locals)
  if definition.locals < definition.params then
    throw (.paramsExceedLocals definition.params definition.locals)
  if size = 0 then throw (.fallsOffEnd 0)
  let decoded := definition.code.instructions
  if let some error := decoded.error then throw (.undecodable error)
  let layout := Layout.ofDecoded size decoded.instructions
  let exploration ← definition.exploreBy choose layout size (.start size)
  let slots := exploration.deepest + definition.locals
  if limits.stackSlots < slots then throw (.stackTooDeep slots)
  return slots

variable {definition : Definition ν} {limits : VerificationLimits} {choose : Exploration → Nat}

/-- Verification follows what was reached last. -/
theorem verifyBy_first (definition : Definition ν) (limits : VerificationLimits) :
    definition.verifyBy (fun _ => 0) limits = definition.verify limits := by
  have same (layout : Layout) := funext₂ (definition.exploreBy_first layout)
  unfold verifyBy
  simp only [same]
  rfl

/-! ## Paths -/

/-- A path arrives where control can go. -/
theorem Arrives.reaches {pc depth : Nat} (arrives : definition.Arrives pc depth) :
    definition.Reaches pc := by
  induction arrives with
  | entry => exact .entry
  | follow _ listed leads ih => exact ih.follow listed leads

/-- Some path arrives wherever control can go. -/
theorem Reaches.arrives {pc : Nat} (reached : definition.Reaches pc) :
    ∃ depth, definition.Arrives pc depth := by
  induction reached with
  | entry => exact ⟨0, .entry⟩
  | follow _ listed leads ih =>
    obtain ⟨depth, arrives⟩ := ih
    exact ⟨_, arrives.follow listed leads⟩

/-- A terminator leaves no more operands than it finds. -/
theorem after_le_of_isTerminator {instruction : Instruction}
    (ends : instruction.isTerminator = true) (depth : Nat) : instruction.after depth ≤ depth := by
  unfold Instruction.after
  cases instruction with
  | branch test delta | longBranch test delta =>
    cases test with
    | always => exact Nat.le_refl _
    | zero | nonzero => cases ends
  | ret result => exact Nat.sub_le _ _
  | _ => cases ends

/-- Whatever instruction a path arrives at, some path is at least as deep as what is left behind the
instruction. -/
theorem Arrives.exists_after {pc depth : Nat} {instruction : Instruction}
    (arrives : definition.Arrives pc depth)
    (listed : (pc, instruction) ∈ definition.code.instructions.instructions) :
    ∃ target deep, definition.Arrives target deep ∧ instruction.after depth ≤ deep := by
  cases ends : instruction.isTerminator with
  | true => exact ⟨pc, depth, arrives, after_le_of_isTerminator ends depth⟩
  | false => exact ⟨_, _, arrives.follow listed (.next ends), Nat.le_refl _⟩

/-- All paths to an offset arrive with the depth assigned to it. -/
theorem Arrives.eq_depth {depth : Nat → Nat} (entry : depth 0 = 0)
    (consistent : ∀ pc instruction, definition.Reaches pc →
      (pc, instruction) ∈ definition.code.instructions.instructions →
      definition.Consistent limits depth pc instruction)
    {pc deep : Nat} (arrives : definition.Arrives pc deep) : deep = depth pc := by
  induction arrives with
  | entry => exact entry.symm
  | follow arrives listed leads ih =>
    have agrees := consistent _ _ arrives.reaches listed
    rw [agrees.leads _ leads, ih]

/-! ## Where depths come from -/

/-- Reaching an offset settles no other depth than its own. -/
theorem reach_origin {exploration next : Exploration} {pc depth : Nat}
    (done : exploration.reach pc depth = .ok next) :
    next.deepest = exploration.deepest ∧ ∀ other known, next.depth? other = some known →
      exploration.depth? other = some known ∨ other = pc ∧ known = depth := by
  unfold Exploration.reach at done
  split at done
  · cases done
    refine ⟨rfl, fun other known found => ?_⟩
    by_cases inside : pc < exploration.depths.size
    · rw [exploration.depth?_set inside] at found
      split at found
      · rename_i same
        exact .inr ⟨same, (Option.some.inj found).symm⟩
      · exact .inl found
    · refine .inl ?_
      simpa [Exploration.depth?, Array.setIfInBounds, inside] using found
  · split at done <;> cases done
    exact ⟨rfl, fun other known found => .inl found⟩

/-- Following an instruction settles only the depth behind it, only where the instruction leads, and
raises the greatest depth to that depth. -/
theorem follow_origin {exploration next : Exploration} {pc depth : Nat} {instruction : Instruction}
    {layout : Layout}
    (done : definition.follow layout pc instruction depth exploration = .ok next) :
    next.deepest = max exploration.deepest (instruction.after depth) ∧
      ∀ target known, next.depth? target = some known →
        exploration.depth? target = some known ∨
          instruction.Leads pc target ∧ known = instruction.after depth := by
  obtain ⟨_, _, done⟩ := bind_eq_ok.1 done
  dsimp only at done
  split at done
  · cases done
  obtain ⟨branched, branching, falling⟩ := bind_eq_ok.1 done
  have first : branched.deepest = max exploration.deepest (instruction.after depth) ∧
      ∀ target known, branched.depth? target = some known →
        exploration.depth? target = some known ∨
          instruction.Leads pc target ∧ known = instruction.after depth := by
    unfold followBranch at branching
    split at branching
    · cases branching
      exact ⟨rfl, fun target known found => .inl found⟩
    · rename_i delta branches
      split at branching
      · cases branching
      rename_i landing lands
      split at branching
      · obtain ⟨same, origin⟩ := reach_origin branching
        refine ⟨same, fun target known found => (origin target known found).imp_right ?_⟩
        rintro ⟨rfl, rfl⟩
        exact ⟨.branch branches lands, rfl⟩
      · cases branching
  unfold followNext at falling
  split at falling
  · cases falling
    exact first
  · rename_i falls
    split at falling
    · obtain ⟨same, origin⟩ := reach_origin falling
      refine ⟨same.trans first.1, fun target known found => ?_⟩
      rcases origin target known found with earlier | ⟨rfl, rfl⟩
      · exact first.2 target known earlier
      · exact .inr ⟨.next (Bool.eq_false_iff.2 falls), rfl⟩
    · cases falling

/-- The depths of a search are depths with which paths arrive, and some path arrives with the
greatest one or a greater one. -/
structure Tracks (definition : Definition ν) (exploration : Exploration) : Prop where
  arrives : ∀ pc depth, exploration.depth? pc = some depth → definition.Arrives pc depth
  attained : ∃ pc depth, definition.Arrives pc depth ∧ exploration.deepest ≤ depth

namespace Tracks

variable {exploration next : Exploration}

/-- A search begins with the empty path. -/
theorem initial (definition : Definition ν) (size : Nat) : definition.Tracks (.start size) where
  arrives pc depth known := by
    have origin : pc = 0 ∧ depth = 0 := by
      simp only [Exploration.start, Exploration.depth?, Array.set!_eq_setIfInBounds,
        Array.getElem?_setIfInBounds, Array.getElem?_replicate] at known
      grind
    obtain ⟨rfl, rfl⟩ := origin
    exact .entry
  attained := ⟨0, 0, .entry, Nat.le_refl _⟩

/-- The order of what waits does not matter. -/
theorem promote (tracks : definition.Tracks exploration) (position : Nat) :
    definition.Tracks (exploration.promote position) := by
  obtain ⟨depths, deepest, _⟩ := exploration.promote_perm position
  refine ⟨fun pc depth known => tracks.arrives pc depth ?_, deepest.symm ▸ tracks.attained⟩
  rwa [Exploration.depth?, depths] at known

/-- Following an instruction extends the paths to it. -/
theorem follow {pc depth : Nat} {instruction : Instruction} {layout : Layout}
    (tracks : definition.Tracks exploration)
    (listed : (pc, instruction) ∈ definition.code.instructions.instructions)
    (known : exploration.depth? pc = some depth) (pending : List Nat)
    (done : definition.follow layout pc instruction depth { exploration with pending } =
      .ok next) :
    definition.Tracks next := by
  have here := tracks.arrives pc depth known
  obtain ⟨deepest, origin⟩ := follow_origin done
  refine ⟨fun target deep found => ?_, ?_⟩
  · rcases origin target deep found with earlier | ⟨leads, rfl⟩
    · exact tracks.arrives target deep earlier
    · exact here.follow listed leads
  · obtain ⟨place, deep, arrives, above⟩ := tracks.attained
    obtain ⟨behind, left, arrivesLeft, aboveLeft⟩ := here.exists_after listed
    rw [deepest]
    -- The greater one of the two depths is attained.
    rcases Nat.le_total (exploration.deepest) (instruction.after depth) with smaller | greater
    · exact ⟨behind, left, arrivesLeft, Nat.max_le.2 ⟨Nat.le_trans smaller aboveLeft, aboveLeft⟩⟩
    · exact ⟨place, deep, arrives, Nat.max_le.2 ⟨above, Nat.le_trans greater above⟩⟩

/-- The depths that a search ends with are depths with which paths arrive. -/
theorem exploreBy {rounds : Nat} (tracks : definition.Tracks exploration)
    (done : definition.exploreBy choose definition.layout rounds exploration = .ok next) :
    definition.Tracks next := by
  induction rounds generalizing exploration with
  | zero =>
    cases done
    exact tracks
  | succ rounds ih =>
    unfold Definition.exploreBy at done
    dsimp only at done
    replace tracks := tracks.promote (choose exploration)
    generalize exploration.promote (choose exploration) = exploration at tracks done
    split at done
    · cases done
      exact tracks
    · split at done
      · rename_i held known
        obtain ⟨followed, following, exploring⟩ := bind_eq_ok.1 done
        exact ih (tracks.follow (mem_of_layout held) known _ following) exploring
      · refine ih ?_ done
        exact ⟨tracks.arrives, tracks.attained⟩

end Tracks

/-! ## What is accepted is well formed -/

/-- Every path arrives with the settled depth. -/
theorem Settled.depth_of_arrives {depth : Nat → Option Nat} {deepest pc before : Nat}
    (settled : definition.Settled depth deepest) (arrives : definition.Arrives pc before) :
    depth pc = some before := by
  induction arrives with
  | entry => exact settled.start
  | follow _ listed leads known =>
    obtain ⟨instruction, also, settles⟩ := settled.settles _ _ known
    obtain rfl := Code.Boundary.eq_of_begins listed also
    exact settles.leads _ leads

/-- The depths with which a search ends agree with every instruction that is reached. -/
theorem Searching.consistent {exploration : Exploration} {rounds pc : Nat}
    {instruction : Instruction} (searching : definition.Searching exploration rounds)
    (nothing : exploration.pending = [])
    (bounded : definition.locals + exploration.deepest ≤ limits.stackSlots)
    (reached : definition.Reaches pc)
    (listed : (pc, instruction) ∈ definition.code.instructions.instructions) :
    definition.Consistent limits (fun pc => (exploration.depth? pc).getD 0) pc instruction := by
  have settled := searching.result nothing
  obtain ⟨before, arrives⟩ := reached.arrives
  have known := settled.depth_of_arrives arrives
  obtain ⟨same, also, settles⟩ := settled.settles pc before known
  obtain rfl := Code.Boundary.eq_of_begins listed also
  have boundary : ∀ target, instruction.Leads pc target → definition.code.Boundary target :=
    fun target leads => (searching.deep target _ (settles.leads target leads)).2
  refine ⟨settles.inRange, ?_, fun delta branches => ?_, fun falls => ?_, fun target leads => ?_,
    ?_⟩
  · simpa [known] using settles.enough
  · obtain ⟨target, lands⟩ := settles.lands delta branches
    exact ⟨target, lands, boundary target (.branch branches lands)⟩
  · exact (boundary _ (.next falls)).inside
  · simp [known, settles.leads target leads]
  · have below := settled.deep pc before known
    simp only [known, Option.getD_some]
    omega

/-! ## What is well formed is accepted -/

namespace WellFormed

/-- Control goes to instructions only. -/
theorem boundary (formed : definition.WellFormed limits) {pc : Nat}
    (reached : definition.Reaches pc) : definition.code.Boundary pc := by
  obtain ⟨depth, entry, consistent⟩ := formed.depths
  cases reached with
  | entry => exact .start formed.readable formed.filled
  | follow reached listed leads =>
    have agrees := consistent _ _ reached listed
    cases leads with
    | branch branches lands =>
      obtain ⟨target, also, boundary⟩ := agrees.lands _ branches
      obtain rfl := Option.some.inj (lands.symm.trans also)
      exact boundary
    | next falls => exact .next formed.readable listed (agrees.continues falls)

end WellFormed

/-- Reaching an offset succeeds with the only depth that it can have. -/
theorem reach_succeeds {exploration : Exploration} {pc depth : Nat}
    (agrees : ∀ known, exploration.depth? pc = some known → known = depth) :
    ∃ next, exploration.reach pc depth = .ok next := by
  unfold Exploration.reach
  split
  · exact ⟨_, rfl⟩
  · rename_i known found
    rw [if_pos (agrees known found)]
    exact ⟨_, rfl⟩

/-- Indices that name what exists pass the check. -/
theorem checkIndices_of_inRange {pc : Nat} {instruction : Instruction}
    (inRange : definition.InRange instruction) :
    definition.checkIndices pc instruction = .ok () := by
  cases instruction with
  | localLoad index | localStore index | native _ _ _ index => exact if_pos inRange
  | _ => rfl

/-- Following a consistent instruction succeeds, if all depths so far are the assigned ones. -/
theorem Consistent.follow {depth : Nat → Nat} {pc : Nat} {instruction : Instruction}
    {exploration : Exploration} (agrees : definition.Consistent limits depth pc instruction)
    (assigned : ∀ other known, exploration.depth? other = some known → known = depth other) :
    ∃ next, definition.follow definition.layout pc instruction (depth pc) exploration =
      .ok next := by
  let raised : Exploration :=
    { exploration with deepest := max exploration.deepest (instruction.after (depth pc)) }
  have branches : ∃ branched,
      followBranch definition.layout pc instruction (instruction.after (depth pc)) raised =
        .ok branched ∧
      ∀ other known, branched.depth? other = some known → known = depth other := by
    unfold followBranch
    split
    · exact ⟨_, rfl, assigned⟩
    · rename_i delta found
      obtain ⟨target, lands, boundary⟩ := agrees.lands delta found
      have assignedTarget := agrees.leads target (.branch found lands)
      obtain ⟨next, reaching⟩ : ∃ next,
          raised.reach target (instruction.after (depth pc)) = .ok next :=
        reach_succeeds fun known held => (assigned target known held).trans assignedTarget
      simp only [lands, layout_isSome boundary, if_true]
      refine ⟨next, reaching, fun other known held => ?_⟩
      rcases (reach_origin reaching).2 other known held with earlier | ⟨rfl, rfl⟩
      · exact assigned other known earlier
      · exact assignedTarget.symm
  obtain ⟨branched, branching, stillAssigned⟩ := branches
  have continues : ∃ next,
      followNext definition.layout pc instruction (instruction.after (depth pc)) branched =
        .ok next := by
    unfold followNext
    split
    · exact ⟨_, rfl⟩
    · rename_i falls
      have falls := Bool.eq_false_iff.2 falls
      have inside : pc + instruction.length < definition.layout.size := by
        rw [layout, (Layout.at?_ofDecoded _ _).1]
        exact agrees.continues falls
      rw [if_pos inside]
      exact reach_succeeds fun known held =>
        (stillAssigned _ known held).trans (agrees.leads _ (.next falls))
  obtain ⟨next, falling⟩ := continues
  refine ⟨next, ?_⟩
  unfold Definition.follow
  rw [checkIndices_of_inRange agrees.inRange]
  refine bind_eq_ok.2 ⟨(), rfl, ?_⟩
  dsimp only
  rw [if_neg (Nat.not_lt.2 agrees.enough)]
  exact bind_eq_ok.2 ⟨branched, branching, falling⟩

/-- A search through a well-formed definition succeeds, whatever it follows first. -/
theorem WellFormed.exploreBy (formed : definition.WellFormed limits) {exploration : Exploration}
    {rounds : Nat} (searching : definition.Searching exploration rounds)
    (tracks : definition.Tracks exploration) :
    ∃ next, definition.exploreBy choose definition.layout rounds exploration = .ok next := by
  obtain ⟨depth, entry, consistent⟩ := formed.depths
  induction rounds generalizing exploration with
  | zero => exact ⟨_, rfl⟩
  | succ rounds ih =>
    unfold Definition.exploreBy
    dsimp only
    replace searching := searching.promote (choose exploration)
    replace tracks := tracks.promote (choose exploration)
    generalize exploration.promote (choose exploration) = exploration at searching tracks
    split
    · exact ⟨_, rfl⟩
    · rename_i pc pending first
      have waiting : pc ∈ exploration.pending := by simp [first]
      obtain ⟨before, known⟩ := Option.isSome_iff_exists.1 (searching.waits pc waiting)
      have boundary := (searching.deep pc before known).2
      obtain ⟨instruction, held⟩ := Option.isSome_iff_exists.1 (layout_isSome boundary)
      have listed := mem_of_layout held
      have arrives := tracks.arrives pc before known
      obtain rfl := arrives.eq_depth entry consistent
      have agrees := consistent pc instruction arrives.reaches listed
      obtain ⟨followed, following⟩ : ∃ followed, definition.follow definition.layout pc instruction
          (depth pc) { exploration with pending } = .ok followed :=
        agrees.follow fun other deep found =>
          (tracks.arrives other deep found).eq_depth entry consistent
      obtain ⟨next, exploring⟩ :=
        ih (searching.follow formed.readable first listed known following)
          (tracks.follow listed known _ following)
      rw [held, known]
      exact ⟨next, bind_eq_ok.2 ⟨followed, following, exploring⟩⟩

/-! ## The verdict -/

/-- Verification succeeds if every check does. -/
theorem verifyBy_eq_ok {slots : Nat} :
    definition.verifyBy choose limits = .ok slots ↔
      definition.code.size ≤ limits.codeLength ∧ definition.locals ≤ 256 ∧
      definition.params ≤ definition.locals ∧ 0 < definition.code.size ∧
      definition.code.instructions.error = none ∧ ∃ exploration,
        definition.exploreBy choose definition.layout definition.code.size
          (.start definition.code.size) = .ok exploration ∧
        exploration.deepest + definition.locals ≤ limits.stackSlots ∧
        exploration.deepest + definition.locals = slots := by
  constructor
  · intro done
    unfold verifyBy at done
    dsimp only at done
    split at done
    · cases done
    rename_i fits
    split at done
    · cases done
    rename_i addressable
    split at done
    · cases done
    rename_i paired
    split at done
    · cases done
    rename_i filled
    split at done
    · cases done
    rename_i readable
    obtain ⟨exploration, exploring, bounding⟩ := bind_eq_ok.1 done
    split at bounding
    · cases bounding
    rename_i bounded
    exact ⟨Nat.le_of_not_lt fits, Nat.le_of_not_lt addressable, Nat.le_of_not_lt paired,
      Nat.pos_of_ne_zero filled, Option.eq_none_iff_forall_ne_some.2 readable, exploration,
      exploring, Nat.le_of_not_lt bounded, Except.ok.inj bounding⟩
  · rintro ⟨fits, addressable, paired, filled, readable, exploration, exploring, bounded, rfl⟩
    unfold verifyBy
    simp only [Nat.not_lt.2 fits, Nat.not_lt.2 addressable, Nat.not_lt.2 paired,
      Nat.ne_of_gt filled, readable, if_false]
    refine bind_eq_ok.2 ⟨exploration, exploring, ?_⟩
    rw [if_neg (Nat.not_lt.2 bounded)]
    rfl

/-- A search that ends well has found a definition well formed and its greatest depth, if the slots
suffice. -/
theorem WellFormed.of_exploreBy {exploration : Exploration}
    (fits : definition.code.size ≤ limits.codeLength) (addressable : definition.locals ≤ 256)
    (paired : definition.params ≤ definition.locals) (filled : 0 < definition.code.size)
    (readable : definition.code.instructions.error = none)
    (exploring : definition.exploreBy choose definition.layout definition.code.size
      (.start definition.code.size) = .ok exploration)
    (bounded : definition.locals + exploration.deepest ≤ limits.stackSlots) :
    definition.WellFormed limits := by
  obtain ⟨_, searching, nothing⟩ :=
    (Searching.initial readable filled).exploreBy readable exploring
  refine ⟨filled, fits, readable, addressable, paired,
    fun pc => (exploration.depth? pc).getD 0, ?_, fun pc instruction reached listed => ?_⟩
  · simp [searching.start]
  · exact searching.consistent nothing bounded reached listed

/-- The greatest depth of a search is the greatest one with which a path arrives somewhere. -/
theorem isGreatest_deepest {exploration : Exploration} (filled : 0 < definition.code.size)
    (readable : definition.code.instructions.error = none)
    (exploring : definition.exploreBy choose definition.layout definition.code.size
      (.start definition.code.size) = .ok exploration) :
    IsGreatest {depth | ∃ pc, definition.Arrives pc depth} exploration.deepest := by
  obtain ⟨_, searching, nothing⟩ :=
    (Searching.initial readable filled).exploreBy readable exploring
  have settled := searching.result nothing
  have tracks := (Tracks.initial definition _).exploreBy exploring
  have below : ∀ pc depth, definition.Arrives pc depth → depth ≤ exploration.deepest := by
    intro pc depth arrives
    exact settled.deep pc depth (settled.depth_of_arrives arrives)
  obtain ⟨pc, depth, arrives, above⟩ := tracks.attained
  obtain rfl := Nat.le_antisymm above (below pc depth arrives)
  refine ⟨⟨pc, arrives⟩, ?_⟩
  rintro other ⟨place, arrives⟩
  exact below place other arrives

/-- Whatever is followed first, verification accepts exactly the well-formed definitions, and counts
the locals and the greatest depth with which some path arrives somewhere. -/
theorem verifyBy_iff {slots : Nat} :
    definition.verifyBy choose limits = .ok slots ↔ definition.WellFormed limits ∧
      ∃ deepest, IsGreatest {depth | ∃ pc, definition.Arrives pc depth} deepest ∧
        slots = definition.locals + deepest := by
  rw [verifyBy_eq_ok]
  constructor
  · rintro ⟨fits, addressable, paired, filled, readable, exploration, exploring, bounded, rfl⟩
    rw [Nat.add_comm] at bounded
    exact ⟨.of_exploreBy fits addressable paired filled readable exploring bounded,
      exploration.deepest, isGreatest_deepest filled readable exploring, Nat.add_comm ..⟩
  · rintro ⟨formed, deepest, greatest, rfl⟩
    obtain ⟨exploration, exploring⟩ : ∃ exploration,
        definition.exploreBy choose definition.layout definition.code.size
          (.start definition.code.size) = .ok exploration :=
      formed.exploreBy (.initial formed.readable formed.filled) (.initial definition _)
    obtain rfl := greatest.unique (isGreatest_deepest formed.filled formed.readable exploring)
    refine ⟨formed.fits, formed.addressable, formed.paired, formed.filled, formed.readable,
      exploration, exploring, ?_, Nat.add_comm ..⟩
    -- Some path arrives at an instruction with the greatest depth.
    obtain ⟨pc, arrives⟩ := greatest.1
    obtain ⟨depth, entry, consistent⟩ := formed.depths
    obtain ⟨instruction, listed⟩ := formed.boundary arrives.reaches
    have bounded := (consistent pc instruction arrives.reaches listed).bounded
    rw [← arrives.eq_depth entry consistent] at bounded
    omega

/-- Verification accepts exactly the well-formed definitions. The slots that it computes are the
locals and the greatest depth with which some path from the first instruction arrives somewhere. The
order in which it follows what it has reached makes no difference to that. -/
theorem verify_accepts_exactly_wellFormed (definition : Definition ν) (limits : VerificationLimits)
    (slots : Nat) :
    (definition.verify limits = .ok slots ↔ definition.WellFormed limits ∧
      ∃ deepest, IsGreatest {depth | ∃ pc, definition.Arrives pc depth} deepest ∧
        slots = definition.locals + deepest) ∧
    ∀ choose, definition.verifyBy choose limits = .ok slots ↔
      definition.verify limits = .ok slots := by
  rw [← verifyBy_first]
  exact ⟨verifyBy_iff, fun choose => verifyBy_iff.trans verifyBy_iff.symm⟩

end Definition

end ScriptMachine

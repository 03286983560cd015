import ScriptMachine.Proofs.Decoding
import ScriptMachine.Proofs.Tables

/-!
# What verification settles

Verification gives each instruction that control can reach one operand depth. The depths it ends
with agree with each other: an instruction that has one finds its operands, keeps below the
greatest depth, names locals and methods that exist, and leads only to instructions that have the
depth it leaves behind. The search goes on until no reached instruction waits to be followed, and it
has rounds enough for that because each round consumes one of the instructions that wait and only
instructions reached for the first time begin to.
-/

namespace ScriptMachine

variable {ν : Type}

/-- The operand depth behind an instruction that is entered with the given depth. -/
def Instruction.after (instruction : Instruction) (depth : Nat) : Nat :=
  depth - instruction.stackEffect.pops + instruction.stackEffect.pushes

/-- The offsets to which control can go from an instruction. -/
inductive Instruction.Leads (pc : Nat) (instruction : Instruction) : Nat → Prop where
  | branch {delta : Int} {target : Nat} (branches : instruction.delta? = some delta)
    (lands : branchTarget? (pc + instruction.length) delta = some target) :
    instruction.Leads pc target
  | next (falls : instruction.isTerminator = false) :
    instruction.Leads pc (pc + instruction.length)

namespace Definition

/-- The local or the native method that an instruction names exists. -/
def InRange (definition : Definition ν) : Instruction → Prop
  | .localLoad index | .localStore index => index.toNat < definition.locals
  | .native _ _ _ method => method.toNat < definition.methods.size
  | _ => True

/-- An instruction agrees with the depth it is entered with, the depths of the instructions it leads
to, and the greatest depth. -/
structure SettlesAt (definition : Definition ν) (depth : Nat → Option Nat) (deepest pc : Nat)
    (instruction : Instruction) (before : Nat) : Prop where
  inRange : definition.InRange instruction
  enough : instruction.stackEffect.pops ≤ before
  bounded : instruction.after before ≤ deepest
  /-- A branch leads somewhere. -/
  lands : ∀ delta, instruction.delta? = some delta →
    ∃ target, branchTarget? (pc + instruction.length) delta = some target
  leads : ∀ target, instruction.Leads pc target → depth target = some (instruction.after before)

/-- Operand depths under which control can go from the first instruction to no place without a depth
of its own. -/
structure Settled (definition : Definition ν) (depth : Nat → Option Nat) (deepest : Nat) :
    Prop where
  start : depth 0 = some 0
  deep : ∀ pc before, depth pc = some before → before ≤ deepest
  settles : ∀ pc before, depth pc = some before → ∃ instruction,
    (pc, instruction) ∈ definition.code.instructions.instructions ∧
      definition.SettlesAt depth deepest pc instruction before

/-- An instruction still agrees with its depth after more depths are known. -/
theorem SettlesAt.mono {definition : Definition ν} {depth later : Nat → Option Nat}
    {deepest deeper pc before : Nat} {instruction : Instruction}
    (settles : definition.SettlesAt depth deepest pc instruction before)
    (kept : ∀ pc before, depth pc = some before → later pc = some before)
    (grown : deepest ≤ deeper) : definition.SettlesAt later deeper pc instruction before where
  inRange := settles.inRange
  enough := settles.enough
  bounded := Nat.le_trans settles.bounded grown
  lands := settles.lands
  leads target leads := kept target _ (settles.leads target leads)

/-- The instructions of a definition by their offsets. -/
def layout (definition : Definition ν) : Layout :=
  .ofDecoded definition.code.size definition.code.instructions.instructions

/-- What a layout holds at an offset was read there. -/
theorem mem_of_layout {definition : Definition ν} {pc : Nat} {instruction : Instruction}
    (found : definition.layout.at? pc = some instruction) :
    (pc, instruction) ∈ definition.code.instructions.instructions :=
  (Layout.at?_ofDecoded _ _).2.1 pc instruction found

/-- The layout holds an instruction at every boundary. -/
theorem layout_isSome {definition : Definition ν} {pc : Nat}
    (boundary : definition.code.Boundary pc) : (definition.layout.at? pc).isSome := by
  have inside := boundary.inside
  obtain ⟨instruction, listed⟩ := boundary
  exact (Layout.at?_ofDecoded _ _).2.2 pc instruction inside listed

end Definition

namespace Exploration

/-- The number of offsets without a depth. -/
def unreached (exploration : Exploration) : Nat := exploration.depths.countP Option.isNone

/-- Going on with a search keeps what is settled. Whatever it reaches for the first time is a
boundary, waits to be followed, and makes up for it in the number of offsets without a depth. -/
structure Grows (code : Code) (before after : Exploration) : Prop where
  size : after.depths.size = before.depths.size
  deepest : before.deepest ≤ after.deepest
  kept : ∀ pc depth, before.depth? pc = some depth → after.depth? pc = some depth
  fresh : ∀ pc depth, after.depth? pc = some depth → before.depth? pc = some depth ∨
    pc ∈ after.pending ∧ code.Boundary pc ∧ depth ≤ after.deepest
  waits : ∀ pc ∈ before.pending, pc ∈ after.pending
  reached : ∀ pc ∈ after.pending, pc ∈ before.pending ∨ (after.depth? pc).isSome
  rounds : after.pending.length + after.unreached ≤ before.pending.length + before.unreached

namespace Grows

variable {code : Code} {before middle after : Exploration}

/-- A search that does not go on. -/
theorem refl (code : Code) (exploration : Exploration) : Grows code exploration exploration where
  size := rfl
  deepest := Nat.le_refl _
  kept _ _ known := known
  fresh _ _ known := .inl known
  waits _ waiting := waiting
  reached _ waiting := .inl waiting
  rounds := Nat.le_refl _

/-- A search that goes on twice. -/
theorem trans (first : Grows code before middle) (second : Grows code middle after) :
    Grows code before after where
  size := second.size.trans first.size
  deepest := Nat.le_trans first.deepest second.deepest
  kept pc depth known := second.kept pc depth (first.kept pc depth known)
  fresh pc depth known := by
    rcases second.fresh pc depth known with earlier | fresh
    · rcases first.fresh pc depth earlier with initial | ⟨waiting, boundary, bounded⟩
      · exact .inl initial
      · exact .inr ⟨second.waits pc waiting, boundary, Nat.le_trans bounded second.deepest⟩
    · exact .inr fresh
  waits pc waiting := second.waits pc (first.waits pc waiting)
  reached pc waiting := by
    rcases second.reached pc waiting with earlier | known
    · rcases first.reached pc earlier with initial | known
      · exact .inl initial
      · obtain ⟨depth, found⟩ := Option.isSome_iff_exists.1 known
        exact .inr (Option.isSome_iff_exists.2 ⟨depth, second.kept pc depth found⟩)
    · exact .inr known
  rounds := Nat.le_trans second.rounds first.rounds

/-- The greatest depth may be raised at any time. -/
theorem deepen (code : Code) (exploration : Exploration) (depth : Nat) :
    Grows code exploration { exploration with deepest := max exploration.deepest depth } where
  size := rfl
  deepest := Nat.le_max_left ..
  kept _ _ known := known
  fresh _ _ known := .inl known
  waits _ waiting := waiting
  reached _ waiting := .inl waiting
  rounds := Nat.le_refl _

end Grows

/-- Setting the depth of an offset. -/
theorem depth?_set (exploration : Exploration) {pc : Nat} (inside : pc < exploration.depths.size)
    (depth other : Nat) (pending : List Nat) (deepest : Nat) :
    depth? ⟨exploration.depths.set! pc (some depth), pending, deepest⟩ other =
      if other = pc then some depth else exploration.depth? other := by
  simp only [depth?, Array.set!_eq_setIfInBounds, Array.getElem?_setIfInBounds]
  by_cases same : other = pc
  · subst same
    simp [inside]
  · have apart : pc ≠ other := fun h => same h.symm
    simp [same, apart]

/-- Setting the depth of an offset that had none leaves one fewer without. -/
theorem unreached_set (exploration : Exploration) {pc : Nat}
    (inside : pc < exploration.depths.size) (unknown : exploration.depth? pc = none)
    (depth : Nat) (pending : List Nat) (deepest : Nat) :
    unreached ⟨exploration.depths.set! pc (some depth), pending, deepest⟩ + 1 =
      exploration.unreached := by
  have empty : exploration.depths[pc] = none := by
    unfold depth? at unknown
    rw [Array.getElem?_eq_getElem inside] at unknown
    exact unknown
  have counted : 0 < exploration.depths.countP Option.isNone :=
    Array.countP_pos_iff.2 ⟨_, Array.getElem_mem inside, by rw [empty]; rfl⟩
  simp only [unreached, Array.set!_eq_setIfInBounds, Array.setIfInBounds, inside, ↓reduceDIte]
  rw [Array.countP_set inside, empty]
  simp only [Option.isNone_none, Option.isNone_some, ↓reduceIte, Bool.false_eq_true]
  omega

/-- The instruction that waits at a position, if there is one, becomes the next one. -/
def promote (exploration : Exploration) (position : Nat) : Exploration :=
  match exploration.pending[position]? with
  | some pc => { exploration with pending := pc :: exploration.pending.eraseIdx position }
  | none => exploration

/-- The first instruction that waits is the next one anyway. -/
theorem promote_zero (exploration : Exploration) : exploration.promote 0 = exploration := by
  obtain ⟨depths, pending, deepest⟩ := exploration
  cases pending with
  | nil => rfl
  | cons pc pending => rfl

/-- Only the order changes of what waits. -/
theorem promote_perm (exploration : Exploration) (position : Nat) :
    (exploration.promote position).depths = exploration.depths ∧
      (exploration.promote position).deepest = exploration.deepest ∧
      (exploration.promote position).pending.Perm exploration.pending := by
  unfold promote
  split
  · rename_i pc found
    obtain ⟨inside, same⟩ := List.getElem?_eq_some_iff.1 found
    have order := List.getElem_cons_eraseIdx_perm inside
    rw [same] at order
    exact ⟨rfl, rfl, order⟩
  · exact ⟨rfl, rfl, .refl _⟩

/-- Reaching a boundary settles its depth. -/
theorem reach_eq_ok {code : Code} {exploration next : Exploration} {pc depth : Nat}
    (sized : exploration.depths.size = code.size) (boundary : code.Boundary pc)
    (bounded : depth ≤ exploration.deepest) (done : exploration.reach pc depth = .ok next) :
    Grows code exploration next ∧ next.deepest = exploration.deepest ∧
      next.depth? pc = some depth := by
  unfold reach at done
  split at done
  · rename_i unknown
    cases done
    have inside : pc < exploration.depths.size := sized ▸ boundary.inside
    have depths := exploration.depth?_set inside depth
    have count := exploration.unreached_set inside unknown depth (pc :: exploration.pending)
      exploration.deepest
    refine ⟨⟨by simp, Nat.le_refl _, ?_, ?_, ?_, ?_, ?_⟩, rfl, ?_⟩
    · intro other known found
      rw [depths]
      grind
    · intro other known found
      rw [depths] at found
      grind
    · exact fun other waiting => List.mem_cons_of_mem _ waiting
    · intro other waiting
      rw [depths]
      grind
    · simp only [List.length_cons]
      omega
    · rw [depths, if_pos rfl]
  · rename_i known found
    split at done <;> cases done
    rename_i same
    exact ⟨.refl code exploration, rfl, found.trans (congrArg some same)⟩

end Exploration

namespace Definition

variable {definition : Definition ν}

/-- Following the branch of an instruction settles the depth of the offset it leads to. -/
theorem followBranch_eq_ok {exploration next : Exploration} {pc depth : Nat}
    {instruction : Instruction} (sized : exploration.depths.size = definition.code.size)
    (bounded : depth ≤ exploration.deepest)
    (done : followBranch definition.layout pc instruction depth exploration = .ok next) :
    Exploration.Grows definition.code exploration next ∧ next.deepest = exploration.deepest ∧
      ∀ delta, instruction.delta? = some delta →
        ∃ target, branchTarget? (pc + instruction.length) delta = some target ∧
          next.depth? target = some depth := by
  unfold followBranch at done
  split at done
  · rename_i straight
    cases done
    exact ⟨.refl _ _, rfl, fun delta branches => by simp [straight] at branches⟩
  · rename_i delta branches
    split at done
    · cases done
    · rename_i target lands
      split at done
      · rename_i held
        obtain ⟨landed, found⟩ := Option.isSome_iff_exists.1 held
        obtain ⟨grows, same, known⟩ :=
          Exploration.reach_eq_ok sized ⟨landed, mem_of_layout found⟩ bounded done
        refine ⟨grows, same, fun other again => ⟨target, ?_, known⟩⟩
        obtain rfl := Option.some.inj (branches.symm.trans again)
        exact lands
      · cases done

/-- Following control to the next instruction settles its depth, if control can go there. -/
theorem followNext_eq_ok {exploration next : Exploration} {pc depth : Nat}
    {instruction : Instruction} (sound : definition.code.instructions.error = none)
    (listed : (pc, instruction) ∈ definition.code.instructions.instructions)
    (sized : exploration.depths.size = definition.code.size)
    (bounded : depth ≤ exploration.deepest)
    (done : followNext definition.layout pc instruction depth exploration = .ok next) :
    Exploration.Grows definition.code exploration next ∧ next.deepest = exploration.deepest ∧
      (instruction.isTerminator = false →
        next.depth? (pc + instruction.length) = some depth) := by
  unfold followNext at done
  split at done
  · rename_i leaves
    cases done
    exact ⟨.refl _ _, rfl, fun falls => by simp [leaves] at falls⟩
  · split at done
    · rename_i more
      rw [layout, (Layout.at?_ofDecoded _ _).1] at more
      obtain ⟨grows, same, known⟩ :=
        Exploration.reach_eq_ok sized (Code.Boundary.next sound listed more) bounded done
      exact ⟨grows, same, fun _ => known⟩
    · cases done

/-- An instruction whose indices pass the check names what exists. -/
theorem inRange_of_checkIndices {pc : Nat} {instruction : Instruction}
    (done : definition.checkIndices pc instruction = .ok ()) : definition.InRange instruction := by
  cases instruction with
  | localLoad index | localStore index | native _ _ _ index =>
    simp only [checkIndices] at done
    split at done
    · assumption
    · cases done
  | _ => trivial

/-- Following every way out of an instruction makes it agree with its depth. -/
theorem follow_eq_ok {exploration next : Exploration} {pc depth : Nat}
    {instruction : Instruction} (sound : definition.code.instructions.error = none)
    (listed : (pc, instruction) ∈ definition.code.instructions.instructions)
    (sized : exploration.depths.size = definition.code.size)
    (done : definition.follow definition.layout pc instruction depth exploration = .ok next) :
    Exploration.Grows definition.code exploration next ∧
      definition.SettlesAt next.depth? next.deepest pc instruction depth := by
  obtain ⟨_, checked, done⟩ := bind_eq_ok.1 done
  dsimp only at done
  split at done
  · cases done
  · rename_i enough
    obtain ⟨branched, branching, falling⟩ := bind_eq_ok.1 done
    have deepened := Exploration.Grows.deepen definition.code exploration (instruction.after depth)
    have reaching : instruction.after depth ≤ max exploration.deepest (instruction.after depth) :=
      Nat.le_max_right ..
    obtain ⟨first, sameFirst, branches⟩ :=
      followBranch_eq_ok (deepened.size.trans sized) reaching branching
    have bounded : instruction.after depth ≤ branched.deepest := by
      rw [sameFirst]
      exact reaching
    obtain ⟨second, sameSecond, falls⟩ :=
      followNext_eq_ok sound listed (first.size.trans (deepened.size.trans sized)) bounded falling
    refine ⟨deepened.trans (first.trans second), inRange_of_checkIndices checked, ?_, ?_, ?_, ?_⟩
    · exact Nat.le_of_not_lt enough
    · rw [sameSecond]
      exact bounded
    · intro delta found
      obtain ⟨target, lands, _⟩ := branches delta found
      exact ⟨target, lands⟩
    · intro target leads
      cases leads with
      | next straight => exact falls straight
      | branch found lands =>
        obtain ⟨other, same, known⟩ := branches _ found
        obtain rfl := Option.some.inj (same.symm.trans lands)
        exact second.kept _ _ known

/-- A search in which `choose` says at each round which of the instructions that wait is followed
next. -/
def exploreBy (definition : Definition ν) (choose : Exploration → Nat) (layout : Layout) :
    Nat → Exploration → Except VerificationError Exploration
  | 0, exploration => .ok exploration
  | rounds + 1, exploration =>
    let exploration := exploration.promote (choose exploration)
    match exploration.pending with
    | [] => .ok exploration
    | pc :: pending =>
      match layout.at? pc, exploration.depth? pc with
      | some instruction, some depth => do
        let exploration ←
          definition.follow layout pc instruction depth { exploration with pending }
        exploreBy definition choose layout rounds exploration
      | _, _ => exploreBy definition choose layout rounds { exploration with pending }

/-- Verification always follows the first instruction that waits. -/
theorem exploreBy_first (layout : Layout) (rounds : Nat) (exploration : Exploration) :
    definition.exploreBy (fun _ => 0) layout rounds exploration =
      definition.explore layout rounds exploration := by
  induction rounds generalizing exploration with
  | zero => rfl
  | succ rounds ih =>
    have same := funext ih
    unfold exploreBy
    rw [exploration.promote_zero, same]
    rfl

/-- The state of a search: what is reached lies at boundaries below the greatest depth, what is not
followed yet waits, and there are rounds enough to follow all that waits and all that may still be
reached. -/
structure Searching (definition : Definition ν) (exploration : Exploration) (rounds : Nat) :
    Prop where
  size : exploration.depths.size = definition.code.size
  start : exploration.depth? 0 = some 0
  deep : ∀ pc before, exploration.depth? pc = some before →
    before ≤ exploration.deepest ∧ definition.code.Boundary pc
  waits : ∀ pc ∈ exploration.pending, (exploration.depth? pc).isSome
  settled : ∀ pc before, exploration.depth? pc = some before → pc ∈ exploration.pending ∨
    ∃ instruction, (pc, instruction) ∈ definition.code.instructions.instructions ∧
      definition.SettlesAt exploration.depth? exploration.deepest pc instruction before
  rounds : exploration.pending.length + exploration.unreached ≤ rounds

namespace Searching

variable {exploration next : Exploration} {rounds : Nat}

/-- A search begins with the first instruction and a round for each offset. -/
theorem initial (sound : definition.code.instructions.error = none)
    (filled : 0 < definition.code.size) :
    definition.Searching (.start definition.code.size) definition.code.size := by
  let empty : Exploration :=
    { depths := Array.replicate definition.code.size none, pending := [0], deepest := 0 }
  have inside : 0 < empty.depths.size := by simpa [empty] using filled
  have unknown : ∀ pc, empty.depth? pc = none := by
    intro pc
    simp only [empty, Exploration.depth?, Array.getElem?_replicate]
    split <;> rfl
  have depths : ∀ pc, (Exploration.start definition.code.size).depth? pc =
      if pc = 0 then some 0 else empty.depth? pc :=
    fun pc => empty.depth?_set inside 0 pc [0] 0
  have count : (Exploration.start definition.code.size).unreached + 1 = definition.code.size :=
    (empty.unreached_set inside (unknown 0) 0 [0] 0).trans
      (by simp [empty, Exploration.unreached, Array.countP_replicate])
  constructor
  · simp [Exploration.start]
  · rw [depths, if_pos rfl]
  · intro pc before known
    rw [depths, unknown] at known
    split at known <;> cases known
    rename_i first
    subst first
    exact ⟨Nat.le_refl _, .start sound filled⟩
  · intro pc waiting
    obtain rfl := List.mem_singleton.1 waiting
    rw [depths]
    rfl
  · intro pc before known
    rw [depths, unknown] at known
    split at known <;> cases known
    rename_i first
    subst first
    exact .inl (List.mem_singleton.2 rfl)
  · simp only [Exploration.start, List.length_singleton]
    exact Nat.le_of_eq ((Nat.add_comm ..).trans count)

/-- A round that follows the next instruction that waits. -/
theorem follow {pc depth : Nat} {pending : List Nat} {instruction : Instruction}
    (sound : definition.code.instructions.error = none)
    (searching : definition.Searching exploration (rounds + 1))
    (first : exploration.pending = pc :: pending)
    (listed : (pc, instruction) ∈ definition.code.instructions.instructions)
    (known : exploration.depth? pc = some depth)
    (done : definition.follow definition.layout pc instruction depth
      { exploration with pending } = .ok next) :
    definition.Searching next rounds := by
  let left : Exploration := { exploration with pending }
  have sized : left.depths.size = definition.code.size := searching.size
  obtain ⟨grows, settles⟩ := follow_eq_ok sound listed sized done
  constructor
  · exact grows.size.trans searching.size
  · exact grows.kept 0 0 searching.start
  · intro other before found
    rcases grows.fresh other before found with earlier | ⟨_, boundary, bounded⟩
    · obtain ⟨bounded, boundary⟩ := searching.deep other before earlier
      exact ⟨Nat.le_trans bounded grows.deepest, boundary⟩
    · exact ⟨bounded, boundary⟩
  · intro other waiting
    rcases grows.reached other waiting with earlier | reached
    · have waited : other ∈ exploration.pending := first ▸ List.mem_cons_of_mem _ earlier
      obtain ⟨before, found⟩ := Option.isSome_iff_exists.1 (searching.waits other waited)
      exact Option.isSome_iff_exists.2 ⟨before, grows.kept other before found⟩
    · exact reached
  · intro other before found
    rcases grows.fresh other before found with earlier | ⟨waiting, _⟩
    · rcases searching.settled other before earlier with waited | ⟨at', read, agrees⟩
      · rw [first] at waited
        rcases List.mem_cons.1 waited with here | later
        · subst here
          obtain rfl := Option.some.inj (known.symm.trans earlier)
          exact .inr ⟨instruction, listed, settles⟩
        · exact .inl (grows.waits other later)
      · exact .inr ⟨at', read, agrees.mono grows.kept grows.deepest⟩
    · exact .inl waiting
  · have budget := searching.rounds
    rw [first, List.length_cons] at budget
    have spent : pending.length + exploration.unreached ≤ rounds := by omega
    exact Nat.le_trans grows.rounds spent

/-- What waits may be followed in any order. -/
theorem promote (searching : definition.Searching exploration rounds) (position : Nat) :
    definition.Searching (exploration.promote position) rounds := by
  obtain ⟨depths, deepest, order⟩ := exploration.promote_perm position
  have same : ∀ pc, (exploration.promote position).depth? pc = exploration.depth? pc := by
    intro pc
    rw [Exploration.depth?, depths, Exploration.depth?]
  have unreached : (exploration.promote position).unreached = exploration.unreached := by
    rw [Exploration.unreached, depths, Exploration.unreached]
  constructor
  · rw [depths]
    exact searching.size
  · rw [same]
    exact searching.start
  · intro pc before known
    rw [same] at known
    rw [deepest]
    exact searching.deep pc before known
  · intro pc waiting
    rw [same]
    exact searching.waits pc (order.mem_iff.1 waiting)
  · intro pc before known
    rw [same] at known
    rw [order.mem_iff, deepest, funext same]
    exact searching.settled pc before known
  · rw [order.length_eq, unreached]
    exact searching.rounds

/-- A search with rounds enough ends with nothing that waits, whatever it follows first. -/
theorem exploreBy (sound : definition.code.instructions.error = none)
    {choose : Exploration → Nat} (searching : definition.Searching exploration rounds)
    (done : definition.exploreBy choose definition.layout rounds exploration = .ok next) :
    ∃ left, definition.Searching next left ∧ next.pending = [] := by
  induction rounds generalizing exploration with
  | zero =>
    cases done
    have spent := searching.rounds
    exact ⟨0, searching, List.eq_nil_of_length_eq_zero (by omega)⟩
  | succ rounds ih =>
    unfold Definition.exploreBy at done
    dsimp only at done
    replace searching := searching.promote (choose exploration)
    generalize exploration.promote (choose exploration) = exploration at searching done
    split at done
    · rename_i nothing
      cases done
      exact ⟨_, searching, nothing⟩
    · rename_i pc pending first
      have waiting : pc ∈ exploration.pending := by simp [first]
      obtain ⟨depth, known⟩ := Option.isSome_iff_exists.1 (searching.waits pc waiting)
      have boundary := (searching.deep pc depth known).2
      obtain ⟨instruction, held⟩ := Option.isSome_iff_exists.1 (layout_isSome boundary)
      rw [held, known] at done
      obtain ⟨followed, following, exploring⟩ := bind_eq_ok.1 done
      exact ih (follow sound searching first (mem_of_layout held) known following) exploring

/-- A search with rounds enough ends with nothing that waits. -/
theorem explore (sound : definition.code.instructions.error = none)
    (searching : definition.Searching exploration rounds)
    (done : definition.explore definition.layout rounds exploration = .ok next) :
    ∃ left, definition.Searching next left ∧ next.pending = [] := by
  rw [← exploreBy_first] at done
  exact searching.exploreBy sound done

end Searching

/-- Depths with which a search has ended agree with each other. -/
theorem Searching.result {exploration : Exploration} {rounds : Nat}
    (searching : definition.Searching exploration rounds) (nothing : exploration.pending = []) :
    definition.Settled exploration.depth? exploration.deepest where
  start := searching.start
  deep pc before known := (searching.deep pc before known).1
  settles pc before known := by
    rcases searching.settled pc before known with waiting | settles
    · simp [nothing] at waiting
    · exact settles

/-- Verification settles the depths of a definition and accounts for its locals and the greatest
depth. -/
theorem verify_eq_ok {limits : VerificationLimits} {slots : Nat}
    (done : definition.verify limits = .ok slots) :
    ∃ depth deepest, definition.Settled depth deepest ∧ slots = deepest + definition.locals ∧
      definition.params ≤ definition.locals := by
  unfold verify at done
  dsimp only at done
  split at done
  · cases done
  split at done
  · cases done
  split at done
  · cases done
  rename_i paired
  split at done
  · cases done
  rename_i filled
  split at done
  · cases done
  rename_i sound
  obtain ⟨found, exploring, bounding⟩ := bind_eq_ok.1 done
  split at bounding
  · cases bounding
  cases bounding
  have unfailing : definition.code.instructions.error = none :=
    Option.eq_none_iff_forall_ne_some.2 sound
  obtain ⟨_, searching, nothing⟩ :=
    Searching.explore unfailing (.initial unfailing (Nat.pos_of_ne_zero filled)) exploring
  exact ⟨found.depth?, found.deepest, searching.result nothing, rfl, Nat.le_of_not_lt paired⟩

end Definition

/-- A function that verification has made out of a definition. -/
def Function.Verified (function : Function ν) : Prop :=
  ∃ definition limits, Function.verified definition limits = .ok function

/-- The function that verification makes of a definition. -/
theorem Function.Verified.of_verify {definition : Definition ν} {limits : VerificationLimits}
    {slots : Nat} (counted : definition.verify limits = .ok slots) :
    (Function.trusted definition slots).Verified := by
  refine ⟨definition, limits, ?_⟩
  rw [Function.verified, counted]
  rfl

/-- The depths of a verified function are settled, and its stack slots are its locals and the
greatest depth. -/
theorem Function.Verified.settled {function : Function ν} (verified : function.Verified) :
    ∃ depth deepest, function.toDefinition.Settled depth deepest ∧
      function.stackSlots = function.locals + deepest := by
  obtain ⟨definition, limits, made⟩ := verified
  unfold Function.verified at made
  cases counted : definition.verify limits with
  | error error =>
    rw [counted] at made
    cases made
  | ok slots =>
    rw [counted] at made
    obtain ⟨depth, deepest, settled, total, _⟩ := Definition.verify_eq_ok counted
    cases made
    refine ⟨depth, deepest, settled, ?_⟩
    simp only [Function.trusted]
    omega

end ScriptMachine

import ScriptMachine.Proofs.AwaitedResults
import ScriptMachine.Proofs.OpenFrames
import ScriptMachine.Proofs.Whereabouts

/-!
# Slots below a callee

All frames of a thread lie on one operand stack, and a script call lays the frame of the callee over
the operands of its caller. Instructions, results of native methods and results that a suspended
thread is handed are written at or above the base of the innermost frame, and every frame above the
callee starts at its base or above. So no step writes below the base of a callee that is there, if
results are handed to the thread only where it awaits them, and if no function is started above
frames that it still has.
-/

namespace ScriptMachine

variable {ν σ : Type}

/-! ## Slots below a base -/

namespace Agree

variable {height : Nat} {first second third : Array Int32}

/-- A stack agrees with itself. -/
theorem refl (stack : Array Int32) : Agree height stack stack := fun _ _ => rfl

/-- Stacks that agree with the same stack agree. -/
theorem trans (left : Agree height first second) (right : Agree height second third) :
    Agree height first third := fun slot below => (left slot below).trans (right slot below)

/-- Writing at the height or above. -/
theorem written (stack : Array Int32) {slot : Nat} (above : height ≤ slot) (value : Int32) :
    Agree height (stack.set! slot value) stack := by
  intro other below
  rw [Array.set!_eq_setIfInBounds, Array.getElem?_setIfInBounds, if_neg (by omega)]

/-- Storing a result at the height or above. -/
theorem stored {stored stack : Array Int32} {result : ResultKind} {slot : Nat} {value : Int32}
    (above : height ≤ slot) (done : Config.storeResult stack result slot value = .ok stored) :
    Agree height stored stack := by
  cases result with
  | void =>
    cases done
    exact refl _
  | int =>
    simp only [Config.storeResult] at done
    split at done <;> cases done
    exact written stack above value

/-- Preparing the stack for a frame that starts at the height or above. -/
theorem prepared {frame : Frame ν} {stack : Array Int32} (above : height ≤ frame.base)
    (room : height ≤ stack.size) : Agree height (frame.prepareStack stack) stack := by
  intro slot below
  have inside : slot < stack.size := by omega
  by_cases locals : slot < frame.base + frame.function.locals
  · rw [Frame.getElem?_prepareStack locals, if_neg (by omega), Array.getElem?_eq_getElem inside]
    rfl
  · omega

end Agree

namespace Effect

/-- The effect leaves the slots below the base as they are. -/
def SparesBelow (base : Nat) (stack : Array Int32) : Effect → Prop
  | advance after _ | ret after => after.size = stack.size ∧ Agree base after stack
  | _ => True

variable {base sp : Nat} {stack : Array Int32}

/-- Pushing a value above the base. -/
theorem sparesBelow_push (above : base ≤ sp) (value : Int32) :
    (push stack sp value).SparesBelow base stack := by
  unfold push
  split
  · exact ⟨by simp, .written stack above value⟩
  · trivial

/-- Pushing a variable above the base. -/
theorem sparesBelow_pushVariable (above : base ≤ sp) (values : Array Int32) (index : UInt8) :
    (pushVariable stack sp values index).SparesBelow base stack := by
  unfold pushVariable
  split
  · exact sparesBelow_push above _
  · trivial

/-- Going on with the topmost operand. -/
theorem sparesBelow_withTop {next : Int32 → Effect}
    (spares : ∀ value, (next value).SparesBelow base stack) :
    (withTop stack sp next).SparesBelow base stack := by
  unfold withTop
  split
  · exact spares _
  · trivial

/-- A branch. -/
theorem sparesBelow_branchOn (test : Test) (delta : Int) :
    (branchOn stack sp test delta).SparesBelow base stack := by
  unfold branchOn
  split
  · trivial
  all_goals
    refine sparesBelow_withTop fun value => ?_
    split
    · trivial
    · exact ⟨rfl, .refl stack⟩

end Effect

/-- An instruction with its operands above the base of its frame leaves the slots below the base as
they are. -/
theorem Instruction.effect_sparesBelow (reach : Variables) (instruction : Instruction)
    {base sp : Nat} {stack : Array Int32} (enough : base + instruction.stackEffect.pops ≤ sp) :
    (instruction.effect reach base stack sp).SparesBelow base stack := by
  cases instruction with
  | nop => exact ⟨rfl, .refl stack⟩
  | loopCheck => trivial
  | pop =>
    simp only [effect]
    split
    · trivial
    · exact ⟨rfl, .refl stack⟩
  | dup =>
    simp only [stackEffect] at enough
    exact Effect.sparesBelow_withTop fun value => Effect.sparesBelow_push (by omega) value
  | globalLoad index | specialLoad index | threadLoad index =>
    exact Effect.sparesBelow_pushVariable enough _ index
  | globalStore index =>
    simp only [effect]
    split
    · trivial
    · split
      · exact Effect.sparesBelow_withTop fun value => trivial
      · trivial
  | localLoad index =>
    simp only [effect]
    split
    · exact Effect.sparesBelow_push enough _
    · trivial
  | localStore index =>
    refine Effect.sparesBelow_withTop fun value => ?_
    dsimp only
    split
    · exact ⟨by simp, .written stack (Nat.le_add_right ..) value⟩
    · trivial
  | const value | const8 value => exact Effect.sparesBelow_push enough _
  | unary op =>
    simp only [stackEffect] at enough
    exact Effect.sparesBelow_withTop fun value => ⟨by simp, .written stack (by omega) _⟩
  | binary op =>
    simp only [stackEffect] at enough
    exact Effect.sparesBelow_withTop fun b => Effect.sparesBelow_withTop fun a =>
      ⟨by simp, .written stack (by omega) _⟩
  | branch test delta | longBranch test delta => exact Effect.sparesBelow_branchOn test _
  | native kind result argc method =>
    simp only [effect]
    split <;> trivial
  | script result argc callee => trivial
  | ret result =>
    cases result with
    | void => exact ⟨rfl, .refl stack⟩
    | int =>
      refine Effect.sparesBelow_withTop fun value => ?_
      split
      · exact ⟨by simp, .written stack (Nat.le_refl base) value⟩
      · trivial

/-! ## Instructions -/

/-- What an instruction in a frame with this base makes of what its run executes. -/
inductive Execution.Becomes (base : Nat) (before after : Execution ν) : Prop where
  /-- The run is aborted. -/
  | discarded (bare : after.frames = [])
  | written (frames : after.frames = before.frames) (size : after.stack.size = before.stack.size)
    (agree : Agree base after.stack before.stack)
  /-- A script function is called. -/
  | called (frame callee : Frame ν) (outer : List (Frame ν)) (pc top : Nat)
    (first : before.frames = frame :: outer)
    (frames : after.frames = callee :: { frame with pc := some pc, top } :: outer)
    (stack : after.stack = before.stack) (above : base ≤ callee.base)
  /-- The frame is left. -/
  | left (frames : after.frames = before.frames.tail) (size : after.stack.size = before.stack.size)
    (agree : Agree base after.stack before.stack)

namespace Config

variable {host : Host ν σ} {config : Config ν σ} {run after : Run ν σ} {registers : Registers ν}

/-- A run that is aborted has no frames. -/
theorem becomes_abortRun {base : Nat} {before : Execution ν} {function : Function ν} {pc : Nat}
    {reason : AbortReason} (goes : (config.abortRun host run function pc reason).focus.run? =
      some after) : before.Becomes base after.execution := by
  cases goes
  exact .discarded rfl

/-- What an instruction of a verified function makes of what its run executes, if a run goes on. -/
theorem execute_becomes (at' : run.At registers)
    (goes : (config.execute host run registers).focus.run? = some after) :
    run.execution.Becomes registers.base after.execution := by
  obtain ⟨instruction, ready⟩ := at'.fits.ready
  have enough := ready.enough
  unfold execute at goes
  dsimp only at goes
  rw [ready.decode] at goes
  dsimp only at goes
  generalize config.emit host _ = shown at goes
  cases looked : shown.world.domain.thread run.thread with
  | error fault =>
    rw [looked] at goes
    cases goes
  | ok thread =>
    rw [looked, attempt_ok] at goes
    have spares := @Instruction.effect_sparesBelow ⟨shown.world.domain.globals,
      shown.world.domain.specials, thread.variables⟩ instruction registers.base registers.sp
      run.execution.stack (by omega)
    have agrees := Instruction.effect_agrees ⟨shown.world.domain.globals,
      shown.world.domain.specials, thread.variables⟩ instruction (by omega)
      (ready.slots at'.fits)
    generalize instruction.effect _ _ _ _ = effect at goes spares agrees
    cases effect with
    | advance stack sp =>
      cases goes
      exact .written rfl spares.1 spares.2
    | writeGlobal index value sp =>
      cases goes
      exact .written rfl rfl (.refl _)
    | jump delta sp =>
      dsimp only at goes
      split at goes
      · exact becomes_abortRun goes
      · cases goes
        exact .written rfl rfl (.refl _)
    | spend =>
      dsimp only at goes
      split at goes
      · exact becomes_abortRun goes
      · cases goes
        exact .written rfl rfl (.refl _)
    | native kind result method start =>
      dsimp only [callNative] at goes
      split at goes
      · exact becomes_abortRun goes
      · split at goes
        · cases goes
        · cases goes
    | script result callee argc =>
      obtain ⟨⟨count, index, called, rfl, rfl⟩, least, _⟩ := agrees
      dsimp only [callScript] at goes
      split at goes
      · exact becomes_abortRun goes
      · split at goes
        · cases goes
        · split at goes
          · cases stored : storeResult _ result (registers.sp - count.toNat) 0 with
            | error fault =>
              rw [stored] at goes
              cases goes
            | ok stack =>
              rw [stored, attempt_ok] at goes
              exact becomes_abortRun goes
          · cases goes
            obtain ⟨frame, outer, first, _, _⟩ := at'.innermost
            subst called
            simp only [Instruction.stackEffect] at enough
            have saved (pc top : Nat) : (run.saveFrame pc top).execution.frames =
                { frame with pc := some pc, top } :: outer := by
              simp [Run.saveFrame, first, Run.setFrames]
            refine .called frame _ outer _ _ first (congrArg (List.cons _) (saved _ _))
              (run.stack_saveFrame ..) (?_ : registers.base ≤ registers.sp - count.toNat)
            omega
    | ret stack =>
      cases goes
      exact .left rfl spares.1 spares.2
    | invalid => exact becomes_abortRun goes
    | outOfBounds => cases goes

end Config

/-! ## The callee and the frames above it -/

/-- The frame of a callee lies above those of its callers. All frames above it start at its base or
above, and the slots below its base hold what they hold in the given stack. -/
structure Execution.Above (callee : Frame ν) (callers : List (Frame ν)) (slots : Array Int32)
    (execution : Execution ν) : Prop where
  stands : ∃ inner frame, execution.frames = inner ++ frame :: callers ∧
    frame.function = callee.function ∧ frame.base = callee.base ∧
    ∀ other ∈ inner, callee.base ≤ other.base
  room : callee.base ≤ execution.stack.size
  kept : Agree callee.base execution.stack slots

/-- The callee is gone, or lies above its callers and spares their slots. -/
def Execution.Spares (callee : Frame ν) (callers : List (Frame ν)) (slots : Array Int32)
    (execution : Execution ν) : Prop :=
  execution.frames.length ≤ callers.length ∨ execution.Above callee callers slots

namespace Execution

variable {callee frame : Frame ν} {callers outer : List (Frame ν)} {slots : Array Int32}
  {execution after : Execution ν}

/-- A thread that has lost all frames but one has lost the callee of a caller. -/
theorem spares_of_short (occupied : callers ≠ []) (short : execution.frames.length ≤ 1) :
    execution.Spares callee callers slots :=
  .inl (Nat.le_trans short (List.length_pos_iff.2 occupied))

namespace Above

/-- The innermost frame starts at the base of the callee or above. -/
theorem base_le (above : execution.Above callee callers slots)
    (first : execution.frames = frame :: outer) : callee.base ≤ frame.base := by
  obtain ⟨inner, last, frames, _, base, high⟩ := above.stands
  rw [first] at frames
  cases inner with
  | nil =>
    cases frames
    exact Nat.le_of_eq base.symm
  | cons other inner =>
    cases frames
    exact high frame List.mem_cons_self

/-- There is an innermost frame. -/
theorem exists_frame (above : execution.Above callee callers slots) :
    ∃ frame outer, execution.frames = frame :: outer := by
  obtain ⟨inner, last, frames, _⟩ := above.stands
  exact List.exists_cons_of_ne_nil (by simp [frames])

/-- If there is but one frame above the callers, it is that of the callee. -/
theorem alone (above : execution.Above callee callers slots)
    (short : execution.frames.length ≤ callers.length + 1) :
    ∃ frame, execution.frames = frame :: callers ∧ frame.function = callee.function ∧
      frame.base = callee.base := by
  obtain ⟨inner, frame, frames, function, base, _⟩ := above.stands
  have bare : inner = [] := by
    rw [frames, List.length_append, List.length_cons] at short
    exact List.length_eq_zero_iff.1 (by omega)
  subst bare
  exact ⟨frame, frames, function, base⟩

/-- Below the base of the callee nothing is written. -/
theorem restack (above : execution.Above callee callers slots)
    (frames : after.frames = execution.frames) (room : callee.base ≤ after.stack.size)
    (agree : Agree callee.base after.stack execution.stack) :
    after.Above callee callers slots where
  stands := by
    rw [frames]
    exact above.stands
  room := room
  kept := agree.trans above.kept

/-- The innermost frame records where it is to be continued. -/
theorem save (above : execution.Above callee callers slots)
    (first : execution.frames = frame :: outer) {pc : Option Nat} {top : Nat}
    (frames : after.frames = { frame with pc, top } :: outer)
    (stack : after.stack = execution.stack) : after.Above callee callers slots := by
  refine ⟨?_, stack ▸ above.room, stack ▸ above.kept⟩
  obtain ⟨inner, last, whole, function, base, high⟩ := above.stands
  rw [first] at whole
  rw [frames]
  cases inner with
  | nil =>
    cases whole
    exact ⟨[], { frame with pc, top }, rfl, function, base, by simp⟩
  | cons other inner =>
    cases whole
    refine ⟨{ frame with pc, top } :: inner, last, rfl, function, base, fun other listed => ?_⟩
    rcases List.mem_cons.1 listed with rfl | later
    · exact high frame List.mem_cons_self
    · exact high other (List.mem_cons_of_mem _ later)

/-- Another frame is pushed. -/
theorem push (above : execution.Above callee callers slots) {pushed : Frame ν}
    (base : callee.base ≤ pushed.base) :
    Above callee callers slots { execution with frames := pushed :: execution.frames } := by
  refine ⟨?_, above.room, above.kept⟩
  obtain ⟨inner, last, whole, function, same, high⟩ := above.stands
  refine ⟨pushed :: inner, last, by simp [whole], function, same, fun other listed => ?_⟩
  rcases List.mem_cons.1 listed with rfl | later
  · exact base
  · exact high other later

/-- The innermost frame is left. If it is that of the callee, the callers remain. -/
theorem pop (above : execution.Above callee callers slots) :
    Spares callee callers slots { execution with frames := execution.frames.tail } := by
  obtain ⟨inner, last, whole, function, base, high⟩ := above.stands
  cases inner with
  | nil =>
    left
    simp [whole]
  | cons other inner =>
    exact .inr ⟨⟨inner, last, by simp [whole], function, base, fun other later =>
      high other (List.mem_cons_of_mem _ later)⟩, above.room, above.kept⟩

/-- An instruction of the innermost frame spares the slots below the callee. -/
theorem becomes (above : execution.Above callee callers slots)
    (first : execution.frames = frame :: outer) (becomes : execution.Becomes frame.base after) :
    after.Spares callee callers slots := by
  have low := above.base_le first
  cases becomes with
  | discarded bare =>
    left
    simp [bare]
  | written frames size agree =>
    exact .inr (above.restack frames (size ▸ above.room) (agree.mono low))
  | called same pushed others pc top again frames stack high =>
    obtain ⟨rfl, rfl⟩ := List.cons.inj (first.symm.trans again)
    have saved : Above callee callers slots
        { execution with frames := { frame with pc := some pc, top } :: outer } :=
      above.save first rfl rfl
    exact .inr ((saved.push (Nat.le_trans low high)).restack frames (stack ▸ above.room)
      (stack ▸ .refl _))
  | left frames size agree =>
    rcases above.pop with gone | still
    · exact .inl (frames ▸ gone)
    · exact .inr (still.restack frames (size ▸ above.room) (agree.mono low))

end Above

end Execution

namespace Config

variable {host : Host ν σ} {config : Config ν σ} {run after : Run ν σ} {registers : Registers ν}
  {id : ThreadId} {callee : Frame ν} {callers : List (Frame ν)} {slots : Array Int32}

/-! ## Steps -/

/-- A run enters or continues its innermost frame. -/
theorem enterFrame_spares (aside : config.Aside id (·.Spares callee callers slots))
    (above : run.thread = id → run.execution.Above callee callers slots) :
    (config.enterFrame host run).Executes id (·.Spares callee callers slots) := by
  unfold enterFrame
  split
  · refine aside.goto fun same atHand here => ?_
    cases atHand
    exact .inr (above here)
  · rename_i frame outer frames
    split
    · refine aside.goto fun same atHand here => ?_
      cases atHand
      exact .inr (above here)
    · refine (aside.congr (by simp) (by simp)).goto fun same atHand here => ?_
      cases atHand
      have stands := above here
      have room := stands.room
      refine .inr (stands.restack rfl ?_ (.prepared (stands.base_le frames) room))
      change callee.base ≤ (frame.prepareStack run.execution.stack).size
      rw [frame.size_prepareStack]
      omega

/-- A run executes an instruction. -/
theorem execute_spares (at' : run.At registers)
    (aside : config.Aside id (·.Spares callee callers slots))
    (above : run.thread = id → run.execution.Above callee callers slots) :
    (config.execute host run registers).Executes id (·.Spares callee callers slots) := by
  refine ⟨aside.execute fun same => .inr (above same), fun after goes same => ?_⟩
  have thread : after.thread = run.thread :=
    (Option.some.inj ((Hands.execute run registers).thread after goes)).symm
  obtain ⟨frame, outer, first, _, base⟩ := at'.innermost
  have becomes := execute_becomes at' goes
  rw [← base] at becomes
  exact (above (thread.symm.trans same)).becomes first becomes

/-- A native method answers. Its result goes to where its arguments began, among the operands of the
innermost frame. -/
theorem returnNative_spares {call : NativeCall} {value : Int32} (occupied : callers ≠ [])
    (calls : run.Calls registers call)
    (aside : config.Aside id (·.Spares callee callers slots))
    (above : run.thread = id → run.execution.Above callee callers slots) :
    (config.returnNative host run registers call value).Executes id
      (·.Spares callee callers slots) := by
  have short (execution : Execution ν) (few : execution.frames.length ≤ 1) :
      execution.Spares callee callers slots := Execution.spares_of_short occupied few
  refine returnNative_induction fun shown emitted => ?_
  replace aside : shown.Aside id (·.Spares callee callers slots) :=
    aside.congr (by rw [← emitted, emit_world]) (by rw [← emitted, emit_pending])
  refine ⟨fun fault => aside.idle rfl, fun stack thread stored present => ?_⟩
  have written (same : run.thread = id) :
      (run.setStack stack).execution.Above callee callers slots := by
    have stands := above same
    obtain ⟨frame, outer, frames⟩ := stands.exists_frame
    obtain ⟨argc, awaits⟩ := calls frame outer frames
    have low := stands.base_le frames
    have high : frame.base + frame.function.locals ≤ call.base := awaits.locals_le
    have size := storeResult_eq_ok stored
    exact stands.restack rfl (size ▸ stands.room) (.stored (by omega) stored)
  refine ⟨fun reason _ => ?_, fun _ _ => ?_, fun _ _ => ?_⟩
  · have honored : Domain.Executes (shown.world.domain.setThread run.thread
        { thread with pendingAbort := none }) id (·.Spares callee callers slots) :=
      aside.domain.setThread present fun same execution held =>
        aside.domain thread execution (same ▸ present) held
    refine (aside.setDomain honored).detach short (fun stopped found same => ?_)
      (by simp [AfterAbort.starts?])
    cases found
    exact .inr (written same)
  · refine (aside.congr (by simp) (by simp)).goto fun last atHand same => ?_
    cases atHand
    rw [Run.thread_saveFrame] at same
    have stands := written same
    obtain ⟨frame, outer, frames⟩ := stands.exists_frame
    have saved : ((run.setStack stack).saveFrame registers.pc registers.sp).execution.frames =
        { frame with pc := some registers.pc, top := registers.sp } :: outer := by
      simp only [Run.saveFrame, frames, Run.setFrames]
    exact .inr (stands.save frames saved (Run.stack_saveFrame ..))
  · refine aside.goto fun last atHand same => ?_
    cases atHand
    exact .inr (written same)

end Config

/-- If the innermost frame of the thread is to be continued, it awaits the result of a native call
that has one. -/
def Domain.AwaitsInt (domain : Domain ν) (id : ThreadId) : Prop :=
  ∀ thread execution frame outer, domain.thread? id = some thread →
    thread.execution = some execution → execution.frames = frame :: outer → frame.pc.isSome →
    ∃ kind argc method base, frame.Awaits (.native kind .int argc method) .int base

/-- A result that is handed to a thread spares the slots below the callee, if it is awaited. -/
theorem Domain.AwaitsInt.takes {domain : Domain ν} {id : ThreadId} {callee : Frame ν}
    {callers : List (Frame ν)} {slots : Array Int32} (awaitsInt : domain.AwaitsInt id)
    (above : domain.Executes id (·.Above callee callers slots)) :
    domain.Takes id (·.Spares callee callers slots) := by
  intro thread execution frame outer value present held frames saved
  obtain ⟨kind, argc, method, base, awaits⟩ :=
    awaitsInt thread execution frame outer present held frames saved
  have stands := above thread execution present held
  have low := stands.base_le frames
  have high := awaits.locals_le
  have height : frame.top = base + 1 := awaits.height
  exact .inr (stands.restack rfl (by simpa using stands.room) (.written _ (by omega) value))

namespace Config

variable {host : Host ν σ} {config : Config ν σ} {run after : Run ν σ} {registers : Registers ν}
  {id : ThreadId} {callee : Frame ν} {callers : List (Frame ν)} {slots : Array Int32}

/-- The thread that is handed a result by this step. -/
def handsTo? (config : Config ν σ) : Option ThreadId :=
  match config.focus with
  | .body (.ask request _) => request.handed? config.world.domain
  | _ => none

/-- A result that is handed to the thread in this step, if any, is one that the thread awaits. -/
def HandsAwaited (config : Config ν σ) (id : ThreadId) : Prop :=
  config.handsTo? = some id → config.world.domain.AwaitsInt id

/-- A suspended thread that stands right behind a native call with a result awaits this result. -/
theorem Stacked.awaitsInt {id : ThreadId} {first : Standing} {rest : List Standing}
    {stack : Array Int32} {offset : Nat} {kind : MethodKind} {argc method : UInt8}
    (stacked : config.Stacked)
    (stands : config.world.domain.standing? id = some (first :: rest, stack))
    (listed : (offset, Instruction.native kind .int argc method) ∈
      first.code.instructions.instructions)
    (behind : first.pc = some (offset + (Instruction.native kind .int argc method).length)) :
    config.world.domain.AwaitsInt id := by
  intro thread execution frame outer present held frames saved
  obtain ⟨same, taken, known, _, holds, standing, _⟩ := Domain.standing?_eq_some stands
  obtain rfl := Option.some.inj (present.symm.trans known)
  obtain rfl := Option.some.inj (held.symm.trans holds)
  obtain ⟨own, others, split, here, _⟩ := List.map_eq_cons_iff.1 standing
  obtain ⟨rfl, rfl⟩ := List.cons.inj (frames.symm.trans split)
  subst here
  have unentered : frame.pc ≠ none := Option.isSome_iff_ne_none.1 saved
  obtain ⟨kind, result, argc, method, base, awaits⟩ :=
    ((stacked.domain _ _ _ present held).awaits frame outer frames).resolve_left unentered
  cases awaits.instruction_eq listed behind
  cases awaits.calls
  exact ⟨kind, argc, method, base, awaits⟩

/-- A step spares the slots below a callee that is there, or the callee is gone. -/
theorem Executes.step (host : Host ν σ) (occupied : callers ≠ []) (sound : config.Sound)
    (stacked : config.Stacked) (spares : config.HooksSpare id) (hands : config.HandsAwaited id)
    (above : config.Executes id (·.Above callee callers slots)) :
    (config.step host).Executes id (·.Spares callee callers slots) := by
  have short (execution : Execution ν) (few : execution.frames.length ≤ 1) :
      execution.Spares callee callers slots := Execution.spares_of_short occupied few
  have aside : config.Aside id (·.Spares callee callers slots) := above.toAside.mono fun _ => .inr
  have atHand {focus : Focus ν σ} {run : Run ν σ} (found : config.focus = focus)
      (has : focus.run? = some run) (same : run.thread = id) :
      run.execution.Above callee callers slots := above.focus run (found ▸ has) same
  refine step_induction {
    rests final := ⟨aside, fun run has => ?_⟩
    enters _ found := enterFrame_spares aside (atHand found rfl)
    executes run registers found := execute_spares ?_ aside (atHand found rfl)
    ends _ _ found := aside.finishRun fun same => .inr (atHand found rfl same)
    asks _ _ found := aside.perform short fun handed => ?_
    modifies _ _ _ := ⟨⟨aside.domain, aside.pending⟩, fun run has => by cases has⟩
    crashes _ _ := aside.idle rfl
    concludes _ _ _ := aside.idle rfl
    answers _ run registers call rest _ waiting := ?_
    goesOn value after rest focus waiting := ?_ }
  · rw [run?_of_isFinal final] at has
    cases has
  · have fits := sound.focus
    rw [found] at fits
    exact fits.2
  · exact (hands (by rw [handsTo?, found]; exact handed)).takes above.domain
  · have waits := waiting ▸ List.mem_cons_self
    exact returnNative_spares occupied (stacked.pending _ waits).2 (aside.resumed waiting)
      fun same => above.pending _ waits run rfl same
  · refine (aside.resumed waiting).afterAbort short fun starts => ?_
    cases after with
    | reply | stop => cases starts
    | start thread function purpose next =>
      cases starts
      intro found execution present held
      have idle := spares function purpose next rest ⟨⟨value, focus⟩, waiting⟩ found present
      simpa [Thread.isIdle, held] using idle

end Config

end ScriptMachine

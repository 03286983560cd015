import ScriptMachine.Proofs.Agreement
import ScriptMachine.Proofs.Links

/-!
# Arguments and locals

A script call hands its arguments over by leaving them where they are: the locals of the callee
begin where the arguments lie. When the callee is entered, the locals beyond its parameters are
cleared. What a parameter starts with when the call has no argument for it is whatever its slot has
held before, and so it is with every parameter of a function that a thread is started in.
-/

namespace ScriptMachine

variable {ν σ : Type}

/-- A verified function has no more parameters than locals. -/
theorem Function.Verified.params_le_locals {function : Function ν} (verified : function.Verified) :
    function.params ≤ function.locals := by
  obtain ⟨definition, limits, made⟩ := verified
  unfold Function.verified at made
  cases counted : definition.verify limits with
  | error error =>
    rw [counted] at made
    cases made
  | ok slots =>
    rw [counted] at made
    obtain ⟨_, _, _, _, paired⟩ := Definition.verify_eq_ok counted
    cases made
    exact paired

/-- A slot of an operand stack in which a range has been cleared. -/
theorem getElem?_clearRange {stack : Array Int32} {start count slot : Nat}
    (inside : start + count ≤ stack.size) :
    (clearRange stack start count)[slot]? =
      if start ≤ slot ∧ slot < start + count then some 0 else stack[slot]? := by
  induction count generalizing stack start with
  | zero => rw [clearRange, if_neg (by omega)]
  | succ count ih =>
    rw [clearRange, ih (by simp; omega), Array.set!_eq_setIfInBounds, Array.getElem?_setIfInBounds]
    by_cases first : start = slot
    · rw [if_neg (by omega), if_pos first, if_pos (by omega), if_pos (by omega)]
    · rw [if_neg first]
      congr 1
      rw [eq_iff_iff]
      omega

namespace Frame

variable {frame : Frame ν} {arguments : List Int32} {held stack : Array Int32}

/-- A slot below the operands of a frame once the operand stack is prepared for it. -/
theorem getElem?_prepareStack {slot : Nat} (below : slot < frame.base + frame.function.locals) :
    (frame.prepareStack stack)[slot]? =
      some (if frame.base + min frame.function.params frame.function.locals ≤ slot then 0
        else stack[slot]?.getD 0) := by
  have room := frame.function.locals_le_stackSlots
  have within : slot < frame.base + frame.function.stackSlots := by omega
  unfold prepareStack
  dsimp only
  rw [getElem?_clearRange (by simp only [Array.size_append, Array.size_replicate]; omega),
    getElem?_lengthened within]
  split
  · rw [if_pos (by omega)]
  · rw [if_neg (by omega)]

/-- What the locals of a frame start with: a parameter with its argument, a parameter without one
with what the operand stack held in its slot, and every other local with zero. -/
structure Receives (frame : Frame ν) (arguments : List Int32) (held stack : Array Int32) :
    Prop where
  passed : ∀ index < min arguments.length frame.function.params,
    stack[frame.base + index]? = arguments[index]?
  left : ∀ index, arguments.length ≤ index → index < frame.function.params →
    stack[frame.base + index]? = some (held[frame.base + index]?.getD 0)
  cleared : ∀ index, frame.function.params ≤ index → index < frame.function.locals →
    stack[frame.base + index]? = some 0

/-- The parameters that have an argument start with it, and every other local starts with zero. -/
def Conforms (frame : Frame ν) (arguments : List Int32) (stack : Array Int32) : Prop :=
  ∀ index < frame.function.locals, stack[frame.base + index]? =
    if index < min arguments.length frame.function.params then arguments[index]? else some 0

instance : Decidable (frame.Conforms arguments stack) :=
  inferInstanceAs (Decidable (∀ index < frame.function.locals, _))

/-- The locals of a frame start as they ought to exactly if the slots of the parameters without an
argument have held zero before. -/
theorem Receives.conforms_iff (receives : frame.Receives arguments held stack)
    (paired : frame.function.params ≤ frame.function.locals) :
    frame.Conforms arguments stack ↔
      ∀ index, arguments.length ≤ index → index < frame.function.params →
        held[frame.base + index]?.getD 0 = 0 := by
  constructor
  · intro conforms index missing param
    have zero := conforms index (Nat.lt_of_lt_of_le param paired)
    rw [receives.left index missing param, if_neg (by omega)] at zero
    exact Option.some.inj zero
  · intro blank index lower
    by_cases passed : index < min arguments.length frame.function.params
    · rw [if_pos passed, receives.passed index passed]
    · rw [if_neg passed]
      by_cases param : index < frame.function.params
      · have missing : arguments.length ≤ index := by omega
        rw [receives.left index missing param, blank index missing param]
      · exact receives.cleared index (Nat.le_of_not_lt param) lower

/-- Preparing the operand stack gives a frame its locals, over arguments that lie at its base. -/
theorem receives_prepareStack (paired : frame.function.params ≤ frame.function.locals)
    (lie : ∀ index < arguments.length, held[frame.base + index]? = arguments[index]?) :
    frame.Receives arguments held (frame.prepareStack held) where
  passed index below := by
    have present := lie index (by omega)
    rw [getElem?_prepareStack (by omega), if_neg (by omega), present,
      List.getElem?_eq_getElem (by omega)]
    rfl
  left index missing param := by
    rw [getElem?_prepareStack (by omega), if_neg (by omega)]
  cleared index other lower := by
    rw [getElem?_prepareStack (by omega), if_pos (by omega)]

end Frame

namespace Config

variable {host : Host ν σ} {config : Config ν σ} {run : Run ν σ} {registers : Registers ν}

/-- The arguments of the script call that is about to be executed, in the order in which they have
been pushed. No other step passes any. -/
def arguments (config : Config ν σ) : List Int32 :=
  match config.focus with
  | .execute run registers =>
    match Instruction.decode registers.function.code registers.pc with
    | .ok (.script _ argc _, _) =>
      (run.execution.stack.extract (registers.sp - argc.toNat) registers.sp).toList
    | _ => []
  | _ => []

/-- The run that is to enter a frame that has not been entered before, and the frame. -/
def entering? (config : Config ν σ) : Option (Run ν σ × Frame ν) :=
  match config.focus with
  | .enter run => (run.execution.frames.head?.filter (·.pc.isNone)).map (run, ·)
  | _ => none

theorem entering?_eq_some {frame : Frame ν} :
    config.entering? = some (run, frame) ↔ config.focus = .enter run ∧
      (∃ outer, run.execution.frames = frame :: outer) ∧ frame.pc = none := by
  unfold entering?
  split
  · rename_i other focus
    rw [focus]
    simp only [Option.map_eq_some_iff, Option.filter_eq_some_iff, List.head?_eq_some_iff,
      Option.isNone_iff_eq_none, Prod.mk.injEq, Focus.enter.injEq]
    constructor
    · rintro ⟨_, ⟨frames, unentered⟩, rfl, rfl⟩
      exact ⟨rfl, frames, unentered⟩
    · rintro ⟨rfl, frames, unentered⟩
      exact ⟨frame, ⟨frames, unentered⟩, rfl, rfl⟩
  · rename_i other
    exact iff_of_false nofun fun found => other run found.1

/-- The run that is about to execute an instruction, and its registers. -/
def executing? (config : Config ν σ) : Option (Run ν σ × Registers ν) :=
  match config.focus with
  | .execute run registers => some (run, registers)
  | _ => none

/-- A run enters its innermost frame, which has not been entered before: it is about to execute the
first instruction of the function of the frame, and its locals start with the arguments. -/
def EntersWith (host : Host ν σ) (config : Config ν σ) (run : Run ν σ) (frame : Frame ν)
    (arguments : List Int32) : Prop :=
  ∃ entered : Run ν σ,
    (config.step host).executing? = some (entered,
      ⟨frame.function, frame.base, 0, frame.base + frame.function.locals⟩) ∧
    entered.thread = run.thread ∧
    frame.Receives arguments run.execution.stack entered.execution.stack ∧
    (frame.Conforms arguments entered.execution.stack ↔
      ∀ index, arguments.length ≤ index → index < frame.function.params →
        run.execution.stack[frame.base + index]?.getD 0 = 0)

/-- Entering a frame for the first time, over arguments that lie at its base. -/
theorem entersWith {frame : Frame ν} {arguments : List Int32}
    (entering : config.entering? = some (run, frame)) (verified : frame.function.Verified)
    (lie : ∀ index < arguments.length,
      run.execution.stack[frame.base + index]? = arguments[index]?) :
    config.EntersWith host run frame arguments := by
  obtain ⟨focus, ⟨outer, frames⟩, unentered⟩ := entering?_eq_some.1 entering
  have receives := Frame.receives_prepareStack verified.params_le_locals lie
  refine ⟨run.setStack (frame.prepareStack run.execution.stack), ?_, rfl, receives,
    receives.conforms_iff verified.params_le_locals⟩
  simp only [executing?, step, focus, enterFrame, frames, unentered, goto_focus]

/-- A script call that goes on with entering the callee: the callee has a new frame, which begins
where the arguments lie, and nothing else has changed on the operand stack. -/
theorem enter_of_script {result : ResultKind} {argc callee : UInt8} {following : Nat}
    {called : Run ν σ} (focus : config.focus = .execute run registers)
    (decoded : Instruction.decode registers.function.code registers.pc =
      .ok (.script result argc callee, following))
    (entering : (config.step host).focus = .enter called) :
    ∃ frame, (config.step host).entering? = some (called, frame) ∧
      config.world.domain.function? ⟨callee.toNat⟩ = some frame.function ∧
      frame.base + argc.toNat = registers.sp ∧
      called.execution.stack = run.execution.stack := by
  simp only [entering?_eq_some, entering, true_and]
  simp only [step, focus, execute, decoded, Instruction.effect] at entering
  generalize shows : config.emit host _ = shown at entering
  have domain : shown.world.domain = config.world.domain := by rw [← shows, emit_world]
  cases looked : shown.world.domain.thread run.thread with
  | error fault =>
    rw [looked] at entering
    cases entering
  | ok thread =>
    rw [looked, attempt_ok] at entering
    unfold callScript at entering
    rw [domain] at entering
    split at entering
    · cases entering
    · rename_i function registered
      split at entering
      · cases entering
      · rename_i enough
        dsimp only at entering
        split at entering
        · cases stored : storeResult _ result _ 0 with
          | error fault =>
            rw [stored] at entering
            cases entering
          | ok stack =>
            rw [stored, attempt_ok] at entering
            cases entering
        · cases entering
          refine ⟨_, ⟨⟨_, rfl⟩, rfl⟩, registered, ?_, ?_⟩
          · exact Nat.sub_add_cancel (Nat.le_of_not_lt enough)
          · simp only [Run.setFrames, Run.saveFrame]
            split <;> rfl

/-- Whenever a run is to enter a frame that has not been entered before, it enters it in the next
step, and then its locals hold the arguments of the call that has led there, no arguments where no
call has, zero beyond the parameters, and in the parameters without an argument what earlier code
or earlier runs have left in their slots. A call that leads to the callee has given it a new frame,
and has passed as many arguments as it says. -/
theorem locals_start_with_arguments (hosted : host.Asks Request.RegistersVerified)
    (reached : config.Reachable host Request.RegistersVerified) :
    (∀ entering frame, (config.step host).entering? = some (entering, frame) →
      (config.step host).EntersWith host entering frame config.arguments) ∧
    ∀ run registers result argc callee following entering,
      config.focus = .execute run registers →
      Instruction.decode registers.function.code registers.pc =
        .ok (.script result argc callee, following) →
      (config.step host).focus = .enter entering →
      ∃ frame, (config.step host).entering? = some (entering, frame) ∧
        config.world.domain.function? ⟨callee.toNat⟩ = some frame.function ∧
        frame.base + argc.toNat = registers.sp ∧ config.arguments.length = argc.toNat := by
  have fits {run : Run ν σ} {registers : Registers ν}
      (focus : config.focus = .execute run registers) :
      registers.sp ≤ run.execution.stack.size := by
    have sound := (sound_of_reachable hosted reached).focus
    rw [focus] at sound
    obtain ⟨_, high, room⟩ := sound.2.fits.bounds
    exact Nat.le_trans high room
  constructor
  · intro entering frame found
    obtain ⟨focus, ⟨outer, frames⟩, _⟩ := entering?_eq_some.1 found
    have sound := (sound_of_reachable hosted reached.step).focus
    rw [focus] at sound
    have verified : frame.function.Verified :=
      (sound.execution frame (by rw [frames]; exact List.mem_cons_self)).1
    refine entersWith found verified fun index below => ?_
    unfold arguments at below ⊢
    split at below
    · rename_i run registers here
      split at below
      · rename_i result argc callee following decoded
        obtain ⟨_, same, _, place, stack⟩ := enter_of_script here decoded focus
        obtain rfl := (Prod.mk.inj (Option.some.inj (found.symm.trans same))).2
        have within := fits here
        simp only [Array.length_toList, Array.size_extract] at below
        rw [stack, Array.getElem?_toList, Array.getElem?_extract, if_pos (by omega)]
        congr 1
        omega
      · cases below
    · cases below
  · intro run registers result argc callee following entering here decoded focus
    obtain ⟨frame, found, registered, place, _⟩ := enter_of_script here decoded focus
    refine ⟨frame, found, registered, place, ?_⟩
    have within := fits here
    simp only [arguments, here, decoded, Array.length_toList, Array.size_extract]
    omega

/-- A function of two parameters and another local that returns its second parameter. -/
def answeringSecond : Definition Unit where
  name := "second"
  code := #[0x05, 1, 0x2E]
  params := 2
  locals := 3

/-- A function that drops a seven and passes a five to the function above. -/
def passingOne : Definition Unit where
  name := "short"
  code := #[0x0A, 5, 0x0A, 7, 0x01, 0x2C, 1, 0, 0x2E]

theorem verified_answeringSecond : (Function.trusted answeringSecond 4).Verified := by
  have slots : answeringSecond.verify {} = .ok 4 := by cbv
  exact .of_verify slots

theorem verified_passingOne : (Function.trusted passingOne 2).Verified := by
  have slots : passingOne.verify {} = .ok 2 := by cbv
  exact .of_verify slots

/-- The function is run that passes one argument too few. -/
def callingShort : Program Unit Unit Int32 := do
  let _ ← Program.update (.addFunction (.trusted answeringSecond 4))
  let _ ← Program.update (.addFunction (.trusted passingOne 2))
  let _ ← Program.update .createThread
  let _ ← Program.request (.runInt ⟨0⟩ ⟨1⟩)
  return 0

/-- Only functions that are verified are registered. -/
theorem callingShort_asks : callingShort.Asks Request.RegistersVerified :=
  ⟨verified_answeringSecond, fun _ => ⟨verified_passingOne, fun _ => ⟨trivial, fun _ =>
    ⟨trivial, fun _ => trivial⟩⟩⟩⟩

/-- The callee begins with the only argument that it is passed. -/
theorem locals_start_with_arguments_short :
    let configs := fun steps => (Config.initial {} () callingShort).run idleHost steps
    idleHost.Asks Request.RegistersVerified ∧
      (configs 8).Reachable idleHost Request.RegistersVerified ∧
      ∃ entering frame, ((configs 8).step idleHost).entering? = some (entering, frame) ∧
        ((configs 8).step idleHost).EntersWith idleHost entering frame (configs 8).arguments := by
  intro configs
  have hosted : idleHost.Asks Request.RegistersVerified := ⟨fun _ _ => trivial, fun _ _ => trivial⟩
  have reached : (configs 8).Reachable idleHost Request.RegistersVerified :=
    .run (.initial () callingShort callingShort_asks) 8
  have calls : ((configs 8).step idleHost).entering?.isSome := by decide +kernel
  obtain ⟨⟨entering, frame⟩, found⟩ := Option.isSome_iff_exists.1 calls
  exact ⟨hosted, reached, entering, frame, found,
    (locals_start_with_arguments hosted reached).1 entering frame found⟩

/-- The second parameter of a verified function, for which the call has no argument, starts with an
operand that its caller has dropped. -/
theorem parameter_starts_with_dropped_operand :
    let configs := fun steps => (Config.initial {} () callingShort).run idleHost steps
    idleHost.Asks Request.RegistersVerified ∧
      (configs 8).Reachable idleHost Request.RegistersVerified ∧ (configs 8).arguments = [5] ∧
      ∃ entering frame entered registers, (configs 9).entering? = some (entering, frame) ∧
        (configs 10).executing? = some (entered, registers) ∧
        entered.execution.stack = #[5, 7, 0, 0] ∧ frame.base = 0 ∧
        ¬frame.Conforms [5] entered.execution.stack := by
  intro configs
  refine ⟨⟨fun _ _ => trivial, fun _ _ => trivial⟩,
    .run (.initial () callingShort callingShort_asks) 8, by decide +kernel, ?_⟩
  have enters : (configs 9).entering?.isSome := by decide +kernel
  obtain ⟨⟨entering, frame⟩, found⟩ := Option.isSome_iff_exists.1 enters
  have executes : (configs 10).executing?.isSome := by decide +kernel
  obtain ⟨⟨entered, registers⟩, next⟩ := Option.isSome_iff_exists.1 executes
  have place : (configs 9).entering?.map (·.2.base) = some 0 := by decide +kernel
  have stack : (configs 10).executing?.map (·.1.execution.stack) = some #[5, 7, 0, 0] := by
    decide +kernel
  have fails : (configs 9).entering?.map (fun found =>
      decide (found.2.Conforms [5] #[5, 7, 0, 0])) = some false := by decide +kernel
  rw [found] at place fails
  rw [next] at stack
  replace stack : entered.execution.stack = #[5, 7, 0, 0] := Option.some.inj stack
  refine ⟨entering, frame, entered, registers, found, next, stack, Option.some.inj place, ?_⟩
  rw [stack]
  exact of_decide_eq_false (Option.some.inj fails)

end Config

end ScriptMachine

import ScriptMachine.Proofs.SparedSlots

/-!
# Slots of callers

Whatever a callee does, calls, or waits for until it returns, the slots below its base keep their
values. Its caller then goes on with the result of the callee right above these slots. They can be
written from outside only: when the thread is handed a result in a call that has none, or when a
function is started above frames that a hook has left it.
-/

namespace ScriptMachine

variable {ν σ : Type}

namespace Config

variable {host : Host ν σ} {config : Config ν σ} {run : Run ν σ} {registers : Registers ν}
  {callee : Frame ν} {callers : List (Frame ν)}

/-! ## Calls and returns -/

/-- A run calls a script function, whose frame it pushes above those of its callers. Its own frame,
the first of them, is to be continued behind the call. -/
structure CallsScript (host : Host ν σ) (config : Config ν σ) (run : Run ν σ)
    (registers : Registers ν) (result : ResultKind) (following : Nat) (callee : Frame ν)
    (callers : List (Frame ν)) : Prop where
  executes : config.focus = .execute run registers
  calls : ∃ argc index, Instruction.decode registers.function.code registers.pc =
    .ok (.script result argc index, following)
  enters : ∃ called, (config.step host).focus = .enter called ∧
    called.execution.frames = callee :: callers

/-- A run is about to return from the function of the frame right above these callers. -/
structure ReturnsTo (config : Config ν σ) (run : Run ν σ) (registers : Registers ν)
    (result : ResultKind) (callers : List (Frame ν)) : Prop where
  executes : config.focus = .execute run registers
  returns : ∃ following, Instruction.decode registers.function.code registers.pc =
    .ok (.ret result, following)
  last : ∃ frame, run.execution.frames = frame :: callers

/-- The frames of the run tell what a call has pushed. -/
theorem CallsScript.of_entering {result : ResultKind} {argc index : UInt8} {following : Nat}
    (executes : config.focus = .execute run registers)
    (decodes : Instruction.decode registers.function.code registers.pc =
      .ok (.script result argc index, following))
    (entering : (config.step host).entering?.map (fun entering => entering.1.execution.frames) =
      some (callee :: callers)) :
    config.CallsScript host run registers result following callee callers := by
  obtain ⟨⟨called, frame⟩, enters, frames⟩ := Option.map_eq_some_iff.1 entering
  exact ⟨executes, ⟨argc, index, decodes⟩, called, (entering?_eq_some.1 enters).1, frames⟩

/-- What a call of a script function does to the frames of its run. -/
theorem CallsScript.pushes {result : ResultKind} {following : Nat}
    (calls : config.CallsScript host run registers result following callee callers)
    (at' : run.At registers) :
    ∃ (called : Run ν σ) (frame : Frame ν) (outer : List (Frame ν)),
      (config.step host).focus = .enter called ∧ called.thread = run.thread ∧
      called.execution = ⟨callee :: callers, run.execution.stack⟩ ∧
      callers =
        { frame with pc := some following, top := callee.base + result.count } :: outer ∧
      frame.function = registers.function ∧ frame.base = registers.base ∧
      callee.base ≤ registers.sp := by
  obtain ⟨frame, outer, first, function, base⟩ := at'.innermost
  obtain ⟨executes, ⟨argc, index, decoded⟩, called, enters, frames⟩ := calls
  refine ⟨called, frame, outer, enters, ?_⟩
  simp only [step, executes, Config.execute, decoded, Instruction.effect] at enters
  generalize config.emit host _ = shown at enters
  cases looked : shown.world.domain.thread run.thread with
  | error fault =>
    rw [looked] at enters
    cases enters
  | ok thread =>
    rw [looked, attempt_ok] at enters
    unfold callScript at enters
    split at enters
    · cases enters
    · split at enters
      · cases enters
      · dsimp only at enters
        split at enters
        · cases stored : storeResult _ result (registers.sp - argc.toNat) 0 with
          | error fault =>
            rw [stored] at enters
            cases enters
          | ok stack =>
            rw [stored, attempt_ok] at enters
            cases enters
        · cases enters
          simp only [Run.setFrames, Run.saveFrame, first] at frames
          obtain ⟨rfl, rfl⟩ := List.cons.inj frames
          refine ⟨run.thread_saveFrame .., ?_, rfl, function, base, Nat.sub_le _ _⟩
          simp only [Run.setFrames, Run.saveFrame, first]

end Config

/-- A return instruction that finds its operand leaves the frame. A result goes from the top of the
operand stack to the base of the frame. -/
theorem Function.Ready.effect_ret {function : Function ν} {base pc sp : Nat}
    {stack : Array Int32} {result : ResultKind}
    (ready : function.Ready base pc sp stack.size (.ret result))
    (fits : function.Fits base pc sp stack.size) (reach : Variables) :
    ∃ after, (Instruction.ret result).effect reach base stack sp = .ret after ∧
      after.size = stack.size ∧ Agree base after stack ∧
      (result = .int → ∃ value, Effect.top? stack sp = some value ∧
        after[base]? = some value) := by
  have inside := ready.slots fits
  have enough := ready.enough
  cases result with
  | void => exact ⟨stack, rfl, rfl, .refl stack, nofun⟩
  | int =>
    simp only [Instruction.stackEffect, ResultKind.count] at enough
    have top : sp - 1 < stack.size := inside _ (by simp [Instruction.slots])
    have bottom : base < stack.size := inside _ (by simp [Instruction.slots])
    have filled : sp ≠ 0 := by omega
    refine ⟨stack.set! base stack[sp - 1], ?_, by simp, .written stack (Nat.le_refl base) _,
      fun _ => ⟨stack[sp - 1], ?_, by simp [bottom]⟩⟩
    · simp only [Instruction.effect]
      rw [Effect.withTop_eq (by omega) top, if_pos bottom]
    · simp only [Effect.top?, filled, ↓reduceIte, Array.getElem?_eq_getElem top]

namespace Config

variable {host : Host ν σ} {config : Config ν σ} {run : Run ν σ} {registers : Registers ν}
  {callers : List (Frame ν)}

/-- A function returns: its frame is left, and its caller is to be continued. -/
theorem ReturnsTo.leaves {result : ResultKind}
    (returns : config.ReturnsTo run registers result callers) (at' : run.At registers)
    (present : (config.world.domain.thread? run.thread).isSome) :
    ∃ left : Run ν σ, (config.step host).focus = .enter left ∧ left.thread = run.thread ∧
      left.execution.frames = callers ∧
      left.execution.stack.size = run.execution.stack.size ∧
      Agree registers.base left.execution.stack run.execution.stack ∧
      (result = .int → ∃ value, Effect.top? run.execution.stack registers.sp = some value ∧
        left.execution.stack[registers.base]? = some value) := by
  obtain ⟨executes, ⟨following, decoded⟩, frame, frames⟩ := returns
  obtain ⟨instruction, ready⟩ := at'.fits.ready
  obtain ⟨rfl, _⟩ := Prod.mk.inj (Except.ok.inj (ready.decode.symm.trans decoded))
  obtain ⟨thread, known⟩ := Option.isSome_iff_exists.1 present
  obtain ⟨stack, effect, size, agree, value⟩ := ready.effect_ret at'.fits
    ⟨config.world.domain.globals, config.world.domain.specials, thread.variables⟩
  refine ⟨(run.setStack stack).setFrames callers, ?_, rfl, rfl, size, agree, value⟩
  simp only [step, executes, Config.execute, decoded, emit_world, Domain.thread_eq_ok.2 known,
    attempt_ok, effect, leaveFrame, goto_focus, frames, List.tail_cons]

/-- A frame that is to be continued is continued. -/
theorem step_enter {frame : Frame ν} {outer : List (Frame ν)} {pc : Nat}
    (enters : config.focus = .enter run) (frames : run.execution.frames = frame :: outer)
    (saved : frame.pc = some pc) :
    (config.step host).focus = .execute run ⟨frame.function, frame.base, pc, frame.top⟩ := by
  simp only [step, enters, enterFrame, frames, saved, goto_focus]

/-! ## From the call to the return -/

section

variable {configs : Nat → Config ν σ} {id : ThreadId} {callee : Frame ν} {slots : Array Int32}

/-- A thread has its callee above the callers, and the slots below the callee are spared. -/
def Shelters (id : ThreadId) (callee : Frame ν) (callers : List (Frame ν)) (slots : Array Int32)
    (config : Config ν σ) : Prop :=
  ∃ execution, config.execution? id = some execution ∧ execution.Above callee callers slots

/-- What follows a configuration spares the slots below a callee, as long as it is there. -/
theorem Shelters.next {next : Config ν σ} (occupied : callers ≠ [])
    (hosted : host.Asks Request.RegistersVerified)
    (reached : config.Reachable host Request.RegistersVerified)
    (precedes : config.Precedes host Request.RegistersVerified next)
    (shelters : config.Shelters id callee callers slots) (spares : config.HooksSpare id)
    (hands : config.HandsAwaited id) (inside : callers.length < next.depth id) :
    next.Shelters id callee callers slots := by
  by_cases stopped : ∃ fault, config.focus = .faulted fault
  · -- A machine that has stopped for a misuse stays as it is.
    obtain ⟨fault, focus⟩ := stopped
    have same : next = config := by
      rw [precedes.eq_step (by simp [focus]), step_of_isFinal host (by simp [isFinal, focus])]
    rwa [same]
  · obtain ⟨execution, found, above⟩ := shelters
    have disciplined := (nested_of_reachable reached).disciplined fun fault focus =>
      stopped ⟨fault, focus⟩
    have everywhere := disciplined.executes found above
    have spared : next.Executes id (·.Spares callee callers slots) := by
      cases precedes with
      | step =>
        exact everywhere.step host occupied (sound_of_reachable hosted reached)
          (stacked_of_reachable hosted reached) spares hands
      | again ended state body asks =>
        exact ⟨⟨(everywhere.toAside.mono fun _ => .inr).domain, by simp [initial]⟩,
          fun run found => by cases found⟩
    obtain ⟨later, there, deep⟩ := exists_of_depth inside
    exact ⟨later, there, (spared.of_execution? there).resolve_left (Nat.not_le.2 deep)⟩

/-- While a callee is there, the slots below it are spared. -/
theorem shelters_of_calls {start time following : Nat} {result : ResultKind}
    (hosted : host.Asks Request.RegistersVerified)
    (history : History host Request.RegistersVerified configs)
    (calls : (configs start).CallsScript host run registers result following callee callers)
    (later : start < time)
    (inside : ∀ moment, start < moment → moment ≤ time →
      callers.length < (configs moment).depth run.thread)
    (undisturbed : ∀ moment, start < moment → moment < time →
      (configs moment).HooksSpare run.thread ∧ (configs moment).HandsAwaited run.thread) :
    (configs time).Shelters run.thread callee callers run.execution.stack := by
  have fits := (sound_of_reachable hosted (history.reachable start)).focus
  rw [calls.executes] at fits
  obtain ⟨called, frame, outer, enters, thread, execution, frames, _, _, high⟩ :=
    calls.pushes fits.2
  have occupied : callers ≠ [] := by simp [frames]
  induction time, later using Nat.le_induction with
  | base =>
    have next := (history.goes start).eq_step (by simp [calls.executes])
    rw [next]
    have found := @execution?_of_run _ _ ((configs start).step host) called (by rw [enters]; rfl)
    rw [thread] at found
    have stands : called.execution.frames = [] ++ callee :: callers := by rw [execution]; rfl
    refine ⟨called.execution, found, ⟨[], callee, stands, rfl, rfl, by simp⟩, ?_, ?_⟩
    · obtain ⟨_, top, room⟩ := fits.2.fits.bounds
      rw [execution]
      dsimp only
      omega
    · rw [execution]
      exact .refl _
  | succ time later ih =>
    have shelters := ih (fun moment after before => inside moment after (by omega))
      fun moment after before => undisturbed moment after (by omega)
    obtain ⟨spares, hands⟩ := undisturbed time later (Nat.lt_succ_self time)
    exact shelters.next occupied hosted (history.reachable time) (history.goes time) spares hands
      (inside (time + 1) (by omega) (Nat.le_refl _))

/-- From a script call on, and as long as the frame of the callee is there, the slots of the operand
stack below its base keep what they have held, provided that the thread is handed results for native
calls with a result only, and that no hook leaves it frames when it is to make room for a function.
When the callee returns, its caller goes on behind the call with the same slots. If the call has a
result, the caller has one more operand then, right above these slots, and if the callee returns
one, it is the topmost operand of the callee. -/
theorem callees_spare_caller_slots {start time following : Nat} {result : ResultKind}
    (hosted : host.Asks Request.RegistersVerified)
    (history : History host Request.RegistersVerified configs)
    (calls : (configs start).CallsScript host run registers result following callee callers)
    (later : start < time)
    (inside : ∀ moment, start < moment → moment ≤ time →
      callers.length < (configs moment).depth run.thread)
    (undisturbed : ∀ moment, start < moment → moment < time →
      (configs moment).HooksSpare run.thread ∧ (configs moment).HandsAwaited run.thread) :
    (∃ execution, (configs time).execution? run.thread = some execution ∧
        execution.Above callee callers run.execution.stack) ∧
      ∀ returning last kind, (configs time).ReturnsTo returning last kind callers →
        returning.thread = run.thread →
        ∃ after, (configs (time + 2)).focus =
            .execute after (registers.move following (callee.base + result.count)) ∧
          after.thread = run.thread ∧ after.execution.frames = callers ∧
          Agree callee.base after.execution.stack run.execution.stack ∧
          (kind = .int → ∃ value, Effect.top? returning.execution.stack last.sp = some value ∧
            after.execution.stack[callee.base]? = some value) := by
  have shelters := shelters_of_calls hosted history calls later inside undisturbed
  refine ⟨shelters, fun returning last kind returns same => ?_⟩
  have sound (moment : Nat) := sound_of_reachable hosted (history.reachable moment)
  -- The caller has recorded where it is to be continued.
  have caller := (sound start).focus
  rw [calls.executes] at caller
  obtain ⟨_, frame, outer, _, _, _, frames, function, base, _⟩ := calls.pushes caller.2
  -- The callee is the last frame above its callers.
  have fits := (sound time).focus
  rw [returns.executes] at fits
  obtain ⟨execution, found, above⟩ := shelters
  have atHand : (configs time).focus.run? = some returning := by
    rw [returns.executes]
    rfl
  have held := execution?_of_run atHand
  rw [same, found] at held
  obtain rfl := Option.some.inj held
  have bottom : last.base = callee.base := by
    obtain ⟨own, others, first, _, place⟩ := fits.2.innermost
    obtain ⟨single, frames⟩ := returns.last
    obtain ⟨lowest, whole, _, there⟩ := above.alone (by simp [frames])
    obtain ⟨rfl, _⟩ := List.cons.inj (first.symm.trans whole)
    exact place.symm.trans there
  have present : ((configs time).world.domain.thread? returning.thread).isSome := by
    have disciplined := (nested_of_reachable (history.reachable time)).disciplined
      (by simp [returns.executes])
    obtain ⟨thread, present, _⟩ := (disciplined.taken returning.thread).1
      (List.mem_map_of_mem (List.mem_append_left _ (by simp [atHand])))
    exact Option.isSome_iff_exists.2 ⟨thread, present⟩
  obtain ⟨left, enters, thread, remaining, size, agree, value⟩ :=
    @ReturnsTo.leaves _ _ host _ _ _ _ _ returns fits.2 present
  rw [bottom] at agree value
  have one := (history.goes time).eq_step (by simp [returns.executes])
  have two := (history.goes (time + 1)).eq_step (by simp [one, enters])
  have goes := @step_enter _ _ host (configs (time + 1)) left _ outer following
    (by rw [one]; exact enters) (remaining.trans frames) rfl
  rw [← two] at goes
  refine ⟨left, ?_, thread.trans same, remaining, agree.trans above.kept, value⟩
  rw [goes, function, base]
  rfl

end

/-- The nested call is suspended, is handed nine and returns it. Its caller goes on with nine right
above the slot that holds its operand. -/
theorem callees_spare_caller_slots_resumed :
    let configs := fun time => (Config.initial {} () resuming).run suspendingHost time
    suspendingHost.Asks Request.RegistersVerified ∧
      History suspendingHost Request.RegistersVerified configs ∧
      (configs 13).handsTo? = some ⟨0⟩ ∧ ∃ run after,
        (configs 6).CallsScript suspendingHost run ⟨.trusted adding 2, 0, 2, 1⟩ .int 5
            ⟨.trusted awaiting 1, none, 1, 1⟩ [⟨.trusted adding 2, some 5, 0, 2⟩] ∧
          run.execution.stack = #[3, 0] ∧
          (configs 18).focus = .execute after ⟨.trusted adding 2, 0, 5, 2⟩ ∧
          after.execution.frames = [⟨.trusted adding 2, some 5, 0, 2⟩] ∧
          Agree 1 after.execution.stack #[3, 0] ∧ after.execution.stack[1]? = some 9 := by
  intro configs
  have hosted := suspendingHost_asks
  have asks : resuming.Asks Request.RegistersVerified :=
    ⟨verified_awaiting, fun _ => ⟨verified_adding, fun _ => ⟨trivial, fun _ => ⟨trivial, fun _ =>
      ⟨trivial, fun _ => ⟨trivial, fun _ => trivial⟩⟩⟩⟩⟩⟩
  have history : History suspendingHost Request.RegistersVerified configs := .of_initial () asks
  -- The call and the return are read off the machine.
  obtain ⟨run, executes, same, taken⟩ := @exists_executes _ _ (configs 6)
    ⟨.trusted adding 2, 0, 2, 1⟩ ⟨0⟩ ⟨[⟨.trusted adding 2, none, 0, 0⟩], #[3, 0]⟩
    (by decide +kernel) (by decide +kernel)
  have calls : (configs 6).CallsScript suspendingHost run ⟨.trusted adding 2, 0, 2, 1⟩ .int 5
      ⟨.trusted awaiting 1, none, 1, 1⟩ [⟨.trusted adding 2, some 5, 0, 2⟩] :=
    @CallsScript.of_entering _ _ _ _ _ _ _ _ _ 0 0 _ executes (by decide +kernel)
      (by decide +kernel)
  obtain ⟨leaving, focus, thread, left⟩ := @exists_executes _ _ (configs 16)
    ⟨.trusted awaiting 1, 1, 5, 2⟩ ⟨0⟩
    ⟨[⟨.trusted awaiting 1, some 5, 1, 2⟩, ⟨.trusted adding 2, some 5, 0, 2⟩], #[3, 9]⟩
    (by decide +kernel) (by decide +kernel)
  have returns : (configs 16).ReturnsTo leaving ⟨.trusted awaiting 1, 1, 5, 2⟩ .int
      [⟨.trusted adding 2, some 5, 0, 2⟩] :=
    ⟨focus, ⟨6, by decide +kernel⟩, _, congrArg Execution.frames left⟩
  -- The result that is handed over in between is awaited.
  have awaited : (configs 13).world.domain.AwaitsInt ⟨0⟩ := by
    have stands : (configs 13).world.domain.standing? ⟨0⟩ =
        some ([⟨awaiting.code, some 5, 1, 2⟩, ⟨adding.code, some 5, 0, 2⟩], #[3, 0]) := by
      decide +kernel
    have listed : (2, Instruction.native .static .int 1 0) ∈
        awaiting.code.instructions.instructions := by decide +kernel
    exact (stacked_of_reachable hosted (history.reachable 13)).awaitsInt stands listed rfl
  have starts : ∀ moment < 16, 6 < moment → (configs moment).startsOn? = none := by decide +kernel
  have hands : ∀ moment < 16, 6 < moment → moment ≠ 13 → (configs moment).handsTo? = none := by
    decide +kernel
  have undisturbed : ∀ moment, 6 < moment → moment < 16 →
      (configs moment).HooksSpare run.thread ∧ (configs moment).HandsAwaited run.thread := by
    intro moment later earlier
    rw [same]
    refine ⟨fun _ _ _ _ made => ?_, fun given => ?_⟩
    · cases made.startsOn?.symm.trans (starts moment earlier later)
    · by_cases here : moment = 13
      · exact here ▸ awaited
      · cases given.symm.trans (hands moment earlier later here)
  have inside : ∀ moment ≤ 16, 6 < moment → 1 < (configs moment).depth ⟨0⟩ := by decide +kernel
  obtain ⟨after, goes, _, frames, agree, value⟩ :=
    (callees_spare_caller_slots hosted history calls (by decide : 6 < 16)
      (fun moment later earlier => by rw [same]; exact inside moment earlier later)
      undisturbed).2 leaving _ .int returns (thread.trans same.symm)
  obtain ⟨nine, topmost, there⟩ := value rfl
  rw [left] at topmost
  obtain rfl : 9 = nine := Option.some.inj topmost
  rw [taken] at agree
  exact ⟨hosted, history, by decide +kernel, run, after, calls, by rw [taken], goes, frames, agree,
    there⟩

/-- A function that calls its native method. -/
def pausing : Definition Unit where
  name := "pausing"
  code := #[0x29, 0, 0, 0x2D]
  methods := #[()]

/-- A function that keeps seven in its local while it calls the first function of the domain, and
answers what the local holds then. -/
def keeping : Definition Unit where
  name := "keeping"
  code := #[0x0A, 7, 0x06, 0, 0x2B, 0, 0, 0x05, 0, 0x2E]
  «locals» := 1

/-- A function that puts nine into its local. -/
def overwriting : Definition Unit where
  name := "overwriting"
  code := #[0x0A, 9, 0x06, 0, 0x2D]
  «locals» := 1

/-- The function that verification makes of `pausing`. -/
theorem verified_pausing : (Function.trusted pausing 0).Verified := by
  have slots : pausing.verify {} = .ok 0 := by cbv
  exact .of_verify slots

/-- The function that verification makes of `keeping`. -/
theorem verified_keeping : (Function.trusted keeping 2).Verified := by
  have slots : keeping.verify {} = .ok 2 := by cbv
  exact .of_verify slots

/-- The function that verification makes of `overwriting`. -/
theorem verified_overwriting : (Function.trusted overwriting 2).Verified := by
  have slots : overwriting.verify {} = .ok 2 := by cbv
  exact .of_verify slots

/-- A host whose native methods suspend the thread that calls them, and whose hooks run the second
function on the first thread. -/
def rerunningHost : Host Unit Unit where
  native _ _ := .bind (.update (.suspendActive none)) fun _ => .done 0
  onAbort _ _ := .ask (.run ⟨0⟩ ⟨1⟩) fun _ => .done 0
  onLimit _ _ state := state
  onEvent _ _ state := state

/-- A suspended thread with a hook is started and continued. -/
def startingAbove : Program Unit Unit Int32 := do
  let _ ← Program.update (.addFunction (.trusted pausing 0))
  let _ ← Program.update (.addFunction (.trusted keeping 2))
  let _ ← Program.update (.addFunction (.trusted overwriting 2))
  let _ ← Program.update .createThread
  let _ ← Program.update (.suspend ⟨0⟩ (some (.custom ())))
  let _ ← Program.request (.start ⟨0⟩ ⟨2⟩)
  let _ ← Program.request (.resume ⟨0⟩)
  return 0

/-- The hook that is called to make room for a function leaves the thread suspended in a callee. The
function is started above it, at the bottom of the operand stack: when the callee returns, the local
of its caller has changed, though no result has been handed to the thread. -/
theorem start_overwrites_caller_slot :
    let configs := fun time => (Config.initial {} () startingAbove).run rerunningHost time
    rerunningHost.Asks Request.RegistersVerified ∧
      History rerunningHost Request.RegistersVerified configs ∧
      (∀ moment ≤ 23, 10 < moment →
        1 < (configs moment).depth ⟨0⟩ ∧ (configs moment).handsTo? = none) ∧
      ∃ run returning,
        (configs 10).CallsScript rerunningHost run ⟨.trusted keeping 2, 0, 4, 1⟩ .void 7
            ⟨.trusted pausing 0, none, 1, 1⟩ [⟨.trusted keeping 2, some 7, 0, 1⟩] ∧
          run.thread = ⟨0⟩ ∧ run.execution.stack[0]? = some 7 ∧
          (configs 23).ReturnsTo returning ⟨.trusted pausing 0, 1, 3, 1⟩ .void
            [⟨.trusted keeping 2, some 7, 0, 1⟩] ∧
          returning.thread = ⟨0⟩ ∧ returning.execution.stack[0]? = some 9 := by
  intro configs
  have hosted : rerunningHost.Asks Request.RegistersVerified :=
    ⟨fun _ _ => ⟨trivial, fun _ => trivial⟩, fun _ _ => ⟨trivial, fun _ => trivial⟩⟩
  have asks : startingAbove.Asks Request.RegistersVerified :=
    ⟨verified_pausing, fun _ => ⟨verified_keeping, fun _ => ⟨verified_overwriting, fun _ =>
      ⟨trivial, fun _ => ⟨trivial, fun _ => ⟨trivial, fun _ => ⟨trivial, fun _ => trivial⟩⟩⟩⟩⟩⟩⟩
  obtain ⟨run, executes, same, taken⟩ := @exists_executes _ _ (configs 10)
    ⟨.trusted keeping 2, 0, 4, 1⟩ ⟨0⟩ ⟨[⟨.trusted keeping 2, none, 0, 0⟩], #[7, 7]⟩
    (by decide +kernel) (by decide +kernel)
  obtain ⟨returning, focus, thread, left⟩ := @exists_executes _ _ (configs 23)
    ⟨.trusted pausing 0, 1, 3, 1⟩ ⟨0⟩
    ⟨[⟨.trusted pausing 0, some 3, 1, 1⟩, ⟨.trusted keeping 2, some 7, 0, 1⟩], #[9, 9]⟩
    (by decide +kernel) (by decide +kernel)
  have calls : (configs 10).CallsScript rerunningHost run ⟨.trusted keeping 2, 0, 4, 1⟩ .void 7
      ⟨.trusted pausing 0, none, 1, 1⟩ [⟨.trusted keeping 2, some 7, 0, 1⟩] :=
    @CallsScript.of_entering _ _ _ _ _ _ _ _ _ 0 0 _ executes (by decide +kernel)
      (by decide +kernel)
  have returns : (configs 23).ReturnsTo returning ⟨.trusted pausing 0, 1, 3, 1⟩ .void
      [⟨.trusted keeping 2, some 7, 0, 1⟩] :=
    ⟨focus, ⟨4, by decide +kernel⟩, _, congrArg Execution.frames left⟩
  exact ⟨hosted, .of_initial () asks, by decide +kernel, run, returning, calls, same,
    by rw [taken]; rfl, returns, thread, by rw [left]; rfl⟩

end Config

end ScriptMachine

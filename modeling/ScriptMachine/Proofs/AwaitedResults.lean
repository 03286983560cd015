import ScriptMachine.Proofs.CallChains
import ScriptMachine.Proofs.Stopping

/-!
# Results handed to suspended threads

A suspended thread does not record which kind of native call it waits in. A result that is handed to
it goes to the topmost slot of its innermost frame. If the call has a result, this is the slot that
the call has left for it, which holds no local and no live operand of any frame. If the call has
none, the slot belongs to somebody: to the innermost frame, or to one of those that have called it.
Only if no frame has a slot is there nothing to write to, and the result is declined.
-/

namespace ScriptMachine

variable {ν σ : Type}

namespace CallChain

variable {frame callee owner : Frame ν} {inner outer : List (Frame ν)} {slot : Nat}

/-- What a frame owns lies below the frames that have been called from it. -/
theorem owned_lt (chain : CallChain (callee :: (inner ++ owner :: outer)))
    (apart : ∀ frame ∈ callee :: inner, frame.base ≠ 0) (owns : owner.Owns slot) :
    slot < callee.base := by
  obtain ⟨instruction, result, base, awaits, low, high⟩ := owns
  induction inner generalizing callee with
  | nil =>
    cases chain with
    | entry bottom _ => exact absurd bottom (apart callee List.mem_cons_self)
    | called calls _ =>
      obtain ⟨_, _, rfl⟩ := calls.unique awaits
      exact high
  | cons caller inner ih =>
    have below := ih chain.tail fun frame listed => apart frame (List.mem_cons_of_mem _ listed)
    cases chain with
    | entry bottom _ => exact absurd bottom (apart callee List.mem_cons_self)
    | called calls _ =>
      have locals := calls.locals_le
      omega

/-- The place of the awaited result belongs to no frame of the same entry. -/
theorem not_owns {instruction : Instruction} {result : ResultKind} {base : Nat}
    {rest : List (Frame ν)} (chain : CallChain (frame :: outer))
    (awaits : frame.Awaits instruction result base)
    (split : frame :: outer = inner ++ owner :: rest)
    (apart : ∀ callee ∈ inner, callee.base ≠ 0) : ¬owner.Owns base := by
  intro owns
  cases inner with
  | nil =>
    cases split
    obtain ⟨_, _, place, also, _, below⟩ := owns
    obtain ⟨_, _, rfl⟩ := awaits.unique also
    omega
  | cons callee inner =>
    cases split
    have below := chain.owned_lt apart owns
    have locals := awaits.locals_le
    omega

/-- Whatever lies below the place of the awaited result is owned by some frame. -/
theorem exists_owner {instruction : Instruction} {result : ResultKind} {base : Nat}
    (chain : CallChain (frame :: outer)) (awaits : frame.Awaits instruction result base)
    (below : slot < base) : ∃ owner ∈ frame :: outer, owner.Owns slot := by
  induction outer generalizing frame instruction result base with
  | nil =>
    cases chain with
    | entry bottom _ =>
      exact ⟨frame, List.mem_cons_self, instruction, result, base, awaits, by omega, below⟩
  | cons caller outer ih =>
    rcases Nat.lt_or_ge slot frame.base with outside | inside
    · cases chain with
      | entry bottom _ => omega
      | called calls chain =>
        obtain ⟨owner, listed, owns⟩ := ih chain calls outside
        exact ⟨owner, List.mem_cons_of_mem _ listed, owns⟩
    · exact ⟨frame, List.mem_cons_self, instruction, result, base, awaits, inside, below⟩

end CallChain

namespace Domain

variable {domain : Domain ν} {id : ThreadId} {thread : Thread ν} {execution : Execution ν}
  {frame : Frame ν} {outer : List (Frame ν)}

/-- One slot of the operand stack of a thread is written. -/
def write (domain : Domain ν) (id : ThreadId) (thread : Thread ν) (execution : Execution ν)
    (slot : Nat) (value : Int32) : Domain ν :=
  domain.setThread id
    { thread with execution := some { execution with stack := execution.stack.set! slot value } }

/-- A result that is handed to a suspended thread is written to the topmost slot of the innermost
frame, if there is one. -/
theorem supplyResult_eq (present : domain.thread? id = some thread)
    (suspended : thread.suspended = true) (held : thread.execution = some execution)
    (frames : execution.frames = frame :: outer) (started : frame.pc.isSome) (value : Int32) :
    domain.supplyResult id value =
      if 0 < frame.top ∧ frame.top - 1 < execution.stack.size then
        .ok (.ok (domain.write id thread execution (frame.top - 1) value))
      else .ok (.error .noPendingResult) := by
  obtain ⟨pc, saved⟩ := Option.isSome_iff_exists.1 started
  have looked := thread_eq_ok.2 present
  have awaited : ¬frame.pc.isNone = true := by simp [saved]
  obtain ⟨taken, vars, parked, waitingOn, hook, pendingAbort, joinQueue⟩ := thread
  cases suspended
  cases held
  obtain ⟨list, stack⟩ := execution
  cases frames
  unfold supplyResult
  rw [looked]
  change (if frame.pc.isNone = true then _ else _) = _
  rw [if_neg awaited]
  rfl

end Domain

/-- The code of a frame and where it is to be continued. -/
structure Standing where
  code : Code
  pc : Option Nat
  base : Nat
  top : Nat
  deriving DecidableEq

/-- How a frame stands. -/
def Frame.standing (frame : Frame ν) : Standing :=
  ⟨frame.function.code, frame.pc, frame.base, frame.top⟩

/-- How the frames of a suspended thread stand, and the operand stack. -/
def Domain.standing? (domain : Domain ν) (id : ThreadId) : Option (List Standing × Array Int32) :=
  match domain.thread? id with
  | none => none
  | some thread =>
    if thread.suspended then
      thread.execution.map fun execution =>
        (execution.frames.map Frame.standing, execution.stack)
    else none

/-- A suspended thread whose frames stand like this. -/
theorem Domain.standing?_eq_some {domain : Domain ν} {id : ThreadId} {list : List Standing}
    {stack : Array Int32} (stands : domain.standing? id = some (list, stack)) :
    ∃ thread execution, domain.thread? id = some thread ∧ thread.suspended = true ∧
      thread.execution = some execution ∧ execution.frames.map Frame.standing = list ∧
      execution.stack = stack := by
  unfold standing? at stands
  split at stands
  · cases stands
  · rename_i thread present
    split at stands
    · rename_i suspended
      obtain ⟨execution, held, same⟩ := Option.map_eq_some_iff.1 stands
      cases same
      exact ⟨thread, execution, present, suspended, held, rfl, rfl⟩
    · cases stands

namespace Config

variable {host : Host ν σ} {config : Config ν σ} {id : ThreadId} {thread : Thread ν}
  {execution : Execution ν} {frame : Frame ν} {outer : List (Frame ν)}

/-- A woken thread is handed the result that it is supplied with. -/
theorem handResult_supplied {domain supplied : Domain ν} {value : Int32}
    (done : domain.supplyResult id value = .ok (.ok supplied)) :
    handResult domain id (some value) = .ok (.ok supplied) := by
  simp only [handResult, bind, Except.bind, done]
  rfl

/-- A woken thread that awaits no result is handed none. -/
theorem handResult_declined {domain : Domain ν} {value : Int32}
    (done : domain.supplyResult id value = .ok (.error .noPendingResult)) :
    handResult domain id (some value) = handResult domain id none := by
  simp only [handResult, bind, Except.bind, done]
  rfl

/-- A result handed to a thread changes the domain like this, also when it is handed over as the
thread is woken. -/
structure Supplies (host : Host ν σ) (config : Config ν σ) (id : ThreadId) (value : Int32)
    (supplied : Domain ν) : Prop where
  update : config.world.domain.supplyResult id value = .ok (.ok supplied)
  wake : ∀ queue next, (config.world.domain.waitersOf queue).head? = some id →
    config.wake host queue (some value) next = (config.setDomain supplied).wake host queue none next

/-- A result handed to a thread is declined and changes nothing, also when it is handed over as the
thread is woken. -/
structure Declines (host : Host ν σ) (config : Config ν σ) (id : ThreadId) (value : Int32) :
    Prop where
  update : config.world.domain.supplyResult id value = .ok (.error .noPendingResult)
  wake : ∀ queue next, (config.world.domain.waitersOf queue).head? = some id →
    config.wake host queue (some value) next = config.wake host queue none next

/-- Waking the thread that waits longest takes it out of its queue and hands it the result. -/
theorem wake_eq (host : Host ν σ) (config : Config ν σ) {queue : QueueId}
    {rest : List ThreadId} (present : config.world.domain.thread? id = some thread)
    (held : thread.execution = some execution)
    (waiters : config.world.domain.waiters queue = .ok (id :: rest)) (value : Option Int32)
    (next : Answer ν → Body ν σ) :
    config.wake host queue value next =
      let popped := (config.world.domain.setWaiters queue rest).setThread id
        { thread with waitingOn := none }
      (config.setDomain popped).attempt (handResult popped id value) fun
        | .error error => (config.setDomain popped).goto (.body (next (.refused (.thread error))))
        | .ok domain => (config.setDomain domain).continueThread host id .woken next := by
  have looked := Domain.thread_eq_ok.2 present
  have first : config.world.domain.nextWaiter? queue = .ok (some id) := by
    unfold Domain.nextWaiter?
    rw [waiters]
    rfl
  have popped : config.world.domain.popWaiter queue =
      .ok ((config.world.domain.setWaiters queue rest).setThread id
        { thread with waitingOn := none }, some id) := by
    unfold Domain.popWaiter
    rw [waiters]
    change (config.world.domain.setWaiters queue rest).thread id >>= _ = _
    have there : (config.world.domain.setWaiters queue rest).thread id = .ok thread := looked
    rw [there]
    rfl
  have idle : ¬thread.isRunning = true := by simp [Thread.isRunning, held]
  unfold wake
  dsimp only
  rw [first, attempt_ok]
  dsimp only
  rw [looked, attempt_ok, if_neg idle, popped, attempt_ok]
  rfl

section

variable {value : Int32} (present : config.world.domain.thread? id = some thread)
  (suspended : thread.suspended = true) (held : thread.execution = some execution)
  (frames : execution.frames = frame :: outer) (started : frame.pc.isSome)

include present suspended held frames started

/-- A thread whose innermost frame has a topmost slot is supplied with the result. -/
theorem supplies (inside : 0 < frame.top ∧ frame.top - 1 < execution.stack.size) :
    config.Supplies host id value
      (config.world.domain.write id thread execution (frame.top - 1) value) where
  update := by
    rw [Domain.supplyResult_eq present suspended held frames started, if_pos inside]
  wake queue next first := by
    obtain ⟨rest, waiting⟩ := List.head?_eq_some_iff.1 first
    have waiters := Domain.waiters_eq_ok.2
      ⟨Domain.queue_exists_of_mem (by rw [waiting]; exact List.mem_cons_self), waiting⟩
    let written : Execution ν :=
      { execution with stack := execution.stack.set! (frame.top - 1) value }
    let domain := config.world.domain.write id thread execution (frame.top - 1) value
    have there : domain.thread? id = some { thread with execution := some written } := by
      unfold domain Domain.write
      rw [Domain.thread?_setThread present, if_pos rfl]
    have popped := Domain.thread?_setThread
      ((Domain.thread?_setWaiters _ queue rest id).trans present)
      { thread with waitingOn := none } id
    rw [if_pos rfl] at popped
    have handed := Domain.supplyResult_eq popped suspended held frames started value
    rw [if_pos inside] at handed
    -- the result is written before or after the thread leaves its queue
    have same : (domain.setWaiters queue rest).setThread id
          { thread with execution := some written, waitingOn := none } =
        Domain.write ((config.world.domain.setWaiters queue rest).setThread id
          { thread with waitingOn := none }) id { thread with waitingOn := none } execution
          (frame.top - 1) value :=
      ((config.world.domain.setWaiters queue rest).setThread_setThread id _ _).trans
        ((config.world.domain.setWaiters queue rest).setThread_setThread id _ _).symm
    rw [wake_eq host config present held waiters,
      wake_eq host (config.setDomain domain) there rfl waiters]
    dsimp only
    rw [handResult_supplied handed]
    change _ = ((config.setDomain domain).setDomain _).attempt (Except.ok (Except.ok
      ((domain.setWaiters queue rest).setThread id
        { thread with execution := some written, waitingOn := none }))) _
    rw [same]
    rfl

/-- A thread whose innermost frame has no topmost slot declines the result. -/
theorem declines (outside : ¬(0 < frame.top ∧ frame.top - 1 < execution.stack.size)) :
    config.Declines host id value where
  update := by
    rw [Domain.supplyResult_eq present suspended held frames started, if_neg outside]
  wake queue next first := by
    obtain ⟨rest, waiting⟩ := List.head?_eq_some_iff.1 first
    have waiters := Domain.waiters_eq_ok.2
      ⟨Domain.queue_exists_of_mem (by rw [waiting]; exact List.mem_cons_self), waiting⟩
    have popped := Domain.thread?_setThread
      ((Domain.thread?_setWaiters _ queue rest id).trans present)
      { thread with waitingOn := none } id
    rw [if_pos rfl] at popped
    have declined := Domain.supplyResult_eq popped suspended held frames started value
    rw [if_neg outside] at declined
    rw [wake_eq host config present held waiters, wake_eq host config present held waiters]
    dsimp only
    rw [handResult_declined declined]

end

/-- The host that suspends the callers of its methods registers no functions. -/
theorem suspendingHost_asks : suspendingHost.Asks Request.RegistersVerified :=
  ⟨fun _ _ => ⟨trivial, fun _ => trivial⟩, fun _ _ => trivial⟩

/-- Whatever the host does, if it registers verified functions only: a suspended thread that is to
be continued awaits the result of a native call. If the call has a result, the thread is supplied
with it at the one place that the call has reserved, and this place belongs to no frame of the same
entry. If the call has none, a result is declined where the arguments of the call began at the
bottom of the operand stack, and is written below them otherwise, where it belongs to some frame. -/
theorem supplied_results_reach_int_calls {host : Host ν σ}
    (hosted : host.Asks Request.RegistersVerified) {config : Config ν σ}
    (reached : config.Reachable host Request.RegistersVerified) {id : ThreadId}
    {thread : Thread ν} {execution : Execution ν} {frame : Frame ν} {outer : List (Frame ν)}
    (present : config.world.domain.thread? id = some thread) (suspended : thread.suspended = true)
    (held : thread.execution = some execution) (frames : execution.frames = frame :: outer)
    (started : frame.pc.isSome) (value : Int32) :
    ∃ kind result argc method base,
      frame.Awaits (.native kind result argc method) result base ∧
      (result = .int → base < execution.stack.size ∧
        config.Supplies host id value (config.world.domain.write id thread execution base value) ∧
        ∀ inner owner rest, execution.frames = inner ++ owner :: rest →
          (∀ callee ∈ inner, callee.base ≠ 0) → ¬owner.Owns base) ∧
      (result = .void → (base = 0 → config.Declines host id value) ∧
        (0 < base →
          config.Supplies host id value
            (config.world.domain.write id thread execution (base - 1) value) ∧
          ∃ owner ∈ execution.frames, owner.Owns (base - 1))) := by
  have sound := (sound_of_reachable hosted reached).execution (.inl ⟨id, thread, present, held⟩)
  have parked := (stacked_of_reachable hosted reached).domain id thread execution present held
  obtain ⟨pc, saved⟩ := Option.isSome_iff_exists.1 started
  obtain ⟨kind, result, argc, method, base, awaits⟩ :=
    (parked.awaits frame outer frames).resolve_left (by simp [saved])
  have inside : frame.top ≤ execution.stack.size := by
    have fits := (sound frame (by simp [frames])).2 pc saved
    obtain ⟨_, high, room⟩ := fits.bounds
    omega
  have height := awaits.height
  have chain := parked.chain
  refine ⟨kind, result, argc, method, base, awaits, fun int => ?_, fun void => ?_⟩
  · subst int
    have top : frame.top - 1 = base := by
      rw [height]
      rfl
    have room : 0 < frame.top ∧ frame.top - 1 < execution.stack.size := by
      rw [ResultKind.count] at height
      omega
    refine ⟨top ▸ room.2, top ▸ supplies present suspended held frames started room, ?_⟩
    intro inner owner rest split apart
    rw [frames] at chain split
    exact chain.not_owns awaits split apart
  · subst void
    have top : frame.top = base := height
    refine ⟨fun bottom => ?_, fun positive => ⟨?_, ?_⟩⟩
    · exact declines present suspended held frames started (by omega)
    · rw [← top]
      exact supplies present suspended held frames started (by omega)
    · rw [frames] at chain ⊢
      exact chain.exists_owner awaits (by omega)

/-- The nested call is supplied with its result at the second slot, which belongs to neither
frame. -/
theorem supplied_results_reach_int_calls_nested :
    let config := (Config.initial {} () resuming).run suspendingHost 13
    suspendingHost.Asks Request.RegistersVerified ∧
      config.Reachable suspendingHost Request.RegistersVerified ∧
      ∃ thread execution, config.world.domain.thread? ⟨0⟩ = some thread ∧
        thread.suspended = true ∧ thread.execution = some execution ∧
        execution.stack = #[3, 0] ∧
        config.Supplies suspendingHost ⟨0⟩ 9
          (config.world.domain.write ⟨0⟩ thread execution 1 9) ∧
        ∀ owner ∈ execution.frames, ¬owner.Owns 1 := by
  intro config
  have hosted := suspendingHost_asks
  have asks : resuming.Asks Request.RegistersVerified :=
    ⟨verified_awaiting, fun _ => ⟨verified_adding, fun _ => ⟨trivial, fun _ => ⟨trivial, fun _ =>
      ⟨trivial, fun _ => ⟨trivial, fun _ => trivial⟩⟩⟩⟩⟩⟩
  have reached : config.Reachable suspendingHost Request.RegistersVerified :=
    .run (.initial () resuming asks) 13
  have stands : config.world.domain.standing? ⟨0⟩ =
      some ([⟨awaiting.code, some 5, 1, 2⟩, ⟨adding.code, some 5, 0, 2⟩], #[3, 0]) := by
    decide +kernel
  obtain ⟨thread, execution, present, suspended, held, standing, stack⟩ :=
    Domain.standing?_eq_some stands
  obtain ⟨inner, others, frames, first, second⟩ := List.map_eq_cons_iff.1 standing
  obtain ⟨outer, rest, only, second, none⟩ := List.map_eq_cons_iff.1 second
  obtain rfl := List.map_eq_nil_iff.1 none
  subst only
  obtain ⟨code, saved, bottom, top⟩ := Standing.mk.inj first
  obtain ⟨kind, result, argc, method, base, awaits, int, void⟩ :=
    supplied_results_reach_int_calls hosted reached present suspended held frames
      (by simp [saved]) 9
  have listed : (2, Instruction.native .static .int 1 0) ∈
      inner.function.code.instructions.instructions := by
    rw [code]
    decide +kernel
  cases awaits.instruction_eq listed saved
  obtain rfl : 1 = base := Nat.succ.inj (top.symm.trans awaits.height)
  obtain ⟨_, supplied, foreign⟩ := int rfl
  refine ⟨hosted, reached, thread, execution, present, suspended, held, stack, supplied, ?_⟩
  intro owner listed
  rw [frames] at listed foreign
  rcases List.mem_cons.1 listed with rfl | later
  · exact foreign [] owner _ rfl (by simp)
  · obtain rfl := List.mem_singleton.1 later
    exact foreign [inner] owner [] rfl (by simp [bottom])

/-- A function that calls its native method, which answers nothing, and then returns five. -/
def holding : Definition Unit where
  name := "holding"
  code := #[0x0A, 5, 0x29, 0, 0, 0x2E]
  methods := #[()]

/-- The function that verification makes of `holding`. -/
theorem verified_holding : (Function.trusted holding 1).Verified := by
  have slots : holding.verify {} = .ok 1 := by cbv
  exact .of_verify slots

/-- A thread is suspended in a call that has no result and is handed one; the host answers whether
this was done. -/
def supplyingVoid : Program Unit Unit Int32 := do
  let _ ← Program.update (.addFunction (.trusted holding 1))
  let _ ← Program.update .createThread
  let _ ← Program.request (.run ⟨0⟩ ⟨0⟩)
  match ← Program.update (.supplyResult ⟨0⟩ 9) with
  | .done => return 1
  | _ => return 0

/-- A result that is handed to a thread in a call without one replaces a live operand. -/
theorem supplied_result_replaces_operand :
    let configs := fun steps => (Config.initial {} () supplyingVoid).run suspendingHost steps
    suspendingHost.Asks Request.RegistersVerified ∧
      (configs 9).Reachable suspendingHost Request.RegistersVerified ∧
      (∃ thread execution frame, (configs 9).world.domain.thread? ⟨0⟩ = some thread ∧
        thread.suspended = true ∧ thread.execution = some execution ∧
        execution.frames = [frame] ∧ execution.stack = #[5] ∧
        frame.Awaits (.native .static .void 0 0) .void 1 ∧ frame.Owns 0) ∧
      (∃ next, (configs 9).focus = .body (.ask (.update (.supplyResult ⟨0⟩ 9)) next) ∧
        (configs 10).focus = .body (next .done) ∧ next .done = .done 1) ∧
      (configs 10).world.domain.standing? ⟨0⟩ = some ([⟨holding.code, some 5, 0, 1⟩], #[9]) := by
  intro configs
  have hosted := suspendingHost_asks
  have asks : supplyingVoid.Asks Request.RegistersVerified := by
    refine ⟨verified_holding, fun _ => ⟨trivial, fun _ => ⟨trivial, fun _ => ⟨trivial, ?_⟩⟩⟩⟩
    intro answer
    cases answer <;> trivial
  have reached : (configs 9).Reachable suspendingHost Request.RegistersVerified :=
    .run (.initial () supplyingVoid asks) 9
  refine ⟨hosted, reached, ?_, ⟨_, rfl, rfl, rfl⟩, by decide +kernel⟩
  have stands : (configs 9).world.domain.standing? ⟨0⟩ =
      some ([⟨holding.code, some 5, 0, 1⟩], #[5]) := by decide +kernel
  obtain ⟨thread, execution, present, suspended, held, standing, stack⟩ :=
    Domain.standing?_eq_some stands
  obtain ⟨frame, outer, frames, first, none⟩ := List.map_eq_cons_iff.1 standing
  obtain rfl := List.map_eq_nil_iff.1 none
  obtain ⟨code, saved, bottom, top⟩ := Standing.mk.inj first
  have parked := (stacked_of_reachable hosted reached).domain _ thread execution present held
  obtain ⟨kind, result, argc, method, base, awaits⟩ :=
    (parked.awaits frame [] frames).resolve_left (by simp [saved])
  have listed : (2, Instruction.native .static .void 0 0) ∈
      frame.function.code.instructions.instructions := by
    rw [code]
    decide +kernel
  cases awaits.instruction_eq listed saved
  obtain rfl : 1 = base := top.symm.trans awaits.height
  exact ⟨thread, execution, frame, present, suspended, held, frames, stack, awaits,
    _, _, 1, awaits, by omega, by omega⟩

end Config

end ScriptMachine

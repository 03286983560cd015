import ScriptMachine.Proofs.AbortReasons
import ScriptMachine.Proofs.Tracing

/-!
# Brackets

The events of a trace open and close brackets: runs, native calls, and runs that a native method has
suspended. Only the innermost bracket can be closed. While a native call is open, nothing is
reported of the run that has made it but the end of the call, and a run that has been suspended is
not heard of again before it ends. What is open at any time are the runs in progress and the native
calls that they wait for.
-/

namespace ScriptMachine

variable {ν σ : Type}

/-! ## Events and brackets -/

/-- What a trace has opened and not closed. -/
inductive Bracket (ν : Type) where
  | run (thread : ThreadId)
  /-- A native call, made by this function at this offset. -/
  | call (kind : MethodKind) (method : UInt8) (function : Function ν) (pc : Nat)
  /-- A run that a native method has suspended. -/
  | suspended (thread : ThreadId)

/-- What an event makes of the open brackets, the innermost first. -/
inductive Event.Turns : List (Bracket ν) → Event ν → List (Bracket ν) → Prop where
  /-- A run starts within anything but a run that has been suspended. -/
  | runStart {outer : List (Bracket ν)} (thread : ThreadId) (function : Function ν) (depth : Nat)
    (going : ∀ other, outer.head? ≠ some (.suspended other)) :
    Turns outer (.runStart thread function depth) (.run thread :: outer)
  | instruction {outer : List (Bracket ν)} (thread : ThreadId) (function : Function ν)
    (pc next : Nat) (opcode : Opcode) :
    Turns (.run thread :: outer) (.instruction thread function pc next opcode)
      (.run thread :: outer)
  | enterFrame {outer : List (Bracket ν)} (thread : ThreadId) (function : Function ν) (pc : Nat) :
    Turns (.run thread :: outer) (.scopeEnter .frame function pc) (.run thread :: outer)
  | leaveFrame {outer : List (Bracket ν)} (thread : ThreadId) (function : Function ν) (pc : Nat) :
    Turns (.run thread :: outer) (.scopeExit .frame function pc) (.run thread :: outer)
  | enterNative {outer : List (Bracket ν)} (thread : ThreadId) (kind : MethodKind)
    (method : UInt8) (function : Function ν) (pc : Nat) :
    Turns (.run thread :: outer) (.scopeEnter (.native kind method) function pc)
      (.call kind method function pc :: .run thread :: outer)
  | leaveNative {outer : List (Bracket ν)} (kind : MethodKind) (method : UInt8)
    (function : Function ν) (pc : Nat) :
    Turns (.call kind method function pc :: outer) (.scopeExit (.native kind method) function pc)
      outer
  | suspend {outer : List (Bracket ν)} (thread : ThreadId) (function : Function ν) (pc : Nat) :
    Turns (.run thread :: outer) (.suspend thread function pc) (.suspended thread :: outer)
  | runEnd {outer : List (Bracket ν)} (thread : ThreadId) (outcome : Outcome)
    (ends : outcome ≠ .suspended) : Turns (.run thread :: outer) (.runEnd thread outcome) outer
  | runPause {outer : List (Bracket ν)} (thread : ThreadId) :
    Turns (.suspended thread :: outer) (.runEnd thread .suspended) outer

/-- These events lead from the first open brackets to the last ones. -/
inductive Event.Bracketed : List (Bracket ν) → List (Event ν) → List (Bracket ν) → Prop where
  | nil (brackets : List (Bracket ν)) : Bracketed brackets [] brackets
  | cons {first second last : List (Bracket ν)} {event : Event ν} {events : List (Event ν)}
    (turns : event.Turns first second) (rest : Bracketed second events last) :
    Bracketed first (event :: events) last

namespace Event.Bracketed

variable {first second last : List (Bracket ν)} {event : Event ν} {events more : List (Event ν)}

/-- A single event. -/
theorem single (turns : event.Turns first last) : Bracketed first [event] last :=
  .cons turns (.nil last)

/-- Some events and then others. -/
theorem append (before : Bracketed first events second) (after : Bracketed second more last) :
    Bracketed first (events ++ more) last := by
  induction before with
  | nil => exact after
  | cons turns _ ih => exact .cons turns (ih after)

/-- The first of the events lead to some open brackets, and the others on from there. -/
theorem split (whole : Bracketed first (events ++ more) last) :
    ∃ middle, Bracketed first events middle ∧ Bracketed middle more last := by
  induction events generalizing first with
  | nil => exact ⟨first, .nil first, whole⟩
  | cons event events ih =>
    obtain _ | ⟨turns, rest⟩ := whole
    obtain ⟨middle, before, after⟩ := ih rest
    exact ⟨middle, .cons turns before, after⟩

/-- No bracket is opened within a run that has been suspended. -/
theorem not_mem_tail (bracketed : Bracketed first events last) (thread : ThreadId)
    (outer : .suspended thread ∉ first.tail) : .suspended thread ∉ last.tail := by
  induction bracketed with
  | nil => exact outer
  | @cons first _ _ _ _ turns _ ih =>
    refine ih ?_
    cases turns with
    | runStart _ _ _ going =>
      cases first with
      | nil => simp
      | cons bracket brackets =>
        simp only [List.tail_cons, List.mem_cons, not_or] at outer ⊢
        refine ⟨fun same => going thread ?_, outer⟩
        rw [same]
        rfl
    | instruction | enterFrame | leaveFrame | suspend => exact outer
    | enterNative => simpa using outer
    | leaveNative | runEnd | runPause => exact fun inner => outer (List.mem_of_mem_tail inner)

/-- The end of a run that has been suspended directly follows its suspension. -/
theorem suspend_before_end {before after : List (Event ν)} {thread : ThreadId}
    (bracketed : Bracketed [] (before ++ .runEnd thread .suspended :: after) last) :
    ∃ function pc, before.getLast? = some (.suspend thread function pc) := by
  obtain ⟨middle, leads, _ | ⟨turns, _⟩⟩ := bracketed.split
  cases turns with
  | runEnd _ _ ends => exact absurd rfl ends
  | runPause =>
    obtain rfl | ⟨earlier, event, rfl⟩ := List.eq_nil_or_concat before
    · cases leads
    · rw [List.concat_eq_append] at leads ⊢
      obtain ⟨open', inner, _ | ⟨turns, ⟨⟩⟩⟩ := leads.split
      have below := inner.not_mem_tail thread (by simp)
      cases turns with
      | suspend _ function pc => exact ⟨function, pc, by simp⟩
      | leaveNative | runEnd | runPause => exact absurd List.mem_cons_self below

end Event.Bracketed

/-! ## Brackets of the work -/

/-- The brackets of the work at hand. -/
def Focus.brackets : Focus ν σ → List (Bracket ν)
  | .enter run | .execute run _ => [.run run.thread]
  | .ended run .suspended => [.suspended run.thread]
  | .ended run _ => [.run run.thread]
  | .body _ | .finished _ | .faulted _ => []

/-- The brackets of work that waits: those of the run and of its native call. -/
def Pending.brackets : Pending ν σ → List (Bracket ν)
  | .calling run registers call =>
    [.call call.kind call.method registers.function call.pc, .run run.thread]
  | .aborting next => (next.run?.map fun run => .run run.thread).toList

namespace Config

/-- The brackets that are open. -/
def brackets (config : Config ν σ) : List (Bracket ν) :=
  config.focus.brackets ++ config.pending.flatMap Pending.brackets

variable {host : Host ν σ} {config next : Config ν σ} {run : Run ν σ} {registers : Registers ν}
  {rest : List (Pending ν σ)}

/-- While a body is at hand, no run is about to end. -/
theorem going_of_pending (pending : List (Pending ν σ)) (other : ThreadId) :
    (pending.flatMap Pending.brackets).head? ≠ some (.suspended other) := by
  induction pending with
  | nil => simp
  | cons work rest ih =>
    cases work with
    | calling run registers call => simp [Pending.brackets]
    | aborting next =>
      cases waits : next.run? with
      | none => simpa [Pending.brackets, waits] using ih
      | some run => simp [Pending.brackets, waits]

/-! ## Runs that begin -/

/-- A run that is to be entered has a frame. -/
def Framed (config : Config ν σ) : Prop :=
  ∀ run, config.focus = .enter run → run.execution.frames ≠ []

namespace Framed

/-- Work other than a run that is to be entered. -/
theorem of_ne {focus : Focus ν σ} (other : ∀ run, focus ≠ .enter run)
    (found : config.focus = focus) : config.Framed := fun run enters =>
  absurd (found.symm.trans enters) (other run)

/-- Going on with a body. -/
theorem body {body : Body ν σ} : (config.goto (.body body)).Framed := of_ne (by simp) rfl

/-- Stopping for a misuse. -/
theorem stop (fault : Fault) : (config.goto (.faulted fault)).Framed := of_ne (by simp) rfl

/-- A thread that begins to run. -/
theorem launch {id : ThreadId} {purpose : Purpose} {reply : Answer ν → Body ν σ}
    (framed : ∀ thread execution, config.world.domain.thread? id = some thread →
      thread.execution = some execution → execution.frames ≠ []) :
    (config.launch host id purpose reply).Framed := by
  refine attempt_induction stop fun thread found => ?_
  split
  · exact body
  · rename_i execution held
    intro run enters
    cases enters
    exact framed thread execution (Domain.thread_eq_ok.1 found) held

/-- What follows an abort. -/
theorem afterAbort {next : AfterAbort ν σ} : (config.afterAbort host next).Framed := by
  cases next with
  | reply next => exact body
  | stop run function pc reason =>
    exact of_ne (by simp) (rfl : _ = Focus.ended (run.setFrames []) _)
  | start id function purpose next =>
    refine attempt_induction stop fun thread found => ?_
    split
    · exact body
    · rename_i execution held
      cases purpose with
      | none => exact body
      | some purpose =>
        refine launch fun other executed there taken => ?_
        rw [setDomain_world, Domain.thread?_setThread (Domain.thread_eq_ok.1 found),
          if_pos rfl] at there
        cases there
        cases taken
        simp

/-- A thread that is detached. -/
theorem detach {id : ThreadId} {next : AfterAbort ν σ} : (config.detach host id next).Framed := by
  refine attempt_induction stop fun ⟨domain, hook⟩ _ => ?_
  dsimp only
  split
  · exact afterAbort
  · exact afterAbort
  · exact of_ne (by simp) rfl

/-- A thread that is aborted. -/
theorem abort {id : ThreadId} {reason : AbortReason} {next : AfterAbort ν σ} :
    (config.abort host id reason next).Framed :=
  attempt_induction stop fun _ _ => detach

/-- A thread that is given a fresh frame. -/
theorem start {id : ThreadId} {function : FunctionId} {purpose : Option Purpose}
    {next : Answer ν → Body ν σ} : (config.start host id function purpose next).Framed :=
  start_induction stop (fun _ => body) (fun _ _ _ => body)
    fun _ _ _ _ _ _ => ⟨fun _ => abort, fun _ _ => afterAbort⟩

/-- A thread that goes on. -/
theorem continueThread {id : ThreadId} {purpose : Purpose} {next : Answer ν → Body ν σ} :
    (config.continueThread host id purpose next).Framed := by
  refine attempt_induction stop fun thread found => ?_
  dsimp only
  split
  · exact body
  · rename_i occupied
    refine launch fun other execution there held bare => ?_
    rw [setDomain_world, Domain.thread?_setThread (Domain.thread_eq_ok.1 found),
      if_pos rfl] at there
    cases there
    exact occupied execution.stack (held.trans (by rw [← bare]))

/-- A thread that the host resumes. -/
theorem resume {id : ThreadId} {next : Answer ν → Body ν σ} :
    (config.resume host id next).Framed :=
  resume_induction stop (fun _ => body) fun _ _ _ _ _ => continueThread

/-- A thread that is woken through its queue. -/
theorem wake {queue : QueueId} {value : Option Int32} {next : Answer ν → Body ν σ} :
    (config.wake host queue value next).Framed :=
  wake_induction stop (fun _ => body) (fun _ _ _ _ _ => body) fun _ _ _ _ _ _ _ _ =>
    ⟨stop, fun _ _ => body, fun _ _ => continueThread⟩

/-- A request that is carried out. -/
theorem perform {request : Request ν} {next : Answer ν → Body ν σ} :
    (config.perform host request next).Framed := by
  cases request with
  | observe => exact body
  | update update => exact attempt_induction stop fun _ _ => of_ne (by simp) rfl
  | start id function => exact start
  | run id function => exact start
  | runInt id function => exact start
  | resume id => exact resume
  | abort id => exact abort
  | faultActive error =>
    unfold Config.perform
    dsimp only
    split
    · exact body
    · exact abort
  | wake queue value => exact wake

end Framed

/-! ## Instructions -/

/-- What an instruction makes of its run, and what is reported of it. -/
inductive Narrates (config : Config ν σ) (run : Run ν σ) (registers : Registers ν)
    (next : Config ν σ) : List (Event ν) → Prop where
  /-- There is no instruction. -/
  | unreadable (last : Run ν σ) (info : AbortInfo)
    (focus : next.focus = .ended last (.aborted info)) (pending : next.pending = config.pending)
    (thread : last.thread = run.thread) (bare : last.execution.frames = []) :
    Narrates config run registers next []
  | faulted (following : Nat) (opcode : Opcode) (fault : Fault)
    (focus : next.focus = .faulted fault) :
    Narrates config run registers next
      [.instruction run.thread registers.function registers.pc following opcode]
  /-- The arguments of a native call are not there. -/
  | overdraws (following : Nat) (opcode : Opcode) (kind : MethodKind) (method : UInt8)
    (fault : Fault) (focus : next.focus = .faulted fault) :
    Narrates config run registers next
      [.instruction run.thread registers.function registers.pc following opcode,
        .scopeEnter (.native kind method) registers.function registers.pc]
  /-- The run is aborted. -/
  | aborts (following : Nat) (opcode : Opcode) (last : Run ν σ) (info : AbortInfo)
    (focus : next.focus = .ended last (.aborted info)) (pending : next.pending = config.pending)
    (thread : last.thread = run.thread) (bare : last.execution.frames = []) :
    Narrates config run registers next
      [.instruction run.thread registers.function registers.pc following opcode]
  /-- Control goes on in the same frame. -/
  | goes (following : Nat) (opcode : Opcode) (after : Run ν σ) (moved : Registers ν)
    (focus : next.focus = .execute after moved) (pending : next.pending = config.pending)
    (thread : after.thread = run.thread)
    (frames : after.execution.frames = run.execution.frames)
    (function : moved.function = registers.function) :
    Narrates config run registers next
      [.instruction run.thread registers.function registers.pc following opcode]
  /-- A native method is called. -/
  | calls (following : Nat) (opcode : Opcode) (body : Body ν σ) (moved : Registers ν)
    (call : NativeCall) (focus : next.focus = .body body)
    (pending : next.pending = .calling run moved call :: config.pending)
    (function : moved.function = registers.function) (place : call.pc = registers.pc) :
    Narrates config run registers next
      [.instruction run.thread registers.function registers.pc following opcode,
        .scopeEnter (.native call.kind call.method) registers.function registers.pc]
  /-- A script function is called. -/
  | pushes (following : Nat) (opcode : Opcode) (after : Run ν σ) (callee : Frame ν) (pc top : Nat)
    (focus : next.focus = .enter after) (pending : next.pending = config.pending)
    (thread : after.thread = run.thread) (unrun : callee.pc = none)
    (frames : after.execution.frames = callee :: (run.saveFrame pc top).execution.frames) :
    Narrates config run registers next
      [.instruction run.thread registers.function registers.pc following opcode]
  /-- The frame is left. -/
  | leaves (following : Nat) (opcode : Opcode) (after : Run ν σ)
    (focus : next.focus = .enter after) (pending : next.pending = config.pending)
    (thread : after.thread = run.thread)
    (frames : after.execution.frames = run.execution.frames.tail) :
    Narrates config run registers next
      [.instruction run.thread registers.function registers.pc following opcode,
        .scopeExit .frame registers.function 0]

/-- Every instruction is reported first, and then the scope that it opens or closes. -/
theorem execute_narrates (host : Host ν σ) (config : Config ν σ) (run : Run ν σ)
    (registers : Registers ν) :
    config.Narrates run registers (config.execute host run registers)
      (config.instructionReports run registers) := by
  unfold execute instructionReports
  dsimp only
  cases Instruction.decode registers.function.code registers.pc with
  | error error => exact .unreadable (run.setFrames []) _ rfl rfl rfl rfl
  | ok found =>
    obtain ⟨instruction, following⟩ := found
    dsimp only
    generalize emitted : config.emit host _ = shown
    have world : shown.world = config.world := by rw [← emitted, emit_world]
    have pending : shown.pending = config.pending := by rw [← emitted, emit_pending]
    have aborted (last : Run ν σ) (thread : last.thread = run.thread) (pc : Nat)
        (reason : AbortReason) : config.Narrates run registers
          (shown.abortRun host last registers.function pc reason)
          [.instruction run.thread registers.function registers.pc following instruction.opcode] :=
      .aborts _ _ (last.setFrames []) _ rfl pending thread rfl
    rw [world]
    cases config.world.domain.thread run.thread with
    | error fault => exact .faulted _ _ fault rfl
    | ok thread =>
      rw [attempt_ok]
      dsimp only
      generalize instruction.effect _ _ _ _ = effect
      cases effect with
      | advance stack sp => exact .goes _ _ (run.setStack stack) _ rfl pending rfl rfl rfl
      | writeGlobal index value sp => exact .goes _ _ run _ rfl pending rfl rfl rfl
      | jump delta sp =>
        dsimp only [Effect.scopes]
        split
        · exact aborted run rfl _ _
        · exact .goes _ _ run _ rfl pending rfl rfl rfl
      | spend =>
        dsimp only [Effect.scopes]
        split
        · exact aborted run rfl _ _
        · exact .goes _ _ { run with budget := run.budget - 1 } _ rfl pending rfl rfl rfl
      | native kind result method base =>
        dsimp only [Effect.scopes, callNative]
        cases registers.function.method? method with
        | none => exact aborted run rfl _ _
        | some native =>
          dsimp only
          split
          · exact .calls _ _ _ { registers with pc := following, sp := base + result.count }
              ⟨registers.pc, kind, method, base, result⟩ rfl (by simp [pending]) rfl rfl
          · exact .overdraws _ _ kind method _ rfl
      | script result callee argc =>
        dsimp only [Effect.scopes, callScript]
        split
        · exact aborted run rfl _ _
        · split
          · exact .faulted _ _ _ rfl
          · split
            · refine @attempt_induction _ _ _ (fun next => config.Narrates run registers next _)
                _ _ _ (fun fault => .faulted _ _ fault rfl) fun stack _ => ?_
              exact aborted (Run.setStack _ stack) (run.thread_saveFrame ..) _ _
            · exact .pushes _ _ _ _ following _ rfl pending (run.thread_saveFrame ..) rfl rfl
      | ret stack => exact .leaves _ _ _ rfl (by simp [leaveFrame, pending]) rfl rfl
      | invalid => exact aborted run rfl _ _
      | outOfBounds => exact .faulted _ _ _ rfl

/-! ## Steps -/

/-- What is reported of a step leads from the brackets that are open to those that are open then,
unless the machine stops for a misuse. -/
def Bracketed (events : List (Event ν)) (config next : Config ν σ) : Prop :=
  ∃ last, Event.Bracketed config.brackets events last ∧
    (last = next.brackets ∨ ∃ fault, next.focus = .faulted fault)

/-- A request opens at most the bracket of a run. -/
theorem Opens.brackets {suspension : List (Event ν)} (opens : next.Opens rest)
    (framed : next.Framed) (above : config.brackets = rest.flatMap Pending.brackets) :
    Bracketed (next.focus.arrival suspension) config next := by
  unfold Bracketed
  rw [above]
  cases opens with
  | speaks body focus pending =>
    rw [focus]
    refine ⟨_, .nil _, .inl ?_⟩
    simp [Config.brackets, focus, pending, Focus.brackets]
  | hooks body after focus pending stopless =>
    rw [focus]
    refine ⟨_, .nil _, .inl ?_⟩
    simp [Config.brackets, focus, pending, Focus.brackets, Pending.brackets, stopless]
  | faulted fault focus =>
    rw [focus]
    exact ⟨_, .nil _, .inr ⟨fault, rfl⟩⟩
  | begins run focus pending =>
    obtain ⟨frame, outer, frames⟩ := List.exists_cons_of_ne_nil (framed run focus)
    have starts : next.focus.arrival suspension =
        [.runStart run.thread frame.function (outer.length + 1)] := by
      simp only [focus, Focus.arrival, Run.starting, frames]
    rw [starts]
    refine ⟨_, .single (.runStart _ _ _ (going_of_pending rest)), .inl ?_⟩
    simp [Config.brackets, focus, pending, Focus.brackets]

/-- An instruction opens the bracket of a native call or none. -/
theorem Narrates.brackets {events : List (Event ν)}
    (narrates : config.Narrates run registers next events)
    (focus : config.focus = .execute run registers) : Bracketed events config next := by
  have here : config.brackets = .run run.thread :: config.pending.flatMap Pending.brackets := by
    simp [Config.brackets, focus, Focus.brackets]
  unfold Bracketed
  rw [here]
  cases narrates with
  | unreadable last info focus pending thread =>
    refine ⟨_, .nil _, .inl ?_⟩
    simp [Config.brackets, focus, pending, Focus.brackets, thread]
  | faulted following opcode fault focus =>
    exact ⟨_, .single (.instruction ..), .inr ⟨fault, focus⟩⟩
  | overdraws following opcode kind method fault focus =>
    exact ⟨_, .cons (.instruction ..) (.single (.enterNative ..)), .inr ⟨fault, focus⟩⟩
  | aborts following opcode last info focus pending thread
  | goes following opcode last moved focus pending thread
  | pushes following opcode last callee pc top focus pending thread =>
    refine ⟨_, .single (.instruction ..), .inl ?_⟩
    simp [Config.brackets, focus, pending, Focus.brackets, thread]
  | calls following opcode body moved call focus pending function place =>
    refine ⟨_, .cons (.instruction ..) (.single (.enterNative ..)), .inl ?_⟩
    simp [Config.brackets, focus, pending, Focus.brackets, Pending.brackets, function, place]
  | leaves following opcode after focus pending thread =>
    refine ⟨_, .cons (.instruction ..) (.single (.leaveFrame ..)), .inl ?_⟩
    simp [Config.brackets, focus, pending, Focus.brackets, thread]

/-- The answer of a native method closes the bracket of its call. -/
theorem Returned.brackets {call : NativeCall} {value : Int32}
    (returned : Config.Returned { config with pending := rest } run registers call next)
    (focus : config.focus = .body (.done value))
    (waiting : config.pending = .calling run registers call :: rest) :
    Bracketed (.scopeExit (.native call.kind call.method) registers.function call.pc ::
      next.focus.arrival [.suspend run.thread registers.function call.pc]) config next := by
  have here : config.brackets = .call call.kind call.method registers.function call.pc ::
      .run run.thread :: rest.flatMap Pending.brackets := by
    simp [Config.brackets, focus, waiting, Focus.brackets, Pending.brackets]
  unfold Bracketed
  rw [here]
  cases returned with
  | faulted fault focus =>
    rw [focus]
    exact ⟨_, .single (.leaveNative ..), .inr ⟨fault, rfl⟩⟩
  | executes after focus pending keeps =>
    rw [focus]
    refine ⟨_, .single (.leaveNative ..), .inl ?_⟩
    simp [Config.brackets, focus, pending, Focus.brackets, keeps.thread]
  | suspends last focus pending lasts =>
    rw [focus]
    refine ⟨_, .cons (.leaveNative ..) (.single (.suspend ..)), .inl ?_⟩
    simp [Config.brackets, focus, pending, Focus.brackets, lasts.thread]
  | stops last reason asked focus pending lasts =>
    rw [focus]
    refine ⟨_, .single (.leaveNative ..), .inl ?_⟩
    simp [Config.brackets, focus, pending, Focus.brackets, lasts.thread]
  | hooks body last reason asked focus pending keeps =>
    rw [focus]
    refine ⟨_, .single (.leaveNative ..), .inl ?_⟩
    simp [Config.brackets, focus, pending, Focus.brackets, Pending.brackets, AfterAbort.run?,
      keeps.thread]

/-- Entering a frame opens and closes no bracket. -/
theorem Entered.brackets (entered : config.Entered run next) (focus : config.focus = .enter run) :
    Bracketed run.opening config next := by
  have here : config.brackets = .run run.thread :: config.pending.flatMap Pending.brackets := by
    simp [Config.brackets, focus, Focus.brackets]
  unfold Bracketed
  rw [here]
  cases entered with
  | completes bare focus pending =>
    have silent : run.opening = [] := by simp only [Run.opening, bare]
    rw [silent]
    refine ⟨_, .nil _, .inl ?_⟩
    simp [Config.brackets, focus, pending, Focus.brackets]
  | continues frame outer after top frames focus pending keeps =>
    have same : next.brackets = .run run.thread :: config.pending.flatMap Pending.brackets := by
      simp [Config.brackets, focus, pending, Focus.brackets, keeps.thread]
    unfold Run.opening
    rw [frames]
    dsimp only
    split
    · exact ⟨_, .nil _, .inl same.symm⟩
    · exact ⟨_, .single (.enterFrame ..), .inl same.symm⟩

/-- The end of a run closes its bracket. -/
theorem finishRun_brackets (host : Host ν σ) {outcome : Outcome}
    (focus : config.focus = .ended run outcome) :
    Bracketed (config.reports host) config (config.step host) := by
  simp only [reports, step, focus, finishRun]
  cases config.world.domain.thread run.thread with
  | error fault => exact ⟨_, .nil _, .inr ⟨fault, rfl⟩⟩
  | ok thread =>
    refine ⟨config.pending.flatMap Pending.brackets, ?_, .inl ?_⟩
    · cases outcome with
      | suspended =>
        simp only [Config.brackets, focus, Focus.brackets]
        exact .single (.runPause _)
      | completed | aborted =>
        simp only [Config.brackets, focus, Focus.brackets]
        exact .single (.runEnd _ _ (by simp))
    · simp [Config.brackets, Focus.brackets]

/-- What follows an abort opens at most the bracket of a run. -/
theorem afterAbort_brackets {after : AfterAbort ν σ} {value : Int32}
    (ended : config.focus = .body (.done value))
    (waiting : config.pending = .aborting after :: rest) :
    Bracketed
      ((({ config with pending := rest } : Config ν σ).afterAbort host after).focus.arrival [])
      config (({ config with pending := rest } : Config ν σ).afterAbort host after) := by
  cases waits : after.run? with
  | none =>
    refine Opens.brackets (.afterAbort waits rfl) .afterAbort ?_
    simp [Config.brackets, ended, waiting, Focus.brackets, Pending.brackets, waits]
  | some run =>
    cases after with
    | reply | start => cases waits
    | stop stopped function pc reason =>
      cases waits
      refine ⟨_, .nil _, .inl ?_⟩
      simp [Config.brackets, ended, waiting, Focus.brackets, Pending.brackets, AfterAbort.run?,
        Config.afterAbort, Config.abortRun, Run.setFrames]

/-- Every step keeps to the brackets. -/
theorem step_brackets (host : Host ν σ) (config : Config ν σ) :
    Bracketed (config.reports host) config (config.step host) := by
  cases focus : config.focus with
  | enter run =>
    have made : config.step host = config.enterFrame host run := by simp only [step, focus]
    simp only [reports, focus, made]
    exact (enterFrame_entered host config run).1.brackets focus
  | execute run registers =>
    have made : config.step host = config.execute host run registers := by simp only [step, focus]
    simp only [reports, focus, made]
    exact (execute_narrates host config run registers).brackets focus
  | ended run outcome => exact finishRun_brackets host focus
  | finished value | faulted fault =>
    simp only [reports, step, focus]
    exact ⟨_, .nil _, .inl rfl⟩
  | body work =>
    cases work with
    | ask request next =>
      have made : config.step host = config.perform host request next := by simp only [step, focus]
      simp only [reports, focus, made]
      exact (Opens.perform rfl).brackets .perform (by simp [Config.brackets, focus, Focus.brackets])
    | modify change next | crash fault =>
      simp only [reports, step, focus]
      exact ⟨_, .nil _, by simp [Config.brackets, focus, Focus.brackets]⟩
    | done value =>
      cases waiting : config.pending with
      | nil =>
        simp only [reports, step, focus, finishBody, waiting]
        exact ⟨_, .nil _, .inl (by simp [Config.brackets, focus, waiting, Focus.brackets])⟩
      | cons work rest =>
        cases work with
        | calling run registers call =>
          have made := @step_of_calling _ _ host _ _ _ _ _ _ focus waiting
          have reported : config.reports host =
              .scopeExit (.native call.kind call.method) registers.function call.pc ::
                (config.step host).focus.arrival
                  [.suspend run.thread registers.function call.pc] := by
            simp only [reports, focus, waiting]
          rw [reported, made]
          exact (returnNative_returned host _ run registers call value).1.brackets focus waiting
        | aborting after =>
          have made := @step_of_aborting _ _ host _ _ _ _ focus waiting
          have reported : config.reports host = (config.step host).focus.arrival [] := by
            simp only [reports, focus, waiting]
          rw [reported, made]
          exact afterAbort_brackets focus waiting

/-- A machine that has stopped reports nothing. -/
theorem reports_of_faulted {fault : Fault} (focus : config.focus = .faulted fault) :
    config.reports host = [] := by
  simp only [reports, step, focus, Focus.arrival]

/-- Every number of steps keeps to the brackets. -/
theorem trace_brackets (host : Host ν σ) (config : Config ν σ) (steps : Nat) :
    Bracketed (config.trace host steps) config (config.run host steps) := by
  induction steps with
  | zero => exact ⟨_, .nil _, .inl rfl⟩
  | succ steps ih =>
    obtain ⟨middle, before, rfl | ⟨fault, focus⟩⟩ := ih
    · obtain ⟨last, after, same⟩ := step_brackets host (config.run host steps)
      rw [← run_succ_last] at same
      exact ⟨last, before.append after, same⟩
    · rw [trace, reports_of_faulted focus, List.append_nil, run_succ_last]
      refine ⟨middle, before, .inr ⟨fault, ?_⟩⟩
      simp only [step, focus]

end Config

end ScriptMachine

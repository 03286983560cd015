import ScriptMachine.Proofs.Instructions
import ScriptMachine.Proofs.Leftovers
import ScriptMachine.Proofs.RunningThreads

/-!
# Repeatable runs

A function that is run for its result returns it, and calls native methods, as if the operand stack
of its thread were empty. This needs no restraint of the native methods: while a thread runs, nobody
but the run can look at its operand stack. Only the hook of an abort that makes room for the run
could look at it before, so the host must not have armed one.
-/

namespace ScriptMachine

variable {ν σ : Type}

namespace Config

variable {host : Host ν σ} {config : Config ν σ} {errand : Errand ν σ} {thread : Thread ν}
  {execution : Execution ν} {function : Function ν} {stack : Array Int32} {α β : Type}

/-- A thread begins to run a function: its frames and its operand stack are taken out of the
domain. -/
def taking (host : Host ν σ) (config : Config ν σ) (id : ThreadId) (thread : Thread ν)
    (function : Function ν) : Config ν σ :=
  (config.setDomain { config.world.domain.setThread id { thread with execution := none } with
    active := some id }).emit host (.runStart id function 1)

/-- The operand stack that is taken out of the domain is not in it. -/
theorem taking_restack (host : Host ν σ) (config : Config ν σ) (id : ThreadId) (thread : Thread ν)
    (function : Function ν) (stack : Array Int32) :
    (config.restack id stack).taking host id thread function =
      config.taking host id thread function := by
  simp only [taking, restack_world, Domain.setThread_restack]
  rfl

/-- A thread without frames that is given a frame of a function begins to run it. -/
theorem afterAbort_vacant {id : ThreadId} {purpose : Purpose} {next : Answer ν → Body ν σ}
    (present : config.world.domain.thread? id = some thread)
    (held : thread.execution = some execution) (bare : execution.frames = []) :
    config.afterAbort host (.start id function (some purpose) next) =
      (config.taking host id thread function).goto (.enter {
        thread := id
        previous := config.world.domain.active
        execution := ⟨[{ function, base := 0, top := 0 }], execution.stack⟩
        budget := config.world.domain.limits.loopBudget
        purpose
        reply := next }) := by
  have entered := Domain.thread?_setThread present { thread with
    execution := some ⟨[{ function, base := 0, top := 0 }], execution.stack⟩ } id
  rw [if_pos rfl] at entered
  have looked := Domain.thread_eq_ok.2 entered
  simp only [afterAbort, Domain.thread_eq_ok.2 present, attempt_ok, held, bare, launch,
    setDomain_world, looked, Domain.setThread_setThread]
  rfl

/-- Two machines begin to carry out the request in lockstep, over operand stacks that have room for
all frames if one of them has. -/
structure Commences (errand : Errand ν σ) (first second : Config ν σ) : Prop where
  mirrors : Mirrors errand first second
  sound : first.Sound → second.Lives → second.Sound

/-- Both machines go on with corresponding results. -/
theorem Commences.attempt {first second : Config ν σ} {result : Except Fault α} {convert : α → β}
    {next : α → Config ν σ} {next' : β → Config ν σ}
    (goes : ∀ value, result = .ok value → Commences errand (next value) (next' (convert value))) :
    Commences errand (first.attempt result next) (second.attempt (result.map convert) next') := by
  cases result with
  | error fault => exact ⟨.stop fault, fun _ lives => absurd rfl (lives fault)⟩
  | ok value => exact goes value rfl

/-- Such a thread begins to run in both machines with the same frame, which has not been run. -/
theorem afterAbort_commences (pending : config.pending = errand.rest)
    (present : config.world.domain.thread? errand.thread = some thread)
    (held : thread.execution = some execution) (bare : execution.frames = [])
    (listed : errand.functions function) (parameterless : function.params = 0)
    (answers : function.AnswersInt) :
    Commences errand
      (config.afterAbort host (.start errand.thread function (some .result) errand.next))
      ((config.restack errand.thread stack).afterAbort host
        (.start errand.thread function (some .result) errand.next)) := by
  have restacked : (config.restack errand.thread stack).world.domain.thread? errand.thread =
      some { thread with execution := some { execution with stack } } := by
    rw [restack_world, Domain.thread?_restack present, Thread.restack, held]
    rfl
  have same := config.taking_restack host errand.thread
    { thread with execution := some { execution with stack } } function stack
  rw [afterAbort_vacant present held bare, afterAbort_vacant restacked rfl bare, same,
    restack_world, Domain.active_restack, Domain.limits_restack]
  have entry : Answering errand.functions [({ function, base := 0, top := 0 } : Frame ν)] :=
    .entry listed rfl answers
  have empty : Agree (filledHeight [({ function, base := 0, top := 0 } : Frame ν)])
      execution.stack stack := by
    intro slot below
    simp [filledHeight, parameterless] at below
  have below : (config.taking host errand.thread thread function).pending = errand.rest :=
    (emit_pending _ _ _).trans pending
  refine ⟨.goto below (@Focus.Mirrors.enter _ _ errand { execution := ⟨_, _⟩, .. } stack
    ⟨rfl, rfl, rfl, entry⟩ empty), fun sound _ => ⟨sound.toGrounded.congr rfl rfl, ?_⟩⟩
  refine ⟨fun frame listed => ⟨(sound.focus.execution frame listed).1, fun pc saved => ?_⟩,
    sound.focus.reply⟩
  obtain rfl := List.mem_singleton.1 listed
  cases saved

/-- Detaching a thread that has no hook of the host, before it is given a frame. -/
theorem detach_commences (pending : config.pending = errand.rest)
    (present : config.world.domain.thread? errand.thread = some thread)
    (held : thread.execution = some execution) (bare : execution.frames = [])
    (unhooked : ∀ reference, thread.hook ≠ some (.custom reference))
    (listed : errand.functions function) (parameterless : function.params = 0)
    (answers : function.AnswersInt) :
    Commences errand
      (config.detach host errand.thread
        (.start errand.thread function (some .result) errand.next))
      ((config.restack errand.thread stack).detach host errand.thread
        (.start errand.thread function (some .result) errand.next)) := by
  unfold Config.detach
  rw [restack_world, Domain.detach_restack present]
  refine Commences.attempt fun ⟨domain, hook⟩ detached => ?_
  obtain ⟨before, known, rfl, threads, _⟩ := Domain.detach_eq_ok detached
  obtain rfl := Option.some.inj (present.symm.trans known)
  have there := threads errand.thread
  rw [if_pos rfl] at there
  dsimp only
  split
  · exact @afterAbort_commences _ _ host (config.setDomain domain) errand _ execution function stack
      pending there held bare listed parameterless answers
  · exact @afterAbort_commences _ _ host { config with world := { config.world with
      domain, sleepers := config.world.sleepers.remove errand.thread } } errand _ execution
      function stack pending there held bare listed parameterless answers
  · rename_i reference armed
    exact absurd armed (unhooked reference)

/-- A function that is started on a thread that does not run, and has no hook of the host. -/
theorem start_commences {called : FunctionId} (pending : config.pending = errand.rest)
    (registered : config.world.domain.function? called = some function)
    (present : config.world.domain.thread? errand.thread = some thread)
    (held : thread.execution = some execution)
    (unhooked : ∀ reference, thread.hook ≠ some (.custom reference))
    (listed : errand.functions function) (parameterless : function.params = 0)
    (answers : function.AnswersInt) :
    Commences errand (config.start host errand.thread called (some .result) errand.next)
      ((config.restack errand.thread stack).start host errand.thread called (some .result)
        errand.next) := by
  have restacked : (config.restack errand.thread stack).world.domain.thread? errand.thread =
      some { thread with execution := some { execution with stack } } := by
    rw [restack_world, Domain.thread?_restack present, Thread.restack, held]
    rfl
  unfold Config.start
  rw [Domain.thread_eq_ok.2 present, Domain.thread_eq_ok.2 restacked, restack_world,
    Domain.function?_restack, registered]
  simp only [attempt_ok, held]
  split
  · unfold Config.abort
    rw [restack_world, Domain.discard_restack present]
    refine Commences.attempt fun domain discarded => ?_
    obtain ⟨before, known, ⟨executed, taken, rfl⟩ | ⟨taken, _⟩⟩ := Domain.discard_eq_ok discarded
    · obtain rfl := Option.some.inj (present.symm.trans known)
      have there := Domain.thread?_setThread present { thread with
        execution := some { executed with frames := [] } } errand.thread
      rw [if_pos rfl] at there
      exact @detach_commences _ _ host (config.setDomain _) errand _ _ function stack
        pending there rfl rfl unhooked listed parameterless answers
    · obtain rfl := Option.some.inj (present.symm.trans known)
      rw [held] at taken
      cases taken
  · rename_i idle
    simp only [Bool.not_eq_true, Bool.or_eq_false_iff] at idle
    have bare : execution.frames = [] := by simpa using idle.2
    exact afterAbort_commences pending present held bare listed parameterless answers

/-! ## Native calls -/

/-- The native method that the machine is about to call, with its arguments. -/
def nativeCall? (config : Config ν σ) : Option (ν × List Int32) :=
  match config.focus with
  | .execute run registers =>
    match Instruction.decode registers.function.code registers.pc with
    | .ok (.native kind _ argc method, _) =>
      let start := registers.sp - (argc.toNat + kind.receivers)
      (registers.function.method? method).map fun called =>
        (called, (run.execution.stack.extract start registers.sp).toList)
    | _ => none
  | _ => none

/-- The native methods that are called in a number of steps, each with its arguments. -/
def nativeCalls (host : Host ν σ) (config : Config ν σ) (steps : Nat) : List (ν × List Int32) :=
  (List.range steps).filterMap fun moment => (config.run host moment).nativeCall?

/-- The next step calls a native method with these arguments: the machine turns to the body of the
method, and the run waits for its answer. The arguments are the slots from the base of the call up
to the height of the operand stack. -/
def Invokes (host : Host ν σ) (config : Config ν σ) (method : ν) (arguments : List Int32) : Prop :=
  ∃ run registers after call, config.focus = .execute run registers ∧
    registers.function.method? call.method = some method ∧
    arguments = (run.execution.stack.extract call.base registers.sp).toList ∧
    (config.step host).focus = .body (host.native method arguments) ∧
    (config.step host).pending = .calling run after call :: config.pending

/-- A native method that a machine is about to call is called. -/
theorem invokes_of_nativeCall? (nested : config.Nested) (sound : config.Sound) {method : ν}
    {arguments : List Int32} (calls : config.nativeCall? = some (method, arguments)) :
    config.Invokes host method arguments := by
  unfold nativeCall? at calls
  split at calls
  · rename_i run registers executes
    have fits := sound.focus
    rw [executes] at fits
    have present := nested.present (by rw [executes]; rfl : config.focus.run? = some run)
    split at calls
    · rename_i kind result argc index next decoded
      obtain ⟨called, known, same⟩ := Option.map_eq_some_iff.1 calls
      cases same
      obtain ⟨instruction, ready⟩ := fits.2.fits.ready
      obtain ⟨rfl, rfl⟩ : instruction = .native kind result argc index ∧ _ = next := by
        simpa using ready.decode.symm.trans decoded
      have enough := ready.enough
      simp only [Instruction.stackEffect] at enough
      obtain ⟨_, height, room⟩ := fits.2.fits.bounds
      obtain ⟨turns, waits⟩ := @step_native _ _ host _ _ _ _ _ _ _ _ _ executes decoded
        (Option.isSome_iff_exists.2 present) known (by omega) (Nat.le_trans height room)
      exact ⟨run, registers, _, _, executes, known, rfl, turns, waits⟩
    · cases calls
  · cases calls

/-- Of all instructions only a native call leaves a body at hand. -/
theorem Invokes.nativeCall?_eq {method : ν} {arguments : List Int32}
    (invokes : config.Invokes host method arguments) :
    config.nativeCall? = some (method, arguments) := by
  obtain ⟨run, registers, after, call, executes, known, rfl, turns, waits⟩ := invokes
  have made : config.step host = config.execute host run registers := by
    simp only [step, executes]
  rw [made] at turns waits
  cases (execute_acts host config run registers).1 with
  | calls kind result argc index called pc start reads _ taken _ above =>
    have same := above.symm.trans waits
    simp only [List.cons.injEq, Pending.calling.injEq, true_and, and_true] at same
    obtain ⟨_, rfl⟩ := same
    obtain ⟨next, decoded⟩ := Registers.instruction?_eq_some.1 reads
    simp only [nativeCall?, executes, decoded, known, taken, Option.map_some]
  | faulted _ other | stuck _ other | goes _ _ _ _ _ _ _ other | spends _ _ _ other
  | overruns _ _ _ other | enters _ _ _ _ _ _ _ _ _ _ other
  | exceeds _ _ _ _ _ _ _ _ _ _ _ other | leaves _ _ _ other =>
    rw [turns] at other
    cases other

/-- A machine is about to call a native method exactly if its next step calls it, with the same
arguments. -/
theorem nativeCall?_eq_some_iff (nested : config.Nested) (sound : config.Sound) {method : ν}
    {arguments : List Int32} :
    config.nativeCall? = some (method, arguments) ↔ config.Invokes host method arguments :=
  ⟨invokes_of_nativeCall? nested sound, Invokes.nativeCall?_eq⟩

/-- The native calls of a number of steps are those that the steps make. -/
theorem mem_nativeCalls_iff (hosted : host.Asks Request.RegistersVerified)
    (reached : config.Reachable host Request.RegistersVerified) {steps : Nat} {method : ν}
    {arguments : List Int32} :
    (method, arguments) ∈ config.nativeCalls host steps ↔
      ∃ moment < steps, (config.run host moment).Invokes host method arguments := by
  have invokes (moment : Nat) :=
    @nativeCall?_eq_some_iff _ _ host (config.run host moment)
      (nested_of_reachable (reached.run moment))
      (sound_of_reachable hosted (reached.run moment)) method arguments
  simp only [nativeCalls, List.mem_filterMap, List.mem_range, invokes]

variable {first second : Config ν σ}

/-- Machines in lockstep are about to call the same native method with the same arguments, or
neither is about to call one. -/
theorem Mirrors.nativeCall?_eq (mirrors : Mirrors errand first second) (sound : first.Sound)
    (sound' : second.Lives → second.Sound) : second.nativeCall? = first.nativeCall? := by
  cases mirrors with
  | @running first focus pending mirrors =>
    have fits := sound.focus
    have fits' (lives : (first.goto focus).Lives) := (sound' lives).focus
    generalize found : first.focus = work at mirrors fits
    cases mirrors with
    | enter performs agree => simp only [nativeCall?, found, goto_focus]
    | ended performs agree => simp only [nativeCall?, found, goto_focus]
    | @execute run registers stack performs agree =>
      obtain ⟨_, height, room⟩ := fits.2.fits.bounds
      obtain ⟨_, _, room'⟩ := (fits' (by simp [Lives])).2.fits.bounds
      have arguments (start : Nat) := agree.extract_eq start (Nat.le_trans height room)
        (Nat.le_trans height room')
      have same : (run.setStack stack).execution.stack = stack := rfl
      simp only [nativeCall?, found, goto_focus, same, arguments]
  | above config mirrors => rfl
  | faulted focus focus' => simp only [nativeCall?, focus, focus']

/-! ## Whole runs -/

/-- A machine that is sound unless it has stopped stays so. -/
theorem sound_run (hosted : host.Asks Request.RegistersVerified)
    (sound : config.Lives → config.Sound) (steps : Nat) :
    (config.run host steps).Lives → (config.run host steps).Sound := by
  induction steps with
  | zero => exact sound
  | succ steps ih =>
    intro lives
    rw [run_succ_last] at lives ⊢
    refine (ih fun fault faulted => ?_).step hosted
    rw [step_of_isFinal host (by simp [isFinal, faulted])] at lives
    exact lives fault faulted

/-- Machines that begin in lockstep stay so until both answer the request. -/
theorem Commences.run (hosted : host.Asks Request.RegistersVerified)
    (reached : first.Reachable host Request.RegistersVerified)
    (begins : Commences errand first second)
    (steps : Nat)
    (covers : ∀ moment < steps, errand.Covers (first.run host moment).world.domain.functions) :
    (∀ moment ≤ steps, Mirrors errand (first.run host moment) (second.run host moment)) ∨
      ∃ middle ≤ steps,
        (∀ moment < middle, Mirrors errand (first.run host moment) (second.run host moment)) ∧
        ∃ outcome, Answers errand outcome (first.run host middle) (second.run host middle) := by
  induction steps with
  | zero =>
    refine .inl fun moment upTo => ?_
    obtain rfl := Nat.le_zero.1 upTo
    exact begins.mirrors
  | succ steps ih =>
    rcases ih fun moment earlier => covers moment (Nat.lt_succ_of_lt earlier) with mirrors |
      ⟨middle, upTo, answered⟩
    · have sound := sound_of_reachable hosted (reached.run steps)
      have placed := placed_of_reachable hosted (fun _ verified => verified) (reached.run steps)
      have sound' := sound_run hosted
        (begins.sound (sound_of_reachable hosted reached)) steps
      rcases (mirrors steps (Nat.le_refl _)).step sound sound' placed
        (covers steps (Nat.lt_succ_self _)) with next | ⟨outcome, answers⟩
      · refine .inl fun moment upTo => ?_
        rcases Nat.le_succ_iff.1 upTo with earlier | rfl
        · exact mirrors moment earlier
        · rw [run_succ_last, run_succ_last]
          exact next
      · refine .inr ⟨steps + 1, Nat.le_refl _, fun moment earlier =>
          mirrors moment (Nat.le_of_lt_succ earlier), outcome, ?_⟩
        rw [run_succ_last, run_succ_last]
        exact answers
    · exact .inr ⟨middle, Nat.le_succ_of_le upTo, answered⟩

/-- While the request is not answered, no body is at hand at the level of the request, in neither
machine. -/
theorem Mirrors.inside (mirrors : Mirrors errand first second) :
    (∀ body, first.focus = .body body → first.pending.length ≠ errand.rest.length) ∧
      ∀ body, second.focus = .body body → second.pending.length ≠ errand.rest.length := by
  cases mirrors with
  | @running first focus pending mirrors =>
    generalize found : first.focus = work at mirrors
    cases mirrors <;> simp
  | above config mirrors =>
    constructor
    · intro body _
      simp only [onto_pending, List.length_append, List.length_cons]
      omega
    · intro body _
      simp only [onto_pending, List.length_append, List.length_cons]
      omega
  | faulted focus focus' => simp [focus, focus']

/-- A request to run a function for its result, on a thread that does not run and has no hook of
the host. The function has no parameters and answers. -/
structure AsksResult (config : Config ν σ) (id : ThreadId) (next : Answer ν → Body ν σ) : Prop where
  asks : ∃ called function, config.focus = .body (.ask (.runInt id called) next) ∧
    config.world.domain.function? called = some function ∧ function.params = 0 ∧
    function.AnswersInt
  idles : ∃ thread, config.world.domain.thread? id = some thread ∧ ¬thread.isRunning ∧
    ∀ reference, thread.hook ≠ some (.custom reference)

/-- The errand of a request: the run may execute the functions that are registered in a number of
steps. -/
def errandOf (host : Host ν σ) (config : Config ν σ) (id : ThreadId) (next : Answer ν → Body ν σ)
    (steps : Nat) : Errand ν σ where
  thread := id
  next := next
  functions function := ∃ moment < steps, function ∈ (config.run host moment).world.domain.functions
  rest := config.pending

variable {id : ThreadId} {next : Answer ν → Body ν σ}

/-- A machine and one with another operand stack begin to carry out the request in lockstep. -/
theorem AsksResult.commences (requests : config.AsksResult id next) (host : Host ν σ)
    (stack : Array Int32) {steps : Nat} (started : 0 < steps) :
    Commences (config.errandOf host id next steps) (config.step host)
      ((config.restack id stack).step host) := by
  obtain ⟨called, function, asks, registered, parameterless, answers⟩ := requests.asks
  obtain ⟨thread, present, idle, unhooked⟩ := requests.idles
  obtain ⟨execution, held⟩ : ∃ execution, thread.execution = some execution :=
    Option.ne_none_iff_exists'.1 (by simpa [Thread.isRunning] using idle)
  simp only [Config.step, restack_focus, asks]
  exact @start_commences _ _ host config (config.errandOf host id next steps) thread execution
    function stack called rfl registered present held unhooked
    ⟨0, started, Array.mem_of_getElem? registered⟩ parameterless answers

/-- They stay in lockstep until both answer. -/
theorem AsksResult.run (requests : config.AsksResult id next)
    (hosted : host.Asks Request.RegistersVerified)
    (reached : config.Reachable host Request.RegistersVerified) (stack : Array Int32) (steps : Nat)
    (furnished : ∀ earlier < steps, ∀ later < steps,
      ∀ function ∈ (config.run host earlier).world.domain.functions,
        function.CallsFurnished (config.run host later).world.domain.functions) :
    (∀ moment, 0 < moment → moment ≤ steps → Mirrors (config.errandOf host id next steps)
        (config.run host moment) ((config.restack id stack).run host moment)) ∨
      ∃ middle, 0 < middle ∧ middle ≤ steps ∧
        (∀ moment, 0 < moment → moment < middle → Mirrors (config.errandOf host id next steps)
          (config.run host moment) ((config.restack id stack).run host moment)) ∧
        ∃ outcome, Answers (config.errandOf host id next steps) outcome (config.run host middle)
          ((config.restack id stack).run host middle) := by
  cases steps with
  | zero => exact .inl fun moment positive upTo => by omega
  | succ steps =>
    have begins := requests.commences host stack (Nat.succ_pos steps)
    generalize same : config.errandOf host id next (steps + 1) = errand at begins ⊢
    have covers (moment : Nat) (earlier : moment < steps) :
        errand.Covers ((config.step host).run host moment).world.domain.functions := by
      rw [← run_succ, ← same]
      exact ⟨fun function listed => ⟨moment + 1, Nat.succ_lt_succ earlier, listed⟩,
        fun function ⟨before, inside, listed⟩ =>
          furnished before inside (moment + 1) (Nat.succ_lt_succ earlier) function listed⟩
    have shift {moment : Nat} (positive : 0 < moment)
        (mirrors : Mirrors errand ((config.step host).run host (moment - 1))
          (((config.restack id stack).step host).run host (moment - 1))) :
        Mirrors errand (config.run host moment) ((config.restack id stack).run host moment) := by
      rw [← run_succ, ← run_succ, Nat.sub_add_cancel positive] at mirrors
      exact mirrors
    rcases begins.run hosted reached.step steps covers with mirrors |
      ⟨middle, upTo, mirrors, answered⟩
    · exact .inl fun moment positive upTo => shift positive (mirrors _ (by omega))
    · refine .inr ⟨middle + 1, Nat.succ_pos _, Nat.succ_le_succ upTo,
        fun moment positive earlier => shift positive (mirrors _ (by omega)), ?_⟩
      rw [run_succ, run_succ]
      exact answered

/-- When both machines have answered, the bodies go on in both, with the same outcome, over worlds
that differ in an operand stack. -/
theorem Answers.goOn {middle : Nat} {outcome : Outcome}
    (rest : config.pending = errand.rest) (positive : 0 < middle)
    (before : ∀ moment, 0 < moment → moment < middle → Mirrors errand (config.run host moment)
      ((config.restack errand.thread stack).run host moment))
    (answers : Answers errand outcome (config.run host middle)
      ((config.restack errand.thread stack).run host middle)) :
    ∃ value value' leftover,
      config.GoesOn host middle (errand.next (.returned outcome value)) ∧
      (config.restack errand.thread stack).GoesOn host middle
        (errand.next (.returned outcome value')) ∧
      (outcome = .completed → value' = value) ∧
      ((config.restack errand.thread stack).run host middle).world =
        ((config.run host middle).restack errand.thread leftover).world ∧
      ((config.restack errand.thread stack).run host middle).state =
        (config.run host middle).state := by
  generalize first : config.run host middle = done at answers
  generalize second : (config.restack errand.thread stack).run host middle = done' at answers
  cases answers with
  | @returned value value' leftover pending focus completes =>
    refine ⟨value, value', leftover, ⟨positive, ?_, ?_, fun between started earlier level body =>
      ?_⟩, ⟨positive, ?_, ?_, fun between started earlier level body => ?_⟩, completes, rfl, rfl⟩
    · rw [first, focus]
    · rw [first, pending, rest]
    · intro found
      exact (before between started earlier).inside.1 body found (by rw [level, rest])
    · rw [second, goto_focus]
    · rw [second, goto_pending, restack_pending, restack_pending, pending, rest]
    · intro found
      exact (before between started earlier).inside.2 body found
        (by rw [level, restack_pending, rest])

/-- What a run returns, and which native methods it calls with which arguments, does not depend on
what earlier runs have left on the operand stack of the thread. Where every script call passes the
parameters of the callee, and the entry function and those whose results are used return one, two
machines that differ only in this call the same native methods until the run is answered, and answer
at the same step with the same outcome, and with the same value if the run completes. The worlds
that they leave, the globals included, differ only in what the thread has on its operand stack. -/
theorem leftovers_unseen (hosted : host.Asks Request.RegistersVerified)
    (reached : config.Reachable host Request.RegistersVerified)
    (requests : config.AsksResult id next) (stack : Array Int32) (steps : Nat)
    (furnished : ∀ earlier < steps, ∀ later < steps,
      ∀ function ∈ (config.run host earlier).world.domain.functions,
        function.CallsFurnished (config.run host later).world.domain.functions) :
    let other := config.restack id stack
    ((∀ earlier < steps, ∀ body, ¬config.GoesOn host earlier body) →
        other.nativeCalls host steps = config.nativeCalls host steps) ∧
      (∀ body, config.GoesOn host steps body → ∃ outcome value value' leftover,
        body = next (.returned outcome value) ∧
        other.GoesOn host steps (next (.returned outcome value')) ∧
        (outcome = .completed → value' = value) ∧
        (other.run host steps).world.domain.globals =
          (config.run host steps).world.domain.globals ∧
        (other.run host steps).world = ((config.run host steps).restack id leftover).world ∧
        (other.run host steps).state = (config.run host steps).state) ∧
      ∀ body, other.GoesOn host steps body → ∃ body', config.GoesOn host steps body' := by
  intro other
  obtain ⟨called, function, asks, _⟩ := requests.asks
  have lockstep := requests.run hosted reached stack steps furnished
  refine ⟨fun unanswered => ?_, fun body goesOn => ?_, fun body goesOn => ?_⟩
  · refine List.filterMap_congr fun moment earlier => ?_
    replace earlier := List.mem_range.1 earlier
    cases moment with
    | zero => rfl
    | succ moment =>
      have commences := requests.commences host stack (Nat.zero_lt_of_lt earlier)
      have sound' := sound_run hosted
        (commences.sound (sound_of_reachable hosted reached.step)) moment
      rw [← run_succ] at sound'
      have mirrors : Mirrors (config.errandOf host id next steps) (config.run host (moment + 1))
          (other.run host (moment + 1)) := by
        rcases lockstep with mirrors | ⟨middle, started, upTo, before, outcome, answered⟩
        · exact mirrors (moment + 1) (Nat.succ_pos _) (Nat.le_of_lt earlier)
        · obtain ⟨value, value', leftover, arrives, _⟩ :=
            answered.goOn rfl started before
          have late : steps ≤ middle := Nat.not_lt.1 fun early => unanswered middle early _ arrives
          exact before (moment + 1) (Nat.succ_pos _) (Nat.lt_of_lt_of_le earlier late)
      exact mirrors.nativeCall?_eq (sound_of_reachable hosted (reached.run (moment + 1))) sound'
  · rcases lockstep with mirrors | ⟨middle, positive, upTo, before, outcome, answered⟩
    · exact absurd goesOn.level
        ((mirrors steps goesOn.started (Nat.le_refl _)).inside.1 body goesOn.focus)
    · obtain ⟨value, value', leftover, arrives, follows, completes, world, state⟩ :=
        answered.goOn rfl positive before
      obtain ⟨rfl, rfl⟩ := goesOn.arrives positive upTo arrives.focus (arrives.pending asks)
      refine ⟨outcome, value, value', leftover, rfl, follows, completes, ?_, world, state⟩
      have globals := congrArg (fun world => world.domain.globals) world
      rwa [restack_world, Domain.globals_restack] at globals
  · rcases lockstep with mirrors | ⟨middle, positive, upTo, before, outcome, answered⟩
    · exact absurd goesOn.level
        ((mirrors steps goesOn.started (Nat.le_refl _)).inside.2 body goesOn.focus)
    · obtain ⟨value, value', leftover, arrives, follows, _⟩ :=
        answered.goOn rfl positive before
      obtain ⟨rfl, _⟩ := goesOn.arrives positive upTo follows.focus (follows.pending asks)
      exact ⟨_, arrives⟩

/-- A host whose native methods answer their first argument. -/
def echoingHost : Host Unit Unit where
  native _ arguments := .done (arguments.headD 0)
  onAbort _ _ := .done 0
  onLimit _ _ state := state
  onEvent _ _ state := state

/-- What a completed run returns, and minus one for any other answer. -/
def completedValue : Answer Unit → Int32
  | .returned .completed value => value
  | _ => -1

/-- A function is run for its result. -/
def runningAdding : Program Unit Unit Int32 := do
  let _ ← Program.update (.addFunction (.trusted awaiting 1))
  let _ ← Program.update (.addFunction (.trusted adding 2))
  let _ ← Program.update .createThread
  let answer ← Program.request (.runInt ⟨0⟩ ⟨1⟩)
  return completedValue answer

/-- Neither function returns without a result, and their calls pass all parameters. -/
theorem furnished_adding : Function.AnswersInt (.trusted adding 2) ∧
    ∀ function ∈ #[Function.trusted awaiting 1, .trusted adding 2],
      function.CallsFurnished #[.trusted awaiting 1, .trusted adding 2] := by
  have awaits : awaiting.code.instructions.instructions.toList =
      [(0, .const8 7), (2, .native .static .int 1 0), (5, .ret .int)] := by cbv
  have adds : adding.code.instructions.instructions.toList =
      [(0, .const8 3), (2, .script .int 0 0), (5, .binary .add), (6, .ret .int)] := by cbv
  have awaitingAnswers : Function.AnswersInt (.trusted awaiting 1) := by
    intro pc _ listed
    have found := Array.mem_toList_iff.2 listed
    rw [show (Function.trusted awaiting 1).code = awaiting.code from rfl, awaits] at found
    simp at found
  refine ⟨fun pc _ listed => ?_, fun function member pc result argc callee _ listed called found =>
    ?_⟩
  · have found := Array.mem_toList_iff.2 listed
    rw [show (Function.trusted adding 2).code = adding.code from rfl, adds] at found
    simp at found
  · replace listed := Array.mem_toList_iff.2 listed
    simp only [List.mem_toArray, List.mem_cons, List.not_mem_nil, or_false] at member
    rcases member with rfl | rfl
    · rw [show (Function.trusted awaiting 1).code = awaiting.code from rfl, awaits] at listed
      simp at listed
    · rw [show (Function.trusted adding 2).code = adding.code from rfl, adds] at listed
      simp only [List.mem_cons, Prod.mk.injEq, Instruction.script.injEq, reduceCtorEq, and_false,
        List.not_mem_nil, or_false, false_or] at listed
      obtain ⟨rfl, rfl, rfl, rfl⟩ := listed
      cases found
      exact ⟨Nat.le_refl _, fun _ => awaitingAnswers⟩

/-- The function returns over any leftovers what it returns on a fresh thread, and calls its native
method with the same argument. -/
theorem leftovers_unseen_adding :
    let config := (Config.initial {} () runningAdding).run echoingHost 3
    let other := config.restack ⟨0⟩ #[1, 1, 1, 1]
    config.GoesOn echoingHost 14 (.done 10) ∧ other.GoesOn echoingHost 14 (.done 10) ∧
      other.nativeCalls echoingHost 14 = [((), [7])] ∧
      ∃ moment < 14, (config.run echoingHost moment).Invokes echoingHost () [7] := by
  intro config other
  have hosted : echoingHost.Asks Request.RegistersVerified :=
    ⟨fun _ _ => trivial, fun _ _ => trivial⟩
  have asks : runningAdding.Asks Request.RegistersVerified :=
    ⟨verified_awaiting, fun _ => ⟨verified_adding, fun _ => ⟨trivial, fun _ => ⟨trivial, fun _ =>
      trivial⟩⟩⟩⟩
  have reached := @Reachable.run _ _ echoingHost _ _ (.initial () runningAdding asks) 3
  obtain ⟨answers, furnished⟩ := furnished_adding
  have requests : config.AsksResult ⟨0⟩ fun answer => .done (completedValue answer) :=
    ⟨⟨⟨1⟩, .trusted adding 2, rfl, rfl, rfl, answers⟩,
      { «variables» := #[], joinQueue := ⟨0⟩ }, rfl, by decide, by simp⟩
  have goesOn : config.GoesOn echoingHost 14 (.done 10) :=
    .of_speaks (by decide) (answered?_eq_some.1 (by decide +kernel)) (by decide +kernel)
      (by decide +kernel)
  have fixed : ∀ moment < 14, (config.run echoingHost moment).world.domain.functions =
      config.world.domain.functions := by decide +kernel
  obtain ⟨calls, returns, _⟩ := leftovers_unseen hosted reached requests #[1, 1, 1, 1] 14
    fun earlier before later after function listed => by
      rw [fixed earlier before] at listed
      rw [fixed later after]
      exact furnished function listed
  have called : config.nativeCalls echoingHost 14 = [((), [7])] := by decide +kernel
  refine ⟨goesOn, ?_, ?_, ?_⟩
  · obtain ⟨outcome, value, value', leftover, same, follows, completes, _⟩ := returns _ goesOn
    have answer : 10 = completedValue (.returned outcome value) := Program.done.inj same
    cases outcome with
    | completed =>
      rw [completes rfl] at follows
      rw [same]
      exact follows
    | suspended | aborted _ =>
      have other : (10 : Int32) ≠ -1 := by decide
      exact absurd answer other
  · rw [calls fun earlier before body found =>
      goesOn.first earlier found.started before found.level body found.focus]
    exact called
  · refine (mem_nativeCalls_iff hosted reached).1 ?_
    rw [called]
    exact List.mem_singleton_self _

end Config

end ScriptMachine

import ScriptMachine.Proofs.Changes

/-!
# Who sleeps

The sleepers stand in the order in which they are to be woken, and each has a number of its own,
smaller than the number of the next one. Apart from the updates that a body asks for, a step takes
sleepers away only by aborting their thread.
-/

namespace ScriptMachine

variable {ν σ : Type}

/-- A sleeper is taken before another if it is due earlier, or fell asleep earlier. -/
theorem Sleeper.before_iff {a b : Sleeper} :
    a.before b = true ↔ a.wake < b.wake ∨ a.wake = b.wake ∧ a.order < b.order := by
  simp [before]

namespace Sleepers

/-- The sleepers stand in their order, and their numbers have been given out. -/
structure Ordered (sleepers : Sleepers) : Prop where
  sorted : sleepers.entries.Pairwise fun a b => a.before b = true
  numbered : ∀ sleeper ∈ sleepers.entries, sleeper.order < sleepers.next

/-- Inserting a sleeper adds it to the others. -/
theorem mem_insert {sleeper other : Sleeper} {entries : List Sleeper} :
    other ∈ insert sleeper entries ↔ other = sleeper ∨ other ∈ entries := by
  induction entries with
  | nil => simp [insert]
  | cons first rest ih =>
    unfold insert
    split
    · simp
    · simp only [List.mem_cons, ih]
      grind

/-- Inserting a sleeper with a larger number than the others keeps their order. -/
theorem sorted_insert {sleeper : Sleeper} {entries : List Sleeper}
    (sorted : entries.Pairwise fun a b => a.before b = true)
    (latest : ∀ other ∈ entries, other.order < sleeper.order) :
    (insert sleeper entries).Pairwise fun a b => a.before b = true := by
  induction entries with
  | nil => simp [insert]
  | cons first rest ih =>
    obtain ⟨least, tail⟩ := List.pairwise_cons.1 sorted
    have earlier := latest first (by simp)
    unfold insert
    split
    · rename_i precedes
      refine List.pairwise_cons.2 ⟨fun other listed => ?_, sorted⟩
      rcases List.mem_cons.1 listed with rfl | later
      · exact precedes
      · have next := least other later
        simp only [Sleeper.before_iff] at precedes next ⊢
        omega
    · rename_i follows
      have rest' := ih tail fun other listed => latest other (List.mem_cons_of_mem _ listed)
      refine List.pairwise_cons.2 ⟨fun other listed => ?_, rest'⟩
      rcases mem_insert.1 listed with rfl | later
      · rw [Sleeper.before_iff] at follows ⊢
        omega
      · exact least other later

namespace Ordered

variable {sleepers : Sleepers}

/-- No one sleeps at first. -/
theorem empty : Ordered {} := ⟨by simp, by simp⟩

/-- A thread that goes to sleep. -/
theorem add (ordered : sleepers.Ordered) (thread : ThreadId) (now ticks : Nat) :
    (sleepers.add thread now ticks).Ordered where
  sorted := sorted_insert ordered.sorted ordered.numbered
  numbered other listed := by
    rcases mem_insert.1 listed with rfl | earlier
    · exact Nat.lt_succ_self _
    · exact Nat.lt_succ_of_lt (ordered.numbered other earlier)

/-- A thread whose sleeps are forgotten. -/
theorem remove (ordered : sleepers.Ordered) (thread : ThreadId) :
    (sleepers.remove thread).Ordered where
  sorted := ordered.sorted.filter _
  numbered other listed := ordered.numbered other (List.mem_filter.1 listed).1

/-- Sleepers that are forgotten. -/
theorem clear : sleepers.clear.Ordered := ⟨by simp [Sleepers.clear], by simp [Sleepers.clear]⟩

/-- The next sleeper that is taken. -/
theorem takeDue (ordered : sleepers.Ordered) {now below : Nat} {thread : ThreadId}
    {left : Sleepers} (taken : sleepers.takeDue now below = some (thread, left)) :
    left.Ordered := by
  unfold Sleepers.takeDue at taken
  split at taken
  · cases taken
  · rename_i first rest listed
    split at taken <;> cases taken
    have sorted := ordered.sorted
    rw [listed] at sorted
    exact ⟨(List.pairwise_cons.1 sorted).2, fun other later =>
      ordered.numbered other (listed ▸ List.mem_cons_of_mem _ later)⟩

end Ordered

end Sleepers

/-- An update leaves the sleepers alone unless it puts one to sleep, takes one or forgets them. -/
theorem Update.sleepers_of_apply {world next : World ν} {update : Update ν} {answer : Answer ν}
    (done : update.apply world = .ok (next, answer)) :
    next.sleepers = world.sleepers ∨
      (∃ now ticks thread, update = .sleepActive now ticks ∧
        next.sleepers = world.sleepers.add thread now ticks.toNatClampNeg) ∨
      (∃ now below thread, update = .takeDue now below ∧
        world.sleepers.takeDue now below = some (thread, next.sleepers)) ∨
      update = .clearSleepers ∧ next.sleepers = world.sleepers.clear := by
  cases yields_of_apply done with
  | sleepActive => exact .inr (.inl ⟨_, _, _, rfl, rfl⟩)
  | takeDue taken => exact .inr (.inr (.inl ⟨_, _, _, rfl, taken⟩))
  | clearSleepers => exact .inr (.inr (.inr ⟨rfl, rfl⟩))
  | hold | unhold => exact .inl (World.modifyArguments_frame _ _ _).2
  | _ => exact .inl rfl

/-- A request gives a thread a fresh frame. -/
def Request.Starts (id : ThreadId) : Request ν → Prop
  | .start thread _ | .run thread _ | .runInt thread _ => thread = id
  | _ => False

namespace Config

variable {host : Host ν σ} {config : Config ν σ}

@[simp] theorem sleepers_setDomain (domain : Domain ν) :
    (config.setDomain domain).world.sleepers = config.world.sleepers := rfl

/-- Starting a run wakes no sleeper. -/
@[simp] theorem sleepers_launch (id : ThreadId) (purpose : Purpose)
    (reply : Answer ν → Body ν σ) :
    (config.launch host id purpose reply).world.sleepers = config.world.sleepers := by
  refine @attempt_induction _ _ _ (fun after => after.world.sleepers = _) _ _ _ (fun _ => rfl)
    fun thread _ => ?_
  split
  · rfl
  · dsimp only
    split <;> simp

/-- What follows an abort wakes no sleeper. -/
@[simp] theorem sleepers_afterAbort (next : AfterAbort ν σ) :
    (config.afterAbort host next).world.sleepers = config.world.sleepers := by
  cases next with
  | reply next => rfl
  | stop run function pc reason => rfl
  | start id function purpose next =>
    refine @attempt_induction _ _ _ (fun after => after.world.sleepers = _) _ _ _ (fun _ => rfl)
      fun thread _ => ?_
    split
    · rfl
    · cases purpose with
      | none => rfl
      | some purpose => exact sleepers_launch id purpose next

/-- Detaching a thread forgets its sleeps at most. -/
theorem sleepers_detach (id : ThreadId) (next : AfterAbort ν σ) :
    (config.detach host id next).world.sleepers = config.world.sleepers ∨
      (config.detach host id next).world.sleepers = config.world.sleepers.remove id := by
  refine @attempt_induction _ _ _ (fun after => after.world.sleepers = _ ∨
    after.world.sleepers = _) _ _ _ (fun _ => .inl rfl) fun ⟨domain, hook⟩ _ => ?_
  dsimp only
  split
  · exact .inl (by simp)
  · exact .inr (by simp)
  · exact .inl rfl

/-- Aborting a thread forgets its sleeps at most. -/
theorem sleepers_abort (id : ThreadId) (reason : AbortReason) (next : AfterAbort ν σ) :
    (config.abort host id reason next).world.sleepers = config.world.sleepers ∨
      (config.abort host id reason next).world.sleepers = config.world.sleepers.remove id :=
  @attempt_induction _ _ _ (fun after => after.world.sleepers = _ ∨
    after.world.sleepers = _) _ _ _ (fun _ => .inl rfl) fun _ _ => sleepers_detach id next

/-- Continuing a thread wakes no sleeper. -/
@[simp] theorem sleepers_continueThread (id : ThreadId) (purpose : Purpose)
    (next : Answer ν → Body ν σ) :
    (config.continueThread host id purpose next).world.sleepers = config.world.sleepers := by
  refine @attempt_induction _ _ _ (fun after => after.world.sleepers = _) _ _ _ (fun _ => rfl)
    fun thread _ => ?_
  dsimp only
  split
  · rfl
  · exact sleepers_launch id purpose next

/-- Resuming a thread wakes no sleeper. -/
@[simp] theorem sleepers_resume (id : ThreadId) (next : Answer ν → Body ν σ) :
    (config.resume host id next).world.sleepers = config.world.sleepers :=
  @resume_induction _ _ (fun after => after.world.sleepers = _) _ _ _ _ (fun _ => rfl)
    (fun _ => rfl) fun _ _ _ _ _ => sleepers_continueThread id .plain next

/-- Waking a thread through its queue wakes no sleeper. -/
@[simp] theorem sleepers_wake (queue : QueueId) (value : Option Int32)
    (next : Answer ν → Body ν σ) :
    (config.wake host queue value next).world.sleepers = config.world.sleepers :=
  @wake_induction _ _ (fun after => after.world.sleepers = _) _ _ _ _ _ (fun _ => rfl)
    (fun _ => rfl) (fun _ _ _ _ _ => rfl) fun head _ domain _ _ _ _ _ =>
      ⟨fun _ => rfl, fun _ _ => rfl, fun supplied _ =>
        @sleepers_continueThread _ _ host ((config.setDomain domain).setDomain supplied) head
          .woken next⟩

/-- The next step aborts a thread: a body asks for it, or gives the thread a fresh frame although
it is suspended or has frames; or an abort that was requested while the thread ran is honored. -/
inductive Aborts (id : ThreadId) (config : Config ν σ) : Prop where
  | asked {next : Answer ν → Body ν σ} (focus : config.focus = .body (.ask (.abort id) next))
  | faulted {error : ObjectError} {next : Answer ν → Body ν σ}
    (focus : config.focus = .body (.ask (.faultActive error) next))
    (active : config.world.domain.active = some id)
  | restarted {request : Request ν} {next : Answer ν → Body ν σ} {thread : Thread ν}
    {execution : Execution ν} (focus : config.focus = .body (.ask request next))
    (starts : request.Starts id) (present : config.world.domain.thread? id = some thread)
    (held : thread.execution = some execution)
    (occupied : thread.suspended = true ∨ execution.frames ≠ [])
  | honored {value : Int32} {run : Run ν σ} {registers : Registers ν} {call : NativeCall}
    {rest : List (Pending ν σ)} {thread : Thread ν} {reason : AbortReason}
    (focus : config.focus = .body (.done value))
    (waiting : config.pending = .calling run registers call :: rest)
    (present : config.world.domain.thread? id = some thread) (called : run.thread = id)
    (requested : thread.pendingAbort = some reason)

/-- What a step does to the sleepers. -/
inductive Stirs (before after : Config ν σ) : Prop where
  | rests (same : after.world.sleepers = before.world.sleepers)
  | aborts {id : ThreadId} (aborts : before.Aborts id)
    (removed : after.world.sleepers = before.world.sleepers.remove id)
  | falls {now : Nat} {ticks : Int32} {next : Answer ν → Body ν σ} (thread : ThreadId)
    (focus : before.focus = .body (.ask (.update (.sleepActive now ticks)) next))
    (added : after.world.sleepers = before.world.sleepers.add thread now ticks.toNatClampNeg)
  | takes {now below : Nat} {next : Answer ν → Body ν σ} (thread : ThreadId)
    (focus : before.focus = .body (.ask (.update (.takeDue now below)) next))
    (taken : before.world.sleepers.takeDue now below = some (thread, after.world.sleepers))
  | clears {next : Answer ν → Body ν σ}
    (focus : before.focus = .body (.ask (.update .clearSleepers) next))
    (cleared : after.world.sleepers = before.world.sleepers.clear)

/-- Giving a thread a fresh frame forgets its sleeps at most, and only if it is aborted first. -/
theorem stirs_start {request : Request ν} {id : ThreadId} {function : FunctionId}
    {purpose : Option Purpose} {next : Answer ν → Body ν σ}
    (focus : config.focus = .body (.ask request next)) (starts : request.Starts id) :
    config.Stirs (config.start host id function purpose next) := by
  refine start_induction (fun _ => .rests rfl) (fun _ => .rests rfl) (fun _ _ _ => .rests rfl)
    fun registered thread execution _ present held => ⟨fun occupied => ?_, fun _ _ => ?_⟩
  · rcases sleepers_abort id .requested (.start id registered purpose next) with same | removed
    · exact .rests same
    · exact .aborts (.restarted focus starts present held occupied) removed
  · exact .rests (by simp)

/-- Carrying out a request. -/
theorem stirs_perform {request : Request ν} {next : Answer ν → Body ν σ}
    (focus : config.focus = .body (.ask request next)) :
    config.Stirs (config.perform host request next) := by
  cases request with
  | observe => exact .rests rfl
  | update update =>
    refine @attempt_induction _ _ _ (config.Stirs ·) _ _ _ (fun _ => .rests rfl)
      fun ⟨world, answer⟩ done => ?_
    rcases Update.sleepers_of_apply done with same | ⟨now, ticks, thread, rfl, added⟩ |
      ⟨now, below, thread, rfl, taken⟩ | ⟨rfl, cleared⟩
    · exact .rests same
    · exact .falls thread focus added
    · exact .takes thread focus taken
    · exact .clears focus cleared
  | start id function => exact stirs_start focus rfl
  | run id function => exact stirs_start focus rfl
  | runInt id function => exact stirs_start focus rfl
  | resume id => exact .rests (by simp [perform])
  | abort id =>
    rcases sleepers_abort id .requested (.reply next) with same | removed
    · exact .rests same
    · exact .aborts (.asked focus) removed
  | faultActive error =>
    unfold perform
    dsimp only
    split
    · exact .rests rfl
    · rename_i id active
      rcases sleepers_abort id (.badArgument error) (.reply next) with same | removed
      · exact .rests same
      · exact .aborts (.faulted focus active) removed
  | wake queue value => exact .rests (by simp [perform])

/-- Executing an instruction wakes no sleeper. -/
theorem sleepers_execute (run : Run ν σ) (registers : Registers ν) :
    (config.execute host run registers).world.sleepers = config.world.sleepers := by
  obtain ⟨globals, _, world⟩ := execute_world host config run registers
  rw [world]

/-- A step leaves the sleepers alone, aborts one, or does what a body asks for. -/
theorem step_stirs (host : Host ν σ) (config : Config ν σ) : config.Stirs (config.step host) := by
  refine step_induction {
    rests _ := .rests rfl
    enters run _ := ?_
    executes _ _ _ := .rests (sleepers_execute _ _)
    ends run _ _ := attempt_induction (fun _ => .rests rfl) fun thread _ => .rests (by simp)
    asks _ _ focus := stirs_perform focus
    modifies _ _ _ := .rests rfl
    crashes _ _ := .rests rfl
    concludes _ _ _ := .rests rfl
    answers _ run registers call rest focus waiting := ?_
    goesOn _ _ _ _ _ := .rests (by simp) }
  · unfold enterFrame
    split
    · exact .rests rfl
    · split
      · exact .rests rfl
      · exact .rests (by simp)
  · refine returnNative_induction fun shown emitted => ?_
    have world : shown.world = config.world := by rw [← emitted, emit_world]
    refine ⟨fun _ => .rests (congrArg World.sleepers world), fun stack thread _ present =>
      ⟨fun reason requested => ?_, fun _ _ => .rests (by simp [world]),
        fun _ _ => .rests (by simp [world])⟩⟩
    rw [world] at present
    rcases @sleepers_detach _ _ host (shown.setDomain (shown.world.domain.setThread run.thread
      { thread with pendingAbort := none })) run.thread
      (.stop (run.setStack stack) registers.function call.pc reason) with same | removed
    · exact .rests (same.trans (by rw [sleepers_setDomain, world]))
    · refine .aborts (.honored focus waiting present rfl requested) ?_
      exact removed.trans (by rw [sleepers_setDomain, world])

/-- A step keeps the sleepers in their order. -/
theorem Stirs.ordered {before after : Config ν σ} (stirs : before.Stirs after)
    (ordered : before.world.sleepers.Ordered) : after.world.sleepers.Ordered := by
  cases stirs with
  | rests same =>
    rw [same]
    exact ordered
  | aborts _ removed =>
    rw [removed]
    exact ordered.remove _
  | falls thread _ added =>
    rw [added]
    exact ordered.add thread _ _
  | takes thread _ taken => exact ordered.takeDue taken
  | clears _ cleared =>
    rw [cleared]
    exact .clear

/-- The sleepers of a reachable configuration are in their order. -/
theorem ordered_of_reachable {allowed : Request ν → Prop}
    (reached : config.Reachable host allowed) :
    config.world.sleepers.Ordered := by
  induction reached with
  | initial state body asks => exact .empty
  | again reached ended state body asks ih => exact ih
  | step reached ih => exact (step_stirs host _).ordered ih

end Config

end ScriptMachine

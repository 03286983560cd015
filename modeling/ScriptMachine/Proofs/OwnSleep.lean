import ScriptMachine.Proofs.DueSleepers
import ScriptMachine.Proofs.Histories
import ScriptMachine.Proofs.Suspensions

/-!
# The sleep that a thread is woken from

A sleeper and the suspension of its thread are put down in two places at once, and only an abort
takes away both. A thread that is resumed, woken through a queue or suspended anew leaves its
sleeper behind, which wakes the thread from whatever it has been suspended for since. As long as
nothing of this happens, a thread that is woken because it is due sleeps for this very reason.
-/

namespace ScriptMachine

variable {ν σ : Type}

namespace Config

/-- The next step puts the active thread to sleep as the given sleeper. -/
structure Sleeps (sleeper : Sleeper) (config : Config ν σ) : Prop where
  asks : ∃ now ticks next, config.focus = .body (.ask (.update (.sleepActive now ticks)) next) ∧
    0 < ticks ∧ sleeper.wake = min (now + ticks.toNatClampNeg) lastTick
  active : config.world.domain.active = some sleeper.thread
  order : sleeper.order = config.world.sleepers.next

/-- A thread is suspended until it is due. -/
structure Asleep (id : ThreadId) (config : Config ν σ) : Prop where
  suspended : (config.world.domain.suspension id).suspended = true
  hook : (config.world.domain.suspension id).hook = some .leaveSleep

/-- The next step ends the suspension of a thread. -/
def Rouses (host : Host ν σ) (id : ThreadId) (config : Config ν σ) : Prop :=
  (config.world.domain.suspension id).suspended = true ∧
    ((config.step host).world.domain.suspension id).suspended = false

/-- The next step ends the suspension of a thread or replaces it by another. -/
def Interrupts (host : Host ν σ) (id : ThreadId) (config : Config ν σ) : Prop :=
  config.Suspends id ∨ config.Rouses host id

/-- The next step suspends a thread anew, or lets a suspended thread go on, without aborting it. -/
def Slips (host : Host ν σ) (id : ThreadId) (config : Config ν σ) : Prop :=
  config.Suspends id ∨ config.Releases id ∧ config.Rouses host id

section

variable {host : Host ν σ} {allowed : Request ν → Prop} {config : Config ν σ}

/-- The active thread has been put to sleep, or nothing has been done to the sleepers. -/
inductive Dozes (now : Nat) (ticks : Int32) (before after : Config ν σ) : Prop where
  | stays (same : after.world.sleepers = before.world.sleepers)
  | falls {thread : ThreadId} (active : before.world.domain.active = some thread)
    (positive : 0 < ticks)
    (added : after.world.sleepers = before.world.sleepers.add thread now ticks.toNatClampNeg)
    (asleep : after.Asleep thread)

/-- Putting the active thread to sleep adds a sleeper and suspends the thread. -/
theorem step_sleepActive {now : Nat} {ticks : Int32} {next : Answer ν → Body ν σ}
    (focus : config.focus = .body (.ask (.update (.sleepActive now ticks)) next)) :
    config.Dozes now ticks (config.step host) := by
  have made : config.step host = config.perform host (.update (.sleepActive now ticks)) next := by
    simp only [step, focus]
  rw [made]
  refine attempt_induction (fun _ => .stays rfl) fun result done => ?_
  obtain ⟨world, answer⟩ := result
  cases Update.yields_of_apply done with
  | nothing => exact .stays rfl
  | @sleepActive _ _ thread _ active positive suspended =>
    have after := Domain.suspension_suspend suspended thread
    rw [if_pos rfl] at after
    exact .falls active positive rfl ⟨by rw [after], by rw [after]⟩

/-- A sleeper that stands among the others after a step did so before, or its thread has just been
put to sleep. -/
theorem mem_entries_step {sleeper : Sleeper}
    (listed : sleeper ∈ (config.step host).world.sleepers.entries) :
    sleeper ∈ config.world.sleepers.entries ∨
      config.Sleeps sleeper ∧ (config.step host).Asleep sleeper.thread := by
  cases step_stirs host config with
  | rests same => exact .inl (same ▸ listed)
  | aborts _ removed =>
    rw [removed] at listed
    exact .inl (List.mem_filter.1 listed).1
  | takes thread focus taken =>
    obtain ⟨first, entries, _⟩ := Sleepers.takeDue_some taken
    rw [entries]
    exact .inl (List.mem_cons_of_mem _ listed)
  | clears focus cleared =>
    rw [cleared] at listed
    cases listed
  | @falls now ticks next _ focus _ =>
    cases @step_sleepActive _ _ host _ _ _ _ focus with
    | stays same => exact .inl (same ▸ listed)
    | @falls thread active positive added asleep =>
      rw [added] at listed
      rcases Sleepers.mem_insert.1 listed with rfl | earlier
      · exact .inr ⟨⟨⟨now, ticks, next, focus, positive, rfl⟩, active, rfl⟩, asleep⟩
      · exact .inl earlier

/-- A sleeping thread goes on sleeping, is suspended anew, is let go on, or is aborted and taken
from the sleepers. -/
theorem Asleep.step {id : ThreadId} (asleep : config.Asleep id)
    (linked : config.world.domain.Linked) :
    (config.step host).Asleep id ∨ config.Slips host id ∨
      ∀ sleeper ∈ (config.step host).world.sleepers.entries, sleeper.thread ≠ id := by
  have roused (ended : (config.step host).world.domain.suspension id = {}) :
      config.Rouses host id := ⟨asleep.suspended, by rw [ended]⟩
  cases step_treats host linked id with
  | lasts lasts =>
    exact .inl ⟨lasts.suspended.trans asleep.suspended, lasts.hook.trans asleep.hook⟩
  | suspends suspends _ => exact .inr (.inl (.inl suspends))
  | releases releases ended => exact .inr (.inl (.inr ⟨releases, roused ended⟩))
  | aborts _ _ sleepers =>
    refine .inr (.inr fun sleeper listed => ?_)
    rw [sleepers asleep.hook] at listed
    simpa using (List.mem_filter.1 listed).2

/-- What slips interrupts. -/
theorem Slips.interrupts {id : ThreadId} (slips : config.Slips host id) :
    config.Interrupts host id := slips.imp_right And.right

/-! ## Histories -/

variable {configs : Nat → Config ν σ}

/-- Between two moments a thread has been asleep without interruption. -/
structure SleptSince (host : Host ν σ) (configs : Nat → Config ν σ) (id : ThreadId)
    (since time : Nat) : Prop where
  asleep : (configs time).Asleep id
  undisturbed : ∀ between, since < between → between < time →
    ¬(configs between).Interrupts host id

/-- Every sleeper has been put to sleep at some moment, and has stood among the others since. -/
theorem History.exists_sleeps (history : History host allowed configs) {time : Nat}
    {sleeper : Sleeper} (listed : sleeper ∈ (configs time).world.sleepers.entries) :
    ∃ since < time, (configs since).Sleeps sleeper ∧
      (configs (since + 1)).Asleep sleeper.thread ∧
      ∀ between, since < between → between ≤ time →
        sleeper ∈ (configs between).world.sleepers.entries := by
  induction time with
  | zero =>
    obtain ⟨state, body, _, first⟩ := history.begins
    rw [first] at listed
    cases listed
  | succ time ih =>
    have world := (history.goes time).world
    have before := listed
    rw [world] at before
    rcases mem_entries_step before with earlier | ⟨sleeps, asleep⟩
    · obtain ⟨since, past, sleeps, asleep, kept⟩ := ih earlier
      refine ⟨since, by omega, sleeps, asleep, fun between later upTo => ?_⟩
      rcases Nat.lt_or_ge time between with last | inside
      · obtain rfl : between = time + 1 := by omega
        exact listed
      · exact kept between later inside
    · refine ⟨time, Nat.lt_succ_self _, sleeps, ?_, fun between later upTo => ?_⟩
      · exact ⟨world ▸ asleep.suspended, world ▸ asleep.hook⟩
      · obtain rfl : between = time + 1 := by omega
        exact listed

/-- A thread that has been put to sleep sleeps on as long as its sleeper stands among the others and
it does not slip. -/
theorem History.asleep_of_unslipped (history : History host allowed configs) {since time : Nat}
    {sleeper : Sleeper} (past : since < time) (fell : (configs (since + 1)).Asleep sleeper.thread)
    (listed : ∀ between, since < between → between ≤ time →
      sleeper ∈ (configs between).world.sleepers.entries)
    (unslipped : ∀ between, since < between → between < time →
      ¬(configs between).Slips host sleeper.thread) :
    (configs time).Asleep sleeper.thread := by
  induction time with
  | zero => omega
  | succ time ih =>
    rcases Nat.eq_or_lt_of_le past with same | later
    · obtain rfl : since = time := by omega
      exact fell
    · have asleep := ih (by omega) (fun between after upTo => listed between after (by omega))
        fun between after upTo => unslipped between after (by omega)
      have world := (history.goes time).world
      have here := listed (time + 1) (by omega) (Nat.le_refl _)
      rw [world] at here
      rcases asleep.step (linked_of_reachable (history.reachable time)) with
        lasts | slips | gone
      · exact ⟨world ▸ lasts.suspended, world ▸ lasts.hook⟩
      · exact absurd slips (unslipped time (by omega) (Nat.lt_succ_self _))
      · exact absurd rfl (gone sleeper here)

/-- A thread whose sleeper has stood among the others since it was put to sleep, and that has not
slipped, has slept without interruption. -/
theorem History.sleptSince_of_unslipped (history : History host allowed configs)
    {since time : Nat} {sleeper : Sleeper} (past : since < time)
    (fell : (configs (since + 1)).Asleep sleeper.thread)
    (listed : ∀ between, since < between → between ≤ time →
      sleeper ∈ (configs between).world.sleepers.entries)
    (unslipped : ∀ between, since < between → between < time →
      ¬(configs between).Slips host sleeper.thread) :
    SleptSince host configs sleeper.thread since time := by
  refine ⟨history.asleep_of_unslipped past fell listed unslipped, ?_⟩
  rintro between later earlier (suspends | roused)
  · exact unslipped between later earlier (.inl suspends)
  · have asleep := history.asleep_of_unslipped later fell
      (fun moment after upTo => listed moment after (by omega))
      fun moment after upTo => unslipped moment after (by omega)
    have still := history.asleep_of_unslipped (by omega : since < between + 1) fell
      (fun moment after upTo => listed moment after (by omega))
      fun moment after upTo => unslipped moment after (by omega)
    have world := (history.goes between).world
    have suspended := still.suspended
    rw [world, roused.2] at suspended
    cases suspended

/-- Taking a sleeper leaves the domain alone. -/
theorem domain_step_takeDue (host : Host ν σ) {now below : Nat} {next : Answer ν → Body ν σ}
    (focus : config.focus = .body (.ask (.update (.takeDue now below)) next)) :
    (config.step host).world.domain = config.world.domain := by
  rcases step_takeDue focus with ⟨_, made⟩ | ⟨_, _, _, made⟩
  · rw [made]
    rfl
  · rw [made]

/-- Taking a sleeper disturbs no sleep. -/
theorem History.sleptSince_takeDue (history : History host allowed configs)
    {since time now below : Nat} {next : Answer ν → Body ν σ} {id : ThreadId}
    (slept : SleptSince host configs id since time)
    (asks : (configs time).focus = .body (.ask (.update (.takeDue now below)) next)) :
    SleptSince host configs id since (time + 1) := by
  have goes := (history.goes time).eq_step (by simp [asks])
  have same := domain_step_takeDue host asks
  refine ⟨?_, ?_⟩
  · rw [goes]
    exact ⟨same ▸ slept.asleep.suspended, same ▸ slept.asleep.hook⟩
  · intro between later earlier interrupts
    rcases Nat.lt_or_ge between time with inside | last
    · exact slept.undisturbed between later inside interrupts
    · obtain rfl : between = time := by omega
      rcases interrupts with ⟨update, resume, focus, suspends⟩ | roused
      · rw [asks] at focus
        cases focus
        cases suspends
      · have awake := roused.2
        rw [same, roused.1] at awake
        cases awake

/-- A call that wakes whoever is due begins its loop after one step. -/
theorem runDue_begins {world : World ν} {state : σ} {now : Nat}
    {rest : List (ThreadId × Outcome) → Body ν σ} :
    ((Config.initial world state ((Waking.runDue now).bind rest)).run host 1).focus =
      .body ((Waking.wakeBelow now world.sleepers.next world.sleepers.size []).bind rest) := rfl

/-- A call that has taken a sleeper resumes its thread next. -/
theorem History.resumes_taken (history : History host allowed configs)
    {time now below count : Nat} {woken : List (ThreadId × Outcome)}
    {rest : List (ThreadId × Outcome) → Body ν σ} {thread : ThreadId} {left : Sleepers}
    (calls : (configs time).focus =
      .body ((Waking.wakeBelow now below (count + 1) woken).bind rest))
    (taken : (configs time).world.sleepers.takeDue now below = some (thread, left)) :
    ∃ next, (configs (time + 1)).focus = .body (.ask (.resume thread) next) := by
  obtain ⟨next, form, _, resumes⟩ := @wakeBelow_succ _ _ now below count woken rest
  have asks := calls.trans (congrArg Focus.body form)
  have goes := (history.goes time).eq_step (by simp [asks])
  obtain ⟨resume, handed, _⟩ := resumes thread
  rcases step_takeDue asks with ⟨none, _⟩ | ⟨other, rest, found, made⟩
  · rw [taken] at none
    cases none
  · rw [taken] at found
    cases found
    refine ⟨resume, ?_⟩
    rw [goes, made, handed]

/-- A thread that a call resumes because it is due has been put to sleep until a tick that has come.
It has slept for this reason without interruption exactly if it has not slipped: neither has it been
suspended anew, nor has it been resumed by the host, woken through a queue or emptied with the
domain. An abort in between takes the sleeper away. -/
theorem sleepers_wake_from_their_own_sleep (history : History host allowed configs)
    {time now below count : Nat} {woken : List (ThreadId × Outcome)}
    {rest : List (ThreadId × Outcome) → Body ν σ} {thread : ThreadId} {left : Sleepers}
    (calls : (configs time).focus =
      .body ((Waking.wakeBelow now below (count + 1) woken).bind rest))
    (taken : (configs time).world.sleepers.takeDue now below = some (thread, left)) :
    (∃ next, (configs (time + 1)).focus = .body (.ask (.resume thread) next)) ∧
      ∃ sleeper, (configs time).world.sleepers.entries = sleeper :: left.entries ∧
        sleeper.thread = thread ∧ sleeper.wake ≤ now ∧
        ∃ since < time, (configs since).Sleeps sleeper ∧
          (SleptSince host configs thread since (time + 1) ↔
            ∀ between, since < between → between ≤ time →
              ¬(configs between).Slips host thread) := by
  have resumes := history.resumes_taken calls taken
  obtain ⟨next, form, _⟩ := @wakeBelow_succ _ _ now below count woken rest
  have asks := calls.trans (congrArg Focus.body form)
  obtain ⟨sleeper, entries, rfl, due, _, _⟩ := Sleepers.takeDue_some taken
  have here : sleeper ∈ (configs time).world.sleepers.entries := by
    rw [entries]
    exact List.mem_cons_self
  obtain ⟨since, past, sleeps, fell, listed⟩ := history.exists_sleeps here
  refine ⟨resumes, sleeper, entries, rfl, due, since, past, sleeps,
    fun slept between later upTo slips => ?_, fun unslipped => ?_⟩
  · exact slept.undisturbed between later (by omega) slips.interrupts
  · have slept := history.sleptSince_of_unslipped past fell listed fun between later earlier =>
      unslipped between later (by omega)
    exact history.sleptSince_takeDue slept asks

/-- A body asks for something that may suspend a thread anew or let one go on. -/
def meddles (config : Config ν σ) : Bool :=
  match config.focus with
  | .body (.ask (.update (.suspend ..)) _) | .body (.ask (.update (.suspendActive _)) _)
  | .body (.ask (.update (.park ..)) _) | .body (.ask (.update (.sleepActive ..)) _)
  | .body (.ask (.update .clear) _) | .body (.ask (.resume _) _)
  | .body (.ask (.wake ..) _) => true
  | _ => false

/-- Suspending a thread anew is meddling. -/
theorem Suspends.meddles {id : ThreadId} (suspends : config.Suspends id) :
    config.meddles = true := by
  obtain ⟨update, next, focus, touches⟩ := suspends
  unfold Config.meddles
  rw [focus]
  cases update with
  | suspend _ _ | suspendActive _ | park _ _ | sleepActive _ _ => rfl
  | _ => cases touches

/-- Putting a thread to sleep is meddling. -/
theorem Sleeps.meddles {sleeper : Sleeper} (sleeps : config.Sleeps sleeper) :
    config.meddles = true := by
  obtain ⟨now, ticks, next, focus, positive, _⟩ := sleeps.asks
  exact Suspends.meddles ⟨_, next, focus, sleeps.active, positive⟩

/-- Slipping is meddling. -/
theorem Slips.meddles {id : ThreadId} (slips : config.Slips host id) :
    config.meddles = true := by
  rcases slips with suspends | ⟨⟨focus⟩ | ⟨focus, _⟩ | ⟨focus⟩, _⟩
  · exact suspends.meddles
  all_goals
    unfold Config.meddles
    rw [focus]

end

/-- A function that sleeps for ten ticks, and then for a hundred. -/
def sleepingTwice : Definition Unit where
  name := "sleepingTwice"
  code := #[0x0A, 10, 0x29, 1, 0, 0x0A, 100, 0x29, 1, 0, 0x2D]
  methods := #[()]

/-- A thread falls asleep until tick ten, and whoever is due at tick fifty is woken. -/
def sleepingIn : Program Unit Unit Int32 := do
  let _ ← Program.update (.addFunction (.trusted sleepingTwice 1))
  let _ ← Program.update .createThread
  let _ ← Program.request (.run ⟨0⟩ ⟨0⟩)
  let woken ← Waking.runDue 50
  return Int32.ofNat woken.length

/-- The thread is woken from its own sleep. -/
theorem sleepers_wake_from_their_own_sleep_undisturbed :
    let configs := fun time => (Config.initial {} () sleepingIn).run sleepingHost time
    History sleepingHost (fun _ => True) configs ∧
      (configs 13).focus = .body ((Waking.wakeBelow 50 1 1 []).bind fun woken =>
        .done (Int32.ofNat woken.length)) ∧
      (configs 13).world.sleepers.takeDue 50 1 = some (⟨0⟩, ⟨[], 1⟩) ∧
      ∃ since < 13, (configs since).Sleeps ⟨10, 0, ⟨0⟩⟩ ∧
        SleptSince sleepingHost configs ⟨0⟩ since 14 := by
  intro configs
  have history : History sleepingHost (fun _ => True) configs :=
    .of_initial () (Program.asks_of_forall (fun _ => trivial) _)
  have calls : (configs 13).focus = .body ((Waking.wakeBelow 50 1 1 []).bind fun woken =>
      .done (Int32.ofNat woken.length)) := rfl
  have taken : (configs 13).world.sleepers.takeDue 50 1 = some (⟨0⟩, ⟨[], 1⟩) := rfl
  obtain ⟨_, sleeper, entries, _, _, since, past, sleeps, exactly⟩ :=
    sleepers_wake_from_their_own_sleep history calls taken
  have listed : (configs 13).world.sleepers.entries = [⟨10, 0, ⟨0⟩⟩] := by decide +kernel
  obtain rfl : sleeper = ⟨10, 0, ⟨0⟩⟩ := by
    rw [listed] at entries
    exact (List.cons.inj entries).1.symm
  -- Nobody meddles after the only moment at which a thread may have fallen asleep.
  have fell : since = 8 := by
    have only : ∀ moment < 13, (configs moment).meddles = true → moment = 8 := by decide +kernel
    exact only since past sleeps.meddles
  subst fell
  refine ⟨history, calls, taken, 8, past, sleeps, exactly.2 fun between later upTo slips => ?_⟩
  have calm : ∀ moment ≤ 13, 8 < moment → (configs moment).meddles = false := by decide +kernel
  exact Bool.false_ne_true ((calm between upTo later).symm.trans slips.meddles)

/-- A thread falls asleep until tick ten, is resumed by the host, and falls asleep until tick a
hundred. -/
def sleepingOn : Program Unit Unit Int32 := do
  let _ ← Program.update (.addFunction (.trusted sleepingTwice 1))
  let _ ← Program.update .createThread
  let _ ← Program.request (.run ⟨0⟩ ⟨0⟩)
  let _ ← Program.request (.resume ⟨0⟩)
  return 0

/-- The thread is to sleep until tick a hundred. -/
def asleepTwice : Config Unit Unit := (Config.initial {} () sleepingOn).run sleepingHost 23

/-- In the end whoever is due at tick fifty is woken. -/
def sleepingOnUntilWoken (time : Nat) : Config Unit Unit :=
  if time ≤ 23 then (Config.initial {} () sleepingOn).run sleepingHost time
  else (Config.initial asleepTwice.world () ((Waking.runDue 50).bind fun woken =>
    .done (Int32.ofNat woken.length))).run sleepingHost (time - (23 + 1))

/-- A thread that has slept without interruption since it was put to sleep until tick a hundred is
resumed at tick fifty, for a sleep that has ended long before. -/
theorem sleeper_woken_from_another_sleep :
    History sleepingHost (fun _ => True) sleepingOnUntilWoken ∧
      (sleepingOnUntilWoken 25).focus = .body ((Waking.wakeBelow 50 2 2 []).bind fun woken =>
        .done (Int32.ofNat woken.length)) ∧
      (∃ left, (sleepingOnUntilWoken 25).world.sleepers.takeDue 50 2 = some (⟨0⟩, left)) ∧
      (∃ next, (sleepingOnUntilWoken 26).focus = .body (.ask (.resume ⟨0⟩) next)) ∧
      ∃ since < 25, (sleepingOnUntilWoken since).Sleeps ⟨100, 1, ⟨0⟩⟩ ∧
        SleptSince sleepingHost sleepingOnUntilWoken ⟨0⟩ since 26 ∧
        ((sleepingOnUntilWoken 27).world.domain.suspension ⟨0⟩).suspended = false := by
  have history : History sleepingHost (fun _ => True) sleepingOnUntilWoken :=
    History.branch (.of_initial () (Program.asks_of_forall (fun _ => trivial) sleepingOn)) 23
      (.again (by decide +kernel : asleepTwice.focus = .finished 0) () _
        (Program.asks_of_forall (fun _ => trivial) _))
  have calls : (sleepingOnUntilWoken 25).focus = .body ((Waking.wakeBelow 50 2 2 []).bind
      fun woken => .done (Int32.ofNat woken.length)) := by
    have next : asleepTwice.world.sleepers.next = 2 := by decide +kernel
    have size : asleepTwice.world.sleepers.size = 2 := by decide +kernel
    rw [sleepingOnUntilWoken, if_neg (by decide), runDue_begins, next, size]
  have taken : ((sleepingOnUntilWoken 25).world.sleepers.takeDue 50 2).map Prod.fst = some ⟨0⟩ := by
    decide +kernel
  obtain ⟨⟨thread, left⟩, taken, rfl⟩ := Option.map_eq_some_iff.1 taken
  have resumes := history.resumes_taken calls taken
  have listed : (⟨100, 1, ⟨0⟩⟩ : Sleeper) ∈ (sleepingOnUntilWoken 25).world.sleepers.entries := by
    decide +kernel
  obtain ⟨since, past, sleeps, fell, kept⟩ := history.exists_sleeps listed
  -- Nobody meddles between the second time the thread falls asleep and the call.
  have slept : SleptSince sleepingHost sleepingOnUntilWoken ⟨0⟩ since 25 := by
    refine history.sleptSince_of_unslipped past fell kept fun between later earlier slips => ?_
    have only : ∀ moment < 25, (sleepingOnUntilWoken moment).meddles = true →
        (sleepingOnUntilWoken moment).world.sleepers.next = 1 →
        ((sleepingOnUntilWoken (moment + 1)).world.domain.suspension ⟨0⟩).suspended = true →
        moment = 18 := by decide +kernel
    have calm : ∀ moment < 25, 18 < moment → (sleepingOnUntilWoken moment).meddles = false := by
      decide +kernel
    obtain rfl := only since past sleeps.meddles sleeps.order.symm fell.suspended
    exact Bool.false_ne_true ((calm between earlier later).symm.trans slips.meddles)
  obtain ⟨resume, form, _⟩ := @wakeBelow_succ _ _ 50 2 1 [] fun woken =>
    (.done (Int32.ofNat woken.length) : Body Unit Unit)
  have asks := calls.trans (congrArg Focus.body form)
  exact ⟨history, calls, ⟨left, taken⟩, resumes, since, past, sleeps,
    history.sleptSince_takeDue slept asks, by decide +kernel⟩

end Config

end ScriptMachine

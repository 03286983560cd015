import ScriptMachine.Proofs.Histories
import ScriptMachine.Proofs.Replies
import ScriptMachine.Proofs.Sleeping
import ScriptMachine.Waking

/-!
# Waking the sleepers that are due

One call wakes the sleepers that are due in their order, as long as the next one slept when the call
began. Every sleeper that slept then and is due is taken, or aborted, or stands behind one that is
due as well but fell asleep during the call. The last is the only way for the call to leave one that
it should have woken.
-/

namespace ScriptMachine

variable {ν σ : Type}

/-- The sleepers with numbers below the given one. -/
def Sleepers.old (sleepers : Sleepers) (below : Nat) : List Sleeper :=
  sleepers.entries.filter fun sleeper => sleeper.order < below

/-- The next sleeper is due but has no number below the given one, so it is not taken, and neither
is any other. -/
def Sleepers.Blocked (sleepers : Sleepers) (now below : Nat) : Prop :=
  ∃ first rest, sleepers.entries = first :: rest ∧ below ≤ first.order ∧ first.wake ≤ now

/-- A sleeper that is due and has a number below the given one stands behind the next sleeper, which
is due as well but has no such number. -/
def Sleepers.Overtaken (sleepers : Sleepers) (now below : Nat) : Prop :=
  ∃ first rest, sleepers.entries = first :: rest ∧ below ≤ first.order ∧ first.wake ≤ now ∧
    ∃ sleeper ∈ rest, sleeper.order < below ∧ sleeper.wake ≤ now

namespace Sleepers

variable {sleepers : Sleepers} {now below : Nat}

/-- The old sleepers are those with small numbers. -/
theorem mem_old {sleeper : Sleeper} :
    sleeper ∈ sleepers.old below ↔ sleeper ∈ sleepers.entries ∧ sleeper.order < below := by
  simp [old]

/-- With the first sleeper gone there is one old sleeper fewer, if that one was old. -/
theorem length_old_cons {left : Sleepers} {first : Sleeper}
    (listed : sleepers.entries = first :: left.entries) (small : first.order < below) :
    (sleepers.old below).length = (left.old below).length + 1 := by
  simp only [old, listed, List.filter_cons, small, decide_true, ↓reduceIte, List.length_cons]

/-- A thread that goes to sleep is not among the old sleepers. -/
theorem old_add (given : below ≤ sleepers.next) (thread : ThreadId) (ticks : Nat) :
    (sleepers.add thread now ticks).old below = sleepers.old below := by
  have late : ∀ entries : List Sleeper, ∀ sleeper : Sleeper, below ≤ sleeper.order →
      (insert sleeper entries).filter (fun other => other.order < below) =
        entries.filter fun other => other.order < below := by
    intro entries sleeper later
    have young : ¬sleeper.order < below := by omega
    induction entries with
    | nil => simp [insert, young]
    | cons first rest ih =>
      unfold insert
      split
      · simp [List.filter_cons, young]
      · simp only [List.filter_cons, ih]
  exact late _ _ given

/-- When no sleeper is taken, no old one is due, or the sleepers are blocked. -/
theorem takeDue_none (ordered : sleepers.Ordered) (none : sleepers.takeDue now below = none) :
    (∀ sleeper ∈ sleepers.old below, now < sleeper.wake) ∨ sleepers.Blocked now below := by
  unfold takeDue at none
  split at none
  · rename_i empty
    left
    intro sleeper listed
    rw [mem_old, empty] at listed
    simp at listed
  · rename_i first rest listed
    split at none
    · cases none
    · rename_i refused
      rcases Nat.lt_or_ge now first.wake with early | due
      · left
        intro sleeper old
        obtain ⟨found, _⟩ := mem_old.1 old
        have sorted := ordered.sorted
        rw [listed] at found sorted
        rcases List.mem_cons.1 found with rfl | later
        · exact early
        · have next := (List.pairwise_cons.1 sorted).1 sleeper later
          rw [Sleeper.before_iff] at next
          omega
      · exact .inr ⟨first, rest, listed, by omega, due⟩

/-- The sleeper that is taken is the next one, is due and has a small number. -/
theorem takeDue_some {thread : ThreadId} {left : Sleepers}
    (taken : sleepers.takeDue now below = some (thread, left)) :
    ∃ first, sleepers.entries = first :: left.entries ∧ first.thread = thread ∧
      first.wake ≤ now ∧ first.order < below ∧ left.next = sleepers.next := by
  unfold takeDue at taken
  split at taken
  · cases taken
  · rename_i first rest listed
    split at taken <;> cases taken
    rename_i due
    exact ⟨first, listed, rfl, due.1, due.2, rfl⟩

end Sleepers

namespace Config

/-- A body takes a sleeper, or forgets all of them. -/
def disturbs (config : Config ν σ) : Bool :=
  match config.focus with
  | .body (.ask (.update (.takeDue ..)) _) | .body (.ask (.update .clearSleepers) _) => true
  | _ => false

/-- A body is at hand when it disturbs the sleepers. -/
theorem body_of_disturbs {config : Config ν σ} (disturbs : config.disturbs = true) :
    ∃ body, config.focus = .body body := by
  unfold Config.disturbs at disturbs
  split at disturbs
  · exact ⟨_, ‹_›⟩
  · exact ⟨_, ‹_›⟩
  · cases disturbs

/-- The next step takes a sleeper that is due, and hands over its thread to be resumed. -/
structure Takes (host : Host ν σ) (now below : Nat) (sleeper : Sleeper) (config : Config ν σ) :
    Prop where
  asks : ∃ next, config.focus = .body (.ask (.update (.takeDue now below)) next)
  first : config.world.sleepers.entries.head? = some sleeper
  resumes : ∃ next, (config.step host).focus = .body (.ask (.resume sleeper.thread) next)

section

variable {host : Host ν σ} {config : Config ν σ} {now below : Nat}

/-- What a number of steps do to the sleepers: the old ones only become fewer, and each one that
disappears has been taken or aborted. -/
structure Spares (host : Host ν σ) (now below : Nat) (config : Config ν σ) (steps : Nat) :
    Prop where
  ordered : (config.run host steps).world.sleepers.Ordered
  given : below ≤ (config.run host steps).world.sleepers.next
  old : ((config.run host steps).world.sleepers.old below).Sublist
    (config.world.sleepers.old below)
  accounted : ∀ sleeper ∈ config.world.sleepers.old below,
    sleeper ∈ (config.run host steps).world.sleepers.old below ∨
      (∃ step < steps, (config.run host step).Takes host now below sleeper) ∨
      ∃ step < steps, (config.run host step).Aborts sleeper.thread

namespace Spares

/-- No step. -/
theorem zero (ordered : config.world.sleepers.Ordered)
    (given : below ≤ config.world.sleepers.next) : Spares host now below config 0 where
  ordered := ordered
  given := given
  old := List.Sublist.refl _
  accounted _ listed := .inl listed

/-- Steps after steps. -/
theorem add {first second : Nat} (before : Spares host now below config first)
    (after : Spares host now below (config.run host first) second) :
    Spares host now below config (first + second) where
  ordered := by
    rw [run_add]
    exact after.ordered
  given := by
    rw [run_add]
    exact after.given
  old := by
    rw [run_add]
    exact after.old.trans before.old
  accounted sleeper listed := by
    rw [run_add]
    rcases before.accounted sleeper listed with kept | ⟨step, upTo, taken⟩ | ⟨step, upTo, aborted⟩
    · rcases after.accounted sleeper kept with kept | ⟨step, upTo, taken⟩ | ⟨step, upTo, aborted⟩
      · exact .inl kept
      · exact .inr (.inl ⟨first + step, by omega, by rw [run_add]; exact taken⟩)
      · exact .inr (.inr ⟨first + step, by omega, by rw [run_add]; exact aborted⟩)
    · exact .inr (.inl ⟨step, by omega, taken⟩)
    · exact .inr (.inr ⟨step, by omega, aborted⟩)

/-- One step, seen from the configuration behind it. -/
theorem single (ordered : (config.step host).world.sleepers.Ordered)
    (given : below ≤ (config.step host).world.sleepers.next)
    (old : ((config.step host).world.sleepers.old below).Sublist
      (config.world.sleepers.old below))
    (accounted : ∀ sleeper ∈ config.world.sleepers.old below,
      sleeper ∈ (config.step host).world.sleepers.old below ∨
        config.Takes host now below sleeper ∨ config.Aborts sleeper.thread) :
    Spares host now below config 1 := by
  have after : config.run host 1 = config.step host := by
    rw [run_succ]
    rfl
  refine ⟨after ▸ ordered, after ▸ given, after ▸ old, fun sleeper listed => ?_⟩
  rw [after]
  rcases accounted sleeper listed with kept | taken | aborted
  · exact .inl kept
  · exact .inr (.inl ⟨0, Nat.one_pos, taken⟩)
  · exact .inr (.inr ⟨0, Nat.one_pos, aborted⟩)

/-- A step that leaves the sleepers as they are. -/
theorem rests (ordered : config.world.sleepers.Ordered)
    (given : below ≤ config.world.sleepers.next)
    (same : (config.step host).world.sleepers = config.world.sleepers) :
    Spares host now below config 1 := by
  have kept : (config.step host).world.sleepers.old below = config.world.sleepers.old below := by
    rw [same]
  refine single (same ▸ ordered) (same ▸ given) (kept ▸ List.Sublist.refl _) ?_
  intro sleeper listed
  exact .inl (kept ▸ listed)

/-- A step that takes nothing and does not forget everything. -/
theorem step (ordered : config.world.sleepers.Ordered)
    (given : below ≤ config.world.sleepers.next) (calm : config.disturbs = false) :
    Spares host now below config 1 := by
  have stirs := step_stirs host config
  have kept := stirs.ordered ordered
  cases stirs with
  | rests same => exact rests ordered given same
  | @aborts id aborts removed =>
    have left : (config.step host).world.sleepers.old below =
        (config.world.sleepers.old below).filter fun sleeper => sleeper.thread != id := by
      rw [removed]
      simp only [Sleepers.old, Sleepers.remove, List.filter_filter]
      exact congrArg (List.filter · _) (funext fun sleeper => Bool.and_comm ..)
    refine single kept (removed ▸ given) ?_ fun sleeper listed => ?_
    · rw [left]
      exact List.filter_sublist
    · rw [left]
      by_cases gone : sleeper.thread = id
      · exact .inr (.inr (gone ▸ aborts))
      · exact .inl (List.mem_filter.2 ⟨listed, by simpa using gone⟩)
  | falls thread focus added =>
    have same : (config.step host).world.sleepers.old below =
        config.world.sleepers.old below := by
      rw [added]
      exact Sleepers.old_add given _ _
    refine single kept ?_ (same ▸ List.Sublist.refl _) fun sleeper listed => .inl (same ▸ listed)
    rw [added]
    exact Nat.le_succ_of_le given
  | takes thread focus taken => simp [disturbs, focus] at calm
  | clears focus cleared => simp [disturbs, focus] at calm

/-- A step that takes the next sleeper and hands over its thread to be resumed. -/
theorem takes {first : Sleeper} {left : Sleepers} (taking : config.Takes host now below first)
    (listed : config.world.sleepers.entries = first :: left.entries)
    (later : left.next = config.world.sleepers.next)
    (after : (config.step host).world.sleepers = left)
    (ordered : config.world.sleepers.Ordered) (given : below ≤ config.world.sleepers.next) :
    Spares host now below config 1 := by
  have kept := (step_stirs host config).ordered ordered
  have split : config.world.sleepers.old below =
      if first.order < below then first :: left.old below else left.old below := by
    simp only [Sleepers.old, listed, List.filter_cons, decide_eq_true_eq]
  refine single kept (by rw [after, later]; exact given) ?_ fun sleeper found => ?_
  · rw [after, split]
    split
    · exact List.sublist_cons_self _ _
    · exact List.Sublist.refl _
  · rw [after]
    rw [split] at found
    split at found
    · rcases List.mem_cons.1 found with rfl | rest
      · exact .inr (.inl taking)
      · exact .inl rest
    · exact .inl found

/-- Steps none of which takes anything or forgets everything. -/
theorem steps (ordered : config.world.sleepers.Ordered)
    (given : below ≤ config.world.sleepers.next) {count : Nat}
    (calm : ∀ step < count, (config.run host step).disturbs = false) :
    Spares host now below config count := by
  induction count with
  | zero => exact zero ordered given
  | succ count ih =>
    have before := ih fun step earlier => calm step (by omega)
    exact before.add (.step before.ordered before.given (calm count (Nat.lt_succ_self _)))

end Spares

/-- The rest of a call spares the sleepers that it does not take, and leaves no old one that is due
unless the sleepers are blocked. -/
structure Concludes (host : Host ν σ) (now below : Nat) (config : Config ν σ) (steps : Nat) :
    Prop extends Spares host now below config steps where
  finished : (∀ sleeper ∈ (config.run host steps).world.sleepers.old below, now < sleeper.wake) ∨
    (config.run host steps).world.sleepers.Blocked now below

/-- Steps before the rest of a call. -/
theorem Spares.concludes {first second : Nat} (before : Spares host now below config first)
    (after : Concludes host now below (config.run host first) second) :
    Concludes host now below config (first + second) :=
  ⟨before.add after.toSpares, by
    rw [run_add]
    exact after.finished⟩

/-- After a number of steps the body at hand goes on with the result of a call. -/
structure Continues {α : Type} (host : Host ν σ) (config : Config ν σ) (steps : Nat)
    (rest : α → Body ν σ) : Prop where
  focus : ∃ result, (config.run host steps).focus = .body (rest result)
  pending : (config.run host steps).pending = config.pending

/-- No body above the one at hand takes a sleeper or forgets all of them. -/
def Undisturbed (host : Host ν σ) (config : Config ν σ) (steps : Nat) : Prop :=
  ∀ step < steps, config.pending.length < (config.run host step).pending.length →
    (config.run host step).disturbs = false

/-- What is not disturbed is not disturbed from a later configuration on. -/
theorem Undisturbed.drop {first second : Nat}
    (undisturbed : config.Undisturbed host (first + second))
    (level : (config.run host first).pending = config.pending) :
    (config.run host first).Undisturbed host second := by
  intro step earlier inside
  rw [← run_add] at inside ⊢
  exact undisturbed (first + step) (by omega) (level ▸ inside)

/-- What is not disturbed is not disturbed from the next configuration on. -/
theorem Undisturbed.step {steps : Nat} (undisturbed : config.Undisturbed host (1 + steps))
    (level : (config.step host).pending = config.pending) :
    (config.step host).Undisturbed host steps := by
  have first : (config.run host 1).pending = config.pending := by
    rw [run_succ]
    exact level
  have dropped := undisturbed.drop first
  rw [run_succ] at dropped
  exact dropped

/-- Until a request is answered that takes nothing and does not forget everything, the old sleepers
are spared by whatever is done above the body that made it. -/
theorem Undisturbed.spares {next : Answer ν → Body ν σ} {middle steps : Nat}
    (undisturbed : config.Undisturbed host steps) (upTo : middle ≤ steps)
    (quiet : config.disturbs = false)
    (owing : ∀ between, 0 < between → between < middle →
      (config.run host between).Owes next config.pending)
    (ordered : config.world.sleepers.Ordered) (given : below ≤ config.world.sleepers.next) :
    Spares host now below config middle := by
  refine .steps ordered given fun step earlier => Bool.eq_false_iff.2 fun disturbs => ?_
  rcases Nat.eq_zero_or_pos step with rfl | positive
  · exact Bool.eq_false_iff.1 quiet disturbs
  · obtain ⟨body, focus⟩ := body_of_disturbs disturbs
    have inside := (owing step positive earlier).inside focus
    exact Bool.eq_false_iff.1 (undisturbed step (by omega) inside) disturbs

/-- Taking the next sleeper that is due, and going on with what it answers. -/
theorem step_takeDue {next : Answer ν → Body ν σ}
    (asks : config.focus = .body (.ask (.update (.takeDue now below)) next)) :
    config.world.sleepers.takeDue now below = none ∧
        config.step host = config.goto (.body (next (.thread none))) ∨
      ∃ thread left, config.world.sleepers.takeDue now below = some (thread, left) ∧
        config.step host = { config with
          world := { config.world with sleepers := left }
          focus := .body (next (.thread (some thread))) } := by
  have made : config.step host = config.perform host (.update (.takeDue now below)) next := by
    simp only [Config.step, asks]
  rw [made]
  simp only [perform, Update.apply]
  cases taken : config.world.sleepers.takeDue now below with
  | none => exact .inl ⟨rfl, rfl⟩
  | some found => exact .inr ⟨found.1, found.2, rfl, rfl⟩

/-- What a round adds to the list of the threads that could be continued. -/
def continued (thread : ThreadId) : Answer ν → List (ThreadId × Outcome)
  | .ran outcome => [(thread, outcome)]
  | _ => []

/-- A round of the loop asks for a sleeper that is due. Without one the loop ends; else it resumes
the thread and goes on with the next round. -/
theorem wakeBelow_succ {count : Nat} {woken : List (ThreadId × Outcome)}
    {rest : List (ThreadId × Outcome) → Body ν σ} :
    ∃ next : Answer ν → Body ν σ,
      (Waking.wakeBelow now below (count + 1) woken).bind rest =
        .ask (.update (.takeDue now below)) next ∧
      next (.thread none) = rest woken.reverse ∧
      ∀ thread, ∃ resume, next (.thread (some thread)) = .ask (.resume thread) resume ∧
        ∀ answer, resume answer =
          (Waking.wakeBelow now below count (continued thread answer ++ woken)).bind rest := by
  refine ⟨_, rfl, rfl, fun thread => ⟨_, rfl, fun answer => ?_⟩⟩
  cases answer <;> rfl

/-- The loop of a call, with a round for each old sleeper, in a body that goes on after it. -/
theorem concludes_wakeBelow {rest : List (ThreadId × Outcome) → Body ν σ} {count : Nat}
    {woken : List (ThreadId × Outcome)} {steps : Nat} {value : Int32}
    (calls : config.focus = .body ((Waking.wakeBelow now below count woken).bind rest))
    (returns : config.Returns host steps value) :
    ∃ stop ≤ steps, config.Continues host stop rest ∧
      (config.Undisturbed host stop → config.world.sleepers.Ordered →
        below ≤ config.world.sleepers.next →
        (config.world.sleepers.old below).length ≤ count →
        Concludes host now below config stop) := by
  induction count generalizing config woken steps with
  | zero =>
    refine ⟨0, Nat.zero_le _, ⟨⟨_, calls⟩, rfl⟩, fun _ ordered given few => ?_⟩
    refine ⟨.zero ordered given, .inl fun sleeper listed => ?_⟩
    have none : config.world.sleepers.old below = [] := List.eq_nil_of_length_eq_zero (by omega)
    simp only [Config.run, none, List.not_mem_nil] at listed
  | succ count ih =>
    obtain ⟨next, form, stops, resumes⟩ :=
      @wakeBelow_succ _ _ now below count woken rest
    have asks := calls.trans (congrArg Focus.body form)
    rcases step_takeDue asks with ⟨none, made⟩ | ⟨thread, left, taken, made⟩
    · have same : (config.step host).world.sleepers = config.world.sleepers := by
        rw [made]
        rfl
      obtain ⟨others, rfl, _⟩ := returns.update asks (by rw [made]; rfl)
      refine ⟨1, Nat.le_add_left .., ⟨⟨woken.reverse, ?_⟩, ?_⟩, fun _ ordered given _ => ?_⟩
      · rw [run_succ, Config.run, made, stops]
        rfl
      · rw [run_succ, Config.run, made]
        rfl
      · refine ⟨.rests ordered given same, ?_⟩
        rw [run_succ, Config.run, same]
        exact Sleepers.takeDue_none ordered none
    · obtain ⟨first, listed, rfl, due, small, later⟩ := Sleepers.takeDue_some taken
      have after : (config.step host).world.sleepers = left := by rw [made]
      have focus : (config.step host).focus = .body (next (.thread (some first.thread))) := by
        rw [made]
      obtain ⟨resume, handed, again⟩ := resumes first.thread
      rw [handed] at focus
      have same : (config.step host).pending = config.pending := by rw [made]
      obtain ⟨others, rfl, ends⟩ := returns.update asks same
      obtain ⟨middle, answer, _, upTo, goes, level, owing, ending⟩ := ends.ask focus
      rw [again answer] at goes
      obtain ⟨last, early, continues, concludes⟩ := ih goes ending
      have total : config.run host (1 + (middle + last)) =
          ((config.step host).run host middle).run host last := by
        rw [Nat.add_comm, run_succ, run_add]
      refine ⟨1 + (middle + last), by omega, ⟨?_, ?_⟩, fun undisturbed ordered given few => ?_⟩
      · rw [total]
        exact continues.focus
      · rw [total, continues.pending, level, same]
      have taking : Spares host now below config 1 :=
        .takes ⟨⟨_, asks⟩, by rw [listed]; rfl, ⟨_, focus⟩⟩ listed later after ordered given
      have calm : (config.step host).Undisturbed host (middle + last) := undisturbed.step same
      have quiet : (config.step host).disturbs = false := by simp only [disturbs, focus]
      have resumed : Spares host now below (config.step host) middle :=
        calm.spares (Nat.le_add_right ..) quiet owing (by rw [after]; exact ordered.takeDue taken)
          (by rw [after, later]; exact given)
      have fewer : (((config.step host).run host middle).world.sleepers.old below).length ≤
          count := by
        have shorter := resumed.old.length_le
        have one := Sleepers.length_old_cons listed small
        rw [after] at shorter
        omega
      have finishing := concludes (calm.drop level) resumed.ordered resumed.given fewer
      exact taking.concludes (by rw [run_succ]; exact resumed.concludes finishing)

/-- Until a call that wakes the sleepers that are due returns, each sleeper that is due and slept
when it began is taken and its thread handed over to be resumed, or has its thread aborted, or
sleeps on; and some sleep on exactly if one is overtaken at the end. The threads that are resumed
may do anything but take sleepers or forget all of them themselves. -/
theorem due_sleepers_wake_unless_overtaken {rest : List (ThreadId × Outcome) → Body ν σ}
    {steps : Nat} {value : Int32} (calls : config.focus = .body ((Waking.runDue now).bind rest))
    (returns : config.Returns host steps value) (ordered : config.world.sleepers.Ordered) :
    ∃ stop ≤ steps, config.Continues host stop rest ∧ (config.Undisturbed host stop →
      (∀ sleeper ∈ config.world.sleepers.entries, sleeper.wake ≤ now →
        sleeper ∈ (config.run host stop).world.sleepers.entries ∨
          (∃ step < stop,
            (config.run host step).Takes host now config.world.sleepers.next sleeper) ∨
          ∃ step < stop, (config.run host step).Aborts sleeper.thread) ∧
      ((∀ sleeper ∈ config.world.sleepers.entries, sleeper.wake ≤ now →
          sleeper ∉ (config.run host stop).world.sleepers.entries) ↔
        ¬(config.run host stop).world.sleepers.Overtaken now config.world.sleepers.next)) := by
  obtain ⟨next, asks, goes⟩ : ∃ next : Answer ν → Body ν σ,
      config.focus = .body (.ask .observe next) ∧
        next (.seen config.world.view) = (Waking.wakeBelow now config.world.sleepers.next
          config.world.sleepers.size []).bind rest := ⟨_, calls, rfl⟩
  have made : config.step host = config.goto (.body (next (.seen config.world.view))) := by
    simp only [Config.step, asks, perform]
  have same : (config.step host).world = config.world := by rw [made]; rfl
  have level : (config.step host).pending = config.pending := by rw [made]; rfl
  obtain ⟨others, rfl, ends⟩ := returns.update asks level
  have loops : (config.step host).focus = .body ((Waking.wakeBelow now config.world.sleepers.next
      config.world.sleepers.size []).bind rest) := by
    rw [made, goes]
    rfl
  obtain ⟨last, early, continues, concludes⟩ := concludes_wakeBelow loops ends
  have total : config.run host (1 + last) = (config.step host).run host last := by
    rw [Nat.add_comm, run_succ]
  refine ⟨1 + last, by omega, ⟨?_, ?_⟩, fun undisturbed => ?_⟩
  · rw [total]
    exact continues.focus
  · rw [total, continues.pending, level]
  have calm : (config.step host).Undisturbed host last := undisturbed.step level
  have looking : Spares host now config.world.sleepers.next config 1 :=
    .rests ordered (Nat.le_refl _) (congrArg World.sleepers same)
  have done : Concludes host now config.world.sleepers.next config (1 + last) := by
    refine looking.concludes ?_
    rw [run_succ]
    have few := List.length_filter_le (fun sleeper => sleeper.order < config.world.sleepers.next)
      config.world.sleepers.entries
    have given := Nat.le_of_eq (congrArg (fun world => world.sleepers.next) same.symm)
    exact concludes calm (same ▸ ordered) given (same ▸ few)
  refine ⟨fun sleeper listed due => ?_, fun gone overtaken => ?_, fun free => ?_⟩
  · have old := Sleepers.mem_old.2 ⟨listed, ordered.numbered sleeper listed⟩
    exact (done.accounted sleeper old).imp_left fun kept => (Sleepers.mem_old.1 kept).1
  · obtain ⟨first, behind, standing, _, _, sleeper, listed, small, due⟩ := overtaken
    have here : sleeper ∈ (config.run host (1 + last)).world.sleepers.entries := by
      rw [standing]
      exact List.mem_cons_of_mem _ listed
    have before := done.old.subset (Sleepers.mem_old.2 ⟨here, small⟩)
    exact gone sleeper (Sleepers.mem_old.1 before).1 due here
  · intro sleeper listed due kept
    have small := ordered.numbered sleeper listed
    rcases done.finished with early | ⟨first, behind, standing, late, ripe⟩
    · have := early sleeper (Sleepers.mem_old.2 ⟨kept, small⟩)
      omega
    · rw [standing] at kept
      rcases List.mem_cons.1 kept with rfl | later
      · omega
      · exact free ⟨first, behind, standing, late, ripe, sleeper, later, small, due⟩

end

/-- A function that sleeps for ten ticks, and then for fifteen. -/
def napping : Definition Unit where
  name := "napping"
  code := #[0x0A, 10, 0x29, 1, 0, 0x0A, 15, 0x29, 1, 0, 0x2D]
  methods := #[()]

/-- A function that sleeps for twenty ticks. -/
def dozing : Definition Unit where
  name := "dozing"
  code := #[0x0A, 20, 0x29, 1, 0, 0x2D]
  methods := #[()]

/-- A host whose native methods put the calling thread to sleep, at a tick that stands still. -/
def sleepingHost : Host Unit Unit where
  native _ := Waking.sleepSignature.bind (Waking.sleep fun _ => 0)
  onAbort _ _ := .done 0
  onLimit _ _ state := state
  onEvent _ _ state := state

/-- Two threads fall asleep. -/
def fallingAsleep : Program Unit Unit Int32 := do
  let _ ← Program.update (.addFunction (.trusted napping 1))
  let _ ← Program.update (.addFunction (.trusted dozing 1))
  let _ ← Program.update .createThread
  let _ ← Program.update .createThread
  let _ ← Program.request (.run ⟨0⟩ ⟨0⟩)
  let _ ← Program.request (.run ⟨1⟩ ⟨1⟩)
  return 0

/-- The host wakes whoever is due at tick thirty, and answers how many threads were continued. -/
def wakingAll : Config Unit Unit :=
  .initial ((Config.initial {} () fallingAsleep).run sleepingHost 29).world ()
    ((Waking.runDue 30).bind fun woken => .done (Int32.ofNat woken.length))

/-- The call that wakes the two threads returns. -/
theorem wakingAll_returns : wakingAll.Returns sleepingHost 13 1 :=
  .of_answered? (by decide +kernel) (by decide +kernel) (by decide +kernel)

/-- The two threads sleep when the call begins. -/
theorem wakingAll_entries :
    wakingAll.world.sleepers.entries = [⟨10, 0, ⟨0⟩⟩, ⟨20, 1, ⟨1⟩⟩] := by
  decide +kernel

/-- The two threads have fallen asleep, so their sleepers are in order. -/
theorem wakingAll_ordered : wakingAll.world.sleepers.Ordered := by
  have asleep : ((Config.initial {} () fallingAsleep).run sleepingHost 29).Reachable sleepingHost
      (fun _ => True) :=
    .run (.initial () fallingAsleep (Program.asks_of_forall (fun _ => trivial) _)) 29
  have ended : ((Config.initial {} () fallingAsleep).run sleepingHost 29).focus = .finished 0 := by
    decide +kernel
  exact ordered_of_reachable
    (asleep.again ended () _ (Program.asks_of_forall (fun _ => trivial) _))

/-- The threads that the call resumes take no sleepers. -/
theorem wakingAll_undisturbed {stop : Nat} (upTo : stop ≤ 13) :
    wakingAll.Undisturbed sleepingHost stop := by
  have all : ∀ step < 13, wakingAll.pending.length <
      (wakingAll.run sleepingHost step).pending.length →
      (wakingAll.run sleepingHost step).disturbs = false := by decide +kernel
  exact fun step earlier => all step (by omega)

/-- Of the two sleepers that are due one sleeps on exactly if it is overtaken. -/
theorem due_sleepers_wake_unless_overtaken_napping :
    wakingAll.Returns sleepingHost 13 1 ∧ wakingAll.world.sleepers.Ordered ∧
      ∃ stop ≤ 13,
        wakingAll.Continues sleepingHost stop
          (fun woken : List (ThreadId × Outcome) => .done (Int32.ofNat woken.length)) ∧
        wakingAll.Undisturbed sleepingHost stop ∧
        ((∀ sleeper ∈ wakingAll.world.sleepers.entries, sleeper.wake ≤ 30 →
            sleeper ∉ (wakingAll.run sleepingHost stop).world.sleepers.entries) ↔
          ¬(wakingAll.run sleepingHost stop).world.sleepers.Overtaken 30 2) := by
  have next : wakingAll.world.sleepers.next = 2 := by decide +kernel
  obtain ⟨stop, upTo, continues, wakes⟩ :=
    due_sleepers_wake_unless_overtaken rfl wakingAll_returns wakingAll_ordered
  have calm := wakingAll_undisturbed upTo
  have exactly := (wakes calm).2
  rw [next] at exactly
  exact ⟨wakingAll_returns, wakingAll_ordered, stop, upTo, continues, calm, exactly⟩

/-- A sleeper that was due when the call began still sleeps when it returns: the thread before it
has been resumed and has gone back to sleep, and is to be woken earlier. -/
theorem due_sleeper_overtaken :
    wakingAll.Returns sleepingHost 13 1 ∧ wakingAll.Undisturbed sleepingHost 13 ∧
      (wakingAll.run sleepingHost 13).world.sleepers.entries = [⟨15, 2, ⟨0⟩⟩, ⟨20, 1, ⟨1⟩⟩] ∧
      ¬∀ sleeper ∈ wakingAll.world.sleepers.entries, sleeper.wake ≤ 30 →
        sleeper ∉ (wakingAll.run sleepingHost 13).world.sleepers.entries := by
  have after : (wakingAll.run sleepingHost 13).world.sleepers.entries =
      [⟨15, 2, ⟨0⟩⟩, ⟨20, 1, ⟨1⟩⟩] := by decide +kernel
  refine ⟨wakingAll_returns, wakingAll_undisturbed (Nat.le_refl _), after, fun gone => ?_⟩
  rw [wakingAll_entries, after] at gone
  exact gone ⟨20, 1, ⟨1⟩⟩ (by decide) (by decide) (by decide)

end Config

end ScriptMachine

import ScriptMachine.Proofs.Armings
import ScriptMachine.Proofs.DueSleepers

/-!
# The order in which sleepers are woken

The sleepers that one call takes are some of those that slept when it began, in their order. So no
sleeper is taken that fell asleep during the call, and there are no more rounds than sleepers at the
beginning, whatever the threads do that are resumed in between, unless they take sleepers
themselves. Threads may fall asleep again, be aborted, or have all sleepers forgotten meanwhile.
-/

namespace ScriptMachine

variable {ν σ : Type}

/-- When no sleeper is taken, the next one is not due or has no small number. -/
theorem Sleepers.head?_filter_of_none {sleepers : Sleepers} {now below : Nat}
    (none : sleepers.takeDue now below = none) :
    (sleepers.entries.head?.filter fun first => first.wake ≤ now ∧ first.order < below) =
      Option.none := by
  unfold takeDue at none
  split at none
  · rename_i empty
    rw [empty]
    rfl
  · rename_i first rest listed
    split at none
    · cases none
    · rename_i refused
      simp only [listed, List.head?_cons, Option.filter_some, refused, decide_false,
        Bool.false_eq_true, ↓reduceIte]

namespace Config

/-- The sleeper that the next step takes, if a body asks for one and it is due. -/
def taken? (config : Config ν σ) : Option Sleeper :=
  match config.focus with
  | .body (.ask (.update (.takeDue now below)) _) =>
    config.world.sleepers.entries.head?.filter fun first => first.wake ≤ now ∧ first.order < below
  | _ => none

/-- The sleepers that are taken by a number of steps, in the order of the steps. -/
def takings (host : Host ν σ) (config : Config ν σ) (steps : Nat) : List Sleeper :=
  (List.range steps).filterMap fun moment => (config.run host moment).taken?

/-- A body asks for a sleeper. -/
def AsksForSleeper (config : Config ν σ) : Prop :=
  ∃ now below next, config.focus = .body (.ask (.update (.takeDue now below)) next)

/-- A body has all sleepers forgotten. -/
def ForgetsSleepers (config : Config ν σ) : Prop :=
  ∃ next, config.focus = .body (.ask (.update .clearSleepers) next)

/-- No body above the one at hand asks for a sleeper. -/
def TakesAlone (host : Host ν σ) (config : Config ν σ) (steps : Nat) : Prop :=
  ∀ step < steps, config.pending.length < (config.run host step).pending.length →
    ¬(config.run host step).AsksForSleeper

/-- What a number of steps, which take only sleepers that are due and have numbers below the given
one, do to the sleepers: those that are taken and then those with small numbers that are left are
some of those with small numbers at the beginning, in their order; and a sleeper disappears only
when it is taken, aborted, or forgotten with all others. -/
structure Orderly (host : Host ν σ) (now below : Nat) (config : Config ν σ) (steps : Nat) :
    Prop where
  ordered : (config.run host steps).world.sleepers.Ordered
  given : below ≤ (config.run host steps).world.sleepers.next
  chain : (config.takings host steps ++ (config.run host steps).world.sleepers.old below).Sublist
    (config.world.sleepers.old below)
  due : ∀ sleeper ∈ config.takings host steps, sleeper.wake ≤ now
  stays : ∀ moment < steps, ∀ sleeper ∈ (config.run host moment).world.sleepers.entries,
    sleeper ∈ (config.run host (moment + 1)).world.sleepers.entries ∨
      (config.run host moment).taken? = some sleeper ∨
      (config.run host moment).Aborts sleeper.thread ∨ (config.run host moment).ForgetsSleepers

/-- What a number of steps of a call do that wakes the sleepers that are due. -/
structure WakesInOrder (host : Host ν σ) (now : Nat) (config : Config ν σ) (steps : Nat) :
    Prop where
  /-- Those that are taken slept when the call began, and are taken in their order. -/
  existing : (config.takings host steps).Sublist config.world.sleepers.entries
  sorted : (config.takings host steps).Pairwise fun a b => a.before b = true
  due : ∀ sleeper ∈ config.takings host steps, sleeper.wake ≤ now
  /-- There are no more rounds than sleepers when the call began. -/
  rounds : (config.takings host steps).length ≤ config.world.sleepers.size
  /-- A sleeper that is not due yet, or that falls asleep during the call, sleeps on, unless its
  thread is aborted or all sleepers are forgotten. -/
  others : ∀ moment ≤ steps, ∀ sleeper ∈ (config.run host moment).world.sleepers.entries,
    now < sleeper.wake ∨ config.world.sleepers.next ≤ sleeper.order →
    sleeper ∈ (config.run host steps).world.sleepers.entries ∨
      ∃ step, moment ≤ step ∧ step < steps ∧ ((config.run host step).Aborts sleeper.thread ∨
        (config.run host step).ForgetsSleepers)

section

variable {host : Host ν σ} {config : Config ν σ} {now below : Nat}

/-! ## Taking sleepers -/

/-- The sleeper that is taken is the next one, is due and has a small number. -/
theorem taken?_eq_some {sleeper : Sleeper} (taken : config.taken? = some sleeper) :
    ∃ now below next, config.focus = .body (.ask (.update (.takeDue now below)) next) ∧
      config.world.sleepers.entries.head? = some sleeper ∧ sleeper.wake ≤ now ∧
      sleeper.order < below := by
  unfold taken? at taken
  split at taken
  · rename_i asked
    obtain ⟨first, due⟩ := Option.filter_eq_some_iff.1 taken
    exact ⟨_, _, _, asked, first, by simpa using due⟩
  · cases taken

/-- Nothing is taken unless a body asks for it. -/
theorem taken?_eq_none (quiet : ¬config.AsksForSleeper) : config.taken? = none := by
  cases taken : config.taken? with
  | none => rfl
  | some sleeper =>
    obtain ⟨now, below, next, asked, _⟩ := taken?_eq_some taken
    exact absurd ⟨now, below, next, asked⟩ quiet

/-- The sleepers taken by one step. -/
theorem takings_one : config.takings host 1 = config.taken?.toList := by
  have none : (config.run host 0) = config := rfl
  simp only [takings, List.range_one, List.filterMap_cons, List.filterMap_nil, none]
  cases config.taken? <;> rfl

/-- The sleepers taken by steps after steps. -/
theorem takings_add (first second : Nat) : config.takings host (first + second) =
    config.takings host first ++ (config.run host first).takings host second := by
  simp only [takings, List.range_add, List.filterMap_append, List.filterMap_map]
  congr 2
  funext moment
  rw [Function.comp_apply, run_add]

/-! ## Orderly steps -/

namespace Orderly

/-- No step. -/
theorem zero (ordered : config.world.sleepers.Ordered)
    (given : below ≤ config.world.sleepers.next) : Orderly host now below config 0 where
  ordered := ordered
  given := given
  chain := List.Sublist.refl _
  due _ listed := by simp [takings] at listed
  stays moment earlier := by omega

/-- Steps after steps. -/
theorem add {first second : Nat} (before : Orderly host now below config first)
    (after : Orderly host now below (config.run host first) second) :
    Orderly host now below config (first + second) where
  ordered := by
    rw [run_add]
    exact after.ordered
  given := by
    rw [run_add]
    exact after.given
  chain := by
    rw [takings_add, run_add, List.append_assoc]
    exact ((List.Sublist.refl _).append after.chain).trans before.chain
  due sleeper listed := by
    rw [takings_add, List.mem_append] at listed
    exact listed.elim (before.due sleeper) (after.due sleeper)
  stays moment earlier sleeper listed := by
    rcases Nat.lt_or_ge moment first with inside | later
    · exact before.stays moment inside sleeper listed
    · obtain ⟨rest, rfl⟩ := Nat.exists_eq_add_of_le later
      rw [Nat.add_assoc]
      simp only [run_add _ _ first] at listed ⊢
      exact after.stays rest (by omega) sleeper listed

/-- One step, seen from the configuration behind it. -/
theorem single (ordered : config.world.sleepers.Ordered)
    (given : below ≤ (config.step host).world.sleepers.next)
    (chain : (config.taken?.toList ++ (config.step host).world.sleepers.old below).Sublist
      (config.world.sleepers.old below))
    (due : ∀ sleeper, config.taken? = some sleeper → sleeper.wake ≤ now)
    (stays : ∀ sleeper ∈ config.world.sleepers.entries,
      sleeper ∈ (config.step host).world.sleepers.entries ∨ config.taken? = some sleeper ∨
        config.Aborts sleeper.thread ∨ config.ForgetsSleepers) :
    Orderly host now below config 1 := by
  have after : config.run host 1 = config.step host := run_succ host config 0
  refine ⟨?_, after ▸ given, ?_, fun sleeper listed => ?_, fun moment earlier => ?_⟩
  · rw [after]
    exact (step_stirs host config).ordered ordered
  · rw [takings_one, after]
    exact chain
  · rw [takings_one, Option.mem_toList] at listed
    exact due sleeper listed
  · obtain rfl := Nat.lt_one_iff.1 earlier
    rw [Nat.zero_add, after]
    exact stays

/-- A step of a body that asks for a sleeper. -/
theorem asking {next : Answer ν → Body ν σ} (ordered : config.world.sleepers.Ordered)
    (given : below ≤ config.world.sleepers.next)
    (asks : config.focus = .body (.ask (.update (.takeDue now below)) next)) :
    Orderly host now below config 1 := by
  rcases @step_takeDue _ _ host config now below next asks with
    ⟨none, made⟩ | ⟨thread, left, taken, made⟩
  · have nobody : config.taken? = Option.none := by
      simpa only [taken?, asks] using Sleepers.head?_filter_of_none none
    refine single ordered (by rw [made]; exact given) ?_ (by simp [nobody]) ?_
    · rw [nobody, made]
      exact List.Sublist.refl _
    · rw [made]
      exact fun sleeper listed => .inl listed
  · obtain ⟨first, listed, _, ripe, small, later⟩ := Sleepers.takeDue_some taken
    have found : config.taken? = some first := by
      simp [taken?, asks, listed, ripe, small]
    refine single ordered ?_ ?_ ?_ ?_
    · rw [made]
      exact later ▸ given
    · have split : config.world.sleepers.old below = first :: left.old below := by
        simp only [Sleepers.old, listed, List.filter_cons, small, decide_true, ↓reduceIte]
      rw [found, made, split]
      exact List.Sublist.refl _
    · rintro sleeper same
      obtain rfl := Option.some.inj (found.symm.trans same)
      exact ripe
    · intro sleeper known
      rw [listed] at known
      rw [made]
      rcases List.mem_cons.1 known with rfl | kept
      · exact .inr (.inl found)
      · exact .inl kept

/-- A step that asks for no sleeper. -/
theorem quiet (ordered : config.world.sleepers.Ordered)
    (given : below ≤ config.world.sleepers.next) (quiet : ¬config.AsksForSleeper) :
    Orderly host now below config 1 := by
  have nobody := taken?_eq_none quiet
  have none (sleeper : Sleeper) (taken : config.taken? = some sleeper) : sleeper.wake ≤ now := by
    rw [nobody] at taken
    cases taken
  -- What is left to say is which of the old sleepers are left, and who has disappeared.
  have single (given : below ≤ (config.step host).world.sleepers.next)
      (old : ((config.step host).world.sleepers.old below).Sublist
        (config.world.sleepers.old below)) :=
    @single _ _ host config now below ordered given (by rw [nobody]; exact old) none
  cases step_stirs host config with
  | rests same =>
    refine single (same ▸ given) (same ▸ List.Sublist.refl _) fun sleeper listed => .inl ?_
    rw [same]
    exact listed
  | @aborts id aborts removed =>
    refine single (by rw [removed]; exact given) ?_ fun sleeper listed => ?_
    · rw [removed]
      exact List.filter_sublist.filter _
    · by_cases gone : sleeper.thread = id
      · exact .inr (.inr (.inl (gone ▸ aborts)))
      · rw [removed]
        exact .inl (List.mem_filter.2 ⟨listed, by simpa using gone⟩)
  | falls thread focus added =>
    refine single ?_ ?_ fun sleeper listed => .inl ?_
    · rw [added]
      exact Nat.le_succ_of_le given
    · rw [added, Sleepers.old_add given]
    · rw [added]
      exact Sleepers.mem_insert.2 (.inr listed)
  | takes thread focus taken => exact absurd ⟨_, _, _, focus⟩ quiet
  | clears focus cleared =>
    refine single (by rw [cleared]; exact given) ?_ fun sleeper listed =>
      .inr (.inr (.inr ⟨_, focus⟩))
    rw [cleared]
    exact List.nil_sublist _

/-- Steps none of which asks for a sleeper. -/
theorem steps (ordered : config.world.sleepers.Ordered)
    (given : below ≤ config.world.sleepers.next) {count : Nat}
    (calm : ∀ step < count, ¬(config.run host step).AsksForSleeper) :
    Orderly host now below config count := by
  induction count with
  | zero => exact zero ordered given
  | succ count ih =>
    have before := ih fun step earlier => calm step (by omega)
    exact before.add (.quiet before.ordered before.given (calm count (Nat.lt_succ_self _)))

end Orderly

/-! ## Rounds of a call -/

/-- A body that asks for something is never answered: from then on it is owed an answer, or the
machine has stopped. -/
def NeverAnswers (host : Host ν σ) (request : Request ν) (config : Config ν σ) : Prop :=
  ∃ next, config.focus = .body (.ask request next) ∧ ∀ later, 0 < later →
    (config.run host later).Owes next config.pending ∨
      ∃ fault, (config.run host later).focus = .faulted fault

/-- A request is answered some time, or never. -/
theorem answered_or_never {request : Request ν} {next : Answer ν → Body ν σ}
    (asks : config.focus = .body (.ask request next)) :
    (∃ middle answer, 0 < middle ∧ (config.run host middle).focus = .body (next answer) ∧
        (config.run host middle).pending = config.pending ∧
        ∀ between, 0 < between → between < middle →
          (config.run host between).Owes next config.pending) ∨
      config.NeverAnswers host request := by
  by_cases answered : ∃ middle answer, 0 < middle ∧
      (config.run host middle).focus = .body (next answer) ∧
      (config.run host middle).pending = config.pending ∧
      ∀ between, 0 < between → between < middle →
        (config.run host between).Owes next config.pending
  · exact .inl answered
  · refine .inr ⟨next, asks, fun later positive => ?_⟩
    rcases @run_ask _ _ host config next request asks later with
      ⟨middle, answer, started, _, found⟩ | owing | faulted
    · exact absurd ⟨middle, answer, started, found⟩ answered
    · exact .inl (owing later positive (Nat.le_refl _))
    · exact .inr faulted

/-- A body resumes a thread and is never told how its run ended. The thread has begun to run, if
there is one. -/
structure NeverGivesBack (host : Host ν σ) (id : ThreadId) (config : Config ν σ) : Prop where
  unanswered : config.NeverAnswers host (.resume id)
  runs : ∀ thread, config.world.domain.thread? id = some thread →
    ∃ run, (config.step host).focus = .enter run ∧ run.thread = id

/-- To resume a thread that exists is answered at once, or the thread begins to run. -/
theorem resume_cases {id : ThreadId} {thread : Thread ν}
    (present : config.world.domain.thread? id = some thread) (next : Answer ν → Body ν σ) :
    (∃ answer, (config.resume host id next).focus = .body (next answer)) ∨
      ∃ run, (config.resume host id next).focus = .enter run ∧ run.thread = id := by
  unfold resume
  rw [Domain.thread_eq_ok.2 present, attempt_ok]
  dsimp only
  split
  · exact .inl ⟨_, rfl⟩
  split
  · exact .inl ⟨_, rfl⟩
  split
  · exact .inl ⟨_, rfl⟩
  simp only [continueThread, Domain.thread_eq_ok.2 present, attempt_ok]
  split
  · exact .inl ⟨_, rfl⟩
  · let awake := { thread with suspended := false, hook := none }
    have there : (config.setDomain
        (config.world.domain.setThread id awake)).world.domain.thread id = .ok awake := by
      rw [Domain.thread_eq_ok, setDomain_world, Domain.thread?_setThread present, if_pos rfl]
    unfold launch
    rw [there, attempt_ok]
    split
    · exact .inl ⟨_, rfl⟩
    · exact .inr ⟨_, rfl, rfl⟩

/-- A thread that exists and is never given back has begun to run. -/
theorem NeverAnswers.neverGivesBack {id : ThreadId}
    (never : config.NeverAnswers host (.resume id)) : config.NeverGivesBack host id := by
  refine ⟨never, fun thread present => ?_⟩
  obtain ⟨next, asks, owing⟩ := never
  have made : config.step host = config.resume host id next := by
    simp only [step, asks, perform]
  rw [made]
  rcases resume_cases present next with ⟨answer, focus⟩ | runs
  · have later := owing 1 Nat.one_pos
    rw [run_succ, Config.run, made] at later
    rcases later with owes | ⟨fault, faulted⟩
    · have inside := owes.inside focus
      rw [pending_resume] at inside
      exact absurd inside (Nat.lt_irrefl _)
    · rw [focus] at faulted
      cases faulted
  · exact runs

/-- Fewer steps are alone as well. -/
theorem TakesAlone.mono {steps more : Nat} (alone : config.TakesAlone host more)
    (upTo : steps ≤ more) : config.TakesAlone host steps :=
  fun step earlier => alone step (by omega)

/-- Who takes alone does so from a later configuration on. -/
theorem TakesAlone.drop {first second : Nat} (alone : config.TakesAlone host (first + second))
    (level : (config.run host first).pending = config.pending) :
    (config.run host first).TakesAlone host second := by
  intro step earlier inside
  rw [← run_add] at inside ⊢
  exact alone (first + step) (by omega) (level ▸ inside)

/-- Until a request is answered that does not ask for a sleeper, none is taken. -/
theorem TakesAlone.orderly {next : Answer ν → Body ν σ} {steps : Nat}
    (alone : config.TakesAlone host steps) (quiet : ¬config.AsksForSleeper)
    (owing : ∀ between, 0 < between → between < steps →
      (config.run host between).Owes next config.pending ∨
        ∃ fault, (config.run host between).focus = .faulted fault)
    (ordered : config.world.sleepers.Ordered) (given : below ≤ config.world.sleepers.next) :
    Orderly host now below config steps := by
  refine .steps ordered given fun step earlier asks => ?_
  rcases Nat.eq_zero_or_pos step with rfl | positive
  · exact quiet asks
  · obtain ⟨_, _, _, focus⟩ := asks
    rcases owing step positive earlier with owes | ⟨fault, faulted⟩
    · exact alone step earlier (owes.inside focus) ⟨_, _, _, focus⟩
    · rw [focus] at faulted
      cases faulted

/-- A round adds nothing, or the thread with how its run ended. -/
theorem continued_cases (thread : ThreadId) (answer : Answer ν) :
    continued thread answer = [] ∨ ∃ outcome, continued thread answer = [(thread, outcome)] := by
  cases answer with
  | ran outcome => exact .inr ⟨outcome, rfl⟩
  | _ => exact .inl rfl

/-- The rest of a call ends with a list of threads: these belong to sleepers that have been taken,
and no sleeper is left that could be taken. -/
structure EndsOrderly (host : Host ν σ) (now below : Nat) (woken result : List (ThreadId × Outcome))
    (config : Config ν σ) (stop : Nat) : Prop extends Orderly host now below config stop where
  listed : ∃ more : List Sleeper, more.Sublist (config.takings host stop) ∧
    result.map Prod.fst = woken.reverse.map Prod.fst ++ more.map Sleeper.thread
  finished : (config.run host stop).world.sleepers.takeDue now below = none

/-- A round that has taken a sleeper is followed by the rest of the call. -/
theorem EndsOrderly.after_round {woken result : List (ThreadId × Outcome)} {first : Sleeper}
    {others : List Sleeper} {answer : Answer ν} {steps stop : Nat}
    (before : Orderly host now below config steps)
    (taken : config.takings host steps = first :: others)
    (after : EndsOrderly host now below (continued first.thread answer ++ woken) result
      (config.run host steps) stop) :
    EndsOrderly host now below woken result config (steps + stop) := by
  refine ⟨before.add after.toOrderly, ?_, by rw [run_add]; exact after.finished⟩
  obtain ⟨more, chosen, threads⟩ := after.listed
  have later := chosen.trans (List.sublist_append_right others _)
  rw [takings_add, taken]
  rcases continued_cases first.thread answer with none | ⟨outcome, one⟩
  · exact ⟨more, later.cons _, by rw [threads, none, List.nil_append]⟩
  · exact ⟨first :: more, later.cons_cons _, by rw [threads, one]; simp⟩

/-- A round begins with taking a sleeper, whose thread is handed over, if one is due. -/
theorem round_begins {next : Answer ν → Body ν σ}
    (asks : config.focus = .body (.ask (.update (.takeDue now below)) next)) :
    (config.run host 1).pending = config.pending ∧
      ((config.run host 1).world.sleepers.takeDue now below = none ∧
          (config.run host 1).focus = .body (next (.thread none)) ∨
        ∃ first, config.takings host 1 = [first] ∧
          (config.run host 1).focus = .body (next (.thread (some first.thread)))) := by
  have one : config.run host 1 = config.step host := run_succ host config 0
  rw [one]
  rcases @step_takeDue _ _ host config now below next asks with
    ⟨none, made⟩ | ⟨thread, left, taken, made⟩
  · rw [made]
    exact ⟨rfl, .inl ⟨none, rfl⟩⟩
  · obtain ⟨first, listed, rfl, ripe, small, _⟩ := Sleepers.takeDue_some taken
    rw [made]
    refine ⟨rfl, .inr ⟨first, ?_, rfl⟩⟩
    rw [takings_one]
    simp [taken?, asks, listed, ripe, small]

/-- Without old sleepers none is taken. -/
theorem takeDue_of_old_nil {sleepers : Sleepers} (nobody : sleepers.old below = []) :
    sleepers.takeDue now below = none := by
  cases taken : sleepers.takeDue now below with
  | none => rfl
  | some found =>
    obtain ⟨first, listed, _, _, small, _⟩ := Sleepers.takeDue_some taken
    have counted := Sleepers.length_old_cons listed small
    simp [nobody] at counted

/-- The loop of a call, with a round for each old sleeper, in a body that goes on after it, ends
orderly, or resumes a thread that is never given back. -/
theorem course_wakeBelow {rest : List (ThreadId × Outcome) → Body ν σ} {count : Nat}
    {woken : List (ThreadId × Outcome)}
    (calls : config.focus = .body ((Waking.wakeBelow now below count woken).bind rest)) :
    (∃ stop result, (config.run host stop).focus = .body (rest result) ∧
        (config.run host stop).pending = config.pending ∧
        (config.TakesAlone host stop → config.world.sleepers.Ordered →
          below ≤ config.world.sleepers.next →
          (config.world.sleepers.old below).length ≤ count →
          EndsOrderly host now below woken result config stop)) ∨
      ∃ moment thread, (config.run host moment).pending = config.pending ∧
        (config.run host moment).NeverAnswers host (.resume thread) ∧
        ∀ later, moment ≤ later → config.TakesAlone host later →
          config.world.sleepers.Ordered → below ≤ config.world.sleepers.next →
          Orderly host now below config later := by
  induction count generalizing config woken with
  | zero =>
    refine .inl ⟨0, woken.reverse, calls, rfl, fun _ ordered given few => ?_⟩
    have none : config.world.sleepers.old below = [] := List.eq_nil_of_length_eq_zero (by omega)
    exact ⟨.zero ordered given, ⟨[], List.nil_sublist _, by simp⟩, takeDue_of_old_nil none⟩
  | succ count ih =>
    obtain ⟨next, form, stops, resumes⟩ := @wakeBelow_succ _ _ now below count woken rest
    have asks := calls.trans (congrArg Focus.body form)
    obtain ⟨level, ⟨nobody, focus⟩ | ⟨first, found, focus⟩⟩ := @round_begins _ _ host _ _ _ _ asks
    · rw [stops] at focus
      exact .inl ⟨1, woken.reverse, focus, level, fun _ ordered given _ =>
        ⟨.asking ordered given asks, ⟨[], List.nil_sublist _, by simp⟩, nobody⟩⟩
    obtain ⟨resume, handed, again⟩ := resumes first.thread
    rw [handed] at focus
    have quiet : ¬(config.run host 1).AsksForSleeper := by
      rintro ⟨_, _, _, other⟩
      rw [focus] at other
      cases other
    rcases @answered_or_never _ _ host _ _ _ focus with
      ⟨middle, answer, positive, goes, back, owing⟩ | never
    · rw [again answer] at goes
      -- The round up to the answer.
      have round {steps : Nat} (upTo : 1 + middle ≤ steps) (alone : config.TakesAlone host steps)
          (ordered : config.world.sleepers.Ordered) (given : below ≤ config.world.sleepers.next) :
          Orderly host now below config (1 + middle) := by
        have taking : Orderly host now below config 1 := .asking ordered given asks
        exact taking.add (((alone.mono upTo).drop level).orderly quiet
          (fun between started earlier => .inl (owing between started earlier))
          taking.ordered taking.given)
      have taken : config.takings host (1 + middle) =
          first :: (config.run host 1).takings host middle := by
        rw [takings_add, found]
        rfl
      have height : (config.run host (1 + middle)).pending = config.pending := by
        rw [run_add, back, level]
      rw [← run_add] at goes
      rcases ih goes with ⟨stop, result, ended, same, orderly⟩ | ⟨moment, other, same, never, still⟩
      · refine .inl ⟨1 + middle + stop, result, by rw [run_add]; exact ended,
          by rw [run_add, same, height], fun alone ordered given few => ?_⟩
        have before := round (Nat.le_add_right _ stop) alone ordered given
        have fewer : ((config.run host (1 + middle)).world.sleepers.old below).length ≤ count := by
          have shorter := before.chain.length_le
          rw [taken] at shorter
          simp only [List.cons_append, List.length_cons, List.length_append] at shorter
          omega
        exact .after_round before taken
          (orderly (alone.drop height) before.ordered before.given fewer)
      · refine .inr ⟨1 + middle + moment, other, by rw [run_add, same, height],
          by rw [run_add]; exact never, fun later after alone ordered given => ?_⟩
        obtain ⟨more, rfl⟩ := Nat.exists_eq_add_of_le (by omega : 1 + middle ≤ later)
        have before := round (Nat.le_add_right _ more) alone ordered given
        exact before.add (still more (by omega) (alone.drop height) before.ordered before.given)
    · refine .inr ⟨1, first.thread, level, never, fun later after alone ordered given => ?_⟩
      obtain ⟨more, rfl⟩ := Nat.exists_eq_add_of_le after
      have taking : Orderly host now below config 1 := .asking ordered given asks
      obtain ⟨other, asked, owing⟩ := never
      exact taking.add ((alone.drop level).orderly quiet
        (fun between started _ => owing between started) taking.ordered taking.given)

/-! ## Calls -/

/-- A sleeper that no step of the call may take sleeps on, unless its thread is aborted or all
sleepers are forgotten. -/
theorem Orderly.sleeps_on {steps : Nat} (orderly : Orderly host now below config steps)
    {moment : Nat} (upTo : moment ≤ steps) {sleeper : Sleeper}
    (listed : sleeper ∈ (config.run host moment).world.sleepers.entries)
    (spared : sleeper ∉ config.takings host steps) :
    sleeper ∈ (config.run host steps).world.sleepers.entries ∨
      ∃ step, moment ≤ step ∧ step < steps ∧ ((config.run host step).Aborts sleeper.thread ∨
        (config.run host step).ForgetsSleepers) := by
  -- The steps from the moment on, one after the other.
  have reaches (count : Nat) (within : moment + count ≤ steps) :
      sleeper ∈ (config.run host (moment + count)).world.sleepers.entries ∨
        ∃ step, moment ≤ step ∧ step < steps ∧ ((config.run host step).Aborts sleeper.thread ∨
          (config.run host step).ForgetsSleepers) := by
    induction count with
    | zero => exact .inl listed
    | succ count ih =>
      rcases ih (by omega) with kept | gone
      · rcases orderly.stays (moment + count) (by omega) sleeper kept with
          still | taken | ended
        · exact .inl still
        · exact absurd (List.mem_filterMap.2
            ⟨moment + count, List.mem_range.2 (by omega), taken⟩) spared
        · exact .inr ⟨moment + count, by omega, by omega, ended⟩
      · exact .inr gone
  have all := reaches (steps - moment) (by omega)
  rwa [Nat.add_sub_cancel' upTo] at all

/-- Orderly steps of a call wake in order the sleepers that slept when it began. -/
theorem Orderly.wakesInOrder {steps : Nat} (ordered : config.world.sleepers.Ordered)
    (orderly : Orderly host now config.world.sleepers.next config steps) :
    WakesInOrder host now config steps := by
  have old : (config.takings host steps).Sublist
      (config.world.sleepers.old config.world.sleepers.next) :=
    (List.sublist_append_left _ _).trans orderly.chain
  have existing := old.trans List.filter_sublist
  refine ⟨existing, ordered.sorted.sublist existing, orderly.due, existing.length_le,
    fun moment upTo sleeper listed other => orderly.sleeps_on upTo listed fun taken => ?_⟩
  have due := orderly.due sleeper taken
  have small := (Sleepers.mem_old.1 (old.subset taken)).2
  omega

/-- A call that wakes the sleepers that are due ends, unless a thread that it resumes is never given
back. Whether it has ended or not, the sleepers that it has taken slept when it began, are due, and
are taken in the order of their ticks and of going to sleep, so that there are no more rounds than
sleepers at the beginning; and the others sleep on, unless they are aborted or all sleepers are
forgotten. When it ends, the threads that it lists belong to sleepers that it has taken, in this
order, and there is none left that it could take. The threads that are resumed may do anything but
take sleepers themselves. -/
theorem due_sleepers_wake_in_order {rest : List (ThreadId × Outcome) → Body ν σ}
    (calls : config.focus = .body ((Waking.runDue now).bind rest))
    (ordered : config.world.sleepers.Ordered) :
    (∃ stop result, (config.run host stop).focus = .body (rest result) ∧
        (config.run host stop).pending = config.pending ∧
        (config.TakesAlone host stop → WakesInOrder host now config stop ∧
          (∃ woken : List Sleeper, woken.Sublist (config.takings host stop) ∧
            result.map Prod.fst = woken.map Sleeper.thread) ∧
          (config.run host stop).world.sleepers.takeDue now config.world.sleepers.next = none)) ∨
      ∃ moment thread, (config.run host moment).pending = config.pending ∧
        (config.run host moment).NeverGivesBack host thread ∧
        ∀ later, moment ≤ later → config.TakesAlone host later →
          WakesInOrder host now config later := by
  obtain ⟨next, asks, goes⟩ : ∃ next : Answer ν → Body ν σ,
      config.focus = .body (.ask .observe next) ∧
        next (.seen config.world.view) = (Waking.wakeBelow now config.world.sleepers.next
          config.world.sleepers.size []).bind rest := ⟨_, calls, rfl⟩
  have one : config.run host 1 = config.goto (.body (next (.seen config.world.view))) := by
    rw [run_succ, Config.run]
    simp only [Config.step, asks, perform]
  have level : (config.run host 1).pending = config.pending := by rw [one]; rfl
  have same : (config.run host 1).world = config.world := by rw [one]; rfl
  have looking : Orderly host now config.world.sleepers.next config 1 := by
    refine .quiet ordered (Nat.le_refl _) ?_
    rintro ⟨_, _, _, other⟩
    rw [asks] at other
    cases other
  have loops : (config.run host 1).focus = .body ((Waking.wakeBelow now
      config.world.sleepers.next config.world.sleepers.size []).bind rest) := by
    rw [one, goes]
    rfl
  have few : ((config.run host 1).world.sleepers.old config.world.sleepers.next).length ≤
      config.world.sleepers.size := by
    rw [same]
    exact List.length_filter_le _ _
  rcases course_wakeBelow loops with
    ⟨stop, result, ended, back, orderly⟩ | ⟨moment, thread, back, never, orderly⟩
  · refine .inl ⟨1 + stop, result, by rw [run_add]; exact ended, by rw [run_add, back, level],
      fun alone => ?_⟩
    have ends := orderly (alone.drop level) looking.ordered looking.given few
    obtain ⟨woken, chosen, threads⟩ := ends.listed
    refine ⟨(looking.add ends.toOrderly).wakesInOrder ordered, ⟨woken, ?_, threads⟩,
      by rw [run_add]; exact ends.finished⟩
    rw [takings_add]
    exact chosen.trans (List.sublist_append_right _ _)
  · refine .inr ⟨1 + moment, thread, by rw [run_add, back, level],
      by rw [run_add]; exact never.neverGivesBack, fun later after alone => ?_⟩
    obtain ⟨more, rfl⟩ := Nat.exists_eq_add_of_le (by omega : 1 ≤ later)
    exact (looking.add (orderly more (by omega) (alone.drop level) looking.ordered
      looking.given)).wakesInOrder ordered

end

/-- The machine that wakes two sleepers comes to its end with the fourteenth step. -/
theorem wakingAll_finished {steps : Nat} (past : 14 ≤ steps) :
    (wakingAll.run sleepingHost steps).focus = .finished 1 ∧
      (wakingAll.run sleepingHost steps).pending = [] := by
  obtain ⟨ends, level, _⟩ := wakingAll_returns
  have none : wakingAll.pending.length = 0 := rfl
  have empty := List.eq_nil_of_length_eq_zero (level.trans none)
  obtain ⟨more, rfl⟩ := Nat.exists_eq_add_of_le past
  rw [run_add, run_succ_last]
  generalize wakingAll.run sleepingHost 13 = last at ends empty ⊢
  have final : last.step sleepingHost = last.goto (.finished 1) := by
    simp only [step, ends, finishBody, empty]
  rw [final, run_of_isFinal _ (by simp [isFinal])]
  exact ⟨rfl, empty⟩

/-- The first of two sleepers is woken and falls asleep again, to be due at once: the call ends
after one round. -/
theorem due_sleepers_wake_in_order_napping :
    wakingAll.world.sleepers.Ordered ∧ ∃ stop, ∃ result : List (ThreadId × Outcome),
      (wakingAll.run sleepingHost stop).focus = .body (.done (Int32.ofNat result.length)) ∧
        WakesInOrder sleepingHost 30 wakingAll stop ∧
        ∃ woken : List Sleeper, woken.Sublist (wakingAll.takings sleepingHost stop) ∧
          result.map Prod.fst = woken.map Sleeper.thread := by
  refine ⟨wakingAll_ordered, ?_⟩
  rcases @due_sleepers_wake_in_order _ _ sleepingHost wakingAll 30 _ rfl wakingAll_ordered with
    ⟨stop, result, ended, _, wakes⟩ | ⟨moment, thread, _, never, _⟩
  · have early : stop ≤ 13 := by
      by_contra late
      have final := (wakingAll_finished (by omega : 14 ≤ stop)).1
      rw [ended] at final
      cases final
    have alone : wakingAll.TakesAlone sleepingHost stop := by
      rintro step earlier inside ⟨_, _, _, focus⟩
      have calm := wakingAll_undisturbed early step earlier inside
      simp [disturbs, focus] at calm
    obtain ⟨inOrder, listed, _⟩ := wakes alone
    exact ⟨stop, result, ended, inOrder, listed⟩
  · obtain ⟨resume, _, owing⟩ := never.unanswered
    obtain ⟨final, empty⟩ := wakingAll_finished (Nat.le_add_left 14 moment)
    have later := owing 14 (by decide)
    rw [← run_add] at later
    rcases later with (⟨run, focus, _, _⟩ | ⟨work, inner, _, pending⟩) | ⟨fault, faulted⟩
    · rw [final] at focus
      cases focus
    · simp [pending] at empty
    · rw [final] at faulted
      cases faulted

end Config

end ScriptMachine

import ScriptMachine.Proofs.RunningThreads
import ScriptMachine.Proofs.Turns

/-!
# Schedules of turns

How a thread takes a turn is decided by the thread and its territory alone: in every world that is
alike there, the machine answers the operation in the same way. So turns of two threads whose
territories share no global can be taken in either order. By exchanging neighbours, every schedule
of turns is brought into every other order in which each thread has the same turns in the same
order: the threads get the same answers, and the domain is the same in the end.
-/

namespace ScriptMachine

variable {ν σ α : Type}

/-- The entries of a thread among those of all threads, in order. -/
def entriesOf (id : ThreadId) (entries : List (ThreadId × α)) : List α :=
  entries.filterMap fun entry => if entry.1 = id then some entry.2 else none

@[simp] theorem entriesOf_nil (id : ThreadId) : entriesOf id ([] : List (ThreadId × α)) = [] := rfl

@[simp] theorem entriesOf_cons (id owner : ThreadId) (entry : α)
    (entries : List (ThreadId × α)) :
    entriesOf id ((owner, entry) :: entries) =
      if owner = id then entry :: entriesOf id entries else entriesOf id entries := by
  by_cases same : owner = id <;> simp [entriesOf, same]

@[simp] theorem entriesOf_append (id : ThreadId) (first second : List (ThreadId × α)) :
    entriesOf id (first ++ second) = entriesOf id first ++ entriesOf id second := by
  simp [entriesOf]

/-- Before the first entry of a thread there are entries of other threads only. -/
theorem exists_of_entriesOf_eq_cons {id : ThreadId} {entries : List (ThreadId × α)} {entry : α}
    {rest : List α} (first : entriesOf id entries = entry :: rest) :
    ∃ earlier later, entries = earlier ++ (id, entry) :: later ∧
      (∀ other ∈ earlier, other.1 ≠ id) ∧ entriesOf id (earlier ++ later) = rest := by
  obtain ⟨earlier, ⟨owner, found⟩, later, rfl, none, here, tail⟩ :=
    List.filterMap_eq_cons_iff.1 first
  have others : ∀ other ∈ earlier, other.1 ≠ id := by simpa using none
  have nothing : entriesOf id earlier = [] := by simpa [entriesOf] using none
  obtain ⟨rfl, rfl⟩ : owner = id ∧ found = entry := by simpa using here
  exact ⟨earlier, later, rfl, others, by rw [entriesOf_append, nothing]; exact tail⟩

namespace Config

variable {host : Host ν σ} {turn : Turn ν σ} {config first second : Config ν σ}

/-! ## Whole turns -/

/-- A configuration that satisfies the invariants of reachable ones. -/
structure Proper (config : Config ν σ) : Prop where
  sound : config.Sound
  placed : config.Placed Request.RegistersVerified
  nested : config.Nested

/-- Every reachable configuration is proper. -/
theorem Proper.of_reachable (hosted : host.Secluded)
    (reached : config.Reachable host Request.RegistersVerified) : config.Proper :=
  ⟨sound_of_reachable hosted.asks reached,
    placed_of_reachable hosted.asks (fun _ verified => verified) reached,
    nested_of_reachable reached⟩

/-- A machine that begins to carry out another body is proper, if no other work waits. -/
theorem Proper.begin (proper : config.Proper) (pending : config.pending = []) {body : Body ν σ}
    (focus : config.focus = .body body) (state : σ) {other : Body ν σ}
    (asks : other.Asks Request.RegistersVerified) :
    (initial config.world state other).Proper := by
  refine ⟨⟨⟨proper.sound.domain, by simp [initial]⟩, asks⟩,
    ⟨⟨proper.placed.domain, by simp [initial]⟩, asks⟩, ?_⟩
  rcases proper.nested with ⟨fault, faulted⟩ | ⟨nests, _⟩
  · rw [focus] at faulted
    cases faulted
  · refine .inr ⟨⟨?_, by simp [initial]⟩, by simp [initial]⟩
    have domain := nests.domain
    rw [focus, pending] at domain
    exact domain

/-- A proper machine stays so. -/
theorem Proper.run (hosted : host.Secluded) (proper : config.Proper) (steps : Nat) :
    (config.run host steps).Proper := by
  induction steps with
  | zero => exact proper
  | succ steps ih =>
    rw [run_succ_last]
    exact ⟨ih.sound.step hosted.asks, ih.placed.step hosted.asks ih.sound, ih.nested.step host⟩

/-- No thread is active when a body is at hand with nothing below it. -/
theorem Proper.idle (proper : config.Proper) (pending : config.pending = []) {body : Body ν σ}
    (focus : config.focus = .body body) : config.world.domain.active = none := by
  have works : ∀ fault, config.focus ≠ .faulted fault := by simp [focus]
  rw [(proper.nested.disciplined works).active, runningThreads_body focus, pending]
  rfl

/-- Both machines carry out the turn in lockstep until both answer it. -/
theorem KeepsPace.run (hosted : host.Secluded)
    (encloses : turn.territory.Encloses turn.rest.functions) (proper : first.Proper)
    (pace : KeepsPace turn first second) (steps : Nat) :
    (∀ moment ≤ steps, Abreast turn (first.run host moment) (second.run host moment)) ∨
      ∃ middle ≤ steps,
        (∀ moment < middle, Abreast turn (first.run host moment) (second.run host moment)) ∧
        ∃ answer, BothAnswer turn answer (first.run host middle) (second.run host middle) := by
  induction steps with
  | zero =>
    rcases pace with abreast | both
    · refine .inl fun moment upTo => ?_
      obtain rfl := Nat.le_zero.1 upTo
      exact abreast
    · exact .inr ⟨0, Nat.le_refl _, by simp, both⟩
  | succ steps ih =>
    rcases ih with abreast | ⟨middle, upTo, before, both⟩
    · have now := proper.run hosted steps
      rcases (abreast steps (Nat.le_refl _)).step hosted encloses now.sound now.placed with
        next | both
      · refine .inl fun moment upTo => ?_
        rcases Nat.le_succ_iff.1 upTo with earlier | rfl
        · exact abreast moment earlier
        · rw [run_succ_last, run_succ_last]
          exact next
      · refine .inr ⟨steps + 1, Nat.le_refl _,
          fun moment earlier => abreast moment (Nat.le_of_lt_succ earlier), ?_⟩
        rw [run_succ_last, run_succ_last]
        exact both
    · exact .inr ⟨middle, Nat.le_succ_of_le upTo, before, both⟩


/-- A machine that is asked for the operation of a turn. -/
theorem KeepsPace.begin (hosted : host.Secluded) {world world' : World ν}
    (couples : Domain.Couples turn.territory turn.thread turn.rest world.domain world'.domain)
    {operation : Operation} (within : operation.Within turn.territory world.domain.functions)
    (state state' : σ) :
    KeepsPace turn
      ((initial world state (.ask (operation.request turn.thread) turn.next)).step host)
      ((initial world' state' (.ask (operation.request turn.thread) turn.next')).step host) :=
  perform hosted ⟨couples, rfl, rfl⟩ within

/-- In every world that is like the domain in the thread and its territory, and where nobody is
active, the machine gives this answer to the operation. It leaves a world that is like the other
domain in the thread and its territory, and otherwise as it was. -/
def Plays (host : Host ν σ) (territory : Territory ν) (id : ThreadId) (operation : Operation)
    (answer : Answer ν) (before after : Domain ν) : Prop :=
  ∀ (world : World ν) (state : σ) (next : Answer ν → Body ν σ),
    Domain.Alike (· = id) territory.globals before world.domain → world.domain.active = none →
    ∃ steps world' state',
      (initial world state (.ask (operation.request id) next)).run host steps =
        initial world' state' (next answer) ∧
      Domain.Alike (· = id) territory.globals after world'.domain ∧
      Domain.Alike (· ≠ id) (fun index => ¬territory.globals index) world.domain world'.domain ∧
      world'.domain.active = none

/-- Only what is alike in the thread and its territory matters. -/
theorem Plays.congr {territory : Territory ν} {id : ThreadId} {operation : Operation}
    {answer : Answer ν} {before after before' after' : Domain ν}
    (plays : Plays host territory id operation answer before after)
    (alike : Domain.Alike (· = id) territory.globals before before')
    (alike' : Domain.Alike (· = id) territory.globals after after') :
    Plays host territory id operation answer before' after' := by
  intro world state next here idle
  obtain ⟨steps, world', state', ran, own, others⟩ := plays world state next (alike.trans here) idle
  exact ⟨steps, world', state', ran, alike'.symm.trans own, others⟩

open Classical in
/-- A body can go on in a way that tells all answers apart. -/
theorem exists_telling (ν σ : Type) :
    ∃ next : Answer ν → Body ν σ, Function.Injective next ∧
      ∀ answer, (next answer).Asks Request.RegistersVerified := by
  refine ⟨fun answer => .ask .observe fun other => .done (if other = answer then 1 else 0),
    fun first second same => ?_, fun answer => ⟨trivial, fun other => trivial⟩⟩
  have told := congrFun (Program.ask.inj same).2 first
  by_contra apart
  simp [apart] at told

/-- A machine at a body with nothing below it is one that begins to carry out this body. -/
theorem eq_initial {body : Body ν σ} (pending : config.pending = [])
    (focus : config.focus = .body body) : config = initial config.world config.state body := by
  obtain ⟨world, state, work, waiting⟩ := config
  subst pending focus
  rfl

/-- If the machine answers an operation on a thread at all, the thread and its territory decide the
answer. -/
theorem plays_of_finished (hosted : host.Secluded) {world : World ν} {state : σ}
    {territory : Territory ν} {id : ThreadId} {operation : Operation}
    {next : Answer ν → Body ν σ}
    (proper : (initial world state (.ask (operation.request id) next)).Proper)
    (encloses : territory.Encloses world.domain.functions)
    (frames : world.domain.ExecutesWithin territory id)
    (within : operation.Within territory world.domain.functions) {steps : Nat} {value : Int32}
    (finishes : ((initial world state (.ask (operation.request id) next)).run host steps).focus =
      .finished value) :
    ∃ answer after, Plays host territory id operation answer world.domain after ∧
      after.ExecutesWithin territory id := by
  obtain ⟨telling, injective, asks⟩ := exists_telling ν σ
  have idle : world.domain.active = none := proper.idle rfl rfl
  have couples {world' : World ν}
      (alike : Domain.Alike (· = id) territory.globals world.domain world'.domain)
      (active : world'.domain.active = none) :
      Domain.Couples territory id world'.domain world.domain world'.domain :=
    ⟨alike, .refl _, active.trans idle.symm, by simp [idle], frames⟩
  have proper' : (initial world state (.ask (operation.request id) telling)).Proper :=
    proper.begin rfl rfl state ⟨operation.registersVerified id, asks⟩
  -- A machine whose body tells the answers apart is answered like the given one.
  have told := @KeepsPace.begin _ _ host ⟨id, territory, next, telling, world.domain⟩ hosted _ _
    (couples (.refl _) idle) operation within state state
  cases steps with
  | zero => cases finishes
  | succ steps =>
    rw [run_succ] at finishes
    rcases told.run hosted encloses (proper.run hosted 1) steps with
      abreast | ⟨middle, _, before, answer, both⟩
    · exact absurd finishes ((abreast steps (Nat.le_refl _)).busy.2.2 value)
    · refine ⟨answer, _, fun world' state' next' alike active => ?_, fun thread execution there =>
        both.domain.frames thread execution (both.domain.thread?_eq ▸ there)⟩
      -- The machine in any other world is answered at the same moment, and in the same way.
      have answered := @KeepsPace.begin _ _ host ⟨id, territory, telling, next', world'.domain⟩
        hosted _ _ (couples alike active) operation within state state'
      rcases answered.run hosted (alike.functions.symm ▸ encloses) (proper'.run hosted 1) middle
        with abreast | ⟨moment, upTo, _, answer', both'⟩
      · exact absurd both.pending'
          ((abreast middle (Nat.le_refl _)).busy.1 _ both.focus')
      · obtain rfl : moment = middle := by
          refine Nat.le_antisymm upTo (Nat.le_of_not_lt fun earlier => ?_)
          exact (before moment earlier).busy.2.1 _ both'.focus both'.pending
        obtain rfl : answer' = answer :=
          injective (Focus.body.inj (both'.focus.symm.trans both.focus'))
        have level := eq_initial both'.pending' both'.focus'
        have proper'' := (proper'.run hosted (moment + 1)).idle
        refine ⟨moment + 1, _, _, by rw [run_succ]; exact level, both'.domain.own,
          both'.domain.others, ?_⟩
        rw [both'.domain.active]
        exact proper'' both'.pending both'.focus

/-! ## Turns in another order -/

/-- A thread takes a turn, which changes the domain only in the thread and its territory. -/
structure TakesTurn (host : Host ν σ) (territory : Territory ν) (id : ThreadId)
    (operation : Operation) (answer : Answer ν) (before after : Domain ν) : Prop where
  plays : Plays host territory id operation answer before after
  others : Domain.Alike (· ≠ id) (fun index => ¬territory.globals index) before after
  idle : after.active = none

/-- The threads take the turns of a schedule, one after the other, and get these answers. -/
inductive Unfolds (host : Host ν σ) (territories : ThreadId → Territory ν) :
    Domain ν → List (ThreadId × Operation) → List (ThreadId × Answer ν) → Domain ν → Prop where
  | nil (domain : Domain ν) : Unfolds host territories domain [] [] domain
  | cons {id : ThreadId} {operation : Operation} {answer : Answer ν}
    {before middle after : Domain ν} {schedule : List (ThreadId × Operation)}
    {answers : List (ThreadId × Answer ν)}
    (turn : TakesTurn host (territories id) id operation answer before middle)
    (unfolds : Unfolds host territories middle schedule answers after) :
    Unfolds host territories before ((id, operation) :: schedule) ((id, answer) :: answers) after

section

variable {territory territory' : Territory ν} {id id' : ThreadId} {operation operation' : Operation}
  {answer answer' : Answer ν} {before middle after other : Domain ν}

/-- The turn is taken in the same way in a domain that is alike in the thread and its territory. -/
theorem TakesTurn.replay (state : σ)
    (turn : TakesTurn host territory id operation answer before after)
    (alike : Domain.Alike (· = id) territory.globals before other) (idle : other.active = none) :
    ∃ next, TakesTurn host territory id operation answer other next ∧
      Domain.Alike (· = id) territory.globals after next := by
  obtain ⟨_, world, _, _, own, others, calm⟩ :=
    turn.plays { domain := other } state (fun _ => .done 0) alike idle
  exact ⟨world.domain, ⟨turn.plays.congr alike own, others, calm⟩, own⟩

/-- Turns of two threads whose territories share no global can be taken in the other order. -/
theorem TakesTurn.swap (state : σ) (apart : id ≠ id')
    (disjoint : ∀ index, territory.globals index → ¬territory'.globals index)
    (idle : before.active = none)
    (turn : TakesTurn host territory id operation answer before middle)
    (turn' : TakesTurn host territory' id' operation' answer' middle after) :
    ∃ middle' after', TakesTurn host territory' id' operation' answer' before middle' ∧
      TakesTurn host territory id operation answer middle' after' ∧ after.Same after' := by
  have unseen : Domain.Alike (· = id') territory'.globals before middle :=
    turn.others.mono (fun _ same => same ▸ apart.symm)
      fun index inside inside' => disjoint index inside' inside
  obtain ⟨middle', early, own'⟩ := turn'.replay state unseen.symm idle
  have unseen' : Domain.Alike (· = id) territory.globals before middle' :=
    early.others.mono (fun _ same => same ▸ apart) disjoint
  obtain ⟨after', late, own⟩ := turn.replay state unseen' early.idle
  refine ⟨middle', after', early, late, ?_⟩
  have kept : Domain.Alike (· = id) territory.globals middle after :=
    turn'.others.mono (fun _ same => same ▸ apart) disjoint
  -- Outside both territories all these domains are alike.
  have outside : Domain.Alike (fun other => other ≠ id ∧ other ≠ id')
      (fun index => ¬territory.globals index ∧ ¬territory'.globals index) after middle' :=
    ((turn'.others.mono (fun _ out => out.2) fun _ out => out.2).symm.trans
      (turn.others.mono (fun _ out => out.1) fun _ out => out.1).symm).trans
      (early.others.mono (fun _ out => out.2) fun _ out => out.2)
  have elsewhere : Domain.Alike (· ≠ id) (fun index => ¬territory.globals index) after middle' :=
    own'.cover outside (fun other out => (eq_or_ne other id').imp_right fun out' => ⟨out, out'⟩)
      fun index out => (Classical.em _).imp_right fun out' => ⟨out, out'⟩
  exact (kept.symm.trans own).whole (elsewhere.trans late.others)

end

variable {territories : ThreadId → Territory ν} {before after other : Domain ν}
  {schedule : List (ThreadId × Operation)} {answers : List (ThreadId × Answer ν)}

/-- The turns are taken in the same way in a domain that is the same. -/
theorem Unfolds.replay (state : σ)
    (unfolds : Unfolds host territories before schedule answers after)
    (same : before.Same other) (idle : other.active = none) :
    ∃ after', Unfolds host territories other schedule answers after' ∧ after.Same after' := by
  induction unfolds generalizing other with
  | nil domain => exact ⟨other, .nil other, same⟩
  | @cons id operation answer before middle after schedule answers turn unfolds ih =>
    obtain ⟨next, turn', own⟩ := turn.replay state (same.mono (fun _ _ => trivial)
      fun _ _ => trivial) idle
    have same' : middle.Same next := same.whole_of_changes turn.others turn'.others own
    obtain ⟨after', unfolds', same''⟩ := ih same' turn'.idle
    exact ⟨after', .cons turn' unfolds', same''⟩

/-- The first turn of a thread can be taken before the turns of other threads. -/
theorem Unfolds.front (state : σ) {threads : List ThreadId}
    (disjoint : ∀ id ∈ threads, ∀ other ∈ threads, id ≠ other →
      ∀ index, (territories id).globals index → ¬(territories other).globals index)
    {earlier later : List (ThreadId × Operation)} {id : ThreadId} {operation : Operation}
    (listed : id ∈ threads) (listed' : ∀ entry ∈ earlier, entry.1 ∈ threads)
    (others : ∀ entry ∈ earlier, entry.1 ≠ id) (idle : before.active = none)
    (unfolds : Unfolds host territories before (earlier ++ (id, operation) :: later) answers
      after) :
    ∃ answer rest after', Unfolds host territories before
        ((id, operation) :: (earlier ++ later)) ((id, answer) :: rest) after' ∧
      after.Same after' ∧ ∀ other, entriesOf other ((id, answer) :: rest) =
        entriesOf other answers := by
  induction earlier generalizing before answers after with
  | nil =>
    cases unfolds with
    | cons turn unfolds => exact ⟨_, _, _, .cons turn unfolds, .refl _, fun _ => rfl⟩
  | cons entry earlier ih =>
    cases unfolds with
    | @cons owner operation' answer' _ middle _ _ answers turn unfolds =>
      obtain ⟨answer, rest, after', unfolds, same, entries⟩ := ih
        (fun entry inside => listed' entry (List.mem_cons_of_mem _ inside))
        (fun entry inside => others entry (List.mem_cons_of_mem _ inside)) turn.idle unfolds
      have apart : owner ≠ id := others _ List.mem_cons_self
      cases unfolds with
      | cons turn' unfolds =>
        obtain ⟨middle', next, early, late, same'⟩ := turn.swap state apart
          (disjoint owner (listed' _ List.mem_cons_self) id listed apart) idle turn'
        obtain ⟨after'', unfolds, same''⟩ := unfolds.replay state same' late.idle
        refine ⟨answer, (owner, answer') :: rest, after'', .cons early (.cons late unfolds),
          same.trans same'', fun other => ?_⟩
        rw [entriesOf_cons other owner, ← entries other]
        simp only [entriesOf_cons]
        by_cases here : owner = other
        · have there : id ≠ other := fun same => apart (here.trans same.symm)
          simp [here, there]
        · simp [here]

/-- A schedule can be brought into every other order in which each thread has the same turns in the
same order. -/
theorem Unfolds.rearrange (state : σ) {threads : List ThreadId}
    (disjoint : ∀ id ∈ threads, ∀ other ∈ threads, id ≠ other →
      ∀ index, (territories id).globals index → ¬(territories other).globals index)
    {first second : List (ThreadId × Operation)} (listed : ∀ entry ∈ first, entry.1 ∈ threads)
    (same : ∀ id, entriesOf id second = entriesOf id first) (idle : before.active = none)
    (unfolds : Unfolds host territories before first answers after) :
    ∃ answers' after', Unfolds host territories before second answers' after' ∧
      after.Same after' ∧ ∀ id, entriesOf id answers' = entriesOf id answers := by
  induction second generalizing first before answers after with
  | nil =>
    cases unfolds with
    | nil => exact ⟨[], before, .nil before, .refl _, fun _ => rfl⟩
    | @cons id => simpa using same id
  | cons entry second ih =>
    obtain ⟨id, operation⟩ := entry
    have owned := same id
    simp only [entriesOf_cons, ↓reduceIte] at owned
    obtain ⟨earlier, later, rfl, others, left⟩ := exists_of_entriesOf_eq_cons owned.symm
    obtain ⟨answer, rest, middle, unfolds, same', entries⟩ := unfolds.front state disjoint
      (listed (id, operation) (by simp))
      (fun entry inside => listed entry (List.mem_append_left _ inside)) others idle
    cases unfolds with
    | cons turn unfolds =>
      have left (other : ThreadId) :
          entriesOf other second = entriesOf other (earlier ++ later) := by
        by_cases own : id = other
        · exact own ▸ left.symm
        · simpa [own] using same other
      obtain ⟨answers', after', unfolds', same'', entries'⟩ := ih
        (fun entry inside => listed entry (by
          rcases List.mem_append.1 inside with early | late
          · exact List.mem_append_left _ early
          · exact List.mem_append_right _ (List.mem_cons_of_mem _ late))) left turn.idle unfolds
      refine ⟨_, after', .cons turn unfolds', same'.trans same'', fun other => ?_⟩
      rw [← entries other, entriesOf_cons, entriesOf_cons, entries' other]

end Config

end ScriptMachine

import ScriptMachine.Proofs.Schedules
import ScriptMachine.Proofs.Stopping
import ScriptMachine.Proofs.Unobserved

/-!
# Interleavings of independent threads

The host asks for the turns of a schedule, one after the other. Threads whose territories share no
global do not interfere under any schedule: whatever the host reports of the answers that it got for
each thread, it reports the same under every other schedule that gives each thread the same turns in
the same order, and the globals and the threads are the same in the end.
-/

namespace ScriptMachine

variable {ν σ : Type}

/-- A body that asks for the turns of a schedule and returns a report of all answers. -/
def Program.performing :
    List (ThreadId × Operation) → (List (ThreadId × Answer ν) → Int32) → Body ν σ
  | [], report => .done (report [])
  | (id, operation) :: schedule, report =>
    .ask (operation.request id) fun answer =>
      performing schedule fun answers => report ((id, answer) :: answers)

/-- A body that asks for the turns of a schedule and returns a report of what each thread was
answered. -/
def Program.playing (schedule : List (ThreadId × Operation))
    (report : (ThreadId → List (Answer ν)) → Int32) : Body ν σ :=
  performing schedule fun answers => report fun id => entriesOf id answers

/-- Performing a schedule registers nothing. -/
theorem Program.performing_asks (schedule : List (ThreadId × Operation))
    (report : List (ThreadId × Answer ν) → Int32) :
    (performing schedule report : Body ν σ).Asks Request.RegistersVerified := by
  induction schedule generalizing report with
  | nil => trivial
  | cons entry schedule ih => exact ⟨entry.2.registersVerified entry.1, fun answer => ih _⟩

/-- Some threads execute functions of territories that share no global and enclose all that these
functions reach. -/
structure Domain.Apart (domain : Domain ν) (threads : List ThreadId)
    (territories : ThreadId → Territory ν) : Prop where
  disjoint : ∀ id ∈ threads, ∀ other ∈ threads, id ≠ other →
    ∀ index, (territories id).globals index → ¬(territories other).globals index
  encloses : ∀ id ∈ threads, (territories id).Encloses domain.functions
  frames : ∀ id ∈ threads, domain.ExecutesWithin (territories id) id

/-- The turns of a schedule belong to some threads, and start only functions of their
territories. -/
def SchedulesWithin (functions : Array (Function ν)) (threads : List ThreadId)
    (territories : ThreadId → Territory ν) (schedule : List (ThreadId × Operation)) : Prop :=
  ∀ entry ∈ schedule, entry.1 ∈ threads ∧ entry.2.Within (territories entry.1) functions

namespace Config

variable {host : Host ν σ} {config : Config ν σ} {threads : List ThreadId}
  {territories : ThreadId → Territory ν}

/-- A machine that has ended had not been at a body after that. -/
theorem before_finished {steps moment : Nat} {value : Int32} {body : Body ν σ}
    (finishes : (config.run host steps).focus = .finished value)
    (focus : (config.run host moment).focus = .body body) : moment ≤ steps := by
  refine Nat.le_of_not_lt fun later => ?_
  have final : (config.run host steps).isFinal := by simp [isFinal, finishes]
  rw [← Nat.add_sub_cancel' (Nat.le_of_lt later), run_add, run_of_isFinal host final,
    finishes] at focus
  cases focus

/-- A machine that performs a schedule to its end has taken its turns, one after the other. -/
theorem unfolds_of_finished (hosted : host.Secluded) {schedule : List (ThreadId × Operation)}
    {world : World ν} {state : σ} {report : List (ThreadId × Answer ν) → Int32}
    (proper : (initial world state (Program.performing schedule report)).Proper)
    (apart : world.domain.Apart threads territories)
    (within : SchedulesWithin world.domain.functions threads territories schedule)
    {steps : Nat} {value : Int32}
    (finishes : ((initial world state (Program.performing schedule report)).run host steps).focus =
      .finished value) :
    ∃ answers, value = report answers ∧ Unfolds host territories world.domain schedule answers
      ((initial world state (Program.performing schedule report)).run host steps).world.domain := by
  induction schedule generalizing world state report steps with
  | nil =>
    cases steps with
    | zero => cases finishes
    | succ steps =>
      have ended : (initial world state (Program.performing [] report)).step host =
          (initial world state (Program.performing [] report)).goto (.finished (report [])) := rfl
      rw [run_succ, ended, run_of_isFinal host rfl] at finishes ⊢
      cases finishes
      exact ⟨[], rfl, .nil world.domain⟩
  | cons entry schedule ih =>
    obtain ⟨id, operation⟩ := entry
    obtain ⟨listed, inside⟩ := within _ List.mem_cons_self
    have idle := proper.idle rfl rfl
    obtain ⟨answer, after, plays, frames⟩ := plays_of_finished hosted proper
      (apart.encloses id listed) (apart.frames id listed) inside finishes
    obtain ⟨moment, world', state', ran, own, others, idle'⟩ := plays world state
      (fun answer => .performing schedule fun answers => report ((id, answer) :: answers))
      (.refl _) idle
    have proper' := proper.run hosted moment
    simp only [Program.performing] at finishes proper' ⊢
    have upTo := before_finished finishes (congrArg Config.focus ran)
    rw [← Nat.add_sub_cancel' upTo, run_add] at finishes ⊢
    rw [ran] at finishes proper' ⊢
    have apart' : world'.domain.Apart threads territories := by
      refine ⟨apart.disjoint, fun other among => ?_, fun other among => ?_⟩
      · exact others.functions ▸ apart.encloses other among
      · by_cases same : other = id
        · subst same
          exact fun thread execution there =>
            frames thread execution (own.thread _ rfl ▸ there)
        · exact fun thread execution there =>
            apart.frames other among thread execution (others.thread _ same ▸ there)
    obtain ⟨answers, reported, unfolds⟩ := ih proper' apart'
      (fun entry among => others.functions ▸ within entry (List.mem_cons_of_mem _ among)) finishes
    exact ⟨_, reported, .cons ⟨plays.congr (.refl _) own, others, idle'⟩ unfolds⟩

/-- A machine whose domain is the same performs the schedule to its end and gets the same
answers. -/
theorem Unfolds.finishes {before after : Domain ν} {schedule : List (ThreadId × Operation)}
    {answers : List (ThreadId × Answer ν)}
    (unfolds : Unfolds host territories before schedule answers after) {world : World ν}
    (same : before.Same world.domain) (idle : world.domain.active = none) (state : σ)
    (report : List (ThreadId × Answer ν) → Int32) :
    ∃ steps,
      let final := (initial world state (Program.performing schedule report)).run host steps
      final.focus = .finished (report answers) ∧ after.Same final.world.domain := by
  induction unfolds generalizing world state report with
  | nil domain => exact ⟨1, rfl, same⟩
  | @cons id operation answer before middle after schedule answers turn unfolds ih =>
    obtain ⟨moment, world', state', ran, own, others, idle'⟩ := turn.plays world state
      (fun answer => Program.performing schedule fun answers => report ((id, answer) :: answers))
      (same.mono (fun _ _ => trivial) fun _ _ => trivial) idle
    have same' : middle.Same world'.domain := same.whole_of_changes turn.others others own
    obtain ⟨steps, finished, alike⟩ := ih same' idle' state' fun answers =>
      report ((id, answer) :: answers)
    refine ⟨moment + steps, ?_⟩
    simp only [Program.performing, run_add, ran]
    exact ⟨finished, alike⟩

/-- Native methods may only compute from their arguments or suspend the calling thread. Take threads
that reach no global in common: all functions that they execute, from the frames that they have and
the functions that are started on them, lie in territories that share no global. If a schedule of
their turns is performed to its end, every schedule that gives each thread the same turns in the
same order is. Whatever the host computes from the answers that it got for each thread is the same,
and so are all globals and all threads in the end: their variables, frames, operand stacks and
results. -/
theorem interleavings_agree (hosted : host.Secluded)
    (reached : config.Reachable host Request.RegistersVerified) {result : Int32}
    (ended : config.focus = .finished result)
    (apart : config.world.domain.Apart threads territories)
    {first second : List (ThreadId × Operation)}
    (within : SchedulesWithin config.world.domain.functions threads territories first)
    (same : ∀ id, entriesOf id second = entriesOf id first) (state state' : σ)
    (report : (ThreadId → List (Answer ν)) → Int32) {steps : Nat} {value : Int32}
    (finishes : ((initial config.world state (.playing first report)).run host steps).focus =
      .finished value) :
    ∃ steps',
      let final := (initial config.world state (.playing first report)).run host steps
      let final' := (initial config.world state' (.playing second report)).run host steps'
      final'.focus = .finished value ∧
        final'.world.domain.globals = final.world.domain.globals ∧
        ∀ id, final'.world.domain.thread? id = final.world.domain.thread? id := by
  have begins : (initial config.world state (.playing first report)).Reachable host
      Request.RegistersVerified := reached.again ended state _ (Program.performing_asks first _)
  have proper := Proper.of_reachable hosted begins
  have idle : config.world.domain.active = none := proper.idle rfl rfl
  obtain ⟨answers, rfl, unfolds⟩ := unfolds_of_finished hosted proper apart within finishes
  obtain ⟨answers', after, unfolds', same', entries⟩ := unfolds.rearrange state apart.disjoint
    (fun entry among => (within entry among).1) same idle
  obtain ⟨steps', finished, alike⟩ := unfolds'.finishes (.refl _) idle state'
    fun answers => report fun id => entriesOf id answers
  have both := same'.trans alike
  refine ⟨steps', ?_, Array.ext_getElem? fun index => both.value index trivial,
    fun id => both.thread id trivial⟩
  rw [show (fun id => entriesOf id answers') = fun id => entriesOf id answers from
    funext entries] at finished
  exact finished

/-- A function that keeps what its native method answers in a global and returns it. -/
def storing (index : UInt8) : Definition Unit where
  name := "storing"
  code := #[0x2A, 0, 0, 0x04, index, 0x03, index, 0x2E]
  methods := #[()]

/-- There are two such functions for two globals, and two threads. -/
def preparingStores : Program Unit Unit Int32 := do
  let _ ← Program.update (.declareGlobal 0)
  let _ ← Program.update (.declareGlobal 0)
  let _ ← Program.update (.addFunction (.trusted (storing 0) 1))
  let _ ← Program.update (.addFunction (.trusted (storing 1) 1))
  let _ ← Program.update .createThread
  let _ ← Program.update .createThread
  return 0

/-- The functions that verification makes of `storing`. -/
theorem verified_storing : (Function.trusted (storing 0) 1).Verified ∧
    (Function.trusted (storing 1) 1).Verified := by
  have first : (storing 0).verify {} = .ok 1 := by cbv
  have second : (storing 1).verify {} = .ok 1 := by cbv
  exact ⟨.of_verify first, .of_verify second⟩

/-- The territory of the function for a global. -/
def storeArea (index : UInt8) : Territory Unit where
  globals := (· = index.toNat)
  functions := (· = .trusted (storing index) 1)

/-- The function reaches no other global and calls no function. -/
theorem storeArea_encloses {index : UInt8}
    (code : (storing index).code.instructions.instructions.toList =
      [(0, .native .static .int 0 0), (3, .globalStore index), (5, .globalLoad index),
        (7, .ret .int)]) (functions : Array (Function Unit)) :
    (storeArea index).Encloses functions := by
  refine ⟨fun function same pc instruction named _ listed names => ?_,
    fun function same pc result argc callee _ listed => ?_⟩
  all_goals
    obtain rfl : function = .trusted (storing index) 1 := same
    replace listed := Array.mem_toList_iff.2 listed
    rw [show (Function.trusted (storing index) 1).code = (storing index).code from rfl,
      code] at listed
  · simp only [List.mem_cons, Prod.mk.injEq, List.not_mem_nil, or_false] at listed
    rcases listed with ⟨_, rfl⟩ | ⟨_, rfl⟩ | ⟨_, rfl⟩ | ⟨_, rfl⟩ <;> cases names <;> rfl
  · simp at listed

/-- Both threads are suspended in turn, are handed results, and go on. -/
def alternately : List (ThreadId × Operation) :=
  [(⟨0⟩, .run ⟨0⟩), (⟨1⟩, .run ⟨1⟩), (⟨0⟩, .supply 5), (⟨1⟩, .supply 7), (⟨0⟩, .resume),
    (⟨1⟩, .resume)]

/-- The second thread has all its turns before the first. -/
def oneByOne : List (ThreadId × Operation) :=
  [(⟨1⟩, .run ⟨1⟩), (⟨1⟩, .supply 7), (⟨1⟩, .resume), (⟨0⟩, .run ⟨0⟩), (⟨0⟩, .supply 5),
    (⟨0⟩, .resume)]

/-- The runs of both threads that have been completed, counted in units and in tens. -/
def completions (record : ThreadId → List (Answer Unit)) : Int32 :=
  let count (id : ThreadId) := (record id).countP fun
    | .ran .completed => true
    | _ => false
  Int32.ofNat (count ⟨0⟩ + 10 * count ⟨1⟩)

/-- Whether the turns of the two threads alternate or not, both complete their runs and keep the
results that they have been handed. -/
theorem interleavings_agree_stored :
    let config := (Config.initial {} () preparingStores).run suspendingHost 7
    ∃ steps,
      let begins := initial config.world () (.playing oneByOne completions)
      let final := begins.run suspendingHost steps
      final.focus = .finished 11 ∧ final.world.domain.globals = #[5, 7] := by
  intro config
  have secluded : suspendingHost.Secluded :=
    ⟨fun _ _ => .suspend none fun _ => .done 0, fun _ _ => .done 0⟩
  have asks : preparingStores.Asks Request.RegistersVerified :=
    ⟨trivial, fun _ => ⟨trivial, fun _ => ⟨verified_storing.1, fun _ => ⟨verified_storing.2,
      fun _ => ⟨trivial, fun _ => ⟨trivial, fun _ => trivial⟩⟩⟩⟩⟩⟩
  have reached := @Reachable.run _ _ suspendingHost _ _ (.initial () preparingStores asks) 7
  have ended : config.focus = .finished 0 := value?_eq_some.1 (by decide +kernel)
  have first : (storing 0).code.instructions.instructions.toList = [(0, .native .static .int 0 0),
      (3, .globalStore 0), (5, .globalLoad 0), (7, .ret .int)] := by cbv
  have second : (storing 1).code.instructions.instructions.toList = [(0, .native .static .int 0 0),
      (3, .globalStore 1), (5, .globalLoad 1), (7, .ret .int)] := by cbv
  let territories : ThreadId → Territory Unit := fun id => storeArea (if id = ⟨0⟩ then 0 else 1)
  have apart : config.world.domain.Apart [⟨0⟩, ⟨1⟩] territories := by
    refine ⟨fun id listed other listed' apart index inside inside' => ?_, fun id listed => ?_,
      fun id listed thread execution there held => ?_⟩
    all_goals simp only [List.mem_cons, List.not_mem_nil, or_false] at listed
    · simp only [List.mem_cons, List.not_mem_nil, or_false] at listed'
      have twice := inside.symm.trans inside'
      rcases listed with rfl | rfl <;> rcases listed' with rfl | rfl <;> simp at apart twice
    · rcases listed with rfl | rfl
      · exact storeArea_encloses first _
      · exact storeArea_encloses second _
    · rcases listed with rfl | rfl <;> cases there <;> cases held <;>
        exact fun _ among => absurd among List.not_mem_nil
  have within : SchedulesWithin config.world.domain.functions [⟨0⟩, ⟨1⟩] territories
      alternately := by
    intro entry among
    simp only [alternately, List.mem_cons, List.not_mem_nil, or_false] at among
    rcases among with rfl | rfl | rfl | rfl | rfl | rfl
    · exact ⟨by simp, fun called found => (Option.some.inj found).symm⟩
    · exact ⟨by simp, fun called found => (Option.some.inj found).symm⟩
    all_goals exact ⟨by simp, trivial⟩
  have same : ∀ id, entriesOf id oneByOne = entriesOf id alternately := by
    intro id
    by_cases zero : (⟨0⟩ : ThreadId) = id
    · subst zero
      rfl
    · by_cases one : (⟨1⟩ : ThreadId) = id
      · subst one
        rfl
      · simp [oneByOne, alternately, zero, one]
  have finishes : ((initial config.world () (.playing alternately completions)).run
      suspendingHost 29).focus = .finished 11 := value?_eq_some.1 (by decide +kernel)
  obtain ⟨steps, finished, globals, _⟩ := interleavings_agree secluded reached ended apart within
    same () () completions finishes
  exact ⟨steps, finished, globals.trans (by decide +kernel)⟩

end Config

end ScriptMachine

import ScriptMachine.Proofs.QueueOrder
import ScriptMachine.Proofs.RunningThreads

/-!
# Storage

The variables of a domain are laid out before its first thread is created, and stay so as long as
threads exist: every thread has the same number of variables, and an operand byte can address each
variable of each kind. A run in progress has a thread, and makes it the active one, so that nothing
can be declared during a run and the domain cannot be emptied. Only emptying the domain takes
anything from its tables. Otherwise they grow at the end, and an identifier denotes what it has
denoted before.
-/

namespace ScriptMachine

variable {ν σ : Type}

namespace Domain

variable {domain next : Domain ν} {move : QueueMove}

/-- The variables of a domain can be addressed by a byte, every thread has the variables that were
declared for threads, and a queue of its own in which others can wait for it. -/
structure Stored (domain : Domain ν) : Prop where
  globals : domain.globals.size ≤ variableLimit
  specials : domain.specials.size ≤ variableLimit
  threadVariables : domain.threadVariables ≤ variableLimit
  equipped : ∀ id thread, domain.thread? id = some thread →
    thread.variables.size = domain.threadVariables
  joined : ∀ id thread, domain.thread? id = some thread →
    thread.joinQueue.index < domain.queues.size
  apart : ∀ id other thread held, domain.thread? id = some thread →
    domain.thread? other = some held → thread.joinQueue = held.joinQueue → id = other

namespace Stored

/-- A domain without threads and variables. -/
theorem of_empty (threads : domain.threads = #[]) (globals : domain.globals = #[])
    (specials : domain.specials = #[]) (threadVariables : domain.threadVariables = 0) :
    domain.Stored := by
  constructor <;> simp [thread?, threads, globals, specials, threadVariables]

/-- Threads that record the same for good, over as many queues and variables or more. -/
theorem of_standing (stored : domain.Stored)
    (threads : ∀ id, (next.thread? id).map Thread.standing =
      (domain.thread? id).map Thread.standing)
    (globals : next.globals.size ≤ variableLimit) (specials : next.specials.size ≤ variableLimit)
    (threadVariables : next.threadVariables = domain.threadVariables)
    (queues : domain.queues.size ≤ next.queues.size) : next.Stored := by
  have before (id : ThreadId) (thread : Thread ν) (present : next.thread? id = some thread) :
      ∃ old, domain.thread? id = some old ∧ old.variables.size = thread.variables.size ∧
        old.joinQueue = thread.joinQueue := by
    have same := threads id
    rw [present] at same
    obtain ⟨old, found, standing⟩ := Option.map_eq_some_iff.1 same.symm
    exact ⟨old, found, congrArg Prod.fst standing, congrArg Prod.snd standing⟩
  refine ⟨globals, specials, threadVariables ▸ stored.threadVariables,
    fun id thread present => ?_, fun id thread present => ?_,
    fun id other thread held present there same => ?_⟩
  · obtain ⟨old, found, size, _⟩ := before id thread present
    rw [← size, threadVariables]
    exact stored.equipped id old found
  · obtain ⟨old, found, _, join⟩ := before id thread present
    rw [← join]
    exact Nat.lt_of_lt_of_le (stored.joined id old found) queues
  · obtain ⟨old, found, _, join⟩ := before id thread present
    obtain ⟨known, looked, _, joined⟩ := before other held there
    exact stored.apart id other old known found looked (by rw [join, joined, same])

/-- A new thread has the declared variables, and a new queue to wait for it. -/
theorem createThread (stored : domain.Stored) : domain.createThread.1.Stored := by
  have threads (id : ThreadId) : domain.createThread.1.thread? id =
      if id.index = domain.threads.size then
        some { «variables» := Array.replicate domain.threadVariables 0,
               joinQueue := ⟨domain.queues.size⟩ }
      else domain.thread? id := by
    simp [Domain.createThread, createQueue, thread?, Array.getElem?_push]
  have queues : domain.createThread.1.queues.size = domain.queues.size + 1 := by
    simp [Domain.createThread, createQueue]
  refine ⟨stored.globals, stored.specials, stored.threadVariables, fun id thread present => ?_,
    fun id thread present => ?_, fun id other thread held present there same => ?_⟩
  · rw [threads] at present
    split at present
    · cases present
      exact Array.size_replicate
    · exact stored.equipped id thread present
  · rw [threads] at present
    rw [queues]
    split at present
    · cases present
      exact Nat.lt_succ_self _
    · exact Nat.lt_succ_of_lt (stored.joined id thread present)
  · rw [threads] at present there
    -- The queue of the new thread is new, and the others have theirs.
    split at present
    · rename_i last
      split at there
      · rename_i last_too
        exact threadId_index_inj.1 (last.trans last_too.symm)
      · cases present
        have joined := stored.joined other held there
        rw [← same] at joined
        exact absurd joined (Nat.lt_irrefl _)
    · split at there
      · cases there
        have joined := stored.joined id thread present
        rw [same] at joined
        exact absurd joined (Nat.lt_irrefl _)
      · exact stored.apart id other thread held present there same

/-- Whatever a domain undergoes, its storage is in order. -/
theorem of_undergoes (stored : domain.Stored) (undergoes : domain.Undergoes move next) :
    next.Stored := by
  cases undergoes with
  | moves moves =>
    exact stored.of_standing moves.threads (moves.globals ▸ stored.globals)
      (moves.specials ▸ stored.specials) moves.threadVariables (Nat.le_of_eq moves.queues.symm)
  | declares unsealed same globals specials threadVariables =>
    have nobody (id : ThreadId) : next.thread? id = none := by
      rw [same]
      simp [thread?, unsealed]
    have room := stored.globals
    have room_too := stored.specials
    have room_three := stored.threadVariables
    exact ⟨by omega, by omega, by omega, by simp [nobody], by simp [nobody], by simp [nobody]⟩
  | registers functions objects =>
    exact stored.of_standing (fun _ => rfl) stored.globals stored.specials rfl (Nat.le_refl _)
  | createQueue =>
    exact stored.of_standing (fun _ => rfl) stored.globals stored.specials rfl
      (by simp [Domain.createQueue])
  | createThread => exact stored.createThread
  | clears done =>
    unfold Domain.clear at done
    split at done <;> cases done
    exact of_empty rfl rfl rfl rfl

end Stored

/-- The numbers of variables of each kind. -/
def layout (domain : Domain ν) : Nat × Nat × Nat :=
  (domain.globals.size, domain.specials.size, domain.threadVariables)

/-- Where waiting threads move, the layout stays. -/
theorem Moves.layout (moves : domain.Moves move next) : next.layout = domain.layout := by
  simp only [Domain.layout, moves.globals, moves.specials, moves.threadVariables]

/-- Once there are threads, only emptying the domain changes the layout. -/
theorem Undergoes.layout (undergoes : domain.Undergoes move next) (sealed : domain.threads.size ≠ 0)
    (unemptied : move ≠ .clear) : next.layout = domain.layout := by
  cases undergoes with
  | moves moves => exact moves.layout
  | declares unsealed => exact absurd unsealed sealed
  | registers functions objects => rfl
  | createQueue => rfl
  | createThread => rfl
  | clears => exact absurd rfl unemptied

/-- The tables have grown at the end, if at all. Of a thread only what it records for good is
compared. -/
structure Extends (domain next : Domain ν) : Prop where
  functions : domain.functions.toList <+: next.functions.toList
  objects : domain.objects.toList <+: next.objects.toList
  threads : domain.threads.toList.map Thread.standing <+: next.threads.toList.map Thread.standing
  queues : domain.queues.size ≤ next.queues.size

namespace Extends

/-- Nothing has grown. -/
theorem refl (domain : Domain ν) : domain.Extends domain :=
  ⟨List.prefix_refl _, List.prefix_refl _, List.prefix_refl _, Nat.le_refl _⟩

/-- What has grown twice has grown. -/
theorem trans {middle : Domain ν} (first : domain.Extends middle) (second : middle.Extends next) :
    domain.Extends next :=
  ⟨first.functions.trans second.functions, first.objects.trans second.objects,
    first.threads.trans second.threads, Nat.le_trans first.queues second.queues⟩

/-- Where waiting threads move, the tables stay. -/
theorem of_moves (moves : domain.Moves move next) : domain.Extends next where
  functions := by rw [moves.functions]
  objects := by rw [moves.objects]
  threads := by
    have same : next.threads.toList.map Thread.standing =
        domain.threads.toList.map Thread.standing :=
      List.ext_getElem? fun index => by simpa [thread?] using moves.threads ⟨index⟩
    rw [same]
  queues := Nat.le_of_eq moves.queues.symm

/-- Unless a domain is emptied, its tables grow at the end. -/
theorem of_undergoes (undergoes : domain.Undergoes move next) (unemptied : move ≠ .clear) :
    domain.Extends next := by
  cases undergoes with
  | moves moves => exact of_moves moves
  | declares _ same _ _ _ =>
    rw [same]
    exact ⟨List.prefix_refl _, List.prefix_refl _, List.prefix_refl _, Nat.le_refl _⟩
  | registers functions objects =>
    exact { refl domain with
      functions := by simp
      objects := by simp }
  | createQueue => exact { refl domain with queues := by simp [Domain.createQueue] }
  | createThread =>
    exact { refl domain with
      threads := by simp [Domain.createThread, Domain.createQueue]
      queues := by simp [Domain.createThread, Domain.createQueue] }
  | clears => exact absurd rfl unemptied

end Extends

end Domain

/-- Whatever an identifier denotes in a world, it denotes in the other. A native object is known by
its position and its type, and a thread by the queue that is its own. -/
structure World.Preserves (world next : World ν) : Prop where
  functions : ∀ id function, world.domain.function? id = some function →
    next.domain.function? id = some function
  objects : ∀ id entry, world.entry id = .ok entry → next.entry id = .ok entry
  natives : ∀ (index : Nat) (object : NativeObject), world.natives[index]? = some object →
    ∃ later, next.natives[index]? = some later ∧ later.type = object.type
  threads : ∀ id thread, world.domain.thread? id = some thread →
    ∃ later, next.domain.thread? id = some later ∧ later.joinQueue = thread.joinQueue ∧
      later.variables.size = thread.variables.size
  queues : ∀ queue waiters, world.domain.waiters queue = .ok waiters →
    ∃ later, next.domain.waiters queue = .ok later

/-- An entry of a table stays where it is when the table grows. -/
theorem getElem?_of_grown {α : Type} {table grown : List α} (extends_ : table <+: grown)
    {index : Nat} {entry : α} (present : table[index]? = some entry) :
    grown[index]? = some entry := by
  obtain ⟨added, rfl⟩ := extends_
  rw [List.getElem?_append_left (List.getElem?_eq_some_iff.1 present).1, present]

/-- Where tables grow at the end, identifiers denote what they did. -/
theorem World.Preserves.of_extends {world next : World ν}
    (domain : world.domain.Extends next.domain) (natives : world.types <+: next.types) :
    world.Preserves next where
  functions id function present := by
    unfold Domain.function? at present ⊢
    rw [← Array.getElem?_toList] at present ⊢
    exact getElem?_of_grown domain.functions present
  objects id entry present := by
    unfold World.entry at present ⊢
    cases found : world.domain.objects[id.index]? with
    | none =>
      rw [found] at present
      cases present
    | some known =>
      rw [found] at present
      cases present
      rw [← Array.getElem?_toList] at found ⊢
      rw [getElem?_of_grown domain.objects found]
  natives index object present := by
    have there : world.types[index]? = some object.type := by
      simp [World.types, present]
    have later := getElem?_of_grown natives there
    simpa [World.types] using later
  threads id thread present := by
    have there : (world.domain.threads.toList.map Thread.standing)[id.index]? =
        some thread.standing := by
      have found : world.domain.threads[id.index]? = some thread := present
      simp [found]
    have later := getElem?_of_grown domain.threads there
    simp only [List.getElem?_map, Array.getElem?_toList, Option.map_eq_some_iff] at later
    obtain ⟨found, known, same⟩ := later
    exact ⟨found, known, congrArg Prod.snd same, congrArg Prod.fst same⟩
  queues queue waiters present := by
    have inside := (Domain.waiters_eq_ok.1 present).1
    exact ⟨_, Domain.waiters_eq_ok.2 ⟨Nat.lt_of_lt_of_le inside domain.queues, rfl⟩⟩

/-- An update declares a variable. -/
def Update.Declares : Update ν → Prop
  | .declareGlobal _ | .declareSpecial _ | .declareThreadVariable => True
  | _ => False

/-- Nothing is declared in a domain with threads. -/
theorem Update.Declares.refused {update : Update ν} (declares : update.Declares) {world : World ν}
    (sealed : world.domain.threads.size ≠ 0) :
    update.apply world = .ok (world, .refused (.domain .layoutSealed)) := by
  cases update with
  | declareGlobal _ | declareSpecial _ | declareThreadVariable =>
    simp [Update.apply, Update.ofDeclaration, Domain.declareGlobal, Domain.declareSpecial,
      Domain.declareThreadVariable, Domain.declarationRefusal, sealed]
  | _ => exact declares.elim

namespace Config

/-- The next step empties the domain. -/
def Clears (config : Config ν σ) : Prop :=
  ∃ next, config.focus = .body (.ask (.update .clear) next) ∧ config.world.domain.active = none

variable {host : Host ν σ} {allowed : Request ν → Prop} {configs : Nat → Config ν σ}
  {config : Config ν σ}

/-- Only emptying the domain takes everybody from every queue. -/
theorem clears_of_queueMove (cleared : config.queueMove = .clear) : config.Clears := by
  cases focus : config.focus with
  | body body =>
    cases body with
    | ask request next =>
      have asked : request.queueMove config.world.domain = .clear := by
        simpa only [queueMove, focus] using cleared
      cases request with
      | update update =>
        cases update with
        | clear =>
          cases active : config.world.domain.active with
          | none => exact ⟨next, focus, active⟩
          | some id => simp [Request.queueMove, Update.queueMove, active] at asked
        | _ => cases asked
      | start id called | run id called | runInt id called =>
        simp only [Request.queueMove] at asked
        split at asked <;> cases asked
      | wake queue value =>
        simp only [Request.queueMove] at asked
        split at asked <;> cases asked
      | faultActive error =>
        simp only [Request.queueMove] at asked
        cases active : config.world.domain.active <;> simp [active] at asked
      | observe | resume _ | abort _ => cases asked
    | done value =>
      simp only [queueMove, focus] at cleared
      split at cleared
      · cases ‹Focus.body _ = Focus.body _›
      · split at cleared <;> cases cleared
      · cases cleared
    | modify _ _ | crash _ => simp [queueMove, focus] at cleared
  | _ => simp [queueMove, focus] at cleared

/-- In every configuration that the machine passes through, the storage is in order. -/
theorem stored_of_reachable (reached : config.Reachable host allowed) :
    config.world.domain.Stored := by
  induction reached with
  | initial state body asks => exact .of_empty rfl rfl rfl rfl
  | again reached ended state body asks ih => exact ih
  | step reached ih =>
    rcases (step_undergoes host (linked_of_reachable reached)).domain with undergoes | ⟨_, moves⟩
    · exact ih.of_undergoes undergoes
    · exact ih.of_undergoes (.moves moves)

/-- During a run there are threads, and one of them is active. -/
theorem sealed_of_runs (reached : config.Reachable host allowed) (running : config.runs ≠ [])
    (works : ∀ fault, config.focus ≠ .faulted fault) :
    config.world.domain.threads.size ≠ 0 ∧ config.world.domain.active.isSome := by
  have disciplined := (nested_of_reachable reached).disciplined works
  cases runs : config.runs with
  | nil => exact absurd runs running
  | cons run rest =>
    have first : config.runningThreads = run.thread :: rest.map Run.thread := by
      rw [runningThreads, runs, List.map_cons]
    obtain ⟨thread, present, _⟩ := (disciplined.taken run.thread).1 (by simp [first])
    refine ⟨fun empty => ?_, by simp [disciplined.active, first]⟩
    have inside := (Array.getElem?_eq_some_iff.1 present).1
    omega

/-- A step that does not empty the domain lets its tables grow at the end. -/
theorem step_extends (host : Host ν σ) (linked : config.world.domain.Linked)
    (kept : ¬config.Clears) :
    config.world.domain.Extends (config.step host).world.domain ∧
      config.world.types <+: (config.step host).world.types := by
  have undergoes := step_undergoes host linked
  refine ⟨?_, undergoes.natives⟩
  rcases undergoes.domain with undergone | ⟨_, moves⟩
  · exact .of_undergoes undergone fun cleared => kept (clears_of_queueMove cleared)
  · exact .of_moves moves

/-- A step during a run leaves the layout of the variables alone. -/
theorem step_layout (reached : config.Reachable host allowed) (running : config.runs ≠ []) :
    (config.step host).world.domain.layout = config.world.domain.layout ∧ ¬config.Clears := by
  by_cases stopped : ∃ fault, config.focus = .faulted fault
  · obtain ⟨fault, faulted⟩ := stopped
    rw [step_of_isFinal host (by simp [isFinal, faulted])]
    refine ⟨rfl, ?_⟩
    rintro ⟨next, focus, _⟩
    rw [faulted] at focus
    cases focus
  · obtain ⟨sealed, active⟩ := sealed_of_runs reached running fun fault faulted =>
      stopped ⟨fault, faulted⟩
    have kept : ¬config.Clears := by
      rintro ⟨_, _, idle⟩
      simp [idle] at active
    refine ⟨?_, kept⟩
    rcases (step_undergoes host (linked_of_reachable reached)).domain with undergone | ⟨_, moves⟩
    · exact undergone.layout sealed fun cleared => kept (clears_of_queueMove cleared)
    · exact moves.layout

namespace History

/-- Between two moments at which the domain is not emptied the tables grow at the end. -/
theorem extends_of_kept (history : History host allowed configs) {first last : Nat}
    (ordered : first ≤ last)
    (kept : ∀ moment, first ≤ moment → moment < last → ¬(configs moment).Clears) :
    (configs first).world.domain.Extends (configs last).world.domain ∧
      (configs first).world.types <+: (configs last).world.types := by
  induction last, ordered using Nat.le_induction with
  | base => exact ⟨.refl _, List.prefix_refl _⟩
  | succ time later ih =>
    obtain ⟨domain, natives⟩ := ih fun moment after before => kept moment after (by omega)
    have linked := linked_of_reachable (history.reachable time)
    obtain ⟨domain_next, natives_next⟩ := step_extends host linked (kept time later (by omega))
    rw [(history.goes time).world]
    exact ⟨domain.trans domain_next, natives.trans natives_next⟩

/-- During a run the layout stays as it is. -/
theorem layout_of_runs (history : History host allowed configs) {first last : Nat}
    (ordered : first ≤ last)
    (running : ∀ moment, first ≤ moment → moment < last → (configs moment).runs ≠ []) :
    (configs last).world.domain.layout = (configs first).world.domain.layout := by
  induction last, ordered using Nat.le_induction with
  | base => rfl
  | succ time later ih =>
    have before := ih fun moment after before => running moment after (by omega)
    have same := (step_layout (history.reachable time) (running time later (by omega))).1
    rw [(history.goes time).world, same, before]

end History

/-- At every moment each thread has the variables that were declared for threads, and there are
never more variables of a kind than a byte can address. During a run declarations are refused
because the layout is sealed, and emptying the domain because a thread is running. So as long as
some run is in progress, whatever its native methods, the hooks and the runs nested in it do, the
numbers of variables stay as they are and the tables only grow at the end. Whatever an identifier
denotes at a moment, it denotes until the domain is emptied, and queues change only by the moves of
the threads that wait in them. -/
theorem storage_is_stable (history : History host allowed configs) :
    (∀ time, (configs time).world.domain.Stored) ∧
      (∀ time, (configs time).runs ≠ [] → (∀ fault, (configs time).focus ≠ .faulted fault) →
        (∀ update : Update ν, update.Declares → update.apply (configs time).world =
          .ok ((configs time).world, .refused (.domain .layoutSealed))) ∧
        Update.clear.apply (configs time).world =
          .ok ((configs time).world, .refused (.domain .busy))) ∧
      (∀ first last, first ≤ last →
        (∀ moment, first ≤ moment → moment < last → (configs moment).runs ≠ []) →
        (configs last).world.domain.layout = (configs first).world.domain.layout ∧
        (configs first).world.domain.Extends (configs last).world.domain ∧
        (configs first).world.Preserves (configs last).world) ∧
      (∀ first last, first ≤ last →
        (∀ moment, first ≤ moment → moment < last → ¬(configs moment).Clears) →
        (configs first).world.domain.Extends (configs last).world.domain ∧
        (configs first).world.Preserves (configs last).world) ∧
      ∀ time, (configs time).MovesTo (configs (time + 1)) := by
  have lasting {first last : Nat} (ordered : first ≤ last)
      (kept : ∀ moment, first ≤ moment → moment < last → ¬(configs moment).Clears) :
      (configs first).world.domain.Extends (configs last).world.domain ∧
        (configs first).world.Preserves (configs last).world := by
    obtain ⟨domain, natives⟩ := history.extends_of_kept ordered kept
    exact ⟨domain, .of_extends domain natives⟩
  refine ⟨fun time => stored_of_reachable (history.reachable time), fun time running works => ?_,
    fun first last ordered running => ⟨history.layout_of_runs ordered running, ?_⟩,
    fun first last ordered kept => lasting ordered kept,
    fun time => (history.goes time).movesTo (linked_of_reachable (history.reachable time))⟩
  · obtain ⟨sealed, active⟩ := sealed_of_runs (history.reachable time) running works
    refine ⟨fun update declares => declares.refused sealed, ?_⟩
    simp [Update.apply, Domain.clear, active, Update.ofDomain]
  · exact lasting ordered fun moment after before =>
      (step_layout (history.reachable moment) (running moment after before)).2

/-- A function is run on a thread after a global has been declared. -/
def layingOut : Program Unit Unit Int32 := do
  let _ ← Program.update (.declareGlobal 5)
  let _ ← Program.update (.addFunction (.trusted visiting 0))
  let _ ← Program.update .createThread
  let _ ← Program.request (.run ⟨0⟩ ⟨0⟩)
  return 0

/-- A body that tries to declare a global and to empty the domain, and creates a thread. -/
def meddling : Program Unit Unit Int32 := do
  let _ ← Program.update (.declareGlobal 6)
  let _ ← Program.update .clear
  let _ ← Program.update .createThread
  return 0

/-- A host whose native methods meddle with the storage. -/
def meddlingHost : Host Unit Unit where
  native _ _ := meddling
  onAbort _ _ := .done 0
  onLimit _ _ state := state
  onEvent _ _ state := state

/-- What the native method tries is refused, and the new thread comes after the one that runs. -/
theorem storage_is_stable_meddled :
    let configs := fun time => (Config.initial {} () layingOut).run meddlingHost time
    History meddlingHost (fun _ => True) configs ∧
      Update.clear.apply (configs 7).world =
        .ok ((configs 7).world, .refused (.domain .busy)) ∧
      (configs 9).world.domain.layout = (1, 0, 0) ∧
      (configs 9).world.domain.threads.size = 2 ∧
      (configs 4).world.Preserves (configs 9).world := by
  intro configs
  have history : History meddlingHost (fun _ => True) configs :=
    .of_initial () (Program.asks_of_forall (fun _ => trivial) _)
  have single : ∀ moment < 9, 4 ≤ moment → (configs moment).runs.length = 1 := by decide +kernel
  have running (moment : Nat) (after : 4 ≤ moment) (before : moment < 9) :
      (configs moment).runs ≠ [] := fun empty => by
    have one := single moment before after
    simp [empty] at one
  have works (fault : Fault) : (configs 7).focus ≠ .faulted fault :=
    works_of_isFinal (by decide +kernel) fault
  obtain ⟨_, refused, lasting, _⟩ := storage_is_stable history
  obtain ⟨layout, _, preserved⟩ := lasting 4 9 (by decide) running
  exact ⟨history, (refused 7 (running 7 (by decide) (by decide)) works).2,
    layout.trans (by decide +kernel), by decide +kernel, preserved⟩

end Config

end ScriptMachine

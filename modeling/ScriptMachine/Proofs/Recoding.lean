import ScriptMachine.Proofs.Alignment
import ScriptMachine.Proofs.Territories

/-!
# Recoded domains

A domain is recoded if its functions are replaced by functions with aligned codes: the frames of its
threads then continue at other offsets, and everything else is the same. Every operation on domains
does the same to a domain and to the recoded one: it fails with the same fault, or refuses with the
same error, or gives results of which one is the other one recoded.
-/

namespace ScriptMachine

variable {ν α β : Type}

/-! ## Codes -/

/-- Nothing can be read at an offset of one code and at an offset of another, or instructions that
tally. -/
inductive Instruction.ReadAlike (paired : Nat → Nat → Prop) :
    Except DecodeError (Instruction × Nat) → Except DecodeError (Instruction × Nat) → Prop where
  | failed (error error' : DecodeError) : ReadAlike paired (.error error) (.error error')
  | read {read read' : Instruction × Nat} (tallies : Tallies paired read read') :
    ReadAlike paired (.ok read) (.ok read')

/-- From one offset of the first code and another one of the second the same instructions are read,
but for their encodings, wherever control goes. -/
def Code.Parallel (first second : Code) (pc pc' : Nat) : Prop :=
  ∃ paired : Nat → Nat → Prop, (∀ pc pc', paired pc pc' →
    Instruction.ReadAlike paired (Instruction.decode first pc) (Instruction.decode second pc')) ∧
    paired pc pc'

namespace Code

variable {first second : Code} {pc pc' : Nat}

/-- The instructions that are read tally, and lead to parallel offsets. -/
theorem Parallel.reads (parallel : Parallel first second pc pc') :
    Instruction.ReadAlike (Parallel first second) (Instruction.decode first pc)
      (Instruction.decode second pc') := by
  obtain ⟨paired, reads, here⟩ := parallel
  have read := reads pc pc' here
  generalize Instruction.decode first pc = result at read ⊢
  generalize Instruction.decode second pc' = result' at read ⊢
  cases read with
  | failed error error' => exact .failed error error'
  | read tallies => exact .read (tallies.mono fun _ _ same => ⟨paired, reads, same⟩)

/-- Code is parallel to itself. -/
theorem Parallel.refl (code : Code) (pc : Nat) : Parallel code code pc pc := by
  refine ⟨Eq, fun pc pc' same => ?_, rfl⟩
  subst same
  cases Instruction.decode code pc with
  | error error => exact .failed error error
  | ok read =>
    refine .read ⟨rfl, rfl, fun delta delta' branches branches' => ?_⟩
    obtain rfl := Option.some.inj (branches.symm.trans branches')
    cases branchTarget? read.2 delta with
    | none => exact .none
    | some target => exact .some rfl

/-- Nothing can be read at the end of code. -/
theorem decode_size (code : Code) : ∃ error, Instruction.decode code code.size = .error error :=
  ⟨.truncated code.size, by simp [Instruction.decode]⟩

/-- Aligned codes are parallel from paired offsets. -/
theorem Aligned.parallel {paired : Nat → Nat → Prop} (aligned : Aligned paired first second)
    (level : paired pc pc') : Parallel first second pc pc' := by
  refine ⟨paired, fun pc pc' level => ?_, level⟩
  rcases aligned.reads pc pc' level with ⟨rfl, rfl⟩ |
    ⟨instruction, instruction', listed, listed', tallies⟩
  · obtain ⟨error, failed⟩ := decode_size first
    obtain ⟨error', failed'⟩ := decode_size second
    rw [failed, failed']
    exact .failed error error'
  · rw [(Boundary.decode listed).2, (Boundary.decode listed').2]
    exact .read tallies

end Code

/-! ## Records -/

/-- A function is recoded if its code is replaced by code that is parallel from the start. -/
structure Function.Recoded (function function' : Function ν) : Prop where
  header : function'.toDefinition = { function.toDefinition with code := function'.code }
  stackSlots : function'.stackSlots = function.stackSlots
  code : Code.Parallel function.code function'.code 0 0

namespace Function.Recoded

variable {function function' : Function ν}

theorem refl (function : Function ν) : Recoded function function := ⟨rfl, rfl, .refl _ _⟩

theorem name_eq (recoded : Recoded function function') : function'.name = function.name :=
  (congrArg Definition.name recoded.header).trans rfl

theorem params_eq (recoded : Recoded function function') : function'.params = function.params :=
  (congrArg Definition.params recoded.header).trans rfl

theorem locals_eq (recoded : Recoded function function') : function'.locals = function.locals :=
  (congrArg Definition.locals recoded.header).trans rfl

theorem method?_eq (recoded : Recoded function function') (index : UInt8) :
    function'.method? index = function.method? index := by
  have methods : function'.methods = function.methods :=
    (congrArg Definition.methods recoded.header).trans rfl
  rw [method?, method?, methods]

end Function.Recoded

/-- A frame is recoded with its function: it continues at a parallel offset. -/
structure Frame.Recoded (frame frame' : Frame ν) : Prop where
  function : frame.function.Recoded frame'.function
  base : frame'.base = frame.base
  top : frame'.top = frame.top
  pc : Option.Rel (Code.Parallel frame.function.code frame'.function.code) frame.pc frame'.pc

/-- Frames are recoded one by one, over the same operand stack. -/
structure Execution.Recoded (execution execution' : Execution ν) : Prop where
  frames : List.Forall₂ Frame.Recoded execution.frames execution'.frames
  stack : execution'.stack = execution.stack

/-- A thread is recoded with its frames, and records nothing else differently. -/
inductive Thread.Recoded (thread : Thread ν) : Thread ν → Prop where
  | mk {execution : Option (Execution ν)}
    (same : Option.Rel Execution.Recoded thread.execution execution) :
    Recoded thread { thread with execution }

/-- Two tables correspond entry by entry. -/
def Entries (related : α → β → Prop) (first : Array α) (second : Array β) : Prop :=
  ∀ index : Nat, Option.Rel related first[index]? second[index]?

/-- A domain is recoded with its functions and its threads, and holds nothing else differently. -/
inductive Domain.Recoded (domain : Domain ν) : Domain ν → Prop where
  | mk {functions : Array (Function ν)} {threads : Array (Thread ν)}
    (listed : Entries Function.Recoded domain.functions functions)
    (created : Entries Thread.Recoded domain.threads threads) :
    Recoded domain { domain with functions, threads }

/-- A world is recoded with its domain. -/
inductive World.Recoded (world : World ν) : World ν → Prop where
  | mk {domain : Domain ν} (same : world.domain.Recoded domain) :
    Recoded world { world with domain }

namespace Entries

variable {related : α → β → Prop} {first : Array α} {second : Array β}

/-- Corresponding tables are of the same size. -/
theorem size_eq (entries : Entries related first second) : second.size = first.size := by
  refine eq_of_forall_lt_iff fun index => ?_
  have inside : index < second.size ↔ second[index]?.isSome := by simp
  have inside' : index < first.size ↔ first[index]?.isSome := by simp
  rw [inside, inside', isSome_eq_of_rel (entries index)]

theorem refl {related : α → α → Prop} (same : ∀ entry, related entry entry) (table : Array α) :
    Entries related table table := by
  intro index
  cases table[index]? with
  | none => exact .none
  | some entry => exact .some (same entry)

/-- Entries are added at the end of both tables. -/
theorem push (entries : Entries related first second) {entry : α} {entry' : β}
    (same : related entry entry') : Entries related (first.push entry) (second.push entry') := by
  intro index
  rw [Array.getElem?_push, Array.getElem?_push, entries.size_eq]
  split
  · exact .some same
  · exact entries index

/-- Corresponding entries are replaced. -/
theorem set (entries : Entries related first second) {entry : α} {entry' : β}
    (same : related entry entry') (index : Nat) :
    Entries related (first.set! index entry) (second.set! index entry') := by
  intro other
  rw [Array.set!_eq_setIfInBounds, Array.set!_eq_setIfInBounds, Array.getElem?_setIfInBounds,
    Array.getElem?_setIfInBounds, entries.size_eq]
  split
  · split
    · exact .some same
    · exact .none
  · exact entries other

end Entries

namespace Frame.Recoded

variable {frame frame' : Frame ν}

theorem refl (frame : Frame ν) : Recoded frame frame where
  function := .refl _
  base := rfl
  top := rfl
  pc := by
    cases frame.pc with
    | none => exact .none
    | some pc => exact .some (.refl _ _)

/-- The two frames will run for the first time, or neither will. -/
theorem isNone_pc_eq (recoded : Recoded frame frame') : frame'.pc.isNone = frame.pc.isNone := by
  rw [← Option.not_isSome, ← Option.not_isSome, isSome_eq_of_rel recoded.pc]

/-- A fresh frame of a recoded function. -/
theorem fresh {function function' : Function ν} (recoded : function.Recoded function')
    (base : Nat) : Recoded ({ function, base, top := base } : Frame ν)
      { function := function', base, top := base } := ⟨recoded, rfl, rfl, .none⟩

end Frame.Recoded

/-- A frame is pushed on both. -/
theorem Execution.Recoded.push {execution execution' : Execution ν}
    (recoded : execution.Recoded execution') {frame frame' : Frame ν}
    (same : frame.Recoded frame') :
    Execution.Recoded ⟨frame :: execution.frames, execution.stack⟩
      ⟨frame' :: execution'.frames, execution'.stack⟩ := ⟨.cons same recoded.frames, recoded.stack⟩

theorem Execution.Recoded.refl (execution : Execution ν) : Recoded execution execution :=
  ⟨List.forall₂_same.2 fun frame _ => .refl frame, rfl⟩

namespace Thread.Recoded

variable {thread thread' : Thread ν}

theorem refl (thread : Thread ν) : Recoded thread thread := by
  refine @mk _ thread thread.execution ?_
  cases thread.execution with
  | none => exact .none
  | some execution => exact .some (.refl execution)

theorem suspended_eq (recoded : Recoded thread thread') :
    thread'.suspended = thread.suspended := by
  cases recoded
  rfl

theorem waitingOn_eq (recoded : Recoded thread thread') :
    thread'.waitingOn = thread.waitingOn := by
  cases recoded
  rfl

theorem variables_eq (recoded : Recoded thread thread') :
    thread'.variables = thread.variables := by
  cases recoded
  rfl

/-- Both threads run, or neither does. -/
theorem isRunning_eq (recoded : Recoded thread thread') :
    thread'.isRunning = thread.isRunning := by
  obtain ⟨same⟩ := recoded
  rw [isRunning, isRunning, ← Option.not_isSome, ← Option.not_isSome, isSome_eq_of_rel same]

end Thread.Recoded

theorem Domain.Recoded.refl (domain : Domain ν) : Recoded domain domain :=
  .mk (.refl .refl _) (.refl .refl _)

theorem World.Recoded.refl (world : World ν) : Recoded world world := .mk (.refl _)

/-! ## Operations on domains -/

/-- Going on from the same result. -/
theorem Concurs.bind_same {ε γ δ : Type} {related : γ → δ → Prop} (result : Except ε α)
    {next : α → Except ε γ} {next' : α → Except ε δ}
    (goes : ∀ value, Concurs related (next value) (next' value)) :
    Concurs related (result >>= next) (result >>= next') := by
  cases result with
  | error reason => exact .error reason
  | ok value => exact goes value

/-- Results with something beside a domain, which is the same. -/
def Domain.RecodedWith (result : Domain ν × α) (result' : Domain ν × α) : Prop :=
  result.1.Recoded result'.1 ∧ result'.2 = result.2

namespace Domain.Recoded

variable {domain domain' : Domain ν} {thread thread' : Thread ν} {id : ThreadId}

theorem active_eq (recoded : Recoded domain domain') : domain'.active = domain.active := by
  cases recoded
  rfl

theorem limits_eq (recoded : Recoded domain domain') : domain'.limits = domain.limits := by
  cases recoded
  rfl

theorem globals_eq (recoded : Recoded domain domain') : domain'.globals = domain.globals := by
  cases recoded
  rfl

theorem specials_eq (recoded : Recoded domain domain') : domain'.specials = domain.specials := by
  cases recoded
  rfl

theorem objects_eq (recoded : Recoded domain domain') : domain'.objects = domain.objects := by
  cases recoded
  rfl

theorem functions_size_eq (recoded : Recoded domain domain') :
    domain'.functions.size = domain.functions.size := by
  obtain ⟨listed, created⟩ := recoded
  exact listed.size_eq

theorem limitHandler_eq (recoded : Recoded domain domain') :
    domain'.limitHandler = domain.limitHandler := by
  cases recoded
  rfl

theorem sink_eq (recoded : Recoded domain domain') : domain'.sink = domain.sink := by
  cases recoded
  rfl

theorem waiters_eq (recoded : Recoded domain domain') (queue : QueueId) :
    domain'.waiters queue = domain.waiters queue := by
  cases recoded
  rfl

/-- A function is looked up. -/
theorem function? (recoded : Recoded domain domain') (id : FunctionId) :
    Option.Rel Function.Recoded (domain.function? id) (domain'.function? id) := by
  obtain ⟨listed, created⟩ := recoded
  exact listed id.index

/-- A thread is looked up. -/
theorem thread_concurs (recoded : Recoded domain domain') (id : ThreadId) :
    Concurs Thread.Recoded (domain.thread id) (domain'.thread id) := by
  obtain ⟨listed, created⟩ := recoded
  have entry := created id.index
  unfold Domain.thread
  dsimp only
  generalize domain.threads[id.index]? = found at entry ⊢
  generalize (_ : Array (Thread ν))[id.index]? = found' at entry ⊢
  cases entry with
  | none => exact .error _
  | some same => exact .ok same

/-- A thread is replaced. -/
theorem setThread (recoded : Recoded domain domain') (id : ThreadId) (thread : Thread ν)
    {execution : Option (Execution ν)}
    (same : Option.Rel Execution.Recoded thread.execution execution) :
    Recoded (domain.setThread id thread)
      (domain'.setThread id { thread with execution }) := by
  obtain ⟨listed, created⟩ := recoded
  exact @mk _ (domain.setThread id thread) _ _ listed (created.set (.mk same) id.index)

/-- A change that leaves both tables alone. -/
theorem map (recoded : Recoded domain domain') (change : Domain ν → Domain ν)
    (functions : (change domain).functions = domain.functions)
    (threads : (change domain).threads = domain.threads)
    (commutes : ∀ functions threads, change { domain with functions, threads } =
      { change domain with functions, threads }) :
    Recoded (change domain) (change domain') := by
  obtain ⟨listed, created⟩ := recoded
  have moved := @mk _ (change domain) _ _ (functions ▸ listed) (threads ▸ created)
  rwa [← commutes] at moved

/-- The waiters of a queue are replaced. -/
theorem setWaiters (recoded : Recoded domain domain') (queue : QueueId)
    (waiters : List ThreadId) :
    Recoded (domain.setWaiters queue waiters) (domain'.setWaiters queue waiters) :=
  recoded.map (Domain.setWaiters · queue waiters) rfl rfl fun _ _ => rfl

/-- Another thread becomes active. -/
theorem setActive (recoded : Recoded domain domain') (active : Option ThreadId) :
    Recoded { domain with active } { domain' with active } :=
  recoded.map ({ · with active }) rfl rfl fun _ _ => rfl

/-- The globals are replaced. -/
theorem setGlobals (recoded : Recoded domain domain') (globals : Array Int32) :
    Recoded { domain with globals } { domain' with globals } :=
  recoded.map ({ · with globals }) rfl rfl fun _ _ => rfl

/-- The special variables are replaced. -/
theorem setSpecials (recoded : Recoded domain domain') (specials : Array Int32) :
    Recoded { domain with specials } { domain' with specials } :=
  recoded.map ({ · with specials }) rfl rfl fun _ _ => rfl

/-- A function is registered. -/
theorem addFunction (recoded : Recoded domain domain') {function function' : Function ν}
    (same : function.Recoded function') :
    Recoded { domain with functions := domain.functions.push function }
      { domain' with functions := domain'.functions.push function' } := by
  obtain ⟨listed, created⟩ := recoded
  exact @mk _ { domain with functions := domain.functions.push function } _ _
    (listed.push same) created

/-- A queue is created. -/
theorem createQueue (recoded : Recoded domain domain') :
    RecodedWith domain.createQueue domain'.createQueue := by
  obtain ⟨listed, created⟩ := recoded
  exact ⟨@mk _ domain.createQueue.1 _ _ listed created, rfl⟩

/-- A thread is created. -/
theorem createThread (recoded : Recoded domain domain') :
    RecodedWith domain.createThread domain'.createThread := by
  obtain ⟨listed, created⟩ := recoded
  exact ⟨@mk _ domain.createThread.1 _ _ listed (created.push (.refl _)),
    congrArg ThreadId.mk created.size_eq⟩

/-- A thread leaves a queue. -/
theorem unlink (recoded : Recoded domain domain') (queue : QueueId) (id : ThreadId) :
    Concurs Recoded (domain.unlink queue id) (domain'.unlink queue id) := by
  unfold Domain.unlink
  rw [recoded.waiters_eq]
  refine .bind_same _ fun waiters => ?_
  exact .ok (recoded.setWaiters _ _)

/-- Threads are put at the end of a queue. -/
theorem enqueue (recoded : Recoded domain domain') (queue : QueueId) (ids : List ThreadId) :
    Concurs Recoded
      (do
        let waiters ← domain.waiters queue
        return domain.setWaiters queue (waiters ++ ids))
      (do
        let waiters ← domain'.waiters queue
        return domain'.setWaiters queue (waiters ++ ids)) := by
  rw [recoded.waiters_eq]
  refine .bind_same _ fun waiters => ?_
  exact .ok (recoded.setWaiters _ _)

/-- A thread is parked. -/
theorem park (recoded : Recoded domain domain') (queue : QueueId) (id : ThreadId) :
    Concurs Recoded (domain.park queue id) (domain'.park queue id) := by
  refine .bind (recoded.thread_concurs id) ?_
  rintro thread _ ⟨same⟩
  have parked := recoded.setThread id { thread with
    waitingOn := some queue, hook := none, suspended := true } same
  dsimp only
  cases thread.waitingOn with
  | none => exact .bind (.ok parked) fun _ _ left => left.enqueue _ _
  | some previous => exact .bind (parked.unlink _ _) fun _ _ left => left.enqueue _ _

/-- Some threads record another queue. -/
theorem relink (recoded : Recoded domain domain') (queue : Option QueueId)
    (ids : List ThreadId) :
    Concurs Recoded (domain.relink queue ids) (domain'.relink queue ids) := by
  induction ids generalizing domain domain' with
  | nil => exact .ok recoded
  | cons id rest ih =>
    refine .bind (.bind (recoded.thread_concurs id) ?_) fun _ _ recoded => ih recoded
    rintro thread _ ⟨same⟩
    exact .ok (recoded.setThread id { thread with waitingOn := queue } same)

/-- The thread that waits longest is popped. -/
theorem popWaiter (recoded : Recoded domain domain') (queue : QueueId) :
    Concurs RecodedWith (domain.popWaiter queue) (domain'.popWaiter queue) := by
  unfold Domain.popWaiter
  rw [recoded.waiters_eq]
  refine .bind_same _ fun waiters => ?_
  cases waiters with
  | nil => exact .ok ⟨recoded, rfl⟩
  | cons head rest =>
    have popped := recoded.setWaiters queue rest
    refine .bind (popped.thread_concurs head) ?_
    rintro thread _ ⟨same⟩
    exact .ok ⟨popped.setThread head { thread with waitingOn := none } same, rfl⟩

/-- The thread that waits longest is moved to another queue. -/
theorem transferNext (recoded : Recoded domain domain') (source target : QueueId) :
    Concurs RecodedWith (domain.transferNext source target)
      (domain'.transferNext source target) := by
  unfold Domain.transferNext
  rw [recoded.waiters_eq]
  refine .bind_same _ fun waiters => ?_
  cases waiters with
  | nil => exact .ok ⟨recoded, rfl⟩
  | cons head rest =>
    dsimp only
    split
    · exact .ok ⟨recoded, rfl⟩
    · refine .bind ((recoded.setWaiters source rest).relink _ _) fun _ _ moved => ?_
      rw [moved.waiters_eq]
      refine .bind_same _ fun waiters => ?_
      exact .ok ⟨moved.setWaiters _ _, rfl⟩

/-- All threads of a queue are moved to another one. -/
theorem transferAll (recoded : Recoded domain domain') (source target : QueueId) :
    Concurs Recoded (domain.transferAll source target) (domain'.transferAll source target) := by
  unfold Domain.transferAll
  split
  · exact .ok recoded
  · rw [recoded.waiters_eq]
    refine .bind_same _ fun moved => ?_
    exact .bind ((recoded.setWaiters source []).relink _ _) fun _ _ left => left.enqueue _ _

/-- A queue is emptied. -/
theorem resetQueue (recoded : Recoded domain domain') (queue : QueueId) :
    Concurs Recoded (domain.resetQueue queue) (domain'.resetQueue queue) := by
  unfold Domain.resetQueue
  rw [recoded.waiters_eq]
  refine .bind_same _ fun removed => ?_
  exact (recoded.setWaiters queue []).relink _ _

/-- A thread is suspended. -/
theorem suspend (recoded : Recoded domain domain') (id : ThreadId)
    (hook : Option (AbortHook ν)) :
    Concurs Recoded (domain.suspend id hook) (domain'.suspend id hook) := by
  refine .bind (recoded.thread_concurs id) ?_
  rintro thread _ ⟨same⟩
  exact .ok (recoded.setThread id { thread with suspended := true, hook } same)

/-- A thread is detached. -/
theorem detach (recoded : Recoded domain domain') (id : ThreadId) :
    Concurs RecodedWith (domain.detach id) (domain'.detach id) := by
  refine .bind (recoded.thread_concurs id) ?_
  rintro thread _ ⟨same⟩
  have cleared := recoded.setThread id { thread with
    suspended := false, waitingOn := none, hook := none } same
  dsimp only
  cases thread.waitingOn with
  | none => exact .bind (.ok cleared) fun _ _ left => .ok ⟨left, rfl⟩
  | some queue => exact .bind (cleared.unlink _ _) fun _ _ left => .ok ⟨left, rfl⟩

/-- The frames of a thread are discarded, or it is asked to stop. -/
theorem discard (recoded : Recoded domain domain') (id : ThreadId) (reason : AbortReason) :
    Concurs Recoded (domain.discard id reason) (domain'.discard id reason) := by
  refine .bind (recoded.thread_concurs id) ?_
  rintro thread _ ⟨same⟩
  dsimp only
  generalize held : thread.execution = execution at same ⊢
  cases same with
  | none =>
    exact .ok (recoded.setThread id { thread with
      execution := none, pendingAbort := thread.pendingAbort <|> some reason } .none)
  | @some execution execution' same =>
    have bare : Execution.Recoded ⟨([] : List (Frame ν)), execution.stack⟩ ⟨[], execution'.stack⟩ :=
      ⟨.nil, same.stack⟩
    exact .ok (recoded.setThread id { thread with
      execution := some { execution with frames := [] } } (.some bare))

/-- A suspended thread is handed a result. -/
theorem supplyResult (recoded : Recoded domain domain') (id : ThreadId) (value : Int32) :
    Concurs (Concurs Recoded) (domain.supplyResult id value) (domain'.supplyResult id value) := by
  refine .bind (recoded.thread_concurs id) ?_
  rintro thread _ ⟨same⟩
  dsimp only
  split
  · exact .ok (.error _)
  · generalize held : thread.execution = execution at same ⊢
    cases same with
    | none => exact .ok (.error _)
    | @some execution execution' same =>
      obtain ⟨frames, stack⟩ := execution
      obtain ⟨frames', stack'⟩ := execution'
      obtain ⟨same, rfl⟩ := same
      cases same with
      | nil => exact .ok (.error _)
      | @cons frame frame' _ _ first rest =>
        dsimp only
        rw [List.head?_cons, List.head?_cons]
        dsimp only
        rw [first.isNone_pc_eq, first.top]
        split
        · exact .ok (.error _)
        · split
          · exact .ok (.ok (recoded.setThread id _ (.some ⟨.cons first rest, rfl⟩)))
          · exact .ok (.error _)

/-- A declaration is refused for the same reason, or for none. -/
theorem declarationRefusal_eq (recoded : Recoded domain domain') (count : Nat) :
    domain'.declarationRefusal count = domain.declarationRefusal count := by
  obtain ⟨listed, created⟩ := recoded
  simp only [declarationRefusal, created.size_eq]

/-- A global is declared. -/
theorem declareGlobal (recoded : Recoded domain domain') (value : Int32) :
    Concurs RecodedWith (domain.declareGlobal value) (domain'.declareGlobal value) := by
  unfold Domain.declareGlobal
  rw [recoded.declarationRefusal_eq, recoded.globals_eq]
  split
  · exact .error _
  · exact .ok ⟨recoded.setGlobals _, rfl⟩

/-- A special variable is declared. -/
theorem declareSpecial (recoded : Recoded domain domain') (value : Int32) :
    Concurs RecodedWith (domain.declareSpecial value) (domain'.declareSpecial value) := by
  unfold Domain.declareSpecial
  rw [recoded.declarationRefusal_eq, recoded.specials_eq]
  split
  · exact .error _
  · exact .ok ⟨recoded.setSpecials _, rfl⟩

/-- A variable of every thread is declared. -/
theorem declareThreadVariable (recoded : Recoded domain domain') :
    Concurs RecodedWith domain.declareThreadVariable domain'.declareThreadVariable := by
  obtain ⟨listed, created⟩ := recoded
  have recoded := @mk _ domain _ _ listed created
  unfold Domain.declareThreadVariable
  rw [recoded.declarationRefusal_eq]
  dsimp only
  split
  · exact .error _
  · exact .ok ⟨recoded.map (fun domain => { domain with
      threadVariables := domain.threadVariables + 1 }) rfl rfl fun _ _ => rfl, rfl⟩

/-- A global is written by the host. -/
theorem setGlobal (recoded : Recoded domain domain') (index : UInt8) (value : Int32) :
    Concurs Recoded (domain.setGlobal index value) (domain'.setGlobal index value) := by
  unfold Domain.setGlobal
  rw [recoded.globals_eq]
  refine .bind_same _ fun globals => ?_
  exact .ok (recoded.setGlobals _)

/-- A special variable is written. -/
theorem setSpecial (recoded : Recoded domain domain') (index : UInt8) (value : Int32) :
    Concurs Recoded (domain.setSpecial index value) (domain'.setSpecial index value) := by
  unfold Domain.setSpecial
  rw [recoded.specials_eq]
  refine .bind_same _ fun specials => ?_
  exact .ok (recoded.setSpecials _)

/-- A variable of a thread is written. -/
theorem setThreadVariable (recoded : Recoded domain domain') (id : ThreadId) (index : UInt8)
    (value : Int32) :
    Concurs (Concurs Recoded) (domain.setThreadVariable id index value)
      (domain'.setThreadVariable id index value) := by
  refine .bind (recoded.thread_concurs id) ?_
  rintro thread _ ⟨same⟩
  dsimp only
  cases writeVariable thread.variables index value with
  | error error => exact .ok (.error error)
  | ok values =>
    exact .ok (.ok (recoded.setThread id { thread with «variables» := values } same))

/-- A domain is cleared. -/
theorem clear (recoded : Recoded domain domain') : Concurs Recoded domain.clear domain'.clear := by
  unfold Domain.clear
  rw [recoded.active_eq, recoded.limits_eq, recoded.limitHandler_eq, recoded.sink_eq]
  split
  · exact .error _
  · exact .ok (.refl _)

end Domain.Recoded

end ScriptMachine

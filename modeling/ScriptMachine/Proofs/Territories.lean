import ScriptMachine.Proofs.Acceptance
import ScriptMachine.Proofs.Activations
import ScriptMachine.Proofs.Links

/-!
# Territories of threads

The scripts on a thread reach only some globals and some functions: its territory. Two domains are
alike in some threads and some globals if they record the same there and have the same constants.
What a thread does within its territory it does in the same way in every domain that is alike
there, and every domain stays alike elsewhere. Each change that a run makes to its domain keeps both
of this, which is stated of one relation between three domains.
-/

namespace ScriptMachine

variable {ν α β : Type}

/-- The global that an instruction reads or writes. -/
def Instruction.global? : Instruction → Option UInt8
  | .globalLoad index | .globalStore index => some index
  | _ => none

/-- Some globals, by their positions, and some functions. -/
structure Territory (ν : Type) where
  globals : Nat → Prop
  functions : Function ν → Prop

/-- The functions of the territory reach no other globals, and call no other functions. The callees
are looked up in the table. -/
structure Territory.Encloses (territory : Territory ν) (functions : Array (Function ν)) :
    Prop where
  globals : ∀ function, territory.functions function → ∀ pc instruction index,
    function.Reaches pc → (pc, instruction) ∈ function.code.instructions.instructions →
    instruction.global? = some index → territory.globals index.toNat
  callees : ∀ function, territory.functions function → ∀ pc result argc callee,
    function.Reaches pc →
    (pc, .script result argc callee) ∈ function.code.instructions.instructions →
    ∀ called, functions[callee.toNat]? = some called → territory.functions called

/-- The frames belong to functions of the territory. -/
def Territory.Executes (territory : Territory ν) (frames : List (Frame ν)) : Prop :=
  ∀ frame ∈ frames, territory.functions frame.function

/-! ## Effects -/

namespace Instruction

variable {instruction : Instruction} {reach reach' : Variables} {base sp : Nat}
  {stack : Array Int32}

/-- The effect of an instruction depends on no other global than the one that it names. -/
theorem effect_congr (named : ∀ index, instruction.global? = some index →
      reach'.globals[index.toNat]? = reach.globals[index.toNat]?)
    (globals : reach'.globals.size = reach.globals.size)
    (specials : reach'.specials = reach.specials) (thread : reach'.thread = reach.thread) :
    instruction.effect reach' base stack sp = instruction.effect reach base stack sp := by
  cases instruction with
  | globalLoad index => simp only [effect, Effect.pushVariable, named index rfl]
  | globalStore index => simp only [effect, globals]
  | specialLoad index => simp only [effect, specials]
  | threadLoad index => simp only [effect, thread]
  | ret result => cases result <;> rfl
  | _ => rfl

/-- A global that is written is the one that the instruction names. -/
theorem global?_of_writeGlobal {index : Nat} {value : Int32} {height : Nat}
    (writes : instruction.effect reach base stack sp = .writeGlobal index value height) :
    ∃ named, instruction.global? = some named ∧ named.toNat = index := by
  cases instruction with
  | globalStore named => grind [effect, global?, Effect.withTop]
  | branch test | longBranch test =>
    cases test <;> grind [effect, Effect.withTop, Effect.branchOn]
  | ret result => cases result <;> grind [effect, Effect.withTop]
  | _ => grind [effect, Effect.push, Effect.pushVariable, Effect.withTop]

end Instruction

namespace Domain

/-! ## Domains that are alike -/

/-- Two domains record the same in some threads and some globals, and have the same constants:
scripts change neither the specials, nor the table of functions, nor the limits, nor the numbers of
globals and queues. -/
structure Alike (threads : ThreadId → Prop) (globals : Nat → Prop) (first second : Domain ν) :
    Prop where
  thread : ∀ id, threads id → second.thread? id = first.thread? id
  value : ∀ index, globals index → second.globals[index]? = first.globals[index]?
  globals : second.globals.size = first.globals.size
  specials : second.specials = first.specials
  functions : second.functions = first.functions
  limits : second.limits = first.limits
  queues : second.queues.size = first.queues.size

/-- Two domains are alike in all threads and globals. -/
abbrev Same (first second : Domain ν) : Prop := Alike (fun _ => True) (fun _ => True) first second

namespace Alike

variable {threads threads' : ThreadId → Prop} {globals globals' : Nat → Prop}
  {first second third : Domain ν} {id : ThreadId} {index : Nat}

/-- A domain is like itself. -/
theorem refl (domain : Domain ν) : Alike threads globals domain domain :=
  ⟨fun _ _ => rfl, fun _ _ => rfl, rfl, rfl, rfl, rfl, rfl⟩

/-- Domains are alike in either order. -/
theorem symm (alike : Alike threads globals first second) : Alike threads globals second first :=
  ⟨fun id inside => (alike.thread id inside).symm,
    fun index inside => (alike.value index inside).symm, alike.globals.symm,
    alike.specials.symm, alike.functions.symm, alike.limits.symm, alike.queues.symm⟩

/-- Domains that are like the same domain are alike. -/
theorem trans (alike : Alike threads globals first second)
    (next : Alike threads globals second third) : Alike threads globals first third :=
  ⟨fun id inside => (next.thread id inside).trans (alike.thread id inside),
    fun index inside => (next.value index inside).trans (alike.value index inside),
    next.globals.trans alike.globals, next.specials.trans alike.specials,
    next.functions.trans alike.functions, next.limits.trans alike.limits,
    next.queues.trans alike.queues⟩

/-- Domains are alike in fewer threads and globals. -/
theorem mono (alike : Alike threads globals first second)
    (fewer : ∀ id, threads' id → threads id) (less : ∀ index, globals' index → globals index) :
    Alike threads' globals' first second :=
  { alike with
    thread := fun id inside => alike.thread id (fewer id inside)
    value := fun index inside => alike.value index (less index inside) }

/-- Domains are alike in all threads and globals that two parts cover in which they are alike. -/
theorem cover {threads'' : ThreadId → Prop} {globals'' : Nat → Prop}
    (alike : Alike threads globals first second) (alike' : Alike threads' globals' first second)
    (thread : ∀ id, threads'' id → threads id ∨ threads' id)
    (value : ∀ index, globals'' index → globals index ∨ globals' index) :
    Alike threads'' globals'' first second :=
  { alike with
    thread := fun id inside => (thread id inside).elim (alike.thread id) (alike'.thread id)
    value := fun index inside => (value index inside).elim (alike.value index)
      (alike'.value index) }

/-- Domains that are alike in a thread and some globals and everywhere else are alike in all. -/
theorem whole (own : Alike (· = id) globals first second)
    (others : Alike (· ≠ id) (fun index => ¬globals index) first second) : Same first second :=
  own.cover others (fun other _ => eq_or_ne other id) fun index _ => Classical.em (globals index)

/-- Domains that are alike in all stay so, if each changes only in a thread and some globals, and
they are alike there afterwards. -/
theorem whole_of_changes {first' second' : Domain ν} (same : Same first second)
    (changes : Alike (· ≠ id) (fun index => ¬globals index) first first')
    (changes' : Alike (· ≠ id) (fun index => ¬globals index) second second')
    (own : Alike (· = id) globals first' second') : Same first' second' := by
  have before : Alike (· ≠ id) (fun index => ¬globals index) first second :=
    same.mono (fun _ _ => trivial) fun _ _ => trivial
  exact own.whole ((changes.symm.trans before).trans changes')

/-- The same thread is replaced in both. -/
theorem setThread (alike : Alike threads globals first second) {old old' : Thread ν}
    (present : first.thread? id = some old) (present' : second.thread? id = some old')
    (thread : Thread ν) :
    Alike threads globals (first.setThread id thread) (second.setThread id thread) :=
  { alike with
    thread := fun other inside => by
      rw [thread?_setThread present, thread?_setThread present', alike.thread other inside] }

/-- Another thread is replaced in one. -/
theorem setThread_outside (alike : Alike threads globals first second) (outside : ¬threads id)
    {old : Thread ν} (present : second.thread? id = some old) (thread : Thread ν) :
    Alike threads globals first (second.setThread id thread) :=
  { alike with
    thread := fun other inside => by
      have apart : other ≠ id := fun same => outside (same ▸ inside)
      rw [thread?_setThread present, if_neg apart, alike.thread other inside] }

/-- The same global is written in both. -/
theorem setGlobal (alike : Alike threads globals first second) (value : Int32) :
    Alike threads globals { first with globals := first.globals.set! index value }
      { second with globals := second.globals.set! index value } :=
  { alike with
    value := fun other inside => by
      simp only [Array.set!_eq_setIfInBounds, Array.getElem?_setIfInBounds, alike.globals,
        alike.value other inside]
    globals := by simp [alike.globals] }

/-- Another global is written in one. -/
theorem setGlobal_outside (alike : Alike threads globals first second) (outside : ¬globals index)
    (value : Int32) :
    Alike threads globals first { second with globals := second.globals.set! index value } :=
  { alike with
    value := fun other inside => by
      have apart : index ≠ other := fun same => outside (same ▸ inside)
      simp only [Array.set!_eq_setIfInBounds, Array.getElem?_setIfInBounds, if_neg apart,
        alike.value other inside]
    globals := by simp [alike.globals] }

end Alike

/-! ## Changes by a thread -/

/-- The frames of the thread belong to functions of the territory, unless it runs. -/
def ExecutesWithin (domain : Domain ν) (territory : Territory ν) (id : ThreadId) : Prop :=
  ∀ thread execution, domain.thread? id = some thread → thread.execution = some execution →
    territory.Executes execution.frames

/-- Two domains are alike in a thread and its territory, and the second is like a third one
everywhere else. At most this thread is active, and its frames lie in the territory. -/
structure Couples (territory : Territory ν) (id : ThreadId) (rest first second : Domain ν) :
    Prop where
  own : Alike (· = id) territory.globals first second
  others : Alike (· ≠ id) (fun index => ¬territory.globals index) rest second
  active : second.active = first.active
  alone : ∀ other, first.active = some other → other = id
  frames : first.ExecutesWithin territory id

end Domain

/-- Two results are the same error, or values that correspond. -/
inductive Concurs {ε : Type} (related : α → β → Prop) : Except ε α → Except ε β → Prop where
  | error (reason : ε) : Concurs related (.error reason) (.error reason)
  | ok {value : α} {value' : β} (same : related value value') :
    Concurs related (.ok value) (.ok value')

/-- Going on from results that concur. -/
theorem Concurs.bind {ε γ δ : Type} {related : α → β → Prop} {related' : γ → δ → Prop}
    {result : Except ε α} {result' : Except ε β} {next : α → Except ε γ} {next' : β → Except ε δ}
    (concurs : Concurs related result result')
    (goes : ∀ value value', related value value' → Concurs related' (next value) (next' value')) :
    Concurs related' (result >>= next) (result' >>= next') := by
  cases concurs with
  | error reason => exact .error reason
  | ok same => exact goes _ _ same

namespace Domain.Couples

variable {territory : Territory ν} {id : ThreadId} {rest first second : Domain ν}

/-- The thread is the same in both domains. -/
theorem thread?_eq (couples : Couples territory id rest first second) :
    second.thread? id = first.thread? id := couples.own.thread id rfl

/-- Looking up the thread gives the same. -/
theorem thread_concurs (couples : Couples territory id rest first second) :
    Concurs (fun thread thread' => thread = thread' ∧ first.thread? id = some thread)
      (first.thread id) (second.thread id) := by
  have same := couples.thread?_eq
  unfold thread? at same ⊢
  unfold Domain.thread
  rw [same]
  cases first.threads[id.index]? with
  | none => exact .error _
  | some thread => exact .ok ⟨rfl, rfl⟩

/-- Looking up a function gives the same. -/
theorem function?_eq (couples : Couples territory id rest first second) (called : FunctionId) :
    second.function? called = first.function? called := by
  simp only [function?, couples.own.functions]

/-- The thread that is active is replaced. -/
theorem setActive (couples : Couples territory id rest first second) (active : Option ThreadId)
    (alone : ∀ other, active = some other → other = id) :
    Couples territory id rest { first with active } { second with active } :=
  ⟨{ couples.own with }, { couples.others with }, rfl, alone, couples.frames⟩

/-- The thread is replaced, with frames of the territory unless it runs. -/
theorem setThread (couples : Couples territory id rest first second) {old : Thread ν}
    (present : first.thread? id = some old) (thread : Thread ν)
    (frames : ∀ execution, thread.execution = some execution →
      territory.Executes execution.frames) :
    Couples territory id rest (first.setThread id thread) (second.setThread id thread) where
  own := couples.own.setThread present (couples.thread?_eq.trans present) thread
  others := couples.others.setThread_outside (by simp) (couples.thread?_eq.trans present) thread
  active := couples.active
  alone := couples.alone
  frames := by
    intro after execution known held
    rw [thread?_setThread present, if_pos rfl] at known
    cases known
    exact frames execution held

/-- A global of the territory is written. -/
theorem setGlobal (couples : Couples territory id rest first second) {index : Nat}
    (inside : territory.globals index) (value : Int32) :
    Couples territory id rest { first with globals := first.globals.set! index value }
      { second with globals := second.globals.set! index value } where
  own := couples.own.setGlobal value
  others := couples.others.setGlobal_outside (by simpa using inside) value
  active := couples.active
  alone := couples.alone
  frames := couples.frames

/-- The waiters of a queue are replaced, which scripts do not see. -/
theorem setWaiters (couples : Couples territory id rest first second) (queue : QueueId)
    (waiters waiters' : List ThreadId) :
    Couples territory id rest (first.setWaiters queue waiters)
      (second.setWaiters queue waiters') where
  own := { couples.own with
    queues := by rw [queues_size_setWaiters, queues_size_setWaiters, couples.own.queues] }
  others := { couples.others with queues := by rw [queues_size_setWaiters, couples.others.queues] }
  active := couples.active
  alone := couples.alone
  frames := couples.frames

/-- The thread is taken out of a queue. -/
theorem unlink (couples : Couples territory id rest first second) (queue : QueueId) :
    Concurs (Couples territory id rest) (first.unlink queue id) (second.unlink queue id) := by
  unfold Domain.unlink Domain.waiters
  rcases Nat.lt_or_ge queue.index first.queues.size with inside | outside
  · rw [Array.getElem?_eq_getElem inside,
      Array.getElem?_eq_getElem (couples.own.queues ▸ inside)]
    exact .ok (couples.setWaiters _ _ _)
  · rw [Array.getElem?_eq_none outside,
      Array.getElem?_eq_none (couples.own.queues ▸ outside)]
    exact .error _

/-- The thread is detached, and the same hook is due. -/
theorem detach (couples : Couples territory id rest first second) :
    Concurs (fun before after => before.2 = after.2 ∧
      Couples territory id rest before.1 after.1) (first.detach id) (second.detach id) := by
  refine couples.thread_concurs.bind fun thread _ ⟨same, present⟩ => ?_
  subst same
  have replaced := couples.setThread present
    { thread with suspended := false, waitingOn := none, hook := none }
    (couples.frames thread · present)
  cases thread.waitingOn with
  | none => exact .ok ⟨rfl, replaced⟩
  | some queue => exact (replaced.unlink queue).bind fun _ _ unlinked => .ok ⟨rfl, unlinked⟩

/-- The frames of the thread are discarded, or a request to stop is recorded. -/
theorem discard (couples : Couples territory id rest first second) (reason : AbortReason) :
    Concurs (Couples territory id rest) (first.discard id reason) (second.discard id reason) := by
  refine couples.thread_concurs.bind fun thread _ ⟨same, present⟩ => ?_
  subst same
  cases held : thread.execution with
  | some execution =>
    refine .ok (couples.setThread present _ fun after kept => ?_)
    cases kept
    exact fun frame listed => absurd listed List.not_mem_nil
  | none =>
    refine .ok (couples.setThread present _ fun after kept => ?_)
    cases kept

/-- The thread is suspended. -/
theorem suspend (couples : Couples territory id rest first second)
    (hook : Option (AbortHook ν)) :
    Concurs (Couples territory id rest) (first.suspend id hook) (second.suspend id hook) := by
  refine couples.thread_concurs.bind fun thread _ ⟨same, present⟩ => ?_
  subst same
  exact .ok (couples.setThread present _ (couples.frames thread · present))

/-- A result is handed to the thread, or refused in both domains. -/
theorem supplyResult (couples : Couples territory id rest first second) (value : Int32) :
    Concurs (Concurs (Couples territory id rest)) (first.supplyResult id value)
      (second.supplyResult id value) := by
  refine couples.thread_concurs.bind fun thread _ ⟨same, present⟩ => ?_
  subst same
  have refused (error : ThreadError) :
      @Concurs _ _ Fault (Concurs (Couples territory id rest)) (.ok (.error error))
        (.ok (.error error)) := .ok (.error error)
  split
  · exact refused _
  · split
    · rename_i execution held
      split
      · rename_i frame _
        split
        · exact refused _
        · split
          · refine .ok (.ok (couples.setThread present _ fun after kept => ?_))
            cases kept
            exact couples.frames thread execution present held
          · exact refused _
      · exact refused _
    · exact refused _

end Domain.Couples

/-! ## Updates -/

/-- Two updates have the same answer, and leave domains that are alike as far as the thread and its
territory go. -/
def Update.Couples (territory : Territory ν) (id : ThreadId) (rest : Domain ν)
    (first second : World ν × Answer ν) : Prop :=
  first.2 = second.2 ∧ Domain.Couples territory id rest first.1.domain second.1.domain

section

variable {territory : Territory ν} {id : ThreadId} {rest : Domain ν} {world world' : World ν}

/-- The result that the thread awaits is supplied, or refused. -/
theorem Domain.Couples.applySupply
    (couples : Domain.Couples territory id rest world.domain world'.domain) (value : Int32) :
    Concurs (Update.Couples territory id rest) ((Update.supplyResult id value).apply world)
      ((Update.supplyResult id value).apply world') := by
  refine (couples.supplyResult value).bind fun result result' concurs => ?_
  cases concurs with
  | error error => exact .ok ⟨rfl, couples⟩
  | ok supplied => exact .ok ⟨rfl, supplied⟩

/-- The active thread, which can only be this one, is suspended. -/
theorem Domain.Couples.applySuspend
    (couples : Domain.Couples territory id rest world.domain world'.domain)
    (hook : Option (AbortHook ν)) :
    Concurs (Update.Couples territory id rest) ((Update.suspendActive hook).apply world)
      ((Update.suspendActive hook).apply world') := by
  unfold Update.apply
  rw [couples.active]
  cases active : world.domain.active with
  | none => exact .ok ⟨rfl, couples⟩
  | some running =>
    obtain rfl := couples.alone running active
    exact (couples.suspend hook).bind fun _ _ suspended => .ok ⟨rfl, suspended⟩

end

end ScriptMachine

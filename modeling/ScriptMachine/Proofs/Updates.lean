import ScriptMachine.Proofs.Tables
import ScriptMachine.Request

/-!
# What comes of an update

An update that is carried out finds nothing to do, or makes the one change that is listed here for
it and answers accordingly. Whatever updates keep is shown change by change, so nothing else has to
look into `Update.apply`.
-/

namespace ScriptMachine

variable {ν : Type}

namespace Update

/-- An update that is refused or finds nothing to do. -/
def Idles (world : World ν) : Update ν → Prop
  | .declareGlobal value => ∃ error, world.domain.declareGlobal value = .error error
  | .declareSpecial value => ∃ error, world.domain.declareSpecial value = .error error
  | .declareThreadVariable => ∃ error, world.domain.declareThreadVariable = .error error
  | .setGlobal index value => ∃ error, world.domain.setGlobal index value = .error error
  | .setSpecial index value => ∃ error, world.domain.setSpecial index value = .error error
  | .setThreadVariable id index value =>
    ∃ error, world.domain.setThreadVariable id index value = .ok (.error error)
  | .clear => world.domain.active.isSome
  | .register index => ∀ object, world.natives[index]? = some object → object.owned = false
  | .supplyResult id value => ∃ error, world.domain.supplyResult id value = .ok (.error error)
  | .suspendActive _ => world.domain.active = none
  | .sleepActive _ ticks => world.domain.active = none ∨ ticks ≤ 0
  | .takeDue now below => world.sleepers.takeDue now below = none
  | .hold parameters values => ∃ error, world.arguments parameters values = .error error
  | .borrow index => ∀ object, world.natives[index]? = some object → object.borrowed = true
  | _ => False

/-- The world and the answer that an update yields. -/
inductive Yields (world : World ν) : Update ν → World ν → Answer ν → Prop where
  | nothing {update : Update ν} {answer : Answer ν} (idle : update.Idles world) :
    Yields world update world answer
  | declareGlobal (value : Int32) (unsealed : world.domain.threads.size = 0)
    (room : world.domain.globals.size < variableLimit) :
    Yields world (.declareGlobal value)
      { world with domain := { world.domain with globals := world.domain.globals.push value } }
      (.index world.domain.globals.size)
  | declareSpecial (value : Int32) (unsealed : world.domain.threads.size = 0)
    (room : world.domain.specials.size < variableLimit) :
    Yields world (.declareSpecial value)
      { world with domain := { world.domain with specials := world.domain.specials.push value } }
      (.index world.domain.specials.size)
  | declareThreadVariable (unsealed : world.domain.threads.size = 0)
    (room : world.domain.threadVariables < variableLimit) :
    Yields world .declareThreadVariable
      { world with domain := { world.domain with
        threadVariables := world.domain.threadVariables + 1 } }
      (.index world.domain.threadVariables)
  | setGlobal {index : UInt8} {value : Int32} {globals : Array Int32}
    (written : Domain.writeVariable world.domain.globals index value = .ok globals) :
    Yields world (.setGlobal index value)
      { world with domain := { world.domain with globals } } .done
  | setSpecial {index : UInt8} {value : Int32} {specials : Array Int32}
    (written : Domain.writeVariable world.domain.specials index value = .ok specials) :
    Yields world (.setSpecial index value)
      { world with domain := { world.domain with specials } } .done
  | setThreadVariable {id : ThreadId} {index : UInt8} {value : Int32} {thread : Thread ν}
    {values : Array Int32} (present : world.domain.thread? id = some thread)
    (written : Domain.writeVariable thread.variables index value = .ok values) :
    Yields world (.setThreadVariable id index value)
      { world with domain := world.domain.setThread id { thread with «variables» := values } }
      .done
  | setLimits (limits : Limits) :
    Yields world (.setLimits limits) { world with domain := { world.domain with limits } } .done
  | setLimitHandler (limitHandler : Option ν) :
    Yields world (.setLimitHandler limitHandler)
      { world with domain := { world.domain with limitHandler } } .done
  | setSink (sink : Option (Sink ν)) :
    Yields world (.setSink sink) { world with domain := { world.domain with sink } }
      (.flag world.domain.sink.isSome)
  | clear {domain : Domain ν} (done : world.domain.clear = .ok domain) :
    Yields world .clear { world with domain } .done
  | addFunction (function : Function ν) :
    Yields world (.addFunction function)
      { world with domain := { world.domain with
        functions := world.domain.functions.push function } }
      (.index world.domain.functions.size)
  | addText (text : String) :
    Yields world (.addText text)
      { world with domain := { world.domain with
        objects := world.domain.objects.push (.text text) } }
      (.index world.domain.objects.size)
  | createNative (type : NativeType) :
    Yields world (.createNative type)
      { world with natives := world.natives.push { type } } (.index world.natives.size)
  | register {index : Nat} {object : NativeObject} (known : world.natives[index]? = some object)
    (owned : object.owned = true) :
    Yields world (.register index)
      { world with domain := { world.domain with
        objects := world.domain.objects.push (.native index) } }
      (.index world.domain.objects.size)
  | release (index : Nat) (owned : Bool) :
    Yields world (.release index)
      (world.modifyNative index fun object => { object with owned := false }) (.flag owned)
  | createThread :
    Yields world .createThread { world with domain := world.domain.createThread.1 }
      (.index world.domain.createThread.2.index)
  | createQueue :
    Yields world .createQueue { world with domain := world.domain.createQueue.1 }
      (.index world.domain.createQueue.2.index)
  | supplyResult {id : ThreadId} {value : Int32} {domain : Domain ν}
    (done : world.domain.supplyResult id value = .ok (.ok domain)) :
    Yields world (.supplyResult id value) { world with domain } .done
  | suspend {id : ThreadId} {hook : Option (AbortHook ν)} {domain : Domain ν}
    (done : world.domain.suspend id hook = .ok domain) :
    Yields world (.suspend id hook) { world with domain } .done
  | suspendActive {id : ThreadId} {hook : Option (AbortHook ν)} {domain : Domain ν}
    (active : world.domain.active = some id) (done : world.domain.suspend id hook = .ok domain) :
    Yields world (.suspendActive hook) { world with domain } (.thread id)
  | park {queue : QueueId} {id : ThreadId} {domain : Domain ν}
    (done : world.domain.park queue id = .ok domain) :
    Yields world (.park queue id) { world with domain } .done
  | popWaiter {queue : QueueId} {domain : Domain ν} {popped : Option ThreadId}
    (done : world.domain.popWaiter queue = .ok (domain, popped)) :
    Yields world (.popWaiter queue) { world with domain } (.thread popped)
  | transferNext {source target : QueueId} {domain : Domain ν} {moved : Option ThreadId}
    (done : world.domain.transferNext source target = .ok (domain, moved)) :
    Yields world (.transferNext source target) { world with domain } (.thread moved)
  | transferAll {source target : QueueId} {domain : Domain ν}
    (done : world.domain.transferAll source target = .ok domain) :
    Yields world (.transferAll source target) { world with domain } .done
  | resetQueue {queue : QueueId} {domain : Domain ν}
    (done : world.domain.resetQueue queue = .ok domain) :
    Yields world (.resetQueue queue) { world with domain } .done
  | sleepActive {now : Nat} {ticks : Int32} {id : ThreadId} {domain : Domain ν}
    (active : world.domain.active = some id) (positive : 0 < ticks)
    (done : world.domain.suspend id (some .leaveSleep) = .ok domain) :
    Yields world (.sleepActive now ticks)
      { world with domain, sleepers := world.sleepers.add id now ticks.toNatClampNeg } (.flag true)
  | takeDue {now below : Nat} {id : ThreadId} {sleepers : Sleepers}
    (taken : world.sleepers.takeDue now below = some (id, sleepers)) :
    Yields world (.takeDue now below) { world with sleepers } (.thread id)
  | clearSleepers :
    Yields world .clearSleepers { world with sleepers := world.sleepers.clear } .done
  | hold {parameters : List Parameter} {values : List Int32} {arguments : List Argument}
    (resolved : world.arguments parameters values = .ok arguments) :
    Yields world (.hold parameters values) (world.hold arguments) (.resolved arguments)
  | unhold (arguments : List Argument) :
    Yields world (.unhold arguments) (world.unhold arguments) .done
  | borrow {index : Nat} {object : NativeObject} (known : world.natives[index]? = some object)
    (free : object.borrowed = false) :
    Yields world (.borrow index)
      (world.modifyNative index fun object => { object with borrowed := true }) (.flag true)
  | unborrow (index : Nat) :
    Yields world (.unborrow index)
      (world.modifyNative index fun object => { object with borrowed := false }) .done

variable {world after : World ν} {update : Update ν} {answer : Answer ν}

/-! ## Families of updates -/

/-- What an update is about. -/
inductive Family where
  /-- The variables of a domain and of its threads. -/
  | memory
  | settings
  /-- The tables of a domain, to which entries are added. -/
  | tables
  | suspensions
  | queues
  | sleepers
  | natives

/-- What an update is about. -/
def family : Update ν → Family
  | .declareGlobal _ | .declareSpecial _ | .declareThreadVariable => .memory
  | .setGlobal .. | .setSpecial .. | .setThreadVariable .. => .memory
  | .setLimits _ | .setLimitHandler _ | .setSink _ | .clear => .settings
  | .addFunction _ | .addText _ | .createThread | .createQueue => .tables
  | .supplyResult .. | .suspend .. | .suspendActive _ => .suspensions
  | .park .. | .popWaiter _ | .transferNext .. | .transferAll .. | .resetQueue _ => .queues
  | .sleepActive .. | .takeDue .. | .clearSleepers => .sleepers
  | .createNative _ | .register _ | .release _ => .natives
  | .hold .. | .unhold _ | .borrow _ | .unborrow _ => .natives

/-! ## What comes of each family -/

/-- A declaration is refused, or made while there are no threads and there is room. -/
theorem declaration_cases {declared : Domain ν} {count : Nat}
    {result : Except DomainError (Domain ν × Nat)}
    (form : result = match world.domain.declarationRefusal count with
      | some error => .error error
      | none => .ok (declared, count))
    (done : ofDeclaration world result = (after, answer)) :
    (after = world ∧ ∃ error, result = .error error) ∨
      (world.domain.threads.size = 0 ∧ count < variableLimit ∧
        after = { world with domain := declared } ∧ answer = .index count) := by
  cases refused : world.domain.declarationRefusal count with
  | some error =>
    rw [refused] at form
    subst form
    cases done
    exact .inl ⟨rfl, error, rfl⟩
  | none =>
    rw [refused] at form
    subst form
    cases done
    unfold Domain.declarationRefusal at refused
    split at refused
    · cases refused
    · split at refused
      · cases refused
      · exact .inr ⟨by omega, by omega, rfl, rfl⟩

/-- A change of the domain is refused, or becomes part of the world. -/
theorem ofDomain_cases {result : Except DomainError (Domain ν)}
    (done : ofDomain world result = (after, answer)) :
    (after = world ∧ ∃ error, result = .error error) ∨
      ∃ domain, result = .ok domain ∧ after = { world with domain } ∧ answer = .done := by
  cases result with
  | error error =>
    cases done
    exact .inl ⟨rfl, error, rfl⟩
  | ok domain =>
    cases done
    exact .inr ⟨domain, rfl, rfl, rfl⟩

theorem yields_of_memory (member : update.family = .memory)
    (done : update.apply world = .ok (after, answer)) : update.Yields world after answer := by
  cases update with
  | declareGlobal value =>
    obtain ⟨rfl, refused⟩ | ⟨unsealed, room, rfl, rfl⟩ :=
      declaration_cases rfl (Except.ok.inj done)
    · exact .nothing refused
    · exact .declareGlobal value unsealed room
  | declareSpecial value =>
    obtain ⟨rfl, refused⟩ | ⟨unsealed, room, rfl, rfl⟩ :=
      declaration_cases rfl (Except.ok.inj done)
    · exact .nothing refused
    · exact .declareSpecial value unsealed room
  | declareThreadVariable =>
    obtain ⟨rfl, refused⟩ | ⟨unsealed, room, rfl, rfl⟩ :=
      declaration_cases rfl (Except.ok.inj done)
    · exact .nothing refused
    · exact .declareThreadVariable unsealed room
  | setGlobal index value =>
    obtain ⟨rfl, refused⟩ | ⟨domain, found, rfl, rfl⟩ := ofDomain_cases (Except.ok.inj done)
    · exact .nothing refused
    · obtain ⟨globals, written, same⟩ := bind_eq_ok.1 found
      cases same
      exact .setGlobal written
  | setSpecial index value =>
    obtain ⟨rfl, refused⟩ | ⟨domain, found, rfl, rfl⟩ := ofDomain_cases (Except.ok.inj done)
    · exact .nothing refused
    · obtain ⟨specials, written, same⟩ := bind_eq_ok.1 found
      cases same
      exact .setSpecial written
  | setThreadVariable id index value =>
    obtain ⟨result, looked, rest⟩ := bind_eq_ok.1 done
    obtain ⟨rfl, error, rfl⟩ | ⟨domain, rfl, rfl, rfl⟩ := ofDomain_cases (Except.ok.inj rest)
    · exact .nothing ⟨error, looked⟩
    · obtain ⟨thread, known, made⟩ := bind_eq_ok.1 looked
      cases written : Domain.writeVariable thread.variables index value with
      | error error =>
        rw [written] at made
        cases made
      | ok values =>
        rw [written] at made
        cases made
        exact .setThreadVariable (Domain.thread_eq_ok.1 known) written
  | _ => cases member

theorem yields_of_settings (member : update.family = .settings)
    (done : update.apply world = .ok (after, answer)) : update.Yields world after answer := by
  cases update with
  | clear =>
    obtain ⟨rfl, error, refused⟩ | ⟨domain, found, rfl, rfl⟩ :=
      ofDomain_cases (Except.ok.inj done)
    · refine .nothing ?_
      unfold Domain.clear at refused
      split at refused
      · assumption
      · cases refused
    · exact .clear found
  | setLimits limits | setLimitHandler handler | setSink sink =>
    cases done
    constructor
  | _ => cases member

theorem yields_of_tables (member : update.family = .tables)
    (done : update.apply world = .ok (after, answer)) : update.Yields world after answer := by
  cases update with
  | addFunction function | addText text | createThread | createQueue =>
    cases done
    constructor
  | _ => cases member

theorem yields_of_suspensions (member : update.family = .suspensions)
    (done : update.apply world = .ok (after, answer)) : update.Yields world after answer := by
  cases update with
  | supplyResult id value =>
    obtain ⟨result, found, rest⟩ := bind_eq_ok.1 done
    cases result with
    | error error =>
      cases rest
      exact .nothing ⟨error, found⟩
    | ok domain =>
      cases rest
      exact .supplyResult found
  | suspend id hook =>
    obtain ⟨domain, found, same⟩ := bind_eq_ok.1 done
    cases same
    exact .suspend found
  | suspendActive hook =>
    simp only [apply] at done
    split at done
    · cases done
      exact .nothing ‹_›
    · rename_i id active
      obtain ⟨domain, found, same⟩ := bind_eq_ok.1 done
      cases same
      exact .suspendActive active found
  | _ => cases member

theorem yields_of_queues (member : update.family = .queues)
    (done : update.apply world = .ok (after, answer)) : update.Yields world after answer := by
  cases update with
  | park queue id =>
    obtain ⟨domain, found, same⟩ := bind_eq_ok.1 done
    cases same
    exact .park found
  | popWaiter queue =>
    obtain ⟨⟨domain, popped⟩, found, same⟩ := bind_eq_ok.1 done
    cases same
    exact .popWaiter found
  | transferNext source target =>
    obtain ⟨⟨domain, moved⟩, found, same⟩ := bind_eq_ok.1 done
    cases same
    exact .transferNext found
  | transferAll source target =>
    obtain ⟨domain, found, same⟩ := bind_eq_ok.1 done
    cases same
    exact .transferAll found
  | resetQueue queue =>
    obtain ⟨domain, found, same⟩ := bind_eq_ok.1 done
    cases same
    exact .resetQueue found
  | _ => cases member

theorem yields_of_sleepers (member : update.family = .sleepers)
    (done : update.apply world = .ok (after, answer)) : update.Yields world after answer := by
  cases update with
  | sleepActive now ticks =>
    simp only [apply] at done
    split at done
    · cases done
      exact .nothing (.inl ‹_›)
    · rename_i id active
      split at done
      · cases done
        exact .nothing (.inr ‹_›)
      · rename_i positive
        obtain ⟨domain, found, same⟩ := bind_eq_ok.1 done
        cases same
        exact .sleepActive active (Int32.not_le.1 positive) found
  | takeDue now below =>
    simp only [apply] at done
    split at done <;> cases done
    · exact .nothing ‹_›
    · exact .takeDue ‹_›
  | clearSleepers =>
    cases done
    exact .clearSleepers
  | _ => cases member

theorem yields_of_natives (member : update.family = .natives)
    (done : update.apply world = .ok (after, answer)) : update.Yields world after answer := by
  cases update with
  | register index =>
    simp only [apply] at done
    split at done
    · rename_i missing
      cases done
      exact .nothing (by simp [Idles, missing])
    · rename_i object known
      split at done <;> rename_i owned <;> cases done
      · exact .register known owned
      · exact .nothing (by simpa [Idles, known] using owned)
  | hold parameters values =>
    simp only [apply] at done
    split at done <;> cases done
    · exact .nothing ⟨_, ‹_›⟩
    · exact .hold ‹_›
  | borrow index =>
    simp only [apply] at done
    split at done
    · rename_i missing
      cases done
      exact .nothing (by simp [Idles, missing])
    · rename_i object known
      split at done <;> rename_i borrowed <;> cases done
      · exact .nothing (by simpa [Idles, known] using borrowed)
      · exact .borrow known (Bool.eq_false_iff.2 borrowed)
  | createNative type | release index | unhold arguments | unborrow index =>
    cases done
    constructor
  | _ => cases member

/-- What an update that is carried out comes to. -/
theorem yields_of_apply (done : update.apply world = .ok (after, answer)) :
    update.Yields world after answer := by
  cases family : update.family with
  | memory => exact yields_of_memory family done
  | settings => exact yields_of_settings family done
  | tables => exact yields_of_tables family done
  | suspensions => exact yields_of_suspensions family done
  | queues => exact yields_of_queues family done
  | sleepers => exact yields_of_sleepers family done
  | natives => exact yields_of_natives family done

end Update

end ScriptMachine

import ScriptMachine.Proofs.Recoding
import ScriptMachine.Proofs.Updates

/-!
# Programs that do not look at offsets

The host can see how its domain is encoded: in the functions and the threads that it looks at, and
in the offset at which a run was aborted. A program is indifferent to that if it goes on alike with
answers of which one is the other one recoded. Every update answers alike, and leaves worlds of
which one is the other one recoded.
-/

namespace ScriptMachine

variable {ν σ α : Type}

/-! ## Requests and answers -/

/-- Two runs ended alike. If they were aborted, this was in functions of the same name and for the
same reason. -/
inductive Outcome.Recoded : Outcome → Outcome → Prop where
  | completed : Recoded .completed .completed
  | suspended : Recoded .suspended .suspended
  | aborted (function : String) (pc pc' : Nat) (reason : AbortReason) :
    Recoded (.aborted ⟨function, pc, reason⟩) (.aborted ⟨function, pc', reason⟩)

/-- Two answers are the same, but for what they tell of encodings. -/
inductive Answer.Recoded : Answer ν → Answer ν → Prop where
  | same (answer : Answer ν) : Recoded answer answer
  | ran {outcome outcome' : Outcome} (alike : outcome.Recoded outcome') :
    Recoded (.ran outcome) (.ran outcome')
  | returned {outcome outcome' : Outcome} (alike : outcome.Recoded outcome') (value : Int32) :
    Recoded (.returned outcome value) (.returned outcome' value)
  | woke (thread : ThreadId) {outcome outcome' : Outcome} (alike : outcome.Recoded outcome') :
    Recoded (.woke (some (thread, outcome))) (.woke (some (thread, outcome')))
  | seen {world world' : World ν} (recoded : world.Recoded world') :
    Recoded (.seen world) (.seen world')

/-- Two requests are the same, but for the encoding of a function that they register. -/
inductive Request.Recoded : Request ν → Request ν → Prop where
  | same (request : Request ν) : Recoded request request
  | addFunction {function function' : Function ν} (recoded : function.Recoded function') :
    Recoded (.update (.addFunction function)) (.update (.addFunction function'))

/-- What the starter of a run is told is alike if the runs ended alike. -/
theorem Purpose.answer_recoded (purpose : Purpose) (thread : ThreadId) {outcome outcome' : Outcome}
    (alike : outcome.Recoded outcome') (stack : Array Int32) :
    (purpose.answer thread outcome stack : Answer ν).Recoded
      (purpose.answer thread outcome' stack) := by
  cases purpose with
  | plain => exact .ran alike
  | result => exact .returned alike _
  | woken => exact .woke thread alike

/-! ## Programs -/

/-- Two programs make requests that are alike, and go on alike with answers that are alike. They
change host states that are related to such states. -/
inductive Program.Recoded (related : σ → σ → Prop) : Program ν σ α → Program ν σ α → Prop where
  | done (result : α) : Recoded related (.done result) (.done result)
  | ask {request request' : Request ν} {next next' : Answer ν → Program ν σ α}
    (alike : request.Recoded request')
    (goes : ∀ answer answer', answer.Recoded answer' →
      Recoded related (next answer) (next' answer')) :
    Recoded related (.ask request next) (.ask request' next')
  | modify {change change' : σ → σ} {next next' : σ → Program ν σ α}
    (keeps : ∀ state state', related state state' → related (change state) (change' state'))
    (goes : ∀ state state', related state state' → Recoded related (next state) (next' state')) :
    Recoded related (.modify change next) (.modify change' next')
  | crash (fault : Fault) : Recoded related (.crash fault) (.crash fault)

/-- Bodies go on alike with answers that are alike. -/
def Body.Replies (related : σ → σ → Prop) (next next' : Answer ν → Body ν σ) : Prop :=
  ∀ answer answer', answer.Recoded answer' → Program.Recoded related (next answer) (next' answer')

/-- Two events are the same, but for encodings and offsets. -/
inductive Event.Recoded : Event ν → Event ν → Prop where
  | runStart (thread : ThreadId) {function function' : Function ν}
    (recoded : function.Recoded function') (depth : Nat) :
    Recoded (.runStart thread function depth) (.runStart thread function' depth)
  | instruction (thread : ThreadId) {function function' : Function ν}
    (recoded : function.Recoded function') (pc pc' next next' : Nat)
    {instruction instruction' : Instruction}
    (widened : instruction'.widened = instruction.widened) :
    Recoded (.instruction thread function pc next instruction.opcode)
      (.instruction thread function' pc' next' instruction'.opcode)
  | scopeEnter (scope : Scope) {function function' : Function ν}
    (recoded : function.Recoded function') (pc pc' : Nat) :
    Recoded (.scopeEnter scope function pc) (.scopeEnter scope function' pc')
  | scopeExit (scope : Scope) {function function' : Function ν}
    (recoded : function.Recoded function') (pc pc' : Nat) :
    Recoded (.scopeExit scope function pc) (.scopeExit scope function' pc')
  | suspend (thread : ThreadId) {function function' : Function ν}
    (recoded : function.Recoded function') (pc pc' : Nat) :
    Recoded (.suspend thread function pc) (.suspend thread function' pc')
  | runEnd (thread : ThreadId) {outcome outcome' : Outcome} (alike : outcome.Recoded outcome') :
    Recoded (.runEnd thread outcome) (.runEnd thread outcome')

/-- Events that are alike are of the same kind. -/
theorem Event.Recoded.kind_eq {event event' : Event ν} (recoded : event.Recoded event') :
    event'.kind = event.kind := by
  cases recoded <;> rfl

/-- The host makes no difference between encodings: its callbacks go on alike with answers that are
alike, and related states stay related. -/
structure Host.Indifferent (related : σ → σ → Prop) (host : Host ν σ) : Prop where
  native : ∀ method arguments,
    Program.Recoded related (host.native method arguments) (host.native method arguments)
  onAbort : ∀ hook id, Program.Recoded related (host.onAbort hook id) (host.onAbort hook id)
  onLimit : ∀ handler name state state', related state state' →
    related (host.onLimit handler name state) (host.onLimit handler name state')
  onEvent : ∀ sink (event event' : Event ν) state state', event.Recoded event' →
    related state state' → related (host.onEvent sink event state) (host.onEvent sink event' state')

/-! ## Updates -/

namespace World.Recoded

variable {world world' : World ν}

theorem domain (recoded : Recoded world world') : world.domain.Recoded world'.domain := by
  obtain ⟨same⟩ := recoded
  exact same

theorem sleepers_eq (recoded : Recoded world world') : world'.sleepers = world.sleepers := by
  cases recoded
  rfl

theorem natives_eq (recoded : Recoded world world') : world'.natives = world.natives := by
  cases recoded
  rfl

/-- The domains are changed. -/
theorem setDomain (recoded : Recoded world world') {domain domain' : Domain ν}
    (same : domain.Recoded domain') :
    Recoded { world with domain } { world' with domain := domain' } := by
  obtain ⟨_⟩ := recoded
  exact @mk _ { world with domain } _ same

/-- The sleepers are changed. -/
theorem mapSleepers (recoded : Recoded world world') (change : Sleepers → Sleepers) :
    Recoded { world with sleepers := change world.sleepers }
      { world' with sleepers := change world'.sleepers } := by
  obtain ⟨same⟩ := recoded
  exact @mk _ { world with sleepers := change world.sleepers } _ same

/-- The native objects are replaced. -/
theorem setNatives (recoded : Recoded world world') (natives : Array NativeObject) :
    Recoded { world with natives } { world' with natives } := by
  obtain ⟨same⟩ := recoded
  exact @mk _ { world with natives } _ same

/-- An object is registered. -/
theorem addObject (recoded : Recoded world world') (object : ObjectEntry) :
    Recoded { world with domain := { world.domain with
        objects := world.domain.objects.push object } }
      { world' with domain := { world'.domain with
        objects := world.domain.objects.push object } } :=
  recoded.setDomain (recoded.domain.map ({ · with
    objects := world.domain.objects.push object }) rfl rfl fun _ _ => rfl)

/-- What is shown of a world leaves its trace sink out. -/
theorem view (recoded : Recoded world world') : Recoded world.view world'.view :=
  recoded.setDomain (recoded.domain.map ({ · with sink := none }) rfl rfl fun _ _ => rfl)

/-- A native object is changed. -/
theorem modifyNative (recoded : Recoded world world') (index : Nat)
    (change : NativeObject → NativeObject) :
    Recoded (world.modifyNative index change) (world'.modifyNative index change) := by
  obtain ⟨same⟩ := recoded
  exact @mk _ (world.modifyNative index change) _ same

/-- The native objects among some arguments are changed. -/
theorem modifyArguments (recoded : Recoded world world') (change : NativeObject → NativeObject)
    (arguments : List Argument) :
    Recoded (world.modifyArguments change arguments) (world'.modifyArguments change arguments) := by
  induction arguments generalizing world world' with
  | nil => exact recoded
  | cons argument rest ih =>
    cases argument with
    | object index => exact ih (recoded.modifyNative index change)
    | _ => exact ih recoded

/-- An argument is resolved to the same. -/
theorem argument_eq (recoded : Recoded world world') (value : Int32) (parameter : Parameter) :
    world'.argument value parameter = world.argument value parameter := by
  have known (id : FunctionId) :
      (world'.domain.function? id).isSome = (world.domain.function? id).isSome :=
    isSome_eq_of_rel (recoded.domain.function? id)
  obtain ⟨⟨listed, created⟩⟩ := recoded
  cases parameter with
  | function =>
    simp only [World.argument]
    split
    · rfl
    · rw [known]
  | _ => rfl

/-- The arguments of a call are resolved to the same. -/
theorem arguments_eq (recoded : Recoded world world') (parameters : List Parameter)
    (values : List Int32) :
    world'.arguments parameters values = world.arguments parameters values := by
  have all (position : Nat) : world'.argumentsFrom position parameters values =
      world.argumentsFrom position parameters values := by
    induction parameters generalizing position values with
    | nil => rfl
    | cons parameter parameters ih =>
      cases values with
      | nil => rfl
      | cons value values =>
        rw [argumentsFrom, argumentsFrom, recoded.argument_eq, ih]
  exact all 0

end World.Recoded

namespace Update

/-- Two results of an update are alike. -/
structure Responds (result result' : World ν × Answer ν) : Prop where
  world : result.1.Recoded result'.1
  answer : result.2.Recoded result'.2

variable {world world' : World ν}

/-- Results with the same answer. -/
theorem Responds.same (recoded : world.Recoded world') (answer : Answer ν) :
    Responds (world, answer) (world', answer) := ⟨recoded, .same answer⟩

/-- The answer to a change of the domain. -/
theorem responds_ofDomain (recoded : world.Recoded world')
    {result result' : Except DomainError (Domain ν)}
    (concurs : Concurs Domain.Recoded result result') :
    Responds (ofDomain world result) (ofDomain world' result') := by
  cases concurs with
  | error reason => exact .same recoded _
  | ok same => exact .same (recoded.setDomain same) _

/-- The answer to a declaration. -/
theorem responds_ofDeclaration (recoded : world.Recoded world')
    {result result' : Except DomainError (Domain ν × Nat)}
    (concurs : Concurs Domain.RecodedWith result result') :
    Responds (ofDeclaration world result) (ofDeclaration world' result') := by
  cases concurs with
  | error reason => exact .same recoded _
  | @ok value value' same =>
    obtain ⟨domain, index⟩ := value
    obtain ⟨domain', _⟩ := value'
    obtain ⟨same, rfl⟩ := same
    exact .same (recoded.setDomain same) _

/-- The answer to an operation on the domain that always succeeds. -/
theorem responds_done (recoded : world.Recoded world') {result result' : Except Fault (Domain ν)}
    (concurs : Concurs Domain.Recoded result result') (answer : Answer ν) :
    Concurs Responds (result >>= fun domain => pure ({ world with domain }, answer))
      (result' >>= fun domain => pure ({ world' with domain }, answer)) :=
  .bind concurs fun _ _ same => .ok (.same (recoded.setDomain same) answer)

/-- The answer to an operation on the domain that gives a thread. -/
theorem responds_thread (recoded : world.Recoded world')
    {result result' : Except Fault (Domain ν × Option ThreadId)}
    (concurs : Concurs Domain.RecodedWith result result') :
    Concurs Responds
      (result >>= fun found => pure ({ world with domain := found.1 }, .thread found.2))
      (result' >>= fun found => pure ({ world' with domain := found.1 }, .thread found.2)) :=
  .bind concurs fun _ _ same => .ok (by
    rw [same.2]
    exact .same (recoded.setDomain same.1) _)

/-- The answer to a registration. -/
theorem responds_addFunction (recoded : world.Recoded world') {function function' : Function ν}
    (same : function.Recoded function') :
    Concurs Responds ((Update.addFunction function).apply world)
      ((Update.addFunction function').apply world') := by
  simp only [apply, recoded.domain.functions_size_eq]
  exact .ok (.same (recoded.setDomain (recoded.domain.addFunction same)) _)

/-! ### Family by family -/

theorem responds_of_memory (recoded : world.Recoded world') {update : Update ν}
    (member : update.family = .memory) :
    Concurs Responds (update.apply world) (update.apply world') := by
  have domain := recoded.domain
  cases update with
  | declareGlobal value => exact .ok (responds_ofDeclaration recoded (domain.declareGlobal value))
  | declareSpecial value =>
    exact .ok (responds_ofDeclaration recoded (domain.declareSpecial value))
  | declareThreadVariable =>
    exact .ok (responds_ofDeclaration recoded domain.declareThreadVariable)
  | setGlobal index value => exact .ok (responds_ofDomain recoded (domain.setGlobal index value))
  | setSpecial index value =>
    exact .ok (responds_ofDomain recoded (domain.setSpecial index value))
  | setThreadVariable thread index value =>
    exact .bind (domain.setThreadVariable thread index value) fun _ _ concurs =>
      .ok (responds_ofDomain recoded concurs)
  | _ => cases member

theorem responds_of_settings (recoded : world.Recoded world') {update : Update ν}
    (member : update.family = .settings) :
    Concurs Responds (update.apply world) (update.apply world') := by
  have domain := recoded.domain
  cases update with
  | setLimits limits =>
    exact .ok (.same (recoded.setDomain
      (domain.map ({ · with limits }) rfl rfl fun _ _ => rfl)) _)
  | setLimitHandler limitHandler =>
    exact .ok (.same (recoded.setDomain
      (domain.map ({ · with limitHandler }) rfl rfl fun _ _ => rfl)) _)
  | setSink sink =>
    simp only [apply, domain.sink_eq]
    exact .ok (.same (recoded.setDomain
      (domain.map ({ · with sink }) rfl rfl fun _ _ => rfl)) _)
  | clear => exact .ok (responds_ofDomain recoded domain.clear)
  | _ => cases member

theorem responds_of_tables (recoded : world.Recoded world') {update : Update ν}
    (member : update.family = .tables) :
    Concurs Responds (update.apply world) (update.apply world') := by
  have domain := recoded.domain
  cases update with
  | addFunction function => exact responds_addFunction recoded (.refl function)
  | addText text =>
    simp only [apply, domain.objects_eq]
    exact .ok (.same (recoded.addObject (.text text)) _)
  | createThread =>
    have created := domain.createThread
    simp only [apply, created.2]
    exact .ok (.same (recoded.setDomain created.1) _)
  | createQueue =>
    have created := domain.createQueue
    simp only [apply, created.2]
    exact .ok (.same (recoded.setDomain created.1) _)
  | _ => cases member

theorem responds_of_suspensions (recoded : world.Recoded world') {update : Update ν}
    (member : update.family = .suspensions) :
    Concurs Responds (update.apply world) (update.apply world') := by
  have domain := recoded.domain
  cases update with
  | supplyResult thread value =>
    refine .bind (domain.supplyResult thread value) fun _ _ concurs => ?_
    cases concurs with
    | error reason => exact .ok (.same recoded _)
    | ok same => exact .ok (.same (recoded.setDomain same) _)
  | suspend thread hook => exact responds_done recoded (domain.suspend thread hook) _
  | suspendActive hook =>
    simp only [apply, domain.active_eq]
    cases world.domain.active with
    | none => exact .ok (.same recoded _)
    | some thread => exact responds_done recoded (domain.suspend thread hook) _
  | _ => cases member

theorem responds_of_queues (recoded : world.Recoded world') {update : Update ν}
    (member : update.family = .queues) :
    Concurs Responds (update.apply world) (update.apply world') := by
  have domain := recoded.domain
  cases update with
  | park queue thread => exact responds_done recoded (domain.park queue thread) _
  | popWaiter queue => exact responds_thread recoded (domain.popWaiter queue)
  | transferNext source target => exact responds_thread recoded (domain.transferNext source target)
  | transferAll source target =>
    exact responds_done recoded (domain.transferAll source target) _
  | resetQueue queue => exact responds_done recoded (domain.resetQueue queue) _
  | _ => cases member

theorem responds_of_sleepers (recoded : world.Recoded world') {update : Update ν}
    (member : update.family = .sleepers) :
    Concurs Responds (update.apply world) (update.apply world') := by
  have domain := recoded.domain
  cases update with
  | sleepActive now ticks =>
    simp only [apply, domain.active_eq]
    cases world.domain.active with
    | none => exact .ok (.same recoded _)
    | some thread =>
      dsimp only
      split
      · exact .ok (.same recoded _)
      · refine .bind (domain.suspend thread _) fun _ _ same => ?_
        exact .ok (.same ((recoded.setDomain same).mapSleepers fun sleepers =>
          sleepers.add thread now ticks.toNatClampNeg) _)
  | takeDue now below =>
    simp only [apply, recoded.sleepers_eq]
    split
    · exact .ok (.same recoded _)
    · exact .ok (.same (recoded.mapSleepers fun _ => _) _)
  | clearSleepers => exact .ok (.same (recoded.mapSleepers Sleepers.clear) _)
  | _ => cases member

theorem responds_of_natives (recoded : world.Recoded world') {update : Update ν}
    (member : update.family = .natives) :
    Concurs Responds (update.apply world) (update.apply world') := by
  have domain := recoded.domain
  cases update with
  | createNative type =>
    simp only [apply, recoded.natives_eq]
    exact .ok (.same (recoded.setNatives _) _)
  | register index =>
    have registered := recoded.addObject (.native index)
    rw [recoded.natives_eq] at registered
    simp only [apply, recoded.natives_eq, domain.objects_eq]
    split
    · exact .ok (.same recoded _)
    · split
      · exact .ok (.same registered _)
      · exact .ok (.same recoded _)
  | release index =>
    simp only [apply, recoded.natives_eq]
    exact .ok (.same (recoded.modifyNative index _) _)
  | hold parameters values =>
    simp only [apply, recoded.arguments_eq]
    cases world.arguments parameters values with
    | error error => exact .ok (.same recoded _)
    | ok arguments => exact .ok (.same (recoded.modifyArguments _ arguments) _)
  | unhold arguments => exact .ok (.same (recoded.modifyArguments _ arguments) _)
  | borrow index =>
    simp only [apply, recoded.natives_eq]
    split
    · exact .ok (.same recoded _)
    · split
      · exact .ok (.same recoded _)
      · exact .ok (.same (recoded.modifyNative index _) _)
  | unborrow index => exact .ok (.same (recoded.modifyNative index _) _)
  | _ => cases member

/-- An update answers alike in worlds of which one is the other one recoded. -/
theorem responds_apply (recoded : world.Recoded world') (update : Update ν) :
    Concurs Responds (update.apply world) (update.apply world') := by
  cases family : update.family with
  | memory => exact responds_of_memory recoded family
  | settings => exact responds_of_settings recoded family
  | tables => exact responds_of_tables recoded family
  | suspensions => exact responds_of_suspensions recoded family
  | queues => exact responds_of_queues recoded family
  | sleepers => exact responds_of_sleepers recoded family
  | natives => exact responds_of_natives recoded family

end Update

end ScriptMachine

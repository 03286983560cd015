import ScriptMachine.Proofs.AbortRequests
import ScriptMachine.Proofs.Callbacks
import ScriptMachine.Proofs.OwnSleep

/-!
# Armed hooks

Suspending a thread may arm a hook. The arming stands until the thread is suspended anew, let go on
or aborted, and only an abort looks at it: the hook is called with the thread, once, by the abort
that finds the arming standing. Nobody else calls a hook. Hooks may abort, suspend and restart
threads themselves, so that an arming is told by the moment at which it was made.
-/

namespace ScriptMachine

variable {ν σ : Type}

/-- The hook that an update arms if it suspends a thread. -/
def Update.arms? : Update ν → Option (AbortHook ν)
  | .suspend _ hook | .suspendActive hook => hook
  | .sleepActive _ _ => some .leaveSleep
  | _ => none

/-- A request starts this function on this thread. -/
def Request.StartsWith (id : ThreadId) (called : FunctionId) : Request ν → Prop
  | .start thread function | .run thread function | .runInt thread function =>
    thread = id ∧ function = called
  | _ => False

/-- An armed hook belongs to a thread that exists. -/
theorem Domain.present_of_hook {domain : Domain ν} {id : ThreadId} {hook : AbortHook ν}
    (armed : (domain.suspension id).hook = some hook) :
    ∃ thread, domain.thread? id = some thread ∧ thread.hook = some hook := by
  unfold suspension at armed
  cases present : domain.thread? id with
  | none => simp [present] at armed
  | some thread =>
    rw [present] at armed
    exact ⟨thread, rfl, armed⟩

/-- A thread with an armed hook is suspended. -/
theorem Domain.Linked.suspended_of_hook {domain : Domain ν} (linked : domain.Linked)
    {id : ThreadId} {hook : AbortHook ν} (armed : (domain.suspension id).hook = some hook) :
    (domain.suspension id).suspended = true := by
  by_contra awake
  rw [linked.suspension_eq (Bool.not_eq_true _ ▸ awake)] at armed
  cases armed

/-- Discarding the frames of a thread that exists succeeds. -/
theorem Domain.discard_isOk {domain : Domain ν} {id : ThreadId} {thread : Thread ν}
    (present : domain.thread? id = some thread) (reason : AbortReason) :
    ∃ next, domain.discard id reason = .ok next := by
  unfold Domain.discard
  rw [thread_eq_ok.2 present]
  cases held : thread.execution with
  | none => exact ⟨_, by simp only [bind, Except.bind, held]; rfl⟩
  | some execution => exact ⟨_, by simp only [bind, Except.bind, held]; rfl⟩

/-- Discarding frames keeps the links. -/
theorem Domain.Linked.discard {domain next : Domain ν} (linked : domain.Linked) {id : ThreadId}
    {reason : AbortReason} (done : domain.discard id reason = .ok next) : next.Linked := by
  obtain ⟨thread, present, ⟨execution, _, rfl⟩ | ⟨_, rfl⟩⟩ := discard_eq_ok done
  · exact linked.setThread present rfl rfl rfl
  · exact linked.setThread present rfl rfl rfl

namespace Config

/-- The next step suspends a thread and arms this hook. -/
def Arms (id : ThreadId) (hook : AbortHook ν) (config : Config ν σ) : Prop :=
  ∃ update next, config.focus = .body (.ask (.update update) next) ∧
    update.Suspends config.world.domain.active id ∧ update.arms? = some hook

/-- The next step aborts a thread: a body asks for it, or starts a function on the thread although
it is suspended or has frames; or an abort that was requested while the thread ran is honored, after
the native method has given its result. A function that is not registered is not started. -/
inductive TakesDown (id : ThreadId) (config : Config ν σ) : Prop where
  | asked {next : Answer ν → Body ν σ} (focus : config.focus = .body (.ask (.abort id) next))
  | faulted {error : ObjectError} {next : Answer ν → Body ν σ}
    (focus : config.focus = .body (.ask (.faultActive error) next))
    (active : config.world.domain.active = some id)
  | restarted {request : Request ν} {next : Answer ν → Body ν σ} {called : FunctionId}
    {function : Function ν} {thread : Thread ν} {execution : Execution ν}
    (focus : config.focus = .body (.ask request next)) (starts : request.StartsWith id called)
    (registered : config.world.domain.function? called = some function)
    (present : config.world.domain.thread? id = some thread)
    (held : thread.execution = some execution)
    (occupied : thread.suspended = true ∨ execution.frames ≠ [])
  | honored {value : Int32} {run : Run ν σ} {registers : Registers ν} {call : NativeCall}
    {rest : List (Pending ν σ)} {stack : Array Int32} {thread : Thread ν} {reason : AbortReason}
    (focus : config.focus = .body (.done value))
    (waiting : config.pending = .calling run registers call :: rest)
    (stored : storeResult run.execution.stack call.result call.base value = .ok stack)
    (present : config.world.domain.thread? id = some thread) (called : run.thread = id)
    (requested : thread.pendingAbort = some reason)

/-- The work that waits when a body that has ended no longer keeps some of it waiting. -/
def beneath (config : Config ν σ) : List (Pending ν σ) :=
  match config.focus with
  | .body (.done _) => config.pending.tail
  | _ => config.pending

/-- The next step calls a hook: an abort begins to wait for this body. -/
def CallsHook (host : Host ν σ) (body : Body ν σ) (config : Config ν σ) : Prop :=
  (config.step host).focus = .body body ∧
    ∃ next, (config.step host).pending = .aborting next :: config.beneath

/-- The next step does what a hook is for. The host is called back with the thread, or the thread is
taken from the sleepers. -/
def Fires (host : Host ν σ) (id : ThreadId) (config : Config ν σ) : AbortHook ν → Prop
  | .custom reference => config.CallsHook host (host.onAbort reference id)
  | .leaveSleep => (config.step host).world.sleepers = config.world.sleepers.remove id

/-- An update is about to be made. -/
def Updates (config : Config ν σ) : Prop :=
  ∃ update next, config.focus = .body (.ask (.update update) next)

/-- The next step detaches a thread: its suspension is over, and the hook that was armed does what
it is for. No other hook is called, and no sleeper is forgotten for another reason. -/
structure Detached (host : Host ν σ) (id : ThreadId) (config : Config ν σ) : Prop where
  ends : config.Ends id (config.step host)
  fires : ∀ hook, (config.world.domain.suspension id).hook = some hook → config.Fires host id hook
  calls : ∀ body, config.CallsHook host body → ∃ reference,
    (config.world.domain.suspension id).hook = some (.custom reference) ∧
      body = host.onAbort reference id
  sleepers : (config.step host).world.sleepers ≠ config.world.sleepers →
    (config.world.domain.suspension id).hook = some .leaveSleep

section

variable {host : Host ν σ} {config : Config ν σ} {id : ThreadId} {body : Body ν σ}

/-! ## What waits after a step -/

/-- Starting a run leaves the waiting work alone. -/
@[simp] theorem pending_launch (id : ThreadId) (purpose : Purpose) (reply : Answer ν → Body ν σ) :
    (config.launch host id purpose reply).pending = config.pending := by
  refine @attempt_induction _ _ _ (fun after => after.pending = _) _ _ _ (fun _ => rfl)
    fun thread _ => ?_
  split
  · rfl
  · dsimp only
    split <;> simp

/-- What follows an abort leaves the waiting work alone. -/
@[simp] theorem pending_afterAbort (next : AfterAbort ν σ) :
    (config.afterAbort host next).pending = config.pending := by
  cases next with
  | reply next => rfl
  | stop run function pc reason => rfl
  | start id function purpose next =>
    refine @attempt_induction _ _ _ (fun after => after.pending = _) _ _ _ (fun _ => rfl)
      fun thread _ => ?_
    split
    · rfl
    · cases purpose with
      | none => rfl
      | some purpose => exact pending_launch id purpose next

/-- Continuing a thread leaves the waiting work alone. -/
@[simp] theorem pending_continueThread (id : ThreadId) (purpose : Purpose)
    (next : Answer ν → Body ν σ) :
    (config.continueThread host id purpose next).pending = config.pending := by
  refine @attempt_induction _ _ _ (fun after => after.pending = _) _ _ _ (fun _ => rfl)
    fun thread _ => ?_
  dsimp only
  split
  · rfl
  · exact pending_launch id purpose next

/-- Resuming a thread leaves the waiting work alone. -/
@[simp] theorem pending_resume (id : ThreadId) (next : Answer ν → Body ν σ) :
    (config.resume host id next).pending = config.pending :=
  @resume_induction _ _ (fun after => after.pending = _) host config id next (fun _ => rfl)
    (fun _ => rfl) fun _ _ _ _ _ => pending_continueThread id .plain next

/-- Waking a thread through its queue leaves the waiting work alone. -/
@[simp] theorem pending_wake (queue : QueueId) (value : Option Int32)
    (next : Answer ν → Body ν σ) :
    (config.wake host queue value next).pending = config.pending :=
  @wake_induction _ _ (fun after => after.pending = _) host config next queue value (fun _ => rfl)
    (fun _ => rfl) (fun _ _ _ _ _ => rfl) fun head _ domain _ _ _ _ _ =>
    ⟨fun _ => rfl, fun _ _ => rfl, fun supplied _ =>
      @pending_continueThread _ _ host ((config.setDomain domain).setDomain supplied) head .woken
        next⟩

/-- While a body makes a request, no work is about to go on. -/
theorem beneath_of_ask {request : Request ν} {next : Answer ν → Body ν σ}
    (focus : config.focus = .body (.ask request next)) : config.beneath = config.pending := by
  simp only [beneath, focus]

/-- No hook is called by a step that leaves the waiting work alone. -/
theorem not_callsHook (same : (config.step host).pending = config.beneath) :
    ¬config.CallsHook host body := by
  rintro ⟨_, next, waits⟩
  rw [same] at waits
  exact List.cons_ne_self _ _ waits.symm

/-! ## Aborting -/

/-- Detaching a thread that exists calls its hook. -/
theorem Detached.of_detach {middle : Config ν σ} {next : AfterAbort ν σ}
    (made : config.step host = middle.detach host id next)
    (above : middle.pending = config.beneath) (rests : config.Rests middle)
    (same : middle.world.sleepers = config.world.sleepers) (linked : middle.world.domain.Linked)
    {thread : Thread ν} (present : middle.world.domain.thread? id = some thread) :
    config.Detached host id := by
  obtain ⟨⟨domain, hook⟩, done⟩ := linked.detach_isOk present
  obtain ⟨handed, ended⟩ := Domain.suspension_detach done
  have armed : (config.world.domain.suspension id).hook = hook := by rw [handed, rests]
  have ends {after : Config ν σ} (rested : (middle.setDomain domain).Rests after) :
      config.Ends id after := fun other => by rw [rested, setDomain_world, ended, rests]
  unfold Config.detach at made
  rw [done, attempt_ok] at made
  dsimp only at made
  split at made
  · have quiet : (config.step host).pending = config.beneath := by rw [made]; simp [above]
    refine ⟨?_, by simp [armed], fun body calls => absurd calls (not_callsHook quiet), ?_⟩
    · rw [made]
      exact ends (Retains.afterAbort next).rests
    · rw [made]
      simp [same]
  · have quiet : (config.step host).pending = config.beneath := by rw [made]; simp [above]
    refine ⟨?_, ?_, fun body calls => absurd calls (not_callsHook quiet), fun _ => armed⟩
    · rw [made]
      exact ends (Retains.afterAbort next).rests
    · intro hook found
      obtain rfl := Option.some.inj (armed.symm.trans found)
      rw [Fires, made]
      simp [same]
  · rename_i reference
    refine ⟨?_, ?_, fun body calls => ⟨reference, armed, ?_⟩, ?_⟩
    · rw [made]
      exact ends fun _ => rfl
    · intro hook found
      obtain rfl := Option.some.inj (armed.symm.trans found)
      rw [Fires, CallsHook, made, ← above]
      exact ⟨rfl, next, rfl⟩
    · have focus := calls.1
      rw [made] at focus
      exact (Focus.body.inj focus).symm
    · rw [made]
      exact fun changed => absurd same changed

/-- Aborting a thread that exists calls its hook. -/
theorem Detached.of_abort {request : Request ν} {resume : Answer ν → Body ν σ}
    {reason : AbortReason} {next : AfterAbort ν σ} {thread : Thread ν}
    (linked : config.world.domain.Linked)
    (focus : config.focus = .body (.ask request resume))
    (present : config.world.domain.thread? id = some thread)
    (made : config.step host = config.abort host id reason next) : config.Detached host id := by
  obtain ⟨domain, done⟩ := Domain.discard_isOk present reason
  unfold Config.abort at made
  rw [done, attempt_ok] at made
  obtain ⟨after, there⟩ : ∃ after, domain.thread? id = some after := by
    obtain ⟨_, found, ⟨_, _, rfl⟩ | ⟨_, rfl⟩⟩ := Domain.discard_eq_ok done
    · exact ⟨_, (Domain.thread?_setThread found _ id).trans (if_pos rfl)⟩
    · exact ⟨_, (Domain.thread?_setThread found _ id).trans (if_pos rfl)⟩
  exact .of_detach made (beneath_of_ask focus).symm (Domain.suspension_discard done) rfl
    (linked.discard done) there

/-- A thread that is aborted, and exists, is detached. -/
theorem TakesDown.detached (downs : config.TakesDown id) (linked : config.world.domain.Linked)
    {thread : Thread ν} (present : config.world.domain.thread? id = some thread) :
    config.Detached host id := by
  cases downs with
  | @asked next focus =>
    have made : config.step host = config.abort host id .requested (.reply next) := by
      simp only [step, focus, perform]
    exact .of_abort linked focus present made
  | @faulted error next focus active =>
    have made : config.step host = config.abort host id (.badArgument error) (.reply next) := by
      simp only [step, focus, perform, active]
    exact .of_abort linked focus present made
  | @restarted request next called function found execution focus starts registered there held
      occupied =>
    have busy : (found.suspended || !execution.frames.isEmpty) = true := by simpa using occupied
    have aborts (purpose : Option Purpose) : config.start host id called purpose next =
        config.abort host id .requested (.start id function purpose next) := by
      simp only [start, registered, Domain.thread_eq_ok.2 there, attempt_ok, held, busy, ↓reduceIte]
    have made : ∃ purpose, config.step host = config.start host id called purpose next := by
      cases request with
      | start _ _ | run _ _ | runInt _ _ =>
        obtain ⟨rfl, rfl⟩ := starts
        exact ⟨_, by simp only [step, focus, perform]; rfl⟩
      | _ => cases starts
    obtain ⟨purpose, made⟩ := made
    exact .of_abort linked focus present (made.trans (aborts purpose))
  | @honored value run registers call rest stack found reason focus waiting stored there called
      requested =>
    have made := @step_of_calling _ _ host _ _ _ _ _ _ focus waiting
    unfold returnNative at made
    dsimp only at made
    generalize emitted : emit host _ _ = shown at made
    have world : shown.world = config.world := by rw [← emitted, emit_world]
    have below : shown.pending = config.beneath := by
      rw [← emitted, emit_pending, beneath, focus, waiting]
      rfl
    subst called
    rw [stored, attempt_ok] at made
    rw [← world] at there linked
    simp only [Run.setStack, Domain.thread_eq_ok.2 there, attempt_ok, requested] at made
    have rests : config.Rests (shown.setDomain (shown.world.domain.setThread run.thread
        { found with pendingAbort := none })) :=
      (Rests.of_threads (by rw [world])).trans (.setThread there rfl)
    have moved := Domain.thread?_setThread there { found with pendingAbort := none } run.thread
    exact .of_detach made below rests (by simp [world]) (linked.setThread there rfl rfl rfl)
      (moved.trans (if_pos rfl))

/-! ## What a step does about hooks -/

/-- A step takes some thread down, or calls no hook and forgets sleepers at most for an update. -/
inductive Heeds (host : Host ν σ) (config : Config ν σ) : Prop where
  | downs (id : ThreadId) (downs : config.TakesDown id) (detached : config.Detached host id)
  | calm (silent : ∀ body, ¬config.CallsHook host body)
    (sleepers : config.Updates ∨ (config.step host).world.sleepers = config.world.sleepers)

namespace Heeds

/-- A step that leaves the waiting work and the sleepers alone. -/
theorem of_same (pending : (config.step host).pending = config.beneath)
    (sleepers : (config.step host).world.sleepers = config.world.sleepers) :
    config.Heeds host := .calm (fun _ => not_callsHook pending) (.inr sleepers)

/-- A step that stops for a misuse. -/
theorem of_goto {fault : Fault} (made : config.step host = config.goto (.faulted fault)) :
    config.Heeds host := by
  refine .calm (fun body calls => ?_) (.inr (by rw [made]; rfl))
  have focus := calls.1
  rw [made] at focus
  cases focus

/-- Aborting some thread. -/
theorem abort {reason : AbortReason} {next : AfterAbort ν σ} (downs : config.TakesDown id)
    (linked : config.world.domain.Linked)
    (made : config.step host = config.abort host id reason next) : config.Heeds host := by
  cases present : config.world.domain.thread? id with
  | some thread => exact .downs id downs (downs.detached linked present)
  | none =>
    have unknown : config.world.domain.discard id reason = .error .noSuchThread := by
      have missing : config.world.domain.thread id = .error .noSuchThread := by
        unfold Domain.thread
        rw [show config.world.domain.threads[id.index]? = none from present]
      unfold Domain.discard
      rw [missing]
      rfl
    refine @of_goto _ _ _ _ .noSuchThread ?_
    rw [made]
    unfold Config.abort
    rw [unknown]
    rfl

/-- Starting a function on some thread. -/
theorem start {request : Request ν} {called : FunctionId} {purpose : Option Purpose}
    {next : Answer ν → Body ν σ} (linked : config.world.domain.Linked)
    (focus : config.focus = .body (.ask request next)) (starts : request.StartsWith id called)
    (made : config.step host = config.start host id called purpose next) :
    config.Heeds host := by
  have above := beneath_of_ask focus
  have same {after : Config ν σ} (pending : after.pending = config.pending)
      (sleepers : after.world.sleepers = config.world.sleepers)
      (made : config.step host = after) : config.Heeds host :=
    of_same (by rw [made, above, pending]) (by rw [made, sleepers])
  exact @start_induction _ _ (fun after => config.step host = after → config.Heeds host) host
    config id next called purpose (fun _ => of_goto) (fun _ => same rfl rfl)
    (fun _ _ _ => same rfl rfl)
    (fun _ _ _ registered present held =>
      ⟨fun occupied => abort (.restarted focus starts registered present held occupied) linked,
        fun _ _ => same (by simp) (by simp)⟩) made

/-- Carrying out a request. -/
theorem ask {request : Request ν} {next : Answer ν → Body ν σ}
    (linked : config.world.domain.Linked) (focus : config.focus = .body (.ask request next)) :
    config.Heeds host := by
  have made : config.step host = config.perform host request next := by simp only [step, focus]
  have above := beneath_of_ask focus
  cases request with
  | observe => exact of_same (by rw [made, above]; rfl) (by rw [made]; rfl)
  | resume id => exact of_same (by rw [made, above]; simp [perform]) (by rw [made]; simp [perform])
  | wake queue value =>
    exact of_same (by rw [made, above]; simp [perform]) (by rw [made]; simp [perform])
  | update update =>
    refine .calm (fun body => not_callsHook ?_) (.inl ⟨update, next, focus⟩)
    rw [made, above]
    exact @attempt_induction _ _ _ (fun after => after.pending = config.pending) _ _ _
      (fun _ => rfl) fun _ _ => rfl
  | start id called => exact start linked focus ⟨rfl, rfl⟩ made
  | run id called => exact start linked focus ⟨rfl, rfl⟩ made
  | runInt id called => exact start linked focus ⟨rfl, rfl⟩ made
  | abort id => exact abort (.asked focus) linked made
  | faultActive error =>
    unfold perform at made
    dsimp only at made
    split at made
    · exact of_same (by rw [made, above]; rfl) (by rw [made]; rfl)
    · rename_i active
      exact abort (.faulted focus active) linked made

/-- Ending a body. -/
theorem done {value : Int32} (linked : config.world.domain.Linked)
    (focus : config.focus = .body (.done value)) : config.Heeds host := by
  have made : config.step host = config.finishBody host value := by simp only [step, focus]
  have below : config.beneath = config.pending.tail := by simp only [beneath, focus]
  cases waiting : config.pending with
  | nil =>
    unfold finishBody at made
    rw [waiting] at made
    exact of_same (by rw [made, below]; simp [waiting]) (by rw [made]; rfl)
  | cons work rest =>
    rw [waiting, List.tail_cons] at below
    cases work with
    | aborting next =>
      have made := @step_of_aborting _ _ host _ _ _ _ focus waiting
      exact of_same (by rw [made, below]; simp) (by rw [made]; simp)
    | calling run registers call =>
      refine @returnNative_induction _ _ (fun after => config.step host = after →
        config.Heeds host) host { config with pending := rest } run registers call value
        (fun shown emitted => ?_) (step_of_calling focus waiting)
      have world : shown.world = config.world := by rw [← emitted, emit_world]
      have above : shown.pending = rest := by rw [← emitted, emit_pending]
      have same {after : Config ν σ} (pending : after.pending = shown.pending)
          (world' : after.world = shown.world) (made : config.step host = after) :
          config.Heeds host :=
        of_same (by rw [made, below, pending, above]) (by rw [made, world', world])
      refine ⟨fun _ => same rfl rfl, fun stack thread stored present =>
        ⟨fun reason requested _ => ?_, fun _ _ => same (by simp) (by simp),
          fun _ _ => same rfl rfl⟩⟩
      rw [world] at present
      have downs : config.TakesDown run.thread :=
        .honored focus waiting stored present rfl requested
      exact .downs _ downs (downs.detached linked present)

/-- A step of a run. Only a native method may be called by it. -/
theorem run {run : Run ν σ} (focus : config.focus.run? = some run) : config.Heeds host := by
  have above : config.beneath = config.pending := by
    unfold beneath
    split
    · rename_i found
      rw [found] at focus
      cases focus
    · rfl
  refine .calm (fun body calls => ?_) (.inr ?_)
  · obtain ⟨called, next, waits⟩ := calls
    cases found : config.focus with
    | enter run =>
      simp only [step, found] at called
      exact @AtBody.enterFrame _ _ host config run (fun _ => False) body called
    | execute run registers =>
      simp only [step, found] at called waits
      obtain ⟨after, call, native, _⟩ :=
        @AtBody.execute _ _ host config run registers config.pending rfl body called
      rw [waits] at native
      cases native
    | ended run outcome =>
      rcases step_of_ended host found with ⟨fault, faulted⟩ | ⟨_, same⟩
      · rw [called] at faulted
        cases faulted
      · exact not_callsHook (same.trans above.symm) ⟨called, next, waits⟩
    | body _ | finished _ | faulted _ =>
      rw [found] at focus
      cases focus
  · cases step_stirs host config with
    | rests same => exact same
    | aborts aborts _ =>
      cases aborts with
      | asked other | faulted other _ | restarted other _ _ _ _ | honored other _ _ _ _ =>
        rw [other] at focus
        cases focus
    | falls _ other _ | takes _ other _ | clears other _ =>
      rw [other] at focus
      cases focus

end Heeds

/-- Every step takes some thread down, or calls no hook and forgets sleepers at most for an
update. -/
theorem step_heeds (host : Host ν σ) (linked : config.world.domain.Linked) : config.Heeds host := by
  cases focus : config.focus with
  | enter run | execute run registers | ended run outcome => exact .run (by rw [focus]; rfl)
  | finished value | faulted fault =>
    have stays := @step_of_isFinal _ _ host config (by simp [isFinal, focus])
    exact .of_same (by rw [stays, beneath, focus]) (by rw [stays])
  | body body =>
    cases body with
    | ask request next => exact .ask linked focus
    | done value => exact .done linked focus
    | modify change next =>
      exact .of_same (by simp only [step, beneath, focus]) (by simp only [step, focus])
    | crash fault => exact @Heeds.of_goto _ _ host config fault (by simp only [step, focus])

/-- A thread that is suspended has the hook that is armed with the suspension. -/
theorem hook_of_suspends {update : Update ν} {next : Answer ν → Body ν σ}
    (focus : config.focus = .body (.ask (.update update) next))
    (suspends : update.Suspends config.world.domain.active id)
    (works : ∀ fault, (config.step host).focus ≠ .faulted fault) :
    ((config.step host).world.domain.suspension id).hook = update.arms? := by
  have made : config.step host = config.perform host (.update update) next := by
    simp only [step, focus]
  cases applied : update.apply config.world with
  | error fault =>
    refine absurd ?_ (works fault)
    rw [made]
    simp only [perform, applied]
    rfl
  | ok result =>
    obtain ⟨world, answer⟩ := result
    have after : (config.step host).world = world := by
      rw [made]
      simp only [perform, applied, attempt_ok]
    rw [after]
    cases Update.yields_of_apply applied with
    | suspend suspended =>
      obtain rfl := suspends
      rw [Domain.suspension_suspend suspended, if_pos rfl]
      rfl
    | suspendActive active suspended =>
      obtain rfl := Option.some.inj (active.symm.trans suspends)
      rw [Domain.suspension_suspend suspended, if_pos rfl]
      rfl
    | sleepActive active _ suspended =>
      obtain rfl := Option.some.inj (active.symm.trans suspends.1)
      rw [Domain.suspension_suspend suspended, if_pos rfl]
      rfl
    | park parked =>
      obtain rfl := suspends
      rw [Domain.suspension_park parked, if_pos rfl]
      rfl
    | nothing idle => exact absurd idle suspends.not_idles
    | _ => cases suspends

/-- A step that would abort a thread takes it down, unless there is no function to start or no room
for the result of the native method. -/
theorem Aborts.takesDown (aborts : config.Aborts id) :
    config.TakesDown id ∨ config.Rests (config.step host) := by
  cases aborts with
  | asked focus => exact .inl (.asked focus)
  | faulted focus active => exact .inl (.faulted focus active)
  | @restarted request next thread execution focus starts present held occupied =>
    have calls : ∃ called purpose, request.StartsWith id called ∧
        config.step host = config.start host id called purpose next := by
      cases request with
      | start _ _ | run _ _ | runInt _ _ =>
        obtain rfl := starts
        exact ⟨_, _, ⟨rfl, rfl⟩, by simp only [step, focus, perform]; rfl⟩
      | _ => cases starts
    obtain ⟨called, purpose, starts, made⟩ := calls
    cases registered : config.world.domain.function? called with
    | some function => exact .inl (.restarted focus starts registered present held occupied)
    | none =>
      right
      rw [made]
      simp only [start, registered]
      exact .of_threads rfl
  | @honored value run registers call rest thread reason focus waiting present called requested =>
    cases stored : storeResult run.execution.stack call.result call.base value with
    | ok stack => exact .inl (.honored focus waiting stored present called requested)
    | error fault =>
      right
      rw [@step_of_calling _ _ host _ _ _ _ _ _ focus waiting]
      simp only [returnNative, stored, attempt]
      exact .of_threads (by simp)

/-- An armed hook stays armed, unless its thread is suspended anew, let go on or aborted. -/
theorem hook_step {hook : AbortHook ν} (linked : config.world.domain.Linked)
    (armed : (config.world.domain.suspension id).hook = some hook)
    (unslipped : ¬config.Slips host id) (up : ¬config.TakesDown id) :
    ((config.step host).world.domain.suspension id).hook = some hook := by
  cases step_treats host linked id with
  | lasts lasts => exact lasts.hook.trans armed
  | suspends suspends _ => exact absurd (.inl suspends) unslipped
  | releases releases ended =>
    exact absurd (.inr ⟨releases, linked.suspended_of_hook armed, by rw [ended]⟩) unslipped
  | aborts aborts _ _ =>
    rcases @Aborts.takesDown _ _ host config id aborts with downs | rests
    · exact absurd downs up
    · rw [rests]
      exact armed

/-- A hook that is armed has been armed by this step, or was armed before, and its thread has
neither been suspended anew, nor let go on, nor aborted. -/
theorem hook_before {hook : AbortHook ν} (linked : config.world.domain.Linked)
    (after : (config.step host).world.domain.Linked)
    (works : ∀ fault, (config.step host).focus ≠ .faulted fault)
    (armed : ((config.step host).world.domain.suspension id).hook = some hook) :
    config.Arms id hook ∨ (config.world.domain.suspension id).hook = some hook ∧
      ¬config.Slips host id ∧ ¬config.TakesDown id := by
  by_cases suspends : config.Suspends id
  · obtain ⟨update, next, focus, suspends⟩ := suspends
    exact .inl ⟨update, next, focus, suspends, hook_of_suspends focus suspends works ▸ armed⟩
  · have gone (ended : (config.step host).world.domain.suspension id = {}) : False := by
      rw [ended] at armed
      cases armed
    right
    cases step_treats host linked id with
    | suspends suspended _ => exact absurd suspended suspends
    | releases _ ended => exact (gone ended).elim
    | aborts _ ended _ => exact (gone ended).elim
    | lasts lasts =>
      have before := lasts.hook.symm.trans armed
      refine ⟨before, ?_, fun downs => ?_⟩
      · rintro (suspended | ⟨_, _, awake⟩)
        · exact suspends suspended
        · rw [after.suspended_of_hook armed] at awake
          cases awake
      · obtain ⟨thread, present, _⟩ := Domain.present_of_hook before
        have ends := (@TakesDown.detached _ _ host config id downs linked _ present).ends id
        rw [if_pos rfl] at ends
        exact gone ends

/-! ## Histories -/

variable {allowed : Request ν → Prop} {configs : Nat → Config ν σ}

/-- An arming made at one moment is the current one at another: since then the thread has neither
been suspended anew, nor let go on, nor aborted. -/
structure Current (host : Host ν σ) (configs : Nat → Config ν σ) (id : ThreadId)
    (hook : AbortHook ν) (armed time : Nat) : Prop where
  arms : (configs armed).Arms id hook
  before : armed < time
  kept : ∀ between, armed < between → between < time →
    ¬(configs between).Slips host id ∧ ¬(configs between).TakesDown id

/-- A machine that goes on with other work has not stopped before. -/
theorem History.works (history : History host allowed configs) {time : Nat}
    (works : ∀ fault, (configs (time + 1)).focus ≠ .faulted fault) (fault : Fault) :
    (configs time).focus ≠ .faulted fault ∧
      ((configs time).step host).focus ≠ .faulted fault := by
  have goes := history.goes time
  by_cases ended : ∃ value, (configs time).focus = .finished value
  · obtain ⟨value, finished⟩ := ended
    rw [step_of_isFinal host (by simp [isFinal, finished]), finished]
    exact ⟨by simp, by simp⟩
  · have next := goes.eq_step fun value finished => ended ⟨value, finished⟩
    rw [← next]
    refine ⟨fun faulted => ?_, works fault⟩
    rw [step_of_isFinal host (by simp [isFinal, faulted])] at next
    exact works fault (next ▸ faulted)

/-- The hook of a standing arming is armed. -/
theorem History.hook_of_current (history : History host allowed configs) {hook : AbortHook ν}
    {armed time : Nat} (stands : Current host configs id hook armed time)
    (works : ∀ fault, (configs time).focus ≠ .faulted fault) :
    ((configs time).world.domain.suspension id).hook = some hook := by
  obtain ⟨⟨update, next, focus, suspends, arms⟩, before, kept⟩ := stands
  induction time with
  | zero => omega
  | succ time ih =>
    have working := history.works works
    rw [(history.goes time).world]
    rcases Nat.eq_or_lt_of_le before with same | later
    · obtain rfl : armed = time := by omega
      rw [hook_of_suspends focus suspends fun fault => (working fault).2, arms]
    · have armed := ih (fun fault => (working fault).1) (by omega)
        fun between after earlier => kept between after (by omega)
      obtain ⟨unslipped, up⟩ := kept time (by omega) (Nat.lt_succ_self _)
      exact hook_step (linked_of_reachable (history.reachable time)) armed unslipped up

/-- An armed hook is that of a standing arming. -/
theorem History.current_of_hook (history : History host allowed configs) {hook : AbortHook ν}
    {time : Nat} (works : ∀ fault, (configs time).focus ≠ .faulted fault)
    (armed : ((configs time).world.domain.suspension id).hook = some hook) :
    ∃ armed, Current host configs id hook armed time := by
  induction time with
  | zero =>
    obtain ⟨state, body, _, first⟩ := history.begins
    rw [first] at armed
    cases armed
  | succ time ih =>
    have working := history.works works
    have linked := linked_of_reachable (history.reachable time)
    have after := linked_of_reachable (history.reachable (time + 1))
    rw [(history.goes time).world] at armed after
    rcases hook_before linked after (fun fault => (working fault).2) armed with
      arms | ⟨before, unslipped, up⟩
    · exact ⟨time, arms, Nat.lt_succ_self _, fun between later earlier => by omega⟩
    · obtain ⟨since, arms, past, kept⟩ := ih (fun fault => (working fault).1) before
      refine ⟨since, arms, by omega, fun between later earlier => ?_⟩
      rcases Nat.lt_or_ge between time with inside | last
      · exact kept between later inside
      · obtain rfl : between = time := by omega
        exact ⟨unslipped, up⟩

/-- A hook is called, with a thread, only by a step that aborts this thread while an arming of the
hook stands, and a sleeper is forgotten beside the updates that are for this only in the same way.
Every abort of a thread while an arming of it stands does what the hook is for. No two aborts find
the same arming standing, so that an arming is good for one call. -/
theorem armed_hooks_fire_once (history : History host allowed configs) :
    (∀ time body, (configs time).CallsHook host body → ∃ id reference armed,
        Current host configs id (.custom reference) armed time ∧ (configs time).TakesDown id ∧
        body = host.onAbort reference id) ∧
      (∀ time, ¬(configs time).Updates →
        ((configs time).step host).world.sleepers ≠ (configs time).world.sleepers →
        ∃ id armed, Current host configs id .leaveSleep armed time ∧ (configs time).TakesDown id) ∧
      (∀ id hook armed time, Current host configs id hook armed time →
        (configs time).TakesDown id → (configs time).Fires host id hook) ∧
      ∀ id hook armed first second, Current host configs id hook armed first →
        (configs first).TakesDown id → Current host configs id hook armed second →
        (configs second).TakesDown id → first = second := by
  have linked (time : Nat) := linked_of_reachable (history.reachable time)
  have works {time : Nat} {id : ThreadId} (downs : (configs time).TakesDown id) (fault : Fault) :
      (configs time).focus ≠ .faulted fault := by
    intro faulted
    cases downs with
    | asked focus | faulted focus _ | restarted focus _ _ _ _ _ | honored focus _ _ _ _ _ =>
      rw [focus] at faulted
      cases faulted
  refine ⟨fun time body calls => ?_, fun time otherwise forgets => ?_,
    fun id hook armed time stands downs => ?_,
    fun id hook armed first second stands downs again twice => ?_⟩
  · cases step_heeds host (linked time) with
    | calm silent _ => exact absurd calls (silent body)
    | downs id downs detached =>
      obtain ⟨reference, armed, called⟩ := detached.calls body calls
      obtain ⟨since, stands⟩ := history.current_of_hook (works downs) armed
      exact ⟨id, reference, since, stands, downs, called⟩
  · cases step_heeds host (linked time) with
    | calm _ sleepers => exact absurd (sleepers.resolve_left otherwise) forgets
    | downs id downs detached =>
      obtain ⟨since, stands⟩ := history.current_of_hook (works downs) (detached.sleepers forgets)
      exact ⟨id, since, stands, downs⟩
  · have found := history.hook_of_current stands (works downs)
    obtain ⟨thread, present, _⟩ := Domain.present_of_hook found
    exact (downs.detached (linked time) present).fires hook found
  · rcases Nat.lt_trichotomy first second with earlier | same | later
    · exact absurd downs (again.kept first stands.before earlier).2
    · exact same
    · exact absurd twice (stands.kept second again.before later).2

end

/-- A thread is suspended with a hook and aborted twice. -/
def abortingTwice : Program Unit Unit Int32 := do
  let _ ← Program.update .createThread
  let _ ← Program.update (.suspend ⟨0⟩ (some (.custom ())))
  let _ ← Program.request (.abort ⟨0⟩)
  let _ ← Program.request (.abort ⟨0⟩)
  return 0

/-- A host whose hooks suspend the aborted thread once more, and arm themselves again. -/
def rearmingHost : Host Unit Unit where
  native _ _ := .done 0
  onAbort _ id := .bind (.update (.suspend id (some (.custom ())))) fun _ => .done 0
  onLimit _ _ state := state
  onEvent _ _ state := state

/-- A hook that arms itself again is called by each of two aborts, for another arming each time. -/
theorem armed_hooks_fire_once_rearmed :
    let configs := fun time => (Config.initial {} () abortingTwice).run rearmingHost time
    let hook : AbortHook Unit := .custom ()
    History rearmingHost (fun _ => True) configs ∧
      Current rearmingHost configs ⟨0⟩ hook 1 2 ∧ (configs 2).Fires rearmingHost ⟨0⟩ hook ∧
      Current rearmingHost configs ⟨0⟩ hook 3 5 ∧ (configs 5).Fires rearmingHost ⟨0⟩ hook ∧
      ¬Current rearmingHost configs ⟨0⟩ hook 1 5 := by
  intro configs hook
  have history : History rearmingHost (fun _ => True) configs :=
    .of_initial () (Program.asks_of_forall (fun _ => trivial) _)
  obtain ⟨_, _, fires, once⟩ := armed_hooks_fire_once history
  have first : Current rearmingHost configs ⟨0⟩ hook 1 2 :=
    ⟨⟨_, _, rfl, rfl, rfl⟩, by decide, fun between later earlier => by omega⟩
  have again : Current rearmingHost configs ⟨0⟩ hook 3 5 := by
    refine ⟨⟨_, _, rfl, rfl, rfl⟩, by decide, fun between later earlier => ?_⟩
    obtain rfl : between = 4 := by omega
    have ended : (configs 4).focus = .body (.done 0) := rfl
    refine ⟨fun slips => ?_, fun downs => ?_⟩
    · have calm : (configs 4).meddles = false := by decide +kernel
      exact Bool.false_ne_true (calm.symm.trans slips.meddles)
    · cases downs with
      | asked focus | faulted focus _ | restarted focus _ _ _ _ _ =>
        rw [ended] at focus
        cases focus
      | honored _ waiting _ _ _ _ => cases waiting
  have downs : (configs 2).TakesDown ⟨0⟩ := .asked rfl
  have twice : (configs 5).TakesDown ⟨0⟩ := .asked rfl
  refine ⟨history, first, fires _ _ _ _ first downs, again, fires _ _ _ _ again twice,
    fun stale => ?_⟩
  have same := once _ _ _ _ _ first downs stale twice
  cases same

end Config

end ScriptMachine

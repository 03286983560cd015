import ScriptMachine.Proofs.Armings
import ScriptMachine.Proofs.Unobserved

/-!
# What an abort leaves behind

Aborting a thread that does not run takes its frames, ends its suspension, takes it out of its queue
and calls its hook, and that is all: what the thread computed, the other threads, the variables and
the other waiters are as before, provided that the hook leaves the domain alone. A second abort then
finds nothing to do.
-/

namespace ScriptMachine

variable {ν σ : Type}

/-- An update that concerns the sleepers or the native objects, but not the domain. -/
def Update.SparesDomain : Update ν → Prop
  | .createNative _ | .release _ | .takeDue _ _ | .clearSleepers | .hold _ _ | .unhold _
  | .borrow _ | .unborrow _ => True
  | _ => False

/-- A request that looks at the world, or changes something beside the domain. -/
def Request.SparesDomain : Request ν → Prop
  | .observe => True
  | .update change => change.SparesDomain
  | _ => False

/-- An update that does not concern the domain is carried out and leaves the domain as it is. -/
theorem Update.SparesDomain.apply {update : Update ν} (spares : update.SparesDomain)
    (world : World ν) :
    ∃ next answer, update.apply world = .ok (next, answer) ∧ next.domain = world.domain := by
  cases update with
  | createNative _ | release _ | clearSleepers | unborrow _ => exact ⟨_, _, rfl, rfl⟩
  | unhold arguments => exact ⟨_, _, rfl, (World.modifyArguments_frame _ _ _).1⟩
  | takeDue now below =>
    cases taken : world.sleepers.takeDue now below with
    | none => exact ⟨world, .thread none, by simp only [Update.apply, taken], rfl⟩
    | some found =>
      exact ⟨{ world with sleepers := found.2 }, .thread (some found.1),
        by simp only [Update.apply, taken], rfl⟩
  | hold parameters values =>
    cases resolved : world.arguments parameters values with
    | error error => exact ⟨_, _, by simp only [Update.apply, resolved]; rfl, rfl⟩
    | ok arguments =>
      exact ⟨_, _, by simp only [Update.apply, resolved]; rfl,
        (World.modifyArguments_frame _ _ _).1⟩
  | borrow index =>
    simp only [Update.apply]
    split
    · exact ⟨_, _, rfl, rfl⟩
    · split <;> exact ⟨_, _, rfl, rfl⟩
  | _ => cases spares

/-! ## The domain after an abort -/

/-- A thread that does not run has lost its frames, its suspension, its place in a queue and its
hook, and nothing else has changed. -/
structure Domain.Cleaned (id : ThreadId) (before after : Domain ν) : Prop where
  thread : ∃ thread execution, before.thread? id = some thread ∧
    thread.execution = some execution ∧ after.thread? id = some { thread with
      execution := some { execution with frames := [] }
      suspended := false, waitingOn := none, hook := none }
  others : ∀ other, other ≠ id → after.thread? other = before.thread? other
  /-- The other waiters keep their order. -/
  queues : ∀ queue, after.waitersOf queue = (before.waitersOf queue).filter (· ≠ id)
  sizes : after.threads.size = before.threads.size ∧ after.queues.size = before.queues.size
  rest : { after with threads := before.threads, queues := before.queues } = before

namespace Domain

variable {domain next : Domain ν} {id : ThreadId}

/-- Detaching a thread concerns the threads and the queues only. -/
theorem detach_frame {hook : Option (AbortHook ν)}
    (done : domain.detach id = .ok (next, hook)) :
    (next.threads.size = domain.threads.size ∧ next.queues.size = domain.queues.size) ∧
      { next with threads := domain.threads, queues := domain.queues } = domain := by
  obtain ⟨thread, looked, changed⟩ := bind_eq_ok.1 done
  cases recorded : thread.waitingOn with
  | none =>
    rw [recorded] at changed
    cases changed
    exact ⟨⟨by simp [setThread], rfl⟩, rfl⟩
  | some queue =>
    rw [recorded] at changed
    obtain ⟨middle, unlinked, handed⟩ := bind_eq_ok.1 changed
    obtain ⟨waiters, found, made⟩ := bind_eq_ok.1 unlinked
    cases made
    cases handed
    exact ⟨⟨by simp [setThread, setWaiters], by simp [setThread, setWaiters]⟩, rfl⟩

/-- A thread that leaves the queue it recorded is the only one to leave. -/
theorem Linked.waitersWithout_eq_filter (linked : domain.Linked) {thread : Thread ν}
    (present : domain.thread? id = some thread) (queue : QueueId) :
    domain.waitersWithout thread.waitingOn id queue =
      (domain.waitersOf queue).filter (· ≠ id) := by
  unfold waitersWithout
  split
  · rw [(linked.once queue).erase_eq_filter]
    exact List.filter_congr fun other _ => Bool.eq_iff_iff.2 (by simp)
  · rename_i elsewhere
    refine (List.filter_eq_self.2 fun other waiting => ?_).symm
    have apart : other ≠ id := by
      rintro rfl
      exact elsewhere ((linked.waits other thread queue present).2 waiting)
    simpa using apart

/-- Discarding the frames of a thread that does not run and detaching it cleans it. -/
theorem Linked.cleaned (linked : domain.Linked) {thread : Thread ν} {execution : Execution ν}
    (present : domain.thread? id = some thread) (held : thread.execution = some execution)
    (reason : AbortReason) :
    ∃ discarded cleaned, domain.discard id reason = .ok discarded ∧
      discarded.detach id = .ok (cleaned, thread.hook) ∧ Cleaned id domain cleaned := by
  let stopped := { thread with execution := some { execution with frames := [] } }
  have discarded := discard_held present held reason
  have there : (domain.setThread id stopped).thread? id = some stopped := by
    rw [thread?_setThread present, if_pos rfl]
  obtain ⟨⟨cleaned, hook⟩, done⟩ := (linked.discard discarded).detach_isOk there
  obtain ⟨found, known, rfl, threads, queues⟩ := detach_eq_ok done
  obtain rfl := Option.some.inj (there.symm.trans known)
  obtain ⟨sizes, rest⟩ := detach_frame done
  refine ⟨_, cleaned, discarded, done, ?_⟩
  exact {
    thread := ⟨thread, execution, present, held, by rw [threads, if_pos rfl]⟩
    others := fun other apart => by
      rw [threads, if_neg apart, thread?_setThread present, if_neg apart]
    queues := fun queue => by
      rw [queues]
      exact linked.waitersWithout_eq_filter present queue
    sizes := by simpa [Domain.setThread] using sizes
    rest := congrArg (fun same : Domain ν => { same with threads := domain.threads }) rest }

/-- A thread that has been cleaned waits nowhere. -/
theorem Cleaned.waits_nowhere {before : Domain ν} (cleaned : Cleaned id before domain)
    (queue : QueueId) : id ∉ domain.waitersOf queue := by
  rw [cleaned.queues]
  simp

/-- Discarding the frames of a thread that has been cleaned, and detaching it, changes nothing, and
no hook is due. -/
theorem Cleaned.again {before : Domain ν} (cleaned : Cleaned id before domain)
    (reason : AbortReason) :
    domain.discard id reason = .ok domain ∧ domain.detach id = .ok (domain, none) := by
  obtain ⟨thread, execution, _, _, present⟩ := cleaned.thread
  have looked := thread_eq_ok.2 present
  have same := setThread_self present
  refine ⟨(discard_held present rfl reason).trans (congrArg Except.ok same), ?_⟩
  simp only [detach, looked, bind, Except.bind, pure, Except.pure, same]

end Domain

namespace Config

variable {host : Host ν σ} {config : Config ν σ} {id : ThreadId} {next : Answer ν → Body ν σ}

/-! ## A hook that leaves the domain alone -/

/-- For a number of steps a body has been carried out above the same waiting work, in the same
domain, and no hook has been called. -/
structure Aloof (host : Host ν σ) (config : Config ν σ) (steps : Nat) : Prop where
  domain : (config.run host steps).world.domain = config.world.domain
  pending : ∀ moment ≤ steps, (config.run host moment).pending = config.pending
  silent : ∀ moment < steps, ∀ body, ¬(config.run host moment).CallsHook host body

/-- A step of a body that leaves the waiting work and the domain alone comes before what follows. -/
theorem Aloof.cons {steps : Nat} (after : Aloof host (config.step host) steps)
    (pending : (config.step host).pending = config.pending)
    (beneath : config.beneath = config.pending)
    (domain : (config.step host).world.domain = config.world.domain) :
    Aloof host config (steps + 1) where
  domain := by rw [run_succ, after.domain, domain]
  pending moment upTo := by
    cases moment with
    | zero => rfl
    | succ moment => rw [run_succ, after.pending moment (by omega), pending]
  silent moment earlier body := by
    cases moment with
    | zero => exact not_callsHook (pending.trans beneath.symm)
    | succ moment =>
      rw [run_succ]
      exact after.silent moment (by omega) body

/-- A body that makes only requests that spare the domain arrives at its end, or stops the machine
by itself. -/
theorem aloof_of_asks {body : Body ν σ} (spares : body.Asks Request.SparesDomain)
    (focus : config.focus = .body body) :
    ∃ steps, Aloof host config steps ∧
      ((∃ value, (config.run host steps).focus = .body (.done value)) ∨
        ∃ fault, (config.run host steps).focus = .body (.crash fault)) := by
  induction body generalizing config with
  | done value =>
    exact ⟨0, ⟨rfl, fun moment upTo => by rw [Nat.le_zero.1 upTo]; rfl,
      fun moment earlier => by omega⟩, .inl ⟨value, focus⟩⟩
  | crash fault =>
    exact ⟨0, ⟨rfl, fun moment upTo => by rw [Nat.le_zero.1 upTo]; rfl,
      fun moment earlier => by omega⟩, .inr ⟨fault, focus⟩⟩
  | modify change next ih =>
    have made : config.step host = { config with
        state := change config.state, focus := .body (next (change config.state)) } := by
      simp only [step, focus]
    obtain ⟨steps, aloof, ended⟩ := ih _ (spares _) (congrArg Config.focus made)
    refine ⟨steps + 1, aloof.cons (by rw [made]) (by simp only [beneath, focus]) (by rw [made]), ?_⟩
    simpa only [run_succ] using ended
  | ask request next ih =>
    obtain ⟨spared, goes⟩ := spares
    obtain ⟨world, answer, same, made⟩ : ∃ world answer, world.domain = config.world.domain ∧
        config.step host = { config with world, focus := .body (next answer) } := by
      cases request with
      | observe =>
        exact ⟨config.world, _, rfl, by simp only [step, focus, perform]; rfl⟩
      | update update =>
        have spares : update.SparesDomain := spared
        obtain ⟨world, answer, applied, same⟩ := spares.apply config.world
        exact ⟨world, answer, same, by simp only [step, focus, perform, applied, attempt_ok]⟩
      | _ => cases spared
    obtain ⟨steps, aloof, ended⟩ := ih _ (goes _) (congrArg Config.focus made)
    refine ⟨steps + 1, aloof.cons (by rw [made]) (beneath_of_ask focus) (by rw [made]; exact same),
      ?_⟩
    simpa only [run_succ] using ended

/-! ## Aborting -/

/-- The hook of a thread that has been detached is called, if there is one, and the abort goes on
after it. -/
def callHook (host : Host ν σ) (config : Config ν σ) (id : ThreadId) (after : AfterAbort ν σ) :
    Option (AbortHook ν) → Config ν σ
  | none => config.afterAbort host after
  | some .leaveSleep =>
    { config with
      world := { config.world with sleepers := config.world.sleepers.remove id } }.afterAbort
        host after
  | some (.custom reference) =>
    { config with
      focus := .body (host.onAbort reference id)
      pending := .aborting after :: config.pending }

/-- An abort discards the frames of the thread, detaches it and calls its hook. -/
theorem abort_eq_callHook {reason : AbortReason} {discarded cleaned : Domain ν}
    {hook : Option (AbortHook ν)} (first : config.world.domain.discard id reason = .ok discarded)
    (second : discarded.detach id = .ok (cleaned, hook)) (after : AfterAbort ν σ) :
    config.abort host id reason after =
      (config.setDomain cleaned).callHook host id after hook := by
  simp only [Config.abort, first, attempt_ok, Config.detach, setDomain_world, second]
  cases hook with
  | none => rfl
  | some hook => cases hook <;> rfl

/-- What the abort of a thread by a body does, after a number of steps. -/
structure AbortsCleanly (host : Host ν σ) (id : ThreadId) (next : Answer ν → Body ν σ)
    (thread : Thread ν) (config : Config ν σ) (steps : Nat) : Prop where
  cleaned : Domain.Cleaned id config.world.domain (config.run host steps).world.domain
  /-- The body goes on, unless the hook of the host stops the machine. -/
  ends : config.GoesOn host steps (next .done) ∧
      (config.run host steps).pending = config.pending ∨
    (∃ reference, thread.hook = some (.custom reference)) ∧
      ∃ fault, (config.run host steps).focus = .body (.crash fault)
  /-- An armed hook is called by the abort. -/
  fires : ∀ hook, thread.hook = some hook → config.Fires host id hook
  /-- It is called once, and no other hook is. -/
  once : ∀ moment < steps, ∀ body, (config.run host moment).CallsHook host body →
    moment = 0 ∧ ∃ reference, thread.hook = some (.custom reference) ∧
      body = host.onAbort reference id
  /-- Beside the domain, only the hook changes anything. -/
  beside : (thread.hook = none →
      (config.run host steps).world.sleepers = config.world.sleepers) ∧
    ((∀ reference, thread.hook ≠ some (.custom reference)) →
      (config.run host steps).world.natives = config.world.natives ∧
      (config.run host steps).state = config.state)

/-- A hook of the host that has been called and leaves the domain alone comes to its end, and the
body that asked for the abort goes on, or the hook stops the machine. -/
theorem hook_aloof {reference : ν} (spares : (host.onAbort reference id).Asks Request.SparesDomain)
    (called : (config.step host).focus = .body (host.onAbort reference id))
    (waits : (config.step host).pending = .aborting (.reply next) :: config.pending) :
    ∃ steps, (config.run host steps).world.domain = (config.step host).world.domain ∧
      (config.GoesOn host steps (next .done) ∧ (config.run host steps).pending = config.pending ∨
        ∃ fault, (config.run host steps).focus = .body (.crash fault)) ∧
      ∀ moment, 0 < moment → moment < steps → ∀ body,
        ¬(config.run host moment).CallsHook host body := by
  obtain ⟨count, aloof, ⟨value, ended⟩ | ⟨fault, crashed⟩⟩ :=
    @aloof_of_asks _ _ host (config.step host) _ spares called
  · have stands : ((config.step host).run host count).pending =
        .aborting (.reply next) :: config.pending :=
      (aloof.pending count (Nat.le_refl _)).trans waits
    have made : config.run host (count + 2) =
        { (config.step host).run host count with
          pending := config.pending, focus := .body (next .done) } := by
      rw [run_succ, run_succ_last, step_of_aborting ended stands]
      rfl
    refine ⟨count + 2, by rw [made]; exact aloof.domain, .inl ⟨?_, by rw [made]⟩, ?_⟩
    · refine ⟨by omega, by rw [made], by rw [made], fun between positive earlier level => ?_⟩
      obtain ⟨moment, rfl⟩ := Nat.exists_eq_succ_of_ne_zero (Nat.pos_iff_ne_zero.1 positive)
      rw [run_succ, aloof.pending moment (by omega), waits] at level
      simp at level
    · intro moment positive earlier body
      obtain ⟨moment, rfl⟩ := Nat.exists_eq_succ_of_ne_zero (Nat.pos_iff_ne_zero.1 positive)
      rw [run_succ]
      rcases Nat.eq_or_lt_of_le (Nat.le_of_lt_succ (by omega : moment < count + 1)) with
        rfl | inside
      · refine not_callsHook ?_
        rw [← run_succ_last, ← run_succ, made]
        simp only [beneath, ended, stands, List.tail_cons]
      · exact aloof.silent moment inside body
  · refine ⟨count + 1, by rw [run_succ]; exact aloof.domain,
      .inr ⟨fault, by rw [run_succ]; exact crashed⟩, fun moment positive earlier body => ?_⟩
    obtain ⟨moment, rfl⟩ := Nat.exists_eq_succ_of_ne_zero (Nat.pos_iff_ne_zero.1 positive)
    rw [run_succ]
    exact aloof.silent moment (by omega) body

/-- Aborting a thread that does not run, from a linked domain. -/
theorem abortsCleanly (linked : config.world.domain.Linked) {thread : Thread ν}
    {execution : Execution ν} (focus : config.focus = .body (.ask (.abort id) next))
    (present : config.world.domain.thread? id = some thread)
    (held : thread.execution = some execution)
    (spares : ∀ reference, thread.hook = some (.custom reference) →
      (host.onAbort reference id).Asks Request.SparesDomain) :
    ∃ steps, AbortsCleanly host id next thread config steps := by
  obtain ⟨discarded, cleaned, first, second, cleans⟩ := linked.cleaned present held .requested
  have made : config.step host =
      (config.setDomain cleaned).callHook host id (.reply next) thread.hook := by
    rw [← abort_eq_callHook first second]
    simp only [step, focus, perform]
  have detached := @TakesDown.detached _ _ host config id (.asked focus) linked _ present
  have armed : (config.world.domain.suspension id).hook = thread.hook := by
    simp only [Domain.suspension, present]
    rfl
  have fires (hook : AbortHook ν) (found : thread.hook = some hook) : config.Fires host id hook :=
    detached.fires hook (armed.trans found)
  have calls (body : Body ν σ) (called : config.CallsHook host body) : ∃ reference,
      thread.hook = some (.custom reference) ∧ body = host.onAbort reference id := by
    obtain ⟨reference, found, same⟩ := detached.calls body called
    exact ⟨reference, armed.symm.trans found, same⟩
  have one : config.run host 1 = config.step host := run_succ host config 0
  -- Without a hook of the host the abort takes a single step.
  have short (focus : (config.step host).focus = .body (next .done))
      (pending : (config.step host).pending = config.pending) :
      config.GoesOn host 1 (next .done) ∧ (config.run host 1).pending = config.pending :=
    ⟨⟨Nat.one_pos, one ▸ focus, by rw [one, pending], fun between positive earlier => by omega⟩,
      one ▸ pending⟩
  have single (moment : Nat) (earlier : moment < 1) (body : Body ν σ)
      (called : (config.run host moment).CallsHook host body) : moment = 0 ∧ ∃ reference,
        thread.hook = some (.custom reference) ∧ body = host.onAbort reference id := by
    obtain rfl := Nat.lt_one_iff.1 earlier
    exact ⟨rfl, calls body called⟩
  cases hook : thread.hook with
  | none =>
    rw [hook] at made
    refine ⟨1, ?_, .inl (short (by rw [made]; rfl) (by rw [made]; rfl)), fires, single, ?_⟩
    · rw [one, made]
      exact cleans
    · rw [one, made]
      exact ⟨fun _ => rfl, fun _ => ⟨rfl, rfl⟩⟩
  | some armedHook =>
    cases armedHook with
    | leaveSleep =>
      rw [hook] at made
      refine ⟨1, ?_, .inl (short (by rw [made]; rfl) (by rw [made]; rfl)), fires, single, ?_⟩
      · rw [one, made]
        exact cleans
      · rw [one, made]
        exact ⟨fun free => by simp [hook] at free, fun _ => ⟨rfl, rfl⟩⟩
    | custom reference =>
      rw [hook] at made
      obtain ⟨steps, same, ends, silent⟩ := @hook_aloof _ _ host config id next _
        (spares reference hook) (by rw [made]; rfl) (by rw [made]; rfl)
      refine ⟨steps, ?_, ends.imp_right fun crashed => ⟨⟨reference, hook⟩, crashed⟩, fires,
        fun moment earlier body called => ?_, fun free => by simp [hook] at free,
        fun none => absurd hook (none reference)⟩
      · rw [same, made]
        exact cleans
      · rcases Nat.eq_zero_or_pos moment with rfl | positive
        · exact ⟨rfl, calls body called⟩
        · exact absurd called (silent moment positive earlier body)

/-- A second abort of a thread that has been cleaned only answers. -/
theorem step_abort_cleaned {before : Domain ν}
    (cleaned : Domain.Cleaned id before config.world.domain)
    (focus : config.focus = .body (.ask (.abort id) next)) :
    config.step host = config.goto (.body (next .done)) := by
  obtain ⟨first, second⟩ := cleaned.again .requested
  have made : config.step host = config.abort host id .requested (.reply next) := by
    simp only [step, focus, perform]
  rw [made, abort_eq_callHook first second]
  rfl

/-- In every reachable configuration a body may abort a thread that does not run, unless the hook
that is armed for it operates on the domain itself. The abort is carried out cleanly: the thread has
no frames, is not suspended, waits nowhere and has no hook; what it computed, the other threads, the
variables and the tables stay as they are, and so do the queues but for the thread, which has left;
an armed hook has been called, once, and no other hook has been. A second abort then changes nothing
and calls nobody: its only effect is that the body which asks for it goes on. -/
theorem aborts_leave_clean_threads {allowed : Request ν → Prop}
    (reached : config.Reachable host allowed) {thread : Thread ν} {execution : Execution ν}
    (focus : config.focus = .body (.ask (.abort id) next))
    (present : config.world.domain.thread? id = some thread)
    (held : thread.execution = some execution)
    (spares : ∀ reference, thread.hook = some (.custom reference) →
      (host.onAbort reference id).Asks Request.SparesDomain) :
    ∃ steps, AbortsCleanly host id next thread config steps ∧
      (∀ queue, id ∉ (config.run host steps).world.domain.waitersOf queue) ∧
      ∀ (again : Config ν σ) (later : Answer ν → Body ν σ),
        again.world.domain = (config.run host steps).world.domain →
        again.focus = .body (.ask (.abort id) later) →
        again.step host = again.goto (.body (later .done)) ∧
          ∀ body, ¬again.CallsHook host body := by
  obtain ⟨steps, clean⟩ :=
    abortsCleanly (linked_of_reachable reached) focus present held spares
  refine ⟨steps, clean, clean.cleaned.waits_nowhere, fun again later same asks => ?_⟩
  have made := @step_abort_cleaned _ _ host again id later _ (same ▸ clean.cleaned) asks
  refine ⟨made, fun body => not_callsHook ?_⟩
  rw [made, beneath_of_ask asks]
  rfl

/-- Three threads wait in a queue, a hook is armed for the second one, and it is aborted twice. -/
def abortingWaiter : Program Unit Unit Int32 := do
  let _ ← Program.update .createThread
  let _ ← Program.update .createThread
  let _ ← Program.update .createThread
  let _ ← Program.update (.park ⟨2⟩ ⟨0⟩)
  let _ ← Program.update (.park ⟨2⟩ ⟨1⟩)
  let _ ← Program.update (.park ⟨2⟩ ⟨2⟩)
  let _ ← Program.update (.suspend ⟨1⟩ (some (.custom ())))
  let _ ← Program.request (.abort ⟨1⟩)
  let _ ← Program.request (.abort ⟨1⟩)
  return 0

/-- The second of three waiters, for which a hook is armed, leaves the queue when it is aborted, and
the hook is called. -/
theorem aborts_leave_clean_threads_waiting :
    let config := (Config.initial {} () abortingWaiter).run idleHost 7
    config.Reachable idleHost (fun _ => True) ∧
      config.world.domain.waitersOf ⟨2⟩ = [⟨0⟩, ⟨1⟩, ⟨2⟩] ∧
      ∃ next thread steps, config.focus = .body (.ask (.abort ⟨1⟩) next) ∧
        thread.hook = some (.custom ()) ∧ AbortsCleanly idleHost ⟨1⟩ next thread config steps ∧
        config.CallsHook idleHost (idleHost.onAbort () ⟨1⟩) ∧
        (config.run idleHost steps).world.domain.waitersOf ⟨2⟩ = [⟨0⟩, ⟨2⟩] := by
  intro config
  have reached : config.Reachable idleHost (fun _ => True) :=
    Reachable.run (.initial () abortingWaiter (Program.asks_of_forall (fun _ => trivial) _)) 7
  have waiting : config.world.domain.waitersOf ⟨2⟩ = [⟨0⟩, ⟨1⟩, ⟨2⟩] := by decide +kernel
  obtain ⟨steps, clean, _, _⟩ := @aborts_leave_clean_threads _ _ idleHost config ⟨1⟩ _ _ reached _ _
    rfl rfl rfl fun _ _ => trivial
  refine ⟨reached, waiting, _, _, steps, rfl, rfl, clean, clean.fires (.custom ()) rfl, ?_⟩
  rw [clean.cleaned.queues, waiting]
  decide

end Config

end ScriptMachine

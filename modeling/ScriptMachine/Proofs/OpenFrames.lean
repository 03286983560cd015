import ScriptMachine.Proofs.Arguments
import ScriptMachine.Proofs.FrameAccounts
import ScriptMachine.Proofs.FrameScopes
import ScriptMachine.Proofs.Repeatability

/-!
# Open frames

A frame is entered when it is first run, and may be left in a later run of its thread, or never, if
the thread is aborted. Since a function was last started on a thread, every frame that is left is
the one that was entered last of those that have not been left, and these are the frames that the
thread holds, until it is aborted.
-/

namespace ScriptMachine

variable {ν σ : Type}

namespace Config

variable {host : Host ν σ} {config next : Config ν σ} {run : Run ν σ} {registers : Registers ν}
  {id : ThreadId} {unclosed : List (Function ν)} {reply : Answer ν → Body ν σ}

/-! ## Steps -/

/-- The thread on which a function is to be started by this step: the request is at hand, or the
hook has ended that was called to make room for the function. -/
def startsOn? (config : Config ν σ) : Option ThreadId :=
  match config.focus with
  | .body (.ask request _) => request.starts?
  | .body (.done _) =>
    match config.pending with
    | .aborting after :: _ => after.starts?
    | _ => none
  | _ => none

/-- A function is started on a thread by this step, which leaves the thread with a single frame that
has not been entered. -/
def StartsAfresh (host : Host ν σ) (config : Config ν σ) (id : ThreadId) : Prop :=
  config.startsOn? = some id ∧ (config.step host).Fresh id

/-- If a hook has ended that was called to make room for a function on this thread, it has left the
thread without frames, as it was when the hook was called. -/
def HooksSpare (config : Config ν σ) (id : ThreadId) : Prop :=
  ∀ function purpose next rest, config.MadeRoom id function purpose next rest →
    ∀ thread, config.world.domain.thread? id = some thread → thread.isIdle

/-- A hook that has ended lets a function be started. -/
theorem MadeRoom.startsOn? {function : Function ν} {purpose : Option Purpose}
    {rest : List (Pending ν σ)} (made : config.MadeRoom id function purpose reply rest) :
    config.startsOn? = some id := by
  obtain ⟨⟨value, focus⟩, pending⟩ := made
  simp only [Config.startsOn?, focus, pending, AfterAbort.starts?]

/-- The frames of a thread account for what it has open after what has been reported. An abort
closes nothing. -/
structure Accounted (host : Host ν σ) (id : ThreadId) (unclosed : List (Function ν))
    (config next : Config ν σ) (later : List (Function ν)) : Prop where
  accounts : next.Accounts id later
  reported (scopes : List (Event ν)) (before : Unclosed scopes unclosed) :
    Unclosed (scopes ++ config.scopes host id) later
  aborted (run : Run ν σ) (info : AbortInfo) (focus : next.focus = .ended run (.aborted info)) :
    later = unclosed

/-- Nothing is reported of the frames of the thread. -/
theorem Accounts.accounted (accounts : next.Accounts id unclosed)
    (silent : config.scopes host id = []) :
    ∃ later, Accounted host id unclosed config next later := by
  refine ⟨unclosed, accounts, fun scopes before => ?_, fun _ _ _ => rfl⟩
  rw [silent, List.append_nil]
  exact before

/-- While a run of the thread is at hand, its frames are nowhere else. -/
theorem Nested.covered (nested : config.Nested) (focus : config.focus.run? = some run)
    (same : run.thread = id) (unclosed : List (Function ν)) : config.Covered id unclosed := by
  have disciplined := nested.disciplined fun fault faulted => by
    rw [faulted] at focus
    cases focus
  have running : config.runningThreads =
      id :: (config.pending.filterMap Pending.run?).map Run.thread := by
    simp [runningThreads, runs, focus, same]
  refine ⟨fun thread execution present held => ?_, fun work waiting =>
    Pending.accounts_of_ne (fun other found here => ?_) unclosed⟩
  · obtain ⟨_, there, taken⟩ := (disciplined.taken id).1 (running ▸ List.mem_cons_self)
    obtain rfl := Option.some.inj (present.symm.trans there)
    rw [held] at taken
    cases taken
  · have distinct := disciplined.distinct
    rw [running] at distinct
    exact (List.nodup_cons.1 distinct).1
      (List.mem_map.2 ⟨other, List.mem_filterMap.2 ⟨work, waiting, found⟩, here⟩)

/-- A thread that holds a single frame, which has not been entered, has nothing open. -/
theorem Fresh.accounts (nested : config.Nested) (fresh : config.Fresh id) :
    config.Accounts id [] := by
  by_cases stopped : ∃ fault, config.focus = .faulted fault
  · obtain ⟨fault, focus⟩ := stopped
    exact .faulted fault focus
  · have disciplined := nested.disciplined fun fault focus => stopped ⟨fault, focus⟩
    obtain ⟨thread, execution, frame, present, held, frames, unrun⟩ |
      ⟨run, frame, focus, same, frames, unrun⟩ := fresh
    · have opened : Opened execution.frames [] := by
        rw [frames]
        exact .fresh unrun (by simp)
      have absent {run : Run ν σ} (found : run ∈ config.runs) : run.thread ≠ id := by
        rintro rfl
        obtain ⟨_, there, taken⟩ := (disciplined.taken _).1 (List.mem_map_of_mem found)
        obtain rfl := Option.some.inj (present.symm.trans there)
        rw [held] at taken
        cases taken
      refine .covered ⟨fun other executed there taken => ?_, fun work waiting => ?_⟩ ?_
      · obtain rfl := Option.some.inj (present.symm.trans there)
        obtain rfl := Option.some.inj (held.symm.trans taken)
        exact .inr opened
      · exact Pending.accounts_of_ne (fun run found => absent (List.mem_append_right _
          (List.mem_filterMap.2 ⟨work, waiting, found⟩))) []
      · exact Focus.accounts_of_ne (fun run found => absent (by simp [runs, found])) []
    · refine .covered (nested.covered (by rw [focus]; rfl) same []) ?_
      rw [focus]
      intro _
      rw [frames]
      exact .fresh unrun (by simp)

/-- A run enters its innermost frame. -/
theorem enterFrame_accounted (host : Host ν σ) (nested : config.Nested)
    (focus : config.focus = .enter run) (covered : config.Covered id unclosed)
    (opened : run.thread = id → Opened run.execution.frames unclosed) :
    ∃ later, Accounted host id unclosed config (config.enterFrame host run) later := by
  have scopes : config.scopes host id =
      if run.thread = id then run.opening.filter (·.kind = .calls) else [] := by
    simp only [Config.scopes, reports, focus]
  by_cases same : run.thread = id
  · have alone := nested.covered (by rw [focus]; rfl) same
    rw [if_pos same] at scopes
    unfold Config.enterFrame
    have opened := opened same
    unfold Run.opening at scopes
    split
    · rename_i bare
      rw [bare] at opened scopes
      refine Accounts.accounted (.goto covered fun _ => ⟨bare, ?_⟩) scopes
      cases opened with
      | entered saved => rfl
    · rename_i frame outer frames
      rw [frames] at opened scopes
      dsimp only at scopes
      split
      · rename_i pc saved
        rw [saved] at scopes
        refine Accounts.accounted (.goto covered fun _ => ?_) scopes
        generalize listed : frame :: outer = all at opened
        cases opened with
        | entered entered =>
          subst listed
          exact .inside frame outer frames rfl fun other inner =>
            entered other (List.mem_cons_of_mem _ inner)
        | fresh unrun =>
          obtain ⟨rfl, rfl⟩ := List.cons.inj listed
          rw [saved] at unrun
          cases unrun
      · rename_i unrun
        rw [unrun] at scopes
        generalize listed : frame :: outer = all at opened
        cases opened with
        | entered entered =>
          have saved := entered frame (listed ▸ List.mem_cons_self)
          rw [unrun] at saved
          cases saved
        | fresh _ saved =>
          obtain ⟨rfl, rfl⟩ := List.cons.inj listed
          refine ⟨_, .goto ((alone _).congr (by simp) (by simp)) fun _ =>
            .inside frame outer frames rfl saved, fun before unclosed => ?_, by simp⟩
          rw [scopes]
          exact unclosed.enter frame.function 0
  · rw [if_neg same] at scopes
    refine Accounts.accounted ?_ scopes
    unfold Config.enterFrame
    split
    · exact .goto covered fun here => absurd here same
    · split
      · exact .goto covered fun here => absurd here same
      · exact .goto (covered.congr (by simp) (by simp)) fun here => absurd here same

/-- A run executes an instruction. -/
theorem execute_accounted (host : Host ν σ) (nested : config.Nested)
    (focus : config.focus = .execute run registers) (covered : config.Covered id unclosed)
    (inside : run.thread = id → run.Inside registers.function unclosed) :
    ∃ later, Accounted host id unclosed config (config.execute host run registers) later := by
  have narrates := execute_narrates host config run registers
  have threads := @threads_execute _ _ host config run registers
  have scopes : config.scopes host id = if run.thread = id then
      (config.instructionReports run registers).filter (·.kind = .calls) else [] := by
    simp only [Config.scopes, reports, focus]
  generalize config.instructionReports run registers = events at narrates scopes
  generalize config.execute host run registers = next at narrates threads
  have same {later : List (Function ν)} (covered : config.Covered id later)
      (pending : next.pending = config.pending) : next.Covered id later :=
    ⟨covered.domain.of_threads threads, pending ▸ covered.pending⟩
  cases narrates with
  | unreadable last info focus pending thread bare
  | aborts following opcode last info focus pending thread bare =>
    refine Accounts.accounted (.covered (same covered pending) ?_)
      (by simp [scopes, Event.kind])
    rw [focus]
    exact fun _ => bare
  | faulted following opcode fault focus | overdraws following opcode kind method fault focus =>
    exact Accounts.accounted (.faulted fault focus) (by simp [scopes, Event.kind, Scope.kind])
  | goes following opcode after moved focus pending thread frames function =>
    refine Accounts.accounted (.covered (same covered pending) ?_)
      (by simp [scopes, Event.kind])
    rw [focus, Focus.Accounts, thread, function]
    exact fun here => (inside here).of_frames frames
  | calls following opcode body moved call focus pending function place =>
    refine Accounts.accounted (.covered ⟨covered.domain.of_threads threads, fun work waiting => ?_⟩
      ?_) (by simp [scopes, Event.kind, Scope.kind])
    · rw [pending] at waiting
      rcases List.mem_cons.1 waiting with rfl | earlier
      · rw [Pending.Accounts, function]
        exact inside
      · exact covered.pending work earlier
    · rw [focus]
      trivial
  | pushes following opcode after callee pc top focus pending thread unrun frames =>
    refine Accounts.accounted (.covered (same covered pending) ?_)
      (by simp [scopes, Event.kind])
    rw [focus, Focus.Accounts, thread, frames]
    intro here
    obtain ⟨frame, outer, first, function, saved⟩ := inside here
    have pushed : Opened (callee :: { frame with pc := some pc, top } :: outer)
        (({ frame with pc := some pc, top } :: outer).map Frame.function) :=
      .fresh unrun (by simpa using saved)
    simpa [Run.saveFrame, first, Run.setFrames, function] using pushed
  | leaves following opcode after focus pending thread frames =>
    by_cases here : run.thread = id
    · obtain ⟨frame, outer, first, function, saved⟩ := inside here
      have alone := nested.covered (by rw [‹config.focus = _›]; rfl) here
      refine ⟨outer.map Frame.function, .covered (same (alone _) pending) ?_,
        fun before unclosed => ?_, by simp [focus]⟩
      · rw [focus, Focus.Accounts, frames, first]
        exact fun _ => .entered saved
      · rw [scopes, if_pos here]
        exact unclosed.leave 0
    · refine Accounts.accounted (.covered (same covered pending) ?_) (by simp [scopes, here])
      rw [focus, Focus.Accounts, thread]
      exact fun same => absurd same here

/-- A body ends. -/
theorem finishBody_accounted (host : Host ν σ) {value : Int32}
    (focus : config.focus = .body (.done value)) (covered : config.Covered id unclosed)
    (spares : config.HooksSpare id) :
    config.StartsAfresh host id ∨ (config.step host).Accounts id unclosed := by
  cases waiting : config.pending with
  | nil =>
    simp only [step, focus, finishBody, waiting]
    exact .inr (.goto covered trivial)
  | cons work rest =>
    have below : Covered id unclosed { config with pending := rest } :=
      ⟨covered.domain, fun work later =>
        covered.pending work (waiting ▸ List.mem_cons_of_mem _ later)⟩
    have accounts := covered.pending work (waiting ▸ List.mem_cons_self)
    cases work with
    | calling run registers call =>
      rw [step_of_calling focus waiting]
      exact .inr (below.returnNative accounts)
    | aborting after =>
      have made := @step_of_aborting _ _ host _ _ _ _ focus waiting
      have renews :=
        @Covered.afterAbort _ _ host _ id unclosed after below accounts fun starts => ?_
      · rw [← made] at renews
        cases renews with
        | accounts accounts => exact .inr accounts
        | fresh starts fresh =>
          exact .inl ⟨by simpa only [Config.startsOn?, focus, waiting] using starts, fresh⟩
      · cases after with
        | reply | stop => cases starts
        | start thread function purpose next =>
          cases starts
          intro found execution present held
          have idle := spares function purpose next rest ⟨⟨value, focus⟩, waiting⟩ found present
          simpa [Thread.isIdle, held] using idle

/-- A step leaves the frames of a thread to account for what it has open, unless a function is
started on the thread. -/
theorem Accounts.step (host : Host ν σ) (nested : config.Nested)
    (accounts : config.Accounts id unclosed) (spares : config.HooksSpare id) :
    config.StartsAfresh host id ∨
      ∃ later, Accounted host id unclosed config (config.step host) later := by
  obtain ⟨fault, focus⟩ | ⟨covered, working⟩ := accounts
  · refine .inr (Accounts.accounted (.faulted fault ?_) ?_)
    · simp only [Config.step, focus]
    · simp only [Config.scopes, focus]
  · cases focus : config.focus with
    | enter run =>
      rw [focus] at working
      have made : config.step host = config.enterFrame host run := by
        simp only [Config.step, focus]
      rw [made]
      exact .inr (enterFrame_accounted host nested focus covered working)
    | execute run registers =>
      rw [focus] at working
      have made : config.step host = config.execute host run registers := by
        simp only [Config.step, focus]
      rw [made]
      exact .inr (execute_accounted host nested focus covered working)
    | ended run outcome =>
      have silent : config.scopes host id = [] := by simp only [Config.scopes, focus]
      rw [focus] at working
      refine .inr (Accounts.accounted ?_ silent)
      simp only [Config.step, focus]
      exact covered.finishRun working
    | finished value | faulted fault =>
      have silent : config.scopes host id = [] := by simp only [Config.scopes, focus]
      refine .inr (Accounts.accounted ?_ silent)
      simp only [Config.step, focus]
      exact .covered covered working
    | body work =>
      have silent : config.scopes host id = [] := by simp only [Config.scopes, focus]
      cases work with
      | done value =>
        exact (finishBody_accounted host focus covered spares).imp_right fun accounts =>
          accounts.accounted silent
      | ask request next =>
        have made : config.step host = config.perform host request next := by
          simp only [Config.step, focus]
        have renews := @Covered.perform _ _ host config id unclosed next request covered
        rw [← made] at renews
        cases renews with
        | accounts accounts => exact .inr (accounts.accounted silent)
        | fresh starts fresh =>
          exact .inl ⟨by simpa only [Config.startsOn?, focus] using starts, fresh⟩
      | modify change next | crash fault =>
        refine .inr (Accounts.accounted ?_ silent)
        simp only [Config.step, focus]
        exact .covered ⟨covered.domain, covered.pending⟩ trivial

/-- A thread that holds a single frame has no run that has ended. -/
theorem Fresh.not_ended (nested : config.Nested) (fresh : config.Fresh id) {outcome : Outcome}
    (focus : config.focus = .ended run outcome) : run.thread ≠ id := by
  rintro rfl
  have disciplined := nested.disciplined (by simp [focus])
  obtain ⟨thread, execution, frame, present, held, _, _⟩ | ⟨other, frame, enters, _, _, _⟩ := fresh
  · obtain ⟨_, there, taken⟩ := (disciplined.taken run.thread).1
      (by simp [runningThreads, runs, focus, Focus.run?])
    obtain rfl := Option.some.inj (present.symm.trans there)
    rw [held] at taken
    cases taken
  · rw [focus] at enters
    cases enters

/-- A run that a step aborts has been in progress, with frames that account for what its thread has
open. -/
theorem Accounts.discards (accounts : config.Accounts id unclosed) {info : AbortInfo}
    (ended : (config.step host).focus = .ended run (.aborted info)) (same : run.thread = id) :
    ∃ before ∈ config.runs, before.thread = id ∧
      before.execution.frames.map Frame.function = unclosed := by
  obtain ⟨fault, stopped⟩ | ⟨covered, working⟩ := accounts
  · simp only [Config.step, stopped] at ended
    cases ended
  · cases step_aborted ended with
    | executes before registers focus =>
      have narrates := execute_narrates host config before registers
      have made : config.step host = config.execute host before registers := by
        simp only [Config.step, focus]
      rw [← made] at narrates
      have thread : run.thread = before.thread := by
        generalize config.instructionReports before registers = events at narrates
        cases narrates with
        | unreadable last info found pending thread
        | aborts following opcode last info found pending thread =>
          cases ended.symm.trans found
          exact thread
        | faulted _ _ _ found | overdraws _ _ _ _ _ found | goes _ _ _ _ found
        | calls _ _ _ _ _ found | pushes _ _ _ _ _ _ found | leaves _ _ _ found =>
          cases ended.symm.trans found
      rw [thread] at same
      rw [focus] at working
      exact ⟨before, by simp [runs, focus, Focus.run?], same, (working same).functions⟩
    | answers value before registers call rest focus pending asked lasts =>
      rw [lasts.thread] at same
      have stands := covered.pending _ (pending ▸ List.mem_cons_self)
      exact ⟨before, by simp [runs, pending, Pending.run?], same, (stands same).functions⟩
    | stops value before function pc rest focus pending lasts =>
      rw [lasts.thread] at same
      have stands := covered.pending _ (pending ▸ List.mem_cons_self)
      exact ⟨before, by simp [runs, pending, Pending.run?, AfterAbort.run?], same, stands same⟩

/-- The frames of a thread account for what it has open in every run of the machine since a function
was last started on the thread. -/
theorem accounts_run (outermost : config.brackets = []) (nested : config.Nested) {start now : Nat}
    (after : start < now) (starts : (config.run host start).StartsAfresh host id)
    (last : ∀ time, start < time → time < now → ¬(config.run host time).StartsAfresh host id)
    (spares : ∀ time, start < time → time < now → (config.run host time).HooksSpare id) :
    ∃ since unclosed,
      frameScopes id (config.trace host now) =
          frameScopes id (config.trace host (start + 1)) ++ since ∧
        Unclosed since unclosed ∧ (config.run host now).Accounts id unclosed ∧
        ∀ run info, (config.run host now).focus = .ended run (.aborted info) → run.thread = id →
          ∃ before ∈ (config.run host (now - 1)).runs, before.thread = id ∧
            before.execution.frames.map Frame.function = unclosed := by
  have nests := nested.run host
  induction now, after using Nat.le_induction with
  | base =>
    have fresh : (config.run host (start + 1)).Fresh id := by
      rw [run_succ_last]
      exact starts.2
    exact ⟨[], [], (List.append_nil _).symm, .nil, fresh.accounts (nests _),
      fun run info focus same => absurd same (fresh.not_ended (nests _) focus)⟩
  | succ now later ih =>
    obtain ⟨since, unclosed, scopes, open', accounts, _⟩ := ih
      (fun time after before => last time after (Nat.lt_succ_of_lt before))
      (fun time after before => spares time after (Nat.lt_succ_of_lt before))
    obtain ⟨further, accounted⟩ :=
      (accounts.step host (nests now) (spares now later (Nat.lt_succ_self now))).resolve_left
        (last now later (Nat.lt_succ_self now))
    refine ⟨since ++ (config.run host now).scopes host id, further, ?_,
      accounted.reported since open', ?_, fun run info focus same => ?_⟩
    · rw [frameScopes_trace outermost, scopes, List.append_assoc]
    · rw [run_succ_last]
      exact accounted.accounts
    · rw [run_succ_last] at focus
      obtain rfl := accounted.aborted run info focus
      exact accounts.discards focus same

/-- The end of a run is reported only when it gives its frames back to its thread, and nothing else
is reported then. -/
theorem ended_of_reports {outcome : Outcome} (reported : .runEnd id outcome ∈ config.reports host) :
    config.reports host = [.runEnd id outcome] ∧
      ∃ run, config.focus = .ended run outcome ∧ run.thread = id ∧
        ∃ thread, (config.step host).world.domain.thread? id = some thread ∧
          thread.execution = some run.execution := by
  have arrives {focus : Focus ν σ} {suspension : List (Event ν)}
      (other : .runEnd id outcome ∉ suspension) :
      .runEnd id outcome ∉ focus.arrival suspension := by
    unfold Focus.arrival Run.starting
    split
    · split <;> simp
    · exact other
    · simp
  unfold reports at reported ⊢
  split at reported
  · unfold Run.opening at reported
    split at reported
    · simp at reported
    · split at reported <;> simp at reported
  · rename_i run registers focus
    have narrates := execute_narrates host config run registers
    generalize config.instructionReports run registers = events at narrates reported
    cases narrates <;> simp at reported
  · rename_i run ending focus
    split at reported
    · simp at reported
    · rename_i thread looked
      obtain ⟨rfl, rfl⟩ := Event.runEnd.inj (List.mem_singleton.1 reported)
      have finished := finishRun_eq host outcome (Domain.thread_eq_ok.1 looked)
      have made : config.step host = config.finishRun host run outcome := by
        simp only [step, focus]
      rw [made]
      exact ⟨rfl, run, focus, rfl, _, finished.2, rfl⟩
  · split at reported
    · rcases List.mem_cons.1 reported with exits | arrived
      · cases exits
      · exact absurd arrived (arrives (by simp))
    · exact absurd reported (arrives (by simp))
  · exact absurd reported (arrives (by simp))

/-- The end of a run in a trace has been reported by a single step. -/
theorem exists_end {outcome : Outcome} {before after : List (Event ν)} {time : Nat}
    (ends : config.trace host time = before ++ .runEnd id outcome :: after) :
    ∃ now < time, config.trace host now = before ∧
      config.trace host (now + 1) = before ++ [.runEnd id outcome] := by
  induction time generalizing after with
  | zero =>
    rw [trace] at ends
    simp at ends
  | succ time ih =>
    have last {first : List (Event ν)} (whole : (config.run host time).reports host =
        first ++ .runEnd id outcome :: after) : first = [] ∧
          (config.run host time).reports host = [.runEnd id outcome] := by
      have alone := (@ended_of_reports _ _ host (config.run host time) id outcome
        (by rw [whole]; simp)).1
      obtain ⟨nothing, _⟩ : first = [] ∧ after = [] := by
        rw [alone, List.singleton_eq_append_iff] at whole
        simpa using whole
      exact ⟨nothing, alone⟩
    rw [trace, List.append_eq_append_iff] at ends
    rcases ends with ⟨first, rfl, whole⟩ | ⟨inner, earlier, whole⟩
    · obtain ⟨rfl, alone⟩ := last whole
      exact ⟨time, Nat.lt_succ_self time, by simp, by rw [trace, alone]; simp⟩
    · cases inner with
      | nil =>
        have alone := (@last [] whole.symm).2
        exact ⟨time, Nat.lt_succ_self time, by simpa using earlier,
          by rw [trace, alone, earlier]; simp⟩
      | cons event inner =>
        obtain ⟨rfl, _⟩ := List.cons.inj whole
        obtain ⟨now, sooner, shown, told⟩ := ih earlier
        exact ⟨now, Nat.lt_succ_of_lt sooner, shown, told⟩

/-- What a sink for all kinds of events is shown, if no callback replaces it, is well bracketed.
Runs nest, and end with the thread that they have started with. While a native call is open,
nothing is shown of the run that has made it before the call is closed with the same kind, method,
function and offset. The end of a run that has been suspended directly follows the suspension, and
a step that shows the end of a run shows nothing else.

Since a function was last started on a thread, and unless hooks have left frames to the thread
that they were called for, every frame of the thread that is left is the one that was entered last
of those that are open. When a run of the thread ends, as many frames are open as the thread
holds: none if the run is complete, and those that are kept if it is suspended. If it is aborted,
these are the frames that the run has had before, and none of them is kept. -/
theorem traces_are_bracketed {ρ : Type} {former : Host ν ρ} {allowed : Request ν → Prop}
    {earlier : Config ν ρ} {value : Int32} (reached : earlier.Reachable former allowed)
    (ended : earlier.focus = .finished value) (hosted : host.Asks Request.KeepsSink) (state : σ)
    {body : Body ν σ} (asks : body.Asks Request.KeepsSink) (reference : ν) :
    let config := fun time =>
      traced host earlier.world state body time (some ⟨reference, .full⟩)
    let trace := fun time => (config time).state.2
    (∀ time, ∃ brackets, Event.Bracketed [] (trace time) brackets ∧
        ∀ value, (config time).focus = .finished value → brackets = []) ∧
      (∀ time before after id, trace time = before ++ .runEnd id .suspended :: after →
        ∃ function pc, before.getLast? = some (.suspend id function pc)) ∧
      (∀ time before after id outcome, trace time = before ++ .runEnd id outcome :: after →
        ∃ now < time, trace now = before ∧ trace (now + 1) = before ++ [.runEnd id outcome]) ∧
      ∀ id start now, start < now → (config start).StartsAfresh host.recording id →
        (∀ time, start < time → time < now →
          ¬(config time).StartsAfresh host.recording id ∧ (config time).HooksSpare id) →
        ∃ since unclosed,
          frameScopes id (trace now) = frameScopes id (trace (start + 1)) ++ since ∧
          Unclosed since unclosed ∧
          since.countP Event.entersFrame =
            since.countP Event.leavesFrame + unclosed.length ∧
          ∀ outcome, trace (now + 1) = trace now ++ [.runEnd id outcome] →
            ∃ thread execution, (config (now + 1)).world.domain.thread? id = some thread ∧
              thread.execution = some execution ∧
              match outcome with
              | .completed => execution.frames = [] ∧ unclosed = []
              | .suspended => execution.frames.map Frame.function = unclosed
              | .aborted _ => execution.frames = [] ∧ ∃ run ∈ (config (now - 1)).runs,
                  run.thread = id ∧ run.execution.frames.map Frame.function = unclosed := by
  intro config trace
  have shown (time : Nat) : trace time = (config 0).trace host.recording time :=
    traced_full hosted asks time reference
  have outermost : (config 0).brackets = [] := rfl
  have nested : (config 0).Nested := by
    refine .inr ⟨⟨(nested_of_finished reached ended).of_keeps ?_, ?_⟩, fun _ _ => rfl⟩
    · exact .of_same rfl rfl rfl
    · exact fun next waiting => absurd waiting List.not_mem_nil
  refine ⟨fun time => ?_, fun time before after id ends => ?_,
    fun time before after id outcome ends => ?_, fun id start now after starts between => ?_⟩
  · obtain ⟨last, bracketed, same⟩ := trace_brackets host.recording (config 0) time
    refine ⟨last, by rw [shown]; exact bracketed, fun value finished => ?_⟩
    have working := (nested.run host.recording time).pending_of_finished finished
    rcases same with rfl | ⟨fault, focus⟩
    · have focus : ((config 0).run host.recording time).focus = .finished value := finished
      simp [brackets, focus, working, Focus.brackets]
    · cases finished.symm.trans focus
  · obtain ⟨last, bracketed, _⟩ := trace_brackets host.recording (config 0) time
    rw [← shown, outermost, ends] at bracketed
    exact bracketed.suspend_before_end
  · simp only [shown] at ends ⊢
    exact exists_end ends
  · obtain ⟨since, unclosed, scopes, open', accounts, discards⟩ :=
      accounts_run outermost nested after starts
        (fun time later earlier => (between time later earlier).1)
        (fun time later earlier => (between time later earlier).2)
    refine ⟨since, unclosed, by rw [shown, shown]; exact scopes, open', open'.count,
      fun outcome ends => ?_⟩
    rw [shown, shown] at ends
    have reported := List.append_cancel_left ends
    obtain ⟨_, run, focus, same, thread, present, held⟩ :=
      @ended_of_reports _ _ host.recording _ id outcome (by rw [reported]; simp)
    rw [← run_succ_last] at present
    refine ⟨thread, run.execution, present, held, ?_⟩
    obtain ⟨fault, faulted⟩ | ⟨_, working⟩ := accounts
    · cases focus.symm.trans faulted
    · rw [focus] at working
      cases outcome with
      | completed => exact working same
      | suspended => exact (working same).2
      | aborted info => exact ⟨working same, discards run info focus same⟩

/-- A function calls another one whose native method suspends the thread. -/
theorem traces_are_bracketed_resuming :
    let config := fun time => traced suspendingHost {} () resuming time (some ⟨(), .full⟩)
    let trace := fun time => (config time).state.2
    (config 3).StartsAfresh suspendingHost.recording ⟨0⟩ ∧
      trace 13 = trace 12 ++ [.runEnd ⟨0⟩ .suspended] ∧
      ∃ since unclosed, frameScopes ⟨0⟩ (trace 12) = frameScopes ⟨0⟩ (trace 4) ++ since ∧
        Unclosed since unclosed ∧
        since.countP Event.entersFrame = since.countP Event.leavesFrame + 2 := by
  intro config trace
  have hosted : suspendingHost.Asks Request.KeepsSink :=
    ⟨fun _ _ => ⟨trivial, fun _ => trivial⟩, fun _ _ => trivial⟩
  have asks : resuming.Asks Request.KeepsSink :=
    ⟨trivial, fun _ => ⟨trivial, fun _ => ⟨trivial, fun _ => ⟨trivial, fun _ =>
      ⟨trivial, fun _ => ⟨trivial, fun _ => trivial⟩⟩⟩⟩⟩⟩
  have starts : (config 3).StartsAfresh suspendingHost.recording ⟨0⟩ := by
    have begins : ((config 3).step suspendingHost.recording).entering?.map
        (fun entering => (entering.1.thread, entering.1.execution.frames.length)) =
          some (⟨0⟩, 1) := by decide +kernel
    obtain ⟨⟨run, frame⟩, entering, same⟩ := Option.map_eq_some_iff.1 begins
    obtain ⟨focus, ⟨outer, frames⟩, unrun⟩ := entering?_eq_some.1 entering
    obtain ⟨thread, single⟩ := Prod.mk.inj same
    obtain rfl : outer = [] := by simpa [frames] using single
    exact ⟨by decide +kernel, .begins run frame focus thread frames unrun⟩
  have suspended : trace 13 = trace 12 ++ [.runEnd ⟨0⟩ .suspended] := by decide +kernel
  have others : ∀ time < 12, 3 < time → (config time).startsOn? = none := by decide +kernel
  have between : ∀ time, 3 < time → time < 12 →
      ¬(config time).StartsAfresh suspendingHost.recording ⟨0⟩ ∧ (config time).HooksSpare ⟨0⟩ := by
    intro time later earlier
    have nothing := others time earlier later
    refine ⟨fun again => ?_, fun _ _ _ _ made => ?_⟩
    · cases again.1.symm.trans nothing
    · cases made.startsOn?.symm.trans nothing
  have depth : ((config 13).world.domain.thread? ⟨0⟩).bind Thread.depth? = some 2 := by
    decide +kernel
  obtain ⟨earlier, reached, ended, world⟩ : ∃ earlier : Config Unit Unit,
      earlier.Reachable suspendingHost (fun _ => True) ∧ earlier.focus = .finished 0 ∧
        earlier.world = {} :=
    ⟨_, .step (.initial () (.done 0) trivial), rfl, rfl⟩
  have bracketed := traces_are_bracketed reached ended hosted () asks ()
  rw [world] at bracketed
  obtain ⟨since, unclosed, scopes, open', count, ends⟩ :=
    bracketed.2.2.2 ⟨0⟩ 3 12 (by decide) starts between
  refine ⟨starts, suspended, since, unclosed, ?_⟩
  -- the numerals are brought to one form, so that no step of the machine is evaluated
  simp only [Nat.reduceAdd] at scopes ends
  simp only [trace, config] at suspended depth ⊢
  clear_value config
  obtain ⟨thread, execution, present, held, frames⟩ := ends .suspended suspended
  have two : unclosed.length = 2 := by
    rw [← frames, List.length_map]
    simpa [present, Thread.depth?, held] using depth
  exact ⟨scopes, open', two ▸ count⟩

end Config

end ScriptMachine

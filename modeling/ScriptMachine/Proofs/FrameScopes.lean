import ScriptMachine.Proofs.Brackets

/-!
# Frame scopes

The scopes of script functions do not say to which thread they belong: it is the thread of the
innermost run. The frame scopes of one thread are read off a trace with a list of the runs that are
open, and follow from what each step reports.
-/

namespace ScriptMachine

variable {ν σ : Type}

/-! ## Frame scopes in a trace -/

/-- The runs that a trace has opened, the innermost first, and the frame scopes of a thread. -/
structure Tally (ν : Type) where
  runs : List ThreadId := []
  scopes : List (Event ν) := []

/-- Goes on with an event. A frame scope belongs to the thread of the innermost run. -/
def Tally.note (id : ThreadId) (tally : Tally ν) (event : Event ν) : Tally ν :=
  match event with
  | .runStart thread _ _ => { tally with runs := thread :: tally.runs }
  | .runEnd _ _ => { tally with runs := tally.runs.tail }
  | event =>
    if event.kind = .calls ∧ tally.runs.head? = some id then
      { tally with scopes := tally.scopes ++ [event] }
    else tally

/-- The frame scopes of a thread. -/
def frameScopes (id : ThreadId) (events : List (Event ν)) : List (Event ν) :=
  (events.foldl (Tally.note id) {}).scopes

/-- After these frame scopes, frames of these functions have been entered and not left, the
innermost first. Each frame that is left is the innermost one. -/
inductive Unclosed : List (Event ν) → List (Function ν) → Prop where
  | nil : Unclosed [] []
  | enter {scopes : List (Event ν)} {unclosed : List (Function ν)} (function : Function ν)
    (pc : Nat) (before : Unclosed scopes unclosed) :
    Unclosed (scopes ++ [.scopeEnter .frame function pc]) (function :: unclosed)
  | leave {scopes : List (Event ν)} {unclosed : List (Function ν)} {function : Function ν}
    (pc : Nat) (before : Unclosed scopes (function :: unclosed)) :
    Unclosed (scopes ++ [.scopeExit .frame function pc]) unclosed

/-- The event says that a frame is entered. -/
def Event.entersFrame : Event ν → Bool
  | .scopeEnter .frame _ _ => true
  | _ => false

/-- The event says that a frame is left. -/
def Event.leavesFrame : Event ν → Bool
  | .scopeExit .frame _ _ => true
  | _ => false

/-- Every frame that has been entered has been left or is open. -/
theorem Unclosed.count {scopes : List (Event ν)} {unclosed : List (Function ν)}
    (open' : Unclosed scopes unclosed) :
    scopes.countP Event.entersFrame = scopes.countP Event.leavesFrame + unclosed.length := by
  induction open' with
  | nil => rfl
  | enter function pc before ih =>
    simp [List.countP_append, Event.entersFrame, Event.leavesFrame, ih]
    omega
  | leave pc before ih =>
    simp [List.countP_append, Event.entersFrame, Event.leavesFrame, ih]
    omega

namespace Tally

variable {id : ThreadId} {tally : Tally ν} {events : List (Event ν)}

/-- Among events that are no frame scopes there are none of the thread. -/
theorem scopes_foldl (other : ∀ event ∈ events, event.kind ≠ .calls) :
    (events.foldl (note id) tally).scopes = tally.scopes := by
  induction events generalizing tally with
  | nil => rfl
  | cons event events ih =>
    rw [List.foldl_cons, ih fun event listed => other event (List.mem_cons_of_mem _ listed)]
    have kind := other event List.mem_cons_self
    unfold note
    split
    · rfl
    · rfl
    · rw [if_neg fun both => kind both.1]

/-- Within a run, a frame scope belongs to its thread. -/
theorem note_within {event : Event ν} (within : event.kind ≠ .runs) :
    tally.note id event = { tally with
      scopes := tally.scopes ++
        if event.kind = .calls ∧ tally.runs.head? = some id then [event] else [] } := by
  unfold note
  split
  · exact absurd rfl within
  · exact absurd rfl within
  · split <;> simp

/-- Within a run, all frame scopes belong to its thread. -/
theorem foldl_within (within : ∀ event ∈ events, event.kind ≠ .runs) :
    events.foldl (note id) tally = { tally with
      scopes := tally.scopes ++
        if tally.runs.head? = some id then events.filter (·.kind = .calls) else [] } := by
  induction events generalizing tally with
  | nil => simp
  | cons event events ih =>
    rw [List.foldl_cons, ih fun event listed => within event (List.mem_cons_of_mem _ listed),
      note_within (within event List.mem_cons_self)]
    by_cases here : tally.runs.head? = some id
    · by_cases calls : event.kind = .calls <;> simp [here, calls, List.append_assoc]
    · simp [here]

end Tally

/-- The thread of a run. -/
def Bracket.thread? : Bracket ν → Option ThreadId
  | .run thread | .suspended thread => some thread
  | .call _ _ _ _ => none

/-- The runs that a trace has opened are those among the open brackets. -/
theorem Event.Bracketed.runs_foldl {first last : List (Bracket ν)} {events : List (Event ν)}
    (bracketed : Event.Bracketed first events last) (id : ThreadId) (scopes : List (Event ν)) :
    (events.foldl (Tally.note id) ⟨first.filterMap Bracket.thread?, scopes⟩).runs =
      last.filterMap Bracket.thread? := by
  induction bracketed generalizing scopes with
  | nil => rfl
  | @cons first second last event events turns rest ih =>
    have noted : ∃ more, Tally.note id ⟨first.filterMap Bracket.thread?, scopes⟩ event =
        ⟨second.filterMap Bracket.thread?, more⟩ := by
      cases turns with
      | runStart | runEnd | runPause => exact ⟨scopes, rfl⟩
      | instruction | suspend | enterNative | leaveNative | enterFrame | leaveFrame =>
        exact ⟨_, Tally.note_within (by simp [Event.kind, Scope.kind])⟩
    obtain ⟨more, noted⟩ := noted
    rw [List.foldl_cons, noted]
    exact ih more

namespace Config

variable {host : Host ν σ} {config next : Config ν σ} {run : Run ν σ} {registers : Registers ν}
  {id : ThreadId}

/-- The frame scopes of a thread that are reported of a step. -/
def scopes (host : Host ν σ) (config : Config ν σ) (id : ThreadId) : List (Event ν) :=
  match config.focus with
  | .enter run | .execute run _ =>
    if run.thread = id then (config.reports host).filter (·.kind = .calls) else []
  | _ => []

/-- What is reported when the machine turns to other work is no frame scope. -/
theorem arrival_kind {suspension : List (Event ν)} {focus : Focus ν σ}
    (other : ∀ event ∈ suspension, event.kind ≠ .calls) :
    ∀ event ∈ focus.arrival suspension, event.kind ≠ .calls := by
  unfold Focus.arrival Run.starting
  split
  · split <;> simp [Event.kind]
  · exact other
  · simp

/-- A frame scope is reported of a step only if a run enters a frame or executes an instruction, and
then no run starts or ends. -/
theorem tally_step (host : Host ν σ) (config : Config ν σ) (id : ThreadId)
    (scopes : List (Event ν)) :
    ((config.reports host).foldl (Tally.note id)
      ⟨config.brackets.filterMap Bracket.thread?, scopes⟩).scopes =
        scopes ++ config.scopes host id := by
  have within {run : Run ν σ} (innermost : config.focus.brackets = [.run run.thread])
      (within : ∀ event ∈ config.reports host, event.kind ≠ .runs) :
      ((config.reports host).foldl (Tally.note id)
        ⟨config.brackets.filterMap Bracket.thread?, scopes⟩).scopes = scopes ++
          if run.thread = id then (config.reports host).filter (·.kind = .calls) else [] := by
    rw [Tally.foldl_within within]
    simp [Config.brackets, innermost, Bracket.thread?]
  have besides (other : ∀ event ∈ config.reports host, event.kind ≠ .calls) :
      ((config.reports host).foldl (Tally.note id)
        ⟨config.brackets.filterMap Bracket.thread?, scopes⟩).scopes = scopes ++ [] := by
    rw [Tally.scopes_foldl other, List.append_nil]
  unfold Config.scopes
  cases focus : config.focus with
  | enter run =>
    refine within (by rw [focus]; rfl) ?_
    simp only [reports, focus, Run.opening]
    split
    · simp
    · split <;> simp [Event.kind, Scope.kind]
  | execute run registers =>
    refine within (by rw [focus]; rfl) ?_
    have narrates := execute_narrates host config run registers
    simp only [reports, focus]
    generalize config.instructionReports run registers = events at narrates
    cases narrates <;> simp [Event.kind, Scope.kind]
  | ended run outcome =>
    refine besides ?_
    simp only [reports, focus]
    split <;> simp [Event.kind]
  | finished | faulted =>
    refine besides ?_
    simp only [reports, focus]
    exact arrival_kind (by simp)
  | body work =>
    refine besides ?_
    unfold reports
    rw [focus]
    cases work with
    | ask | modify | crash => exact arrival_kind (by simp)
    | done value =>
      dsimp only
      split
      · simp only [List.mem_cons, forall_eq_or_imp]
        exact ⟨by simp [Event.kind, Scope.kind], arrival_kind (by simp [Event.kind])⟩
      · exact arrival_kind (by simp)

/-- The frame scopes of a thread are those of the steps. -/
theorem frameScopes_trace (outermost : config.brackets = []) (steps : Nat) :
    frameScopes id (config.trace host (steps + 1)) =
      frameScopes id (config.trace host steps) ++ (config.run host steps).scopes host id := by
  unfold frameScopes
  rw [trace, List.foldl_append]
  obtain ⟨last, bracketed, rfl | ⟨fault, focus⟩⟩ := trace_brackets host config steps
  · have runs := bracketed.runs_foldl id []
    rw [outermost] at runs
    generalize tallied : (config.trace host steps).foldl (Tally.note id) {} = tally
    have same : tally = ⟨(config.run host steps).brackets.filterMap Bracket.thread?,
        tally.scopes⟩ := by
      rw [← runs, ← tallied]
      rfl
    rw [same]
    exact tally_step host _ id _
  · rw [reports_of_faulted focus]
    simp [Config.scopes, focus]

end Config

end ScriptMachine

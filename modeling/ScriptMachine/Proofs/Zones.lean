import Mathlib
import ScriptMachine.Profile

/-!
# Zones as a stack of runs

A profile keeps the number of its open zones, and beside it only the numbers that it saw at the
starts of the current runs. What it stands for is a stack of the current runs, each with the scopes
that are open in it. The profile is the image of that stack after every sequence of events, and so
the end of a run takes it back to where it was when the run started.
-/

namespace ScriptMachine

variable {ν : Type}

/-- The current runs with their open scopes. -/
structure RunStack where
  /-- The number of scopes that are open outside every run. -/
  base : Nat := 0
  /-- The number of scopes that are open in each run, the innermost run first. -/
  runs : List Nat := []
  deriving DecidableEq

namespace RunStack

/-- The stack after an event. -/
def record (stack : RunStack) : Event ν → RunStack
  | .runStart .. => { stack with runs := 0 :: stack.runs }
  | .scopeEnter .. =>
    match stack.runs with
    | [] => { stack with base := stack.base + 1 }
    | count :: outer => { stack with runs := (count + 1) :: outer }
  | .scopeExit .. =>
    match stack.runs with
    | [] => { stack with base := stack.base - 1 }
    | count :: outer => { stack with runs := (count - 1) :: outer }
  | .runEnd .. =>
    match stack.runs with
    | [] => { stack with base := 0 }
    | _ :: outer => { stack with runs := outer }
  | .instruction .. | .suspend .. => stack

/-- One zone for each run and each scope. -/
def zones (stack : RunStack) : Nat := stack.base + (stack.runs.map (1 + ·)).sum

/-- The zones below each run, the innermost run first. -/
def marks (base : Nat) : List Nat → List Nat
  | [] => []
  | _ :: outer => zones ⟨base, outer⟩ :: marks base outer

/-- The profile that stands for a stack. -/
def profile (stack : RunStack) : Profile := ⟨stack.zones, marks stack.base stack.runs⟩

@[simp] theorem zones_nil (base : Nat) : zones ⟨base, []⟩ = base := rfl

@[simp] theorem zones_cons (base count : Nat) (outer : List Nat) :
    zones ⟨base, count :: outer⟩ = zones ⟨base, outer⟩ + 1 + count := by
  simp only [zones, List.map_cons, List.sum_cons]
  omega

@[simp] theorem marks_cons (base count : Nat) (outer : List Nat) :
    marks base (count :: outer) = zones ⟨base, outer⟩ :: marks base outer := rfl

/-- Every mark stays below the zone of its run, so the profile never closes that zone with a scope,
and the end of the run closes all that was opened since. -/
theorem record_profile (stack : RunStack) (event : Event ν) :
    (stack.record event).profile = stack.profile.record event := by
  obtain ⟨base, runs⟩ := stack
  cases event with
  | instruction | suspend => rfl
  | runStart => simp [record, profile, Profile.record, Profile.startRun]
  | scopeEnter =>
    cases runs with
    | nil => simp [record, profile, Profile.record, Profile.openZone, marks]
    | cons count outer =>
      simp [record, profile, Profile.record, Profile.openZone, Nat.add_assoc]
  | scopeExit =>
    cases runs with
    | nil =>
      obtain rfl | some := Nat.eq_zero_or_pos base
      · rfl
      · simp [record, profile, Profile.record, Profile.closeZone, Profile.floor, marks, some]
    | cons count outer =>
      by_cases closed : count = 0
      · simp [record, profile, Profile.record, Profile.closeZone, Profile.floor, closed]
      · have inside : zones ⟨base, outer⟩ + 1 < zones ⟨base, outer⟩ + 1 + count := by omega
        simp only [record, profile, Profile.record, Profile.closeZone, Profile.floor, zones_cons,
          marks_cons, if_pos inside]
        congr 1
        omega
  | runEnd =>
    cases runs with
    | nil => rfl
    | cons count outer =>
      have below : zones ⟨base, outer⟩ ≤ zones ⟨base, outer⟩ + 1 + count := by omega
      simp [record, profile, Profile.record, Profile.endRun, Nat.min_eq_right below]

/-- The profile follows the stack through every sequence of events. -/
theorem foldl_profile (stack : RunStack) (events : List (Event ν)) :
    (events.foldl record stack).profile = events.foldl Profile.record stack.profile := by
  induction events generalizing stack with
  | nil => rfl
  | cons event events ih => rw [List.foldl_cons, List.foldl_cons, ih, record_profile]

end RunStack

/-- Events among which every run that starts also ends, and no other run does. The scopes among
them need not match. -/
inductive Event.RunsPaired : List (Event ν) → Prop where
  | nil : RunsPaired []
  | within {event : Event ν} {rest : List (Event ν)}
    (notStart : ∀ thread function depth, event ≠ .runStart thread function depth)
    (notEnd : ∀ thread outcome, event ≠ .runEnd thread outcome)
    (paired : RunsPaired rest) : RunsPaired (event :: rest)
  | run {inside rest : List (Event ν)} (thread : ThreadId) (function : Function ν) (depth : Nat)
    (ending : ThreadId) (outcome : Outcome) (insidePaired : RunsPaired inside)
    (paired : RunsPaired rest) :
    RunsPaired (.runStart thread function depth :: (inside ++ .runEnd ending outcome :: rest))

/-- Paired events touch no run but the innermost of those that were there before. -/
theorem RunStack.foldl_paired {events : List (Event ν)} (paired : Event.RunsPaired events)
    (base count : Nat) (outer : List Nat) :
    ∃ count', events.foldl record ⟨base, count :: outer⟩ = ⟨base, count' :: outer⟩ := by
  induction paired generalizing count outer with
  | nil => exact ⟨count, rfl⟩
  | @within event rest notStart notEnd paired ih =>
    rw [List.foldl_cons]
    cases event with
    | runStart thread function depth => exact absurd rfl (notStart thread function depth)
    | runEnd thread outcome => exact absurd rfl (notEnd thread outcome)
    | instruction | suspend => exact ih count outer
    | scopeEnter => exact ih (count + 1) outer
    | scopeExit => exact ih (count - 1) outer
  | run thread function depth ending outcome insidePaired paired insideIh ih =>
    obtain ⟨inner, within⟩ := insideIh 0 (count :: outer)
    obtain ⟨count', after⟩ := ih count outer
    refine ⟨count', ?_⟩
    rw [List.foldl_cons, List.foldl_append, List.foldl_cons]
    simp only [record] at within ⊢
    rw [within]
    exact after

/-- The start of a run, paired events and the end of the run leave the stack as it was. -/
theorem RunStack.foldl_run (stack : RunStack) (thread : ThreadId) (function : Function ν)
    (depth : Nat) {inside : List (Event ν)} (paired : Event.RunsPaired inside) (ending : ThreadId)
    (outcome : Outcome) :
    (Event.runStart thread function depth :: (inside ++ [.runEnd ending outcome])).foldl record
      stack = stack := by
  obtain ⟨count, within⟩ := foldl_paired paired stack.base 0 stack.runs
  rw [List.foldl_cons, List.foldl_append]
  simp only [record, List.foldl_cons, List.foldl_nil] at within ⊢
  rw [within]

/-- The number of open zones is that of the stack of runs, after every sequence of events. The end
of a run takes the whole profile back to where it was just before the matching start, whichever
scopes were opened or closed in between. -/
theorem Profile.zones_eq_runStack (events : List (Event ν)) :
    (events.foldl record {}).zones = (events.foldl RunStack.record {}).zones ∧
      ∀ (thread : ThreadId) (function : Function ν) (depth : Nat) (inside : List (Event ν))
        (ending : ThreadId) (outcome : Outcome), Event.RunsPaired inside →
        (Event.runStart thread function depth :: (inside ++ [.runEnd ending outcome])).foldl record
          (events.foldl record {}) = events.foldl record {} := by
  have follows (events : List (Event ν)) :
      events.foldl record {} = (events.foldl RunStack.record {}).profile :=
    (RunStack.foldl_profile {} events).symm
  refine ⟨by rw [follows]; rfl, fun thread function depth inside ending outcome paired => ?_⟩
  rw [follows, ← RunStack.foldl_profile,
    RunStack.foldl_run _ thread function depth paired ending outcome]

/-- A run that leaves a frame of an earlier run, enters two frames and suspends within them. -/
theorem Profile.zones_eq_runStack_suspended :
    let function : Function Unit := .trusted { name := "script", code := #[] } 0
    let inside := [.scopeExit .frame function 3, .scopeEnter .frame function 0,
      .scopeEnter .frame function 0]
    Event.RunsPaired inside ∧
      (Event.runStart ⟨0⟩ function 1 :: (inside ++ [.runEnd ⟨0⟩ .suspended])).foldl record
        ([.scopeEnter .frame function 0].foldl record {}) = { zones := 1 } := by
  intro function inside
  have paired : Event.RunsPaired inside := by
    refine .within ?_ ?_ (.within ?_ ?_ (.within ?_ ?_ .nil)) <;> intros <;> nofun
  exact ⟨paired, (zones_eq_runStack _).2 _ _ _ _ _ _ paired⟩

end ScriptMachine

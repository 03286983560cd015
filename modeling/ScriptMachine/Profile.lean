import ScriptMachine.Text.Record
import ScriptMachine.Trace

/-!
# Profiling zones

A profile turns a trace into nested zones, one for each run and one for each scope in it. The end
of a run closes every zone that was opened since the run started, so a thread that suspends or
aborts leaves no zone behind. The end of a scope closes the innermost zone of the current run but
never the zone of the run itself, since a frame may return in a later run than it was entered in.
-/

namespace ScriptMachine

/-- The zones that are open, by their number alone. -/
structure Profile where
  /-- The number of open zones. -/
  zones : Nat := 0
  /-- The number of zones that were open before each current run, the innermost run first. -/
  marks : List Nat := []
  deriving DecidableEq

namespace Profile

/-- Opens one zone. -/
def openZone (profile : Profile) : Profile := { profile with zones := profile.zones + 1 }

/-- A run starts: its own zone is opened above the zones of the outer runs. -/
def startRun (profile : Profile) : Profile :=
  { zones := profile.zones + 1, marks := profile.zones :: profile.marks }

/-- The number of zones that the end of a scope leaves open in any case. -/
def floor (profile : Profile) : Nat :=
  match profile.marks with
  | [] => 0
  | mark :: _ => mark + 1

/-- A scope ends: the innermost zone is closed unless that is the zone of a run. -/
def closeZone (profile : Profile) : Profile :=
  if profile.floor < profile.zones then { profile with zones := profile.zones - 1 } else profile

/-- A run ends: all its zones are closed. Without a current run every zone is closed. -/
def endRun (profile : Profile) : Profile :=
  match profile.marks with
  | [] => { profile with zones := 0 }
  | mark :: marks => { zones := min profile.zones mark, marks }

/-- The zones after an event. -/
def record {ν : Type} (profile : Profile) : Event ν → Profile
  | .runStart .. => profile.startRun
  | .scopeEnter .. => profile.openZone
  | .scopeExit .. => profile.closeZone
  | .runEnd .. => profile.endRun
  | .instruction .. | .suspend .. => profile

/-- The kinds of events that zones are made of. -/
def mask : Mask := { Mask.full with instructions := false }

/-- The name of the zone of a scope: the function itself, or the method that it calls. -/
def label {ν : Type} (scope : Scope) (function : Function ν) : String :=
  match scope with
  | .frame => function.name
  | .native .object method => function.name ++ s!".m{method}"
  | .native .static method => function.name ++ s!"::m{method}"

/-- The diagnostic form of a profile that no recorder listens to. -/
def diagnostic (profile : Profile) : String :=
  Record.shortened "ProfilingTraceSink" [
    ("running", "false"), ("open_zones", toString profile.zones)]

end Profile

end ScriptMachine

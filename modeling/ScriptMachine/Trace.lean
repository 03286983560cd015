import ScriptMachine.Function
import ScriptMachine.Outcome

/-!
# Traces

While scripts run, a domain can report what happens to a trace sink. Each event belongs to one of
five kinds, and the sink receives the kinds in its mask and no others.
-/

namespace ScriptMachine

/-- The extent that a scope event opens or closes. -/
inductive Scope where
  /-- An activation of a script function, from its first instruction to its return. An activation
  that is discarded by an abort is never closed. -/
  | frame
  /-- A native call. -/
  | native (kind : MethodKind) (method : UInt8)
  deriving DecidableEq

/-- Something that happened during a run. -/
inductive Event (ν : Type) where
  /-- A run starts in this function, with this many frames. -/
  | runStart (thread : ThreadId) (function : Function ν) (depth : Nat)
  /-- An instruction is about to be executed. -/
  | instruction (thread : ThreadId) (function : Function ν) (pc next : Nat) (opcode : Opcode)
  /-- A scope opens. For a native call the function and the offset are those of the caller. -/
  | scopeEnter (scope : Scope) (function : Function ν) (pc : Nat)
  /-- A scope closes. -/
  | scopeExit (scope : Scope) (function : Function ν) (pc : Nat)
  /-- A native call suspends the running thread. -/
  | suspend (thread : ThreadId) (function : Function ν) (pc : Nat)
  | runEnd (thread : ThreadId) (outcome : Outcome)
  deriving DecidableEq

/-- The kinds of events. -/
inductive EventKind where
  /-- Starts and ends of runs. -/
  | runs
  | instructions
  /-- Scopes of script functions. -/
  | calls
  /-- Scopes of native calls. -/
  | natives
  | suspensions
  deriving DecidableEq

/-- The kind of a name. -/
def EventKind.ofName? : String → Option EventKind
  | "RUN" => some runs
  | "INSTR" => some instructions
  | "CALL" => some calls
  | "HOST" => some natives
  | "SUSPEND" => some suspensions
  | _ => none

/-- The kind of a scope event. -/
def Scope.kind : Scope → EventKind
  | frame => .calls
  | native _ _ => .natives

/-- The kind of an event. -/
def Event.kind {ν : Type} : Event ν → EventKind
  | runStart .. | runEnd .. => .runs
  | instruction .. => .instructions
  | scopeEnter scope .. | scopeExit scope .. => scope.kind
  | suspend .. => .suspensions

/-- A set of event kinds. -/
structure Mask where
  runs : Bool := false
  instructions : Bool := false
  calls : Bool := false
  natives : Bool := false
  suspensions : Bool := false
  deriving DecidableEq

namespace Mask

/-- No kind of event. -/
def none : Mask := {}

/-- Every kind of event. -/
def full : Mask := ⟨true, true, true, true, true⟩

/-- The set of a single kind. -/
def only : EventKind → Mask
  | .runs => { runs := true }
  | .instructions => { instructions := true }
  | .calls => { calls := true }
  | .natives => { natives := true }
  | .suspensions => { suspensions := true }

/-- Whether a kind of event is in the set. -/
def has (mask : Mask) : EventKind → Bool
  | .runs => mask.runs
  | .instructions => mask.instructions
  | .calls => mask.calls
  | .natives => mask.natives
  | .suspensions => mask.suspensions

/-- The kinds in either set. -/
def union (a b : Mask) : Mask where
  runs := a.runs || b.runs
  instructions := a.instructions || b.instructions
  calls := a.calls || b.calls
  natives := a.natives || b.natives
  suspensions := a.suspensions || b.suspensions

/-- Whether a set includes every kind of another. -/
def contains (a b : Mask) : Bool := a.union b == a

end Mask

end ScriptMachine

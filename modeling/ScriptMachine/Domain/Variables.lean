import ScriptMachine.Domain.Basic

/-!
# Variables

Globals, specials and thread variables are declared before the first thread exists, and there are
never more of a kind than an operand byte can address. Clearing a domain opens the declarations
again.
-/

namespace ScriptMachine

/-- The most variables of one kind. -/
def variableLimit : Nat := 256

namespace Domain

variable {ν : Type}

/-- Why no variable can be added to the given number of its kind, if none can. -/
def declarationRefusal (domain : Domain ν) (count : Nat) : Option DomainError :=
  if domain.threads.size ≠ 0 then some .layoutSealed
  else if variableLimit ≤ count then some .tooManyVariables
  else none

/-- Declares a global and returns its index. -/
def declareGlobal (domain : Domain ν) (value : Int32) : Except DomainError (Domain ν × Nat) :=
  match domain.declarationRefusal domain.globals.size with
  | some error => .error error
  | none => .ok ({ domain with globals := domain.globals.push value }, domain.globals.size)

/-- Declares a special variable and returns its index. -/
def declareSpecial (domain : Domain ν) (value : Int32) : Except DomainError (Domain ν × Nat) :=
  match domain.declarationRefusal domain.specials.size with
  | some error => .error error
  | none => .ok ({ domain with specials := domain.specials.push value }, domain.specials.size)

/-- Declares a variable of every thread, which starts at zero, and returns its index. -/
def declareThreadVariable (domain : Domain ν) : Except DomainError (Domain ν × Nat) :=
  match domain.declarationRefusal domain.threadVariables with
  | some error => .error error
  | none =>
    .ok ({ domain with threadVariables := domain.threadVariables + 1 }, domain.threadVariables)

/-- Writes a variable of a table that has one at this index. -/
def writeVariable (values : Array Int32) (index : UInt8) (value : Int32) :
    Except DomainError (Array Int32) :=
  if index.toNat < values.size then .ok (values.set! index.toNat value)
  else .error (.noSuchVariable index)

/-- Writes a global. -/
def setGlobal (domain : Domain ν) (index : UInt8) (value : Int32) :
    Except DomainError (Domain ν) := do
  let globals ← writeVariable domain.globals index value
  return { domain with globals }

/-- Writes a special variable. -/
def setSpecial (domain : Domain ν) (index : UInt8) (value : Int32) :
    Except DomainError (Domain ν) := do
  let specials ← writeVariable domain.specials index value
  return { domain with specials }

/-- Writes a variable of a thread. -/
def setThreadVariable (domain : Domain ν) (id : ThreadId) (index : UInt8) (value : Int32) :
    Except Fault (Except DomainError (Domain ν)) := do
  let thread ← domain.thread id
  return (writeVariable thread.variables index value).map fun values =>
    domain.setThread id { thread with «variables» := values }

/-- Empties every table. The limits, the limit handler and the trace sink stay. -/
def clear (domain : Domain ν) : Except DomainError (Domain ν) :=
  if domain.active.isSome then .error .busy
  else .ok {
    active := none
    limits := domain.limits
    limitHandler := domain.limitHandler
    sink := domain.sink }

end Domain

end ScriptMachine

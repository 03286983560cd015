import ScriptMachine.Domain.Refusal

/-!
# Outcomes of runs

A run ends because its thread has no frame left, because a native method suspended the thread, or
because it was aborted. An aborted run says in which function, at which instruction and why.
-/

namespace ScriptMachine

/-- Why a run is aborted. -/
inductive AbortReason where
  /-- The loop budget of the run is spent. -/
  | loopLimit
  /-- A call would exceed the greatest number of frames. -/
  | callDepth
  | requested
  /-- A native method could not make sense of its arguments. -/
  | badArgument (error : ObjectError)
  /-- An instruction, a branch or a table index cannot be used. -/
  | invalidBytecode
  deriving DecidableEq

/-- The name of an abort reason in records. -/
def AbortReason.name : AbortReason → String
  | loopLimit => "LoopLimit"
  | callDepth => "CallDepth"
  | requested => "Requested"
  | badArgument _ => "BadArgument"
  | invalidBytecode => "InvalidBytecode"

/-- The text of an abort reason. -/
def AbortReason.message : AbortReason → String
  | loopLimit => "loop budget exhausted"
  | callDepth => "call depth limit exceeded"
  | requested => "aborted by request"
  | badArgument error => "bad native argument: " ++ error.message
  | invalidBytecode => "invalid bytecode"

/-- Aborts by a limit are those that are reported to the limit handler of the domain. -/
def AbortReason.isLimit : AbortReason → Bool
  | loopLimit | callDepth => true
  | _ => false

/-- Where and why a run was aborted. -/
structure AbortInfo where
  /-- The name of the executing function. -/
  function : String
  /-- The offset of the instruction. -/
  pc : Nat
  reason : AbortReason
  deriving DecidableEq

/-- The text that reports an aborted run. -/
def AbortInfo.message (info : AbortInfo) : String :=
  s!"abort in {info.function} pc={info.pc}: " ++ info.reason.message

/-- How a run ended. -/
inductive Outcome where
  | completed
  | suspended
  | aborted (info : AbortInfo)
  deriving DecidableEq

end ScriptMachine

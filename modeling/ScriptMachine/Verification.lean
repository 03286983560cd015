import ScriptMachine.Function

/-!
# Verification

Verified code cannot leave its own stack slots or its own code. Verification follows every path
from the first instruction and settles one operand depth for each instruction it reaches. It
accepts code in which no reachable instruction takes more operands than there are, all paths to an
instruction agree on its depth, every reachable branch leads to the start of an instruction,
control cannot run past the last instruction, and the indices of locals and native methods are in
range. Its result is the number of stack slots of one activation: the locals and the greatest
operand depth. Indices of variables and script functions depend on the domain, and are checked when
they are used.
-/

namespace ScriptMachine

/-- Bounds on what verification accepts. -/
structure VerificationLimits where
  /-- The most stack slots of an activation, locals included. -/
  stackSlots : Nat := 4096
  /-- The longest code, in bytes. -/
  codeLength : Nat := 2 ^ 20

/-- Why a definition is rejected. -/
inductive VerificationError where
  | undecodable (error : DecodeError)
  | codeTooLarge (length : Nat)
  /-- There are more locals than an operand byte can address. -/
  | tooManyLocals (locals : Nat)
  | paramsExceedLocals (params locals : Nat)
  /-- The branch does not lead to the start of an instruction; a target below zero is not given. -/
  | invalidTarget (pc : Nat) (target : Option Nat)
  /-- Control can run past the end after this instruction. -/
  | fallsOffEnd (pc : Nat)
  | stackUnderflow (pc : Nat)
  /-- Two paths reach the instruction with different depths. -/
  | depthMismatch (pc expected actual : Nat)
  | localOutOfRange (pc : Nat) (index : UInt8)
  | methodOutOfRange (pc : Nat) (index : UInt8)
  | stackTooDeep (slots : Nat)
  deriving DecidableEq

/-- The name of a verification error in records. -/
def VerificationError.name : VerificationError → String
  | undecodable _ => "Decode"
  | codeTooLarge _ => "CodeTooLarge"
  | tooManyLocals _ => "TooManyLocals"
  | paramsExceedLocals _ _ => "ParamsExceedLocals"
  | invalidTarget _ _ => "InvalidJumpTarget"
  | fallsOffEnd _ => "FallsOffEnd"
  | stackUnderflow _ => "StackUnderflow"
  | depthMismatch _ _ _ => "StackMismatch"
  | localOutOfRange _ _ => "LocalOutOfRange"
  | methodOutOfRange _ _ => "MethodOutOfRange"
  | stackTooDeep _ => "StackTooDeep"

/-- The text that reports a verification error. -/
def VerificationError.message : VerificationError → String
  | undecodable error => "decode failed: " ++ error.message
  | codeTooLarge length => s!"bytecode too large ({length} bytes)"
  | tooManyLocals locals => s!"too many locals ({locals})"
  | paramsExceedLocals params locals => s!"{params} parameters exceed {locals} locals"
  | invalidTarget pc (some target) => s!"branch at pc {pc} targets invalid pc {target}"
  | invalidTarget pc none => s!"branch at pc {pc} targets a negative pc"
  | fallsOffEnd pc => s!"control falls off the end after pc {pc}"
  | stackUnderflow pc => s!"stack underflow at pc {pc}"
  | depthMismatch pc expected actual =>
    s!"stack depth mismatch at pc {pc} (expected {expected}, got {actual})"
  | localOutOfRange pc index => s!"local {index} out of range at pc {pc}"
  | methodOutOfRange pc index => s!"method {index} out of range at pc {pc}"
  | stackTooDeep slots => s!"activation needs {slots} stack slots"

/-- The instructions of some code by the offset at which they start. -/
abbrev Layout := Array (Option Instruction)

namespace Layout

/-- Arranges decoded instructions by their offsets. -/
def ofDecoded (size : Nat) (instructions : Array (Nat × Instruction)) : Layout :=
  instructions.foldl (fun layout (pc, instruction) => layout.set! pc (some instruction))
    (Array.replicate size none)

/-- The instruction that starts at an offset. -/
def at? (layout : Layout) (pc : Nat) : Option Instruction := layout[pc]?.join

end Layout

/-- What is known of the operand depths part of the way through verification. -/
structure Exploration where
  /-- The depth before each instruction reached so far. -/
  depths : Array (Option Nat)
  /-- The instructions reached but not followed yet, the next one first. -/
  pending : List Nat
  /-- The greatest depth seen. -/
  deepest : Nat

namespace Exploration

/-- Only the first instruction is reached, with no operands. -/
def start (size : Nat) : Exploration :=
  { depths := (Array.replicate size none).set! 0 (some 0), pending := [0], deepest := 0 }

/-- The depth settled for an instruction. -/
def depth? (exploration : Exploration) (pc : Nat) : Option Nat := exploration.depths[pc]?.join

/-- Settles the depth of an instruction that a path reaches. -/
def reach (exploration : Exploration) (pc depth : Nat) : Except VerificationError Exploration :=
  match exploration.depth? pc with
  | none =>
    .ok { exploration with
      depths := exploration.depths.set! pc (some depth)
      pending := pc :: exploration.pending }
  | some known =>
    if known = depth then .ok exploration else .error (.depthMismatch pc known depth)

end Exploration

namespace Definition

variable {ν : Type}

/-- Whether the local and native method indices of an instruction are in range. -/
def checkIndices (definition : Definition ν) (pc : Nat) :
    Instruction → Except VerificationError Unit
  | .localLoad index | .localStore index =>
    if index.toNat < definition.locals then .ok () else .error (.localOutOfRange pc index)
  | .native _ _ _ method =>
    if method.toNat < definition.methods.size then .ok () else .error (.methodOutOfRange pc method)
  | _ => .ok ()

/-- Follows the branch of an instruction, if it is one. -/
def followBranch (layout : Layout) (pc : Nat) (instruction : Instruction) (depth : Nat)
    (exploration : Exploration) : Except VerificationError Exploration :=
  match instruction.delta? with
  | none => .ok exploration
  | some delta =>
    match branchTarget? (pc + instruction.length) delta with
    | none => .error (.invalidTarget pc none)
    | some target =>
      if (layout.at? target).isSome then exploration.reach target depth
      else .error (.invalidTarget pc (some target))

/-- Follows control to the next instruction, if it can go there. -/
def followNext (layout : Layout) (pc : Nat) (instruction : Instruction) (depth : Nat)
    (exploration : Exploration) : Except VerificationError Exploration :=
  if instruction.isTerminator then .ok exploration
  else if pc + instruction.length < layout.size then
    exploration.reach (pc + instruction.length) depth
  else .error (.fallsOffEnd pc)

/-- Follows every way out of an instruction that is entered with the given depth. -/
def follow (definition : Definition ν) (layout : Layout) (pc : Nat) (instruction : Instruction)
    (depth : Nat) (exploration : Exploration) : Except VerificationError Exploration := do
  definition.checkIndices pc instruction
  let effect := instruction.stackEffect
  if depth < effect.pops then throw (.stackUnderflow pc)
  let after := depth - effect.pops + effect.pushes
  let exploration := { exploration with deepest := max exploration.deepest after }
  let exploration ← followBranch layout pc instruction after exploration
  followNext layout pc instruction after exploration

/-- Follows pending instructions until none is left. Every instruction becomes pending at most
once, so as many rounds as there are offsets are enough. -/
def explore (definition : Definition ν) (layout : Layout) :
    Nat → Exploration → Except VerificationError Exploration
  | 0, exploration => .ok exploration
  | rounds + 1, exploration =>
    match exploration.pending with
    | [] => .ok exploration
    | pc :: pending =>
      match layout.at? pc, exploration.depth? pc with
      | some instruction, some depth => do
        let exploration ←
          definition.follow layout pc instruction depth { exploration with pending }
        explore definition layout rounds exploration
      | _, _ => explore definition layout rounds { exploration with pending }

/-- Verifies a definition and computes the stack slots of one activation. -/
def verify (definition : Definition ν) (limits : VerificationLimits) :
    Except VerificationError Nat := do
  let size := definition.code.size
  if limits.codeLength < size then throw (.codeTooLarge size)
  if 256 < definition.locals then throw (.tooManyLocals definition.locals)
  if definition.locals < definition.params then
    throw (.paramsExceedLocals definition.params definition.locals)
  if size = 0 then throw (.fallsOffEnd 0)
  let decoded := definition.code.instructions
  if let some error := decoded.error then throw (.undecodable error)
  let layout := Layout.ofDecoded size decoded.instructions
  let exploration ← definition.explore layout size (.start size)
  let slots := exploration.deepest + definition.locals
  if limits.stackSlots < slots then throw (.stackTooDeep slots)
  return slots

end Definition

/-- Verifies a definition and makes it a function. -/
def Function.verified {ν : Type} (definition : Definition ν) (limits : VerificationLimits) :
    Except VerificationError (Function ν) :=
  (definition.verify limits).map (Function.trusted definition)

end ScriptMachine

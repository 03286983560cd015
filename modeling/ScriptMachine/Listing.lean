import ScriptMachine.Function

/-!
# Listings

A listing shows a function with one instruction to a line, after its byte offset. Branches refer
to labels, which are numbered in the order of their offsets; the entry point is always the first.
A function whose code cannot be decoded to its end is listed up to the error.
-/

namespace ScriptMachine

/-- The decoded view of a function. -/
structure Listing (ν : Type) where
  function : Function ν
  /-- The identifier under which a domain knows the function. -/
  id : Option FunctionId
  /-- The instructions with their offsets. -/
  instructions : List (Nat × Instruction)
  error : Option DecodeError

/-- The offset that the instruction at an offset branches to, if it branches. -/
def Instruction.target? (instruction : Instruction) (pc : Nat) : Option Nat :=
  instruction.delta?.bind (branchTarget? (pc + instruction.length))

namespace Listing

variable {ν : Type}

/-- Lists a function. -/
def ofFunction (function : Function ν) (id : Option FunctionId) : Listing ν :=
  let decoded := function.code.instructions
  { function, id, instructions := decoded.instructions.toList, error := decoded.error }

/-- Lists every function of a table. -/
def ofTable (functions : Array (Function ν)) : List (Listing ν) :=
  functions.toList.mapIdx fun index function => ofFunction function (some ⟨index⟩)

/-- The label offsets in increasing order: the entry point and every branch target. -/
def labels (listing : Listing ν) : List Nat :=
  let targets := listing.instructions.filterMap fun (pc, instruction) => instruction.target? pc
  (0 :: targets).mergeSort.eraseReps

/-- The listed form of a branch to a label or an offset. -/
def targetText (labels : List Nat) (target : Nat) : String :=
  match labels.idxOf? target with
  | some number => s!"@L{number}"
  | none => "@" ++ Numeral.zeroPadded 6 target

/-- The listed operands of the instruction at an offset, each after a blank. -/
def operandText (labels : List Nat) (pc : Nat) (instruction : Instruction) : String :=
  match instruction with
  | .globalLoad index | .globalStore index | .localLoad index | .localStore index
  | .specialLoad index | .threadLoad index => s!" {index}"
  | .const value => s!" {value.toInt}"
  | .const8 value => s!" {value.toInt}"
  | .native _ _ argc method => s!" {argc}, m{method}"
  | .script _ argc callee => s!" {argc}, " ++ FunctionId.text ⟨callee.toNat⟩
  | _ =>
    match instruction.delta? with
    | none => ""
    | some delta =>
      match instruction.target? pc with
      | some target => " " ++ targetText labels target
      | none => " <" ++ Numeral.signed delta ++ ">"

/-- The lines of one instruction: its label if it has one, and the instruction itself. -/
def instructionText (labels : List Nat) (pc : Nat) (instruction : Instruction) : String :=
  let label := match labels.idxOf? pc with
    | some number => s!"  @L{number}:\n"
    | none => ""
  label ++ "  " ++ Numeral.zeroPadded 6 pc ++ ": " ++ instruction.opcode.mnemonic
    ++ operandText labels pc instruction ++ "\n"

/-- The first line of a listing. -/
def header (listing : Listing ν) : String :=
  let function := listing.function
  let id := match listing.id with
    | some id => id.text ++ " "
    | none => ""
  "func " ++ id ++ "\"" ++ function.name ++ "\": returns=" ++ function.returnType.text
    ++ s!" params={function.params} locals={function.locals} stack={function.stackSlots}\n"

/-- The whole listing. -/
def text (listing : Listing ν) : String :=
  let labels := listing.labels
  let lines := listing.instructions.map fun (pc, instruction) =>
    instructionText labels pc instruction
  let ending := match listing.error with
    | some error => "  <decode error: " ++ error.message ++ ">\n"
    | none => ""
  listing.header ++ String.join lines ++ ending

/-- Several listings, with a blank line between two of them. -/
def tableText (listings : List (Listing ν)) : String :=
  "\n".intercalate (listings.map text)

end Listing

end ScriptMachine

import ScriptMachine.Instruction.Codec
import ScriptMachine.Value

/-!
# Assembly

An assembler appends encoded instructions and lets branches refer to labels that may be placed
before or after them. `Assembler.finish` writes the distances: a short branch reaches as far as a
signed byte does, a long one as far as a word. Failures other than that of a placement are
reported there. A call whose callee does not fit the operand byte comes first, wherever it stands;
then the first branch, in the order of emission, that cannot be completed.
-/

namespace ScriptMachine

/-- Why code cannot be assembled. -/
inductive AssemblyError where
  /-- A branch refers to a label that is never placed, or to one of another assembler. -/
  | unresolvedLabel
  | labelPlacedTwice
  /-- The target of the short branch at this offset is too far away. -/
  | branchOutOfRange (pc : Nat)
  /-- The callee of the call at this offset does not fit a byte. -/
  | functionOutOfRange (pc : Nat)
  deriving DecidableEq

/-- The name of an assembly error in records. -/
def AssemblyError.name : AssemblyError → String
  | unresolvedLabel => "UnresolvedLabel"
  | labelPlacedTwice => "LabelPlacedTwice"
  | branchOutOfRange _ => "BranchOutOfRange"
  | functionOutOfRange _ => "FunctionOutOfRange"

/-- The text that reports an assembly error. -/
def AssemblyError.message : AssemblyError → String
  | unresolvedLabel => "label was referenced but never placed"
  | labelPlacedTwice => "label was placed twice"
  | branchOutOfRange pc => s!"short branch at pc {pc} out of range"
  | functionOutOfRange pc => s!"function index at pc {pc} does not fit in a byte"

/-- A branch target, numbered in the order of allocation. -/
structure Label where
  index : Nat
  deriving DecidableEq

/-- How much room a branch has for its distance. -/
inductive Reach where
  /-- A signed byte. -/
  | short
  /-- A signed word. -/
  | long
  deriving DecidableEq

/-- A branch whose distance is not written yet. -/
structure Reference where
  /-- The offset of the branch. -/
  pc : Nat
  label : Label
  reach : Reach

/-- One step of assembling. -/
inductive Statement where
  /-- Allocates the next label. -/
  | allocate
  /-- Places a label at the current offset. -/
  | place (label : Label)
  /-- Appends an instruction that refers to no label. -/
  | emit (instruction : Instruction)
  /-- Appends a short branch. -/
  | branch (test : Test) (target : Label)
  /-- Appends a long branch. -/
  | longBranch (test : Test) (target : Label)
  /-- Appends a call of a script function. -/
  | call (result : ResultKind) (argc : UInt8) (callee : FunctionId)

/-- Pushes a constant by the shorter of the two encodings that can hold it. -/
def Statement.push (value : Int32) : Statement :=
  let narrow := value.toInt8
  if narrow.toInt32 = value then .emit (.const8 narrow) else .emit (.const value)

/-- The statement that appends the instruction of a mnemonic. A branch takes a label number, a call
takes the number of arguments and a function number, and every other operand is the one that is
encoded. -/
def Statement.ofMnemonic? (mnemonic : String) (operands : List Int) : Option Statement := do
  let op ← Opcode.all.find? fun op => op.mnemonic == mnemonic
  match op, operands with
  | .branch test, [label] => some (.branch test ⟨label.toNat⟩)
  | .longBranch test, [label] => some (.longBranch test ⟨label.toNat⟩)
  | .script result, [argc, callee] =>
    some (.call result (UInt8.ofInt argc) ⟨callee.toNat⟩)
  | .const, [value] => some (.emit (.const (Int32.ofInt value)))
  | op, operands => (op.withOperands (operands.map UInt8.ofInt)).map .emit

/-- Code under construction. -/
structure Assembler where
  /-- The bytes so far, with zeros for distances that are not written yet. -/
  code : Code := #[]
  /-- The offset of every allocated label that is placed. -/
  labels : Array (Option Nat) := #[]
  /-- The branches to labels, in the order of emission. -/
  references : Array Reference := #[]
  /-- The offset of the first call whose callee does not fit a byte. -/
  oversizedCall : Option Nat := none

namespace Assembler

/-- The current offset. -/
def pc (assembler : Assembler) : Nat := assembler.code.size

/-- Allocates a label. -/
def allocate (assembler : Assembler) : Assembler :=
  { assembler with labels := assembler.labels.push none }

/-- Places a label at the current offset. A label is placed once, and only by the assembler that
allocated it. -/
def place (assembler : Assembler) (label : Label) : Except AssemblyError Assembler :=
  match assembler.labels[label.index]? with
  | none => .error .unresolvedLabel
  | some (some _) => .error .labelPlacedTwice
  | some none =>
    .ok { assembler with labels := assembler.labels.set! label.index (some assembler.pc) }

/-- Appends an instruction. -/
def emit (assembler : Assembler) (instruction : Instruction) : Assembler :=
  { assembler with code := assembler.code ++ instruction.encode }

/-- Appends a branch whose distance is written later. -/
def refer (assembler : Assembler) (instruction : Instruction) (label : Label) (reach : Reach) :
    Assembler :=
  { assembler with references := assembler.references.push ⟨assembler.pc, label, reach⟩ }.emit
    instruction

/-- Appends a call. A callee that does not fit the operand is replaced by zero and reported when
the code is finished. -/
def call (assembler : Assembler) (result : ResultKind) (argc : UInt8) (callee : FunctionId) :
    Assembler :=
  if callee.index < 256 then assembler.emit (.script result argc (UInt8.ofNat callee.index))
  else
    let oversizedCall := assembler.oversizedCall <|> some assembler.pc
    { assembler with oversizedCall }.emit (.script result argc 0)

/-- Carries out a statement. Only a placement can fail, and then it changes nothing. -/
def apply (assembler : Assembler) : Statement → Assembler × Option AssemblyError
  | .allocate => (assembler.allocate, none)
  | .place label =>
    match assembler.place label with
    | .ok next => (next, none)
    | .error error => (assembler, some error)
  | .emit instruction => (assembler.emit instruction, none)
  | .branch test target => (assembler.refer (.branch test 0) target .short, none)
  | .longBranch test target => (assembler.refer (.longBranch test 0) target .long, none)
  | .call result argc callee => (assembler.call result argc callee, none)

/-- Carries out statements in order, whether or not placements fail. -/
def applyAll (assembler : Assembler) (statements : List Statement) : Assembler :=
  statements.foldl (fun assembler statement => (assembler.apply statement).1) assembler

/-- Writes bytes over those from an offset on. -/
def overwrite (code : Code) (pc : Nat) : List UInt8 → Code
  | [] => code
  | byte :: bytes => overwrite (code.set! pc byte) (pc + 1) bytes

/-- Writes the distance of one branch, counted from the end of the branch. -/
def resolve (labels : Array (Option Nat)) (code : Code) (reference : Reference) :
    Except AssemblyError Code :=
  match labels[reference.label.index]? with
  | some (some target) =>
    match reference.reach with
    | .short =>
      let distance := (target : Int) - (reference.pc + 2 : Nat)
      if -128 ≤ distance ∧ distance < 128 then
        .ok (overwrite code (reference.pc + 1) [(Int8.ofInt distance).toUInt8])
      else .error (.branchOutOfRange reference.pc)
    | .long =>
      let distance := (target : Int) - (reference.pc + 5 : Nat)
      .ok (overwrite code (reference.pc + 1) (wordBytes (Int32.ofInt distance)))
  | _ => .error .unresolvedLabel

/-- Writes every distance and returns the code. -/
def finish (assembler : Assembler) : Except AssemblyError Code :=
  match assembler.oversizedCall with
  | some pc => .error (.functionOutOfRange pc)
  | none => assembler.references.foldlM (resolve assembler.labels) assembler.code

/-- An assembler with the given number of allocated labels. -/
def withLabels (count : Nat) : Assembler := { labels := Array.replicate count none }

end Assembler

end ScriptMachine

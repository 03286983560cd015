import ScriptMachine.Instruction.Codec
import ScriptMachine.Text.Quoted
import ScriptMachine.Text.Record
import ScriptMachine.Value

/-!
# Functions

A definition is what a compiler produces for one function: its code, the native methods the code
can call, and the numbers of its parameters and locals. A function is a definition together with
the number of stack slots one activation of it needs; there are never fewer than it has locals.
Native methods appear as references of a type the host chooses.
-/

namespace ScriptMachine

/-- A set of attributes of a function or a native method. -/
structure Flags where
  bits : UInt32
  deriving DecidableEq

namespace Flags

/-- No attribute. -/
def none : Flags := ⟨0⟩

/-- The function may suspend the calling thread. -/
def async : Flags := ⟨1⟩

/-- The function may suspend until a serial transfer completes. -/
def asyncSerial : Flags := ⟨2⟩

/-- The function may suspend until a raw serial event. -/
def asyncRawSerial : Flags := ⟨4⟩

/-- Every attribute of asynchronous functions, those without a name included. -/
def asyncAll : Flags := ⟨0xFF⟩

/-- The native method takes no object. -/
def static : Flags := ⟨0x100⟩

/-- The attributes of a name. -/
def ofName? : String → Option Flags
  | "NONE" => some none
  | "ASYNC" => some async
  | "ASYNC_SIO" => some asyncSerial
  | "ASYNC_RAW_SIO" => some asyncRawSerial
  | "ASYNC_ALL" => some asyncAll
  | "STATIC" => some static
  | _ => .none

/-- The attributes of either set. -/
def union (a b : Flags) : Flags := ⟨a.bits ||| b.bits⟩

/-- Whether a set includes every attribute of another. -/
def contains (a b : Flags) : Bool := a.bits &&& b.bits == b.bits

/-- Whether two sets share an attribute. -/
def intersects (a b : Flags) : Bool := a.bits &&& b.bits != 0

end Flags

/-- What a compiler produces for one function. -/
structure Definition (ν : Type) where
  /-- The name used in diagnostics. -/
  name : String
  returnType : TypeDescriptor := .int
  code : Code
  /-- The native methods, addressed by the native calls in the code. -/
  methods : Array ν := #[]
  /-- The leading locals that receive the arguments of a call. -/
  params : Nat := 0
  /-- The locals, parameters included. -/
  locals : Nat := 0
  flags : Flags := .none
  deriving DecidableEq

/-- A function that can be registered with a domain. -/
structure Function (ν : Type) extends Definition ν where
  /-- The stack slots of one activation, locals included. -/
  stackSlots : Nat
  locals_le_stackSlots : locals ≤ stackSlots
  deriving DecidableEq

namespace Function

variable {ν : Type}

/-- A function whose slot count is taken on trust; nothing is verified. -/
def trusted (definition : Definition ν) (slots : Nat) : Function ν :=
  { definition with
    stackSlots := max slots definition.locals
    locals_le_stackSlots := Nat.le_max_right .. }

/-- The native method with an index. -/
def method? (function : Function ν) (index : UInt8) : Option ν := function.methods[index.toNat]?

end Function

/-- The diagnostic form of a type descriptor. -/
def TypeDescriptor.diagnostic (type : TypeDescriptor) : String :=
  Record.closed "TypeInfo" [
    ("class", type.kind.name),
    ("index", toString type.index),
    ("object_class", Record.optional (type.className.map Quoted.encode))]

/-- The diagnostic form of a set of attributes. -/
def Flags.diagnostic (flags : Flags) : String := s!"FunctionFlags({flags.bits.toNat})"

/-- The diagnostic form of a function: everything but the code and the methods themselves. -/
def Function.diagnostic {ν : Type} (function : Function ν) : String :=
  Record.closed "Function" [
    ("name", Quoted.encode function.name),
    ("return_type", function.returnType.diagnostic),
    ("code_len", toString function.code.size),
    ("methods", toString function.methods.size),
    ("param_slots", toString function.params),
    ("local_slots", toString function.locals),
    ("stack_slots", toString function.stackSlots),
    ("flags", function.flags.diagnostic)]

end ScriptMachine

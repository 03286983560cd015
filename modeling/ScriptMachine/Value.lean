/-!
# Identifiers and type descriptors

At run time every script value is a word. Functions, objects, threads and wait queues are named
by their positions in the tables of a domain, and a script carries functions and objects as those
positions. The type descriptors are for signatures and diagnostics only.
-/

namespace ScriptMachine

/-- The position of a function in the function table of a domain. -/
structure FunctionId where
  index : Nat
  deriving DecidableEq

/-- The position of a string or a native object in the object table of a domain. -/
structure ObjectId where
  index : Nat
  deriving DecidableEq

/-- The position of a thread in the thread table of a domain. -/
structure ThreadId where
  index : Nat
  deriving DecidableEq

/-- The position of a wait queue in the queue table of a domain. -/
structure QueueId where
  index : Nat
  deriving DecidableEq

/-- The listed form of a function identifier. -/
def FunctionId.text (id : FunctionId) : String := s!"f{id.index}"

/-- The listed form of a thread identifier. -/
def ThreadId.text (id : ThreadId) : String := s!"t{id.index}"

/-- The listed form of a queue identifier. -/
def QueueId.text (id : QueueId) : String := s!"q{id.index}"

/-- The word that stands for an object in a script. -/
def ObjectId.toValue (id : ObjectId) : Int32 := Int32.ofNat id.index

/-- The table position that a script value stands for; negative values stand for none. -/
def indexOfValue? (value : Int32) : Option Nat :=
  if value < 0 then none else some value.toNatClampNeg

/-- The object that a script value stands for. -/
def ObjectId.ofValue? (value : Int32) : Option ObjectId := (indexOfValue? value).map ObjectId.mk

/-- The function that a script value stands for. -/
def FunctionId.ofValue? (value : Int32) : Option FunctionId :=
  (indexOfValue? value).map FunctionId.mk

/-- The coarse kinds of types. -/
inductive TypeKind where
  | void
  | int
  /-- An integer known before the run. -/
  | intConst
  /-- An assignable global or special variable. -/
  | intVariable
  /-- An assignable frame local. -/
  | intLocal
  | object
  /-- An assignable object variable. -/
  | objectVariable
  | string
  /-- A string known before the run. -/
  | stringConst
  | function
  /-- The name of a class of native objects. -/
  | objectClass
  deriving DecidableEq

/-- The name of a kind in diagnostics. -/
def TypeKind.name : TypeKind → String
  | .void => "Void"
  | .int => "Int"
  | .intConst => "IntConst"
  | .intVariable => "IntLValueVariable"
  | .intLocal => "IntLValueLocal"
  | .object => "Object"
  | .objectVariable => "ObjectLValue"
  | .string => "String"
  | .stringConst => "StringConst"
  | .function => "FunctionPointer"
  | .objectClass => "ObjectClass"

/-- Every kind of type. -/
def TypeKind.all : List TypeKind := [
  .void, .int, .intConst, .intVariable, .intLocal, .object, .objectVariable, .string, .stringConst,
  .function, .objectClass]

/-- The kind of a name. -/
def TypeKind.ofName? (name : String) : Option TypeKind :=
  TypeKind.all.find? fun kind => kind.name == name

/-- The declared type of a value: its kind, an index whose meaning depends on the kind, and the
class of an object. -/
structure TypeDescriptor where
  kind : TypeKind
  index : Nat := 0
  className : Option String := none
  deriving DecidableEq

namespace TypeDescriptor

/-- The type of no value. -/
def void : TypeDescriptor := { kind := .void }

/-- The type of a computed integer. -/
def int : TypeDescriptor := { kind := .int }

/-- The type of a string of the domain. -/
def string : TypeDescriptor := { kind := .string }

/-- The type of a reference to a script function. -/
def function : TypeDescriptor := { kind := .function }

/-- The type of a native object of the named class. -/
def object (className : String) : TypeDescriptor :=
  { kind := .object, className := some className }

/-- Constants and assignable integers are integers too. -/
def isInt (type : TypeDescriptor) : Bool :=
  match type.kind with
  | .int | .intConst | .intVariable | .intLocal => true
  | _ => false

/-- Whether the type is that of no value. -/
def isVoid (type : TypeDescriptor) : Bool := type.kind == .void

/-- The name of the type in listings. An object is shown by its class when that is known. -/
def text (type : TypeDescriptor) : String :=
  match type.kind with
  | .void => "void"
  | .string | .stringConst => "string"
  | .function => "function"
  | .object | .objectVariable => type.className.getD "object"
  | .objectClass => "class"
  | .int | .intConst | .intVariable | .intLocal => "int"

end TypeDescriptor

end ScriptMachine

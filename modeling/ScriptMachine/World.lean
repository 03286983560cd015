import ScriptMachine.Domain.Thread
import ScriptMachine.Domain.Variables
import ScriptMachine.Sleep

/-!
# The world of a script

Beside its domain a script can reach the sleepers and the native objects of the host. A domain only
refers to native objects. One exists as long as the host owns it or a native call in progress holds
it, and a call of one of its methods has it to itself: another such call finds it busy.
-/

namespace ScriptMachine

/-- A type of native objects. Types are told apart by what they are: two of them may have the same
class name. -/
structure NativeType where
  className : String
  /-- Tells types with the same class name apart. -/
  variant : Nat := 0
  deriving DecidableEq

/-- The one type of a class name that is used only once. -/
instance : Coe String NativeType := ⟨fun className => { className }⟩

/-- A native object; what it contains is the host's affair. -/
structure NativeObject where
  type : NativeType
  /-- The host has not released the object. -/
  owned : Bool := true
  /-- The number of arguments of native calls in progress that are this object. -/
  holds : Nat := 0
  /-- A method call has the object to itself. -/
  borrowed : Bool := false
  deriving DecidableEq

/-- Whether the object still exists. -/
def NativeObject.isAlive (object : NativeObject) : Bool := object.owned || 0 < object.holds

/-- Everything that native methods can reach and change. -/
structure World (ν : Type) where
  domain : Domain ν := {}
  sleepers : Sleepers := {}
  natives : Array NativeObject := #[]

/-- The type of a parameter of a bound native method. -/
inductive Parameter where
  | int
  | text
  | function
  /-- A native object of a type. -/
  | object (type : NativeType)
  deriving DecidableEq

/-- The declared type of a parameter. -/
def Parameter.type : Parameter → TypeDescriptor
  | int => .int
  | text => .string
  | function => .function
  | object type => .object type.className

/-- A resolved argument of a bound native method. -/
inductive Argument where
  | int (value : Int32)
  | text (value : String)
  | function (id : FunctionId)
  /-- A native object, by its position among those of the host. -/
  | object (index : Nat)
  deriving DecidableEq

namespace World

variable {ν : Type}

/-- Looks up an entry of the object table. -/
def entry (world : World ν) (id : ObjectId) : Except ObjectError ObjectEntry :=
  match world.domain.objects[id.index]? with
  | some entry => .ok entry
  | none => .error (.outOfRange id.toValue)

/-- Resolves a string. -/
def text (world : World ν) (id : ObjectId) : Except ObjectError String := do
  match ← world.entry id with
  | .text value => return value
  | .native _ => throw .notAString

/-- Resolves a native object of a type. That it still exists is decided before its type is. -/
def object (world : World ν) (id : ObjectId) (type : NativeType) : Except ObjectError Nat := do
  match ← world.entry id with
  | .text _ => throw .notAnObject
  | .native index =>
    match world.natives[index]? with
    | none => throw .released
    | some object =>
      if !object.isAlive then throw .released
      else if object.type != type then
        throw (.classMismatch type.className object.type.className)
      else return index

/-- Resolves one argument. -/
def argument (world : World ν) (value : Int32) : Parameter → Except ObjectError Argument
  | .int => .ok (.int value)
  | .text =>
    match ObjectId.ofValue? value with
    | none => .error (.outOfRange value)
    | some id => (world.text id).map .text
  | .function =>
    match FunctionId.ofValue? value with
    | none => .error (.unknownFunction value)
    | some id =>
      if (world.domain.function? id).isSome then .ok (.function id)
      else .error (.unknownFunction value)
  | .object type =>
    match ObjectId.ofValue? value with
    | none => .error (.outOfRange value)
    | some id => (world.object id type).map .object

/-- Resolves the arguments of a call, from the given position on. Arguments beyond the parameters
are not looked at. -/
def argumentsFrom (world : World ν) :
    Nat → List Parameter → List Int32 → Except ObjectError (List Argument)
  | _, [], _ => .ok []
  | position, _ :: _, [] => .error (.missingArgument position)
  | position, parameter :: parameters, value :: values => do
    let first ← world.argument value parameter
    let rest ← world.argumentsFrom (position + 1) parameters values
    return first :: rest

/-- Resolves the arguments of a call. -/
def arguments (world : World ν) (parameters : List Parameter) (values : List Int32) :
    Except ObjectError (List Argument) :=
  world.argumentsFrom 0 parameters values

/-- Changes a native object. -/
def modifyNative (world : World ν) (index : Nat) (change : NativeObject → NativeObject) :
    World ν :=
  { world with natives := world.natives.modify index change }

/-- Changes every native object among some arguments, once for each occurrence. -/
def modifyArguments (world : World ν) (change : NativeObject → NativeObject)
    (arguments : List Argument) : World ν :=
  arguments.foldl (fun world argument =>
    match argument with
    | .object index => world.modifyNative index change
    | _ => world) world

/-- Keeps the objects among some arguments in existence. -/
def hold (world : World ν) (arguments : List Argument) : World ν :=
  world.modifyArguments (fun object => { object with holds := object.holds + 1 }) arguments

/-- Gives up the objects among some arguments. -/
def unhold (world : World ν) (arguments : List Argument) : World ν :=
  world.modifyArguments (fun object => { object with holds := object.holds - 1 }) arguments

/-- The world as native methods see it: everything but the receiver of the trace. -/
def view (world : World ν) : World ν :=
  { world with domain := { world.domain with sink := none } }

end World

end ScriptMachine

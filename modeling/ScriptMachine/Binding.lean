import ScriptMachine.Program

/-!
# Bound native methods

A bound native method has a signature. Its arguments are resolved before it is called, and if one
of them cannot be, it is not called and the calling thread is aborted. While a method of an object
is called, the object is not available to other such calls.
-/

namespace ScriptMachine

/-- The name, the types and the attributes of a native method. -/
structure Signature where
  name : String
  /-- The type of the object the method is called on, in the first argument slot. -/
  receiver : Option NativeType
  parameters : List Parameter
  result : ResultKind
  flags : Flags

namespace Signature

/-- A method that is called without an object. -/
def static (name : String) (parameters : List Parameter) (result : ResultKind) : Signature :=
  { name, receiver := none, parameters, result, flags := .static }

/-- A method that is called on an object of a type. -/
def method (type : NativeType) (name : String) (parameters : List Parameter) (result : ResultKind) :
    Signature :=
  { name, receiver := some type, parameters, result, flags := .none }

/-- Adds attributes. -/
def withFlags (signature : Signature) (flags : Flags) : Signature :=
  { signature with flags := signature.flags.union flags }

/-- The parameters of all argument slots, the object first. -/
def slots (signature : Signature) : List Parameter :=
  (signature.receiver.map Parameter.object).toList ++ signature.parameters

/-- The declared type of the result. -/
def returnType (signature : Signature) : TypeDescriptor :=
  match signature.result with
  | .void => .void
  | .int => .int

/-- The declared types of all argument slots, the object first. -/
def argumentTypes (signature : Signature) : List TypeDescriptor :=
  signature.slots.map Parameter.type

/-- Whether the attributes say that the method takes no object. -/
def isStatic (signature : Signature) : Bool := signature.flags.contains .static

end Signature

/-- The description of a native class, for a compiler. -/
structure NativeClass where
  name : String
  methods : List Signature

/-- The first method of a name. -/
def NativeClass.method? (description : NativeClass) (name : String) : Option Signature :=
  description.methods.find? fun method => method.name == name

namespace Signature

variable {ν σ : Type}

/-- The value left in the result slot; that of a method without a result is zero. -/
def slotValue (signature : Signature) (value : Int32) : Int32 :=
  match signature.result with
  | .void => 0
  | .int => value

/-- Aborts the calling thread. -/
def fault (error : ObjectError) : Program ν σ Int32 := do
  let _ ← Program.request (.faultActive error)
  return 0

/-- Calls a function with resolved arguments. For a method, the object is borrowed during the
call. -/
def callResolved (signature : Signature) (function : List Argument → Body ν σ)
    (arguments : List Argument) : Program ν σ Int32 :=
  match signature.receiver, arguments with
  | some _, .object object :: _ => do
    match ← Program.update (.borrow object) with
    | .flag true =>
      let value ← function arguments
      let _ ← Program.update (.unborrow object)
      return signature.slotValue value
    | _ => fault .busy
  | _, _ => do
    let value ← function arguments
    return signature.slotValue value

/-- The native method that a function becomes under a signature. The objects among the arguments
exist until the call is over, whatever the host releases in the meantime. -/
def bind (signature : Signature) (function : List Argument → Body ν σ) (values : List Int32) :
    Program ν σ Int32 := do
  match ← Program.update (.hold signature.slots values) with
  | .resolved arguments =>
    let value ← signature.callResolved function arguments
    let _ ← Program.update (.unhold arguments)
    return value
  | .refused (.object error) => fault error
  | _ => return 0

end Signature

end ScriptMachine

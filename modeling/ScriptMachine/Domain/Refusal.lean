import ScriptMachine.Value

/-!
# Refusals

An operation on a domain that cannot be carried out is refused, and says why. A script value that
resolves to nothing is reported in the same way, and ends the run that passed it to a native.
-/

namespace ScriptMachine

/-- Why a change to the variables or the tables of a domain is refused. -/
inductive DomainError where
  /-- Variables are declared before the first thread is created. -/
  | layoutSealed
  /-- An operand byte cannot address another variable of this kind. -/
  | tooManyVariables
  | noSuchVariable (index : UInt8)
  /-- A thread is running. -/
  | busy
  deriving DecidableEq

/-- The name of a refusal in records. -/
def DomainError.name : DomainError → String
  | layoutSealed => "LayoutSealed"
  | tooManyVariables => "TooManyVariables"
  | noSuchVariable _ => "NoSuchVariable"
  | busy => "Busy"

/-- The text that reports a refused change. -/
def DomainError.message : DomainError → String
  | layoutSealed => "variables cannot be declared after threads exist"
  | tooManyVariables => "more than 256 variables"
  | noSuchVariable index => s!"no variable with index {index}"
  | busy => "a thread is running"

/-- Why an operation on a thread is refused. -/
inductive ThreadError where
  | running
  | notSuspended
  /-- The thread waits in a queue and is woken through it. -/
  | enqueued
  /-- The thread has no frames. -/
  | notStarted
  /-- The thread is not suspended in a native call that awaits a result. -/
  | noPendingResult
  | unknownFunction (id : FunctionId)
  deriving DecidableEq

/-- The name of a refusal in records. -/
def ThreadError.name : ThreadError → String
  | running => "Running"
  | notSuspended => "NotSuspended"
  | enqueued => "Enqueued"
  | notStarted => "NotStarted"
  | noPendingResult => "NoPendingResult"
  | unknownFunction _ => "UnknownFunction"

/-- The text that reports a refused thread operation. -/
def ThreadError.message : ThreadError → String
  | running => "thread is running"
  | notSuspended => "thread is not suspended"
  | enqueued => "thread is waiting in a queue"
  | notStarted => "thread has no frames"
  | noPendingResult => "suspended frame has no result slot"
  | unknownFunction id => "unknown function " ++ id.text

/-- Why a script value does not resolve to what a native method expects. -/
inductive ObjectError where
  /-- The value is no position in the object table. -/
  | outOfRange (value : Int32)
  /-- The value is no position in the function table. -/
  | unknownFunction (value : Int32)
  /-- The host no longer holds the native object. -/
  | released
  | notAString
  | notAnObject
  | classMismatch (expected found : String)
  /-- An outer call is using the native object. -/
  | busy
  | missingArgument (position : Nat)
  deriving DecidableEq

/-- The name of a resolution error in records. -/
def ObjectError.name : ObjectError → String
  | outOfRange _ => "OutOfRange"
  | unknownFunction _ => "UnknownFunction"
  | released => "Released"
  | notAString => "NotAString"
  | notAnObject => "NotAnObject"
  | classMismatch _ _ => "ClassMismatch"
  | busy => "Busy"
  | missingArgument _ => "MissingArgument"

/-- The text that reports a value that does not resolve. -/
def ObjectError.message : ObjectError → String
  | outOfRange value => s!"object index {value.toInt} out of range"
  | unknownFunction value => s!"function index {value.toInt} out of range"
  | released => "native object was released"
  | notAString => "expected a string"
  | notAnObject => "expected a native object"
  | classMismatch expected found => s!"expected object of class {expected}, found {found}"
  | busy => "native object is already borrowed"
  | missingArgument position => s!"missing argument {position}"

/-- Any of the reasons for which an operation is refused. -/
inductive Refusal where
  | domain (error : DomainError)
  | thread (error : ThreadError)
  | object (error : ObjectError)
  deriving DecidableEq

/-- The name of a refusal in records. -/
def Refusal.name : Refusal → String
  | domain error => error.name
  | thread error => error.name
  | object error => error.name

/-- The text that reports a refusal. -/
def Refusal.message : Refusal → String
  | domain error => error.message
  | thread error => error.message
  | object error => error.message

end ScriptMachine

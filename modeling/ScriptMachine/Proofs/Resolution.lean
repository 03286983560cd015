import ScriptMachine.Binding
import ScriptMachine.Proofs.References

/-!
# How arguments are resolved

The argument slots of a bound native method are resolved one by one, each for itself: all of them
are resolved exactly if each one is decoded, and otherwise the error is that of the first slot that
fails. A slot that is missing fails like one that holds a value that is not decoded, and slots
beyond the parameters do not count. Together with the borrowing of the object this decides whether
the function under a signature is called.
-/

namespace ScriptMachine

variable {ν σ : Type}

namespace World

/-- Every parameter is decoded from the value in its own slot. -/
structure Resolves (world : World ν) (slots : List Parameter) (values : List Int32)
    (arguments : List Argument) : Prop where
  length : arguments.length = slots.length
  each : ∀ (position : Nat) parameter, slots[position]? = some parameter → ∃ value argument,
    values[position]? = some value ∧ arguments[position]? = some argument ∧
      world.Decodes value parameter (.ok argument)

/-- The slot at a position fails: its value is missing or is not decoded. -/
inductive Fails (world : World ν) (slots : List Parameter) (values : List Int32)
    (position : Nat) : ObjectError → Prop where
  | missing {parameter : Parameter} (slot : slots[position]? = some parameter)
    (absent : values[position]? = none) :
    Fails world slots values position (.missingArgument position)
  | undecoded {parameter : Parameter} {value : Int32} {error : ObjectError}
    (slot : slots[position]? = some parameter) (there : values[position]? = some value)
    (decodes : world.Decodes value parameter (.error error)) :
    Fails world slots values position error

/-- The slot with the smallest number among those that fail does so with this error. -/
def FailsFirst (world : World ν) (slots : List Parameter) (values : List Int32)
    (error : ObjectError) : Prop :=
  ∃ position, world.Fails slots values position error ∧
    ∀ earlier < position, ∀ other, ¬world.Fails slots values earlier other

/-- Why the argument in a slot does not resolve, if it does not. Positions in messages are counted
from the given one on. -/
def slotErrorFrom? (world : World ν) (first : Nat) (slots : List Parameter) (values : List Int32)
    (position : Nat) : Option ObjectError :=
  match slots[position]?, values[position]? with
  | none, _ => none
  | some _, none => some (.missingArgument (first + position))
  | some parameter, some value =>
    match world.argument value parameter with
    | .ok _ => none
    | .error error => some error

variable {world : World ν} {slots : List Parameter} {values : List Int32}
  {arguments : List Argument}

/-! ## All slots -/

/-- Without parameters there is nothing to resolve. -/
theorem resolves_nil : world.Resolves [] values arguments ↔ arguments = [] := by
  constructor
  · rintro ⟨length, _⟩
    exact List.eq_nil_of_length_eq_zero length
  · rintro rfl
    exact ⟨rfl, by simp⟩

/-- The first slot and the others are resolved for themselves. -/
theorem resolves_cons {parameter : Parameter} {value : Int32} :
    world.Resolves (parameter :: slots) (value :: values) arguments ↔
      ∃ argument others, arguments = argument :: others ∧
        world.Decodes value parameter (.ok argument) ∧ world.Resolves slots values others := by
  constructor
  · rintro ⟨length, each⟩
    cases arguments with
    | nil => cases length
    | cons argument others =>
      obtain ⟨_, _, there, found, decodes⟩ := each 0 parameter rfl
      cases there
      cases found
      exact ⟨argument, others, rfl, decodes, Nat.succ.inj length,
        fun position => each (position + 1)⟩
  · rintro ⟨argument, others, rfl, decodes, length, each⟩
    refine ⟨congrArg Nat.succ length, fun position parameter' known => ?_⟩
    cases position with
    | zero =>
      cases known
      exact ⟨value, argument, rfl, rfl, decodes⟩
    | succ position => exact each position parameter' known

/-- Arguments are resolved exactly if each slot is. -/
theorem argumentsFrom_eq_ok {first : Nat} :
    world.argumentsFrom first slots values = .ok arguments ↔
      world.Resolves slots values arguments := by
  induction slots generalizing first values arguments with
  | nil =>
    rw [resolves_nil, argumentsFrom, Except.ok.injEq]
    exact eq_comm
  | cons parameter slots ih =>
    cases values with
    | nil =>
      refine ⟨nofun, fun resolves => ?_⟩
      obtain ⟨_, _, missing, _⟩ := resolves.each 0 parameter rfl
      cases missing
    | cons value values =>
      rw [resolves_cons, argumentsFrom, bind_eq_ok]
      constructor
      · rintro ⟨argument, resolved, rest⟩
        obtain ⟨others, found, same⟩ := bind_eq_ok.1 rest
        cases same
        exact ⟨argument, others, rfl, argument_eq_iff.1 resolved, ih.1 found⟩
      · rintro ⟨argument, others, rfl, decodes, rest⟩
        exact ⟨argument, argument_eq_iff.2 decodes, bind_eq_ok.2 ⟨others, ih.2 rest, rfl⟩⟩

/-! ## The first slot that fails -/

/-- A first slot that does not resolve is the first that fails. -/
theorem fails_of_first {first : Nat} {error other : ObjectError}
    (fails : world.slotErrorFrom? first slots values 0 = some other) :
    (∃ position, world.slotErrorFrom? first slots values position = some error ∧
      ∀ earlier < position, world.slotErrorFrom? first slots values earlier = none) ↔
      other = error := by
  constructor
  · rintro ⟨position, found, before⟩
    rcases Nat.eq_zero_or_pos position with rfl | positive
    · exact Option.some.inj (fails.symm.trans found)
    · rw [before 0 positive] at fails
      cases fails
  · rintro rfl
    exact ⟨0, fails, fun earlier before => absurd before (Nat.not_lt_zero _)⟩

/-- Behind a first slot that resolves the others decide. -/
theorem fails_of_rest {first : Nat} {parameter : Parameter} {value : Int32} {error : ObjectError}
    {argument : Argument} (resolved : world.argument value parameter = .ok argument) :
    (∃ position, world.slotErrorFrom? first (parameter :: slots) (value :: values) position =
        some error ∧ ∀ earlier < position,
          world.slotErrorFrom? first (parameter :: slots) (value :: values) earlier = none) ↔
      ∃ position, world.slotErrorFrom? (first + 1) slots values position = some error ∧
        ∀ earlier < position, world.slotErrorFrom? (first + 1) slots values earlier = none := by
  have fine : world.slotErrorFrom? first (parameter :: slots) (value :: values) 0 = none := by
    simp only [slotErrorFrom?, List.getElem?_cons_zero, resolved]
  have shift (position : Nat) :
      world.slotErrorFrom? first (parameter :: slots) (value :: values) (position + 1) =
        world.slotErrorFrom? (first + 1) slots values position := by
    simp only [slotErrorFrom?, List.getElem?_cons_succ]
    rw [Nat.add_assoc, Nat.add_comm 1]
  constructor
  · rintro ⟨position, found, before⟩
    cases position with
    | zero =>
      rw [fine] at found
      cases found
    | succ position =>
      rw [shift] at found
      refine ⟨position, found, fun earlier sooner => ?_⟩
      rw [← shift]
      exact before (earlier + 1) (by omega)
  · rintro ⟨position, found, before⟩
    refine ⟨position + 1, (shift position).trans found, fun earlier sooner => ?_⟩
    cases earlier with
    | zero => exact fine
    | succ earlier => exact (shift earlier).trans (before earlier (by omega))

/-- Arguments are not resolved exactly if a slot fails, for the reason of the first that does. -/
theorem argumentsFrom_eq_error {first : Nat} {error : ObjectError} :
    world.argumentsFrom first slots values = .error error ↔
      ∃ position, world.slotErrorFrom? first slots values position = some error ∧
        ∀ earlier < position, world.slotErrorFrom? first slots values earlier = none := by
  induction slots generalizing first values with
  | nil => simp [argumentsFrom, slotErrorFrom?]
  | cons parameter slots ih =>
    cases values with
    | nil =>
      have missing : world.slotErrorFrom? first (parameter :: slots) [] 0 =
          some (.missingArgument first) := rfl
      rw [fails_of_first missing, argumentsFrom, Except.error.injEq]
    | cons value values =>
      cases resolved : world.argument value parameter with
      | error other =>
        have fails : world.slotErrorFrom? first (parameter :: slots) (value :: values) 0 =
            some other := by
          simp only [slotErrorFrom?, List.getElem?_cons_zero, resolved]
        rw [fails_of_first fails]
        simp [argumentsFrom, resolved, bind, Except.bind]
      | ok argument =>
        rw [fails_of_rest resolved, ← ih]
        cases rest : world.argumentsFrom (first + 1) slots values <;>
          simp [argumentsFrom, resolved, rest, bind, Except.bind, pure, Except.pure]

/-- A slot does not resolve exactly if it fails. -/
theorem slotErrorFrom?_eq_some_iff {position : Nat} {error : ObjectError} :
    world.slotErrorFrom? 0 slots values position = some error ↔
      world.Fails slots values position error := by
  unfold slotErrorFrom?
  constructor
  · intro found
    split at found
    · cases found
    · rename_i parameter slot absent
      cases found
      rw [Nat.zero_add]
      exact .missing slot absent
    · rename_i parameter value slot there
      split at found <;> cases found
      exact .undecoded slot there (argument_eq_iff.1 ‹_›)
  · intro fails
    cases fails with
    | missing slot absent => simp only [slot, absent, Nat.zero_add]
    | undecoded slot there decodes => simp only [slot, there, argument_eq_iff.2 decodes]

/-- The arguments of a call are not resolved exactly if a slot is the first to fail. -/
theorem arguments_eq_error {error : ObjectError} :
    world.arguments slots values = .error error ↔ world.FailsFirst slots values error := by
  refine argumentsFrom_eq_error.trans (exists_congr fun position => ?_)
  simp only [slotErrorFrom?_eq_some_iff, Option.eq_none_iff_forall_ne_some, ne_eq]

/-- Either every slot resolves, or some slot is the first to fail. -/
theorem arguments_cases (world : World ν) (slots : List Parameter) (values : List Int32) :
    (∃ arguments, world.arguments slots values = .ok arguments ∧
        world.Resolves slots values arguments) ∨
      ∃ error, world.arguments slots values = .error error ∧
        world.FailsFirst slots values error := by
  cases resolved : world.arguments slots values with
  | ok arguments => exact .inl ⟨arguments, rfl, argumentsFrom_eq_ok.1 resolved⟩
  | error error => exact .inr ⟨error, rfl, arguments_eq_error.1 resolved⟩

/-! ## Whether a function is called -/

end World

/-- What is expected in the argument slots: the object of a method, and then the parameters. -/
def Signature.expected (signature : Signature) : List Parameter :=
  match signature.receiver with
  | none => signature.parameters
  | some type => .object type :: signature.parameters

theorem Signature.slots_eq (signature : Signature) : signature.slots = signature.expected := by
  unfold slots expected
  cases signature.receiver <;> rfl

namespace World

variable {world : World ν} {slots : List Parameter} {values : List Int32}
  {arguments : List Argument}

/-- A function under a signature is to be called with these arguments: every slot resolves, and the
object of a method is not borrowed. -/
structure Admits (world : World ν) (signature : Signature) (values : List Int32)
    (arguments : List Argument) : Prop where
  resolves : world.Resolves signature.expected values arguments
  free : signature.receiver.isSome → ∀ index object, arguments[0]? = some (.object index) →
    world.natives[index]? = some object → object.borrowed = false

/-- A function under a signature is not to be called, for this reason: a slot fails, or all of them
resolve and the object of a method is borrowed. -/
inductive Rejects (world : World ν) (signature : Signature) (values : List Int32) :
    ObjectError → Prop where
  | slot {error : ObjectError} (fails : world.FailsFirst signature.expected values error) :
    Rejects world signature values error
  | busy {arguments : List Argument} {index : Nat} {object : NativeObject}
    (resolves : world.Resolves signature.expected values arguments)
    (receiver : signature.receiver.isSome) (first : arguments[0]? = some (.object index))
    (present : world.natives[index]? = some object) (borrowed : object.borrowed = true) :
    Rejects world signature values .busy

/-- The first argument of a method is the object that it is called on. -/
theorem Resolves.receiver {signature : Signature} {type : NativeType}
    (resolves : world.Resolves signature.expected values arguments)
    (method : signature.receiver = some type) :
    ∃ index object others, arguments = .object index :: others ∧
      world.natives[index]? = some object ∧ object.type = type := by
  simp only [Signature.expected, method] at resolves
  cases values with
  | nil =>
    obtain ⟨_, _, missing, _⟩ := resolves.each 0 (.object type) rfl
    cases missing
  | cons value values =>
    rw [resolves_cons] at resolves
    obtain ⟨argument, others, rfl, decodes, _⟩ := resolves
    cases decodes with
    | object position provides same => exact ⟨_, _, others, rfl, provides.present, same⟩

/-- What slots that all resolve are resolved to. -/
theorem Resolves.arguments_eq (resolves : world.Resolves slots values arguments) :
    world.arguments slots values = .ok arguments := argumentsFrom_eq_ok.2 resolves

/-- Slots of which one fails are not all resolved. -/
theorem FailsFirst.not_resolves {error : ObjectError}
    (fails : world.FailsFirst slots values error) : ¬world.Resolves slots values arguments := by
  have failed := arguments_eq_error.2 fails
  intro resolves
  rw [resolves.arguments_eq] at failed
  cases failed

/-- The two exclude each other. -/
theorem Admits.not_rejects {signature : Signature} {error : ObjectError}
    (admits : world.Admits signature values arguments) :
    ¬world.Rejects signature values error := by
  intro rejects
  cases rejects with
  | slot fails => exact fails.not_resolves admits.resolves
  | busy resolves receiver first present borrowed =>
    obtain rfl := Except.ok.inj (admits.resolves.arguments_eq.symm.trans resolves.arguments_eq)
    rw [admits.free receiver _ _ first present] at borrowed
    cases borrowed

/-- There is one reason not to call a function. -/
theorem Rejects.unique {signature : Signature} {error other : ObjectError}
    (first : world.Rejects signature values error)
    (second : world.Rejects signature values other) : error = other := by
  cases first with
  | slot fails =>
    cases second with
    | slot again =>
      exact Except.error.inj ((arguments_eq_error.2 fails).symm.trans (arguments_eq_error.2 again))
    | busy resolves _ _ _ _ => exact absurd resolves fails.not_resolves
  | busy resolves _ _ _ _ =>
    cases second with
    | slot again => exact absurd resolves again.not_resolves
    | busy _ _ _ _ _ => rfl

end World

end ScriptMachine

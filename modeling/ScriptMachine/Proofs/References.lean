import ScriptMachine.Proofs.Tables
import ScriptMachine.World

/-!
# What values stand for

A value that is not negative stands for the entry of a table at its position. Whether it can be
decoded as an argument depends on the type of the parameter: a number is any value, a string and a
native object are entries of the object table, and a function is one of the function table. For
each lookup it is listed here what comes of it: what is found, or why nothing is. A lookup comes to
exactly what is listed.
-/

namespace ScriptMachine

variable {ν : Type}

/-! ## Positions -/

/-- A value that is not negative stands for a position. -/
theorem indexOfValue?_eq_some_iff {value : Int32} {index : Nat} :
    indexOfValue? value = some index ↔ value.toInt = index := by
  have sign : value < 0 ↔ value.toInt < 0 := Int32.lt_iff_toInt_lt
  unfold indexOfValue?
  split <;> rename_i negative <;> rw [sign] at negative
  · simp only [reduceCtorEq, false_iff]
    omega
  · rw [Option.some.injEq, ← Int32.toNat_toInt]
    omega

/-- A negative value stands for no position. -/
theorem indexOfValue?_eq_none_iff {value : Int32} :
    indexOfValue? value = none ↔ value.toInt < 0 := by
  have sign : value < 0 ↔ value.toInt < 0 := Int32.lt_iff_toInt_lt
  unfold indexOfValue?
  split <;> rename_i negative <;> rw [sign] at negative <;> simp [negative]

/-- The value of an object in a script is the one that stands for it. -/
theorem ObjectId.toValue_of_toInt {value : Int32} {index : Nat} (position : value.toInt = index) :
    (ObjectId.mk index).toValue = value := by
  have small : index < 2 ^ 31 := by
    have bound := value.toInt_lt
    omega
  unfold toValue
  rw [← Int32.toInt_inj, Int32.toInt_ofNat_of_lt small, position]

namespace World

variable {world : World ν} {id : ObjectId}

/-! ## The object table -/

/-- At this position the object table has a native object that still exists: the host owns it, or a
native call in progress holds it. -/
structure Provides (world : World ν) (index native : Nat) (object : NativeObject) : Prop where
  entry : world.domain.objects[index]? = some (.native native)
  present : world.natives[native]? = some object
  alive : object.owned = true ∨ 0 < object.holds

/-- At this position the object table has a native object that no longer exists. -/
structure Misses (world : World ν) (index native : Nat) : Prop where
  entry : world.domain.objects[index]? = some (.native native)
  gone : ∀ object, world.natives[native]? = some object →
    object.owned = false ∧ object.holds = 0

/-- What comes of looking for a string at a position. -/
inductive TextAt (world : World ν) (index : Nat) : Except ObjectError String → Prop where
  | beyond (outside : world.domain.objects.size ≤ index) :
    TextAt world index (.error (.outOfRange (ObjectId.mk index).toValue))
  | notAString {native : Nat} (entry : world.domain.objects[index]? = some (.native native)) :
    TextAt world index (.error .notAString)
  | found {text : String} (entry : world.domain.objects[index]? = some (.text text)) :
    TextAt world index (.ok text)

/-- What comes of looking for a native object of a type at a position. -/
inductive ObjectAt (world : World ν) (index : Nat) (type : NativeType) :
    Except ObjectError Nat → Prop where
  | beyond (outside : world.domain.objects.size ≤ index) :
    ObjectAt world index type (.error (.outOfRange (ObjectId.mk index).toValue))
  | notAnObject {text : String} (entry : world.domain.objects[index]? = some (.text text)) :
    ObjectAt world index type (.error .notAnObject)
  | released {native : Nat} (misses : world.Misses index native) :
    ObjectAt world index type (.error .released)
  | otherType {native : Nat} {object : NativeObject}
    (provides : world.Provides index native object) (differs : object.type ≠ type) :
    ObjectAt world index type (.error (.classMismatch type.className object.type.className))
  | found {native : Nat} {object : NativeObject} (provides : world.Provides index native object)
    (same : object.type = type) :
    ObjectAt world index type (.ok native)

/-- What an identifier resolves to as a string. -/
theorem text_eq_iff {result : Except ObjectError String} :
    world.text id = result ↔ world.TextAt id.index result := by
  unfold World.text World.entry
  constructor
  · rintro rfl
    cases entry : world.domain.objects[id.index]? with
    | none => exact .beyond (Array.getElem?_eq_none_iff.1 entry)
    | some found =>
      cases found with
      | text text => exact .found entry
      | native native => exact .notAString entry
  · intro comes
    cases comes with
    | beyond outside =>
      rw [Array.getElem?_eq_none outside]
      rfl
    | notAString entry | found entry =>
      rw [entry]
      rfl

theorem isAlive_iff {object : NativeObject} :
    object.isAlive = true ↔ object.owned = true ∨ 0 < object.holds := by
  simp [NativeObject.isAlive]

/-- A native object of the table exists or does not. -/
theorem provides_or_misses {index native : Nat}
    (entry : world.domain.objects[index]? = some (.native native)) :
    (∃ object, world.Provides index native object) ∨ world.Misses index native := by
  cases present : world.natives[native]? with
  | none => exact .inr ⟨entry, by simp [present]⟩
  | some object =>
    by_cases alive : object.owned = true ∨ 0 < object.holds
    · exact .inl ⟨object, entry, present, alive⟩
    · refine .inr ⟨entry, fun other known => ?_⟩
      obtain rfl := Option.some.inj (present.symm.trans known)
      simpa using alive

/-- A native object that exists is found if it is of the type. -/
theorem object_of_provides {type : NativeType} {native : Nat} {object : NativeObject}
    (provides : world.Provides id.index native object) :
    world.object id type = if object.type = type then .ok native
      else .error (.classMismatch type.className object.type.className) := by
  have exists' := isAlive_iff.2 provides.alive
  unfold World.object World.entry
  simp only [provides.entry, provides.present, exists', bind, Except.bind, Bool.not_true,
    Bool.false_eq_true, ↓reduceIte, bne_iff_ne, ne_eq, ite_not]
  rfl

/-- A native object that does not exist is not found, whatever its type. -/
theorem object_of_misses {type : NativeType} {native : Nat}
    (misses : world.Misses id.index native) : world.object id type = .error .released := by
  unfold World.object World.entry
  simp only [misses.entry, bind, Except.bind]
  split
  · rfl
  · rename_i object present
    have dead : object.isAlive = false := by
      obtain ⟨unowned, unheld⟩ := misses.gone object present
      simp [NativeObject.isAlive, unowned, unheld]
    simp only [dead, Bool.not_false, ↓reduceIte]
    rfl

/-- What an identifier resolves to as a native object of a type. -/
theorem object_eq_iff {type : NativeType} {result : Except ObjectError Nat} :
    world.object id type = result ↔ world.ObjectAt id.index type result := by
  constructor
  · rintro rfl
    cases entry : world.domain.objects[id.index]? with
    | none =>
      unfold World.object World.entry
      rw [entry]
      exact .beyond (Array.getElem?_eq_none_iff.1 entry)
    | some found =>
      cases found with
      | text text =>
        unfold World.object World.entry
        rw [entry]
        exact .notAnObject entry
      | native native =>
        rcases provides_or_misses entry with ⟨object, provides⟩ | misses
        · rw [object_of_provides provides]
          split
          · exact .found provides ‹_›
          · exact .otherType provides ‹_›
        · rw [object_of_misses misses]
          exact .released misses
  · intro comes
    cases comes with
    | beyond outside =>
      unfold World.object World.entry
      rw [Array.getElem?_eq_none outside]
      rfl
    | notAnObject entry =>
      unfold World.object World.entry
      rw [entry]
      rfl
    | released misses => exact object_of_misses misses
    | otherType provides differs => rw [object_of_provides provides, if_neg differs]
    | found provides same => rw [object_of_provides provides, if_pos same]

/-! ## Arguments -/

/-- The value stands for no entry of a table of this size. -/
def Beyond (value : Int32) (size : Nat) : Prop := value.toInt < 0 ∨ size ≤ value.toInt

/-- What a value is decoded to as an argument, or why it is not, by the type of the parameter. -/
inductive Decodes (world : World ν) (value : Int32) :
    Parameter → Except ObjectError Argument → Prop where
  | int : Decodes world value .int (.ok (.int value))
  | noText (beyond : Beyond value world.domain.objects.size) :
    Decodes world value .text (.error (.outOfRange value))
  | notAString {index native : Nat} (position : value.toInt = index)
    (entry : world.domain.objects[index]? = some (.native native)) :
    Decodes world value .text (.error .notAString)
  | text {index : Nat} {text : String} (position : value.toInt = index)
    (entry : world.domain.objects[index]? = some (.text text)) :
    Decodes world value .text (.ok (.text text))
  | noFunction (beyond : Beyond value world.domain.functions.size) :
    Decodes world value .function (.error (.unknownFunction value))
  | function {index : Nat} {function : Function ν} (position : value.toInt = index)
    (entry : world.domain.functions[index]? = some function) :
    Decodes world value .function (.ok (.function ⟨index⟩))
  | noObject {type : NativeType} (beyond : Beyond value world.domain.objects.size) :
    Decodes world value (.object type) (.error (.outOfRange value))
  | notAnObject {type : NativeType} {index : Nat} {text : String} (position : value.toInt = index)
    (entry : world.domain.objects[index]? = some (.text text)) :
    Decodes world value (.object type) (.error .notAnObject)
  | released {type : NativeType} {index native : Nat} (position : value.toInt = index)
    (misses : world.Misses index native) :
    Decodes world value (.object type) (.error .released)
  | otherType {type : NativeType} {index native : Nat} {object : NativeObject}
    (position : value.toInt = index) (provides : world.Provides index native object)
    (differs : object.type ≠ type) :
    Decodes world value (.object type)
      (.error (.classMismatch type.className object.type.className))
  | object {type : NativeType} {index native : Nat} {object : NativeObject}
    (position : value.toInt = index) (provides : world.Provides index native object)
    (same : object.type = type) :
    Decodes world value (.object type) (.ok (.object native))

variable {value : Int32} {index : Nat} {type : NativeType}

/-- A value stands for no entry, or for that at its position. -/
theorem beyond_or_position (value : Int32) (size : Nat) :
    Beyond value size ∨ ∃ index : Nat, value.toInt = index ∧ index < size := by
  unfold Beyond
  by_cases inside : 0 ≤ value.toInt ∧ value.toInt < size
  · exact .inr ⟨value.toInt.toNat, by omega, by omega⟩
  · exact .inl (by omega)

/-- A value that stands for no entry is negative, or its position lies behind the table. -/
theorem Beyond.position {size : Nat} (beyond : Beyond value size) :
    indexOfValue? value = none ∨ ∃ index : Nat, value.toInt = index ∧ size ≤ index := by
  rcases beyond with negative | outside
  · exact .inl (indexOfValue?_eq_none_iff.2 negative)
  · exact .inr ⟨value.toInt.toNat, by omega, by omega⟩

/-- What a value is decoded to as a string. -/
theorem argument_text_eq_iff {result : Except ObjectError Argument} :
    world.argument value .text = result ↔ world.Decodes value .text result := by
  have there {index : Nat} (position : value.toInt = index) :
      world.argument value .text = (world.text ⟨index⟩).map .text := by
    simp only [World.argument, ObjectId.ofValue?, indexOfValue?_eq_some_iff.2 position,
      Option.map_some]
  have outside (beyond : Beyond value world.domain.objects.size) :
      world.argument value .text = .error (.outOfRange value) := by
    rcases beyond.position with negative | ⟨index, position, behind⟩
    · simp only [World.argument, ObjectId.ofValue?, negative, Option.map_none]
    · rw [there position, text_eq_iff.2 (.beyond behind), ObjectId.toValue_of_toInt position]
      rfl
  constructor
  · rintro rfl
    rcases beyond_or_position value world.domain.objects.size with
      beyond | ⟨index, position, inside⟩
    · rw [outside beyond]
      exact .noText beyond
    · rw [there position]
      generalize looked : world.text ⟨index⟩ = result
      cases text_eq_iff.1 looked with
      | beyond behind => exact absurd inside (Nat.not_lt.2 behind)
      | notAString entry => exact .notAString position entry
      | found entry => exact .text position entry
  · intro decodes
    cases decodes with
    | noText beyond => exact outside beyond
    | notAString position entry =>
      rw [there position, text_eq_iff.2 (.notAString entry)]
      rfl
    | text position entry =>
      rw [there position, text_eq_iff.2 (.found entry)]
      rfl

/-- What a value is decoded to as a function. -/
theorem argument_function_eq_iff {result : Except ObjectError Argument} :
    world.argument value .function = result ↔ world.Decodes value .function result := by
  have there {index : Nat} (position : value.toInt = index) : world.argument value .function =
      if index < world.domain.functions.size then .ok (.function ⟨index⟩)
      else .error (.unknownFunction value) := by
    simp only [World.argument, FunctionId.ofValue?, indexOfValue?_eq_some_iff.2 position,
      Option.map_some, Domain.function?, isSome_getElem?]
  have outside (beyond : Beyond value world.domain.functions.size) :
      world.argument value .function = .error (.unknownFunction value) := by
    rcases beyond.position with negative | ⟨index, position, behind⟩
    · simp only [World.argument, FunctionId.ofValue?, negative, Option.map_none]
    · rw [there position, if_neg (Nat.not_lt.2 behind)]
  constructor
  · rintro rfl
    rcases beyond_or_position value world.domain.functions.size with
      beyond | ⟨index, position, inside⟩
    · rw [outside beyond]
      exact .noFunction beyond
    · rw [there position, if_pos inside]
      exact .function position (Array.getElem?_eq_getElem inside)
  · intro decodes
    cases decodes with
    | noFunction beyond => exact outside beyond
    | function position entry =>
      rw [there position, if_pos (Array.getElem?_eq_some_iff.1 entry).1]

/-- What a value is decoded to as a native object of a type. -/
theorem argument_object_eq_iff {result : Except ObjectError Argument} :
    world.argument value (.object type) = result ↔ world.Decodes value (.object type) result := by
  have there {index : Nat} (position : value.toInt = index) :
      world.argument value (.object type) = (world.object ⟨index⟩ type).map .object := by
    simp only [World.argument, ObjectId.ofValue?, indexOfValue?_eq_some_iff.2 position,
      Option.map_some]
  have outside (beyond : Beyond value world.domain.objects.size) :
      world.argument value (.object type) = .error (.outOfRange value) := by
    rcases beyond.position with negative | ⟨index, position, behind⟩
    · simp only [World.argument, ObjectId.ofValue?, negative, Option.map_none]
    · rw [there position, object_eq_iff.2 (.beyond behind), ObjectId.toValue_of_toInt position]
      rfl
  constructor
  · rintro rfl
    rcases beyond_or_position value world.domain.objects.size with
      beyond | ⟨index, position, inside⟩
    · rw [outside beyond]
      exact .noObject beyond
    · rw [there position]
      generalize looked : world.object ⟨index⟩ type = result
      cases object_eq_iff.1 looked with
      | beyond behind => exact absurd inside (Nat.not_lt.2 behind)
      | notAnObject entry => exact .notAnObject position entry
      | released misses => exact .released position misses
      | otherType provides differs => exact .otherType position provides differs
      | found provides same => exact .object position provides same
  · intro decodes
    cases decodes with
    | noObject beyond => exact outside beyond
    | notAnObject position entry =>
      rw [there position, object_eq_iff.2 (.notAnObject entry)]
      rfl
    | released position misses =>
      rw [there position, object_eq_iff.2 (.released misses)]
      rfl
    | otherType position provides differs =>
      rw [there position, object_eq_iff.2 (.otherType provides differs)]
      rfl
    | object position provides same =>
      rw [there position, object_eq_iff.2 (.found provides same)]
      rfl

/-- An argument is resolved to what its value is decoded to. -/
theorem argument_eq_iff {parameter : Parameter} {result : Except ObjectError Argument} :
    world.argument value parameter = result ↔ world.Decodes value parameter result := by
  cases parameter with
  | int =>
    constructor
    · rintro rfl
      exact .int
    · rintro ⟨⟩
      rfl
  | text => exact argument_text_eq_iff
  | function => exact argument_function_eq_iff
  | object type => exact argument_object_eq_iff

end World

end ScriptMachine

import ScriptMachine.Proofs.RecodedRuns
import ScriptMachine.Proofs.Unobserved

/-!
# The choice of encodings

Whether a branch is written in the short or in the long form, and a constant as a byte or as a word,
changes the length of the code and every offset behind it. It changes neither the verdict of
verification nor what the function does.
-/

namespace ScriptMachine

variable {ν σ : Type}

/-- Of two aligned definitions both are made functions, or neither is, and one function is the other
one recoded. -/
theorem Function.recoded_of_verified {paired : Nat → Nat → Prop} {first second : Definition ν}
    {limits : VerificationLimits} (aligned : Definition.Aligned paired first second)
    (fits : second.code.size ≤ limits.codeLength) {function function' : Function ν}
    (accepted : Function.verified first limits = .ok function)
    (accepted' : Function.verified second limits = .ok function') : function.Recoded function' := by
  unfold Function.verified at accepted accepted'
  cases counted : first.verify limits with
  | error error =>
    rw [counted] at accepted
    cases accepted
  | ok slots =>
    rw [counted] at accepted
    rw [Definition.verify_eq_ok_of_aligned aligned fits counted] at accepted'
    cases accepted
    cases accepted'
    refine ⟨aligned.header, ?_, aligned.code.parallel aligned.code.start⟩
    simp only [Function.trusted, aligned.locals_eq]

/-- The world after a function has been registered. -/
def World.register (world : World ν) (function : Function ν) : World ν :=
  { world with domain := { world.domain with
      functions := world.domain.functions.push function } }

/-- A function is registered in the same world. -/
theorem World.recoded_register (world : World ν) {function function' : Function ν}
    (recoded : function.Recoded function') :
    (world.register function).Recoded (world.register function') :=
  (World.Recoded.refl world).setDomain ((Domain.Recoded.refl world.domain).addFunction recoded)

namespace Assembler

open Statement

/-- The choice of encodings does not matter. Two sequences of statements are the same but for short
and long branches to the same labels, and for constants as bytes and as words; an instruction that
is appended as it is refers to no label, so it is no branch. Both are assembled, to code that is no
longer than the verification limits allow, and short enough for a word to hold every distance. Then
verification accepts both with the same number of slots, or rejects both. If they are accepted, and
a host that makes no difference between encodings does the same in two worlds that are equal but for
this function, then after any number of steps both machines have called the same native methods with
the same arguments, the globals are equal, and the machines are the same but for encodings. So the
operand stacks are equal, and the answers and the outcomes are, up to the offsets in reports of
aborts; what is suspended continues at corresponding offsets. -/
theorem encodings_agree {first second : List Statement} {code code' : Code}
    (same : first.map widened = second.map widened)
    (labelled : ∀ emitted, .emit emitted ∈ first → emitted.delta? = none)
    (done : (({} : Assembler).applyAll first).finish = .ok code)
    (done' : (({} : Assembler).applyAll second).finish = .ok code')
    (short : code.size < 2 ^ 31) (short' : code'.size < 2 ^ 31) (definition : Definition ν)
    (limits : VerificationLimits) (fits : code.size ≤ limits.codeLength)
    (fits' : code'.size ≤ limits.codeLength) :
    (∀ slots, { definition with code }.verify limits = .ok slots ↔
      { definition with code := code' }.verify limits = .ok slots) ∧
    ∀ function function', Function.verified { definition with code } limits = .ok function →
      Function.verified { definition with code := code' } limits = .ok function' →
      ∀ (related : σ → σ → Prop) (host : Host ν σ), host.Indifferent related →
      ∀ (world : World ν) (state state' : σ) (body body' : Body ν σ), related state state' →
      Program.Recoded related body body' → ∀ steps,
        let config := Config.initial (world.register function) state body
        let config' := Config.initial (world.register function') state' body'
        config'.nativeCalls host steps = config.nativeCalls host steps ∧
          (config'.run host steps).world.domain.globals =
            (config.run host steps).world.domain.globals ∧
          (config.run host steps).Recoded related (config'.run host steps) := by
  have aligned : Definition.Aligned (Level first second) { definition with code }
      { definition with code := code' } :=
    ⟨rfl, aligned_of_finish same labelled done done' short short'⟩
  refine ⟨fun slots => ⟨Definition.verify_eq_ok_of_aligned aligned fits',
    Definition.verify_eq_ok_of_aligned aligned.symm fits⟩, ?_⟩
  intro function function' accepted accepted' related host indifferent world state state' body body'
    states bodies steps
  have recoded := Function.recoded_of_verified aligned fits' accepted accepted'
  have begins : (Config.initial (world.register function) state body).Recoded related
      (Config.initial (world.register function') state' body') :=
    ⟨⟨world.recoded_register recoded, states, .nil⟩, .body bodies⟩
  have ends := begins.run indifferent steps
  refine ⟨?_, ends.world.domain.globals_eq, ends⟩
  exact List.filterMap_congr fun moment _ => (begins.run indifferent moment).nativeCall?_eq

/-- A constant is tested, and a native method is called with another one. -/
def brief : List Statement :=
  [.allocate, .emit (.const8 0), .branch .zero ⟨0⟩, .emit (.const8 7), .emit (.ret .int),
    .place ⟨0⟩, .emit (.const8 (-9)), .emit (.native .static .int 1 0), .emit (.ret .int)]

/-- The same, with a long branch and with constants as words. -/
def lengthy : List Statement :=
  [.allocate, .emit (.const 0), .longBranch .zero ⟨0⟩, .emit (.const 7), .emit (.ret .int),
    .place ⟨0⟩, .emit (.const (-9)), .emit (.native .static .int 1 0), .emit (.ret .int)]

/-- The code of the short form. -/
def briefCode : Code := #[0x0A, 0, 0x20, 3, 0x0A, 7, 0x2E, 0x0A, 247, 0x2A, 1, 0, 0x2E]

/-- The code of the long form. -/
def lengthyCode : Code :=
  #[0x09, 0, 0, 0, 0, 0x23, 6, 0, 0, 0, 0x09, 7, 0, 0, 0, 0x2E, 0x09, 247, 255, 255, 255, 0x2A, 1,
    0, 0x2E]

/-- A function with one native method, for either code. -/
def testing : Definition Unit := { name := "testing", code := #[], methods := #[()] }

/-- Limits within which both codes fit. -/
def ampleLimits : VerificationLimits := ⟨4, 25⟩

/-- The function is run on a new thread, and its result is answered. -/
def runningTest : Program Unit Unit Int32 := do
  let _ ← Program.update .createThread
  match ← Program.request (.runInt ⟨0⟩ ⟨0⟩) with
  | .returned _ value => return value
  | _ => return 0

/-- The program does not look at where a run was aborted. -/
theorem recoded_runningTest : Program.Recoded Eq runningTest runningTest := by
  refine .ask (.same _) fun _ _ _ => .ask (.same _) fun answer answer' alike => ?_
  cases alike with
  | same answer => cases answer <;> exact .done _
  | _ => exact .done _

/-- A host that only echoes makes no difference between encodings. -/
theorem indifferent_echoingHost : Config.echoingHost.Indifferent Eq where
  native _ _ := .done _
  onAbort _ _ := .done _
  onLimit _ _ _ _ same := same
  onEvent _ _ _ _ _ _ same := same

/-- No branch is appended as it is. -/
theorem labelled_brief (emitted : Instruction) (listed : .emit emitted ∈ brief) :
    emitted.delta? = none := by
  simp only [brief, List.mem_cons, List.not_mem_nil, Statement.emit.injEq, reduceCtorEq,
    false_or, or_false] at listed
  rcases listed with rfl | rfl | rfl | rfl | rfl | rfl <;> rfl

/-- The machine that runs the function with the given code. -/
def testingConfig (code : Code) : Config Unit Unit :=
  .initial (({} : World Unit).register (.trusted { testing with code } 1)) () runningTest

/-- Both forms take one operand slot, call the native method with the same constant, and answer what
it answers. -/
theorem encodings_agree_lengthened :
    (({} : Assembler).applyAll brief).finish = .ok briefCode ∧
      (({} : Assembler).applyAll lengthy).finish = .ok lengthyCode ∧
      { testing with code := briefCode }.verify ampleLimits = .ok 1 ∧
      { testing with code := lengthyCode }.verify ampleLimits = .ok 1 ∧
      (testingConfig lengthyCode).nativeCalls Config.echoingHost 16 = [((), [-9])] ∧
      ((testingConfig lengthyCode).run Config.echoingHost 16).focus = .finished (-9) ∧
      ((testingConfig briefCode).run Config.echoingHost 16).Recoded Eq
        ((testingConfig lengthyCode).run Config.echoingHost 16) := by
  have done : (({} : Assembler).applyAll brief).finish = .ok briefCode := by rfl
  have done' : (({} : Assembler).applyAll lengthy).finish = .ok lengthyCode := by rfl
  have counted : { testing with code := briefCode }.verify ampleLimits = .ok 1 := by
    decide +kernel
  obtain ⟨verdicts, runs⟩ := @encodings_agree Unit Unit brief lengthy briefCode lengthyCode rfl
    labelled_brief done done' (by decide) (by decide) testing ampleLimits (by decide) (by decide)
  have counted' := (verdicts 1).1 counted
  have accepted : Function.verified { testing with code := briefCode } ampleLimits =
      .ok (.trusted { testing with code := briefCode } 1) := by
    rw [Function.verified, counted]
    rfl
  have accepted' : Function.verified { testing with code := lengthyCode } ampleLimits =
      .ok (.trusted { testing with code := lengthyCode } 1) := by
    rw [Function.verified, counted']
    rfl
  obtain ⟨calls, _, recoded⟩ := runs _ _ accepted accepted' Eq Config.echoingHost
    indifferent_echoingHost {} () () runningTest runningTest rfl recoded_runningTest 16
  have called : (testingConfig briefCode).nativeCalls Config.echoingHost 16 = [((), [-9])] := by
    decide +kernel
  exact ⟨done, done', counted, counted', calls.trans called,
    Config.value?_eq_some.1 (by decide +kernel), recoded⟩

end Assembler

end ScriptMachine

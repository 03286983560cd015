import ScriptMachine.Binding

/-!
# Waking sleepers

The host wakes the sleepers that are due in the order of their ticks, and those with the same tick
in the order in which they went to sleep. A thread that goes back to sleep while this happens waits
for the next time, even if it would be due already, so each call wakes no more threads than slept
when it began.
-/

namespace ScriptMachine

namespace Waking

variable {ν σ : Type}

/-- Wakes at most the given number of sleepers that are due and have numbers below the given one,
and lists the threads that could be continued. -/
def wakeBelow (now below : Nat) :
    Nat → List (ThreadId × Outcome) → Program ν σ (List (ThreadId × Outcome))
  | 0, woken => return woken.reverse
  | count + 1, woken => do
    match ← Program.update (.takeDue now below) with
    | .thread (some thread) =>
      match ← Program.request (.resume thread) with
      | .ran outcome => wakeBelow now below count ((thread, outcome) :: woken)
      | _ => wakeBelow now below count woken
    | _ => return woken.reverse

/-- Continues every thread whose tick has come. -/
def runDue (now : Nat) : Program ν σ (List (ThreadId × Outcome)) := do
  let sleepers := (← Program.world).sleepers
  wakeBelow now sleepers.next sleepers.size []

/-- The signature of the native method that puts its caller to sleep. -/
def sleepSignature : Signature := (Signature.static "sleep" [.int] .void).withFlags .async

/-- The native method that puts its caller to sleep; the host reads the current tick off its own
state. -/
def sleep (clock : σ → Nat) (arguments : List Argument) : Program ν σ Int32 :=
  match arguments with
  | [.int ticks] => do
    let now := clock (← Program.state)
    let _ ← Program.update (.sleepActive now ticks)
    return 0
  | _ => return 0

end Waking

end ScriptMachine

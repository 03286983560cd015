import ScriptMachine.Value

/-!
# Sleepers

Sleeping threads are kept by the tick at which they wake; those with the same tick wake in the order
in which they went to sleep. Every sleeper has a number of its own, so the order is strict.
-/

namespace ScriptMachine

/-- A thread that sleeps. -/
structure Sleeper where
  /-- The tick at which the thread is due. -/
  wake : Nat
  /-- The number of sleepers before this one since the beginning. -/
  order : Nat
  thread : ThreadId
  deriving DecidableEq

/-- Whether a sleeper is taken before another: it is due earlier, or at the same tick and fell
asleep earlier. -/
def Sleeper.before (a b : Sleeper) : Bool :=
  a.wake < b.wake || (a.wake == b.wake && a.order < b.order)

/-- The sleeping threads. -/
structure Sleepers where
  /-- The sleepers, the next one first. -/
  entries : List Sleeper := []
  /-- The number of the next sleeper. -/
  next : Nat := 0

/-- The last tick. -/
def lastTick : Nat := UInt64.size - 1

namespace Sleepers

/-- Puts a sleeper before the first one that is taken later. -/
def insert (sleeper : Sleeper) : List Sleeper → List Sleeper
  | [] => [sleeper]
  | first :: rest =>
    if sleeper.before first then sleeper :: first :: rest else first :: insert sleeper rest

/-- Puts a thread to sleep for a number of ticks, but not beyond the last tick. -/
def add (sleepers : Sleepers) (thread : ThreadId) (now ticks : Nat) : Sleepers where
  entries := insert ⟨min (now + ticks) lastTick, sleepers.next, thread⟩ sleepers.entries
  next := sleepers.next + 1

/-- Forgets every sleep of a thread. -/
def remove (sleepers : Sleepers) (thread : ThreadId) : Sleepers :=
  { sleepers with entries := sleepers.entries.filter fun sleeper => sleeper.thread != thread }

/-- Forgets every sleeper. -/
def clear (sleepers : Sleepers) : Sleepers := { sleepers with entries := [] }

/-- Takes the next sleeper if it is due and its number is below the given one. -/
def takeDue (sleepers : Sleepers) (now below : Nat) : Option (ThreadId × Sleepers) :=
  match sleepers.entries with
  | [] => none
  | first :: rest =>
    if first.wake ≤ now ∧ first.order < below then
      some (first.thread, { sleepers with entries := rest })
    else none

/-- The tick at which the next sleeper is due. -/
def nextWake? (sleepers : Sleepers) : Option Nat := sleepers.entries.head?.map Sleeper.wake

/-- The number of sleepers. -/
def size (sleepers : Sleepers) : Nat := sleepers.entries.length

end Sleepers

end ScriptMachine

import RankMail.Config.Basic
import RankMail.Outcome

set_option autoImplicit false

/-! # Doorbells

A receiver that finds its queue empty may sleep until a sender rings. A doorbell is two words: the
count of rings and the count of those who wait. A sender rings after it has appended: it counts
the ring, and wakes the sleepers if anybody waits. A receiver first counts itself as waiting, then
reads the count of rings, then looks at its queue once more, and falls asleep only if no ring has
been counted since.

Time itself is not part of a run: a wait with a bound ends, and a wait without one that nobody
can end hangs.
-/

namespace RankMail

/-- A doorbell, by the place where its two words begin. -/
structure Doorbell where
  block : Place
deriving Repr, DecidableEq

namespace Doorbell

/-! ## Single steps -/

def rings (bell : Doorbell) : Action Memory Nat :=
  .look fun memory => memory.load DoorbellField.rings bell.block

def waiters (bell : Doorbell) : Action Memory Nat :=
  .look fun memory => memory.load DoorbellField.waiters bell.block

/-- Counts a ring, modulo 2 ^ 32. -/
def countRing (bell : Doorbell) : Action Memory Unit := .modify fun memory =>
  memory.store DoorbellField.rings bell.block (memory.load DoorbellField.rings bell.block + 1)

def enlist (bell : Doorbell) : Action Memory Unit := .modify fun memory =>
  memory.store DoorbellField.waiters bell.block
    (memory.load DoorbellField.waiters bell.block + 1)

def withdraw (bell : Doorbell) : Action Memory Unit := .modify fun memory =>
  memory.store DoorbellField.waiters bell.block
    (memory.load DoorbellField.waiters bell.block + (2 ^ 32 - 1))

/-- Falls asleep if the count of rings is still a given one, for some microseconds or until
woken. -/
def sleep (bell : Doorbell) (seen : Nat) (bound : Option Nat) : Action Memory Unit := do
  if (← bell.rings) = seen then
    match bound with
    | some _ => pure ()
    | none => .hang
  else pure ()

/-! ## The two operations -/

/-- Rings. Whom the ring wakes does not show in memory. -/
def ring (bell : Doorbell) : Action Memory Unit := do
  bell.countRing
  let _ ← bell.waiters
  pure ()

/-- Sleeps until the next ring, for a bounded time if there is a bound. -/
def park (bell : Doorbell) (bound : Option Nat) (ready : Action Memory Bool) :
    Action Memory Unit := do
  bell.enlist
  let seen ← bell.rings
  if ← ready then pure () else bell.sleep seen bound
  bell.withdraw

/-- Waits until `ready` holds, a ring comes, or some microseconds have passed. The time spent on
looking counts. -/
def wait (bell : Doorbell) (strategy : WaitStrategy) (bound : Option Nat)
    (ready : Action Memory Bool) : Action Memory Unit :=
  match strategy with
  | .busyPoll _ => do
      let _ ← ready
      pure ()
  | .hybrid spin => do
      let left := bound.map fun limit => limit - spin.toNat
      if ← (if spin = 0 then pure false else ready) then pure ()
      else if left = some 0 then pure ()
      else bell.park left ready

end Doorbell

end RankMail

import RankMail.Doorbell
import RankMail.Proofs.Queue.Traffic

set_option autoImplicit false

/-! # Watching a queue

The receiver of a queue may fall asleep, and a sender that has appended a fragment rings. Both are
taken apart into their atomic steps here, as the queue is in `Traffic`:

    sender     append ... count the ring, look whether anybody waits, wake the sleeper
    receiver   count itself, read the count of rings, look at the head, look at the tail,
               fall asleep if the count is still the same, and afterwards count itself off

`Ringer.advance` and `Waiter.advance` are these steps; without another party between they add up to
`Doorbell.ring` and `Doorbell.park` (`ring_eq`, `park_eq`). Falling asleep compares the count of
rings and sleeps at once. What wakes a sleeper is a ring, or nothing at all: a sleeper may get up
whenever it likes.

The count of rings is a word of 32 bits. Two records that no party can see keep the true numbers:
how often has been rung, and how often had been when the receiver last read the count.
-/

namespace RankMail

/-- What a sender that has appended a fragment is about to do. -/
inductive Ringer where
  | quiet
  /-- To count the ring. -/
  | counting
  /-- To look whether anybody waits. -/
  | checking
  /-- To wake the sleeper. -/
  | waking
deriving Repr, DecidableEq

namespace Ringer

/-- One step of a ringer. Whom it wakes does not show in memory. -/
def advance (bell : Doorbell) : Ringer → Action Memory Ringer
  | quiet => pure quiet
  | counting => do
      bell.countRing
      pure checking
  | checking => do
      let waiters ← bell.waiters
      pure (if 0 < waiters then waking else quiet)
  | waking => pure quiet

/-- The steps of a ringer, with nobody between them, ring. -/
theorem ring_eq (bell : Doorbell) : bell.ring = (do
    let ringer ← counting.advance bell
    let ringer ← ringer.advance bell
    let _ ← ringer.advance bell) := by
  simp only [advance, Doorbell.ring, bind_assoc, pure_bind]
  refine congrArg _ (funext fun _ => congrArg _ (funext fun waiters => ?_))
  by_cases anybody : 0 < waiters
  · rw [if_pos anybody]
    rfl
  · rw [if_neg anybody]
    rfl

end Ringer

/-- What the receiver is about to do when there may be nothing to take. -/
inductive Waiter where
  /-- To do something else. -/
  | resting
  /-- To count itself among those who wait. -/
  | enlisting
  /-- To read the count of rings. -/
  | reading
  /-- To look at the head, having read a count. -/
  | facing (seen : Nat)
  /-- To look at the tail, having read a count. -/
  | backing (seen : Nat)
  /-- To fall asleep if the count is still the same. -/
  | parking (seen : Nat)
  | sleeping
  /-- To count itself off. -/
  | leaving
deriving Repr, DecidableEq

namespace Waiter

/-- How many have counted themselves among those who wait and not counted themselves off. -/
def enlisted : Waiter → Nat
  | resting => 0
  | enlisting => 0
  | _ => 1

/-- The count of rings that has been read and still matters. -/
def seen? : Waiter → Option Nat
  | facing seen => some seen
  | backing seen => some seen
  | parking seen => some seen
  | _ => none

def wake : Waiter → Waiter
  | sleeping => leaving
  | waiter => waiter

/-- One step of a waiter. A sleeper does nothing by itself. -/
def advance (bell : Doorbell) (queue : Queue) : Waiter → Action Memory Waiter
  | resting => pure resting
  | enlisting => do
      bell.enlist
      pure reading
  | reading => do
      let seen ← bell.rings
      pure (facing seen)
  | facing seen => do
      let head ← queue.head
      pure (if head.isFree then backing seen else leaving)
  | backing seen => do
      let tail ← queue.tail
      pure (if tail.isFree then parking seen else leaving)
  | parking seen => do
      let rings ← bell.rings
      pure (if rings = seen then sleeping else leaving)
  | sleeping => pure sleeping
  | leaving => do
      bell.withdraw
      pure resting

/-- Steps of a waiter until it rests, at most as many as there is fuel for. With nobody to wake it,
only a bound ends its sleep. -/
def finish (bell : Doorbell) (queue : Queue) (bound : Option Nat) :
    Nat → Waiter → Action Memory Unit
  | 0, _ => .hang
  | _ + 1, resting => pure ()
  | fuel + 1, sleeping => if bound.isSome then finish bell queue bound fuel leaving else .hang
  | fuel + 1, waiter => do
      let next ← waiter.advance bell queue
      finish bell queue bound fuel next

variable (bell : Doorbell) (queue : Queue) (bound : Option Nat) (fuel seen : Nat)

theorem finish_leaving : finish bell queue bound (fuel + 2) leaving = bell.withdraw := by
  simp only [finish, advance, bind_assoc, pure_bind]
  exact bind_pure_unit

theorem finish_parking : finish bell queue bound (fuel + 4) (parking seen) = (do
    bell.sleep seen bound
    bell.withdraw) := by
  simp only [finish, advance, Doorbell.sleep, bind_assoc, pure_bind]
  refine congrArg _ (funext fun rings => ?_)
  by_cases same : rings = seen
  · cases bound with
    | none =>
        simp only [if_pos same]
        rfl
    | some limit => simp only [if_pos same, finish, Option.isSome_some, if_true, pure_bind,
        ← finish_leaving bell queue (some limit) fuel]
  · simp only [if_neg same, pure_bind, finish_leaving]

/-- The steps of a waiter, with nobody between them, park. -/
theorem park_eq : bell.park bound (do return !(← queue.isEmpty)) =
    enlisting.finish bell queue bound (fuel + 8) := by
  simp only [Doorbell.park, finish, advance, Queue.isEmpty, bind_assoc, pure_bind]
  refine congrArg _ (funext fun _ => congrArg _ (funext fun seen => congrArg _ ?_))
  funext head
  by_cases noHead : head.isFree = true
  · simp only [if_pos noHead, finish, advance, bind_assoc, pure_bind]
    refine congrArg _ (funext fun tail => ?_)
    by_cases noTail : tail.isFree = true
    · simp only [noTail, if_true, Bool.not_true, Bool.false_eq_true, if_false, finish_parking]
    · simp only [noTail, Bool.not_eq_true] at noTail ⊢
      simp only [Bool.not_false, if_true, Bool.false_eq_true, if_false, finish_leaving]
  · simp only [if_neg noHead, pure_bind, Bool.not_false, if_true, finish_leaving]

end Waiter

/-! ## A queue with a doorbell -/

/-- A queue and its doorbell. -/
structure Belfry (Party : Type) where
  channel : Channel Party
  bell : Doorbell
  /-- The words of the doorbell do not lie over those of the queue. -/
  fromQueue : Memory.Apart bell.block 8 channel.block 16
  /-- No header of a fragment lies over the words of the doorbell. -/
  fromFragments : ∀ {offset}, channel.IsFragment offset →
    Memory.Apart (channel.site.place offset) headerSize bell.block 8

/-- A moment in the use of a queue and its doorbell. -/
structure Watch (Party : Type) where
  traffic : Traffic Party
  ringers : Party → Ringer
  waiter : Waiter
  /-- How often has been rung. -/
  rung : Nat
  /-- How often had been rung when the waiter last read the count. -/
  noted : Nat

namespace Watch

variable {Party : Type} [DecidableEq Party]

def start (memory : Memory) : Watch Party := ⟨.start memory, fun _ => .quiet, .resting, 0, 0⟩

/-- The moment after a step of a sender at the queue. Whoever has appended goes on to ring. -/
def sent (watch : Watch Party) (party : Party) (sender : Sender) (memory : Memory) : Watch Party :=
  { watch with
    traffic := watch.traffic.sent party sender memory
    ringers := match watch.traffic.senders party with
      | .owing _ _ => Function.update watch.ringers party .counting
      | _ => watch.ringers }

def rang (watch : Watch Party) (party : Party) (ringer : Ringer) (memory : Memory) :
    Watch Party :=
  { watch with
    traffic := { watch.traffic with memory }
    ringers := Function.update watch.ringers party ringer
    waiter := if watch.ringers party = .waking then watch.waiter.wake else watch.waiter
    rung := if watch.ringers party = .counting then watch.rung + 1 else watch.rung }

def waited (watch : Watch Party) (waiter : Waiter) (memory : Memory) : Watch Party :=
  { watch with
    traffic := { watch.traffic with memory }
    waiter
    noted := if watch.waiter = .reading then watch.rung else watch.noted }

end Watch

namespace Belfry

variable {Party : Type} [DecidableEq Party]

/-- One step of one party. A sender begins when it has rung for what it has appended, and the
receiver takes or waits. Between the moment at which the waiter reads the count of rings and the
moment at which it would fall asleep there are fewer than 2 ^ 32 rings. -/
inductive Step (belfry : Belfry Party) : Watch Party → Watch Party → Prop
  | begin {watch : Watch Party} {party : Party} {offset : Offset}
      (idle : watch.traffic.senders party = .idle) (quiet : watch.ringers party = .quiet)
      (fragment : belfry.channel.IsFragment offset) (unqueued : offset ∉ watch.traffic.queued)
      (unsent : ¬watch.traffic.IsSending offset) :
      Step belfry watch { watch with traffic := watch.traffic.turn party (.unlinking offset) }
  | send {watch : Watch Party} {party : Party} {sender : Sender} {memory : Memory}
      (step : (watch.traffic.senders party).advance (belfry.channel.queueOf party)
        watch.traffic.memory = .done sender memory) :
      Step belfry watch (watch.sent party sender memory)
  | ring {watch : Watch Party} {party : Party} {ringer : Ringer} {memory : Memory}
      (step : (watch.ringers party).advance belfry.bell watch.traffic.memory =
        .done ringer memory) :
      Step belfry watch (watch.rang party ringer memory)
  | receive {watch : Watch Party} {turn : Turn} {memory : Memory}
      (resting : watch.waiter = .resting)
      (step : watch.traffic.receiver.advance belfry.channel.ownQueue watch.traffic.memory =
        .done turn memory) :
      Step belfry watch { watch with traffic := watch.traffic.received turn memory }
  | wait {watch : Watch Party} (resting : watch.waiter = .resting)
      (idle : watch.traffic.receiver = .idle) :
      Step belfry watch { watch with waiter := .enlisting }
  | watch {watch : Watch Party} {waiter : Waiter} {memory : Memory}
      (soon : ∀ seen, watch.waiter = .parking seen → watch.rung < watch.noted + 2 ^ 32)
      (step : watch.waiter.advance belfry.bell belfry.channel.ownQueue watch.traffic.memory =
        .done waiter memory) :
      Step belfry watch (watch.waited waiter memory)
  | stir {watch : Watch Party} (asleep : watch.waiter = .sleeping) :
      Step belfry watch { watch with waiter := .leaving }

/-- The moments that are reached from an empty queue for which nobody has rung or waited. -/
inductive Reached (belfry : Belfry Party) : Watch Party → Prop
  | start {memory : Memory} (noHead : belfry.channel.chain.link memory .free = .free)
      (noTail : belfry.channel.chain.tail memory = .free)
      (noRings : memory.load DoorbellField.rings belfry.bell.block = 0)
      (noWaiters : memory.load DoorbellField.waiters belfry.bell.block = 0) :
      Reached belfry (.start memory)
  | step {before after : Watch Party} (reached : Reached belfry before)
      (step : belfry.Step before after) : Reached belfry after

end Belfry

end RankMail

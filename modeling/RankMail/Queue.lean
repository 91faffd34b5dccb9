import RankMail.AddressMap
import RankMail.Header

set_option autoImplicit false

/-! # Queues

A queue links fragments through their headers, wherever their arenas lie. Any number of senders
append to it and one receiver takes from it, without a lock. Two words, the head and the tail,
belong to the queue itself.

A sender makes itself the tail, and only then links the fragment that was the tail before to
itself, or makes itself the head if there was none. Between the two steps the chain is broken:

            exchange the tail        link the old tail
    sender ------------------> gap -------------------> linked

    head -> A -> B ...  C <- tail     a receiver that has taken B waits for its link

A receiver that finds the fragment it has just taken unlinked, although it is no longer the tail,
waits for the sender that owes the link. Every step that touches shared words once is an action of
its own below; `enqueue` and `dequeue` are the runs of these steps without another party between.
-/

namespace RankMail

/-- The two words of a queue and the addresses through which its fragments are reached. -/
structure Queue where
  /-- Where the two words begin. -/
  block : Place
  addresses : AddressMap
deriving Repr, DecidableEq

namespace Queue

/-! ## Single steps -/

def head (queue : Queue) : Action Memory Offset :=
  .look fun memory => Offset.ofWord (memory.load QueueField.head queue.block)

def tail (queue : Queue) : Action Memory Offset :=
  .look fun memory => Offset.ofWord (memory.load QueueField.tail queue.block)

def setHead (queue : Queue) (offset : Offset) : Action Memory Unit :=
  .modify fun memory => memory.store QueueField.head queue.block offset.word

def setTail (queue : Queue) (offset : Offset) : Action Memory Unit :=
  .modify fun memory => memory.store QueueField.tail queue.block offset.word

def clear (queue : Queue) : Action Memory Unit := do
  queue.setHead .free
  queue.setTail .free

def header (queue : Queue) (offset : Offset) : Action Memory Place :=
  .ofAbort (queue.addresses.header offset)

/-- Reads the link of the fragment whose header begins at a place. -/
def linkAt (place : Place) : Action Memory Offset :=
  .look fun memory => Offset.ofWord (memory.load HeaderField.next place)

def setLinkAt (place : Place) (target : Offset) : Action Memory Unit :=
  .modify fun memory => memory.store HeaderField.next place target.word

def link (queue : Queue) (offset : Offset) : Action Memory Offset := do
  linkAt (← queue.header offset)

def setLink (queue : Queue) (offset target : Offset) : Action Memory Unit := do
  setLinkAt (← queue.header offset) target

/-- Makes a fragment the tail and returns the tail before it. -/
def exchangeTail (queue : Queue) (offset : Offset) : Action Memory Offset := fun memory =>
  .done (Offset.ofWord (memory.load QueueField.tail queue.block))
    (memory.store QueueField.tail queue.block offset.word)

def takeHead (queue : Queue) : Action Memory Offset := fun memory =>
  .done (Offset.ofWord (memory.load QueueField.head queue.block))
    (memory.store QueueField.head queue.block Offset.free.word)

/-- Takes the tail away if it is a given fragment; whether it was. -/
def releaseTail (queue : Queue) (offset : Offset) : Action Memory Bool := fun memory =>
  if Offset.ofWord (memory.load QueueField.tail queue.block) = offset then
    .done true (memory.store QueueField.tail queue.block Offset.free.word)
  else .done false memory

/-- Waits until the fragment whose header begins at a place is linked. -/
def awaitLink (place : Place) : Action Memory Offset := do
  let next ← linkAt place
  if next.isFree then .hang else pure next

/-! ## The two operations -/

/-- Links a fragment behind the tail before it, or makes it the head if there was none. -/
def attach (queue : Queue) (previous offset : Offset) : Action Memory Unit :=
  if previous.isFree then queue.setHead offset else queue.setLink previous offset

/-- Appends a fragment that is in no queue. -/
def enqueue (queue : Queue) (offset : Offset) : Action Memory Unit := do
  queue.setLink offset .free
  let previous ← queue.exchangeTail offset
  if previous = offset then .abort (.alreadyTail offset)
  else queue.attach previous offset

/-- Takes the oldest linked fragment, if there is one. -/
def dequeue (queue : Queue) : Action Memory (Option Offset) := do
  let first ← queue.takeHead
  if first.isFree then pure none
  else
    let place ← queue.header first
    let next ← linkAt place
    if next = first then .abort (.selfLink first)
    else if !next.isFree then do
      queue.setHead next
      pure (some first)
    else if ← queue.releaseTail first then pure (some first)
    else do
      let late ← awaitLink place
      queue.setHead late
      pure (some first)

/-- Whether there is neither a head nor a tail. The two are read one after the other. -/
def isEmpty (queue : Queue) : Action Memory Bool := do
  if (← queue.head).isFree then return (← queue.tail).isFree else return false

end Queue

end RankMail

import Mathlib.Logic.Function.Basic
import RankMail.Proofs.Queue.Words
import RankMail.Proofs.Site

set_option autoImplicit false

/-! # Traffic on a queue

Any number of senders and one receiver work on a queue at the same time. Each step that touches
shared words once is atomic, and the steps of different parties come in any order. `Sender.advance`
and `Receiver.advance` are these steps; without another party between they add up to
`Queue.enqueue` and `Queue.dequeue` (`enqueue_eq`, `dequeue_eq`).

A `Channel` is a queue with those who use it, each with an address map of its own, and a `Traffic`
is a moment of its use. Besides what the parties do, a moment keeps two records: which fragments
have become the tail, and which have been taken. What has become the tail and has not been taken is
`Traffic.queued`.
-/

namespace RankMail

/-- What a sender is about to do. -/
inductive Sender where
  | idle
  /-- To mark its fragment as unlinked. -/
  | unlinking (offset : Offset)
  /-- To make its fragment the tail. -/
  | arriving (offset : Offset)
  /-- To link what was the tail before to its fragment. -/
  | owing (previous offset : Offset)
deriving Repr, DecidableEq

namespace Sender

def fragment? : Sender → Option Offset
  | idle => none
  | unlinking offset => some offset
  | arriving offset => some offset
  | owing _ offset => some offset

def advance (queue : Queue) : Sender → Action Memory Sender
  | idle => pure idle
  | unlinking offset => do
      queue.setLink offset .free
      pure (arriving offset)
  | arriving offset => do
      let previous ← queue.exchangeTail offset
      if previous = offset then .abort (.alreadyTail offset) else pure (owing previous offset)
  | owing previous offset => do
      queue.attach previous offset
      pure idle

/-- The steps of a sender, with nobody between them, append its fragment. -/
theorem enqueue_eq (queue : Queue) (offset : Offset) :
    queue.enqueue offset = (do
      let arriving ← (unlinking offset).advance queue
      let owing ← arriving.advance queue
      let _ ← owing.advance queue) := by
  simp only [advance, Queue.enqueue, bind_assoc, pure_bind]
  congr 1
  funext _
  congr 1
  funext previous
  split
  · rfl
  · simp

end Sender

inductive Receiver where
  /-- To take the head. -/
  | idle
  /-- To read the link of what was the head. -/
  | reading (first : Offset)
  /-- To take the tail away if it is the only fragment. -/
  | releasing (first : Offset)
  /-- To look once more whether it has been linked. -/
  | awaiting (first : Offset)
  /-- To make the next fragment the head. -/
  | passing (first next : Offset)
deriving Repr, DecidableEq

/-- What a step of the receiver leads to. -/
inductive Turn where
  | goes (receiver : Receiver)
  | returns (result : Option Offset)
deriving Repr, DecidableEq

namespace Receiver

def fragment? : Receiver → Option Offset
  | idle => none
  | reading first => some first
  | releasing first => some first
  | awaiting first => some first
  | passing first _ => some first

def advance (queue : Queue) : Receiver → Action Memory Turn
  | idle => do
      let first ← queue.takeHead
      pure (if first.isFree then .returns none else .goes (reading first))
  | reading first => do
      let next ← queue.link first
      if next = first then .abort (.selfLink first)
      else pure (.goes (if next.isFree then releasing first else passing first next))
  | releasing first => do
      let lone ← queue.releaseTail first
      pure (if lone then .returns (some first) else .goes (awaiting first))
  | awaiting first => do
      let next ← queue.link first
      pure (.goes (if next.isFree then awaiting first else passing first next))
  | passing first next => do
      queue.setHead next
      pure (.returns (some first))

/-- Steps of the receiver until it returns, at most as many as there is fuel for. -/
def finish (queue : Queue) : Nat → Receiver → Action Memory (Option Offset)
  | 0, _ => .hang
  | fuel + 1, receiver => do
      match ← receiver.advance queue with
      | .returns result => pure result
      | .goes next => finish queue fuel next

/-! ### With nobody between the steps -/

variable {queue : Queue} {first : Offset} {place : Place} {memory after : Memory}

theorem finish_of_goes {receiver next : Receiver}
    (step : receiver.advance queue memory = .done (.goes next) after) (fuel : Nat) :
    receiver.finish queue (fuel + 1) memory = next.finish queue fuel after := by
  rw [finish, Action.bind_done step]

theorem finish_of_returns {receiver : Receiver} {result : Option Offset}
    (step : receiver.advance queue memory = .done (.returns result) after) (fuel : Nat) :
    receiver.finish queue (fuel + 1) memory = .done result after := by
  rw [finish, Action.bind_done step]
  rfl

theorem link_of_header (located : queue.addresses.header first = .ok place) (memory : Memory) :
    queue.link first memory = Queue.linkAt place memory := by
  have found : queue.header first memory = .done place memory := by
    rw [Queue.header, located]
    rfl
  rw [Queue.link, Action.bind_done found]

theorem advance_awaiting (located : queue.addresses.header first = .ok place) (memory : Memory) :
    (awaiting first).advance queue memory =
      (let next := Offset.ofWord (memory.load HeaderField.next place)
      .done (.goes (if next.isFree then awaiting first else passing first next)) memory) := by
  rw [advance, Action.bind_done (link_of_header located memory)]
  rfl

/-- A receiver that waits for a link does not return unless somebody makes it. -/
theorem finish_awaiting_unlinked (located : queue.addresses.header first = .ok place)
    (unlinked : (Offset.ofWord (memory.load HeaderField.next place)).isFree = true) (fuel : Nat) :
    (awaiting first).finish queue fuel memory = .hung := by
  induction fuel with
  | zero => rfl
  | succ fuel ih =>
      have step := advance_awaiting located memory
      simp only [if_pos unlinked] at step
      rw [finish_of_goes step, ih]

theorem advance_reading (located : queue.addresses.header first = .ok place) (memory : Memory) :
    (reading first).advance queue memory =
      (let next := Offset.ofWord (memory.load HeaderField.next place)
      if next = first then .aborted (.selfLink first)
      else .done (.goes (if next.isFree then releasing first else passing first next)) memory) := by
  rw [advance, Action.bind_done (link_of_header located memory)]
  simp only []
  split <;> rfl

/-- The steps of the receiver, with nobody between them, take the oldest fragment. -/
theorem dequeue_eq (queue : Queue) (fuel : Nat) :
    queue.dequeue = idle.finish queue (fuel + 5) := by
  funext memory
  rw [Queue.dequeue, finish, advance, bind_assoc]
  simp only [pure_bind]
  refine congrArg (fun next => (queue.takeHead >>= next) memory) ?_
  funext first memory
  -- The same branches on both sides, in the order in which the receiver reads.
  by_cases none : first.isFree = true
  · simp only [if_pos none]
  simp only [if_neg none]
  cases located : queue.addresses.header first with
  | error cause =>
      rw [finish]
      simp [advance, Queue.link, Queue.header, located, Action.bind_apply]
  | ok place =>
      have found : queue.header first memory = .done place memory := by
        rw [Queue.header, located]
        rfl
      have read := advance_reading located memory
      have linked : Queue.linkAt place memory =
        .done (Offset.ofWord (memory.load HeaderField.next place)) memory := rfl
      rw [Action.bind_done found, Action.bind_done linked]
      generalize Offset.ofWord (memory.load HeaderField.next place) = next at read linked
      by_cases self : next = first
      · simp only [if_pos self] at read ⊢
        rw [finish, Action.bind_apply, read]
        rfl
      simp only [if_neg self] at read ⊢
      by_cases unlinked : next.isFree = true
      · simp only [if_pos unlinked] at read
        rw [finish_of_goes read]
        simp only [unlinked, Bool.not_true, Bool.false_eq_true, if_false]
        -- Whether it is the only fragment decides; if not, nobody will link it any more.
        by_cases lone : Offset.ofWord (memory.load QueueField.tail queue.block) = first
        · have released : queue.releaseTail first memory = .done true
              (memory.store QueueField.tail queue.block Offset.free.word) := if_pos lone
          rw [Action.bind_done released]
          rw [finish_of_returns (show (releasing first).advance queue memory =
            .done (.returns (some first)) _ by rw [advance, Action.bind_done released]; rfl)]
          rfl
        · have kept : queue.releaseTail first memory = .done false memory := if_neg lone
          rw [Action.bind_done kept]
          rw [finish_of_goes (show (releasing first).advance queue memory =
            .done (.goes (awaiting first)) _ by rw [advance, Action.bind_done kept]; rfl)]
          rw [finish_awaiting_unlinked located (by
            have same : Offset.ofWord (memory.load HeaderField.next place) = next :=
              (Outcome.done.inj linked).1
            rw [same, unlinked])]
          simp [Queue.awaitLink, Action.bind_done linked, unlinked, Action.bind_apply]
      · simp only [if_neg unlinked] at read
        rw [finish_of_goes read]
        simp only [Bool.not_eq_true] at unlinked
        simp only [unlinked, Bool.not_false, if_true]
        rfl
end Receiver

/-! ## Who uses a queue -/

/-- A queue, and the addresses through which its users reach the fragments. -/
structure Channel (Party : Type) where
  site : Site
  /-- Where the head and the tail begin. -/
  block : Place
  /-- What may be appended. -/
  IsFragment : Offset → Prop
  senders : Party → AddressMap
  receiver : AddressMap
  /-- Fragments lie in the files of any ranks. -/
  slots : ∀ {offset}, IsFragment offset → site.IsSlot offset
  /-- No header of a fragment lies over the words of the queue itself. -/
  clear : ∀ {offset}, IsFragment offset → Memory.Apart (site.place offset) headerSize block 16
  sendersCover : ∀ party, site.Covers (senders party)
  receiverCovers : site.Covers receiver

namespace Channel

variable {Party : Type} {channel : Channel Party} {offset : Offset}

def queueOf (channel : Channel Party) (party : Party) : Queue :=
  ⟨channel.block, channel.senders party⟩

def ownQueue (channel : Channel Party) : Queue := ⟨channel.block, channel.receiver⟩

def chain (channel : Channel Party) : Chain := ⟨channel.block, channel.site.place⟩

theorem proper (fragment : channel.IsFragment offset) : offset ≠ .free :=
  (channel.slots fragment).proper

theorem separate (channel : Channel Party) : channel.chain.Separate channel.IsFragment where
  proper := channel.proper
  fromBlock fragment := by
    intro same
    have split := channel.clear fragment same
    simp only [headerSize, chain] at split ⊢
    omega
  fromOther one two differ := by
    intro same
    have split := (channel.slots one).apart (channel.slots two) differ same
    simp only [headerSize, chain] at split ⊢
    omega

theorem reaches (fragment : channel.IsFragment offset) :
    channel.ownQueue.Reaches channel.chain offset :=
  have slot := channel.slots fragment
  have ⟨_, found, _⟩ := slot
  ⟨rfl, Site.header_eq slot (channel.receiverCovers found), slot.proper⟩

theorem senderReaches (party : Party) (fragment : channel.IsFragment offset) :
    (channel.queueOf party).Reaches channel.chain offset :=
  have slot := channel.slots fragment
  have ⟨_, found, _⟩ := slot
  ⟨rfl, Site.header_eq slot (channel.sendersCover party found), slot.proper⟩

end Channel

/-! ## Moments -/

/-- A moment in the use of a queue. -/
structure Traffic (Party : Type) where
  memory : Memory
  senders : Party → Sender
  receiver : Receiver
  /-- Who has made which fragment the tail, the first in front. -/
  appended : List (Party × Offset)
  /-- What the receiver has taken, the first in front. -/
  taken : List Offset

namespace Traffic

variable {Party : Type} [DecidableEq Party]

def start (memory : Memory) : Traffic Party := ⟨memory, fun _ => .idle, .idle, [], []⟩

/-- The fragments that have become the tail and have not been taken, the first in front. -/
def queued (traffic : Traffic Party) : List Offset :=
  (traffic.appended.map Prod.snd).drop traffic.taken.length

def IsSending (traffic : Traffic Party) (offset : Offset) : Prop :=
  ∃ party, (traffic.senders party).fragment? = some offset

/-- Somebody has made a fragment the tail and has not yet linked the one before it. -/
def Owes (traffic : Traffic Party) (previous offset : Offset) : Prop :=
  ∃ party, traffic.senders party = .owing previous offset

def turn (traffic : Traffic Party) (party : Party) (sender : Sender) : Traffic Party :=
  { traffic with senders := Function.update traffic.senders party sender }

def sent (traffic : Traffic Party) (party : Party) (sender : Sender) (memory : Memory) :
    Traffic Party :=
  { traffic.turn party sender with
    memory
    appended := match traffic.senders party with
      | .arriving offset => traffic.appended ++ [(party, offset)]
      | _ => traffic.appended }

def received (traffic : Traffic Party) (turn : Turn) (memory : Memory) : Traffic Party :=
  match turn with
  | .goes receiver => { traffic with memory, receiver }
  | .returns result =>
      { traffic with memory, receiver := .idle, taken := traffic.taken ++ result.toList }

end Traffic

namespace Channel

variable {Party : Type} [DecidableEq Party]

/-- One step of one party. A sender may begin with any fragment that is neither queued nor being
appended. -/
inductive Step (channel : Channel Party) : Traffic Party → Traffic Party → Prop
  | begin {traffic : Traffic Party} {party : Party} {offset : Offset}
      (idle : traffic.senders party = .idle) (fragment : channel.IsFragment offset)
      (unqueued : offset ∉ traffic.queued) (unsent : ¬traffic.IsSending offset) :
      Step channel traffic (traffic.turn party (.unlinking offset))
  | send {traffic : Traffic Party} {party : Party} {sender : Sender} {memory : Memory}
      (step : (traffic.senders party).advance (channel.queueOf party) traffic.memory =
        .done sender memory) :
      Step channel traffic (traffic.sent party sender memory)
  | receive {traffic : Traffic Party} {turn : Turn} {memory : Memory}
      (step : traffic.receiver.advance channel.ownQueue traffic.memory = .done turn memory) :
      Step channel traffic (traffic.received turn memory)

/-- The moments that are reached from an empty queue. -/
inductive Reached (channel : Channel Party) : Traffic Party → Prop
  | start {memory : Memory} (noHead : channel.chain.link memory .free = .free)
      (noTail : channel.chain.tail memory = .free) : Reached channel (.start memory)
  | step {before after : Traffic Party} (reached : Reached channel before)
      (step : channel.Step before after) : Reached channel after

end Channel

end RankMail

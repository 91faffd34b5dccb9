import RankMail.Proofs.Queue.Order

set_option autoImplicit false

/-! # The moves on a queue in order

While a queue is in order, every step of a party does one of a few things to the words of the
queue. `Channel.Sends` and `Channel.Receives` list them, with what the party has read on the way,
and `Orderly.sends` and `Orderly.receives` say that these are all. So what a step keeps is shown by
cases on the move, without opening the steps again.

`Channel.Use` adds to the steps of `Channel.Step` that memory is rewritten wherever the queue does
not need it: in fragments that are neither queued nor being appended, and beside all headers. A
queue stays in order there as well (`Channel.Used.orderly`).
-/

namespace RankMail

namespace Channel

variable {Party : Type}

/-- What the step of a sender does: the sender before, the sender after, and memory after. -/
inductive Sends (channel : Channel Party) (memory : Memory) : Sender → Sender → Memory → Prop
  | rest : Sends channel memory .idle .idle memory
  | unlink {offset : Offset} (fragment : channel.IsFragment offset) :
      Sends channel memory (.unlinking offset) (.arriving offset)
        (channel.chain.setLink memory offset .free)
  | arrive {offset : Offset} (fragment : channel.IsFragment offset) :
      Sends channel memory (.arriving offset) (.owing (channel.chain.tail memory) offset)
        (channel.chain.setTail memory offset)
  | pay {previous offset : Offset} (has : Chain.HasLink channel.IsFragment previous) :
      Sends channel memory (.owing previous offset) .idle
        (channel.chain.setLink memory previous offset)

inductive Receives (channel : Channel Party) (memory : Memory) : Receiver → Turn → Memory → Prop
  | findNone (headless : channel.chain.link memory .free = .free) :
      Receives channel memory .idle (.returns none) (channel.chain.setLink memory .free .free)
  | take {first : Offset} (head : channel.chain.link memory .free = first)
      (proper : first ≠ .free) :
      Receives channel memory .idle (.goes (.reading first))
        (channel.chain.setLink memory .free .free)
  | readNone {first : Offset} (unlinked : channel.chain.link memory first = .free) :
      Receives channel memory (.reading first) (.goes (.releasing first)) memory
  | readNext {first next : Offset} (linked : channel.chain.link memory first = next)
      (proper : next ≠ .free) :
      Receives channel memory (.reading first) (.goes (.passing first next)) memory
  | release {first : Offset} (last : channel.chain.tail memory = first) :
      Receives channel memory (.releasing first) (.returns (some first))
        (channel.chain.setTail memory .free)
  | keep {first : Offset} (further : channel.chain.tail memory ≠ first) :
      Receives channel memory (.releasing first) (.goes (.awaiting first)) memory
  | wait {first : Offset} (unlinked : channel.chain.link memory first = .free) :
      Receives channel memory (.awaiting first) (.goes (.awaiting first)) memory
  | find {first next : Offset} (linked : channel.chain.link memory first = next)
      (proper : next ≠ .free) :
      Receives channel memory (.awaiting first) (.goes (.passing first next)) memory
  | pass {first next : Offset} :
      Receives channel memory (.passing first next) (.returns (some first))
        (channel.chain.setLink memory .free next)

end Channel

variable {Party : Type} [DecidableEq Party] {channel : Channel Party}
  {traffic before after : Traffic Party} {queue : List Offset}

namespace Orderly

theorem sends {party : Party} {sender : Sender} {memory : Memory}
    (orderly : Orderly channel traffic queue)
    (step : (traffic.senders party).advance (channel.queueOf party) traffic.memory =
      .done sender memory) :
    channel.Sends traffic.memory (traffic.senders party) sender memory := by
  have block : (channel.queueOf party).block = channel.chain.block := rfl
  have carried : ∀ {offset}, (traffic.senders party).fragment? = some offset →
      channel.IsFragment offset := fun carries => orderly.sending carries
  cases stands : traffic.senders party with
  | idle =>
      rw [stands] at step
      obtain ⟨rfl, rfl⟩ := Outcome.done.inj step
      exact .rest
  | unlinking offset =>
      rw [stands] at step
      have fragment := carried (by rw [stands]; rfl)
      have stored := Queue.setLink_eq (channel.senderReaches party fragment) .free traffic.memory
      rw [Sender.advance, Action.bind_done stored] at step
      obtain ⟨rfl, rfl⟩ := Outcome.done.inj step
      exact .unlink fragment
  | arriving offset =>
      rw [stands] at step
      have fragment := carried (by rw [stands]; rfl)
      have exchanged := Queue.exchangeTail_eq block offset traffic.memory
      rw [Sender.advance, Action.bind_done exchanged] at step
      split at step
      · cases step
      · obtain ⟨rfl, rfl⟩ := Outcome.done.inj step
        exact .arrive fragment
  | owing previous offset =>
      rw [stands] at step
      have has := orderly.hasLink (orderly.owing ⟨party, stands⟩).left
      have stored := Queue.attach_eq block
        (fun proper => channel.senderReaches party (has.resolve_left proper)) offset traffic.memory
      rw [Sender.advance, Action.bind_done stored] at step
      obtain ⟨rfl, rfl⟩ := Outcome.done.inj step
      exact .pay has

theorem receives {turn : Turn} {memory : Memory} (orderly : Orderly channel traffic queue)
    (step : traffic.receiver.advance channel.ownQueue traffic.memory = .done turn memory) :
    channel.Receives traffic.memory traffic.receiver turn memory := by
  have block : channel.ownQueue.block = channel.chain.block := rfl
  have fits := orderly.receiver
  have read : ∀ {first rest}, queue = first :: rest →
      channel.ownQueue.link first traffic.memory =
        .done (channel.chain.link traffic.memory first) traffic.memory := by
    rintro first rest rfl
    exact Queue.link_eq (channel.reaches (orderly.fragments first List.mem_cons_self)) _
  cases stage : traffic.receiver with
  | idle =>
      rw [stage, Receiver.advance, Action.bind_done (Queue.takeHead_eq block _)] at step
      obtain ⟨rfl, rfl⟩ := Outcome.done.inj step
      split
      · next none => exact .findNone (Offset.isFree_iff.mp none)
      · next some => exact .take rfl fun free => some (Offset.isFree_iff.mpr free)
  | reading first =>
      rw [stage] at fits step
      obtain ⟨rest, found⟩ := fits
      rw [Receiver.advance, Action.bind_done (read found)] at step
      split at step
      · cases step
      · obtain ⟨rfl, rfl⟩ := Outcome.done.inj step
        split
        · next none => exact .readNone (Offset.isFree_iff.mp none)
        · next some => exact .readNext rfl fun free => some (Offset.isFree_iff.mpr free)
  | releasing first =>
      rw [stage] at step
      have released := Queue.releaseTail_eq block first traffic.memory
      split at released
      · next last =>
        rw [Receiver.advance, Action.bind_done released] at step
        obtain ⟨rfl, rfl⟩ := Outcome.done.inj step
        exact .release last
      · next further =>
        rw [Receiver.advance, Action.bind_done released] at step
        obtain ⟨rfl, rfl⟩ := Outcome.done.inj step
        exact .keep further
  | awaiting first =>
      rw [stage] at fits step
      obtain ⟨next, rest, found⟩ := fits
      rw [Receiver.advance, Action.bind_done (read found)] at step
      obtain ⟨rfl, rfl⟩ := Outcome.done.inj step
      split
      · next none => exact .wait (Offset.isFree_iff.mp none)
      · next some => exact .find rfl fun free => some (Offset.isFree_iff.mpr free)
  | passing first next =>
      rw [stage, Receiver.advance, Action.bind_done (Queue.setHead_eq block _ _)] at step
      obtain ⟨rfl, rfl⟩ := Outcome.done.inj step
      exact .pass

end Orderly

/-! ## Memory that the queue does not need -/

namespace Channel

/-- One step of one party, or memory is rewritten where the queue does not need it: the head, the
tail, and the links of the fragments that are queued or being appended stay. -/
inductive Use (channel : Channel Party) : Traffic Party → Traffic Party → Prop
  | step {before after : Traffic Party} (step : channel.Step before after) :
      Use channel before after
  | rewrite {traffic : Traffic Party} {memory : Memory}
      (links : ∀ offset, offset ∈ .free :: traffic.queued ∨ traffic.IsSending offset →
        channel.chain.link memory offset = channel.chain.link traffic.memory offset)
      (tail : channel.chain.tail memory = channel.chain.tail traffic.memory) :
      Use channel traffic { traffic with memory }

/-- The moments that are reached from an empty queue, with memory rewritten between the steps. -/
inductive Used (channel : Channel Party) : Traffic Party → Prop
  | start {memory : Memory} (noHead : channel.chain.link memory .free = .free)
      (noTail : channel.chain.tail memory = .free) : Used channel (.start memory)
  | use {before after : Traffic Party} (used : Used channel before)
      (use : channel.Use before after) : Used channel after

end Channel

theorem Orderly.use (orderly : Orderly channel traffic queue) (use : channel.Use traffic after) :
    ∃ rest, Orderly channel after rest := by
  cases use with
  | step step => exact orderly.step step
  | rewrite links tail =>
      rw [Traffic.queued_eq orderly.history] at links
      exact ⟨queue, orderly.reuse links tail⟩

theorem Channel.Used.orderly (used : channel.Used traffic) :
    ∃ queue, Orderly channel traffic queue := by
  induction used with
  | start noHead noTail => exact ⟨[], .start noHead noTail⟩
  | use _ use ih =>
      obtain ⟨queue, orderly⟩ := ih
      exact orderly.use use

/-- Without anything rewritten, these are the moments of `Channel.Reached`. -/
theorem Channel.Reached.used (reached : channel.Reached traffic) : channel.Used traffic := by
  induction reached with
  | start noHead noTail => exact .start noHead noTail
  | step _ step ih => exact ih.use (.step step)

/-- Memory in which all links and the tail are the same may take the place of memory. -/
theorem Channel.Used.exchange (used : channel.Used traffic) {memory : Memory}
    (links : ∀ offset, Chain.HasLink channel.IsFragment offset →
      channel.chain.link memory offset = channel.chain.link traffic.memory offset)
    (tail : channel.chain.tail memory = channel.chain.tail traffic.memory) :
    channel.Used { traffic with memory } := by
  obtain ⟨queue, orderly⟩ := used.orderly
  refine used.use (.rewrite (fun offset concerned => links offset ?_) tail)
  rw [Traffic.queued_eq orderly.history] at concerned
  exact orderly.hasLink_used concerned

end RankMail

import RankMail.Proofs.Queue.HandOver

set_option autoImplicit false

/-! # Waiting for a link

The receiver waits when the fragment that it takes has no link and yet is not the last one. Nothing
bounds the wait but the sender of the next fragment, which stands between its two steps: exactly one
sender owes the link (`Orderly.debtor`). When it has made the link, the receiver goes on whatever
else happens (`Bound.use`).

What the receiver then returns does not depend on the wait. `Channel.beforehand` puts the head back
where it was before the receiver took it, and leaves everything else; that is a moment at which the
receiver has not begun, and it is reached as well, with the same steps of the senders
(`Channel.Used.beforehand`). A whole `Queue.dequeue` from there returns the same and leaves the same
memory.
-/

namespace RankMail

open Relation

variable {Party : Type} [DecidableEq Party] {channel : Channel Party}
  {traffic before after : Traffic Party} {queue rest line : List Offset}
  {offset other first next previous : Offset} {memory changed : Memory}

/-! ## Who is waited for -/

namespace Orderly

/-- If the fragment that the receiver is taking is not the last one and has no link, one sender owes
the link. -/
theorem debtor (orderly : Orderly channel traffic (first :: next :: queue))
    (busy : traffic.receiver ≠ .idle)
    (unlinked : channel.chain.link traffic.memory first = .free) :
    ∃ party, traffic.senders party = .owing first next := by
  have strung := orderly.strung
  rw [Receiver.line_of_busy busy] at strung
  rcases strung.1 with ⟨owes, _⟩ | ⟨_, linked⟩
  · exact owes
  · exact absurd (linked.symm.trans unlinked) (orderly.proper (by simp))

theorem debtor_unique (orderly : Orderly channel traffic queue) {party another : Party}
    (one : traffic.senders party = .owing previous offset)
    (two : traffic.senders another = .owing previous other) : another = party := by
  obtain rfl : offset = other :=
    (orderly.owing ⟨party, one⟩).unique orderly.nodup_line (orderly.owing ⟨another, two⟩)
  exact orderly.alone (by rw [two]; rfl) (by rw [one]; rfl)

end Orderly

/-! ## When the link has been made -/

/-- What the receiver has to do is settled: it takes the first fragment and makes the next one the
head. -/
structure Channel.Bound (channel : Channel Party) (traffic : Traffic Party) (first next : Offset) :
    Prop where
  stage : traffic.receiver = .awaiting first ∨ traffic.receiver = .passing first next
  linked : channel.chain.link traffic.memory first = next
  proper : next ≠ .free

theorem Channel.Use.taken (use : channel.Use before after) : before.taken <+: after.taken := by
  -- A rewritten fragment is not in use, so it is not the one that is taken.
  cases use with
  | rewrite => exact List.prefix_rfl
  | step step =>
      cases step with
      | begin | send => exact List.prefix_rfl
      | @receive turn _ _ =>
          cases turn with
          | goes => exact List.prefix_rfl
          | returns result => exact List.prefix_append _ _

namespace Channel.Bound

omit [DecidableEq Party] in
theorem busy (bound : channel.Bound traffic first next) : traffic.receiver ≠ .idle := by
  rcases bound.stage with stage | stage <;> simp [stage]

/-- The two fragments are the first ones in the queue, and the link has been made. -/
theorem front (bound : channel.Bound traffic first next) (orderly : Orderly channel traffic queue) :
    (∃ rest, queue = first :: next :: rest) ∧ ¬traffic.Owes first next := by
  obtain ⟨second, rest, rfl⟩ : ∃ second rest, queue = first :: second :: rest := by
    have fits := orderly.receiver
    rcases bound.stage with stage | stage <;> rw [stage] at fits
    · exact fits
    · exact ⟨next, fits.2⟩
  have strung := orderly.strung
  rw [Receiver.line_of_busy bound.busy] at strung
  rcases strung.1 with ⟨_, unlinked⟩ | ⟨paid, linked⟩
  · exact absurd (bound.linked.symm.trans unlinked) bound.proper
  · obtain rfl : second = next := linked.symm.trans bound.linked
    exact ⟨⟨rest, rfl⟩, paid⟩

theorem store?_ne (bound : channel.Bound traffic first next)
    (orderly : Orderly channel traffic queue) (party : Party) :
    (traffic.senders party).store? ≠ some first := by
  obtain ⟨⟨rest, rfl⟩, paid⟩ := bound.front orderly
  intro stores
  have fits := orderly.senders party
  rw [Receiver.line_of_busy bound.busy] at fits
  rcases Sender.eq_of_store? stores with stands | ⟨offset, stands⟩ <;> rw [stands] at fits
  · exact fits List.mem_cons_self
  · obtain rfl : next = offset :=
      Adjacent.unique orderly.nodup (adjacent_cons.mpr (.inl ⟨rfl, rfl⟩)) fits
    exact paid ⟨party, stands⟩

/-- What the receiver has to do stays settled until it returns the first fragment. -/
theorem use (bound : channel.Bound before first next) (orderly : Orderly channel before queue)
    (use : channel.Use before after) :
    (channel.Bound after first next ∧ after.taken = before.taken) ∨
      after.taken = before.taken ++ [first] := by
  obtain ⟨⟨rest, rfl⟩, _⟩ := bound.front orderly
  have fragment := orderly.fragments first List.mem_cons_self
  cases use with
  | rewrite links tail =>
      refine .inl ⟨⟨bound.stage, (links first (.inl ?_)).trans bound.linked, bound.proper⟩, rfl⟩
      rw [Traffic.queued_eq orderly.history]
      exact List.mem_cons_of_mem _ List.mem_cons_self
  | step step =>
      cases step with
      | begin => exact .inl ⟨⟨bound.stage, bound.linked, bound.proper⟩, rfl⟩
      | @send party _ _ advances =>
          -- No sender stores the link of the first fragment any more.
          have kept := (orderly.sends advances).link fragment (bound.store?_ne orderly party)
          exact .inl ⟨⟨bound.stage, kept.trans bound.linked, bound.proper⟩, rfl⟩
      | receive advances =>
          have move := orderly.receives advances
          rcases bound.stage with stage | stage <;> rw [stage] at move
          · cases move with
            | wait unlinked => exact absurd (bound.linked.symm.trans unlinked) bound.proper
            | find linked =>
                obtain rfl := linked.symm.trans bound.linked
                exact .inl ⟨⟨.inr rfl, bound.linked, bound.proper⟩, rfl⟩
          · cases move
            exact .inr rfl

/-- Whatever happens after the link has been made, the receiver is still bound to go on, or it has
returned the first fragment. -/
theorem uses (bound : channel.Bound before first next) (used : channel.Used before)
    (later : ReflTransGen channel.Use before after) :
    channel.Used after ∧
      ((channel.Bound after first next ∧ after.taken = before.taken) ∨
        before.taken ++ [first] <+: after.taken) := by
  induction later with
  | refl => exact ⟨used, .inl ⟨bound, rfl⟩⟩
  | @tail middle after _ use ih =>
      obtain ⟨used, ⟨bound, same⟩ | returned⟩ := ih
      · obtain ⟨queue, orderly⟩ := used.orderly
        rw [← same]
        refine ⟨used.use use, (bound.use orderly use).imp_right fun taken => ?_⟩
        rw [taken]
      · exact ⟨used.use use, .inr (returned.trans use.taken)⟩

theorem advance (bound : channel.Bound traffic first next)
    (orderly : Orderly channel traffic queue) :
    (traffic.receiver = .awaiting first ∧
      traffic.receiver.advance channel.ownQueue traffic.memory =
        .done (.goes (.passing first next)) traffic.memory) ∨
    (traffic.receiver = .passing first next ∧
      traffic.receiver.advance channel.ownQueue traffic.memory =
        .done (.returns (some first)) (channel.chain.setLink traffic.memory .free next)) := by
  obtain ⟨turn, memory, _, step, _, _⟩ := orderly.receiver_step
  have move := orderly.receives step
  rcases bound.stage with stage | stage <;> rw [stage] at move step ⊢
  · cases move with
    | wait unlinked => exact absurd (bound.linked.symm.trans unlinked) bound.proper
    | find linked =>
        obtain rfl := linked.symm.trans bound.linked
        exact .inl ⟨rfl, step⟩
  · cases move
    exact .inr ⟨rfl, step⟩

theorem finish (bound : channel.Bound traffic first next)
    (orderly : Orderly channel traffic queue) :
    traffic.receiver.finish channel.ownQueue 2 traffic.memory =
      .done (some first) (channel.chain.setLink traffic.memory .free next) := by
  have block : channel.ownQueue.block = channel.chain.block := rfl
  have pass : (Receiver.passing first next).advance channel.ownQueue traffic.memory =
      .done (.returns (some first)) (channel.chain.setLink traffic.memory .free next) :=
    Action.bind_done (Queue.setHead_eq block next _) _
  rcases bound.advance orderly with ⟨_, step⟩ | ⟨_, step⟩
  · rw [Receiver.finish_of_goes step, Receiver.finish_of_returns pass]
  · rw [Receiver.finish_of_returns step]

end Channel.Bound

/-! ## The same moment before the receiver has begun -/

/-- The moment at which the receiver has not taken the head yet, and all else is the same. -/
def Channel.beforehand (channel : Channel Party) (traffic : Traffic Party) (first : Offset) :
    Traffic Party :=
  { traffic with
    memory := channel.chain.setLink traffic.memory .free first
    receiver := .idle }

namespace Channel

variable {sender : Sender} {stage : Sender}

omit [DecidableEq Party] in
/-- The step of a sender that does not concern the head may be taken before the head is put back or
after it. -/
theorem Sends.setHead (sends : channel.Sends memory stage sender changed) (first : Offset)
    (proper : ∀ offset, stage ≠ .owing .free offset) :
    ∃ after, channel.Sends (channel.chain.setLink memory .free first) stage sender after ∧
      (∀ offset, Chain.HasLink channel.IsFragment offset →
        channel.chain.link (channel.chain.setLink changed .free first) offset =
          channel.chain.link after offset) ∧
      channel.chain.tail (channel.chain.setLink changed .free first) =
        channel.chain.tail after := by
  have head : Chain.HasLink channel.IsFragment .free := .inl rfl
  -- The head and another link are different words, and may be written in either order.
  have swap : ∀ {one target}, Chain.HasLink channel.IsFragment one → one ≠ .free →
      ∀ offset, Chain.HasLink channel.IsFragment offset →
        channel.chain.link (channel.chain.setLink (channel.chain.setLink memory one target) .free
          first) offset =
        channel.chain.link (channel.chain.setLink (channel.chain.setLink memory .free first) one
          target) offset := by
    intro one target has differs offset also
    simp only [Chain.link_setLink channel.separate head also,
      Chain.link_setLink channel.separate has also]
    split
    · next free => rw [if_neg (free ▸ differs.symm)]
    · rfl
  cases sends with
  | rest => exact ⟨_, .rest, fun _ _ => rfl, rfl⟩
  | unlink fragment =>
      refine ⟨_, .unlink fragment, swap (.inr fragment) (channel.proper fragment), ?_⟩
      simp only [Chain.tail_setLink channel.separate head,
        Chain.tail_setLink channel.separate (.inr fragment)]
  | @arrive offset fragment =>
      have same := Chain.tail_setLink channel.separate head memory first
      refine ⟨channel.chain.setTail (channel.chain.setLink memory .free first) offset, ?_,
        fun other also => ?_, ?_⟩
      · rw [← same]
        exact .arrive fragment
      · simp only [Chain.link_setLink channel.separate head also,
          Chain.link_setTail channel.separate also]
      · rw [Chain.tail_setLink channel.separate head, Chain.tail_setTail, Chain.tail_setTail]
  | @pay previous offset has =>
      have differs : previous ≠ .free := fun free => proper offset (free ▸ rfl)
      refine ⟨_, .pay has, swap has differs, ?_⟩
      simp only [Chain.tail_setLink channel.separate head, Chain.tail_setLink channel.separate has]

omit [DecidableEq Party] in
theorem Sends.unique {another : Sender} {altered : Memory}
    (one : channel.Sends memory stage sender changed)
    (two : channel.Sends memory stage another altered) :
    another = sender ∧ altered = changed := by
  cases one <;> cases two <;> exact ⟨rfl, rfl⟩

/-- While the receiver is busy, no sender owes the head. -/
theorem Used.head_unowed {party : Party} (used : channel.Used traffic)
    (busy : traffic.receiver ≠ .idle) (offset : Offset) :
    traffic.senders party ≠ .owing .free offset := by
  intro owes
  obtain ⟨queue, orderly⟩ := used.orderly
  have adjacent := orderly.owing ⟨party, owes⟩
  rw [Receiver.line_of_busy busy] at adjacent
  exact orderly.proper adjacent.left rfl

/-- To put the head back undoes taking it away. -/
theorem Used.put_back (used : channel.Used traffic) (idle : traffic.receiver = .idle) :
    channel.Used (channel.beforehand
      { traffic with memory := channel.chain.setLink traffic.memory .free .free }
      (channel.chain.link traffic.memory .free)) := by
  have head : Chain.HasLink channel.IsFragment .free := .inl rfl
  have restored := @Used.exchange _ _ _ _ used
    (channel.chain.setLink (channel.chain.setLink traffic.memory .free .free) .free
      (channel.chain.link traffic.memory .free))
    (fun offset has => by
      simp only [Chain.link_setLink channel.separate head has]
      split
      · next free => rw [free]
      · rfl)
    (by simp only [Chain.tail_setLink channel.separate head])
  simpa only [Channel.beforehand, idle] using restored

/-- The moment before the receiver has begun is reached as well: the senders have taken the same
steps, and only the receiver has not. -/
theorem Used.beforehand (used : channel.Used traffic)
    (taking : traffic.receiver.fragment? = some first) :
    channel.Used (channel.beforehand traffic first) := by
  have head : Chain.HasLink channel.IsFragment .free := .inl rfl
  -- The same run with the head put back after each step.
  induction used with
  | start => cases taking
  | @use before after used use ih =>
      obtain ⟨queue, orderly⟩ := used.orderly
      cases use with
      | @rewrite memory links tail =>
          refine (ih taking).use (@Use.rewrite _ _ channel (channel.beforehand before first)
            (channel.chain.setLink memory .free first) (fun offset concerned => ?_) ?_)
          · have has : Chain.HasLink channel.IsFragment offset :=
              orderly.hasLink_used (Traffic.queued_eq orderly.history ▸ concerned)
            simp only [Channel.beforehand, Chain.link_setLink channel.separate head has,
              links offset concerned]
          · simp only [Channel.beforehand, Chain.tail_setLink channel.separate head, tail]
      | step step =>
          cases step with
          | begin idle fragment unqueued unsent =>
              exact (ih taking).use (.step (.begin idle fragment unqueued unsent))
          | @send party sender memory advances =>
              have busy : before.receiver ≠ .idle := by
                intro idle
                have none : before.receiver.fragment? = some first := taking
                rw [idle] at none
                cases none
              -- A sender takes the same step in both runs, for it does not concern the head.
              obtain ⟨other, sends, links, tail⟩ :=
                (orderly.sends advances).setHead first (used.head_unowed busy)
              obtain ⟨_, counterpart⟩ := (ih taking).orderly
              obtain ⟨_, _, _, also, _, _⟩ := counterpart.sender_step party
              obtain ⟨rfl, rfl⟩ := sends.unique (counterpart.sends also)
              exact ((ih taking).use (.step (.send also))).exchange links tail
          | @receive turn memory advances =>
              have move := orderly.receives advances
              cases stage : before.receiver with
              | idle =>
                  rw [stage] at move
                  cases move with
                  | findNone => cases taking
                  | take linked =>
                      obtain rfl := Option.some.inj taking
                      exact linked ▸ used.put_back stage
              | reading | releasing | awaiting | passing =>
                  rw [stage] at move
                  cases move
                  all_goals first
                    | cases taking; done
                    | exact ih (by rw [stage]; exact taking)

omit [DecidableEq Party] in
theorem byte_setLink_setLink (memory : Memory) (offset former target : Offset) (place : Place) :
    (channel.chain.setLink (channel.chain.setLink memory offset former) offset target).byte place =
      (channel.chain.setLink memory offset target).byte place := by
  simp only [Chain.setLink, Memory.setWord, Memory.byte_write, LittleEndian.length_bytes]
  split <;> rfl

/-- From the moment before it has begun, the receiver takes the same fragment with nobody between,
and leaves the same memory. -/
theorem Bound.dequeue (bound : channel.Bound traffic first next)
    (orderly : Orderly channel traffic queue) :
    ∃ memory, channel.ownQueue.dequeue (channel.beforehand traffic first).memory =
        .done (some first) memory ∧
      ∀ place, memory.byte place =
        (channel.chain.setLink traffic.memory .free next).byte place := by
  obtain ⟨⟨rest, rfl⟩, _⟩ := bound.front orderly
  have block : channel.ownQueue.block = channel.chain.block := rfl
  have head : Chain.HasLink channel.IsFragment .free := .inl rfl
  have fragment := orderly.fragments first List.mem_cons_self
  have proper := channel.proper fragment
  have differs : next ≠ first := by
    rintro rfl
    exact (List.nodup_cons.mp orderly.nodup).1 List.mem_cons_self
  let put := channel.chain.setLink traffic.memory .free first
  let taken := channel.chain.setLink put .free .free
  -- Its steps with nobody between: it takes the head, finds the link, and makes it the head.
  have takes :
      Receiver.idle.advance channel.ownQueue put = .done (.goes (.reading first)) taken := by
    have found : channel.chain.link put .free = first := by
      rw [Chain.link_setLink channel.separate head head, if_pos rfl]
    rw [Receiver.advance, Action.bind_done (Queue.takeHead_eq block put), found,
      Orderly.isFree_eq_false proper]
    rfl
  have reads : (Receiver.reading first).advance channel.ownQueue taken =
      .done (.goes (.passing first next)) taken := by
    have found : channel.chain.link taken first = next := by
      rw [Chain.link_setLink channel.separate head (.inr fragment), if_neg proper,
        Chain.link_setLink channel.separate head (.inr fragment), if_neg proper, bound.linked]
    rw [Receiver.advance, Action.bind_done (Queue.link_eq (channel.reaches fragment) taken), found,
      if_neg differs, Orderly.isFree_eq_false bound.proper]
    rfl
  have passes : (Receiver.passing first next).advance channel.ownQueue taken =
      .done (.returns (some first)) (channel.chain.setLink taken .free next) :=
    Action.bind_done (Queue.setHead_eq block next taken) _
  refine ⟨channel.chain.setLink taken .free next, ?_, fun place => ?_⟩
  · rw [Receiver.dequeue_eq channel.ownQueue 0]
    show Receiver.idle.finish channel.ownQueue 5 put = _
    rw [Receiver.finish_of_goes takes, Receiver.finish_of_goes reads,
      Receiver.finish_of_returns passes]
  · simp only [taken, put, byte_setLink_setLink]

end Channel

/-! ## When the receiver does not wait -/

def Traffic.IsPaid (traffic : Traffic Party) : Prop :=
  ∀ previous offset, ¬traffic.Owes previous offset

/-- The receiver does not wait, and does not come to wait by its next step. -/
structure Channel.Flows (channel : Channel Party) (traffic : Traffic Party) : Prop where
  proceeds : ∀ first, traffic.receiver ≠ .awaiting first
  last : ∀ first, traffic.receiver = .releasing first → channel.chain.tail traffic.memory = first

omit [DecidableEq Party] in
theorem Channel.Flows.of_idle (idle : traffic.receiver = .idle) : channel.Flows traffic :=
  ⟨by simp [idle], by simp [idle]⟩

theorem Orderly.tail_of_paid (orderly : Orderly channel traffic queue)
    (reading : traffic.receiver = .reading first) (paid : traffic.IsPaid)
    (unlinked : channel.chain.link traffic.memory first = .free) :
    channel.chain.tail traffic.memory = first := by
  have busy : traffic.receiver ≠ .idle := by simp [reading]
  obtain ⟨rest, rfl⟩ : ∃ rest, queue = first :: rest := by
    have fits := orderly.receiver
    rwa [reading] at fits
  cases rest with
  | nil =>
      have ends := orderly.ends
      rw [Receiver.line_of_busy busy] at ends
      exact (Option.some.inj ends).symm
  | cons second rest =>
      obtain ⟨party, owes⟩ := orderly.debtor busy unlinked
      exact absurd ⟨party, owes⟩ (paid first second)

/-- While no sender owes a link, the receiver does not come to wait. -/
theorem Channel.Flows.use (flows : channel.Flows before) (orderly : Orderly channel before queue)
    (paid : before.IsPaid) (use : channel.Use before after) (still : after.IsPaid) :
    channel.Flows after := by
  cases use with
  | rewrite _ tail => exact ⟨flows.proceeds, fun first stage => tail.trans (flows.last first stage)⟩
  | step step =>
      cases step with
      | begin => exact ⟨flows.proceeds, flows.last⟩
      | @send party sender memory advances =>
          have move := orderly.sends advances
          -- A sender that became the tail would owe a link afterwards.
          have tail : channel.chain.tail memory = channel.chain.tail before.memory := by
            have adds : ∀ previous offset, sender = .owing previous offset →
                (before.sent party sender memory).Owes previous offset := by
              rintro previous offset rfl
              exact ⟨party, by simp [Traffic.sent, Traffic.turn]⟩
            generalize before.senders party = stage at move
            cases move with
            | rest => rfl
            | unlink fragment => exact Chain.tail_setLink channel.separate (.inr fragment) _ _
            | arrive => exact absurd (adds _ _ rfl) (still _ _)
            | pay has => exact Chain.tail_setLink channel.separate has _ _
          exact ⟨flows.proceeds, fun first stage => tail.trans (flows.last first stage)⟩
      | @receive turn memory advances =>
          have move := orderly.receives advances
          cases stage : before.receiver with
          | idle =>
              rw [stage] at move
              cases move with
              | findNone => exact .of_idle rfl
              | take => exact ⟨by simp [Traffic.received], by simp [Traffic.received]⟩
          | reading first =>
              rw [stage] at move
              cases move with
              | readNone unlinked =>
                  refine ⟨by simp [Traffic.received], ?_⟩
                  rintro _ ⟨⟩
                  -- Without a link it is the last fragment, and the tail will be released.
                  exact orderly.tail_of_paid stage paid unlinked
              | readNext => exact ⟨by simp [Traffic.received], by simp [Traffic.received]⟩
          | releasing first =>
              rw [stage] at move
              cases move with
              | release => exact .of_idle rfl
              | keep further => exact absurd (flows.last first stage) further
          | awaiting first => exact absurd stage (flows.proceeds first)
          | passing first next =>
              rw [stage] at move
              cases move
              exact .of_idle rfl

theorem Channel.Flows.uses (flows : channel.Flows before) (used : channel.Used before)
    (paid : before.IsPaid)
    (later : ReflTransGen (fun one two => channel.Use one two ∧ two.IsPaid) before after) :
    channel.Used after ∧ after.IsPaid ∧ channel.Flows after := by
  induction later with
  | refl => exact ⟨used, paid, flows⟩
  | tail _ use ih =>
      obtain ⟨used, paid, flows⟩ := ih
      obtain ⟨queue, orderly⟩ := used.orderly
      exact ⟨used.use use.1, use.2, flows.use orderly paid use.1 use.2⟩

/-- With the receiver idle, the head has no link and yet is not the last fragment exactly while a
sender owes its link. -/
theorem Orderly.gap_iff (orderly : Orderly channel traffic queue) (idle : traffic.receiver = .idle)
    (head : channel.chain.link traffic.memory .free = first) :
    (first ≠ .free ∧ channel.chain.link traffic.memory first = .free ∧
        channel.chain.tail traffic.memory ≠ first) ↔
      first ≠ .free ∧ ∃ party next, traffic.senders party = .owing first next := by
  have strung := orderly.strung
  have ends := orderly.ends
  have nodup := orderly.nodup_line
  have owed : ∀ {party next}, traffic.senders party = .owing first next →
      Adjacent first next (.free :: queue) := fun {party next} owes => by
    simpa only [idle, Receiver.line] using orderly.owing ⟨party, owes⟩
  simp only [idle, Receiver.line] at strung ends nodup
  refine and_congr_right fun proper => ?_
  -- The head is the first fragment of the queue.
  cases queue with
  | nil => exact absurd (head.symm.trans strung) proper
  | cons front rest =>
      obtain rfl : front = first := by
        rcases strung.1 with ⟨_, unlinked⟩ | ⟨_, linked⟩
        · exact absurd (head.symm.trans unlinked) proper
        · exact linked.symm.trans head
      cases rest with
      | nil =>
          have last : channel.chain.tail traffic.memory = front := by simpa using ends.symm
          refine iff_of_false (fun gap => gap.2 last) ?_
          rintro ⟨party, next, owes⟩
          rcases adjacent_cons.mp (owed owes) with ⟨free, _⟩ | behind
          · exact proper free
          · exact not_adjacent_single behind
      | cons second rest =>
          -- The link of the first of several is missing exactly while it is owed.
          constructor
          · rintro ⟨unlinked, _⟩
            rcases strung.2.1 with ⟨⟨party, owes⟩, _⟩ | ⟨_, linked⟩
            · exact ⟨party, second, owes⟩
            · exact absurd (linked.symm.trans unlinked) (orderly.proper (by simp))
          · rintro ⟨party, next, owes⟩
            obtain rfl : second = next :=
              Adjacent.unique nodup (adjacent_cons.mpr (.inr (adjacent_cons.mpr (.inl ⟨rfl, rfl⟩))))
                (owed owes)
            refine ⟨?_, ?_⟩
            · rcases strung.2.1 with ⟨_, unlinked⟩ | ⟨paid, _⟩
              · exact unlinked
              · exact absurd ⟨party, owes⟩ paid
            · rintro rfl
              have alone := (List.nodup_cons.mp orderly.nodup).1
              exact alone (List.mem_of_getLast? (by simpa [List.getLast?_cons_cons] using ends))

/-- After a sender has made the link for which the receiver waits, the receiver is bound to go
on. -/
theorem Orderly.bound_of_paid {party : Party} (orderly : Orderly channel traffic queue)
    (waits : traffic.receiver = .awaiting first)
    (owes : traffic.senders party = .owing first next) :
    ∃ memory, (Sender.owing first next).advance (channel.queueOf party) traffic.memory =
        .done .idle memory ∧
      channel.Step traffic (traffic.sent party .idle memory) ∧
      channel.Bound (traffic.sent party .idle memory) first next := by
  obtain ⟨sender, memory, _, step, _, _⟩ := orderly.sender_step party
  have move := orderly.sends step
  have proper : next ≠ .free := channel.proper (orderly.sending (by rw [owes]; rfl))
  rw [owes] at move
  cases move with
  | pay has =>
      refine ⟨_, owes ▸ step, .send step, .inl waits, ?_, proper⟩
      exact (Chain.link_setLink channel.separate has has _ _).trans (if_pos rfl)

/-- **The receiver waits only for a sender.** However the steps of the senders and the receiver
come, and whatever is written meanwhile to fragments that are not in use: while the receiver waits
for the link of a fragment that has none, exactly one sender owes it. When this sender has made the
link, then whatever else happens, until the receiver returns that fragment its next step goes on
from the wait or returns the fragment and makes the linked one the head. With nobody between, it
returns the same and leaves the same memory as a whole `Queue.dequeue` that begins only then.

While the receiver is idle, the head has no link and is not the last fragment exactly while a sender
owes its link; so if no sender owes a link meanwhile, the receiver does not wait at all. -/
theorem Channel.waits_only_for_debtor (used : channel.Used traffic) :
    (∀ first, traffic.receiver = .awaiting first →
      channel.chain.link traffic.memory first = .free →
      ∃ party next memory,
        (traffic.senders party = .owing first next ∧
          ∀ another other, traffic.senders another = .owing first other → another = party) ∧
        (Sender.owing first next).advance (channel.queueOf party) traffic.memory =
          .done .idle memory ∧
        ∀ after, ReflTransGen channel.Use (traffic.sent party .idle memory) after →
          traffic.taken ++ [first] <+: after.taken ∨
          after.taken = traffic.taken ∧
          ((after.receiver = .awaiting first ∧
              after.receiver.advance channel.ownQueue after.memory =
                .done (.goes (.passing first next)) after.memory) ∨
            (after.receiver = .passing first next ∧
              after.receiver.advance channel.ownQueue after.memory =
                .done (.returns (some first))
                  (channel.chain.setLink after.memory .free next))) ∧
          after.receiver.finish channel.ownQueue 2 after.memory =
            .done (some first) (channel.chain.setLink after.memory .free next) ∧
          channel.Used (channel.beforehand after first) ∧
          ∃ changed, channel.ownQueue.dequeue (channel.beforehand after first).memory =
              .done (some first) changed ∧
            ∀ place, changed.byte place =
              (channel.chain.setLink after.memory .free next).byte place) ∧
    (traffic.receiver = .idle → ∀ first, channel.chain.link traffic.memory .free = first →
      ((first ≠ .free ∧ channel.chain.link traffic.memory first = .free ∧
          channel.chain.tail traffic.memory ≠ first) ↔
        first ≠ .free ∧ ∃ party next, traffic.senders party = .owing first next)) ∧
    (traffic.receiver = .idle → traffic.IsPaid → ∀ after,
      ReflTransGen (fun one two => channel.Use one two ∧ two.IsPaid) traffic after →
      ∀ first, after.receiver ≠ .awaiting first) := by
  obtain ⟨queue, orderly⟩ := used.orderly
  refine ⟨fun first waits unlinked => ?_, fun idle first head => orderly.gap_iff idle head,
    fun idle paid after later => ((Flows.of_idle idle).uses used paid later).2.2.proceeds⟩
  -- It waits because it is not the last: another one is behind it, to which the link is owed.
  obtain ⟨next, rest, rfl⟩ : ∃ next rest, queue = first :: next :: rest := by
    have fits := orderly.receiver
    rwa [waits] at fits
  obtain ⟨party, owes⟩ := orderly.debtor (by simp [waits]) unlinked
  obtain ⟨memory, step, sent, bound⟩ := orderly.bound_of_paid waits owes
  refine ⟨party, next, memory, ⟨owes, fun another other => orderly.debtor_unique owes⟩, step,
    fun after later => ?_⟩
  have same : (traffic.sent party .idle memory).taken = traffic.taken := rfl
  obtain ⟨reached, ⟨bound, still⟩ | returned⟩ := bound.uses (used.use (.step sent)) later
  · obtain ⟨_, order⟩ := reached.orderly
    have taking : after.receiver.fragment? = some first := by
      rcases bound.stage with stage | stage <;> rw [stage] <;> rfl
    exact .inr ⟨still.trans same, bound.advance order, bound.finish order,
      reached.beforehand taking, bound.dequeue order⟩
  · exact .inl returned

/-- The second sender stands still in the gap behind the fragment of the first one. The receiver
waits for its link, and takes the fragment as soon as the link has been made. -/
theorem waits_only_for_debtor_gap : ∃ traffic : Traffic Bool, twoSenders.Used traffic ∧
    traffic.receiver = .awaiting ⟨0, 384⟩ ∧
    twoSenders.chain.link traffic.memory ⟨0, 384⟩ = .free ∧
    ∃ party next memory, traffic.senders party = .owing ⟨0, 384⟩ next ∧
      (Sender.owing ⟨0, 384⟩ next).advance (twoSenders.queueOf party) traffic.memory =
        .done .idle memory ∧
      traffic.receiver.finish twoSenders.ownQueue 2 memory =
        .done (some ⟨0, 384⟩) (twoSenders.chain.setLink memory .free next) := by
  have one : twoSenders.IsFragment ⟨0, 384⟩ := ⟨⟨_, rfl, rfl, by decide⟩, by decide⟩
  have two : twoSenders.IsFragment ⟨1, 448⟩ := ⟨⟨_, rfl, rfl, by decide⟩, by decide⟩
  have reached := @Channel.Reached.start _ _ twoSenders quiet (by decide) (by decide)
  have reached := reached.step (@Channel.Step.begin _ _ _ _ false _ rfl one (by decide)
    (by rintro ⟨party, sends⟩; cases party <;> cases sends))
  have reached := reached.step (@Channel.Step.send _ _ _ _ false _ _ rfl)
  have reached := reached.step (@Channel.Step.send _ _ _ _ false _ _ rfl)
  have reached := reached.step (@Channel.Step.send _ _ _ _ false _ _ rfl)
  have reached := reached.step (@Channel.Step.begin _ _ _ _ true _ rfl two (by decide)
    (by rintro ⟨party, sends⟩; cases party <;> cases sends))
  have reached := reached.step (@Channel.Step.send _ _ _ _ true _ _ rfl)
  have reached := reached.step (@Channel.Step.send _ _ _ _ true _ _ rfl)
  have reached := reached.step (@Channel.Step.receive _ _ _ _ _ _ rfl)
  have reached := reached.step (@Channel.Step.receive _ _ _ _ _ _ rfl)
  have reached := reached.step (@Channel.Step.receive _ _ _ _ _ _ rfl)
  obtain ⟨party, next, memory, ⟨owes, _⟩, step, later⟩ :=
    (Channel.waits_only_for_debtor reached.used).1 ⟨0, 384⟩ rfl (by decide)
  -- Nothing else has happened, so the fragment has not been returned yet.
  rcases later _ .refl with returned | ⟨_, _, finish, _⟩
  · have short := returned.length_le
    cases short
  · exact ⟨_, reached.used, rfl, by decide, party, next, memory, owes, step, finish⟩

end RankMail

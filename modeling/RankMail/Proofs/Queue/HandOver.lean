import Mathlib.Logic.Relation
import RankMail.Proofs.Queue.Moves

set_option autoImplicit false

/-! # What a queue hands over

Whoever has taken a fragment may do with it what it likes at once: it gives the fragment back to
its pool, which rewrites the header, and the next one appends it anew, perhaps to another queue. So
nobody who still works on the queue may hold on to the fragment. A sender that stood still for a
long time would otherwise store a link in a header that by now is somebody else's.

A fragment that is `Away` from the queue is neither queued nor being appended. It is away when it
has been taken (`Orderly.away_of_returns`), it stays so until it is appended anew (`Away.use`), and
meanwhile no word of the queue names it and no step stores its link.
-/

namespace RankMail

open Relation

/-- The fragment whose link the next step of a sender stores; the mark `free` stands for the
head. -/
def Sender.store? : Sender → Option Offset
  | idle => none
  | unlinking offset => some offset
  | arriving _ => none
  | owing previous _ => some previous

theorem Sender.eq_of_store? {sender : Sender} {offset : Offset}
    (stores : sender.store? = some offset) :
    sender = .unlinking offset ∨ ∃ next, sender = .owing offset next := by
  cases sender with
  | idle | arriving => cases stores
  | unlinking other => exact .inl (congrArg _ (Option.some.inj stores))
  | owing previous next => exact .inr ⟨next, congrArg (owing · next) (Option.some.inj stores)⟩

theorem Sender.eq_of_fragment? {sender : Sender} {offset : Offset}
    (carries : sender.fragment? = some offset) :
    sender = .unlinking offset ∨ sender = .arriving offset ∨
      ∃ previous, sender = .owing previous offset := by
  cases sender with
  | idle => cases carries
  | unlinking other => exact .inl (congrArg _ (Option.some.inj carries))
  | arriving other => exact .inr (.inl (congrArg _ (Option.some.inj carries)))
  | owing previous other =>
      exact .inr (.inr ⟨previous, congrArg _ (Option.some.inj carries)⟩)

variable {Party : Type} [DecidableEq Party] {channel : Channel Party}
  {traffic before after : Traffic Party} {queue rest : List Offset} {offset first : Offset}

/-- Somebody begins to append a fragment. -/
def Traffic.Begins (offset : Offset) (before after : Traffic Party) : Prop :=
  ¬before.IsSending offset ∧ after.IsSending offset

/-- A step with which nobody begins to append a fragment. -/
def Channel.Spares (channel : Channel Party) (offset : Offset) (before after : Traffic Party) :
    Prop :=
  channel.Use before after ∧ ¬Traffic.Begins offset before after

/-- A fragment is neither queued nor being appended. -/
structure Traffic.Away (traffic : Traffic Party) (offset : Offset) : Prop where
  unqueued : offset ∉ traffic.queued
  unsent : ¬traffic.IsSending offset

/-! ## A fragment comes to be away -/

namespace Orderly

theorem unsent_first (orderly : Orderly channel traffic (first :: queue))
    (busy : traffic.receiver ≠ .idle) : ¬traffic.IsSending first := by
  rintro ⟨party, carries⟩
  have fits := orderly.senders party
  rw [Receiver.line_of_busy busy] at fits
  rcases Sender.eq_of_fragment? carries with stands | stands | ⟨previous, stands⟩ <;>
    rw [stands] at fits
  · exact fits List.mem_cons_self
  · exact fits.1 List.mem_cons_self
  · -- Nothing stands before the first one.
    cases queue with
    | nil => exact not_adjacent_single fits
    | cons second more =>
        have alone := (List.nodup_cons.mp orderly.nodup).1
        rcases adjacent_cons.mp fits with ⟨_, rfl⟩ | behind
        · exact alone List.mem_cons_self
        · exact alone behind.right

theorem taking_of_returns {memory : Memory} (orderly : Orderly channel traffic queue)
    (returns : traffic.receiver.advance channel.ownQueue traffic.memory =
      .done (.returns (some offset)) memory) :
    traffic.receiver ≠ .idle ∧ ∃ rest, queue = offset :: rest := by
  have move := orderly.receives returns
  have fits := orderly.receiver
  generalize traffic.receiver = stage at move fits
  cases move with
  | release => exact ⟨by simp, fits⟩
  | @pass _ next =>
      obtain ⟨_, rest, found⟩ := fits
      exact ⟨by simp, next :: rest, found⟩

theorem away_of_returns {memory : Memory} (orderly : Orderly channel traffic queue)
    (returns : traffic.receiver.advance channel.ownQueue traffic.memory =
      .done (.returns (some offset)) memory) :
    (traffic.received (.returns (some offset)) memory).Away offset := by
  obtain ⟨busy, rest, rfl⟩ := orderly.taking_of_returns returns
  have history : traffic.appended.map Prod.snd = (traffic.taken ++ [offset]) ++ rest := by
    simpa using orderly.history
  have queued : (traffic.received (.returns (some offset)) memory).queued = rest :=
    Traffic.queued_eq history
  refine ⟨?_, orderly.unsent_first busy⟩
  rw [queued]
  exact (List.nodup_cons.mp orderly.nodup).1

end Orderly

/-! ## A fragment stays away -/

/-- A step takes from the front of the queue and may put a fragment that was being appended behind
it. -/
theorem Channel.Step.queued (step : channel.Step before after)
    (inside : offset ∈ after.queued) : offset ∈ before.queued ∨ before.IsSending offset := by
  cases step with
  | begin => exact .inl inside
  | @send party sender memory advances =>
      cases stands : before.senders party with
      | arriving other =>
          simp only [Traffic.queued, Traffic.sent, stands, List.map_append,
            List.drop_append] at inside
          -- Becoming the tail puts the fragment of this sender at the end.
          refine (List.mem_append.mp inside).imp id fun last => ?_
          obtain rfl : offset = other := List.mem_singleton.mp (List.mem_of_mem_drop last)
          exact ⟨party, by rw [stands]; rfl⟩
      | idle | unlinking | owing =>
          simp only [Traffic.queued, Traffic.sent, stands] at inside
          exact .inl inside
  | @receive turn memory advances =>
      cases turn with
      | goes => exact .inl inside
      | returns result =>
          -- A fragment that is returned leaves the queue at its front.
          refine .inl (?_ : offset ∈ (before.appended.map Prod.snd).drop before.taken.length)
          simp only [Traffic.queued, Traffic.received, List.length_append] at inside
          rw [← List.drop_drop] at inside
          exact List.mem_of_mem_drop inside

/-- What is away stays away until somebody begins to append it. -/
theorem Traffic.Away.use (away : before.Away offset) (spares : channel.Spares offset before after) :
    after.Away offset := by
  have unsent : ¬after.IsSending offset := fun sends => spares.2 ⟨away.unsent, sends⟩
  refine ⟨fun inside => ?_, unsent⟩
  cases spares.1 with
  | step step => exact (step.queued inside).elim away.unqueued away.unsent
  | rewrite => exact away.unqueued inside

theorem Traffic.Away.uses (away : before.Away offset)
    (later : ReflTransGen (channel.Spares offset) before after) : after.Away offset := by
  induction later with
  | refl => exact away
  | tail _ spares ih => exact ih.use spares

theorem Channel.Used.uses (used : channel.Used before)
    (later : ReflTransGen (channel.Spares offset) before after) : channel.Used after := by
  induction later with
  | refl => exact used
  | tail _ spares ih => exact ih.use spares.1

/-- The link of a fragment that is away may be rewritten. -/
theorem Channel.Used.relink (used : channel.Used traffic) (fragment : channel.IsFragment offset)
    (away : traffic.Away offset) (target : Offset) :
    channel.Use traffic
      { traffic with memory := channel.chain.setLink traffic.memory offset target } := by
  obtain ⟨queue, orderly⟩ := used.orderly
  refine .rewrite (fun other concerned => ?_)
    (Chain.tail_setLink channel.separate (.inr fragment) _ _)
  have differs : other ≠ offset := by
    rintro rfl
    rcases concerned with inside | sends
    · exact (List.mem_cons.mp inside).elim (channel.proper fragment) away.unqueued
    · exact away.unsent sends
  rw [Traffic.queued_eq orderly.history] at concerned
  rw [Chain.link_setLink channel.separate (.inr fragment) (orderly.hasLink_used concerned),
    if_neg differs]

/-! ## Nothing refers to a fragment that is away -/

namespace Orderly

theorem link_queued (orderly : Orderly channel traffic queue) (inside : offset ∈ .free :: queue) :
    channel.chain.link traffic.memory offset = .free ∨
      channel.chain.link traffic.memory offset ∈ queue := by
  -- While the receiver is idle the head belongs to the line of links; otherwise it is free.
  by_cases idle : traffic.receiver = .idle
  · have strung := orderly.strung
    rw [idle] at strung
    exact (strung.link_mem inside).elim .inl fun line => (List.mem_cons.mp line)
  rcases List.mem_cons.mp inside with rfl | inside
  · exact .inl (orderly.headless idle)
  · have strung := orderly.strung
    rw [Receiver.line_of_busy idle] at strung
    exact strung.link_mem inside

theorem tail_queued (orderly : Orderly channel traffic queue) :
    channel.chain.tail traffic.memory = .free ∨ channel.chain.tail traffic.memory ∈ queue :=
  Receiver.mem_line (List.mem_of_getLast? orderly.ends)

theorem store?_ne (orderly : Orderly channel traffic queue) (away : traffic.Away offset)
    (proper : offset ≠ .free) (party : Party) : (traffic.senders party).store? ≠ some offset := by
  intro stores
  rcases Sender.eq_of_store? stores with stands | ⟨next, stands⟩
  · exact away.unsent ⟨party, by rw [stands]; rfl⟩
  · have line := (orderly.owing ⟨party, stands⟩).left
    have unqueued := away.unqueued
    rw [Traffic.queued_eq orderly.history] at unqueued
    exact (Receiver.mem_line line).elim proper unqueued

end Orderly

omit [DecidableEq Party] in
/-- The step of a sender stores no link but the one that `Sender.store?` names. -/
theorem Channel.Sends.link {sender next : Sender} {memory changed : Memory}
    (sends : channel.Sends memory sender next changed) (fragment : channel.IsFragment offset)
    (spared : sender.store? ≠ some offset) :
    channel.chain.link changed offset = channel.chain.link memory offset := by
  cases sends with
  | rest => rfl
  | @unlink other isFragment =>
      have differs : offset ≠ other := by
        rintro rfl
        exact spared rfl
      rw [Chain.link_setLink channel.separate (.inr isFragment) (.inr fragment), if_neg differs]
  | arrive => exact Chain.link_setTail channel.separate (.inr fragment) _ _
  | @pay previous other has =>
      have differs : offset ≠ previous := by
        rintro rfl
        exact spared rfl
      rw [Chain.link_setLink channel.separate has (.inr fragment), if_neg differs]

/-- **A taken fragment belongs to the receiver alone.** However the steps of the senders and the
receiver come, and whatever is written meanwhile to fragments that are not in use, nobody aborts:
no sender finds its fragment at the tail already, and the receiver finds no fragment that is linked
to itself. From the moment at which the receiver returns a fragment until somebody begins to append
it anew, no sender is about to store its link, nor does a step of a sender change it, and neither
the tail, nor the head, nor the link of a queued fragment names it. -/
theorem Channel.returned_is_exclusive (used : channel.Used traffic) :
    (∀ party, ∃ sender memory,
      (traffic.senders party).advance (channel.queueOf party) traffic.memory =
        .done sender memory) ∧
    (∃ turn memory,
      traffic.receiver.advance channel.ownQueue traffic.memory = .done turn memory) ∧
    ∀ offset memory after,
      traffic.receiver.advance channel.ownQueue traffic.memory =
        .done (.returns (some offset)) memory →
      ReflTransGen (channel.Spares offset) (traffic.received (.returns (some offset)) memory)
        after →
      (∀ party, (after.senders party).store? ≠ some offset ∧ ∀ sender changed,
        (after.senders party).advance (channel.queueOf party) after.memory =
          .done sender changed →
        channel.chain.link changed offset = channel.chain.link after.memory offset) ∧
      channel.chain.tail after.memory ≠ offset ∧
      channel.chain.link after.memory .free ≠ offset ∧
      ∀ other ∈ after.queued, channel.chain.link after.memory other ≠ offset := by
  obtain ⟨queue, orderly⟩ := used.orderly
  refine ⟨fun party => ?_, ?_, ?_⟩
  · obtain ⟨sender, memory, _, done, _, _⟩ := orderly.sender_step party
    exact ⟨sender, memory, done⟩
  · obtain ⟨turn, memory, _, done, _, _⟩ := orderly.receiver_step
    exact ⟨turn, memory, done⟩
  intro offset memory after returns later
  obtain ⟨_, rest, rfl⟩ := orderly.taking_of_returns returns
  have fragment := orderly.fragments offset List.mem_cons_self
  have proper := channel.proper fragment
  have away := (orderly.away_of_returns returns).uses later
  -- What is left in the queue does not contain the fragment, and whatever names anything names
  -- what is in the queue.
  obtain ⟨left, kept⟩ := ((used.use (.step (.receive returns))).uses later).orderly
  have outside : ∀ {target}, target = .free ∨ target ∈ left → target ≠ offset := by
    have unqueued := away.unqueued
    rw [Traffic.queued_eq kept.history] at unqueued
    rintro target (rfl | inside) rfl
    · exact proper rfl
    · exact unqueued inside
  refine ⟨fun party => ⟨kept.store?_ne away proper party, fun sender changed step => ?_⟩,
    outside kept.tail_queued, outside (kept.link_queued List.mem_cons_self), fun other inside => ?_⟩
  · exact (kept.sends step).link fragment (kept.store?_ne away proper party)
  · rw [Traffic.queued_eq kept.history] at inside
    exact outside (kept.link_queued (List.mem_cons_of_mem _ inside))

/-- The receiver takes a fragment before which another one stands still in the gap, and waits until
it is linked. Then the header of what it has returned is rewritten, while the fragment behind it
becomes the head, and a third one is appended. -/
theorem returned_is_exclusive_reused : ∃ (traffic after : Traffic Bool) (memory : Memory),
    twoSenders.Used traffic ∧
    traffic.receiver.advance twoSenders.ownQueue traffic.memory =
      .done (.returns (some ⟨0, 384⟩)) memory ∧
    ReflTransGen (twoSenders.Spares ⟨0, 384⟩)
      (traffic.received (.returns (some ⟨0, 384⟩)) memory) after ∧
    twoSenders.chain.link memory ⟨0, 384⟩ = ⟨1, 448⟩ ∧
    twoSenders.chain.link after.memory ⟨0, 384⟩ = .free ∧ after.queued = [⟨1, 448⟩, ⟨0, 512⟩] ∧
    twoSenders.chain.tail after.memory ≠ ⟨0, 384⟩ ∧
    twoSenders.chain.link after.memory .free ≠ ⟨0, 384⟩ := by
  have one : twoSenders.IsFragment ⟨0, 384⟩ := ⟨⟨_, rfl, rfl, by decide⟩, by decide⟩
  have two : twoSenders.IsFragment ⟨1, 448⟩ := ⟨⟨_, rfl, rfl, by decide⟩, by decide⟩
  have three : twoSenders.IsFragment ⟨0, 512⟩ := ⟨⟨_, rfl, rfl, by decide⟩, by decide⟩
  have nobody : ∀ {traffic : Traffic Bool} {offset : Offset},
      (traffic.senders false).fragment? ≠ some offset →
      (traffic.senders true).fragment? ≠ some offset → ¬traffic.IsSending offset := by
    rintro traffic offset first second ⟨party, sends⟩
    cases party
    · exact first sends
    · exact second sends
  have reached := @Channel.Reached.start _ _ twoSenders quiet (by decide) (by decide)
  have reached := reached.step (@Channel.Step.begin _ _ _ _ false _ rfl one (by decide)
    (nobody (by decide) (by decide)))
  -- The first sender appends its fragment with all three steps.
  have reached := reached.step (@Channel.Step.send _ _ _ _ false _ _ rfl)
  have reached := reached.step (@Channel.Step.send _ _ _ _ false _ _ rfl)
  have reached := reached.step (@Channel.Step.send _ _ _ _ false _ _ rfl)
  have reached := reached.step (@Channel.Step.begin _ _ _ _ true _ rfl two (by decide)
    (nobody (by decide) (by decide)))
  have reached := reached.step (@Channel.Step.send _ _ _ _ true _ _ rfl)
  -- The receiver takes the head and finds no link; meanwhile the second sender becomes the tail.
  have reached := reached.step (@Channel.Step.receive _ _ _ _ _ _ rfl)
  have reached := reached.step (@Channel.Step.receive _ _ _ _ _ _ rfl)
  have reached := reached.step (@Channel.Step.send _ _ _ _ true _ _ rfl)
  have reached := reached.step (@Channel.Step.receive _ _ _ _ _ _ rfl)
  have reached := reached.step (@Channel.Step.send _ _ _ _ true _ _ rfl)
  have reached := reached.step (@Channel.Step.receive _ _ _ _ _ _ rfl)
  have returned := reached.step (@Channel.Step.receive _ _ _ _ _ _ rfl)
  -- The header of the fragment is rewritten, and another one is appended.
  have run := ReflTransGen.single (show twoSenders.Spares ⟨0, 384⟩ _ _ from
    ⟨returned.used.relink one ⟨by decide, nobody (by decide) (by decide)⟩ .free,
      fun begins => nobody (by decide) (by decide) begins.2⟩)
  have run := run.tail ⟨.step (@Channel.Step.begin _ _ _ _ false _ rfl three (by decide)
    (nobody (by decide) (by decide))), fun begins => nobody (by decide) (by decide) begins.2⟩
  have run := run.tail ⟨.step (@Channel.Step.send _ _ _ _ false _ _ rfl),
    fun begins => nobody (by decide) (by decide) begins.2⟩
  have run := run.tail ⟨.step (@Channel.Step.send _ _ _ _ false _ _ rfl),
    fun begins => nobody (by decide) (by decide) begins.2⟩
  have run := run.tail ⟨.step (@Channel.Step.send _ _ _ _ false _ _ rfl),
    fun begins => nobody (by decide) (by decide) begins.2⟩
  have exclusive := (Channel.returned_is_exclusive reached.used).2.2 ⟨0, 384⟩ _ _ rfl run
  exact ⟨_, _, _, reached.used, rfl, run, by decide, by decide, by decide, exclusive.2.1,
    exclusive.2.2.1⟩

end RankMail

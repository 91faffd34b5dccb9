import RankMail.Proofs.Doorbell.Watch
import RankMail.Proofs.Queue.Order

set_option autoImplicit false

/-! # No ring is lost

A receiver must not sleep for good while something is queued. `Vigilant` is what holds at every
moment of the use of a queue and its doorbell, and it says who is going to wake the receiver:

    parking    a ring has been counted since the count was read, so it will not fall asleep,
               or somebody has appended and not yet counted its ring
    sleeping   somebody has appended and not yet counted its ring, or has counted it and not yet
               looked whether anybody waits, or has seen that somebody does

The waiter looks at the head and then at the tail. What counts is the tail: while the receiver is
not taking anything, the tail is free only if nothing is queued (`Orderly.queue_of_noTail`),
whatever the senders have left undone. So what is queued when it falls asleep was appended after
that look, and after the count was read.
-/

namespace RankMail

variable {Party : Type} [DecidableEq Party] {belfry : Belfry Party} {watch : Watch Party}
  {traffic : Traffic Party} {channel : Channel Party} {queue : List Offset} {party : Party}
  {offset : Offset}

/-- While the receiver is idle and there is no tail, nothing is queued. -/
theorem Orderly.queue_of_noTail (orderly : Orderly channel traffic queue)
    (idle : traffic.receiver = .idle) (noTail : channel.chain.tail traffic.memory = .free) :
    queue = [] := by
  have ends := orderly.ends
  rw [idle, noTail] at ends
  rcases List.eq_nil_or_concat' queue with empty | ⟨front, last, rfl⟩
  · exact empty
  · have free : some last = some Offset.free := by
      rw [Receiver.line, ← List.cons_append, List.getLast?_concat] at ends
      exact ends
    exact absurd (Option.some.inj free) (orderly.proper List.mem_concat_self)

namespace Traffic

/-- Only a sender that arrives adds to what is queued. -/
theorem queued_sent {sender : Sender} {memory : Memory}
    (away : ∀ offset, traffic.senders party ≠ .arriving offset) :
    (traffic.sent party sender memory).queued = traffic.queued := by
  have same : (traffic.sent party sender memory).appended = traffic.appended := by
    cases stands : traffic.senders party with
    | arriving offset => exact absurd stands (away offset)
    | idle => simp only [sent, stands]
    | unlinking offset => simp only [sent, stands]
    | owing previous offset => simp only [sent, stands]
  simp only [queued, same]
  rfl

end Traffic

/-! ## Memory -/

namespace Belfry

omit [DecidableEq Party] in
/-- Steps at the queue do not touch the doorbell. -/
theorem load_of_keeps {before after : Memory}
    (keeps : belfry.channel.chain.Keeps belfry.channel.IsFragment before after) {field : Field}
    (inside : field.distance + field.width ≤ 8) :
    after.load field belfry.bell.block = before.load field belfry.bell.block := by
  have fromQueue := belfry.fromQueue
  refine congrArg LittleEndian.value (keeps _ _ ?_ fun offset fragment => ?_)
  · intro same
    have split := fromQueue same
    simp only [Place.shift, Channel.chain]
    omega
  · intro same
    have split := belfry.fromFragments fragment same.symm
    simp only [Place.shift, Channel.chain, headerSize] at split ⊢
    omega

theorem orderly_store (orderly : Orderly belfry.channel traffic queue) {field : Field}
    (inside : field.distance + field.width ≤ 8) (number : Nat) :
    Orderly belfry.channel
      { traffic with memory := traffic.memory.store field belfry.bell.block number } queue := by
  have fromQueue := belfry.fromQueue
  refine orderly.rewrite (fun offset has => ?_) ?_
  · have apart : Memory.Apart (belfry.channel.chain.linkPlace offset) 8
        (belfry.bell.block.shift field.distance) field.width := by
      rcases has with rfl | fragment
      · intro same
        have split := fromQueue same.symm
        simp only [Chain.linkPlace_free, Channel.chain, Place.shift]
        omega
      · rw [Chain.linkPlace_proper (belfry.channel.proper fragment)]
        intro same
        have split := belfry.fromFragments fragment same
        simp only [Channel.chain, Place.shift, headerSize] at split ⊢
        omega
    rw [Chain.link, Memory.store, Memory.word_setWord_apart apart, Chain.link]
  · have apart : Memory.Apart belfry.channel.chain.tailPlace 8
        (belfry.bell.block.shift field.distance) field.width := by
      intro same
      have split := fromQueue same.symm
      simp only [Chain.tailPlace, Channel.chain, Place.shift, QueueField.tail]
      omega
    rw [Chain.tail, Memory.store, Memory.word_setWord_apart apart, Chain.tail]

end Belfry

/-! ## Who will ring -/

namespace Watch

/-- A sender has appended a fragment and not yet counted its ring. -/
def IsBehind (watch : Watch Party) (party : Party) : Prop :=
  (∃ previous offset, watch.traffic.senders party = .owing previous offset) ∨
    watch.ringers party = .counting

/-- A sender has appended a fragment and is not done with its ring. -/
def WillRing (watch : Watch Party) (party : Party) : Prop :=
  watch.IsBehind party ∨ watch.ringers party = .checking ∨ watch.ringers party = .waking

end Watch

/-- What holds at every moment of the use of a queue and its doorbell. -/
structure Vigilant (belfry : Belfry Party) (watch : Watch Party) : Prop where
  orderly : ∃ queue, Orderly belfry.channel watch.traffic queue
  rings : watch.traffic.memory.load DoorbellField.rings belfry.bell.block = watch.rung % 2 ^ 32
  waiters : watch.traffic.memory.load DoorbellField.waiters belfry.bell.block =
    watch.waiter.enlisted
  /-- Nobody appends while it rings. -/
  ringing : ∀ {party}, watch.ringers party ≠ .quiet → watch.traffic.senders party = .idle
  /-- The receiver takes nothing while it waits. -/
  waiting : watch.waiter ≠ .resting → watch.traffic.receiver = .idle
  noted : ∀ {seen}, watch.waiter.seen? = some seen →
    seen = watch.noted % 2 ^ 32 ∧ watch.noted ≤ watch.rung
  parking : ∀ {seen}, watch.waiter = .parking seen → watch.traffic.queued ≠ [] →
    watch.noted < watch.rung ∨ ∃ party, watch.IsBehind party
  sleeping : watch.waiter = .sleeping → watch.traffic.queued ≠ [] →
    ∃ party, watch.WillRing party

namespace Vigilant

/-! ## Steps of a sender -/

theorem begin (vigilant : Vigilant belfry watch) (idle : watch.traffic.senders party = .idle)
    (quiet : watch.ringers party = .quiet) (fragment : belfry.channel.IsFragment offset)
    (unqueued : offset ∉ watch.traffic.queued) (unsent : ¬watch.traffic.IsSending offset) :
    Vigilant belfry { watch with traffic := watch.traffic.turn party (.unlinking offset) } := by
  have senders : ∀ other, other ≠ party →
      (watch.traffic.turn party (.unlinking offset)).senders other =
        watch.traffic.senders other := by
    intro other differs
    simp only [Traffic.turn, Function.update_apply, if_neg differs]
  have behind : ∀ other, watch.IsBehind other →
      Watch.IsBehind { watch with traffic := watch.traffic.turn party (.unlinking offset) }
        other := by
    intro other owes
    have differs : other ≠ party := by
      rintro rfl
      simp [Watch.IsBehind, idle, quiet] at owes
    simpa only [Watch.IsBehind, senders other differs] using owes
  refine
    { orderly := ?_
      rings := vigilant.rings
      waiters := vigilant.waiters
      ringing := fun {other} rings => ?_
      waiting := vigilant.waiting
      noted := vigilant.noted
      parking := fun stands queued => (vigilant.parking stands queued).imp id (Exists.imp behind)
      sleeping := fun stands queued => (vigilant.sleeping stands queued).imp fun other will =>
        will.imp (behind other) id }
  · obtain ⟨queue, orderly⟩ := vigilant.orderly
    rw [Traffic.queued_eq orderly.history] at unqueued
    exact ⟨queue, orderly.begin idle fragment unqueued unsent⟩
  · have differs : other ≠ party := by
      rintro rfl
      exact rings quiet
    exact (senders other differs).trans (vigilant.ringing rings)

theorem sent_other {sender : Sender} {memory : Memory} {other : Party} (differs : other ≠ party) :
    (watch.sent party sender memory).traffic.senders other = watch.traffic.senders other ∧
      (watch.sent party sender memory).ringers other = watch.ringers other := by
  constructor
  · simp only [Watch.sent, Traffic.sent, Traffic.turn, Function.update_apply, if_neg differs]
  · cases stands : watch.traffic.senders party with
    | owing previous offset =>
        simp only [Watch.sent, stands, Function.update_apply, if_neg differs]
    | _ => simp only [Watch.sent, stands]

/-- Whoever has ringing to do when a sender goes on at the queue still has it to do. -/
theorem ringers_sent (vigilant : Vigilant belfry watch) {sender : Sender} {memory : Memory}
    {other : Party} (rings : watch.ringers other ≠ .quiet) :
    (watch.sent party sender memory).ringers other = watch.ringers other := by
  by_cases same : other = party
  · subst same
    simp only [Watch.sent, vigilant.ringing rings]
  · exact (sent_other same).2

theorem behind_sent (vigilant : Vigilant belfry watch) {sender : Sender} {memory : Memory}
    {other : Party} (behind : watch.IsBehind other) :
    (watch.sent party sender memory).IsBehind other := by
  rcases behind with ⟨previous, offset, owes⟩ | counts
  · by_cases same : other = party
    · subst same
      -- The step is the last one at the queue, and the ring comes next.
      refine .inr ?_
      simp only [Watch.sent, owes, Function.update_self]
    · exact .inl ⟨previous, offset, (sent_other same).1.trans owes⟩
  · exact .inr ((vigilant.ringers_sent (by simp [counts])).trans counts)

theorem willRing_sent (vigilant : Vigilant belfry watch) {sender : Sender} {memory : Memory}
    {other : Party} (will : watch.WillRing other) :
    (watch.sent party sender memory).WillRing other := by
  rcases will with behind | checks | wakes
  · exact .inl (vigilant.behind_sent behind)
  · exact .inr (.inl ((vigilant.ringers_sent (by simp [checks])).trans checks))
  · exact .inr (.inr ((vigilant.ringers_sent (by simp [wakes])).trans wakes))

/-- What is queued after a step of a sender was queued before, or its sender is behind. -/
theorem queued_or_behind {sender : Sender} {memory : Memory}
    (step : (watch.traffic.senders party).advance (belfry.channel.queueOf party)
      watch.traffic.memory = .done sender memory)
    (queued : (watch.sent party sender memory).traffic.queued ≠ []) :
    watch.traffic.queued ≠ [] ∨ (watch.sent party sender memory).IsBehind party := by
  -- Only the exchange of the tail puts something into the queue, and then a link is owed.
  by_cases arrives : ∃ offset, watch.traffic.senders party = .arriving offset
  · obtain ⟨offset, stands⟩ := arrives
    rw [stands, Sender.advance, Action.bind_apply] at step
    simp only [Queue.exchangeTail] at step
    split at step
    · cases step
    · obtain ⟨rfl, _⟩ := Outcome.done.inj step
      refine .inr (.inl ⟨Offset.ofWord (watch.traffic.memory.load QueueField.tail
        (belfry.channel.queueOf party).block), offset, ?_⟩)
      simp only [Watch.sent, Traffic.sent, Traffic.turn, Function.update_self]
  · have same : (watch.sent party sender memory).traffic.queued = watch.traffic.queued :=
      Traffic.queued_sent fun offset stands => arrives ⟨offset, stands⟩
    exact .inl (same ▸ queued)

theorem send (vigilant : Vigilant belfry watch) {sender : Sender} {memory : Memory}
    (step : (watch.traffic.senders party).advance (belfry.channel.queueOf party)
      watch.traffic.memory = .done sender memory) :
    Vigilant belfry (watch.sent party sender memory) := by
  obtain ⟨queue, orderly⟩ := vigilant.orderly
  -- Steps at the queue leave the words of the doorbell as they are.
  obtain ⟨next, changed, rest, done, kept, keeps⟩ := orderly.sender_step party
  obtain ⟨rfl, rfl⟩ := Outcome.done.inj (step.symm.trans done)
  refine
    { orderly := ⟨rest, kept⟩
      rings := (belfry.load_of_keeps keeps (by decide)).trans vigilant.rings
      waiters := (belfry.load_of_keeps keeps (by decide)).trans vigilant.waiters
      ringing := fun {other} rings => ?_
      waiting := vigilant.waiting
      noted := vigilant.noted
      parking := fun stands queued => ?_
      sleeping := fun stands queued => ?_ }
  · by_cases same : other = party
    · subst same
      cases stands : watch.traffic.senders other with
      | idle =>
          rw [stands] at step
          obtain ⟨rfl, _⟩ := Outcome.done.inj step
          simp only [Watch.sent, Traffic.sent, Traffic.turn, Function.update_self]
      | owing previous offset =>
          have ends : sender = .idle := by
            rw [stands, Sender.advance, Action.bind_apply] at step
            split at step
            · exact (Outcome.done.inj step).1.symm
            all_goals cases step
          simp only [Watch.sent, Traffic.sent, Traffic.turn, Function.update_self, ends]
      | unlinking offset =>
          simp only [Watch.sent, stands] at rings
          exact absurd (vigilant.ringing rings) (by simp [stands])
      | arriving offset =>
          simp only [Watch.sent, stands] at rings
          exact absurd (vigilant.ringing rings) (by simp [stands])
    · obtain ⟨senders, ringers⟩ := @sent_other _ _ watch _ sender memory _ same
      exact senders.trans (vigilant.ringing (ringers ▸ rings))
  · rcases queued_or_behind step queued with before | behind
    · exact (vigilant.parking stands before).imp id (Exists.imp fun other => vigilant.behind_sent)
    · exact .inr ⟨party, behind⟩
  · rcases queued_or_behind step queued with before | behind
    · exact (vigilant.sleeping stands before).imp fun other => vigilant.willRing_sent
    · exact ⟨party, .inl behind⟩

/-! ## Steps of a ringer -/

theorem rang_other {ringer : Ringer} {memory : Memory} {other : Party} (differs : other ≠ party) :
    (watch.rang party ringer memory).ringers other = watch.ringers other := by
  simp only [Watch.rang, Function.update_apply, if_neg differs]

theorem rang_self {ringer : Ringer} {memory : Memory} :
    (watch.rang party ringer memory).ringers party = ringer := by
  simp only [Watch.rang, Function.update_self]

/-- Whoever is behind stays behind while another sender rings, or one that has counted its ring. -/
theorem behind_rang {ringer : Ringer} {memory : Memory} {other : Party}
    (counted : watch.ringers party ≠ .counting) (behind : watch.IsBehind other) :
    (watch.rang party ringer memory).IsBehind other := by
  rcases behind with owes | counts
  · exact .inl owes
  · refine .inr ((rang_other ?_).trans counts)
    rintro rfl
    exact counted counts

theorem ringing_rang (vigilant : Vigilant belfry watch) (rings : watch.ringers party ≠ .quiet)
    {ringer : Ringer} {memory : Memory} {other : Party}
    (still : (watch.rang party ringer memory).ringers other ≠ .quiet) :
    watch.traffic.senders other = .idle := by
  by_cases same : other = party
  · exact same ▸ vigilant.ringing rings
  · exact vigilant.ringing (rang_other same ▸ still)

theorem count (vigilant : Vigilant belfry watch) (stands : watch.ringers party = .counting) :
    Vigilant belfry (watch.rang party .checking
      (watch.traffic.memory.store DoorbellField.rings belfry.bell.block
        (watch.traffic.memory.load DoorbellField.rings belfry.bell.block + 1))) := by
  obtain ⟨queue, orderly⟩ := vigilant.orderly
  have rung : (watch.rang party .checking
      (watch.traffic.memory.store DoorbellField.rings belfry.bell.block
        (watch.traffic.memory.load DoorbellField.rings belfry.bell.block + 1))).rung =
      watch.rung + 1 := by
    simp only [Watch.rang, stands, if_true]
  have waiter : (watch.rang party .checking
      (watch.traffic.memory.store DoorbellField.rings belfry.bell.block
        (watch.traffic.memory.load DoorbellField.rings belfry.bell.block + 1))).waiter =
      watch.waiter := by
    simp only [Watch.rang, stands, reduceCtorEq, if_false]
  refine
    { orderly := ⟨queue, belfry.orderly_store orderly (by decide) _⟩
      rings := ?_
      waiters := ?_
      ringing := vigilant.ringing_rang (by simp [stands])
      waiting := ?_
      noted := ?_
      parking := ?_
      sleeping := fun _ _ => ⟨party, .inr (.inl rang_self)⟩ }
  · rw [rung]
    refine (Memory.load_store_same ..).trans ?_
    rw [vigilant.rings]
    exact Nat.mod_add_mod ..
  · rw [waiter, ← vigilant.waiters]
    refine Memory.load_store_apart (fun _ => .inr ?_) _ _
    simp only [Place.shift, DoorbellField.rings, DoorbellField.waiters]
    omega
  · rw [waiter]
    exact vigilant.waiting
  · rw [waiter, rung]
    intro seen stands
    have noted := vigilant.noted stands
    exact ⟨noted.1, Nat.le_succ_of_le noted.2⟩
  · rw [waiter, rung]
    intro seen stands _
    -- The count has gone up since it was noted, so the waiter will not fall asleep.
    have noted := vigilant.noted (by rw [stands]; rfl)
    exact .inl (Nat.lt_succ_of_le noted.2)

/-- The sender looks whether anybody waits, and the sleeper is seen. -/
theorem check (vigilant : Vigilant belfry watch) (stands : watch.ringers party = .checking) :
    Vigilant belfry (watch.rang party
      (if 0 < watch.traffic.memory.load DoorbellField.waiters belfry.bell.block then .waking
        else .quiet) watch.traffic.memory) := by
  generalize next : (if 0 < watch.traffic.memory.load DoorbellField.waiters belfry.bell.block
    then Ringer.waking else .quiet) = ringer
  have rung : (watch.rang party ringer watch.traffic.memory).rung = watch.rung := by
    simp only [Watch.rang, stands, reduceCtorEq, if_false]
  have waiter : (watch.rang party ringer watch.traffic.memory).waiter = watch.waiter := by
    simp only [Watch.rang, stands, reduceCtorEq, if_false]
  have counted : watch.ringers party ≠ .counting := by simp [stands]
  refine
    { orderly := vigilant.orderly
      rings := by rw [rung]; exact vigilant.rings
      waiters := by rw [waiter]; exact vigilant.waiters
      ringing := vigilant.ringing_rang (by simp [stands])
      waiting := by rw [waiter]; exact vigilant.waiting
      noted := by rw [waiter, rung]; exact vigilant.noted
      parking := ?_
      sleeping := ?_ }
  · rw [waiter, rung]
    intro seen parks queued
    exact (vigilant.parking parks queued).imp id (Exists.imp fun other => behind_rang counted)
  · rw [waiter]
    intro asleep queued
    obtain ⟨other, will⟩ := vigilant.sleeping asleep queued
    by_cases same : other = party
    · have one := vigilant.waiters
      rw [asleep] at one
      rw [one, if_pos (by decide)] at next
      exact ⟨party, .inr (.inr (rang_self.trans next.symm))⟩
    · refine ⟨other, will.imp (behind_rang counted) fun busy => ?_⟩
      rwa [rang_other same]

/-- The sleeper, if there is one, gets up. -/
theorem rouse (vigilant : Vigilant belfry watch) (stands : watch.ringers party = .waking) :
    Vigilant belfry (watch.rang party .quiet watch.traffic.memory) := by
  have rung : (watch.rang party .quiet watch.traffic.memory).rung = watch.rung := by
    simp only [Watch.rang, stands, reduceCtorEq, if_false]
  have waiter : (watch.rang party .quiet watch.traffic.memory).waiter = watch.waiter.wake := by
    simp only [Watch.rang, stands, if_true]
  have enlisted : watch.waiter.wake.enlisted = watch.waiter.enlisted := by
    cases watch.waiter <;> rfl
  refine
    { orderly := vigilant.orderly
      rings := by rw [rung]; exact vigilant.rings
      waiters := by rw [waiter, enlisted]; exact vigilant.waiters
      ringing := vigilant.ringing_rang (by simp [stands])
      waiting := ?_
      noted := ?_
      parking := ?_
      sleeping := ?_ }
  · rw [waiter]
    intro busy
    refine vigilant.waiting fun resting => busy ?_
    rw [resting]
    rfl
  · rw [waiter, rung]
    intro seen holds
    refine vigilant.noted ?_
    cases stage : watch.waiter <;> simp_all [Waiter.wake, Waiter.seen?]
  · rw [waiter, rung]
    intro seen parks queued
    have before : watch.waiter = .parking seen := by
      cases stage : watch.waiter <;> simp_all [Waiter.wake]
    have counted : watch.ringers party ≠ .counting := by simp [stands]
    exact (vigilant.parking before queued).imp id (Exists.imp fun other => behind_rang counted)
  · rw [waiter]
    intro asleep
    cases stage : watch.waiter <;> simp_all [Waiter.wake]

theorem ring (vigilant : Vigilant belfry watch) {ringer : Ringer} {memory : Memory}
    (step : (watch.ringers party).advance belfry.bell watch.traffic.memory =
      .done ringer memory) :
    Vigilant belfry (watch.rang party ringer memory) := by
  cases stands : watch.ringers party with
  | quiet =>
      rw [stands] at step
      obtain ⟨rfl, rfl⟩ := Outcome.done.inj step
      have same : watch.rang party .quiet watch.traffic.memory = watch := by
        simp only [Watch.rang, stands, reduceCtorEq, if_false]
        rw [← stands, Function.update_eq_self]
      rwa [same]
  | counting =>
      rw [stands] at step
      obtain ⟨rfl, rfl⟩ := Outcome.done.inj step
      exact vigilant.count stands
  | checking =>
      rw [stands] at step
      obtain ⟨rfl, rfl⟩ := Outcome.done.inj step
      exact vigilant.check stands
  | waking =>
      rw [stands] at step
      obtain ⟨rfl, rfl⟩ := Outcome.done.inj step
      exact vigilant.rouse stands

/-! ## Steps of the receiver -/

/-- What the receiver does while it does not wait does not concern the doorbell. -/
theorem receive (vigilant : Vigilant belfry watch) (resting : watch.waiter = .resting)
    {turn : Turn} {memory : Memory}
    (step : watch.traffic.receiver.advance belfry.channel.ownQueue watch.traffic.memory =
      .done turn memory) :
    Vigilant belfry { watch with traffic := watch.traffic.received turn memory } := by
  obtain ⟨queue, orderly⟩ := vigilant.orderly
  obtain ⟨next, changed, rest, done, kept, keeps⟩ := orderly.receiver_step
  obtain ⟨rfl, rfl⟩ := Outcome.done.inj (step.symm.trans done)
  have senders : (watch.traffic.received turn memory).senders = watch.traffic.senders := by
    cases turn <;> rfl
  have now : (watch.traffic.received turn memory).memory = memory := by cases turn <;> rfl
  refine
    { orderly := ⟨rest, kept⟩
      rings := ?_
      waiters := ?_
      ringing := fun rings => by rw [senders]; exact vigilant.ringing rings
      waiting := fun busy => absurd resting busy
      noted := fun {seen} stands => by simp [resting, Waiter.seen?] at stands
      parking := fun {seen} stands => by simp [resting] at stands
      sleeping := fun stands => by simp [resting] at stands }
  · rw [now, belfry.load_of_keeps keeps (by decide)]
    exact vigilant.rings
  · rw [now, belfry.load_of_keeps keeps (by decide)]
    exact vigilant.waiters

theorem wait (vigilant : Vigilant belfry watch) (resting : watch.waiter = .resting)
    (idle : watch.traffic.receiver = .idle) :
    Vigilant belfry { watch with waiter := .enlisting } where
  orderly := vigilant.orderly
  rings := vigilant.rings
  waiters := by
    have none := vigilant.waiters
    rwa [resting] at none
  ringing := vigilant.ringing
  waiting _ := idle
  noted stands := nomatch stands
  parking stands := nomatch stands
  sleeping stands := nomatch stands

/-- A sleeper gets up for no reason. -/
theorem stir (vigilant : Vigilant belfry watch) (asleep : watch.waiter = .sleeping) :
    Vigilant belfry { watch with waiter := .leaving } where
  orderly := vigilant.orderly
  rings := vigilant.rings
  waiters := by
    have one := vigilant.waiters
    rwa [asleep] at one
  ringing := vigilant.ringing
  waiting _ := vigilant.waiting (by simp [asleep])
  noted stands := nomatch stands
  parking stands := nomatch stands
  sleeping stands := nomatch stands

/-- The waiter looks at something and goes on with the same count, or with none. -/
theorem proceed (vigilant : Vigilant belfry watch) {waiter : Waiter}
    (busy : watch.waiter ≠ .resting) (noting : watch.waiter ≠ .reading)
    (enlisted : waiter.enlisted = watch.waiter.enlisted)
    (seen : ∀ {seen}, waiter.seen? = some seen → watch.waiter.seen? = some seen)
    (parking : ∀ {seen}, waiter = .parking seen → watch.traffic.queued ≠ [] →
      watch.noted < watch.rung ∨ ∃ party, watch.IsBehind party)
    (sleeping : waiter = .sleeping → watch.traffic.queued ≠ [] →
      ∃ party, watch.WillRing party) :
    Vigilant belfry (watch.waited waiter watch.traffic.memory) := by
  have noted : (watch.waited waiter watch.traffic.memory).noted = watch.noted := by
    simp only [Watch.waited, if_neg noting]
  exact
    { orderly := vigilant.orderly
      rings := vigilant.rings
      waiters := vigilant.waiters.trans enlisted.symm
      ringing := vigilant.ringing
      waiting := fun _ => vigilant.waiting busy
      noted := fun stands => by rw [noted]; exact vigilant.noted (seen stands)
      parking := fun stands queued => by rw [noted]; exact parking stands queued
      sleeping := sleeping }

/-- The waiter counts itself among those who wait, or counts itself off. -/
theorem recount (vigilant : Vigilant belfry watch) {waiter : Waiter} {number : Nat}
    (enlisted : number % 256 ^ 4 = waiter.enlisted)
    (idle : waiter ≠ .resting → watch.traffic.receiver = .idle)
    (seen : waiter.seen? = none) (awake : waiter ≠ .sleeping) :
    Vigilant belfry (watch.waited waiter
      (watch.traffic.memory.store DoorbellField.waiters belfry.bell.block number)) := by
  obtain ⟨queue, orderly⟩ := vigilant.orderly
  refine
    { orderly := ⟨queue, belfry.orderly_store orderly (by decide) _⟩
      rings := ?_
      waiters := (Memory.load_store_same ..).trans enlisted
      ringing := vigilant.ringing
      waiting := idle
      noted := fun stands => absurd (seen.symm.trans stands) (by simp)
      parking := ?_
      sleeping := fun stands => absurd stands awake }
  · refine Eq.trans (Memory.load_store_apart (fun _ => .inl ?_) _ _) vigilant.rings
    simp only [Place.shift, DoorbellField.rings, DoorbellField.waiters]
    omega
  · rintro count rfl
    cases seen

theorem note (vigilant : Vigilant belfry watch) (stands : watch.waiter = .reading) :
    Vigilant belfry (watch.waited
      (.facing (watch.traffic.memory.load DoorbellField.rings belfry.bell.block))
      watch.traffic.memory) := by
  refine
    { orderly := vigilant.orderly
      rings := vigilant.rings
      waiters := vigilant.waiters.trans (by rw [stands]; rfl)
      ringing := vigilant.ringing
      waiting := fun _ => vigilant.waiting (by simp [stands])
      noted := ?_
      parking := fun stands => nomatch stands
      sleeping := fun stands => nomatch stands }
  rintro seen same
  obtain rfl := Option.some.inj same
  simp only [Watch.waited, if_pos stands]
  exact ⟨vigilant.rings, Nat.le_refl _⟩

/-- Who falls asleep has read the true number of rings, so whoever had counted a ring since is
none, and what is queued by now belongs to somebody who still has to count. -/
theorem fallAsleep (vigilant : Vigilant belfry watch) {seen : Nat}
    (stands : watch.waiter = .parking seen) (soon : watch.rung < watch.noted + 2 ^ 32)
    (same : watch.traffic.memory.load DoorbellField.rings belfry.bell.block = seen)
    (queued : watch.traffic.queued ≠ []) : ∃ party, watch.WillRing party := by
  have noted := vigilant.noted (show watch.waiter.seen? = some seen by rw [stands]; rfl)
  have rings := vigilant.rings
  rcases vigilant.parking stands queued with more | ⟨party, behind⟩
  · -- Fewer rings have been counted than would bring the word back to what was read.
    omega
  · exact ⟨party, .inl behind⟩

theorem waiterStep (vigilant : Vigilant belfry watch) {waiter : Waiter} {memory : Memory}
    (soon : ∀ seen, watch.waiter = .parking seen → watch.rung < watch.noted + 2 ^ 32)
    (step : watch.waiter.advance belfry.bell belfry.channel.ownQueue watch.traffic.memory =
      .done waiter memory) :
    Vigilant belfry (watch.waited waiter memory) := by
  have waiters := vigilant.waiters
  -- One case for each stage of the waiter; only three of them say anything of the queue.
  cases stands : watch.waiter with
  | resting =>
      rw [stands] at step
      obtain ⟨rfl, rfl⟩ := Outcome.done.inj step
      have same : watch.waited .resting watch.traffic.memory = watch := by
        simp only [Watch.waited, stands, reduceCtorEq, if_false]
        rw [← stands]
      rwa [same]
  | enlisting =>
      rw [stands] at step waiters
      obtain ⟨rfl, rfl⟩ := Outcome.done.inj step
      refine vigilant.recount ?_ (fun _ => vigilant.waiting (by simp [stands])) rfl (by simp)
      rw [waiters]
      rfl
  | reading =>
      rw [stands] at step
      obtain ⟨rfl, rfl⟩ := Outcome.done.inj step
      exact vigilant.note stands
  | facing seen =>
      rw [stands] at step
      obtain ⟨rfl, rfl⟩ := Outcome.done.inj step
      split
      · exact vigilant.proceed (by simp [stands]) (by simp [stands]) (by rw [stands]; rfl)
          (fun same => by rw [stands]; exact same) (fun same => nomatch same)
          (fun same => nomatch same)
      · exact vigilant.proceed (by simp [stands]) (by simp [stands]) (by rw [stands]; rfl)
          (fun same => nomatch same) (fun same => nomatch same) (fun same => nomatch same)
  | backing seen =>
      rw [stands] at step
      obtain ⟨rfl, rfl⟩ := Outcome.done.inj step
      split
      · next free =>
        -- There is no tail, so nothing is queued at this moment.
        obtain ⟨queue, orderly⟩ := vigilant.orderly
        have idle := vigilant.waiting (by simp [stands])
        have noTail : belfry.channel.chain.tail watch.traffic.memory = .free :=
          Offset.isFree_iff.mp free
        have empty : watch.traffic.queued = [] :=
          (Traffic.queued_eq orderly.history).trans (orderly.queue_of_noTail idle noTail)
        exact vigilant.proceed (by simp [stands]) (by simp [stands]) (by rw [stands]; rfl)
          (fun same => by rw [stands]; exact same) (fun _ queued => absurd empty queued)
          (fun same => nomatch same)
      · exact vigilant.proceed (by simp [stands]) (by simp [stands]) (by rw [stands]; rfl)
          (fun same => nomatch same) (fun same => nomatch same) (fun same => nomatch same)
  | parking seen =>
      rw [stands] at step
      obtain ⟨rfl, rfl⟩ := Outcome.done.inj step
      split
      · next same =>
        exact vigilant.proceed (by simp [stands]) (by simp [stands]) (by rw [stands]; rfl)
          (fun same => nomatch same) (fun same => nomatch same)
          (fun _ => vigilant.fallAsleep stands (soon seen stands) same)
      · exact vigilant.proceed (by simp [stands]) (by simp [stands]) (by rw [stands]; rfl)
          (fun same => nomatch same) (fun same => nomatch same) (fun same => nomatch same)
  | sleeping =>
      rw [stands] at step
      obtain ⟨rfl, rfl⟩ := Outcome.done.inj step
      exact vigilant.proceed (by simp [stands]) (by simp [stands]) (by rw [stands])
        (fun same => nomatch same) (fun same => nomatch same)
        (fun _ => vigilant.sleeping stands)
  | leaving =>
      rw [stands] at step waiters
      obtain ⟨rfl, rfl⟩ := Outcome.done.inj step
      refine vigilant.recount ?_ (fun busy => absurd rfl busy) rfl (by simp)
      rw [waiters]
      rfl

theorem step {after : Watch Party} (vigilant : Vigilant belfry watch)
    (step : belfry.Step watch after) : Vigilant belfry after := by
  cases step with
  | begin idle quiet fragment unqueued unsent =>
      exact vigilant.begin idle quiet fragment unqueued unsent
  | send step => exact vigilant.send step
  | ring step => exact vigilant.ring step
  | receive resting step => exact vigilant.receive resting step
  | wait resting idle => exact vigilant.wait resting idle
  | watch soon step => exact vigilant.waiterStep soon step
  | stir asleep => exact vigilant.stir asleep

end Vigilant

/-! ## No ring is lost -/

theorem Belfry.Reached.vigilant (reached : belfry.Reached watch) : Vigilant belfry watch := by
  induction reached with
  | start noHead noTail noRings noWaiters =>
      exact
        { orderly := ⟨[], .start noHead noTail⟩
          rings := noRings
          waiters := noWaiters
          ringing := fun _ => rfl
          waiting := fun busy => absurd rfl busy
          noted := fun stands => nomatch stands
          parking := fun stands => nomatch stands
          sleeping := fun stands => nomatch stands }
  | step _ step ih => exact ih.step step

/-- **No wake-up is lost.** However the steps of the senders and the receiver come, while the
receiver sleeps and something is queued, some sender that has appended has not come to the end of
its ring. And at every moment the count of those who wait is their number, so it never falls below
zero. -/
theorem Belfry.wakes_of_queued (reached : belfry.Reached watch) :
    ¬(watch.waiter = .sleeping ∧ watch.traffic.queued ≠ [] ∧
      ∀ party, watch.traffic.senders party = .idle ∧ watch.ringers party = .quiet) ∧
    (watch.waiter = .sleeping → watch.traffic.queued ≠ [] → ∃ party, watch.WillRing party) ∧
    watch.traffic.memory.load DoorbellField.waiters belfry.bell.block = watch.waiter.enlisted ∧
    (watch.waiter = .leaving →
      1 ≤ watch.traffic.memory.load DoorbellField.waiters belfry.bell.block) := by
  have vigilant := reached.vigilant
  refine ⟨?_, vigilant.sleeping, vigilant.waiters, fun leaves => ?_⟩
  · rintro ⟨asleep, queued, done⟩
    obtain ⟨party, will⟩ := vigilant.sleeping asleep queued
    obtain ⟨idle, quiet⟩ := done party
    simp [Watch.WillRing, Watch.IsBehind, idle, quiet] at will
  · rw [vigilant.waiters, leaves]
    exact Nat.le_refl 1

/-- Two senders with a queue and a doorbell in the file of the first rank. -/
def twoRingers : Belfry Bool where
  channel := twoSenders
  bell := ⟨⟨0, 256⟩⟩
  fromQueue _ := .inr (by decide)
  fromFragments fragment _ := .inr (Nat.le_trans (by decide) fragment.2)

/-- The receiver looks at the empty queue, a sender makes its fragment the tail and stands still,
and the receiver falls asleep: the sender will ring. -/
theorem wakes_of_queued_gap : ∃ watch : Watch Bool, twoRingers.Reached watch ∧
    watch.waiter = .sleeping ∧ watch.traffic.queued = [⟨1, 448⟩] ∧
    (∃ party, watch.WillRing party) ∧
    watch.traffic.memory.load DoorbellField.waiters twoRingers.bell.block = 1 := by
  have fragment : twoRingers.channel.IsFragment ⟨1, 448⟩ := ⟨⟨_, rfl, rfl, by decide⟩, by decide⟩
  have reached := @Belfry.Reached.start _ _ twoRingers quiet (by decide) (by decide) (by decide)
    (by decide)
  have reached := reached.step (.wait rfl rfl)
  have reached := reached.step (@Belfry.Step.watch _ _ _ _ _ _ (fun _ stands => nomatch stands) rfl)
  have reached := reached.step (@Belfry.Step.watch _ _ _ _ _ _ (fun _ stands => nomatch stands) rfl)
  have reached := reached.step (@Belfry.Step.watch _ _ _ _ _ _ (fun _ stands => nomatch stands) rfl)
  have reached := reached.step (@Belfry.Step.watch _ _ _ _ _ _ (fun _ stands => nomatch stands) rfl)
  have reached := reached.step (@Belfry.Step.begin _ _ _ _ true _ rfl rfl fragment (by decide)
    (by rintro ⟨party, sends⟩; cases party <;> cases sends))
  have reached := reached.step (@Belfry.Step.send _ _ _ _ true _ _ rfl)
  have reached := reached.step (@Belfry.Step.send _ _ _ _ true _ _ rfl)
  have reached := reached.step (@Belfry.Step.watch _ _ _ _ _ _ (fun _ _ => by decide) rfl)
  -- The waiter has fallen asleep behind a tail that was set after its last look.
  have kept := Belfry.wakes_of_queued reached
  exact ⟨_, reached, rfl, rfl, kept.2.1 rfl (by decide), kept.2.2.1⟩

end RankMail

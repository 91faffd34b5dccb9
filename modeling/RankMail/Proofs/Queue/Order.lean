import RankMail.Proofs.Queue.Strung
import RankMail.Proofs.Queue.Traffic

set_option autoImplicit false

/-! # The order of a queue

`Orderly` is what holds at every moment of the use of a queue. It says how the words of the queue
hold the fragments that have become the tail and have not been taken: they form a line that is
`Strung`, broken exactly where a sender owes a link, and the last of them is the tail. The line
begins with the head, unless the receiver has just taken the head away.

Every step of every party keeps it, so it holds at every moment that is reached
(`Channel.Reached.orderly`). From it follows that fragments are taken in the order in which they
became the tail, whatever the order of the steps.
-/

namespace RankMail

/-- The line of the queued fragments; the mark `free` in front of it stands for the head. -/
def Receiver.line : Receiver → List Offset → List Offset
  | idle, queue => .free :: queue
  | _, queue => queue

/-- What the receiver is about to do goes with the queue. -/
def Receiver.Fits (owed : Offset → Offset → Prop) (queue : List Offset) : Receiver → Prop
  | idle => True
  | reading first => ∃ rest, queue = first :: rest
  | releasing first => ∃ rest, queue = first :: rest
  | awaiting first => ∃ next rest, queue = first :: next :: rest
  | passing first next => ¬owed first next ∧ ∃ rest, queue = first :: next :: rest

def Sender.Fits (link : Offset → Offset) (line : List Offset) : Sender → Prop
  | idle => True
  | unlinking offset => offset ∉ line
  | arriving offset => offset ∉ line ∧ link offset = .free
  | owing previous offset => Adjacent previous offset line

/-- A sender goes with another line if nothing has changed that it relies on: what is outside the
line, its link, and what it owes. -/
theorem Sender.Fits.move {link relinked : Offset → Offset} {line moved : List Offset}
    {sender : Sender} (fits : sender.Fits link line)
    (outside : ∀ offset, sender.fragment? = some offset → offset ∉ line → offset ∉ moved)
    (links : ∀ offset, sender.fragment? = some offset → offset ∉ line →
      relinked offset = link offset)
    (debts : ∀ previous offset, sender = .owing previous offset → Adjacent previous offset line →
      Adjacent previous offset moved) :
    sender.Fits relinked moved := by
  cases sender with
  | idle => trivial
  | unlinking offset => exact outside offset rfl fits
  | arriving offset => exact ⟨outside offset rfl fits.1, (links offset rfl fits.1).trans fits.2⟩
  | owing previous offset => exact debts previous offset rfl fits

/-- The receiver goes with a queue that has grown, if no new debt concerns what was queued. -/
theorem Receiver.Fits.grow {owed owing : Offset → Offset → Prop} {queue : List Offset}
    {receiver : Receiver} (fits : receiver.Fits owed queue) (more : List Offset)
    (old : ∀ before after, owing before after → after ∈ queue → owed before after) :
    receiver.Fits owing (queue ++ more) := by
  cases receiver with
  | idle => trivial
  | reading first =>
      obtain ⟨rest, rfl⟩ := fits
      exact ⟨rest ++ more, rfl⟩
  | releasing first =>
      obtain ⟨rest, rfl⟩ := fits
      exact ⟨rest ++ more, rfl⟩
  | awaiting first =>
      obtain ⟨next, rest, rfl⟩ := fits
      exact ⟨next, rest ++ more, rfl⟩
  | passing first next =>
      obtain ⟨paid, rest, rfl⟩ := fits
      exact ⟨fun owes => paid (old first next owes (by simp)), rest ++ more, rfl⟩

/-- The words of a queue hold the fragments that are queued. -/
structure Orderly {Party : Type} [DecidableEq Party] (channel : Channel Party)
    (traffic : Traffic Party) (queue : List Offset) : Prop where
  history : traffic.appended.map Prod.snd = traffic.taken ++ queue
  fragments : ∀ offset ∈ queue, channel.IsFragment offset
  nodup : queue.Nodup
  ends : (traffic.receiver.line queue).getLast? = some (channel.chain.tail traffic.memory)
  strung : Strung (channel.chain.link traffic.memory) traffic.Owes (traffic.receiver.line queue)
  receiver : traffic.receiver.Fits traffic.Owes queue
  /-- While the receiver is taking a fragment there is no head. -/
  headless : traffic.receiver ≠ .idle → channel.chain.link traffic.memory .free = .free
  senders : ∀ party, (traffic.senders party).Fits (channel.chain.link traffic.memory)
    (traffic.receiver.line queue)
  sending : ∀ {party offset}, (traffic.senders party).fragment? = some offset →
    channel.IsFragment offset
  /-- No two senders append the same fragment. -/
  alone : ∀ {party other offset}, (traffic.senders party).fragment? = some offset →
    (traffic.senders other).fragment? = some offset → party = other

variable {Party : Type} [DecidableEq Party] {channel : Channel Party} {traffic : Traffic Party}
  {queue : List Offset} {party : Party} {offset previous first next : Offset}

namespace Traffic

omit [DecidableEq Party] in
theorem queued_eq (history : traffic.appended.map Prod.snd = traffic.taken ++ queue) :
    traffic.queued = queue := by
  rw [queued, history, List.drop_left]

theorem fragment?_turn (traffic : Traffic Party) (party other : Party) (sender : Sender) :
    ((traffic.turn party sender).senders other).fragment? =
      if other = party then sender.fragment? else (traffic.senders other).fragment? := by
  simp only [turn, Function.update_apply]
  split <;> rfl

theorem owes_turn {sender : Sender} :
    (traffic.turn party sender).Owes previous offset ↔ sender = .owing previous offset ∨
      ∃ other, other ≠ party ∧ traffic.senders other = .owing previous offset := by
  constructor
  · rintro ⟨other, owes⟩
    simp only [turn, Function.update_apply] at owes
    split at owes
    · exact .inl owes
    · next differs => exact .inr ⟨other, differs, owes⟩
  · rintro (rfl | ⟨other, differs, owes⟩)
    · exact ⟨party, by simp [turn]⟩
    · exact ⟨other, by simpa only [turn, Function.update_apply, if_neg differs] using owes⟩

/-- Who has owed nothing before adds at most a debt of its own. -/
theorem owes_turn_of_clear {sender : Sender}
    (clear : ∀ previous offset, traffic.senders party ≠ .owing previous offset) :
    (traffic.turn party sender).Owes previous offset ↔
      traffic.Owes previous offset ∨ sender = .owing previous offset := by
  rw [owes_turn, or_comm]
  refine or_congr_left ⟨fun ⟨other, _, owes⟩ => ⟨other, owes⟩, fun ⟨other, owes⟩ => ?_⟩
  exact ⟨other, fun same => clear previous offset (same ▸ owes), owes⟩

theorem owes_turn_same {sender : Sender}
    (clear : ∀ previous offset, traffic.senders party ≠ .owing previous offset)
    (still : ∀ previous offset, sender ≠ .owing previous offset) :
    (traffic.turn party sender).Owes = traffic.Owes := by
  funext previous offset
  exact propext ((owes_turn_of_clear clear).trans (or_iff_left (still previous offset)))

theorem sent_idle (stands : traffic.senders party = .idle) :
    traffic.sent party .idle traffic.memory = traffic := by
  simp only [sent, turn, stands]
  rw [← stands, Function.update_eq_self]

end Traffic

/-! ## The line of a receiver -/

namespace Receiver

theorem line_append (receiver : Receiver) (queue : List Offset) (offset : Offset) :
    receiver.line (queue ++ [offset]) = receiver.line queue ++ [offset] := by
  cases receiver <;> rfl

theorem subset_line (receiver : Receiver) (queue : List Offset) : queue ⊆ receiver.line queue := by
  cases receiver <;> simp [line]

theorem mem_line {receiver : Receiver} (inside : offset ∈ receiver.line queue) :
    offset = .free ∨ offset ∈ queue := by
  cases receiver <;> simp_all [line]

theorem notMem_line {receiver : Receiver} (proper : offset ≠ .free) (unqueued : offset ∉ queue) :
    offset ∉ receiver.line queue := fun inside =>
  (mem_line inside).elim proper unqueued

theorem line_of_busy {receiver : Receiver} (busy : receiver ≠ .idle) :
    receiver.line queue = queue := by
  cases receiver <;> simp_all [line]

end Receiver

namespace Orderly

theorem proper (orderly : Orderly channel traffic queue) (inside : offset ∈ queue) :
    offset ≠ .free := channel.proper (orderly.fragments offset inside)

theorem hasLink (orderly : Orderly channel traffic queue)
    (inside : offset ∈ traffic.receiver.line queue) :
    Chain.HasLink channel.IsFragment offset :=
  (Receiver.mem_line inside).imp id (orderly.fragments offset)

theorem hasLink_used (orderly : Orderly channel traffic queue)
    (used : offset ∈ .free :: queue ∨ traffic.IsSending offset) :
    Chain.HasLink channel.IsFragment offset := by
  rcases used with inside | ⟨party, carries⟩
  · exact (List.mem_cons.mp inside).imp id (orderly.fragments offset)
  · exact .inr (orderly.sending carries)

theorem nodup_line (orderly : Orderly channel traffic queue) :
    (traffic.receiver.line queue).Nodup := by
  by_cases idle : traffic.receiver = .idle
  · rw [idle]
    exact List.nodup_cons.mpr ⟨fun inside => orderly.proper inside rfl, orderly.nodup⟩
  · rw [Receiver.line_of_busy idle]
    exact orderly.nodup

theorem owing (orderly : Orderly channel traffic queue) (owes : traffic.Owes previous offset) :
    Adjacent previous offset (traffic.receiver.line queue) := by
  obtain ⟨party, owes⟩ := owes
  have fits := orderly.senders party
  rwa [owes] at fits

/-! ## Steps of a sender -/

theorem begin (orderly : Orderly channel traffic queue) (idle : traffic.senders party = .idle)
    (fragment : channel.IsFragment offset) (unqueued : offset ∉ queue)
    (unsent : ¬traffic.IsSending offset) :
    Orderly channel (traffic.turn party (.unlinking offset)) queue := by
  have owes : (traffic.turn party (.unlinking offset)).Owes = traffic.Owes :=
    Traffic.owes_turn_same (by simp [idle]) (by simp)
  refine
    { history := orderly.history
      fragments := orderly.fragments
      nodup := orderly.nodup
      ends := orderly.ends
      strung := by rw [owes]; exact orderly.strung
      receiver := by rw [owes]; exact orderly.receiver
      headless := orderly.headless
      senders := ?_
      sending := ?_
      alone := ?_ }
  · intro other
    by_cases same : other = party
    · simp only [Traffic.turn, Function.update_apply, if_pos same]
      exact Receiver.notMem_line (channel.proper fragment) unqueued
    · simp only [Traffic.turn, Function.update_apply, if_neg same]
      exact orderly.senders other
  · intro other target carries
    rw [Traffic.fragment?_turn] at carries
    split at carries
    · obtain rfl : offset = target := Option.some.inj carries
      exact fragment
    · exact orderly.sending carries
  · intro one two target carriesOne carriesTwo
    rw [Traffic.fragment?_turn] at carriesOne carriesTwo
    split at carriesOne <;> split at carriesTwo
    · next same also => exact same.trans also.symm
    · obtain rfl : offset = target := Option.some.inj carriesOne
      exact absurd ⟨two, carriesTwo⟩ unsent
    · obtain rfl : offset = target := Option.some.inj carriesTwo
      exact absurd ⟨one, carriesOne⟩ unsent
    · exact orderly.alone carriesOne carriesTwo

/-- The fragments that are being appended stay the same when a sender goes on with its own or is
done with it. -/
theorem carries_turn {sender : Sender}
    (same : sender.fragment? = none ∨ sender.fragment? = (traffic.senders party).fragment?)
    {other : Party}
    (carries : ((traffic.turn party sender).senders other).fragment? = some offset) :
    (traffic.senders other).fragment? = some offset := by
  rw [Traffic.fragment?_turn] at carries
  split at carries
  · next here =>
    rcases same with done | same
    · simp [done] at carries
    · rw [here, ← same, carries]
  · exact carries

theorem unlink (orderly : Orderly channel traffic queue)
    (stands : traffic.senders party = .unlinking offset) :
    Orderly channel (traffic.sent party (.arriving offset)
      (channel.chain.setLink traffic.memory offset .free)) queue := by
  have carried : (traffic.senders party).fragment? = some offset := by rw [stands]; rfl
  have same : (Sender.arriving offset).fragment? = (traffic.senders party).fragment? :=
    carried.symm
  have fragment := orderly.sending carried
  -- Nothing hangs on the fragment yet, so only its own link changes.
  have away : offset ∉ traffic.receiver.line queue := by
    have fits := orderly.senders party
    rwa [stands] at fits
  have links : ∀ other, Chain.HasLink channel.IsFragment other → other ≠ offset →
      channel.chain.link (channel.chain.setLink traffic.memory offset .free) other =
        channel.chain.link traffic.memory other := by
    intro other has differs
    rw [Chain.link_setLink channel.separate (.inr fragment) has, if_neg differs]
  have owes : (traffic.sent party (.arriving offset)
      (channel.chain.setLink traffic.memory offset .free)).Owes = traffic.Owes :=
    Traffic.owes_turn_same (by simp [stands]) (by simp)
  refine
    { history := by simp only [Traffic.sent, stands]; exact orderly.history
      fragments := orderly.fragments
      nodup := orderly.nodup
      ends := ?_
      strung := ?_
      receiver := by rw [owes]; exact orderly.receiver
      headless := ?_
      senders := ?_
      sending := fun carries => orderly.sending (carries_turn (.inr same) carries)
      alone := fun one two =>
        orderly.alone (carries_turn (.inr same) one) (carries_turn (.inr same) two) }
  · show _ = some (channel.chain.tail (channel.chain.setLink traffic.memory offset .free))
    rw [Chain.tail_setLink channel.separate (.inr fragment)]
    exact orderly.ends
  · rw [owes]
    refine orderly.strung.congr (fun other inside => ?_) fun _ _ _ => Iff.rfl
    exact links other (orderly.hasLink inside) fun equal => away (equal ▸ inside)
  · intro busy
    show channel.chain.link (channel.chain.setLink traffic.memory offset .free) .free = .free
    rw [links _ (.inl rfl) (channel.proper fragment).symm]
    exact orderly.headless busy
  · intro other
    simp only [Traffic.sent, Traffic.turn, Function.update_apply]
    split
    · refine ⟨away, ?_⟩
      rw [Chain.link_setLink channel.separate (.inr fragment) (.inr fragment), if_pos rfl]
    · next differs =>
      refine (orderly.senders other).move (fun _ _ away => away) (fun target carries _ => ?_)
        fun _ _ _ adjacent => adjacent
      refine links target (.inr (orderly.sending carries)) ?_
      rintro rfl
      exact differs (orderly.alone carries carried)

theorem arrive (orderly : Orderly channel traffic queue)
    (stands : traffic.senders party = .arriving offset) :
    Orderly channel (traffic.sent party (.owing (channel.chain.tail traffic.memory) offset)
      (channel.chain.setTail traffic.memory offset)) (queue ++ [offset]) := by
  have carried : (traffic.senders party).fragment? = some offset := by rw [stands]; rfl
  have same : (Sender.owing (channel.chain.tail traffic.memory) offset).fragment? =
      (traffic.senders party).fragment? := carried.symm
  have fragment := orderly.sending carried
  obtain ⟨away, unlinked⟩ : offset ∉ traffic.receiver.line queue ∧
      channel.chain.link traffic.memory offset = .free := by
    have fits := orderly.senders party
    rwa [stands] at fits
  have links : ∀ other, Chain.HasLink channel.IsFragment other →
      channel.chain.link (channel.chain.setTail traffic.memory offset) other =
        channel.chain.link traffic.memory other :=
    fun other has => Chain.link_setTail channel.separate has traffic.memory offset
  have owes : ∀ before after, (traffic.sent party
      (.owing (channel.chain.tail traffic.memory) offset)
      (channel.chain.setTail traffic.memory offset)).Owes before after ↔
        traffic.Owes before after ∨
          (before = channel.chain.tail traffic.memory ∧ after = offset) := by
    intro before after
    refine (Traffic.owes_turn_of_clear (by simp [stands])).trans (or_congr_right ?_)
    rw [Sender.owing.injEq, eq_comm, @eq_comm _ offset]
  have unqueued : offset ∉ queue := fun inside => away (traffic.receiver.subset_line queue inside)
  refine
    { history := by
        simp only [Traffic.sent, stands, List.map_append, orderly.history, List.append_assoc]
        rfl
      fragments := ?_
      nodup := ?_
      ends := ?_
      strung := ?_
      receiver := ?_
      headless := ?_
      senders := ?_
      sending := fun carries => orderly.sending (carries_turn (.inr same) carries)
      alone := fun one two =>
        orderly.alone (carries_turn (.inr same) one) (carries_turn (.inr same) two) }
  · intro other inside
    rcases List.mem_append.mp inside with inside | inside
    · exact orderly.fragments other inside
    · rwa [List.mem_singleton.mp inside]
  · exact orderly.nodup.append (List.nodup_singleton offset) (List.disjoint_singleton.mpr unqueued)
  · show (traffic.receiver.line _).getLast? =
      some (channel.chain.tail (channel.chain.setTail traffic.memory offset))
    rw [Receiver.line_append, Chain.tail_setTail, List.getLast?_concat]
  · show Strung _ _ (traffic.receiver.line _)
    rw [Receiver.line_append]
    have strung := orderly.strung.append orderly.ends away unlinked owes
    refine strung.congr (fun other inside => links other ?_) fun _ _ _ => Iff.rfl
    rcases List.mem_append.mp inside with inside | inside
    · exact orderly.hasLink inside
    · rw [List.mem_singleton.mp inside]
      exact .inr fragment
  · refine orderly.receiver.grow _ fun before after owed inside => ?_
    rcases (owes before after).mp owed with owed | ⟨_, rfl⟩
    · exact owed
    · exact absurd inside unqueued
  · intro busy
    exact (links _ (.inl rfl)).trans (orderly.headless busy)
  · intro other
    simp only [Traffic.sent, Traffic.turn, Function.update_apply, Receiver.line_append]
    split
    · exact adjacent_last orderly.ends
    · next differs =>
      refine (orderly.senders other).move (fun target carries away inside => ?_)
        (fun target carries _ => links target (.inr (orderly.sending carries)))
        fun _ _ _ adjacent => adjacent.append _
      rcases List.mem_append.mp inside with inside | inside
      · exact away inside
      · rw [List.mem_singleton.mp inside] at carries
        exact differs (orderly.alone carries carried)

theorem pay (orderly : Orderly channel traffic queue)
    (stands : traffic.senders party = .owing previous offset) :
    Orderly channel (traffic.sent party .idle
      (channel.chain.setLink traffic.memory previous offset)) queue := by
  have carried : (traffic.senders party).fragment? = some offset := by rw [stands]; rfl
  have adjacent : Adjacent previous offset (traffic.receiver.line queue) :=
    orderly.owing ⟨party, stands⟩
  have has := orderly.hasLink adjacent.left
  have links : ∀ other, Chain.HasLink channel.IsFragment other →
      channel.chain.link (channel.chain.setLink traffic.memory previous offset) other =
        if other = previous then offset else channel.chain.link traffic.memory other :=
    fun other hasOther => Chain.link_setLink channel.separate has hasOther traffic.memory offset
  have owes : ∀ before after, (traffic.sent party .idle
      (channel.chain.setLink traffic.memory previous offset)).Owes before after ↔
        traffic.Owes before after ∧ ¬(before = previous ∧ after = offset) := by
    intro before after
    -- Two senders never append one fragment, so nobody else owes the same link.
    refine Traffic.owes_turn.trans ?_
    simp only [reduceCtorEq, false_or]
    constructor
    · rintro ⟨other, differs, owes⟩
      refine ⟨⟨other, owes⟩, ?_⟩
      rintro ⟨rfl, rfl⟩
      exact differs (orderly.alone (by rw [owes]; rfl) carried)
    · rintro ⟨⟨other, owes⟩, differs⟩
      refine ⟨other, ?_, owes⟩
      rintro rfl
      have same := owes.symm.trans stands
      exact differs ⟨(Sender.owing.inj same).1, (Sender.owing.inj same).2⟩
  refine
    { history := by simp only [Traffic.sent, stands]; exact orderly.history
      fragments := orderly.fragments
      nodup := orderly.nodup
      ends := ?_
      strung := ?_
      receiver := ?_
      headless := ?_
      senders := ?_
      sending := fun carries => orderly.sending (carries_turn (.inl rfl) carries)
      alone := fun one two =>
        orderly.alone (carries_turn (.inl rfl) one) (carries_turn (.inl rfl) two) }
  · show _ = some (channel.chain.tail (channel.chain.setLink traffic.memory previous offset))
    rw [Chain.tail_setLink channel.separate has]
    exact orderly.ends
  · refine orderly.strung.pay orderly.nodup_line adjacent (fun other inside => ?_) owes
    exact links other (orderly.hasLink inside)
  · rw [← List.append_nil queue]
    exact orderly.receiver.grow [] fun before after owed _ => ((owes before after).mp owed).1
  · intro (busy : traffic.receiver ≠ .idle)
    -- While the receiver is busy the head belongs to nobody's line, so it is not the link stored.
    have inside : previous ∈ queue := by
      have front := adjacent.left
      rwa [Receiver.line_of_busy busy] at front
    show channel.chain.link (channel.chain.setLink traffic.memory previous offset) .free = .free
    rw [links _ (.inl rfl), if_neg (orderly.proper inside).symm]
    exact orderly.headless busy
  · intro other
    simp only [Traffic.sent, Traffic.turn, Function.update_apply]
    split
    · trivial
    · refine (orderly.senders other).move (fun _ _ away => away) (fun target carries away => ?_)
        fun _ _ _ adjacent => adjacent
      have differs : target ≠ previous := fun same => away (same ▸ adjacent.left)
      rw [links target (.inr (orderly.sending carries)), if_neg differs]

/-- A sender can always take its next step; the queue stays in order, and nothing else changes. -/
theorem sender_step (orderly : Orderly channel traffic queue) (party : Party) :
    ∃ sender memory rest, (traffic.senders party).advance (channel.queueOf party) traffic.memory =
        .done sender memory ∧
      Orderly channel (traffic.sent party sender memory) rest ∧
      channel.chain.Keeps channel.IsFragment traffic.memory memory := by
  cases stands : traffic.senders party with
  | idle =>
      refine ⟨.idle, traffic.memory, queue, rfl, ?_, fun _ _ _ _ => rfl⟩
      rw [Traffic.sent_idle stands]
      exact orderly
  | unlinking offset =>
      have carried : (traffic.senders party).fragment? = some offset := by rw [stands]; rfl
      have fragment := orderly.sending carried
      have step := Queue.setLink_eq (channel.senderReaches party fragment) .free traffic.memory
      exact ⟨.arriving offset, channel.chain.setLink traffic.memory offset .free, queue,
        Action.bind_done step _, orderly.unlink stands,
        channel.separate.keeps_setLink (.inr fragment) _ _⟩
  | arriving offset =>
      have block : (channel.queueOf party).block = channel.chain.block := rfl
      have step := Queue.exchangeTail_eq block offset traffic.memory
      -- The fragment is not in the line yet, and the tail is the last of the line.
      have differs : channel.chain.tail traffic.memory ≠ offset := by
        intro same
        have fits := orderly.senders party
        rw [stands] at fits
        exact fits.1 (same ▸ List.mem_of_getLast? orderly.ends)
      refine ⟨.owing (channel.chain.tail traffic.memory) offset,
        channel.chain.setTail traffic.memory offset, queue ++ [offset], ?_, orderly.arrive stands,
        channel.chain.keeps_setTail _ _ _⟩
      rw [Sender.advance, Action.bind_done step, if_neg differs]
      rfl
  | owing previous offset =>
      have adjacent := orderly.owing ⟨party, stands⟩
      have block : (channel.queueOf party).block = channel.chain.block := rfl
      have has := orderly.hasLink adjacent.left
      have reaches : previous ≠ .free → (channel.queueOf party).Reaches channel.chain previous :=
        fun proper => channel.senderReaches party (has.resolve_left proper)
      have step := Queue.attach_eq block reaches offset traffic.memory
      exact ⟨.idle, channel.chain.setLink traffic.memory previous offset, queue,
        Action.bind_done step _, orderly.pay stands, channel.separate.keeps_setLink has _ _⟩

/-! ## Steps of the receiver -/

theorem look (orderly : Orderly channel traffic queue) (busy : traffic.receiver ≠ .idle)
    {receiver : Receiver} (still : receiver ≠ .idle) (fits : receiver.Fits traffic.Owes queue) :
    Orderly channel { traffic with receiver } queue := by
  have line : receiver.line queue = traffic.receiver.line queue := by
    rw [Receiver.line_of_busy busy, Receiver.line_of_busy still]
  exact
    { history := orderly.history
      fragments := orderly.fragments
      nodup := orderly.nodup
      ends := by rw [line]; exact orderly.ends
      strung := by rw [line]; exact orderly.strung
      receiver := fits
      headless := fun _ => orderly.headless busy
      senders := by rw [line]; exact orderly.senders
      sending := orderly.sending
      alone := orderly.alone }

theorem takeHead (orderly : Orderly channel traffic (first :: queue))
    (idle : traffic.receiver = .idle)
    (linked : channel.chain.link traffic.memory .free = first) :
    Orderly channel { traffic with
      memory := channel.chain.setLink traffic.memory .free .free
      receiver := .reading first } (first :: queue) := by
  have links : ∀ other, channel.IsFragment other →
      channel.chain.link (channel.chain.setLink traffic.memory .free .free) other =
        channel.chain.link traffic.memory other := by
    intro other fragment
    rw [Chain.link_setLink channel.separate (.inl rfl) (.inr fragment),
      if_neg (channel.proper fragment)]
  have strung := orderly.strung
  have ends := orderly.ends
  have senders := orderly.senders
  simp only [idle, Receiver.line] at strung ends senders
  have paid : ¬traffic.Owes .free first := by
    -- A head that was found is no longer owed.
    rcases strung.1 with ⟨_, unlinked⟩ | ⟨paid, _⟩
    · exact absurd (linked.symm.trans unlinked) (orderly.proper List.mem_cons_self)
    · exact paid
  refine
    { history := orderly.history
      fragments := orderly.fragments
      nodup := orderly.nodup
      ends := ?_
      strung := ?_
      receiver := ⟨queue, rfl⟩
      headless := fun _ => ?_
      senders := fun party => ?_
      sending := orderly.sending
      alone := orderly.alone }
  · show _ = some (channel.chain.tail (channel.chain.setLink traffic.memory .free .free))
    rw [Chain.tail_setLink channel.separate (.inl rfl)]
    simpa [Receiver.line, List.getLast?_cons_cons] using ends
  · exact strung.tail.congr (fun other inside => links other (orderly.fragments other inside))
      fun _ _ _ => Iff.rfl
  · show channel.chain.link (channel.chain.setLink traffic.memory .free .free) .free = .free
    rw [Chain.link_setLink channel.separate (.inl rfl) (.inl rfl), if_pos rfl]
  · refine (senders party).move (fun _ _ away inside => away (List.mem_cons_of_mem _ inside))
      (fun target carries _ => links target (orderly.sending carries))
      fun previous offset stands adjacent => ?_
    rcases adjacent_cons.mp adjacent with ⟨rfl, rfl⟩ | behind
    · exact absurd ⟨party, stands⟩ paid
    · exact behind

/-- A queue is in order in every memory in which its own words are the same: the head, the tail, and
the links of the fragments that are queued or being appended. -/
theorem reuse (orderly : Orderly channel traffic queue) {memory : Memory}
    (links : ∀ offset, offset ∈ .free :: queue ∨ traffic.IsSending offset →
      channel.chain.link memory offset = channel.chain.link traffic.memory offset)
    (tail : channel.chain.tail memory = channel.chain.tail traffic.memory) :
    Orderly channel { traffic with memory } queue where
  history := orderly.history
  fragments := orderly.fragments
  nodup := orderly.nodup
  ends := by
    rw [tail]
    exact orderly.ends
  strung := orderly.strung.congr
    (fun other inside => links other (.inl (List.mem_cons.mpr (Receiver.mem_line inside))))
    fun _ _ _ => Iff.rfl
  receiver := orderly.receiver
  headless := fun busy => (links _ (.inl List.mem_cons_self)).trans (orderly.headless busy)
  senders := fun party => (orderly.senders party).move (fun _ _ away => away)
    (fun target carries _ => links target (.inr ⟨party, carries⟩))
    fun _ _ _ adjacent => adjacent
  sending := orderly.sending
  alone := orderly.alone

/-- A queue is in order in every memory in which the words of all fragments are the same. -/
theorem rewrite (orderly : Orderly channel traffic queue) {memory : Memory}
    (links : ∀ offset, Chain.HasLink channel.IsFragment offset →
      channel.chain.link memory offset = channel.chain.link traffic.memory offset)
    (tail : channel.chain.tail memory = channel.chain.tail traffic.memory) :
    Orderly channel { traffic with memory } queue := by
  refine orderly.reuse (fun other concerned => links other (orderly.hasLink_used concerned)) tail

theorem findNone (orderly : Orderly channel traffic queue)
    (unlinked : channel.chain.link traffic.memory .free = .free) :
    Orderly channel { traffic with
      memory := channel.chain.setLink traffic.memory .free .free } queue := by
  refine orderly.rewrite (fun other has => ?_) (Chain.tail_setLink channel.separate (.inl rfl) _ _)
  rw [Chain.link_setLink channel.separate (.inl rfl) has]
  split
  · next same => rw [same, unlinked]
  · rfl

theorem releaseLast (orderly : Orderly channel traffic [first])
    (busy : traffic.receiver ≠ .idle) :
    Orderly channel { traffic with
      memory := channel.chain.setTail traffic.memory .free
      receiver := .idle
      taken := traffic.taken ++ [first] } [] := by
  have links : ∀ other, Chain.HasLink channel.IsFragment other →
      channel.chain.link (channel.chain.setTail traffic.memory .free) other =
        channel.chain.link traffic.memory other :=
    fun other has => Chain.link_setTail channel.separate has traffic.memory .free
  have senders := orderly.senders
  rw [Receiver.line_of_busy busy] at senders
  refine
    { history := by simpa using orderly.history
      fragments := by simp
      nodup := List.nodup_nil
      ends := ?_
      strung := (links _ (.inl rfl)).trans (orderly.headless busy)
      receiver := trivial
      headless := fun still => absurd rfl still
      senders := fun party => ?_
      sending := orderly.sending
      alone := orderly.alone }
  · show some Offset.free = some (channel.chain.tail (channel.chain.setTail traffic.memory .free))
    rw [Chain.tail_setTail]
  · refine (senders party).move (fun target carries _ inside => ?_)
      (fun target carries _ => links target (.inr (orderly.sending carries)))
      fun _ _ _ adjacent => absurd adjacent not_adjacent_single
    exact channel.proper (orderly.sending carries) (List.mem_singleton.mp inside)

theorem pass (orderly : Orderly channel traffic (first :: next :: queue))
    (busy : traffic.receiver ≠ .idle) (paid : ¬traffic.Owes first next) :
    Orderly channel { traffic with
      memory := channel.chain.setLink traffic.memory .free next
      receiver := .idle
      taken := traffic.taken ++ [first] } (next :: queue) := by
  have links : ∀ other, channel.IsFragment other →
      channel.chain.link (channel.chain.setLink traffic.memory .free next) other =
        channel.chain.link traffic.memory other := by
    intro other fragment
    rw [Chain.link_setLink channel.separate (.inl rfl) (.inr fragment),
      if_neg (channel.proper fragment)]
  have strung := orderly.strung
  have ends := orderly.ends
  have senders := orderly.senders
  rw [Receiver.line_of_busy busy] at strung ends senders
  have unowed : ¬traffic.Owes .free next := by
    rintro ⟨party, owes⟩
    have fits := senders party
    rw [owes] at fits
    exact orderly.proper fits.left rfl
  refine
    { history := by simpa using orderly.history
      fragments := fun other inside => orderly.fragments other (List.mem_cons_of_mem _ inside)
      nodup := (List.nodup_cons.mp orderly.nodup).2
      ends := ?_
      strung := ?_
      receiver := trivial
      headless := fun still => absurd rfl still
      senders := fun party => ?_
      sending := orderly.sending
      alone := orderly.alone }
  · show _ = some (channel.chain.tail (channel.chain.setLink traffic.memory .free next))
    rw [Chain.tail_setLink channel.separate (.inl rfl)]
    simpa [Receiver.line, List.getLast?_cons_cons] using ends
  · have rest : Strung (channel.chain.link (channel.chain.setLink traffic.memory .free next))
        traffic.Owes (next :: queue) := by
      refine strung.tail.congr (fun other inside => links other ?_) fun _ _ _ => Iff.rfl
      exact orderly.fragments other (List.mem_cons_of_mem _ inside)
    refine rest.cons (.inr ⟨unowed, ?_⟩)
    rw [Chain.link_setLink channel.separate (.inl rfl) (.inl rfl), if_pos rfl]
  · refine (senders party).move (fun target carries away inside => ?_)
      (fun target carries _ => links target (orderly.sending carries))
      fun previous offset stands adjacent => ?_
    · rcases List.mem_cons.mp inside with free | inside
      · exact channel.proper (orderly.sending carries) free
      · exact away (List.mem_cons_of_mem _ inside)
    · rcases adjacent_cons.mp adjacent with ⟨rfl, rfl⟩ | behind
      · exact absurd ⟨party, stands⟩ paid
      · exact adjacent_cons.mpr (.inr behind)

/-- What the receiver reads in the link of the fragment that it is taking. -/
theorem link_first (orderly : Orderly channel traffic (first :: queue))
    (busy : traffic.receiver ≠ .idle) :
    channel.chain.link traffic.memory first = .free ∨
      ∃ next rest, queue = next :: rest ∧ ¬traffic.Owes first next ∧ next ≠ .free ∧ next ≠ first ∧
        channel.chain.link traffic.memory first = next := by
  have strung := orderly.strung
  rw [Receiver.line_of_busy busy] at strung
  cases queue with
  | nil => exact .inl strung
  | cons next rest =>
      rcases strung.1 with ⟨_, unlinked⟩ | ⟨paid, linked⟩
      · exact .inl unlinked
      · have alone := (List.nodup_cons.mp orderly.nodup).1
        refine .inr ⟨next, rest, rfl, paid, orderly.proper (by simp), ?_, linked⟩
        rintro rfl
        exact alone List.mem_cons_self

theorem isFree_eq_false (proper : offset ≠ .free) : offset.isFree = false := by
  simpa [Offset.isFree] using proper

/-- The receiver can always take its next step; the queue stays in order, and nothing else
changes. -/
theorem receiver_step (orderly : Orderly channel traffic queue) :
    ∃ turn memory rest, traffic.receiver.advance channel.ownQueue traffic.memory =
        .done turn memory ∧
      Orderly channel (traffic.received turn memory) rest ∧
      channel.chain.Keeps channel.IsFragment traffic.memory memory := by
  have block : channel.ownQueue.block = channel.chain.block := rfl
  have same : channel.chain.Keeps channel.IsFragment traffic.memory traffic.memory :=
    fun _ _ _ _ => rfl
  have head : ∀ next, channel.chain.Keeps channel.IsFragment traffic.memory
      (channel.chain.setLink traffic.memory .free next) := fun next =>
    channel.separate.keeps_setLink (.inl rfl) _ next
  have read : ∀ {offset}, offset ∈ queue → channel.ownQueue.link offset traffic.memory =
      .done (channel.chain.link traffic.memory offset) traffic.memory := fun inside =>
    Queue.link_eq (channel.reaches (orderly.fragments _ inside)) _
  have fits := orderly.receiver
  -- One case for each stage of the receiver; what it reads is settled by the order of the line.
  cases stage : traffic.receiver with
  | idle =>
      have step := Queue.takeHead_eq block traffic.memory
      have advances : ∀ first, channel.chain.link traffic.memory .free = first →
          Receiver.idle.advance channel.ownQueue traffic.memory =
            .done (if first.isFree then .returns none else .goes (.reading first))
              (channel.chain.setLink traffic.memory .free .free) := by
        rintro first rfl
        exact Action.bind_done step _
      by_cases empty : channel.chain.link traffic.memory .free = .free
      · refine ⟨_, _, queue, advances _ empty, ?_, head _⟩
        have found : traffic.received (.returns none)
            (channel.chain.setLink traffic.memory .free .free) =
              { traffic with memory := channel.chain.setLink traffic.memory .free .free } := by
          simp [Traffic.received, stage]
        rw [Offset.isFree_free, if_pos rfl, found]
        exact orderly.findNone empty
      · have strung := orderly.strung
        simp only [stage, Receiver.line] at strung
        cases queue with
        | nil => exact absurd strung empty
        | cons first rest =>
            rcases strung.1 with ⟨_, unlinked⟩ | ⟨_, linked⟩
            · exact absurd unlinked empty
            · refine ⟨_, _, first :: rest, advances first linked, ?_, head _⟩
              rw [isFree_eq_false (linked ▸ empty), if_neg Bool.false_ne_true]
              exact orderly.takeHead stage linked
  | reading first =>
      have busy : traffic.receiver ≠ .idle := by simp [stage]
      rw [stage] at fits
      obtain ⟨rest, rfl⟩ := fits
      have advances := Action.bind_done (read List.mem_cons_self) fun next =>
        if next = first then (.abort (.selfLink first) : Action Memory Turn)
        else pure (.goes (if next.isFree then .releasing first else .passing first next))
      rcases orderly.link_first busy with unlinked | ⟨next, rest, rfl, paid, proper, other, linked⟩
      · rw [unlinked, if_neg (orderly.proper List.mem_cons_self).symm] at advances
        exact ⟨_, _, _, advances, orderly.look busy (by simp) ⟨rest, rfl⟩, same⟩
      · rw [linked, if_neg other, isFree_eq_false proper] at advances
        exact ⟨_, _, _, advances, orderly.look busy (by simp) ⟨paid, rest, rfl⟩, same⟩
  | releasing first =>
      have busy : traffic.receiver ≠ .idle := by simp [stage]
      rw [stage] at fits
      obtain ⟨rest, rfl⟩ := fits
      have step := Queue.releaseTail_eq block first traffic.memory
      have ends := orderly.ends
      rw [Receiver.line_of_busy busy] at ends
      cases rest with
      | nil =>
          -- It is the only one in the line, so it is the tail, and is released.
          have last : channel.chain.tail traffic.memory = first := (Option.some.inj ends).symm
          rw [if_pos last] at step
          exact ⟨_, _, _, Action.bind_done step _, orderly.releaseLast busy,
            channel.chain.keeps_setTail _ _ _⟩
      | cons next rest =>
          have alone := (List.nodup_cons.mp orderly.nodup).1
          -- Another one became the tail in the meantime, so the link is still to come.
          have further : channel.chain.tail traffic.memory ≠ first := by
            rintro rfl
            exact alone (List.mem_of_getLast? (by simpa [List.getLast?_cons_cons] using ends))
          rw [if_neg further] at step
          exact ⟨_, _, _, Action.bind_done step _,
            orderly.look busy (by simp) ⟨next, rest, rfl⟩, same⟩
  | awaiting first =>
      have busy : traffic.receiver ≠ .idle := by simp [stage]
      rw [stage] at fits
      obtain ⟨next, rest, rfl⟩ := fits
      have advances := Action.bind_done (read List.mem_cons_self) fun next =>
        (pure (.goes (if next.isFree then .awaiting first else .passing first next)) :
          Action Memory Turn)
      rcases orderly.link_first busy with unlinked | ⟨other, more, rest_eq, paid, proper, _, linked⟩
      · rw [unlinked] at advances
        exact ⟨_, _, _, advances, orderly.look busy (by simp) ⟨next, rest, rfl⟩, same⟩
      · rw [linked, isFree_eq_false proper] at advances
        exact ⟨_, _, _, advances, orderly.look busy (by simp) ⟨paid, more, by rw [rest_eq]⟩, same⟩
  | passing first next =>
      have busy : traffic.receiver ≠ .idle := by simp [stage]
      rw [stage] at fits
      obtain ⟨paid, rest, rfl⟩ := fits
      have step := Queue.setHead_eq block next traffic.memory
      exact ⟨_, _, _, Action.bind_done step _, orderly.pass busy paid, head next⟩

theorem start {memory : Memory} (noHead : channel.chain.link memory .free = .free)
    (noTail : channel.chain.tail memory = .free) : Orderly channel (.start memory) [] where
  history := rfl
  fragments := by simp
  nodup := List.nodup_nil
  ends := congrArg some noTail.symm
  strung := noHead
  receiver := trivial
  headless still := absurd rfl still
  senders _ := trivial
  sending carries := nomatch carries
  alone carries := nomatch carries

/-- Every step keeps a queue in order. -/
theorem step {after : Traffic Party} (orderly : Orderly channel traffic queue)
    (taken : channel.Step traffic after) : ∃ rest, Orderly channel after rest := by
  cases taken with
  | begin idle fragment unqueued unsent =>
      rw [Traffic.queued_eq orderly.history] at unqueued
      exact ⟨queue, orderly.begin idle fragment unqueued unsent⟩
  | @send party sender memory advances =>
      obtain ⟨next, changed, rest, done, kept, _⟩ := orderly.sender_step party
      obtain ⟨rfl, rfl⟩ := Outcome.done.inj (advances.symm.trans done)
      exact ⟨rest, kept⟩
  | receive advances =>
      obtain ⟨turn, changed, rest, done, kept, _⟩ := orderly.receiver_step
      obtain ⟨rfl, rfl⟩ := Outcome.done.inj (advances.symm.trans done)
      exact ⟨rest, kept⟩

end Orderly

/-! ## The order in which fragments are taken -/

theorem Channel.Reached.orderly (reached : channel.Reached traffic) :
    ∃ queue, Orderly channel traffic queue := by
  induction reached with
  | start noHead noTail => exact ⟨[], .start noHead noTail⟩
  | step _ step ih =>
      obtain ⟨queue, orderly⟩ := ih
      exact orderly.step step

namespace Orderly

/-- There is no head exactly while nothing is queued, or while the sender of the oldest queued
fragment has not made it the head. -/
theorem headless_idle (orderly : Orderly channel traffic queue) (idle : traffic.receiver = .idle)
    (none : channel.chain.link traffic.memory .free = .free) :
    queue = [] ∨ ∃ first rest, queue = first :: rest ∧ traffic.Owes .free first := by
  cases queue with
  | nil => exact .inl rfl
  | cons first rest =>
      have strung := orderly.strung
      simp only [idle, Receiver.line] at strung
      rcases strung.1 with ⟨owes, _⟩ | ⟨_, linked⟩
      · exact .inr ⟨first, rest, rfl, owes⟩
      · exact absurd (linked.symm.trans none) (orderly.proper List.mem_cons_self)

end Orderly

/-- **First in, first out.** However the steps of the senders and the receiver come, none of them
aborts; what has been taken is at every moment what became the tail first, in the same order, and so
are the fragments of each sender. If the receiver finds no head while no sender owes a link,
everything that became the tail has been taken; while one does, the oldest fragment that has not
been taken may be the one that is owed to the head. -/
theorem Channel.taken_prefix_appended (reached : channel.Reached traffic) :
    traffic.taken <+: traffic.appended.map Prod.snd ∧
    (∃ got, got <+: traffic.appended ∧ traffic.taken = got.map Prod.snd ∧
      ∀ party, got.filter (·.1 = party) <+: traffic.appended.filter (·.1 = party)) ∧
    (∀ memory, traffic.receiver = .idle →
      traffic.receiver.advance channel.ownQueue traffic.memory = .done (.returns none) memory →
      ((∀ previous offset, ¬traffic.Owes previous offset) →
        traffic.taken = traffic.appended.map Prod.snd) ∧
      (traffic.taken = traffic.appended.map Prod.snd ∨
        ∃ offset, traffic.Owes .free offset ∧
          (traffic.appended.map Prod.snd)[traffic.taken.length]? = some offset)) ∧
    (∀ party, ∃ sender memory,
      (traffic.senders party).advance (channel.queueOf party) traffic.memory =
        .done sender memory) ∧
    ∃ turn memory,
      traffic.receiver.advance channel.ownQueue traffic.memory = .done turn memory := by
  obtain ⟨queue, orderly⟩ := reached.orderly
  have history := orderly.history
  refine ⟨⟨queue, history.symm⟩, ?_, ?_, fun party => ?_, ?_⟩
  · have first := List.take_prefix traffic.taken.length traffic.appended
    refine ⟨_, first, ?_, fun party => first.filter _⟩
    rw [List.map_take, history, List.take_left]
  · intro memory idle finds
    have noHead : channel.chain.link traffic.memory .free = .free := by
      have step := Queue.takeHead_eq (show channel.ownQueue.block = channel.chain.block from rfl)
        traffic.memory
      rw [idle, Receiver.advance, Action.bind_done step] at finds
      have returns := (Outcome.done.inj finds).1
      split at returns
      · next free => exact Offset.isFree_iff.mp free
      · cases returns
    rcases orderly.headless_idle idle noHead with rfl | ⟨first, rest, rfl, owes⟩
    · rw [List.append_nil] at history
      exact ⟨fun _ => history.symm, .inl history.symm⟩
    · refine ⟨fun clear => absurd owes (clear .free first), .inr ⟨first, owes, ?_⟩⟩
      rw [history, List.getElem?_append_right (Nat.le_refl _), Nat.sub_self]
      rfl
  · obtain ⟨sender, memory, _, done, _, _⟩ := orderly.sender_step party
    exact ⟨sender, memory, done⟩
  · obtain ⟨turn, memory, _, done, _, _⟩ := orderly.receiver_step
    exact ⟨turn, memory, done⟩

/-! ## Two senders, one of them in the gap -/

/-- Two ranks with a file each. -/
def twoFiles : Site where
  home rank := if rank = 0 then some ⟨0, 1024⟩ else if rank = 1 then some ⟨1, 1024⟩ else none
  apart := by
    intro rank other here there found foundOther same
    grind

def twoMaps : AddressMap := ⟨0, [(0, ⟨4096, 1024, 0⟩), (1, ⟨8192, 1024, 1⟩)]⟩

theorem twoFiles_covers : twoFiles.Covers twoMaps := by
  intro rank home found
  simp only [twoFiles] at found
  split at found
  · next same =>
    obtain rfl := Option.some.inj found
    subst same
    exact ⟨_, _, rfl, rfl, rfl, rfl, rfl⟩
  · split at found
    · next same =>
      obtain rfl := Option.some.inj found
      subst same
      exact ⟨_, _, rfl, rfl, rfl, rfl, rfl⟩
    · cases found

/-- Two senders with a queue in the file of the first rank. -/
def twoSenders : Channel Bool where
  site := twoFiles
  block := ⟨0, 128⟩
  IsFragment offset := twoFiles.IsSlot offset ∧ 384 ≤ offset.position.toNat
  senders _ := twoMaps
  receiver := twoMaps
  slots fragment := fragment.1
  clear fragment _ := .inr (Nat.le_trans (by decide) fragment.2)
  sendersCover _ := twoFiles_covers
  receiverCovers := twoFiles_covers

def quiet : Memory := twoSenders.chain.setTail (twoSenders.chain.setLink .empty .free .free) .free

/-- The first sender appends a fragment and stands still before it makes it the head; the second one
appends another behind it, and the receiver finds no head. Then the first one goes on, and the
receiver takes its fragment first. -/
theorem taken_prefix_appended_gap : ∃ traffic : Traffic Bool, twoSenders.Reached traffic ∧
    traffic.appended = [(false, ⟨0, 384⟩), (true, ⟨1, 448⟩)] ∧ traffic.taken = [⟨0, 384⟩] ∧
    traffic.taken <+: traffic.appended.map Prod.snd := by
  have one : twoSenders.IsFragment ⟨0, 384⟩ := ⟨⟨_, rfl, rfl, by decide⟩, by decide⟩
  have two : twoSenders.IsFragment ⟨1, 448⟩ := ⟨⟨_, rfl, rfl, by decide⟩, by decide⟩
  have reached := @Channel.Reached.start _ _ twoSenders quiet (by decide) (by decide)
  have reached := reached.step (@Channel.Step.begin _ _ _ _ false _ rfl one (by decide)
    (by rintro ⟨party, sends⟩; cases party <;> cases sends))
  have reached := reached.step (@Channel.Step.begin _ _ _ _ true _ rfl two (by decide)
    (by rintro ⟨party, sends⟩; cases party <;> cases sends))
  have reached := reached.step (@Channel.Step.send _ _ _ _ false _ _ rfl)
  have reached := reached.step (@Channel.Step.send _ _ _ _ false _ _ rfl)
  have reached := reached.step (@Channel.Step.send _ _ _ _ true _ _ rfl)
  have reached := reached.step (@Channel.Step.send _ _ _ _ true _ _ rfl)
  have reached := reached.step (@Channel.Step.send _ _ _ _ true _ _ rfl)
  have reached := reached.step (@Channel.Step.receive _ _ _ _ _ _ rfl)
  have reached := reached.step (@Channel.Step.send _ _ _ _ false _ _ rfl)
  have reached := reached.step (@Channel.Step.receive _ _ _ _ _ _ rfl)
  have reached := reached.step (@Channel.Step.receive _ _ _ _ _ _ rfl)
  have reached := reached.step (@Channel.Step.receive _ _ _ _ _ _ rfl)
  exact ⟨_, reached, rfl, by decide, (Channel.taken_prefix_appended reached).1⟩

end RankMail

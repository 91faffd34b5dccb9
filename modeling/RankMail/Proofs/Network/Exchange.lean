import RankMail.Proofs.Network.Delivery
import RankMail.Proofs.Network.FirstBatch

set_option autoImplicit false

/-! # Exchanges

Some nodes of a whole network send one another payloads of one length and give back what they read.
As long as a node sends only when all its slots have come back, it carves one batch at most
(`Exchange.send`); and no node has to know how far the others are:

    send       appends a letter to the queue of another node
    receive    takes the next letter, or finds that there is none
    release    appends what is no letter to the queue of the owner
    wait       changes nothing that counts
-/

namespace RankMail

namespace Network

/-- A node reads its queue, and its user holds what there is. -/
def receive (rank : UInt32) : Action Network (Option Delivery) := do
  match ← Network.read rank with
  | none => pure none
  | some message => do
      let letter ← .look fun network => message.letter network.world.memory
      pure (some ⟨rank, message, letter⟩)

/-- A node waits, at most for some microseconds. -/
def wait (rank : UInt32) (bound : Nat) : Action Network Unit := asNode rank (Node.wait (some bound))

end Network

/-! ## Lines -/

def IsQuiet (line : List Item) : Prop := line.filterMap Item.letter = []

def EndsWith (line : List Item) (letter : Letter) : Prop :=
  ∃ front offset, line = front ++ [⟨offset, some letter⟩] ∧ IsQuiet front

theorem isQuiet_nil : IsQuiet [] := rfl

theorem IsQuiet.of_suffix {line rest : List Item} (quiet : IsQuiet line) (behind : rest <:+ line) :
    IsQuiet rest := by
  obtain ⟨front, rfl⟩ := behind
  rw [IsQuiet, List.filterMap_append] at quiet
  exact (List.append_eq_nil_iff.mp quiet).2

namespace EndsWith

variable {line rest : List Item} {letter : Letter}

theorem letters (ends : EndsWith line letter) : line.filterMap Item.letter = [letter] := by
  obtain ⟨front, offset, rfl, quiet⟩ := ends
  rw [List.filterMap_append, quiet]
  rfl

theorem behind (ends : EndsWith line letter) (behind : rest <:+ line) (quiet : IsQuiet rest) :
    rest = [] := by
  obtain ⟨front, offset, rfl, _⟩ := ends
  rcases List.suffix_concat_iff.mp behind with empty | ⟨others, rfl, _⟩
  · exact empty
  · rw [IsQuiet, List.filterMap_append] at quiet
    exact absurd (List.append_eq_nil_iff.mp quiet).2 (by simp)

end EndsWith

namespace Operation.Turns

variable {rank source target : UInt32} {payload : List UInt8} {delivery : Delivery}
  {line next : List Item}

/-- What is sent comes last, and nothing changes at other ranks. -/
theorem of_send (turns : (Operation.send source target payload).Turns rank line next) :
    next = line ∨ rank = target ∧ ∃ offset letter, next = line ++ [⟨offset, some letter⟩] := by
  cases turns with
  | stay => exact .inl rfl
  | send _ _ offset letter => exact .inr ⟨rfl, offset, letter, rfl⟩

/-- What is read comes first, and nothing changes at other ranks. -/
theorem of_read (turns : (Operation.read source).Turns rank line next) :
    next <:+ line ∧ (rank ≠ source → next = line) := by
  cases turns with
  | stay => exact ⟨List.suffix_refl _, fun _ => rfl⟩
  | read behind => exact ⟨behind, fun differs => absurd rfl differs⟩

theorem of_release (turns : (Operation.release delivery).Turns rank line next) :
    next = line ∨ next = line ++ [⟨delivery.message.offset, none⟩] := by
  cases turns with
  | stay => exact .inl rfl
  | release _ => exact .inr rfl

end Operation.Turns

/-! ## Exchanges -/

/-- What holds of a network in which only some ranks exchange payloads of a length, each of them
with a batch of its own. -/
structure Exchange (directory : String) (players : List UInt32) (length : Nat)
    (batch : UInt32 → Nat) (network : Network) (pending : UInt32 → List Item) : Prop where
  settled : ∃ mapped, Settled directory mapped network pending
  whole : network.IsWhole
  fragments : network.fragments = []
  retired : network.retired = []
  others : ∀ {rank}, rank ∉ players → pending rank = []
  supplied : ∀ {rank}, rank ∈ players → network.Supplied rank length (batch rank)

/-- A node has looked into its queue at most, and found no letter. -/
structure Network.Idles (rank : UInt32) (network : Network) (pending : UInt32 → List Item)
    (after : Network) (pendingAfter : UInt32 → List Item) : Prop where
  received : after.received = network.received
  surfaced : ∀ other, after.surfacedAt other = network.surfacedAt other
  elsewhere : ∀ {other}, other ≠ rank → pendingAfter other = pending other
  behind : pendingAfter rank <:+ pending rank

namespace Exchange

variable {directory : String} {players : List UInt32} {length : Nat} {batch : UInt32 → Nat}
  {network : Network} {pending : UInt32 → List Item} {rank peer : UInt32} {node : Node}
  {payload : List UInt8} {delivery : Delivery} {letter : Letter} {index : Nat}
  {descriptor : Descriptor}

/-- When no message is held or still to be read and nothing is pending at a node, each slot of the
node is unused, once. -/
theorem unused_once (exchange : Exchange directory players length batch network pending)
    (empty : network.received = []) (quiet : ∀ target, IsQuiet (pending target))
    (dry : pending rank = []) (found : network.nodes rank = some node)
    (has : node.pool.arena.Has index descriptor) :
    (node.pool.free.get descriptor.sizeClass).count (node.pool.arena.handle index descriptor) =
      1 := by
  obtain ⟨mapped, settled⟩ := exchange.settled
  exact settled.unused_once exchange.fragments empty exchange.retired quiet dry found has

/-- When no letter is pending at a node, all that have been sent to it have surfaced. -/
theorem surfaced_eq (exchange : Exchange directory players length batch network pending)
    (quiet : IsQuiet (pending rank)) : network.surfacedAt rank = network.sentTo rank := by
  obtain ⟨mapped, settled⟩ := exchange.settled
  rw [settled.logged.sent rank, quiet, List.append_nil]

/-- A node sends when all its slots are unused. -/
theorem send (exchange : Exchange directory players length batch network pending)
    (member : rank ∈ players) (memberPeer : peer ∈ players) (long : payload.length = length)
    (empty : network.received = []) (quiet : ∀ target, IsQuiet (pending target))
    (dry : pending rank = []) :
    ∃ after pendingAfter, Network.send rank peer payload network = .done () after ∧
      Exchange directory players length batch after pendingAfter ∧
      after.received = [] ∧ (∀ other, after.surfacedAt other = network.surfacedAt other) ∧
      (∀ other, other ≠ peer → pendingAfter other = pending other) ∧
      EndsWith (pendingAfter peer) ⟨rank, rank, payload⟩ := by
  obtain ⟨mapped, settled⟩ := exchange.settled
  obtain ⟨peerNode, _, foundPeer, _⟩ := exchange.supplied memberPeer
  subst long
  have unused : ∀ {node index descriptor}, network.nodes rank = some node →
      node.pool.arena.Has index descriptor → node.pool.free.get descriptor.sizeClass ≠ [] := by
    intro node index descriptor found has none
    have once := exchange.unused_once empty quiet dry found has
    rw [none] at once
    cases once
  obtain ⟨after, sent, kept, supplied, received, fragments, retired, log⟩ :=
    settled.send_ends exchange.whole (exchange.supplied member) unused foundPeer
  have proceeds := @Settled.send_meets _ _ _ _ False settled (.inl exchange.whole) rank peer payload
  rw [sent] at proceeds
  obtain ⟨mappedAfter, pendingAfter, settledAfter, turns⟩ := proceeds.settled
  have surfaced : ∀ other, after.surfacedAt other = network.surfacedAt other := by
    intro other
    rw [Network.surfacedAt, log, List.filterMap_append]
    exact List.append_nil _
  have stays : ∀ other, other ≠ peer → pendingAfter other = pending other := fun other differs =>
    (turns other).of_send.resolve_right fun sends => differs sends.1
  -- The log says which letter has come last.
  have letters : (pendingAfter peer).filterMap Item.letter = [⟨rank, rank, payload⟩] := by
    have before := settled.logged.sent peer
    have now := settledAfter.logged.sent peer
    rw [surfaced, Network.sentTo, log, List.filterMap_append] at now
    rw [quiet peer, List.append_nil, Network.sentTo] at before
    rw [before] at now
    exact (List.append_cancel_left now).symm.trans (by simp [Event.sentTo])
  refine ⟨after, pendingAfter, sent,
    { settled := ⟨mappedAfter, settledAfter⟩
      whole := proceeds.whole trivial exchange.whole
      fragments := fragments.trans exchange.fragments
      retired := retired.trans exchange.retired
      others := fun {other} outside => ?_
      supplied := fun {other} inside => ?_ },
    received.trans empty, surfaced, stays, ?_⟩
  · rw [stays other fun same => outside (same ▸ memberPeer)]
    exact exchange.others outside
  · by_cases same : other = rank
    · subst same
      exact supplied
    · exact kept (exchange.supplied inside) same
  · rcases (turns peer).of_send with same | ⟨_, offset, letter, last⟩
    · rw [same, quiet peer] at letters
      cases letters
    · rw [last, List.filterMap_append, quiet peer] at letters
      obtain rfl : letter = _ := List.head_eq_of_cons_eq letters
      exact ⟨pending peer, offset, last, quiet peer⟩

theorem receive (exchange : Exchange directory players length batch network pending)
    (member : rank ∈ players) :
    ∃ result after pendingAfter, Network.receive rank network = .done result after ∧
      Exchange directory players length batch after pendingAfter ∧
      (∀ other, other ≠ rank → pendingAfter other = pending other) ∧
      (∀ other, other ≠ rank → after.surfacedAt other = network.surfacedAt other) ∧
      match result with
      | none => IsQuiet (pending rank) ∧ pendingAfter rank = [] ∧
          after.received = network.received ∧ after.surfacedAt rank = network.surfacedAt rank
      | some delivery => delivery.reader = rank ∧ pendingAfter rank <:+ pending rank ∧
          (pending rank).filterMap Item.letter =
            delivery.letter :: (pendingAfter rank).filterMap Item.letter ∧
          after.received = delivery :: network.received ∧
          after.surfacedAt rank = network.surfacedAt rank ++ [delivery.letter] := by
  obtain ⟨mapped, settled⟩ := exchange.settled
  obtain ⟨node, _, found, _⟩ := exchange.supplied member
  have reads := (@Settled.read_meets _ _ _ _ False settled (.inl exchange.whole) rank).both
    (@Settled.read_steady _ _ _ _ False settled (.inl exchange.whole) rank)
  cases ends : Network.read rank network with
  | failed fault after =>
      rw [ends] at reads
      obtain ⟨⟨_, _, _, _, _, missing, _⟩, _⟩ := reads
      exact absurd (found.symm.trans missing) (by simp)
  | aborted | hung =>
      rw [ends] at reads
      exact reads.elim
  | done result after =>
      rw [ends] at reads
      obtain ⟨⟨⟨pendingAfter, settledAfter, turns, nothing⟩, whole, retired, fragments, _, how⟩,
        steady⟩ := reads
      have stays : ∀ other, other ≠ rank → pendingAfter other = pending other :=
        fun other => (turns other).of_read.2
      have kept : Exchange directory players length batch after pendingAfter :=
        { settled := ⟨mapped, settledAfter⟩
          whole := whole exchange.whole
          fragments := fragments.trans exchange.fragments
          retired := retired.trans exchange.retired
          others := fun {other} outside => by
            rw [stays other fun same => outside (same ▸ member)]
            exact exchange.others outside
          supplied := fun inside => (exchange.supplied inside).steady steady }
      cases result with
      | none =>
          obtain ⟨received, log⟩ := how
          have surfaced : ∀ other, after.surfacedAt other = network.surfacedAt other :=
            fun other => by rw [Network.surfacedAt, log, Network.surfacedAt]
          refine ⟨none, after, pendingAfter, Action.bind_done ends _, kept, stays,
            fun other _ => surfaced other, ?_, nothing rfl, received, surfaced rank⟩
          have before := settled.logged.sent rank
          have now := settledAfter.logged.sent rank
          rw [surfaced, nothing rfl, Network.sentTo, log] at now
          exact List.append_cancel_left (before.symm.trans now)
      | some message =>
          obtain ⟨letter, told, received, log⟩ := how
          have surfaced : ∀ other, after.surfacedAt other = network.surfacedAt other ++
              if other = rank then [letter] else [] := by
            intro other
            rw [Network.surfacedAt, log, List.filterMap_append]
            by_cases same : other = rank
            · simp [Network.surfacedAt, Event.surfacedAt, same]
            · simp [Network.surfacedAt, Event.surfacedAt, same, Ne.symm same]
          have here : after.surfacedAt rank = network.surfacedAt rank ++ [letter] := by
            rw [surfaced, if_pos rfl]
          refine ⟨some ⟨rank, message, letter⟩, after, pendingAfter, ?_, kept, stays,
            fun other differs => ?_, rfl, (turns rank).of_read.1, ?_, received, here⟩
          · rw [Network.receive, Action.bind_done ends]
            exact told ▸ rfl
          · rw [surfaced, if_neg differs, List.append_nil]
          · have before := settled.logged.sent rank
            have now := settledAfter.logged.sent rank
            rw [here, Network.sentTo, log, List.filterMap_append, List.append_assoc] at now
            exact List.append_cancel_left (before.symm.trans ((List.append_nil _).symm.trans now))

theorem receive_none (exchange : Exchange directory players length batch network pending)
    (member : rank ∈ players) (quiet : IsQuiet (pending rank)) :
    ∃ after pendingAfter, Network.receive rank network = .done none after ∧
      Exchange directory players length batch after pendingAfter ∧
      network.Idles rank pending after pendingAfter := by
  obtain ⟨result, after, pendingAfter, ends, kept, stays, elsewhere, how⟩ := exchange.receive member
  cases result with
  | some delivery =>
      obtain ⟨_, _, first, _⟩ := how
      rw [quiet] at first
      cases first
  | none =>
      obtain ⟨_, dry, received, here⟩ := how
      refine ⟨after, pendingAfter, ends, kept, received, fun other => ?_, stays _, ?_⟩
      · by_cases same : other = rank
        · exact same ▸ here
        · exact elsewhere other same
      · rw [dry]
        exact List.nil_suffix

/-- A node whose queue ends with its only letter gets that, and nothing is left. -/
theorem receive_last (exchange : Exchange directory players length batch network pending)
    (member : rank ∈ players) (last : EndsWith (pending rank) letter)
    (empty : network.received = []) :
    ∃ delivery after pendingAfter, Network.receive rank network = .done (some delivery) after ∧
      delivery.reader = rank ∧ delivery.letter = letter ∧
      Exchange directory players length batch after pendingAfter ∧
      after.received = [delivery] ∧
      (∀ other, other ≠ rank → after.surfacedAt other = network.surfacedAt other) ∧
      after.surfacedAt rank = network.surfacedAt rank ++ [letter] ∧
      (∀ other, other ≠ rank → pendingAfter other = pending other) ∧ pendingAfter rank = [] := by
  obtain ⟨result, after, pendingAfter, ends, kept, stays, elsewhere, how⟩ := exchange.receive member
  have only := last.letters
  cases result with
  | none =>
      obtain ⟨quiet, _⟩ := how
      rw [quiet] at only
      cases only
  | some delivery =>
      obtain ⟨reader, behind, first, received, here⟩ := how
      obtain ⟨rfl, rest⟩ := List.cons_eq_cons.mp (first.symm.trans only)
      exact ⟨delivery, after, pendingAfter, ends, reader, rfl, kept, empty ▸ received, elsewhere,
        here, stays, last.behind behind rest⟩

theorem held_letter (exchange : Exchange directory players length batch network pending)
    (held : delivery ∈ network.received) :
    delivery.message.letter network.world.memory = delivery.letter := by
  obtain ⟨mapped, settled⟩ := exchange.settled
  exact (settled.message_says held).1

theorem held_payload (exchange : Exchange directory players length batch network pending)
    (held : delivery ∈ network.received) :
    delivery.message.payload network.world.memory = delivery.letter.payload := by
  rw [← exchange.held_letter held, Message.letter]

/-- The only message that is held is given back, to the queue of its owner if at all. -/
theorem release (exchange : Exchange directory players length batch network pending)
    (held : network.received = [delivery]) (owner : delivery.letter.owner ∈ players) :
    ∃ after pendingAfter, Network.release delivery network = .done () after ∧
      Exchange directory players length batch after pendingAfter ∧
      after.received = [] ∧ (∀ other, after.surfacedAt other = network.surfacedAt other) ∧
      (∀ other, other ≠ delivery.letter.owner → pendingAfter other = pending other) ∧
      ∀ other, IsQuiet (pending other) → IsQuiet (pendingAfter other) := by
  obtain ⟨mapped, settled⟩ := exchange.settled
  have inside : delivery ∈ network.received := held ▸ List.mem_cons_self
  obtain ⟨after, released, steady, received, fragments, retired, log⟩ :=
    settled.release_ends exchange.whole inside
  have proceeds := @Settled.release_meets _ _ _ _ False settled (.inl exchange.whole) delivery
  rw [released] at proceeds
  obtain ⟨mappedAfter, pendingAfter, settledAfter, turns⟩ := proceeds.settled
  have stays : ∀ other, other ≠ delivery.letter.owner → pendingAfter other = pending other := by
    intro other differs
    refine (turns other).of_release.resolve_right fun last => differs ?_
    -- What is on its way back is in the queue of its owner.
    have carries : after.Carries other ⟨delivery.message.offset, none⟩ :=
      settledAfter.sound.items (by rw [last]; simp)
    rw [← exchange.held_letter inside]
    exact carries.2.symm
  refine ⟨after, pendingAfter, released,
    { settled := ⟨mappedAfter, settledAfter⟩
      whole := proceeds.whole trivial exchange.whole
      fragments := fragments.trans exchange.fragments
      retired := retired.trans exchange.retired
      others := fun {other} outside => ?_
      supplied := fun inside => (exchange.supplied inside).steady steady },
    ?_, fun other => ?_, stays, fun other quiet => ?_⟩
  · rw [stays other fun same => outside (same ▸ owner)]
    exact exchange.others outside
  · rw [received, held]
    exact List.erase_cons_head ..
  · rw [Network.surfacedAt, log, Network.surfacedAt]
  · rcases (turns other).of_release with same | last
    · rwa [same]
    · rw [last, IsQuiet, List.filterMap_append, quiet]
      rfl

theorem wait (exchange : Exchange directory players length batch network pending)
    (member : rank ∈ players) (bound : Nat) :
    ∃ after, Network.wait rank bound network = .done () after ∧
      Exchange directory players length batch after pending ∧
      network.Idles rank pending after pending := by
  obtain ⟨mapped, settled⟩ := exchange.settled
  obtain ⟨node, _, found, _⟩ := exchange.supplied member
  obtain ⟨memory, waited, settledAfter, steady⟩ := settled.wait_ends found bound
  exact ⟨_, waited,
    { settled := ⟨mapped, settledAfter⟩
      whole := exchange.whole.relabel rfl (List.Subset.refl _)
      fragments := exchange.fragments
      retired := exchange.retired
      others := exchange.others
      supplied := fun inside => (exchange.supplied inside).steady steady },
    rfl, fun _ => rfl, fun _ => rfl, List.suffix_refl _⟩

end Exchange

end RankMail

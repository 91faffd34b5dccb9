import RankMail.Proofs.Network.Assembled

set_option autoImplicit false

/-! # Delivery

What has surfaced at a rank is always a prefix of what has been sent to it, in the order in which it
was sent and as it was when it was sent (`Assembled.delivers`). A node that reads its queue gets
exactly the next letter; and if it gets none, there is none left.

A fragment that is on its way back is not a letter, so it never surfaces; and as long as a message
has not been given back, it says what it said when it was read.
-/

namespace RankMail

/-- What has been sent to a rank is what the log says has been sent there, by its owner. -/
theorem Network.mem_sentTo {network : Network} {rank : UInt32} {letter : Letter} :
    letter ∈ network.sentTo rank ↔
      .sent letter.owner rank letter.payload ∈ network.log ∧ letter.source = letter.owner := by
  rw [sentTo, List.mem_filterMap]
  constructor
  · rintro ⟨event, inside, sent⟩
    cases event with
    | sent source target payload =>
        rw [Event.sentTo] at sent
        split at sent
        · next here =>
          obtain rfl := Option.some.inj sent
          exact ⟨here ▸ inside, rfl⟩
        · cases sent
    | surfaced reader other => cases sent
  · rintro ⟨inside, same⟩
    refine ⟨_, inside, ?_⟩
    rw [Event.sentTo, if_pos rfl]
    cases letter
    cases same
    rfl

namespace Settled

variable {directory : String} {mapped : List Segment} {network : Network}
  {pending : UInt32 → List Item} {rank : UInt32} {node : Node} {delivery : Delivery}

/-- What has surfaced has been sent, in the same order. -/
theorem surfaced_prefix (settled : Settled directory mapped network pending) (rank : UInt32) :
    network.surfacedAt rank <+: network.sentTo rank := by
  rw [settled.logged.sent rank]
  exact List.prefix_append ..

theorem surfaced_eq (settled : Settled directory mapped network pending)
    (nothing : pending rank = []) : network.surfacedAt rank = network.sentTo rank := by
  rw [settled.logged.sent rank, nothing]
  exact (List.append_nil _).symm

/-- A message that is held says what it said when it was read, and it is not on its way back. -/
theorem message_says (settled : Settled directory mapped network pending)
    (held : delivery ∈ network.received) :
    delivery.message.letter network.world.memory = delivery.letter ∧
      network.world.memory.isReturnedAt delivery.message.place = false := by
  have read := settled.sound.read held
  obtain ⟨owner, found, same, _⟩ := read.owner
  have slot : network.IsCarved delivery.message.offset :=
    settled.sound.isCarved .received (List.mem_map.mpr ⟨delivery, held, rfl⟩)
  obtain ⟨place, letter⟩ := letter_of_message settled.sound slot found same
  exact ⟨letter.trans read.letter.symm, place ▸ read.live⟩

/-- A node that reads its queue gets the first of the letters that have been sent to it and have not
surfaced; it gets none only if there is none left. -/
theorem read_next (settled : Settled directory mapped network pending) (whole : network.IsWhole)
    (found : network.nodes rank = some node) :
    ∃ result after, Network.read rank network = .done result after ∧
      match result with
      | none => network.surfacedAt rank = network.sentTo rank
      | some message =>
          network.surfacedAt rank ++ [message.letter after.world.memory] <+: network.sentTo rank ∧
            after.world.memory.isReturnedAt message.place = false := by
  have reads := @read_meets _ _ _ _ False settled (.inl whole) rank
  cases ends : Network.read rank network with
  | done result after =>
      rw [ends] at reads
      obtain ⟨⟨pendingAfter, settledAfter, _, nothing⟩, _, _, _, _, how⟩ := reads
      refine ⟨result, after, rfl, ?_⟩
      cases result with
      | none =>
          have everything := settledAfter.surfaced_eq (nothing rfl)
          rwa [Network.surfacedAt, Network.sentTo, how.2] at everything
      | some message =>
          obtain ⟨letter, rfl, received, log⟩ := how
          -- The message that was read is held now, and has surfaced last.
          have held : (⟨rank, message, message.letter after.world.memory⟩ : Delivery) ∈
              after.received := received ▸ List.mem_cons_self
          refine ⟨?_, (settledAfter.message_says held).2⟩
          have sent : after.sentTo rank = network.sentTo rank := by
            rw [Network.sentTo, log, List.filterMap_append]
            exact List.append_nil _
          have surfaced : after.surfacedAt rank =
              network.surfacedAt rank ++ [message.letter after.world.memory] := by
            simp [Network.surfacedAt, Event.surfacedAt, log, List.filterMap_append]
          rw [← sent, ← surfaced]
          exact settledAfter.surfaced_prefix rank
  | failed fault after =>
      rw [ends] at reads
      -- Reading fails only where there is no node.
      obtain ⟨_, _, _, _, _, missing, _⟩ := reads
      exact absurd (found.symm.trans missing) (by simp)
  | aborted cause =>
      rw [ends] at reads
      exact reads.elim
  | hung =>
      rw [ends] at reads
      exact reads.elim

end Settled

/-- **Delivery.** When all nodes have attached one another and nothing has been sent yet, operations
may come in any order and number, as long as nothing is attached or detached and each fragment is
used with its own node. After them, what has surfaced at each rank is a prefix of what has been sent
to it: of its letters, each with the payload that was sent, and with the sender as its source and
its owner. A message that is held is one that has surfaced, it says what it said then, and it is not
on its way back. And a node that reads its queue gets the next letter, or none if all have
surfaced. -/
theorem Network.Assembled.delivers {directory : String} {network : Network}
    (assembled : Network.Assembled directory network) (attached : network.IsMutual)
    (operations : List Operation) (orderly : ∀ operation ∈ operations, operation.IsOrderly) :
    ∃ after, network.run operations = some after ∧
      (∀ rank, after.surfacedAt rank <+: after.sentTo rank) ∧
      (∀ delivery ∈ after.received,
        delivery.letter ∈ after.surfacedAt delivery.reader ∧
        .sent delivery.letter.owner delivery.reader delivery.letter.payload ∈ after.log ∧
        delivery.letter.source = delivery.letter.owner ∧
        delivery.message.letter after.world.memory = delivery.letter ∧
        after.world.memory.isReturnedAt delivery.message.place = false) ∧
      ∀ rank node, after.nodes rank = some node →
        ∃ result next, Network.read rank after = .done result next ∧
          match result with
          | none => after.surfacedAt rank = after.sentTo rank
          | some message =>
              after.surfacedAt rank ++ [message.letter next.world.memory] <+: after.sentTo rank ∧
                next.world.memory.isReturnedAt message.place = false := by
  obtain ⟨after, ends, whole, mapped, pending, settled⟩ :=
    assembled.run attached operations orderly
  refine ⟨after, ends, settled.surfaced_prefix, fun delivery held => ?_, fun rank node found =>
    settled.read_next whole found⟩
  have surfaced := settled.logged.surfaced held
  have sent := Network.mem_sentTo.mp ((settled.surfaced_prefix delivery.reader).subset surfaced)
  exact ⟨surfaced, sent.1, sent.2, settled.message_says held⟩

/-- Two nodes send to each other, then to themselves, and each reads once: it gets what the other
one has sent. -/
theorem Network.delivers_twoNodes :
    (∀ operation ∈ [Operation.send 0 1 [1, 2, 3], .send 1 0 [4], .send 1 1 [], .send 0 0 [],
      .read 1, .read 0], operation.IsOrderly) ∧
    ∃ after, twoNodes.run [.send 0 1 [1, 2, 3], .send 1 0 [4], .send 1 1 [], .send 0 0 [],
        .read 1, .read 0] = some after ∧
      after.surfacedAt 1 = [⟨0, 0, [1, 2, 3]⟩] ∧ after.surfacedAt 0 = [⟨1, 1, [4]⟩] ∧
      ∀ rank, after.surfacedAt rank <+: after.sentTo rank := by
  have orderly : ∀ operation ∈ [Operation.send 0 1 [1, 2, 3], .send 1 0 [4], .send 1 1 [],
      .send 0 0 [], .read 1, .read 0], operation.IsOrderly := by
    simp [Operation.IsOrderly]
  have surfaced : ∃ after ∈ twoNodes.run [.send 0 1 [1, 2, 3], .send 1 0 [4], .send 1 1 [],
      .send 0 0 [], .read 1, .read 0],
      after.surfacedAt 1 = [⟨0, 0, [1, 2, 3]⟩] ∧ after.surfacedAt 0 = [⟨1, 1, [4]⟩] := by
    decide +kernel
  obtain ⟨after, found, one, zero⟩ := surfaced
  obtain ⟨_, ends, ordered, _⟩ := twoNodes_assembled.1.delivers twoNodes_assembled.2 _ orderly
  obtain rfl := Option.some.inj (ends.symm.trans found)
  exact ⟨orderly, _, ends, one, zero, ordered⟩

end RankMail

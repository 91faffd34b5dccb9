import RankMail.Proofs.Network.Assembled

set_option autoImplicit false

/-! # Conservation

In every network that is reached each slot that has been carved is accounted for: it is in one
place, and there once (`Network.Accounted`). No operation loses a slot: one that is given up is
retired for a reason (`Operation.Retires`).

So a slot that a node hands out is nowhere else; and once all that a node has handed out has come
back, and the node has read its queue, all its slots are unused, each of them once
(`Settled.recovers`).
-/

namespace RankMail

namespace Network

/-- Each slot of a network is in one place: unused, with the class of its descriptor; held as a
fragment; in a queue, whose words hold the items that are pending there; received as a message; or
retired. -/
structure Accounted (network : Network) (pending : UInt32 → List Item) : Prop where
  holds : ∀ {rank node}, network.nodes rank = some node →
    (network.chain rank).Holds network.world.memory ((pending rank).map Item.offset)
  nobody : ∀ {rank}, network.nodes rank = none → pending rank = []
  unused : ∀ {rank sizeClass offset}, offset ∈ network.unused rank sizeClass →
    offset.rank = rank ∧ ∃ index descriptor,
      network.Slot offset index descriptor ∧ descriptor.sizeClass = sizeClass
  once : ∀ {offset}, network.IsCarved offset → ∃ location,
    (network.contents pending [] location).count offset = 1 ∧
      ∀ other, other ≠ location → offset ∉ network.contents pending [] other
  only : ∀ {location offset}, offset ∈ network.contents pending [] location →
    network.IsCarved offset

/-- Nothing of a rank is retired, held, or still to be read. -/
structure HasBack (network : Network) (rank : UInt32) : Prop where
  retired : ∀ {offset reason}, (offset, reason) ∈ network.retired → offset.rank ≠ rank
  held : ∀ {fragment}, fragment ∈ network.fragments → fragment.segment.rank ≠ rank
  received : ∀ {delivery}, delivery ∈ network.received → delivery.message.owner ≠ rank
  surfaced : ∀ target, (network.sentTo target).filter (·.owner = rank) =
    (network.surfacedAt target).filter (·.owner = rank)

end Network

theorem Exact.once_only {contents : Location → List Offset} {IsCarved : Offset → Prop}
    (exact : Exact contents IsCarved) {offset : Offset} (carved : IsCarved offset) :
    ∃ location, (contents location).count offset = 1 ∧
      ∀ other, other ≠ location → offset ∉ contents other := by
  obtain ⟨location, inside⟩ := exact.somewhere.mp carved
  exact ⟨location, List.count_eq_one_of_mem (exact.nodup location) inside,
    fun other differs member => differs (exact.once member inside)⟩

namespace Settled

variable {directory : String} {mapped : List Segment} {network after : Network}
  {pending : UInt32 → List Item} {rank : UInt32} {node : Node} {sizeClass : SizeClass}
  {fragment : Fragment} {location : Location} {offset : Offset} {index : Nat}
  {descriptor : Descriptor}

theorem slot_of_unused (settled : Settled directory mapped network pending)
    (unused : offset ∈ network.unused rank sizeClass) :
    offset.rank = rank ∧ ∃ index descriptor,
      network.Slot offset index descriptor ∧ descriptor.sizeClass = sizeClass := by
  have sound := settled.sound
  cases found : network.nodes rank with
  | none => simp [Network.unused, found] at unused
  | some node =>
      simp only [Network.unused, found, Option.map_some, Option.getD_some, List.mem_map] at unused
      obtain ⟨fragment, inside, rfl⟩ := unused
      obtain ⟨handle, same⟩ := sound.unused found inside
      obtain ⟨_, owner, index, descriptor, fits⟩ := sound.charted.fits sound.carved found handle
      exact ⟨owner, index, descriptor, fits.slot, fits.sizeClass.symm.trans same⟩

theorem accounted (settled : Settled directory mapped network pending) :
    network.Accounted pending where
  holds := settled.sound.holds
  nobody := settled.sound.nobody
  unused := settled.slot_of_unused
  once := settled.sound.exact.once_only
  only := settled.sound.isCarved _

/-- A slot that is handed out was nowhere before, unless it was unused. -/
theorem unused_of_alloc (settled : Settled directory mapped network pending)
    (ends : Network.alloc rank sizeClass network = .done fragment after)
    (inside : fragment.offset ∈ network.contents pending [] location) :
    ∃ kept, location = .unused rank kept := by
  have allocates := settled.alloc_meets rank sizeClass
  rw [ends] at allocates
  obtain ⟨settledAfter, _, received, retired, _, taken⟩ := allocates
  obtain ⟨owner, fragments⟩ := taken fragment rfl
  have exact := settledAfter.sound.exact
  -- Afterwards the slot is held, so it is not where everything else still is.
  have held : fragment.offset ∈ after.contents pending [] .held := by
    simp [Network.contents, fragments]
  cases location with
  | unused other kept =>
      obtain rfl : other = rank := (settled.slot_of_unused inside).1.symm.trans owner
      exact ⟨kept, rfl⟩
  | held =>
      have fresh := exact.nodup .held
      simp only [Network.contents, fragments, List.map_cons, List.nodup_cons] at fresh
      exact absurd inside fresh.1
  | queued other =>
      have still : fragment.offset ∈ after.contents pending [] (.queued other) := inside
      cases exact.once held still
  | received =>
      have still : fragment.offset ∈ after.contents pending [] .received := by
        simpa only [Network.contents, received] using inside
      cases exact.once held still
  | retired =>
      have still : fragment.offset ∈ after.contents pending [] .retired := by
        simpa only [Network.contents, retired] using inside
      cases exact.once held still
  | hand => cases inside

theorem pending_owner (settled : Settled directory mapped network pending)
    (back : network.HasBack rank) (target : UInt32) :
    ∀ letter ∈ (pending target).filterMap Item.letter, letter.owner ≠ rank := by
  -- What has been sent is what has surfaced and then what is pending, of this owner too.
  have same := back.surfaced target
  rw [settled.logged.sent, List.filter_append] at same
  have none := List.append_right_eq_self.mp same
  intro letter inside own
  have left : letter ∈ ((pending target).filterMap Item.letter).filter (·.owner = rank) :=
    List.mem_filter.mpr ⟨inside, decide_eq_true own⟩
  rw [none] at left
  cases left

/-- When all that a node has handed out has come back and nothing is pending there, each of its
slots is unused. -/
theorem unused_of_back (settled : Settled directory mapped network pending)
    (back : network.HasBack rank) (dry : pending rank = [])
    (slot : network.Slot offset index descriptor) (own : offset.rank = rank) :
    offset ∈ network.unused rank descriptor.sizeClass := by
  have sound := settled.sound
  obtain ⟨location, inside⟩ := sound.exact.somewhere.mp ⟨index, descriptor, slot⟩
  cases location with
  | unused other kept =>
      -- The slot is unused, and it can only be so in its own class.
      obtain ⟨owner, _, _, again, same⟩ := settled.slot_of_unused inside
      obtain ⟨_, rfl⟩ := Charted.slot_unique sound.carved slot again
      rw [same, ← own, owner]
      exact inside
  | held =>
      obtain ⟨fragment, held, rfl⟩ := List.mem_map.mp inside
      exact absurd own (back.held held)
  | queued other =>
      obtain ⟨⟨offset, letter⟩, queued, rfl⟩ := List.mem_map.mp inside
      have carries := sound.items queued
      cases letter with
      | none =>
          -- On its way back it can only be in the queue of its owner.
          obtain rfl : other = rank := carries.2.symm.trans own
          rw [dry] at queued
          cases queued
      | some letter =>
          have pending := settled.pending_owner back other letter
            (List.mem_filterMap.mpr ⟨_, queued, rfl⟩)
          rw [carries.2] at pending
          exact absurd own pending
  | received =>
      obtain ⟨delivery, received, rfl⟩ := List.mem_map.mp inside
      exact absurd own (back.received received)
  | retired =>
      obtain ⟨⟨offset, reason⟩, retired, rfl⟩ := List.mem_map.mp inside
      exact absurd own (back.retired retired)
  | hand => cases inside

theorem count_unused (settled : Settled directory mapped network pending)
    (found : network.nodes rank = some node) (has : node.pool.arena.Has index descriptor)
    (unused : (node.pool.arena.handle index descriptor).offset ∈
      network.unused rank descriptor.sizeClass) :
    (node.pool.free.get descriptor.sizeClass).count (node.pool.arena.handle index descriptor) =
      1 := by
  have sound := settled.sound
  rw [Network.unused_of_node found] at unused
  obtain ⟨fragment, inside, same⟩ := List.mem_map.mp unused
  -- Two handles with one offset are handles of one slot.
  obtain ⟨second, next, hasNext, rfl⟩ := (sound.unused found inside).1
  rw [sound.charted.offset_handle found, sound.charted.offset_handle found] at same
  have slot := sound.charted.slot_of_has sound.carved found has
  have slotNext := sound.charted.slot_of_has sound.carved found hasNext
  rw [same] at slotNext
  obtain ⟨rfl, rfl⟩ := Charted.slot_unique sound.carved slot slotNext
  exact sound.count_free found inside

/-- When all that a node has handed out has come back and the node finds nothing in its queue, each
of its slots is unused, once. -/
theorem recovers (settled : Settled directory mapped network pending)
    (back : network.HasBack rank) (ends : Network.read rank network = .done none after)
    (found : after.nodes rank = some node) (has : node.pool.arena.Has index descriptor) :
    (node.pool.free.get descriptor.sizeClass).count (node.pool.arena.handle index descriptor) =
      1 := by
  have reads := settled.read_meets (.inr trivial) rank
  rw [ends] at reads
  obtain ⟨⟨pendingAfter, settledAfter, _, dry⟩, _, retired, fragments, _, received, log⟩ := reads
  have backAfter : after.HasBack rank :=
    { retired := by rw [retired]; exact back.retired
      held := by rw [fragments]; exact back.held
      received := by rw [received]; exact back.received
      surfaced := by
        simp only [Network.sentTo, Network.surfacedAt, log]
        exact back.surfaced }
  refine settledAfter.count_unused found has ?_
  rw [settledAfter.sound.charted.offset_handle found]
  exact settledAfter.unused_of_back backAfter (dry rfl)
    (settledAfter.sound.charted.slot_of_has settledAfter.sound.carved found has) rfl

end Settled

/-- **Slots are conserved.** In every network that is reached, whatever has been attached and
detached in it and whatever has been let go of:

* each slot that has been carved is in one place, and there once;
* a slot stays carved, and an operation retires at most one: because it was let go of; or else the
  operation fails, because the owner of a message is not attached any more or because a fragment was
  handed to a node that it does not belong to;
* a slot that a node hands out was nowhere before, unless among the unused ones of the node;
* and when nothing of a node is retired, held, or still to be read, and the node finds nothing in
  its queue, each slot of the node is unused, and is among the unused ones of its class once. -/
theorem Network.Reached.conserves_slots {directory : String} {network : Network}
    (reached : Network.Reached directory network) :
    (∃ pending, network.Accounted pending ∧
      ∀ rank sizeClass fragment after,
        Network.alloc rank sizeClass network = .done fragment after →
          ∀ location, fragment.offset ∈ network.contents pending [] location →
            ∃ kept, location = .unused rank kept) ∧
    (∀ operation : Operation, (operation.perform network).Meets True fun result after =>
      (∀ offset, network.IsCarved offset → after.IsCarved offset) ∧
      (after.retired = network.retired ∨ ∃ offset reason,
        after.retired = (offset, reason) :: network.retired ∧
          operation.Retires network offset reason ∧ (result = .ok () → reason = .dropped))) ∧
    ∀ rank after, network.HasBack rank → Network.read rank network = .done none after →
      ∀ node index descriptor, after.nodes rank = some node →
        node.pool.arena.Has index descriptor →
          (node.pool.free.get descriptor.sizeClass).count
            (node.pool.arena.handle index descriptor) = 1 := by
  obtain ⟨mapped, pending, settled⟩ := reached.settled
  refine ⟨⟨pending, settled.accounted, ?_⟩, fun operation => ?_, ?_⟩
  · intro rank sizeClass fragment after ends location inside
    exact settled.unused_of_alloc ends inside
  · refine ((settled.perform_meets operation).excuse fun _ => trivial).mono ?_
    intro result after proceeds
    exact ⟨fun offset => proceeds.carved, proceeds.retired⟩
  · intro rank after back ends node index descriptor found has
    exact settled.recovers back ends found has

/-- A node has sent to another one, which has sent to itself and read: every slot is still in one
place. -/
theorem Network.conserves_slots_twoNodes : ∃ after,
    twoNodes.run [.send 0 1 [1, 2, 3], .send 1 1 [], .read 1] = some after ∧
      Network.Reached "/" after ∧ ∃ pending, after.Accounted pending := by
  have orderly : ∀ operation ∈ [Operation.send 0 1 [1, 2, 3], .send 1 1 [], .read 1],
      operation.IsOrderly := by
    simp [Operation.IsOrderly]
  obtain ⟨after, ends, _⟩ := twoNodes_assembled.1.run twoNodes_assembled.2 _ orderly
  have reached := twoNodes_assembled.1.reached.run _ ends
  obtain ⟨pending, accounted, _⟩ := reached.conserves_slots.1
  exact ⟨after, ends, reached, pending, accounted⟩

end RankMail

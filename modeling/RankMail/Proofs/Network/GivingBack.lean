import RankMail.Proofs.Network.Assembled

set_option autoImplicit false

/-! # Giving back after detaching

A node that holds a message of another rank may detach that rank, and attach it again, before it
gives the message back. The message keeps the mapping from which it was read; what the node knows of
addresses is the mapping that it has now. So there are three cases
(`Network.Reached.gives_back_or_aborts`):

    owner attached in       what giving back comes to
    no mapping              fails with `unknownPeer`, and nothing happens
    the message's mapping   flag and slot go to the queue of the owner
    another mapping         aborts: the address of the message is in no mapping that the node knows

The last case comes about although whoever detaches does so only while no fragment of that rank is
queued, and attaches again before the message is given back: `reattached_aborts` is such a run.
-/

namespace RankMail

namespace Network

variable {network after : Network} {rank : UInt32} {scene : Scene Node}

theorem nodes_left_same (found : network.nodes rank = some scene.actor) :
    (network.left rank scene).nodes = network.nodes := by
  rw [left, ← found, Function.update_eq_self]

theorem place_congr (nodes : after.nodes = network.nodes) (offset : Offset) :
    after.place offset = network.place offset := by
  rw [place, region, nodes, place, region]

end Network

namespace Sound

variable {directory : String} {mapped : List Segment} {network : Network} {rank : UInt32}
  {pending : UInt32 → List Item} {hand : List Offset} {scene : Scene Node} {message : Message}
  {letter : Letter}

/-- A node that knows the mapping from which it has read a message, and the owners of all that is
pending at the owner of the message, gives the message back. -/
theorem sendBack_current
    (sound : Sound directory mapped (network.left rank scene) pending (message.offset :: hand))
    (read : (network.left rank scene).HasRead mapped ⟨rank, message, letter⟩)
    (attached : scene.actor.segmentOf? message.owner = some message.segment)
    (reaches : ∀ item ∈ pending message.owner,
      (scene.actor.segmentOf? item.offset.rank).isSome = true) :
    ∃ after, Node.sendBack message scene = .done () after ∧ after.actor = scene.actor ∧
      Sound directory mapped (network.left rank after) (Function.update pending message.owner
        (pending message.owner ++ [⟨message.offset, none⟩])) hand := by
  have sent : (Node.sendBack message scene).Meets False _ := sound.sendBack_meets read
    (fun segment same => .inl (Option.some.inj (same.symm.trans attached)))
    fun item inside => .inl (reaches item inside)
  cases ends : Node.sendBack message scene with
  | done value after =>
      rw [ends] at sent
      exact ⟨after, rfl, sent⟩
  | failed fault after =>
      rw [ends] at sent
      exact absurd (attached.symm.trans sent.2.1) (by simp)
  | aborted cause =>
      rw [ends] at sent
      exact sent.elim
  | hung =>
      rw [ends] at sent
      exact sent.elim

/-- A node that knows another mapping of the owner than the one from which it has read a message
aborts when it is to give the message back. -/
theorem sendBack_reattached {segment : Segment}
    (sound : Sound directory mapped (network.left rank scene) pending (message.offset :: hand))
    (read : (network.left rank scene).HasRead mapped ⟨rank, message, letter⟩)
    (attached : scene.actor.segmentOf? message.owner = some segment)
    (differs : message.segment ≠ segment) :
    Node.sendBack message scene = .aborted (.outsideSegment message.address message.owner) := by
  have refused : scene.actor.addresses.offsetFor message.owner message.address =
      .error (.outsideSegment message.address message.owner) :=
    sound.charted.offsetFor_other (network.nodes_left rank scene) attached read.segment differs
      (sound.message_inside read)
  rw [Node.sendBack, Action.bind_done (Scene.self_apply _)]
  simp only [attached, refused]
  rfl

end Sound

variable {directory : String} {network : Network} {delivery : Delivery} {node : Node}

/-- **Giving back after detaching.** In every network that is reached, whatever has been attached
and detached since a node has read a message of another rank, the words of the owner's queue hold a
line of slots, and the node gives the message back, or does not, by what it has attached:

* If the owner is not attached, giving back fails with `unknownPeer` and changes nothing.
* If the owner is attached in the mapping from which the message was read, and the owners of all
  slots in the line are attached, then giving back is done; the message has the flag of a fragment
  on its way back, and the line goes on with exactly its offset.
* If the owner has been attached anew, giving back aborts. -/
theorem Network.Reached.gives_back_or_aborts (reached : Network.Reached directory network)
    (held : delivery ∈ network.received) (found : network.nodes delivery.reader = some node)
    (foreign : delivery.message.owner ≠ delivery.reader) :
    ∃ line, (network.chain delivery.message.owner).Holds network.world.memory line ∧
      (∀ offset ∈ line, network.IsCarved offset) ∧
      match node.segmentOf? delivery.message.owner with
      | none => Node.release delivery.message (network.world.enter node) =
          .failed (.unknownPeer delivery.message.owner) (network.world.enter node)
      | some segment =>
          if segment = delivery.message.segment then
            (∀ offset ∈ line, (node.segmentOf? offset.rank).isSome = true) →
              ∃ after, Node.release delivery.message (network.world.enter node) = .done () after ∧
                after.actor = node ∧ after.memory.isReturnedAt delivery.message.place = true ∧
                (network.chain delivery.message.owner).Holds after.memory
                  (line ++ [delivery.message.offset])
          else Node.release delivery.message (network.world.enter node) =
            .aborted (.outsideSegment delivery.message.address delivery.message.owner) := by
  obtain ⟨mapped, pending, settled⟩ := reached.settled
  obtain ⟨owner, foundOwner, same, _⟩ := (settled.sound.read held).owner
  obtain ⟨sound, read⟩ := settled.take_up held found
  refine ⟨_, settled.sound.holds foundOwner,
    fun offset inside => settled.sound.isCarved (.queued delivery.message.owner) inside, ?_⟩
  have releases : Node.release delivery.message (network.world.enter node) =
      Node.sendBack delivery.message (network.world.enter node) := by
    have named : (network.world.enter node).actor.rank = delivery.reader :=
      (settled.sound.charted.placed found).nodeRank
    rw [Node.release, Action.bind_done (Scene.self_apply _), named, if_neg foreign]
  rw [releases]
  cases attached : node.segmentOf? delivery.message.owner with
  | none =>
      rw [Node.sendBack, Action.bind_done (Scene.self_apply _)]
      simp only [World.enter, attached]
      rfl
  | some segment =>
      by_cases current : segment = delivery.message.segment
      · subst current
        simp only [if_pos]
        intro reaches
        obtain ⟨after, ends, actor, returned⟩ := sound.sendBack_current read attached
          fun item inside => reaches _ (List.mem_map.mpr ⟨item, inside, rfl⟩)
        have left : ((network.withoutDelivery delivery).left delivery.reader after).nodes =
            network.nodes := by
          have unchanged : (network.withoutDelivery delivery).nodes delivery.reader =
              some after.actor := by
            rw [actor]
            exact found
          exact Network.nodes_left_same unchanged
        refine ⟨after, ends, actor, ?_, ?_⟩
        · -- The slot is the last item in the queue of its owner.
          have last : (⟨delivery.message.offset, none⟩ : Item) ∈ Function.update pending
              delivery.message.owner (pending delivery.message.owner ++
                [⟨delivery.message.offset, none⟩]) delivery.message.owner := by
            simp
          have flagged := (returned.items last).1
          rwa [Network.isReturned, Network.place_congr left, Network.place_of_node foundOwner,
            Segment.placeAt, ← same.region] at flagged
        · have holds := returned.holds (by rw [left]; exact foundOwner)
          rw [Function.update_self, List.map_append] at holds
          rwa [Network.chain, Network.region, left, funext (Network.place_congr left)] at holds
      · simp only [if_neg current]
        exact sound.sendBack_reattached read attached (Ne.symm current)

/-- A message is given back to an owner that has stayed attached. -/
theorem Network.gives_back_or_aborts_twoNodes : ∃ network delivery node after line,
    twoNodes.run [.send 1 0 [104, 105], .send 0 0 [], .read 0] = some network ∧
      delivery ∈ network.received ∧ network.nodes delivery.reader = some node ∧
      delivery.message.owner ≠ delivery.reader ∧
      Node.release delivery.message (network.world.enter node) = .done () after ∧
      after.memory.isReturnedAt delivery.message.place = true ∧
      (network.chain delivery.message.owner).Holds after.memory
        (line ++ [delivery.message.offset]) := by
  have orderly : ∀ operation ∈ [Operation.send 1 0 [104, 105], .send 0 0 [], .read 0],
      operation.IsOrderly := by
    simp [Operation.IsOrderly]
  obtain ⟨network, ends, whole, _⟩ := twoNodes_assembled.1.run twoNodes_assembled.2 _ orderly
  have reads : ∃ network ∈ twoNodes.run [.send 1 0 [104, 105], .send 0 0 [], .read 0],
      ∃ delivery ∈ network.received, ∃ node ∈ network.nodes delivery.reader,
        delivery.message.owner ≠ delivery.reader ∧
          node.segmentOf? delivery.message.owner = some delivery.message.segment := by
    decide +kernel
  obtain ⟨again, endsAgain, delivery, held, node, found, foreign, current⟩ := reads
  obtain rfl := Option.some.inj (ends.symm.trans endsAgain)
  have reached := twoNodes_assembled.1.reached.run _ ends
  obtain ⟨line, _, carved, gives⟩ := reached.gives_back_or_aborts held found foreign
  simp only [current, if_pos] at gives
  -- Both nodes have attached each other, so the owners of whatever is in the line are attached.
  obtain ⟨after, released, _, returned, holds⟩ := gives fun offset inside => by
    obtain ⟨_, _, owner, foundOwner, _⟩ := carved offset inside
    exact whole.reaches found foundOwner
  exact ⟨network, delivery, node, after, line, ends, held, found, foreign, released, returned,
    holds⟩

/-- A message of a rank that has been detached and attached again makes its reader abort, although
its owner is attached and no fragment of that rank has been in a queue since it was read: the only
one that is queued anywhere is the reader's own. -/
theorem Network.reattached_aborts :
    ∃ before ∈ twoNodes.run [.send 1 0 [104, 105], .send 0 0 [], .read 0],
      (before.chain 0).link before.world.memory .free = ⟨0, 384⟩ ∧
      (before.chain 0).link before.world.memory ⟨0, 384⟩ = .free ∧
      (before.chain 0).tail before.world.memory = ⟨0, 384⟩ ∧
      (before.chain 1).link before.world.memory .free = .free ∧
      (before.chain 1).tail before.world.memory = .free ∧
      ∃ network ∈ before.run [.detach 0 1, .attach 0 1],
        ∃ delivery ∈ network.received, ∃ node ∈ network.nodes delivery.reader,
          delivery.message.owner = 1 ∧ delivery.reader = 0 ∧
          (node.segmentOf? delivery.message.owner).isSome = true ∧
          Node.release delivery.message (network.world.enter node) =
            .aborted (.outsideSegment delivery.message.address delivery.message.owner) := by
  decide +kernel

end RankMail

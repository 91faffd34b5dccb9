import RankMail.Proofs.Network.Assembled
import RankMail.Proofs.Network.Origins

set_option autoImplicit false

/-! # Reading a queue

A node of a network that is reached, if all nodes have attached one another, goes through its queue
like this (`Network.Reached.reads_past_returned`):

    line      what is in the queue: fragments of its own on their way back, and messages, as they
              have come
    taken     the fragments up to the first message, and the message
    unused    the fragments, the last one on top of its class, each with a new header
    left      the line behind the message

Nothing else changes in its pool, and it carves nothing. The number of turns that it is given makes
no difference as long as it is greater than the number of fragments (`Node.readWithin_more`).
-/

namespace RankMail

theorem Node.readWithin_more {fuel more : Nat} {scene after : Scene Node}
    {result : Option Message} (ends : Node.readWithin fuel scene = .done result after)
    (enough : fuel ≤ more) : Node.readWithin more scene = .done result after := by
  induction fuel generalizing more scene with
  | zero => cases ends
  | succ fuel ih =>
      obtain _ | more := more
      · exact absurd enough (Nat.not_succ_le_zero _)
      -- Both take the same turn, and then go on with the turns that are left.
      rw [Node.readWithin] at ends ⊢
      refine Action.bind_of_done (fun node _ ends => ?_) ends
      refine Action.bind_of_done (fun first _ ends => ?_) ends
      cases first with
      | none => exact ends
      | some offset =>
          refine Action.bind_of_done (fun address _ ends => ?_) ends
          refine Action.bind_of_done (fun place _ ends => ?_) ends
          refine Action.bind_of_done (fun isReturned _ ends => ?_) ends
          by_cases back : offset.rank = node.rank ∧ isReturned = true
          · rw [if_pos back] at ends ⊢
            exact Action.bind_of_done (fun _ _ ends => ih ends (Nat.le_of_succ_le_succ enough)) ends
          · rw [if_neg back] at ends ⊢
            exact ends

theorem takeWhile_map_congr {α β : Type} {value : α → β} {test : β → Bool} {same : α → Bool}
    {list : List α} (tests : ∀ one ∈ list, test (value one) = same one) :
    (list.map value).takeWhile test = (list.takeWhile same).map value ∧
      (list.map value).dropWhile test = (list.dropWhile same).map value := by
  induction list with
  | nil => exact ⟨rfl, rfl⟩
  | cons first rest ih =>
      obtain ⟨taken, left⟩ := ih fun one inside => tests one (List.mem_cons_of_mem _ inside)
      have here := tests first List.mem_cons_self
      rw [List.map_cons, List.takeWhile_cons, List.dropWhile_cons, List.takeWhile_cons,
        List.dropWhile_cons, here]
      cases same first with
      | true => exact ⟨congrArg _ taken, left⟩
      | false => exact ⟨rfl, rfl⟩

/-- How a node goes through its queue, if the words of the queue hold a line: it takes some
fragments out of it, and then a message, if there is one. -/
structure Network.ReadsPast (network : Network) (rank : UInt32) (node : Node) (line : List Offset)
    (fragments : List Fragment) (message : Option Message) (after : Scene Node) : Prop where
  /-- The fragments are those up to the first slot that is not on its way back. -/
  fragments_eq : fragments.map Fragment.offset = line.takeWhile (network.isBack rank)
  handles : ∀ fragment ∈ fragments, node.IsHandle fragment
  /-- The message is the first slot that is not on its way back. -/
  message_eq : message.map Message.offset = (line.dropWhile (network.isBack rank)).head?
  attached : ∀ found ∈ message, node.segmentOf? found.owner = some found.segment
  /-- What stands behind the message is still in the queue. -/
  left : (network.chain rank).Holds after.memory (line.dropWhile (network.isBack rank)).tail
  /-- The fragments have been taken back, and nothing else in the pool has changed. -/
  skims : (network.world.enter node).Skims fragments after
  once : ∀ fragment ∈ fragments, (after.actor.pool.free.get fragment.sizeClass).count fragment = 1
  cursor : node.segment.cursor after.memory = node.segment.cursor network.world.memory

namespace Sound

variable {directory : String} {mapped : List Segment} {network : Network} {rank : UInt32}
  {pending : UInt32 → List Item} {hand : List Offset} {scene after : Scene Node}
  {fragments : List Fragment} {result : Except Fault (Option Message)}

/-- A node that has gone through its queue has read the first item that is not on its way back, and
what stands behind it is still pending. -/
theorem Skimmed.ending
    (skimmed : Skimmed directory mapped network rank pending hand scene fragments result after) :
    ∃ message handAfter, result = .ok message ∧
      message.map Message.offset =
        (((pending rank).dropWhile Item.isBack).map Item.offset).head? ∧
      (∀ found ∈ message, scene.actor.segmentOf? found.owner = some found.segment) ∧
      Sound directory mapped (network.left rank after) (Function.update pending rank
        ((pending rank).dropWhile Item.isBack).tail) handAfter := by
  have ends := skimmed.ends
  cases left : (pending rank).dropWhile Item.isBack with
  | nil =>
      rw [left] at ends
      exact ⟨none, hand, ends.1, rfl, (fun _ inside => by cases inside), ends.2⟩
  | cons item rest =>
      rw [left] at ends
      obtain ⟨segment, same, attached, _, sound⟩ := ends
      rw [skimmed.skims.grows.segmentOf?] at attached
      refine ⟨_, _, same, rfl, fun found inside => ?_, sound⟩
      obtain rfl := Option.some.inj inside
      exact attached

end Sound

namespace Settled

variable {directory : String} {mapped : List Segment} {network : Network}
  {pending : UInt32 → List Item} {rank : UInt32} {node : Node} {fragments : List Fragment}
  {result : Except Fault (Option Message)} {after : Scene Node}

/-- The headers of slots are not where the next slot is carved. -/
theorem cursor_skims (settled : Settled directory mapped network pending)
    (found : network.nodes rank = some node)
    (handles : ∀ fragment ∈ fragments, node.IsHandle fragment)
    (skims : (network.world.enter node).Skims fragments after) :
    node.segment.cursor after.memory = node.segment.cursor network.world.memory := by
  have sound := settled.sound
  refine skims.keeps.load (Memory.apartFrom_cons.mpr ⟨fun _ => .inl ?_, ?_⟩)
  · show SegmentField.cursor.distance + SegmentField.cursor.width ≤ queueStart
    decide
  · refine List.forall_mem_map.mpr fun fragment inside _ => .inl ?_
    obtain ⟨_, _, index, descriptor, fits⟩ :=
      sound.charted.fits sound.carved found (handles fragment inside)
    rw [fits.place]
    exact Nat.le_trans (show SegmentField.cursor.distance + SegmentField.cursor.width ≤ arenaStart
      by decide) (Charted.slot_above sound.carved fits.slot)

/-- What a node that has gone through its queue has done to it, in terms of the line that is in the
queue. -/
theorem readsPast (settled : Settled directory mapped network pending)
    (found : network.nodes rank = some node)
    (skimmed : Sound.Skimmed directory mapped network rank pending [] (network.world.enter node)
      fragments result after) :
    ∃ message, result = .ok message ∧
      network.ReadsPast rank node ((pending rank).map Item.offset) fragments message after := by
  obtain ⟨taken, left⟩ := takeWhile_map_congr fun item (inside : item ∈ pending rank) =>
    (settled.sound.items inside).isBack_eq
  obtain ⟨message, handAfter, same, first, attached, sound⟩ := skimmed.ending
  have skims := skimmed.skims
  have holds := sound.holds (network.nodes_left rank after)
  rw [Function.update_self, List.map_tail,
    (Network.evolves_left found skims.grows skims.keeps).chain] at holds
  exact ⟨message, same,
    { fragments_eq := skimmed.offsets.trans taken.symm
      handles := skimmed.handles
      message_eq := left ▸ first
      attached := attached
      left := left ▸ holds
      skims := skims
      once := fun fragment inside => sound.count_free (network.nodes_left rank after) (by
        rw [skims.free]
        simp [inside])
      cursor := settled.cursor_skims found skimmed.handles skims }⟩

/-- A node that has attached all others goes through its queue. -/
theorem readQueue_ends (settled : Settled directory mapped network pending)
    (reaching : network.Reaching node False) (found : network.nodes rank = some node) :
    ∃ fragments message after,
      network.ReadsPast rank node ((pending rank).map Item.offset) fragments message after ∧
      Node.readQueue (network.world.enter node) = .done message after ∧
      ∀ fuel, fragments.length < fuel →
        Node.readWithin fuel (network.world.enter node) = .done message after := by
  have sound := settled.enter found
  rw [← Network.left_enter found] at reaching
  -- One turn more than there are fragments to take back is enough.
  have turns : (Node.readWithin (returning (pending rank) + 1) (network.world.enter node)).Meets
      False fun result after => ∃ message, result = .ok message ∧ ∃ fragments : List Fragment,
        fragments.length = returning (pending rank) ∧
          network.ReadsPast rank node ((pending rank).map Item.offset) fragments message after := by
    refine (sound.readWithin_skims _ rfl (Nat.lt_succ_self _) reaching).mono ?_
    rintro result after ⟨fragments, skimmed⟩
    have lengths := congrArg List.length skimmed.offsets
    simp only [List.length_map] at lengths
    obtain ⟨message, same, reads⟩ := settled.readsPast found skimmed
    exact ⟨message, same, fragments, lengths, reads⟩
  obtain ⟨message, after, ends, fragments, length, reads⟩ := turns.done
  refine ⟨fragments, message, after, reads, ?_, fun fuel enough => ?_⟩
  · have few := settled.sound.returning_le found
    rw [Node.readQueue, Action.bind_done (Scene.self_apply _)]
    exact Node.readWithin_more ends (by simp only [World.enter]; omega)
  · exact Node.readWithin_more ends (length ▸ enough)

end Settled

variable {directory : String} {network : Network} {rank : UInt32} {node : Node}

/-- **Reading past what has returned.** In every network that is reached and of which all nodes have
attached one another, the words of a node's queue hold a line of slots, each of them once, and:

* Reading the queue comes to an end, in any number of turns greater than the number of fragments
  that are taken back, and so in as many as it is given. It takes out of the line the fragments up
  to the first slot that is not the node's own with the flag of a fragment on its way back, and this
  slot, which is what is read; if there is none, nothing is read. What stands behind it is still in
  the queue. The fragments are put among the unused ones in the order of the line, each of them
  once, under its own class and with the header of a slot that has just been carved. Nothing else
  changes in the node or in its pool, and the cursor of the arena stays where it is.
* Every slot in the line has been put there by some step; and it is the node's own and has the flag
  exactly if that step was another rank giving it back. -/
theorem Network.Reached.reads_past_returned (reached : Network.Reached directory network)
    (attached : network.IsMutual) (found : network.nodes rank = some node) :
    ∃ line, .free ∉ line ∧ line.Nodup ∧ (network.chain rank).Holds network.world.memory line ∧
      (∃ fragments message after, network.ReadsPast rank node line fragments message after ∧
        Node.readQueue (network.world.enter node) = .done message after ∧
        ∀ fuel, fragments.length < fuel →
          Node.readWithin fuel (network.world.enter node) = .done message after) ∧
      ∀ offset ∈ line, (∃ cause, Network.PutBy directory rank offset cause network) ∧
        ∀ cause, Network.PutBy directory rank offset cause network →
          (network.isBack rank offset = true ↔
            ∃ delivery, cause = some (.release delivery) ∧ delivery.reader ≠ rank) := by
  obtain ⟨mapped, pending, settled⟩ := reached.settled
  have sound := settled.sound
  refine ⟨_, fun inside => ?_, sound.exact.nodup (.queued rank), sound.holds found,
    settled.readQueue_ends (fun foundPeer => .inl (attached found foundPeer)) found,
    fun offset inside => ⟨reached.putBy (settled.isQueued_iff.mpr inside), fun cause put => ?_⟩⟩
  · exact (sound.charted.separate sound.carved rank).proper
      (sound.isCarved (.queued rank) inside) rfl
  · exact put.isBack_iff

/-- A node of two has sent to the other one, which has given the message back, and then to itself:
it takes its first slot back, and reads what it has sent to itself. -/
theorem Network.reads_past_returned_twoNodes :
    ∃ (network : Network) (node : Node) (fragments : List Fragment) (message : Option Message)
      (after : Scene Node), Network.Reached "/" network ∧ network.IsMutual ∧
      network.nodes 1 = some node ∧
      fragments.map Fragment.offset = [⟨1, 384⟩] ∧ message.map Message.offset = some ⟨1, 512⟩ ∧
      Node.readQueue (network.world.enter node) = .done message after := by
  have runs : ∃ before ∈ twoNodes.run [.send 1 0 [104, 105], .send 0 0 [], .read 0],
      ∃ delivery ∈ before.received, ∃ network ∈ before.run [.release delivery, .send 1 1 [7]],
        (network.nodes 1).isSome = true ∧
        (network.chain 1).link network.world.memory .free = ⟨1, 384⟩ ∧
        (network.chain 1).link network.world.memory ⟨1, 384⟩ = ⟨1, 512⟩ ∧
        network.isBack 1 ⟨1, 384⟩ = true ∧ network.isBack 1 ⟨1, 512⟩ = false := by
    decide +kernel
  obtain ⟨before, began, delivery, _, network, ended, here, head, next, back, live⟩ := runs
  -- Both nodes stay attached to each other.
  have orderly : ∀ operation ∈ [Operation.send 1 0 [104, 105], .send 0 0 [], .read 0],
      operation.IsOrderly := by
    simp [Operation.IsOrderly]
  have orderlyMore : ∀ operation ∈ [Operation.release delivery, .send 1 1 [7]],
      operation.IsOrderly := by
    simp [Operation.IsOrderly]
  obtain ⟨_, same, whole, mapped, pending, settled⟩ :=
    twoNodes_assembled.1.run twoNodes_assembled.2 _ orderly
  obtain rfl := Option.some.inj (same.symm.trans began)
  obtain ⟨_, same, whole, _⟩ := settled.run _ whole orderlyMore
  obtain rfl := Option.some.inj (same.symm.trans ended)
  have reached := (twoNodes_assembled.1.reached.run _ began).run _ ended
  obtain ⟨node, found⟩ := Option.isSome_iff_exists.mp here
  obtain ⟨line, _, _, holds, ⟨fragments, message, after, reads, ends, _⟩, _⟩ :=
    reached.reads_past_returned whole.reaches found
  -- The links lead from the queue to the slot that has come back, and from there to the other one.
  obtain ⟨rest, rfl⟩ : ∃ rest, line = ⟨1, 384⟩ :: ⟨1, 512⟩ :: rest := by
    cases line with
    | nil => exact absurd (holds.head_nil.symm.trans head) (by decide)
    | cons first others =>
        obtain rfl := holds.head_cons.symm.trans head
        cases others with
        | nil => exact absurd (holds.link_last.symm.trans next) (by decide)
        | cons second rest =>
            obtain rfl := holds.link_cons.symm.trans next
            exact ⟨rest, rfl⟩
  refine ⟨_, node, fragments, message, after, reached, whole.reaches, found, ?_, ?_, ends⟩
  · rw [reads.fragments_eq, List.takeWhile_cons, List.takeWhile_cons, back, live]
    rfl
  · rw [reads.message_eq, List.dropWhile_cons, List.dropWhile_cons, back, live]
    rfl

end RankMail

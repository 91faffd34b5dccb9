import RankMail.Proofs.Network.Assembled
import RankMail.Proofs.Pool.Batches

set_option autoImplicit false

/-! # Sends that fail

To send bytes to a rank that a node has not attached, the node looks for three things, and fails at
the first that is missing:

    missing                                  fault          the node, then
    a class that holds the bytes             oversize       as it was
    a slot of the class, and room for one    exhausted      as it was
    the rank                                 unknownPeer    has taken the slot back

In the last case the slot has been taken and filled before anybody looks for the rank. It is put on
top of the unused ones, from where it was taken if there were any; otherwise the node has carved a
batch (`Scene.Refunds`). Another send that fails finds it there, so no number of them carves a
second batch (`Network.Reached.fails_without_leak`).
-/

namespace RankMail

/-! ## What changes in memory -/

/-- Outside the arena of a segment nothing has changed but its cursor. -/
structure Segment.Confines (segment : Segment) (before after : Memory) : Prop where
  others : ∀ {place} count, place.region ≠ segment.file.region →
    after.read place count = before.read place count
  queue : after.read segment.queueBlock 16 = before.read segment.queueBlock 16
  doorbell : after.read segment.doorbellBlock 8 = before.read segment.doorbellBlock 8

namespace Segment.Confines

variable {segment : Segment} {before between after : Memory}

theorem trans (one : segment.Confines before between) (two : segment.Confines between after) :
    segment.Confines before after :=
  ⟨fun count other => (two.others count other).trans (one.others count other),
    two.queue.trans one.queue, two.doorbell.trans one.doorbell⟩

theorem of_keeps {touched : List (Place × Nat)} (keeps : before.Keeps touched after)
    (inside : ∀ range ∈ touched, range = (segment.place.shift 32, 8) ∨
      range.1.region = segment.file.region ∧ arenaStart ≤ range.1.address) :
    segment.Confines before after := by
  have apart : ∀ {place count}, (place.region ≠ segment.file.region ∨
      40 ≤ place.address ∧ place.address + count ≤ arenaStart) →
        after.read place count = before.read place count := by
    intro place count away
    refine keeps.read fun range member => ?_
    rcases inside range member with rfl | ⟨region, address⟩
    · simp only [Memory.Apart, Place.shift, Segment.place]
      omega
    · simp only [Memory.Apart]
      omega
  have queue : 40 ≤ segment.queueBlock.address ∧ segment.queueBlock.address + 16 ≤ arenaStart := by
    simp [queueBlock, placeAt, queueStart, arenaStart]
  have doorbell : 40 ≤ segment.doorbellBlock.address ∧
      segment.doorbellBlock.address + 8 ≤ arenaStart := by
    simp [doorbellBlock, placeAt, doorbellStart, arenaStart]
  exact ⟨fun count other => apart (.inl other), apart (.inr queue), apart (.inr doorbell)⟩

end Segment.Confines

/-! ## A slot that is taken and taken back -/

def Scene.pool (scene : Scene Node) : Scene Pool :=
  ⟨scene.actor.pool, scene.memory, scene.notices⟩

/-- What a node is like once it has taken a slot of a class and has taken it back. If there were
unused slots, its pool is as it was and the cursor is where it was. Otherwise it is as after carving
a batch, with the slot that was carved first on top of the others. -/
structure Scene.Refunds (before : Scene Node) (sizeClass : SizeClass) (after : Scene Node) :
    Prop where
  unused : before.actor.pool.free.get sizeClass ≠ [] → after.actor = before.actor ∧
    before.actor.segment.cursor after.memory = before.actor.segment.cursor before.memory
  carved : before.actor.pool.free.get sizeClass = [] → ∃ fragment grown,
    Pool.get sizeClass before.pool = .done fragment grown ∧
    Pool.Restocks before.pool sizeClass (min (max before.actor.pool.growBatch 1)
      (Pool.available before.pool sizeClass)) fragment grown ∧
    after.actor = { before.actor with pool := grown.actor.pushed sizeClass fragment } ∧
    before.actor.segment.cursor after.memory = before.actor.segment.cursor grown.memory

namespace Scene.Recycles

variable {before after : Scene Node} {fragment : Fragment}

theorem keeps (recycles : before.Recycles fragment after) :
    before.memory.Keeps [fragment.headerRange] after.memory := by
  rw [recycles.memory]
  exact Memory.keeps_writeHeader ..

theorem isBlank (recycles : before.Recycles fragment after) :
    fragment.IsBlank before.actor.pool.arena.rank after.memory := by
  rw [Fragment.IsBlank, recycles.memory, Fragment.blank, ← Header.length_bytes]
  exact Memory.read_write_same ..

end Scene.Recycles

namespace Sound

variable {directory : String} {mapped : List Segment} {network : Network} {rank : UInt32}
  {pending : UInt32 → List Item} {hand : List Offset} {scene after : Scene Node}
  {fragment : Fragment} {sizeClass : SizeClass} {peer : UInt32} {payload : List UInt8}

theorem handle_inside (sound : Sound directory mapped (network.left rank scene) pending hand)
    (handle : scene.actor.IsHandle fragment) :
    fragment.segment = scene.actor.segment ∧ arenaStart ≤ fragment.position := by
  obtain ⟨index, descriptor, has, rfl⟩ := handle
  have found := network.nodes_left rank scene
  exact ⟨sound.charted.arena_eq found, (sound.carved found).above has⟩

/-- A fragment of the node itself for a rank that it has not attached is taken back. -/
theorem takes_back (sound : Sound directory mapped (network.left rank scene) pending
      (fragment.offset :: hand))
    (handle : scene.actor.IsHandle fragment) (missing : scene.actor.segmentOf? peer = none) :
    ∃ after, Node.writeToPeer peer fragment scene = .failed (.unknownPeer peer) after ∧
      scene.Recycles fragment after := by
  obtain ⟨after, freed, recycles, _⟩ := (sound.free_recycles handle).done_unit
  refine ⟨after, ?_, recycles⟩
  rw [Node.writeToPeer, Action.bind_done (Scene.self_apply _)]
  simp only [missing]
  rw [Action.bind_done freed]
  rfl

/-- A slot in hand that cannot be sent is filled and taken back. -/
theorem refund (sound : Sound directory mapped (network.left rank scene) pending
      (fragment.offset :: hand))
    (handle : scene.actor.IsHandle fragment) (missing : scene.actor.segmentOf? peer = none)
    (enough : payload.length ≤ fragment.capacity) :
    ∃ after, (Scene.inMemory (fragment.write payload) >>= fun _ =>
        Node.writeToPeer peer fragment) scene = .failed (.unknownPeer peer) after ∧
      after.actor = scene.actor.keeping fragment.sizeClass
        (fragment :: scene.actor.pool.free.get fragment.sizeClass) ∧
      scene.memory.Keeps [(fragment.payloadPlace, fragment.capacity), (fragment.lengthPlace, 4),
        fragment.headerRange] after.memory := by
  -- The rank is looked for only when the payload has been written.
  have wrote : Scene.inMemory (fragment.write payload) scene = .done () { scene with
      memory := (scene.memory.write fragment.payloadPlace payload).store HeaderField.length
        fragment.place payload.length } := by
    rw [Scene.inMemory_apply, Fragment.write_eq enough]
    rfl
  have filled := sound.write_meets handle enough
  have keeps := fragment.write_meets payload scene.memory
  rw [wrote] at filled
  rw [Fragment.write_eq enough] at keeps
  obtain ⟨after, failed, recycles⟩ := filled.2.2.1.takes_back handle missing
  exact ⟨after, (Action.bind_done wrote _).trans failed, recycles.actor,
    keeps.trans recycles.keeps⟩

theorem inside_handle (sound : Sound directory mapped (network.left rank scene) pending hand)
    (handle : scene.actor.IsHandle fragment) :
    ∀ range ∈ [(fragment.payloadPlace, fragment.capacity), (fragment.lengthPlace, 4),
      fragment.headerRange], range.1.region = scene.actor.segment.file.region ∧
        arenaStart ≤ range.1.address := by
  obtain ⟨segment, above⟩ := sound.handle_inside handle
  have region : fragment.segment.file.region = scene.actor.segment.file.region :=
    congrArg (fun segment => segment.file.region) segment
  intro range inside
  simp only [List.mem_cons, List.not_mem_nil, or_false] at inside
  rcases inside with rfl | rfl | rfl
  · exact ⟨region, Nat.le_trans above (Nat.le_add_right ..)⟩
  · exact ⟨region, Nat.le_trans above (Nat.le_add_right ..)⟩
  · exact ⟨region, above⟩

theorem isApt (sound : Sound directory mapped (network.left rank scene) pending hand) :
    Pool.IsApt scene.pool :=
  (sound.carved (network.nodes_left rank scene)).toStacked.apt

/-- A node that has taken a slot for a rank that it has not attached takes it back. -/
theorem send_taken {grown : Scene Pool}
    (sound : Sound directory mapped (network.left rank scene) pending hand)
    (missing : scene.actor.segmentOf? peer = none)
    (chosen : scene.actor.pool.arena.capacities.forPayload payload.length = some sizeClass)
    (taken : Pool.get sizeClass scene.pool = .done fragment grown) :
    ∃ after, Node.send peer payload scene = .failed (.unknownPeer peer) after ∧
      after.actor = { scene.actor with pool := grown.actor.pushed sizeClass fragment } ∧
      scene.actor.segment.cursor after.memory = scene.actor.segment.cursor grown.memory ∧
      scene.actor.segment.Confines grown.memory after.memory := by
  have allocated : Node.alloc sizeClass scene = .done fragment (grown.around scene.actor) :=
    congrArg (Outcome.mapState (Scene.around scene.actor)) taken
  have alloc := sound.alloc_holds chosen
  rw [allocated] at alloc
  obtain ⟨grows, held, handle, same, enough⟩ := alloc
  obtain ⟨after, failed, actor, keeps⟩ :=
    held.refund handle ((grows.segmentOf? peer).trans missing) enough
  have inside := held.inside_handle handle
  refine ⟨after, ?_, ?_, ?_, .of_keeps keeps fun range member => .inr (inside range member)⟩
  · rw [Node.send_of_class peer chosen, Action.bind_done allocated]
    exact failed
  · rw [actor, same]
    rfl
  · refine keeps.load fun range member => ?_
    obtain ⟨_, above⟩ := inside range member
    simp only [arenaStart] at above
    simp only [Memory.Apart, Segment.place, Place.shift, SegmentField.cursor]
    omega

theorem confines_restocks {count : Nat} {grown : Scene Pool}
    (sound : Sound directory mapped (network.left rank scene) pending hand)
    (restocks : Pool.Restocks scene.pool sizeClass count fragment grown) :
    scene.actor.segment.Confines scene.memory grown.memory := by
  have own := sound.charted.arena_eq (network.nodes_left rank scene)
  have region : scene.actor.pool.arena.segment.file.region = scene.actor.segment.file.region :=
    congrArg (fun segment => segment.file.region) own
  have above := sound.isApt.above
  refine .of_keeps restocks.carves.keeps fun range member => ?_
  rcases List.mem_cons.mp member with rfl | member
  · exact .inl (congrArg (fun segment => (segment.place.shift 32, 8)) own)
  · obtain ⟨other, inside, rfl⟩ := List.mem_map.mp member
    obtain ⟨index, _, rfl⟩ := Arena.mem_stock inside
    refine .inr ⟨region, ?_⟩
    show arenaStart ≤ scene.pool.actor.arena.segment.cursor scene.memory + _
    exact Nat.le_trans (Nat.le_trans (Nat.le_add_right ..) above) (Nat.le_add_right ..)

/-- A send to a rank that is not attached fails at the first thing that is missing. -/
theorem send_unattached (sound : Sound directory mapped (network.left rank scene) pending hand)
    (missing : scene.actor.segmentOf? peer = none)
    (chosen : scene.actor.pool.arena.capacities.forPayload payload.length = some sizeClass) :
    (scene.actor.pool.free.get sizeClass = [] → Pool.available scene.pool sizeClass = 0 →
      ∃ notice, Node.send peer payload scene = .failed (.exhausted sizeClass)
        { scene with notices := scene.notices ++ [notice] }) ∧
    (scene.actor.pool.free.get sizeClass ≠ [] ∨ 0 < Pool.available scene.pool sizeClass →
      ∃ after, Node.send peer payload scene = .failed (.unknownPeer peer) after ∧
        scene.Refunds sizeClass after ∧
        scene.actor.segment.Confines scene.memory after.memory) := by
  have apt := sound.isApt
  constructor
  · intro unused none
    obtain ⟨notice, refused⟩ := apt.get_of_none unused none
    have allocated : Node.alloc sizeClass scene = .failed (.exhausted sizeClass)
        { scene with notices := scene.notices ++ [notice] } :=
      congrArg (Outcome.mapState (Scene.around scene.actor)) refused
    refine ⟨notice, ?_⟩
    rw [Node.send_of_class peer chosen, Action.bind_apply, allocated]
  · intro served
    cases unused : scene.actor.pool.free.get sizeClass with
    | cons fragment rest =>
        obtain ⟨after, failed, actor, cursor, confines⟩ := sound.send_taken missing chosen
          (@Pool.get_of_unused scene.pool sizeClass fragment rest unused)
        refine ⟨after, failed, ⟨fun _ => ⟨?_, cursor⟩, fun none => ?_⟩, confines⟩
        · rw [actor, @Pool.popped_pushed scene.pool sizeClass fragment rest unused]
          rfl
        · rw [unused] at none
          cases none
    | nil =>
        have room : 0 < Pool.available scene.pool sizeClass :=
          served.resolve_left (fun some => some unused)
        obtain ⟨fragment, grown, taken, restocks⟩ := apt.get_of_room unused room
        obtain ⟨after, failed, actor, cursor, confines⟩ := sound.send_taken missing chosen taken
        refine ⟨after, failed, ⟨fun some => absurd unused some, fun _ => ?_⟩, ?_⟩
        · exact ⟨fragment, grown, taken, restocks, actor, cursor⟩
        · exact (sound.confines_restocks restocks).trans confines

end Sound

/-! ## Any number of sends -/

namespace Network

variable {directory : String} {network after : Network} {rank peer : UInt32} {node : Node}
  {sizeClass : SizeClass} {payload : List UInt8} {fragment : Fragment}

/-- Memory has changed in the arena of a node and in its cursor, if at all: neither elsewhere, nor
in the words of the queue and the doorbell of any node, nor in the segments of the others. -/
structure Undisturbed (network : Network) (rank : UInt32) (memory : Memory) : Prop where
  elsewhere : ∀ {place} count, place.region ≠ network.region rank →
    memory.read place count = network.world.memory.read place count
  queue : ∀ {other node}, network.nodes other = some node →
    memory.read node.segment.queueBlock 16 = network.world.memory.read node.segment.queueBlock 16
  doorbell : ∀ {other node}, network.nodes other = some node →
    memory.read node.segment.doorbellBlock 8 =
      network.world.memory.read node.segment.doorbellBlock 8
  others : ∀ {other node}, network.nodes other = some node → other ≠ rank →
    ∀ position count, memory.read (node.segment.placeAt position) count =
      network.world.memory.read (node.segment.placeAt position) count

/-- What is confined to the arena of a node does not disturb the others. -/
theorem undisturbed_of_confines {mapped : List Segment} {memory : Memory}
    (charted : Charted directory mapped network) (found : network.nodes rank = some node)
    (confines : node.segment.Confines network.world.memory memory) :
    network.Undisturbed rank memory := by
  have region : ∀ {other peer}, network.nodes other = some peer → other ≠ rank →
      peer.segment.file.region ≠ node.segment.file.region := fun foundPeer differs regions =>
    differs (charted.regions foundPeer found regions)
  constructor
  · intro place count differs
    rw [region_of_node found] at differs
    exact confines.others count differs
  · intro other peer foundPeer
    by_cases same : other = rank
    · subst same
      obtain rfl := Option.some.inj (found.symm.trans foundPeer)
      exact confines.queue
    · exact confines.others 16 (region foundPeer same)
  · intro other peer foundPeer
    by_cases same : other = rank
    · subst same
      obtain rfl := Option.some.inj (found.symm.trans foundPeer)
      exact confines.doorbell
    · exact confines.others 8 (region foundPeer same)
  · intro other peer foundPeer differs position count
    exact confines.others count (region foundPeer differs)

/-- What a node does that fails to send is all that happens, and nothing is logged. -/
theorem perform_failed {fault : Fault} {scene : Scene Node} (found : network.nodes rank = some node)
    (failed : Node.send peer payload (network.world.enter node) = .failed fault scene) :
    ((Operation.send rank peer payload).perform network).state? =
      some (network.left rank scene) := by
  have acted : asNode rank (Node.send peer payload) network =
      .failed fault (network.left rank scene) := by
    rw [asNode, found]
    exact congrArg (Outcome.mapState (network.left rank)) failed
  show (Network.send rank peer payload network).state? = _
  rw [Network.send, Action.bind_apply, acted]
  rfl

theorem available_congr {scene : Scene Node}
    (own : scene.actor.pool.arena.segment = scene.actor.segment) {memory : Memory}
    {notices : List Notice} (cursor : scene.actor.segment.cursor memory =
      scene.actor.segment.cursor scene.memory) (sizeClass : SizeClass) :
    Pool.available (Scene.pool ⟨scene.actor, memory, notices⟩) sizeClass =
      Pool.available scene.pool sizeClass := by
  show scene.actor.pool.arena.available memory sizeClass =
    scene.actor.pool.arena.available scene.memory sizeClass
  rw [Arena.available_eq, Arena.available_eq, Segment.remaining, Segment.remaining, own, cursor]

/-- The sends of some bytes to some ranks, one after the other. -/
def sends (rank : UInt32) (letters : List (UInt32 × List UInt8)) : List Operation :=
  letters.map fun letter => .send rank letter.1 letter.2

/-- A node that has an unused slot of a class, or no room for one, stays as it is however often it
fails to send bytes of the class. -/
theorem Reached.run_steady (reached : Reached directory network)
    (found : network.nodes rank = some node) {letters : List (UInt32 × List UInt8)}
    (fail : ∀ letter ∈ letters, node.segmentOf? letter.1 = none ∧
      node.pool.arena.capacities.forPayload letter.2.length = some sizeClass)
    (steady : node.pool.free.get sizeClass ≠ [] ∨
      Pool.available (network.world.enter node).pool sizeClass = 0) :
    ∃ last, network.run (sends rank letters) = some last ∧ last.nodes rank = some node ∧
      node.segment.cursor last.world.memory = node.segment.cursor network.world.memory ∧
      last.log = network.log := by
  induction letters generalizing network with
  | nil => exact ⟨network, rfl, found, rfl, rfl⟩
  | cons letter rest ih =>
      obtain ⟨⟨missing, chosen⟩, fail⟩ := List.forall_mem_cons.mp fail
      obtain ⟨mapped, pending, settled⟩ := reached.settled
      have sound := settled.enter found
      have ends := sound.send_unattached missing chosen
      have step : ∃ fault scene, Node.send letter.1 letter.2 (network.world.enter node) =
          .failed fault scene ∧ scene.actor = node ∧
            node.segment.cursor scene.memory = node.segment.cursor network.world.memory := by
        by_cases unused : node.pool.free.get sizeClass = []
        · obtain ⟨notice, failed⟩ := ends.1 unused (steady.resolve_left fun some => some unused)
          exact ⟨_, _, failed, rfl, rfl⟩
        · obtain ⟨scene, failed, refunds, _⟩ := ends.2 (.inl unused)
          exact ⟨_, scene, failed, refunds.unused unused⟩
      obtain ⟨fault, scene, failed, rfl, cursor⟩ := step
      have performed := perform_failed found failed
      have own := settled.sound.charted.arena_eq found
      have room := @available_congr (network.world.enter scene.actor) own scene.memory scene.notices
        cursor sizeClass
      obtain ⟨last, ran, same, moved, log⟩ := ih (reached.perform _ performed)
        (network.nodes_left rank scene) fail (steady.imp_right room.trans)
      refine ⟨last, ?_, same, moved.trans cursor, log⟩
      rw [sends, List.map_cons, Network.run, performed]
      exact ran

/-- However often a node fails to send bytes of a class, it is as it was, or as after one of these
sends. -/
theorem Reached.run_unattached (reached : Reached directory network)
    (found : network.nodes rank = some node) {letters : List (UInt32 × List UInt8)}
    (fail : ∀ letter ∈ letters, node.segmentOf? letter.1 = none ∧
      node.pool.arena.capacities.forPayload letter.2.length = some sizeClass) :
    ∃ last lastNode, network.run (sends rank letters) = some last ∧
      last.nodes rank = some lastNode ∧ last.log = network.log ∧
      (lastNode = node ∧
          node.segment.cursor last.world.memory = node.segment.cursor network.world.memory ∨
        ∃ scene, (network.world.enter node).Refunds sizeClass scene ∧ lastNode = scene.actor ∧
          node.segment.cursor last.world.memory = node.segment.cursor scene.memory) := by
  by_cases steady : node.pool.free.get sizeClass ≠ [] ∨
      Pool.available (network.world.enter node).pool sizeClass = 0
  · obtain ⟨last, ran, same, cursor, log⟩ := reached.run_steady found fail steady
    exact ⟨last, node, ran, same, log, .inl ⟨rfl, cursor⟩⟩
  · cases letters with
    | nil => exact ⟨network, node, rfl, found, rfl, .inl ⟨rfl, rfl⟩⟩
    | cons letter rest =>
        obtain ⟨⟨missing, chosen⟩, fail⟩ := List.forall_mem_cons.mp fail
        obtain ⟨mapped, pending, settled⟩ := reached.settled
        have sound := settled.enter found
        obtain ⟨unused, room⟩ := not_or.mp steady
        -- The first send carves a batch and leaves a slot on top of it.
        obtain ⟨scene, failed, refunds, _⟩ :=
          (sound.send_unattached missing chosen).2 (.inr (Nat.pos_of_ne_zero room))
        obtain ⟨fragment, grown, taken, restocks, actor, cursor⟩ :=
          refunds.carved (not_not.mp unused)
        have arena : grown.actor.arena = _ := restocks.carves.actor
        have performed := perform_failed found failed
        have still : ∀ letter ∈ rest, scene.actor.segmentOf? letter.1 = none ∧
            scene.actor.pool.arena.capacities.forPayload letter.2.length = some sizeClass := by
          rw [actor]
          simp only [Pool.pushed, arena]
          exact fail
        have top : scene.actor.pool.free.get sizeClass ≠ [] := by
          rw [actor]
          simp [Pool.pushed, PerClass.get_set]
        have segment : scene.actor.segment = node.segment := by
          rw [actor]
          rfl
        obtain ⟨last, ran, same, moved, log⟩ := (reached.perform _ performed).run_steady
          (network.nodes_left rank scene) still (.inl top)
        rw [segment] at moved
        refine ⟨last, scene.actor, ?_, same, log, .inr ⟨scene, refunds, rfl, moved⟩⟩
        rw [sends, List.map_cons, Network.run, performed]
        exact ran

/-- **Sends that fail leak nothing.** Take any node of a network that has been reached, and any rank
that it is not and has not attached. Whatever bytes the node sends to that rank, it fails:

* No class holds the bytes: the fault is `oversize`, and nothing has changed.
* The class for the bytes has no unused slot, and there is no room for one: the fault is
  `exhausted`, and nothing has changed.
* Otherwise the fault is `unknownPeer`. If there were unused slots of the class, all lists of unused
  slots, the table and the cursor are as they were; if not, they are as after carving one batch,
  with the slot that was carved first on top. No other node is disturbed.

However often that is done with bytes of one class, to whatever such ranks, the node is as it was or
as after one such send: it carves one batch at most. And if it sends to such a rank a fragment of
its own that somebody holds, the fragment is on top of the unused ones of its class again, with the
header with which it was carved. -/
theorem Reached.fails_without_leak (reached : Reached directory network)
    (found : network.nodes rank = some node) (missing : node.segmentOf? peer = none) :
    (∀ payload, node.pool.arena.capacities.forPayload payload.length = none →
      Node.send peer payload (network.world.enter node) =
        .failed (.oversize payload.length (node.pool.arena.capacities.capacity .maxSend))
          (network.world.enter node)) ∧
    (∀ payload sizeClass,
      node.pool.arena.capacities.forPayload payload.length = some sizeClass →
      (node.pool.free.get sizeClass = [] →
        Pool.available (network.world.enter node).pool sizeClass = 0 →
        ∃ notices, Node.send peer payload (network.world.enter node) =
          .failed (.exhausted sizeClass) { network.world.enter node with notices }) ∧
      (node.pool.free.get sizeClass ≠ [] ∨
        0 < Pool.available (network.world.enter node).pool sizeClass →
        ∃ after, Node.send peer payload (network.world.enter node) =
            .failed (.unknownPeer peer) after ∧
          (network.world.enter node).Refunds sizeClass after ∧
          network.Undisturbed rank after.memory)) ∧
    (∀ sizeClass letters, (∀ letter ∈ letters, node.segmentOf? letter.1 = none ∧
        node.pool.arena.capacities.forPayload letter.2.length = some sizeClass) →
      ∃ last lastNode, network.run (sends rank letters) = some last ∧
        last.nodes rank = some lastNode ∧ last.log = network.log ∧
        (lastNode = node ∧
            node.segment.cursor last.world.memory = node.segment.cursor network.world.memory ∨
          ∃ scene, (network.world.enter node).Refunds sizeClass scene ∧ lastNode = scene.actor ∧
            node.segment.cursor last.world.memory = node.segment.cursor scene.memory)) ∧
    ∀ fragment ∈ network.fragments, fragment.segment.rank = rank →
      ∃ after, Node.writeToPeer peer fragment (network.world.enter node) =
          .failed (.unknownPeer peer) after ∧
        after.actor = node.keeping fragment.sizeClass
          (fragment :: node.pool.free.get fragment.sizeClass) ∧
        fragment.IsBlank rank after.memory ∧ network.Undisturbed rank after.memory := by
  obtain ⟨mapped, pending, settled⟩ := reached.settled
  have charted := settled.sound.charted
  have sound := settled.enter found
  refine ⟨fun payload none => ?_, fun payload sizeClass chosen => ⟨fun unused none => ?_,
    fun served => ?_⟩, fun sizeClass letters fail => reached.run_unattached found fail,
    fun fragment held own => ?_⟩
  · exact @Node.send_of_none (network.world.enter node) payload peer none
  · obtain ⟨notice, failed⟩ := (sound.send_unattached missing chosen).1 unused none
    exact ⟨_, failed⟩
  · obtain ⟨after, failed, refunds, confines⟩ := (sound.send_unattached missing chosen).2 served
    exact ⟨after, failed, refunds, undisturbed_of_confines charted found confines⟩
  · have handle := settled.own_handle found held own
    have unheld := settled.sound.unhold held
    have enter : (network.withoutFragment fragment).left rank
        ((network.withoutFragment fragment).world.enter node) =
          network.withoutFragment fragment := left_enter found
    rw [← enter] at unheld
    obtain ⟨after, failed, recycles⟩ := unheld.takes_back handle missing
    obtain ⟨segment, above⟩ := unheld.handle_inside handle
    have blank := recycles.isBlank
    change fragment.IsBlank node.pool.arena.rank after.memory at blank
    rw [(charted.placed found).arenaRank] at blank
    refine ⟨after, failed, recycles.actor, blank, undisturbed_of_confines charted found ?_⟩
    -- All that is written is the header of the slot.
    refine .of_keeps recycles.keeps fun range member => .inr ?_
    obtain rfl := List.mem_singleton.mp member
    exact ⟨congrArg (fun segment => segment.file.region) segment, above⟩

/-- A node of two sends to a rank that there is not, before it has carved anything. -/
theorem fails_without_leak_twoNodes :
    ∃ node after, twoNodes.nodes 0 = some node ∧ node.segmentOf? 5 = none ∧
      Node.send 5 [104, 105] (twoNodes.world.enter node) = .failed (.unknownPeer 5) after ∧
      (twoNodes.world.enter node).Refunds .user after ∧
      twoNodes.Undisturbed 0 after.memory := by
  have facts : ∃ node ∈ twoNodes.nodes 0, node.segmentOf? 5 = none ∧
      node.pool.arena.capacities.forPayload 2 = some .user ∧
      0 < Pool.available (twoNodes.world.enter node).pool .user := by
    decide +kernel
  obtain ⟨node, found, missing, chosen, room⟩ := facts
  obtain ⟨_, sends, _⟩ :=
    twoNodes_assembled.1.reached.fails_without_leak found missing
  obtain ⟨after, failed, refunds, undisturbed⟩ := (sends [104, 105] .user chosen).2 (.inr room)
  exact ⟨node, after, found, missing, failed, refunds, undisturbed⟩

end Network

end RankMail

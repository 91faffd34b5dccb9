import RankMail.Proofs.Config.Agreement
import RankMail.Proofs.Network.Conservation
import RankMail.Proofs.Network.Ranges
import RankMail.Proofs.Network.Steady
import RankMail.Proofs.Node.Attachments

set_option autoImplicit false

/-! # The first batch

A node that has carved nothing carves a batch of slots of a class when it first needs one. As long
as it needs another one only when all of these are unused, it carves nothing more
(`Node.Supplies`):

    nothing carved     room for a batch
    carved             that batch and no other slot

A node of a network that has been assembled has carved nothing, and its configuration sees to it
that there is room for a slot of each class (`Network.Assembled.isFresh`).
-/

namespace RankMail

namespace Node

/-- How many slots of a class a node carves when it needs one. -/
def nextBatch (node : Node) (memory : Memory) (sizeClass : SizeClass) : Nat :=
  min (max node.pool.growBatch 1) (node.pool.arena.available memory sizeClass)

/-- What a node has carved of a class, which is the one for a length: nothing, and there is room for
a batch; or that batch. -/
structure Supplies (node : Node) (memory : Memory) (length : Nat) (sizeClass : SizeClass)
    (batch : Nat) : Prop where
  chosen : node.pool.arena.capacities.forPayload length = some sizeClass
  positive : 0 < batch
  stock : node.pool.arena.descriptors.size = 0 ∧ node.nextBatch memory sizeClass = batch ∨
    node.pool.arena.descriptors.size = batch ∧
      ∀ {index descriptor}, node.pool.arena.Has index descriptor →
        descriptor.sizeClass = sizeClass

namespace Supplies

variable {node next : Node} {memory after : Memory} {length batch : Nat} {sizeClass : SizeClass}
  {scene : Scene Node} {grown : Scene Pool} {fragment : Fragment}

theorem congr (supplies : node.Supplies memory length sizeClass batch)
    (arena : next.pool.arena = node.pool.arena) (growBatch : next.pool.growBatch =
      node.pool.growBatch) (cursor : node.pool.arena.segment.cursor after =
      node.pool.arena.segment.cursor memory) : next.Supplies after length sizeClass batch where
  chosen := arena ▸ supplies.chosen
  positive := supplies.positive
  stock := by
    have room : next.nextBatch after sizeClass = node.nextBatch memory sizeClass := by
      rw [nextBatch, nextBatch, arena, growBatch, Arena.available_eq, Arena.available_eq,
        Segment.remaining, Segment.remaining, cursor]
    rw [room, arena]
    exact supplies.stock

theorem restocked (supplies : scene.actor.Supplies scene.memory length sizeClass batch)
    (bare : scene.actor.pool.arena.descriptors.size = 0)
    (restocks : Pool.Restocks scene.pool sizeClass (scene.actor.nextBatch scene.memory sizeClass)
      fragment grown) (after : Memory) :
    Node.Supplies { scene.actor with pool := grown.actor } after length sizeClass batch := by
  have arena : grown.actor.arena = scene.actor.pool.arena.stocked sizeClass _ _ :=
    restocks.carves.actor
  have room : scene.actor.nextBatch scene.memory sizeClass = batch := by
    rcases supplies.stock with stock | stock
    · exact stock.2
    · exact absurd (stock.1.symm.trans bare) (Nat.ne_of_gt supplies.positive)
  refine ⟨?_, supplies.positive, .inr ⟨?_, fun {index descriptor} has => ?_⟩⟩
  · show grown.actor.arena.capacities.forPayload length = _
    rw [arena]
    exact supplies.chosen
  · show grown.actor.arena.descriptors.size = _
    rw [arena, room]
    simp [Arena.stocked, bare]
  · change grown.actor.arena.Has index descriptor at has
    rw [arena] at has
    rcases Arena.has_of_stocked has with old | ⟨other, inside, same⟩
    · -- Nothing had been carved before.
      obtain ⟨below, _⟩ := Array.getElem?_eq_some_iff.mp old
      omega
    · obtain ⟨_, _, rfl⟩ := Arena.mem_stock inside
      exact (congrArg Fragment.sizeClass same).symm

end Supplies

end Node

namespace Sound

variable {directory : String} {mapped : List Segment} {network : Network} {rank peer : UInt32}
  {pending : UInt32 → List Item} {hand : List Offset} {scene : Scene Node}
  {payload : List UInt8} {sizeClass : SizeClass} {batch : Nat}

/-- A node sends bytes, and if it has no unused slot of their class it carves the batch. -/
theorem send_supplied (sound : Sound directory mapped (network.left rank scene) pending hand)
    (reaching : (network.left rank scene).Reaching scene.actor False)
    (attached : scene.actor.segmentOf? peer ≠ none)
    (supplies : scene.actor.Supplies scene.memory payload.length sizeClass batch)
    (served : scene.actor.pool.free.get sizeClass = [] →
      scene.actor.pool.arena.descriptors.size = 0) :
    ∃ after, Node.send peer payload scene = .done () after ∧
      after.actor.Supplies after.memory payload.length sizeClass batch ∧
      ∀ segment : Segment, segment.file.region ≠ scene.actor.segment.file.region →
        segment.cursor after.memory = segment.cursor scene.memory := by
  cases unused : scene.actor.pool.free.get sizeClass with
  | cons fragment rest =>
      obtain ⟨after, sent, actor, cursor⟩ := sound.send_of_taken reaching attached supplies.chosen
        (@Pool.get_of_unused scene.pool sizeClass fragment rest unused)
      refine ⟨after, sent, supplies.congr ?_ ?_ (cursor _), fun segment _ => cursor segment⟩ <;>
      · rw [actor]
        rfl
  | nil =>
      have bare := served unused
      have room : 0 < Pool.available scene.pool sizeClass := by
        rcases supplies.stock with stock | stock
        · have positive := supplies.positive
          rw [← stock.2, Node.nextBatch, Nat.lt_min] at positive
          exact positive.2
        · exact absurd (stock.1.symm.trans bare) (Nat.ne_of_gt supplies.positive)
      obtain ⟨fragment, grown, taken, restocks⟩ := sound.isApt.get_of_room unused room
      obtain ⟨after, sent, actor, cursor⟩ :=
        sound.send_of_taken reaching attached supplies.chosen taken
      refine ⟨after, sent, ?_, fun segment differs => ?_⟩
      · rw [actor]
        exact supplies.restocked bare restocks after.memory
      · exact (cursor segment).trans (congrArg LittleEndian.value
          ((sound.confines_restocks restocks).others 8 differs))

end Sound

/-! ## In a network -/

namespace Network

def Supplied (network : Network) (rank : UInt32) (length batch : Nat) : Prop :=
  ∃ node sizeClass, network.nodes rank = some node ∧
    node.Supplies network.world.memory length sizeClass batch

/-- All nodes go on with their arenas, and no cursor moves. -/
structure Steady (network after : Network) : Prop where
  forth : ∀ {rank node}, network.nodes rank = some node → ∃ next, after.nodes rank = some next ∧
    next = { node with pool := { node.pool with free := next.pool.free } }
  cursor : ∀ segment : Segment,
    segment.cursor after.world.memory = segment.cursor network.world.memory

variable {network after : Network} {rank : UInt32} {node : Node} {scene : Scene Node}
  {length batch : Nat}

theorem Steady.refl (network : Network) : network.Steady network :=
  ⟨fun found => ⟨_, found, rfl⟩, fun _ => rfl⟩

theorem Steady.left (found : network.nodes rank = some node)
    (steady : (network.world.enter node).Steady scene) :
    network.Steady (network.left rank scene) where
  forth {other peer} foundPeer := by
    by_cases same : other = rank
    · subst same
      obtain rfl := Option.some.inj (found.symm.trans foundPeer)
      exact ⟨scene.actor, network.nodes_left .., steady.rest⟩
    · exact ⟨peer, by simpa [Network.left, same] using foundPeer, rfl⟩
  cursor := steady.cursor

theorem Supplied.steady (supplied : network.Supplied rank length batch)
    (steady : network.Steady after) : after.Supplied rank length batch := by
  obtain ⟨node, sizeClass, found, supplies⟩ := supplied
  obtain ⟨next, foundNext, rest⟩ := steady.forth found
  refine ⟨next, sizeClass, foundNext, supplies.congr ?_ ?_ (steady.cursor _)⟩ <;>
    rw [rest]

end Network

namespace Settled

variable {directory : String} {mapped : List Segment} {network : Network}
  {pending : UInt32 → List Item} {rank peer : UInt32} {node peerNode : Node}
  {delivery : Delivery} {payload : List UInt8} {sizeClass : SizeClass} {batch : Nat}
  {stuck : Prop} {index : Nat} {descriptor : Descriptor}

/-- A node that reads its queue carves nothing. -/
theorem read_steady (settled : Settled directory mapped network pending)
    (whole : network.IsWhole ∨ stuck) (rank : UInt32) :
    (Network.read rank network).Meets stuck fun _ after => network.Steady after := by
  refine Action.meets_bind (Network.meets_asNode (fun _ => .refl _) fun {node} found => ?_)
  have reaching : network.Reaching node stuck := Network.IsWhole.reaching whole found
  rw [← Network.left_enter found] at reaching
  refine ((settled.enter found).readQueue_steady reaching).mono fun result scene steady => ?_
  have left : network.Steady (network.left rank scene) := .left found steady
  rcases result with fault | (_ | message)
  · exact left
  · exact left
  · exact ⟨left.forth, left.cursor⟩

/-- In a whole network a message that is held is given back, and nothing is carved. -/
theorem release_ends (settled : Settled directory mapped network pending)
    (whole : network.IsWhole) (held : delivery ∈ network.received) :
    ∃ after, Network.release delivery network = .done () after ∧ network.Steady after ∧
      after.received = network.received.erase delivery ∧ after.fragments = network.fragments ∧
      after.retired = network.retired ∧ after.log = network.log := by
  refine Outcome.Meets.done_unit ?_
  rw [Network.release, Network.withDelivery, Action.bind_done (Action.get_apply _), if_pos held,
    Network.loseDelivery, Action.bind_done (Action.modify_apply _ _)]
  obtain ⟨node, found⟩ := (settled.sound.read held).reader
  obtain ⟨sound, known⟩ := settled.take_up held found
  have current := whole.current held found
  have reaching : (network.withoutDelivery delivery).Reaching node False :=
    Network.IsWhole.reaching (.inl whole) found
  have enter : (network.withoutDelivery delivery).left delivery.reader
      (network.world.enter node) = network.withoutDelivery delivery :=
    Network.left_enter found
  rw [← enter] at reaching
  refine Action.meets_bind (Action.meets_attempt (Network.meets_asNode
    (fun missing => absurd (found.symm.trans missing) (by simp)) fun {actor} same => ?_))
  obtain rfl : node = actor := Option.some.inj (found.symm.trans same)
  have releases := (sound.release_meets known
    (fun segment attached => .inl (Option.some.inj (attached.symm.trans current))) reaching).both
      (sound.release_steady known
        (fun segment attached => .inl (Option.some.inj (attached.symm.trans current))) reaching)
  refine releases.mono ?_
  rintro (fault | value) scene ⟨⟨_, ends⟩, steady⟩
  · -- The owner is still attached.
    exact absurd (current.symm.trans ends.2.1) (by simp)
  · have left : network.Steady (network.left delivery.reader scene) := .left found steady
    exact ⟨rfl, ⟨left.forth, left.cursor⟩, rfl, rfl, rfl, rfl⟩

theorem wait_ends (settled : Settled directory mapped network pending)
    (found : network.nodes rank = some node) (limit : Nat) :
    ∃ memory, Network.asNode rank (Node.wait (some limit)) network =
        .done () { network with world := { network.world with memory } } ∧
      Settled directory mapped { network with world := { network.world with memory } } pending ∧
      network.Steady { network with world := { network.world with memory } } := by
  obtain ⟨memory, waited, keeps⟩ := Node.wait_writes limit (network.world.enter node)
  have bell : ∀ range ∈ [node.segment.doorbell.waitersRange],
      range.1.region = node.segment.file.region ∧ doorbellStart ≤ range.1.address ∧
        range.1.address + range.2 ≤ doorbellStart + 8 :=
    List.forall_mem_singleton.mpr ⟨rfl, Nat.le_add_right .., Nat.le_refl _⟩
  have sound := settled.sound.touch_bell found found keeps bell network.world.notices
  have past : IsPastCursors [node.segment.doorbell.waitersRange] := fun range inside =>
    Nat.le_trans (by decide : 40 ≤ doorbellStart) (bell range inside).2.1
  have waits : (network.world.enter node).Steady ⟨node, memory, network.world.notices⟩ :=
    .of_keeps rfl keeps past
  have steady := Network.Steady.left found waits
  rw [Network.left_memory found] at sound
  refine ⟨memory, ?_, ⟨sound, settled.logged.same rfl (List.Subset.refl _) fun _ => rfl⟩, ?_⟩
  · rw [Network.asNode, found, ← Network.left_memory found]
    exact congrArg (Outcome.mapState (network.left rank)) waited
  · exact Network.left_memory found memory ▸ steady

/-- In a whole network a node sends bytes to another one, if it has an unused slot of each class of
which it has carved any; before it has carved any, it carves its first batch. -/
theorem send_ends (settled : Settled directory mapped network pending) (whole : network.IsWhole)
    (supplied : network.Supplied rank payload.length batch)
    (unused : ∀ {node index descriptor}, network.nodes rank = some node →
      node.pool.arena.Has index descriptor → node.pool.free.get descriptor.sizeClass ≠ [])
    (foundPeer : network.nodes peer = some peerNode) :
    ∃ after, Network.send rank peer payload network = .done () after ∧
      (∀ {other length batch}, network.Supplied other length batch →
        other ≠ rank → after.Supplied other length batch) ∧
      after.Supplied rank payload.length batch ∧
      after.received = network.received ∧ after.fragments = network.fragments ∧
      after.retired = network.retired ∧ after.log = network.log ++ [.sent rank peer payload] := by
  obtain ⟨node, sizeClass, found, supplies⟩ := supplied
  have served : node.pool.free.get sizeClass = [] → node.pool.arena.descriptors.size = 0 := by
    intro none
    rcases supplies.stock with ⟨bare, _⟩ | ⟨size, classes⟩
    · exact bare
    · -- The first slot of the batch is of the class.
      have below : 0 < node.pool.arena.descriptors.size := size ▸ supplies.positive
      have has : node.pool.arena.Has 0 node.pool.arena.descriptors[0] :=
        Array.getElem?_eq_getElem below
      exact absurd ((congrArg node.pool.free.get (classes has)).trans none) (unused found has)
  have reaching : network.Reaching node False := Network.IsWhole.reaching (.inl whole) found
  rw [← Network.left_enter found] at reaching
  have attached : node.segmentOf? peer ≠ none :=
    Option.isSome_iff_ne_none.mp (whole.reaches found foundPeer)
  obtain ⟨scene, sent, supplies, cursor⟩ :=
    (settled.enter found).send_supplied reaching attached supplies served
  have acted : Network.asNode rank (Node.send peer payload) network =
      .done () (network.left rank scene) := by
    rw [Network.asNode, found]
    exact congrArg (Outcome.mapState (network.left rank)) sent
  refine ⟨{ network.left rank scene with log := network.log ++ [.sent rank peer payload] },
    Action.bind_done acted _, ?_, ⟨scene.actor, sizeClass, network.nodes_left .., supplies⟩, rfl,
    rfl, rfl, rfl⟩
  rintro other length batch ⟨peer, sizeClass, foundOther, supplies⟩ differs
  refine ⟨peer, sizeClass, by simpa [Network.left, differs] using foundOther,
    supplies.congr rfl rfl (cursor _ ?_)⟩
  rw [settled.sound.charted.arena_eq foundOther]
  exact fun same => differs (settled.sound.charted.regions foundOther found same)

/-- When nothing is held or lost, no message is still to be read, and nothing is pending at a node,
each slot of the node is unused, once. -/
theorem unused_once (settled : Settled directory mapped network pending)
    (fragments : network.fragments = []) (received : network.received = [])
    (retired : network.retired = []) (quiet : ∀ target, (pending target).filterMap Item.letter = [])
    (dry : pending rank = []) (found : network.nodes rank = some node)
    (has : node.pool.arena.Has index descriptor) :
    (node.pool.free.get descriptor.sizeClass).count (node.pool.arena.handle index descriptor) =
      1 := by
  have back : network.HasBack rank :=
    { retired := fun inside => by rw [retired] at inside; cases inside
      held := fun inside => by rw [fragments] at inside; cases inside
      received := fun inside => by rw [received] at inside; cases inside
      surfaced := fun target => by rw [settled.logged.sent, quiet, List.append_nil] }
  refine settled.count_unused found has ?_
  rw [settled.sound.charted.offset_handle found]
  exact settled.unused_of_back back dry
    (settled.sound.charted.slot_of_has settled.sound.carved found has) rfl

end Settled

/-! ## Before traffic -/

/-- A node that has carved nothing since it was made with its configuration. -/
structure Node.IsFresh (node : Node) (memory : Memory) : Prop where
  valid : node.config.validate = .ok ()
  capacities : node.pool.arena.capacities = node.config.capacities
  size : node.segment.size = node.config.segmentSize.toNat
  bare : node.pool.arena.descriptors = #[]
  cursor : node.segment.cursor memory = arenaStart

namespace Node

variable {directory : String} {rank : UInt32} {config : Config} {node next : Node}
  {world after : World} {memory later : Memory}

theorem IsFresh.congr (fresh : node.IsFresh memory) (config : next.config = node.config)
    (pool : next.pool = node.pool) (segment : next.segment = node.segment)
    (cursor : node.segment.cursor later = node.segment.cursor memory) : next.IsFresh later where
  valid := config ▸ fresh.valid
  capacities := by rw [pool, config, fresh.capacities]
  size := by rw [segment, config, fresh.size]
  bare := by rw [pool, fresh.bare]
  cursor := by rw [segment, cursor, fresh.cursor]

theorem create_isFresh (proper : world.disk.IsProper world.memory.fresh)
    (created : Node.create directory rank config world = .done node after) :
    node.IsFresh after.memory := by
  have creates := Node.create_meets proper directory rank config
  rw [created] at creates
  have made := (creates node rfl).made
  obtain ⟨valid, segment, _, addresses, _, rfl⟩ := create_done_ends created
  exact ⟨valid, rfl, made.sized, rfl, made.cursor⟩

end Node

namespace Network

variable {directory : String} {mapped : List Segment} {network after : Network}
  {pending : UInt32 → List Item} {rank peer : UInt32} {node : Node} {length : Nat}

theorem isFresh_attach (ends : (Network.attach rank peer network).state? = some after)
    (fresh : ∀ {other node}, network.nodes other = some node → node.IsFresh network.world.memory)
    {other : UInt32} {next : Node} (found : after.nodes other = some next) :
    next.IsFresh after.world.memory := by
  rw [Network.attach] at ends
  split at ends
  · next old _ foundOld _ =>
    rw [Outcome.state?_mapState, Option.map_eq_some_iff] at ends
    obtain ⟨state, attached, rfl⟩ := ends
    -- Whatever comes of it, the node keeps its pool, and memory stays as it is.
    have keeps : state.2.memory = network.world.memory ∧
        state.1.IsFresh network.world.memory := by
      have comes := Node.attachPeer_comes attached
      generalize Node.attachPeer peer (old, network.world) = outcome at comes attached
      cases comes with
      | known found =>
          obtain rfl := Option.some.inj attached
          exact ⟨rfl, fresh foundOld⟩
      | waits missing hangs => cases attached
      | refused missing fails unchanged =>
          obtain rfl := Option.some.inj attached
          exact ⟨unchanged.memory, fresh foundOld⟩
      | oversteps missing attaches strange => cases attached
      | joins missing named attaches memory disk registered =>
          obtain rfl := Option.some.inj attached
          exact ⟨memory, (fresh foundOld).congr rfl rfl rfl rfl⟩
    show next.IsFresh state.2.memory
    rw [keeps.1]
    by_cases same : other = rank
    · subst same
      obtain rfl : state.1 = next := by simpa using found
      exact keeps.2
    · exact fresh (by simpa [same] using found)
  · obtain rfl := Option.some.inj ends
    exact fresh found

theorem Assembled.isFresh (assembled : Assembled directory network) :
    ∀ {rank node}, network.nodes rank = some node → node.IsFresh network.world.memory := by
  induction assembled with
  | start proper => exact fun found => by cases found
  | turn _ _ _ ih => exact ih
  | @create network rank config node world assembled new created ih =>
      intro other peer found
      obtain ⟨mapped, pending, settled⟩ := assembled.reached.settled
      have charted := settled.sound.charted
      rcases nodes_of_joined found with ⟨rfl, rfl⟩ | ⟨_, foundOld⟩
      · exact Node.create_isFresh charted.disk created
      · have creates := Node.create_meets charted.disk directory rank config
        rw [created] at creates
        have persists := charted.persists_joined new (creates _ rfl)
        exact (ih foundOld).congr rfl rfl rfl (persists.load foundOld SegmentField.cursor 0)
  | attach _ ends ih => exact isFresh_attach ends ih

theorem Assembled.nothing_pending (assembled : Assembled directory network)
    (settled : Settled directory mapped network pending) (rank : UInt32) : pending rank = [] := by
  refine List.eq_nil_iff_forall_not_mem.mpr fun item inside => ?_
  obtain ⟨_, _, owner, found, has, _⟩ :=
    settled.sound.isCarved (.queued rank) (List.mem_map.mpr ⟨item, inside, rfl⟩)
  rw [Arena.Has, (assembled.isFresh found).bare] at has
  simp at has

/-- How many slots the node of a rank carves when it first sends so many bytes. -/
def firstBatch (network : Network) (length : Nat) (rank : UInt32) : Nat :=
  match network.nodes rank with
  | none => 0
  | some node =>
      match node.classFor length with
      | .error _ => 0
      | .ok sizeClass => node.nextBatch network.world.memory sizeClass

/-- A node of a network that has been assembled supplies slots for whatever a class holds: there is
room for one at least. -/
theorem Assembled.supplied (assembled : Assembled directory network)
    (found : network.nodes rank = some node)
    (held : ∃ sizeClass, length ≤ node.config.capacities.capacity sizeClass) :
    network.Supplied rank length (network.firstBatch length rank) := by
  obtain ⟨mapped, pending, settled⟩ := assembled.reached.settled
  have fresh := assembled.isFresh found
  obtain ⟨sizeClass, chosen⟩ :
      ∃ sizeClass, node.pool.arena.capacities.forPayload length = some sizeClass := by
    rw [fresh.capacities, ← Option.isSome_iff_exists, Option.isSome_iff_ne_none]
    obtain ⟨sizeClass, fits⟩ := held
    exact fun none => Nat.not_le.mpr (Capacities.forPayload_eq_none_iff.mp none sizeClass) fits
  have first : network.firstBatch length rank = node.nextBatch network.world.memory sizeClass := by
    simp only [firstBatch, found, Node.classFor, chosen]
  rw [first]
  refine ⟨node, sizeClass, found, chosen, ?_, .inl ⟨?_, rfl⟩⟩
  · have apt : node.pool.arena.Apt network.world.memory := (settled.enter found).isApt
    -- A valid configuration leaves room for a slot of each class.
    obtain ⟨size, sized, fits⟩ := (Config.validate_iff.mp fresh.valid).2.2.2 sizeClass
    have length : node.pool.arena.slotLength sizeClass = size := by
      rw [Arena.slotLength, fresh.capacities, sized]
      rfl
    refine Nat.lt_min.mpr ⟨Nat.lt_of_lt_of_le Nat.one_pos (Nat.le_max_right ..),
      apt.available_pos_iff.mpr ?_⟩
    rw [settled.sound.charted.arena_eq found, fresh.cursor, length, fresh.size]
    exact fits
  · rw [fresh.bare]
    rfl

end Network

end RankMail

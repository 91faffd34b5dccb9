import RankMail.Proofs.Network.Pooling

set_option autoImplicit false

/-! # Sending

A fragment that is sent goes from the hand of its node to the end of a queue, and says there what it
said before (`writeToPeer_meets`). If there is no such peer it goes back among the unused ones, and
a fragment of another node is not sent at all (`writeToPeer_foreign`).

A node that appends to a queue follows the link of the last fragment in it, and aborts if it has not
attached the owner of that fragment; `Network.Reaching` says whether that may happen.

Bytes are sent in a fragment of a class that holds them, and `Node.Refuses` says what may be
missing.
-/

namespace RankMail

/-- A node has attached every other node, or has an excuse. -/
def Network.Reaching (network : Network) (node : Node) (stuck : Prop) : Prop :=
  ∀ {rank peer}, network.nodes rank = some peer → (node.segmentOf? rank).isSome = true ∨ stuck

theorem Network.evolves_scene {network : Network} {rank : UInt32} {scene after : Scene Node}
    {touched : List (Place × Nat)} (grows : scene.actor.Grows after.actor)
    (keeps : scene.memory.Keeps touched after.memory) :
    (network.left rank scene).Evolves (network.left rank after) := by
  have evolves := @evolves_left (network.left rank scene) rank scene.actor touched after
    (by simp [left]) grows keeps
  rwa [left_left] at evolves

theorem Network.Reaching.grows {network : Network} {rank : UInt32} {scene after : Scene Node}
    {stuck : Prop} (reaching : (network.left rank scene).Reaching scene.actor stuck)
    (grows : scene.actor.Grows after.actor) :
    (network.left rank after).Reaching after.actor stuck := by
  intro other peer foundPeer
  rw [grows.segmentOf?]
  rcases Network.nodes_of_left foundPeer with ⟨rfl, _⟩ | ⟨differs, foundPeer⟩
  · exact reaching (Network.nodes_left ..)
  · have before : (network.left rank scene).nodes other = some peer := by
      simpa [Network.left, differs] using foundPeer
    exact reaching before

/-- What a handle knows of its slot is true. -/
structure Fragment.Fits (fragment : Fragment) (network : Network) (index : Nat)
    (descriptor : Descriptor) : Prop where
  slot : network.Slot fragment.offset index descriptor
  place : fragment.place = network.place fragment.offset
  capacity : fragment.capacity = descriptor.capacity.toNat
  sizeClass : fragment.sizeClass = descriptor.sizeClass
  inside : fragment.position < fragment.segment.size
  position : fragment.offset.position = UInt32.ofNat fragment.position

/-- What is written when a slot is appended to the queue of a rank and its doorbell rings: the link
of the slot, the tail, the link of what was last before, or the head if nothing was, and the count
of rings. -/
def Network.appending (network : Network) (rank : UInt32) (offset : Offset) : List (Place × Nat) :=
  let chain := network.chain rank
  [(network.place offset, 8), (chain.tailPlace, 8),
    (chain.linkPlace (chain.tail network.world.memory), 8),
    (⟨network.region rank, doorbellStart⟩, 4)]

theorem Charted.fits {directory : String} {mapped : List Segment} {network : Network}
    {rank : UInt32} {node : Node} {fragment : Fragment}
    (charted : Charted directory mapped network) (carved : network.AreCarved)
    (found : network.nodes rank = some node) (handle : node.IsHandle fragment) :
    fragment.segment = node.segment ∧ fragment.offset.rank = rank ∧
      ∃ index descriptor, fragment.Fits network index descriptor := by
  obtain ⟨index, descriptor, has, rfl⟩ := handle
  have offset := charted.offset_handle found index descriptor
  have small := charted.position_lt carved found has
  have within := (carved found).within has
  refine ⟨charted.arena_eq found, by rw [offset], index, descriptor, ?_, ?_, rfl, rfl, ?_, rfl⟩
  · rw [offset]
    exact charted.slot_of_has carved found has
  · rw [offset, Network.place_of_node (by exact found),
      UInt32.toNat_ofNat_of_lt' small, ← charted.arena_eq found]
    rfl
  · simp only [Descriptor.stop, headerSize] at within
    simp only [Arena.handle]
    omega

namespace Sound

variable {directory : String} {mapped : List Segment} {network : Network} {rank : UInt32}
  {node : Node} {pending : UInt32 → List Item} {hand : List Offset} {scene : Scene Node}
  {memory : Memory} {fragment : Fragment} {stuck : Prop}

/-! ## Filling a slot -/

/-- Something is written into the body of an open slot. -/
theorem fill {touched : List (Place × Nat)} {offset : Offset} {index : Nat}
    {descriptor : Descriptor} (sound : Sound directory mapped network pending hand)
    (found : network.nodes rank = some node) (opened : Open network hand offset)
    (slot : network.Slot offset index descriptor)
    (keeps : network.world.memory.Keeps touched memory)
    (inside : ∀ range ∈ touched, ∃ distance, range.1 = (network.place offset).shift distance ∧
      20 ≤ distance ∧ distance + range.2 ≤ headerSize + descriptor.capacity.toNat)
    (notices : List Notice) :
    Sound directory mapped (network.left rank ⟨node, memory, notices⟩) pending hand := by
  have changes : network.Changes [.body offset descriptor.capacity.toNat]
      network.world.memory memory := by
    constructor
    · intro zone member
      obtain rfl := List.mem_singleton.mp member
      exact ⟨_, _, slot, rfl⟩
    · refine keeps.widen fun {place count} positive apart range member => ?_
      obtain ⟨distance, here, above, below⟩ := inside range member
      rw [here]
      simp only [List.map_cons, List.map_nil, Memory.apartFrom_cons, Memory.apartFrom_nil,
        Network.range, Network.zonePlace, Zone.home, Zone.start, Zone.length, Place.shift,
        and_true, Memory.Apart, headerSize] at apart below ⊢
      omega
  refine sound.touch found changes (fun zone member => ?_) (fun _ => .inl (by simp)) notices
  obtain rfl := List.mem_singleton.mp member
  exact .inl ⟨offset, rfl, opened⟩

/-! ## Taking a fragment back -/

theorem free_recycles
    (sound : Sound directory mapped (network.left rank scene) pending (fragment.offset :: hand))
    (handle : scene.actor.IsHandle fragment) :
    (Node.free fragment scene).Meets False fun result after =>
      result = .ok () ∧ scene.Recycles fragment after ∧
        Sound directory mapped (network.left rank after) pending hand := by
  have same : ¬fragment.segment.file.base ≠ scene.actor.pool.arena.segment.file.base := by
    obtain ⟨index, descriptor, _, rfl⟩ := handle
    exact fun differs => differs rfl
  have recycled := Node.meets_inPool.mp (sound.recycles_meets handle)
  refine Node.meets_inPool.mpr ?_
  rw [Pool.put, Action.bind_done (Scene.self_apply _), if_neg same]
  exact recycled

theorem free_meets
    (sound : Sound directory mapped (network.left rank scene) pending (fragment.offset :: hand))
    (handle : scene.actor.IsHandle fragment) :
    (Node.free fragment scene).Meets False fun result after =>
      result = .ok () ∧ scene.actor.Grows after.actor ∧
        Sound directory mapped (network.left rank after) pending hand :=
  (sound.free_recycles handle).mono fun _ _ => And.imp_right (And.imp_left Scene.Recycles.grows)

theorem free_foreign (sound : Sound directory mapped (network.left rank scene) pending hand)
    (handle : (network.left rank scene).IsHandle fragment)
    (foreign : fragment.segment.rank ≠ rank) :
    Node.free fragment scene = .failed (.refused .foreignFragment) scene := by
  obtain ⟨other, peer, foundPeer, index, descriptor, _, rfl⟩ := handle
  have found := network.nodes_left rank scene
  have placed := sound.charted.placed foundPeer
  have differs : other ≠ rank := by
    rintro rfl
    apply foreign
    rw [Arena.handle, sound.charted.arena_eq foundPeer, placed.segmentRank]
  obtain ⟨here, _⟩ := sound.charted.peers found (sound.charted.own_segment found)
  obtain ⟨there, _⟩ := sound.charted.peers foundPeer (sound.charted.own_segment foundPeer)
  -- The pool tells segments apart by their addresses in its own process, and mappings of the two
  -- nodes begin at different ones.
  have bases := sound.charted.base_ne there here
    (sound.charted.segment_ne foundPeer found differs)
    (Nat.lt_trans (by decide) placed.above)
    (Nat.lt_trans (by decide) (sound.charted.placed found).above)
  rw [← sound.charted.arena_eq found, ← sound.charted.arena_eq foundPeer] at bases
  change (peer.pool.arena.handle index descriptor).segment.file.base ≠
    scene.actor.pool.arena.segment.file.base at bases
  have refused : Pool.put (peer.pool.arena.handle index descriptor)
      ⟨scene.actor.pool, scene.memory, scene.notices⟩ =
        .failed (.refused .foreignFragment) ⟨scene.actor.pool, scene.memory, scene.notices⟩ := by
    rw [Pool.put, Action.bind_done (Scene.self_apply _), if_pos bases]
    rfl
  rw [Node.free, Node.inPool, Scene.inPart_apply, refused]
  rfl

/-! ## Appending to a queue -/

/-- Something is written into the words of a doorbell. -/
theorem touch_bell {touched : List (Place × Nat)} {peer : UInt32} {peerNode : Node}
    (sound : Sound directory mapped network pending hand) (found : network.nodes rank = some node)
    (foundPeer : network.nodes peer = some peerNode)
    (keeps : network.world.memory.Keeps touched memory)
    (inside : ∀ range ∈ touched, range.1.region = peerNode.segment.file.region ∧
      doorbellStart ≤ range.1.address ∧ range.1.address + range.2 ≤ doorbellStart + 8)
    (notices : List Notice) :
    Sound directory mapped (network.left rank ⟨node, memory, notices⟩) pending hand := by
  have changes : network.Changes [.bell peer] network.world.memory memory := by
    constructor
    · intro zone member
      obtain rfl := List.mem_singleton.mp member
      exact ⟨peerNode, foundPeer⟩
    · refine keeps.widen fun {place count} positive apart range member => ?_
      obtain ⟨region, above, below⟩ := inside range member
      simp only [List.map_cons, List.map_nil, Memory.apartFrom_cons, Memory.apartFrom_nil,
        Network.range, Network.zonePlace, Zone.home, Zone.start, Zone.length,
        Network.region_of_node foundPeer, and_true, Memory.Apart, region] at apart ⊢
      omega
  refine sound.touch found changes (fun zone member => ?_) (fun _ => .inl (by simp)) notices
  exact .inr ⟨peer, List.mem_singleton.mp member⟩

theorem ring {peer : UInt32} {peerNode : Node} {target : Segment}
    (sound : Sound directory mapped network pending hand) (found : network.nodes rank = some node)
    (foundPeer : network.nodes peer = some peerNode)
    (same : target.file.region = peerNode.segment.file.region) (count : Nat)
    (notices : List Notice) :
    Sound directory mapped (network.left rank ⟨node, network.world.memory.store
      DoorbellField.rings target.doorbellBlock count, notices⟩) pending hand := by
  refine sound.touch_bell found foundPeer
    (network.world.memory.keeps_store DoorbellField.rings target.doorbellBlock count) ?_ notices
  exact List.forall_mem_singleton.mpr
    ⟨same, Nat.le_refl doorbellStart, (by decide : doorbellStart + 4 ≤ doorbellStart + 8)⟩

/-- A node that reaches every other one reaches the owners of what is pending. -/
theorem reaches_pending (sound : Sound directory mapped network pending hand)
    (reaching : network.Reaching node stuck) (peer : UInt32) :
    ∀ item ∈ pending peer, (node.segmentOf? item.offset.rank).isSome = true ∨ stuck := by
  intro item inside
  obtain ⟨_, _, owner, foundOwner, _⟩ :=
    sound.isCarved (.queued peer) (List.mem_map.mpr ⟨item, inside, rfl⟩)
  exact reaching foundOwner

/-- The tail of a rank's queue names what is pending there last. -/
theorem tail_eq (sound : Sound directory mapped network pending hand) {peer : UInt32}
    {peerNode : Node} (found : network.nodes peer = some peerNode) :
    (.free :: (pending peer).map Item.offset).getLast? =
      some ((network.chain peer).tail network.world.memory) :=
  (sound.holds found).ends

/-- A slot in hand is appended to the queue of an attached node, and the doorbell rings; nothing
else is written. The links in the queue lead to the segments of the ranks that own what is pending
there. -/
theorem deliver_writes {peer : UInt32} {target : Segment} (item : Item)
    (sound : Sound directory mapped (network.left rank scene) pending (item.offset :: hand))
    (attached : scene.actor.segmentOf? peer = some target)
    (carries : (network.left rank scene).Carries peer item)
    (own : (scene.actor.segmentOf? item.offset.rank).isSome = true)
    (reaches : ∀ item ∈ pending peer,
      (scene.actor.segmentOf? item.offset.rank).isSome = true ∨ stuck) :
    (Scene.inMemory (scene.actor.deliver target item.offset) scene).Meets stuck
      fun result after => result = .ok () ∧ after.actor = scene.actor ∧
        scene.memory.Keeps ((network.left rank scene).appending peer item.offset) after.memory ∧
        Sound directory mapped (network.left rank after)
          (Function.update pending peer (pending peer ++ [item])) hand := by
  obtain ⟨node, memory, notices⟩ := scene
  have found := network.nodes_left rank ⟨node, memory, notices⟩
  obtain ⟨_, _, targetNode, foundTarget, same⟩ := sound.charted.peers found attached
  have fragments : ∀ offset ∈ (pending peer).map Item.offset,
      (network.left rank ⟨node, memory, notices⟩).IsCarved offset := fun offset inside =>
    sound.isCarved (.queued peer) inside
  have new := sound.isCarved .hand List.mem_cons_self
  have separate := sound.charted.separate sound.carved peer
  -- The slot is in the hand, so it is in no queue.
  have away : item.offset ∉ (pending peer).map Item.offset := fun inside => by
    cases @Exact.once _ _ sound.exact (.queued peer) .hand item.offset inside List.mem_cons_self
  have region : target.file.region =
      (network.left rank ⟨node, memory, notices⟩).region peer := by
    rw [same.region, Network.region_of_node foundTarget]
  have block : (target.queue node.addresses).block =
      ((network.left rank ⟨node, memory, notices⟩).chain peer).block := by
    show (⟨target.file.region, queueStart⟩ : Place) = ⟨_, queueStart⟩
    rw [region]
  have finds : ∀ {offset}, (network.left rank ⟨node, memory, notices⟩).IsCarved offset →
      ∀ {excuse}, ((node.segmentOf? offset.rank).isSome = true ∨ excuse) →
      (target.queue node.addresses).ReachesOr
        ((network.left rank ⟨node, memory, notices⟩).chain peer) excuse offset := by
    intro offset carved excuse known
    refine (sound.charted.header_or sound.carved found carved known).imp_left fun header => ?_
    exact ⟨block, header, separate.proper carved⟩
  have appended : ((target.queue node.addresses).enqueue item.offset memory).Meets stuck _ :=
    Queue.enqueue_writes separate (sound.holds foundTarget) fragments
      (sound.exact.nodup (.queued peer)) new away block
      ((@finds _ new False (.inl own)).resolve_right And.right) fun offset inside => by
        obtain ⟨other, member, rfl⟩ := List.mem_map.mp inside
        exact finds (fragments _ inside) (reaches other member)
  refine Outcome.meets_mapState.mpr (Action.meets_bind (appended.mono ?_))
  rintro result after ⟨rfl, holds, keeps⟩
  -- The slot is in the queue before the doorbell rings.
  have queued := sound.enqueue found foundTarget carries holds
    (List.mem_of_getLast? (sound.tail_eq foundTarget)) keeps notices
  rw [Network.left_left] at queued
  have rung := queued.ring (network.nodes_left ..) foundTarget same.region
    (after.load DoorbellField.rings target.doorbellBlock + 1) notices
  rw [Network.left_left] at rung
  refine ⟨rfl, rfl, ?_, rung⟩
  have rang := keeps.trans (Memory.keeps_store after DoorbellField.rings target.doorbellBlock
    (after.load DoorbellField.rings target.doorbellBlock + 1))
  have bell : target.doorbellBlock.shift DoorbellField.rings.distance =
      ⟨(network.left rank ⟨node, memory, notices⟩).region peer, doorbellStart⟩ := by
    rw [← region]
    rfl
  rw [bell] at rang
  exact rang

theorem clearFlags {index : Nat} {descriptor : Descriptor}
    (sound : Sound directory mapped (network.left rank scene) pending (fragment.offset :: hand))
    (fits : fragment.Fits (network.left rank scene) index descriptor) :
    Sound directory mapped (network.left rank ⟨scene.actor, scene.memory.store HeaderField.flags
        fragment.place (0 : UInt16).toNat, scene.notices⟩) pending (fragment.offset :: hand) ∧
      ∀ target, (network.left rank ⟨scene.actor, scene.memory.store HeaderField.flags
        fragment.place (0 : UInt16).toNat, scene.notices⟩).Carries target
          ⟨fragment.offset, some ((network.left rank scene).letter fragment.offset)⟩ := by
  have keeps := scene.memory.keeps_store HeaderField.flags fragment.place (0 : UInt16).toNat
  rw [fits.place] at keeps ⊢
  have filled := sound.fill (network.nodes_left ..) (.inl List.mem_cons_self) fits.slot keeps
    (fun range member => ⟨24, List.mem_singleton.mp member ▸ rfl, by decide, by
      rw [List.mem_singleton.mp member]
      show 24 + 2 ≤ 64 + _
      omega⟩) scene.notices
  rw [Network.left_left] at filled
  refine ⟨filled, fun target => ⟨?_, ?_⟩⟩
  · exact Memory.isReturnedAt_store_zero ..
  · exact (Memory.letterAt_store_flags (sound.charted.names sound.carved fits.slot) _ _).symm

theorem tail_evolves {after : Network} {mappedAfter : List Segment} {handAfter : List Offset}
    (sound : Sound directory mapped network pending hand)
    (soundAfter : Sound directory mappedAfter after pending handAfter)
    (evolves : network.Evolves after) {peer : UInt32} {peerNode : Node}
    (found : network.nodes peer = some peerNode) :
    (after.chain peer).tail after.world.memory =
      (network.chain peer).tail network.world.memory := by
  obtain ⟨next, foundNext, _⟩ := evolves.forth found
  exact Option.some.inj ((soundAfter.tail_eq foundNext).symm.trans (sound.tail_eq found))

theorem appending_eq {after : Network} {mappedAfter : List Segment} {handAfter : List Offset}
    (sound : Sound directory mapped network pending hand)
    (soundAfter : Sound directory mappedAfter after pending handAfter)
    (evolves : network.Evolves after) {peer : UInt32} {peerNode : Node}
    (found : network.nodes peer = some peerNode) (offset : Offset) :
    after.appending peer offset = network.appending peer offset := by
  simp only [Network.appending, sound.tail_evolves soundAfter evolves found]
  rw [evolves.chain, evolves.place, evolves.region]

/-- A fragment of the node itself is sent and says what it says, or goes back among the unused
ones. If it is sent, its flags are written, and what has to be to append it. -/
theorem writeToPeer_writes
    (sound : Sound directory mapped (network.left rank scene) pending (fragment.offset :: hand))
    (handle : scene.actor.IsHandle fragment)
    (reaching : (network.left rank scene).Reaching scene.actor stuck) (peer : UInt32) :
    (Node.writeToPeer peer fragment scene).Meets stuck fun result after =>
      match result with
      | .ok () => after.actor = scene.actor ∧
          scene.memory.Keeps ((fragment.place.shift HeaderField.flags.distance, 2) ::
            (network.left rank scene).appending peer fragment.offset) after.memory ∧
          Sound directory mapped (network.left rank after) (Function.update pending peer
            (pending peer ++
              [⟨fragment.offset, some ((network.left rank scene).letter fragment.offset)⟩])) hand
      | .error fault => fault = .unknownPeer peer ∧ scene.actor.segmentOf? peer = none ∧
          scene.Recycles fragment after ∧
          Sound directory mapped (network.left rank after) pending hand := by
  have found := network.nodes_left rank scene
  obtain ⟨segment, ranks, index, descriptor, fits⟩ :=
    sound.charted.fits sound.carved found handle
  have own := sound.charted.own_segment found
  rw [Node.writeToPeer, Action.bind_done (Scene.self_apply _)]
  cases attached : scene.actor.segmentOf? peer with
  | none =>
      -- Without the peer the fragment goes back among the unused ones.
      refine Action.meets_bind ((sound.free_recycles handle).always ?_)
      rintro result after ⟨rfl, recycles, freed⟩
      exact ⟨rfl, rfl, recycles, freed⟩
  | some target =>
      have inside := fits.inside
      rw [segment] at inside
      have offset : scene.actor.addresses.offset fragment.address = .ok fragment.offset := by
        rw [AddressMap.offset, (sound.charted.placed found).addressRank, Fragment.address, segment,
          sound.charted.offsetFor_eq found own inside, ← ranks, ← fits.position]
      obtain ⟨cleared, carries⟩ := sound.clearFlags fits
      have keeps := scene.memory.keeps_store HeaderField.flags fragment.place (0 : UInt16).toNat
      have known : (scene.actor.segmentOf? fragment.offset.rank).isSome = true := by
        rw [ranks, own]
        rfl
      obtain ⟨_, _, _, foundPeer, _⟩ := sound.charted.peers found attached
      have appending := sound.appending_eq cleared (Network.evolves_scene (.refl _) keeps) foundPeer
        fragment.offset
      have delivered := deliver_writes ⟨fragment.offset, some _⟩ cleared attached (carries peer)
        known (sound.reaches_pending reaching peer)
      refine Action.meets_bind (Action.meets_ofAbort (.inl ⟨_, offset, ?_⟩))
      change (Scene.inMemory (scene.actor.deliver target fragment.offset) ⟨scene.actor,
        scene.memory.store HeaderField.flags fragment.place (0 : UInt16).toNat,
        scene.notices⟩).Meets stuck _
      refine delivered.mono ?_
      rintro result after ⟨rfl, actor, keepsMore, sent⟩
      exact ⟨actor, appending ▸ keeps.trans keepsMore, sent⟩

theorem writeToPeer_meets
    (sound : Sound directory mapped (network.left rank scene) pending (fragment.offset :: hand))
    (handle : scene.actor.IsHandle fragment)
    (reaching : (network.left rank scene).Reaching scene.actor stuck) (peer : UInt32) :
    (Node.writeToPeer peer fragment scene).Meets stuck fun result after =>
      scene.actor.Grows after.actor ∧
        match result with
        | .ok () => Sound directory mapped (network.left rank after) (Function.update pending peer
            (pending peer ++
              [⟨fragment.offset, some ((network.left rank scene).letter fragment.offset)⟩])) hand
        | .error fault => fault = .unknownPeer peer ∧ scene.actor.segmentOf? peer = none ∧
            Sound directory mapped (network.left rank after) pending hand := by
  refine (sound.writeToPeer_writes handle reaching peer).mono ?_
  rintro (fault | value) after ends
  · obtain ⟨unknown, missing, recycles, freed⟩ := ends
    exact ⟨recycles.grows, unknown, missing, freed⟩
  · obtain ⟨actor, _, sent⟩ := ends
    exact ⟨actor ▸ .refl _, sent⟩

theorem writeToPeer_foreign
    (sound : Sound directory mapped (network.left rank scene) pending hand)
    (handle : (network.left rank scene).IsHandle fragment)
    (foreign : fragment.segment.rank ≠ rank) (excused : stuck) (peer : UInt32) :
    (Node.writeToPeer peer fragment scene).Meets stuck fun result after =>
      result = .error (.refused .foreignFragment) ∧ after = scene := by
  rw [Node.writeToPeer, Action.bind_done (Scene.self_apply _)]
  cases attached : scene.actor.segmentOf? peer with
  | none =>
      refine Action.meets_bind ?_
      rw [sound.free_foreign handle foreign]
      exact ⟨rfl, rfl⟩
  | some target =>
      obtain ⟨other, peerNode, foundPeer, handle⟩ := handle
      have found := network.nodes_left rank scene
      obtain ⟨segment, _, index, descriptor, fits⟩ :=
        sound.charted.fits sound.carved foundPeer handle
      have placed := sound.charted.placed foundPeer
      have differs : other ≠ rank := by
        rintro rfl
        exact foreign (by rw [segment, placed.segmentRank])
      obtain ⟨there, _⟩ := sound.charted.peers foundPeer (sound.charted.own_segment foundPeer)
      have inside := fits.inside
      rw [segment] at inside
      have refused := sound.charted.offsetFor_other found (sound.charted.own_segment found) there
        (sound.charted.segment_ne foundPeer found differs) inside
      -- A node makes offsets of addresses in its own segment only.
      have offset : scene.actor.addresses.offset fragment.address = .error
          (.outsideSegment (peerNode.segment.addressAt fragment.position) rank) := by
        rw [AddressMap.offset, (sound.charted.placed found).addressRank, Fragment.address, segment,
          refused]
      exact Action.meets_bind (Action.meets_ofAbort (.inr ⟨⟨_, offset⟩, excused⟩))

/-! ## Sending bytes -/

theorem capacity_of_handle (sound : Sound directory mapped network pending hand)
    (found : network.nodes rank = some node) (handle : node.IsHandle fragment) :
    fragment.capacity = node.pool.arena.capacities.capacity fragment.sizeClass := by
  obtain ⟨index, descriptor, has, rfl⟩ := handle
  exact (sound.carved found).capacity has

theorem letter_of_handle (sound : Sound directory mapped network pending hand)
    (found : network.nodes rank = some node) (handle : node.IsHandle fragment) :
    network.letter fragment.offset = ⟨rank, rank, fragment.payload network.world.memory⟩ := by
  obtain ⟨_, ranks, index, descriptor, fits⟩ := sound.charted.fits sound.carved found handle
  have names := sound.charted.names sound.carved fits.slot
  have source := names.source
  rw [← fits.place] at names
  rw [Network.letter, Memory.letterAt, source, Fragment.payload_eq names fits.capacity,
    UInt32.ofNat_toNat, fits.place, ranks]

/-- Bytes that fit are filled into a fragment in hand, which then says them. -/
theorem write_meets {payload : List UInt8}
    (sound : Sound directory mapped (network.left rank scene) pending (fragment.offset :: hand))
    (handle : scene.actor.IsHandle fragment) (enough : payload.length ≤ fragment.capacity) :
    (Scene.inMemory (fragment.write payload) scene).Meets False fun result after =>
      result = .ok () ∧ after.actor = scene.actor ∧
        Sound directory mapped (network.left rank after) pending (fragment.offset :: hand) ∧
          (network.left rank after).letter fragment.offset = ⟨rank, rank, payload⟩ := by
  have found := network.nodes_left rank scene
  obtain ⟨_, _, index, descriptor, fits⟩ := sound.charted.fits sound.carved found handle
  have capacity := fits.capacity
  have small := descriptor.capacity.toNat_lt
  have keeps := (scene.memory.keeps_write fragment.payloadPlace payload).trans
    (Memory.keeps_store _ HeaderField.length fragment.place payload.length)
  rw [Scene.inMemory_apply, Fragment.write_eq enough]
  have filled := sound.fill found (.inl List.mem_cons_self) fits.slot keeps
    (fun range member => ?_) scene.notices
  · rw [Network.left_left] at filled
    refine ⟨rfl, rfl, filled, ?_⟩
    rw [filled.letter_of_handle (Network.nodes_left ..) handle]
    exact congrArg _ (Fragment.payload_write enough (by omega) scene.memory)
  · rw [← fits.place]
    rcases List.mem_pair.mp member with rfl | rfl
    · exact ⟨64, rfl, by decide, by simp only [headerSize]; omega⟩
    · exact ⟨20, rfl, by decide, by simp only [headerSize, HeaderField.length]; omega⟩

end Sound

namespace Node

variable {scene : Scene Node} {peer : UInt32} {payload : List UInt8} {sizeClass : SizeClass}

/-- Why a node does not send bytes to a rank: no class holds them, there is no slot of the class
that does, or it has not attached the rank. -/
inductive Refuses (node : Node) (peer : UInt32) (payload : List UInt8) : Fault → Prop
  | oversize (none : node.pool.arena.capacities.forPayload payload.length = none) :
      Refuses node peer payload
        (.oversize payload.length (node.pool.arena.capacities.capacity .maxSend))
  | exhausted {sizeClass : SizeClass}
      (chosen : node.pool.arena.capacities.forPayload payload.length = some sizeClass) :
      Refuses node peer payload (.exhausted sizeClass)
  | unattached {sizeClass : SizeClass}
      (chosen : node.pool.arena.capacities.forPayload payload.length = some sizeClass)
      (missing : node.segmentOf? peer = none) : Refuses node peer payload (.unknownPeer peer)

theorem send_of_none (peer : UInt32)
    (none : scene.actor.pool.arena.capacities.forPayload payload.length = none) :
    Node.send peer payload scene = .failed (.oversize payload.length
      (scene.actor.pool.arena.capacities.capacity .maxSend)) scene := by
  have oversize : scene.actor.classFor payload.length = .error (.oversize payload.length
      (scene.actor.pool.arena.capacities.capacity .maxSend)) := by
    simp only [Node.classFor, none]
  rw [Node.send, Action.bind_done (Scene.self_apply _), oversize]
  rfl

theorem send_of_class (peer : UInt32)
    (chosen : scene.actor.pool.arena.capacities.forPayload payload.length = some sizeClass) :
    Node.send peer payload scene = (Node.alloc sizeClass >>= fun fragment =>
      Scene.inMemory (fragment.write payload) >>= fun _ => Node.writeToPeer peer fragment)
        scene := by
  have classed : scene.actor.classFor payload.length = .ok sizeClass := by
    simp only [Node.classFor, chosen]
  rw [Node.send, Action.bind_done (Scene.self_apply _), classed,
    Action.bind_done (Action.ofFault_ok ..)]

end Node

namespace Sound

variable {directory : String} {mapped : List Segment} {network : Network} {rank : UInt32}
  {pending : UInt32 → List Item} {hand : List Offset} {scene : Scene Node} {stuck : Prop}

theorem alloc_holds {length : Nat} {sizeClass : SizeClass}
    (sound : Sound directory mapped (network.left rank scene) pending hand)
    (chosen : scene.actor.pool.arena.capacities.forPayload length = some sizeClass) :
    (Node.alloc sizeClass scene).Meets False fun result after =>
      scene.actor.Grows after.actor ∧
        match result with
        | .ok fragment =>
            Sound directory mapped (network.left rank after) pending (fragment.offset :: hand) ∧
              after.actor.IsHandle fragment ∧ fragment.sizeClass = sizeClass ∧
              length ≤ fragment.capacity
        | .error fault => fault = .exhausted sizeClass ∧
            Sound directory mapped (network.left rank after) pending hand := by
  refine (sound.alloc_meets sizeClass).mono ?_
  rintro (fault | fragment) after ⟨grows, allocated⟩
  · exact ⟨grows, allocated⟩
  · obtain ⟨held, handle, same⟩ := allocated
    -- The class was chosen for the length of the payload.
    have enough : length ≤ fragment.capacity := by
      rw [held.capacity_of_handle (Network.nodes_left ..) handle, same, grows.arena.capacities]
      exact (Capacities.forPayload_eq_some chosen).1
    exact ⟨grows, held, handle, same, enough⟩

/-- Bytes are sent in a fragment of a class that holds them. -/
theorem send_meets (sound : Sound directory mapped (network.left rank scene) pending hand)
    (reaching : (network.left rank scene).Reaching scene.actor stuck) (peer : UInt32)
    (payload : List UInt8) :
    (Node.send peer payload scene).Meets stuck fun result after =>
      scene.actor.Grows after.actor ∧
        match result with
        | .ok () => ∃ offset, Sound directory mapped (network.left rank after)
            (Function.update pending peer
              (pending peer ++ [⟨offset, some ⟨rank, rank, payload⟩⟩])) hand
        | .error fault => scene.actor.Refuses peer payload fault ∧
            Sound directory mapped (network.left rank after) pending hand := by
  cases chosen : scene.actor.pool.arena.capacities.forPayload payload.length with
  | none =>
      rw [Node.send_of_none peer chosen]
      exact ⟨.refl _, .oversize chosen, sound⟩
  | some sizeClass =>
      rw [Node.send_of_class peer chosen]
      refine Action.meets_bind ((sound.alloc_holds chosen).always ?_)
      rintro (fault | fragment) taken ⟨grows, allocated⟩
      · obtain ⟨rfl, sound⟩ := allocated
        exact ⟨grows, .exhausted chosen, sound⟩
      · obtain ⟨sound, handle, same, enough⟩ := allocated
        refine Action.meets_bind ((sound.write_meets handle enough).always ?_)
        rintro result written ⟨rfl, actor, sound, letter⟩
        have growsToo : scene.actor.Grows written.actor := actor ▸ grows
        refine (sound.writeToPeer_meets (actor ▸ handle) (reaching.grows growsToo) peer).mono ?_
        rw [letter]
        rintro (fault | value) after ⟨growsMore, sent⟩
        · obtain ⟨rfl, missing, sound⟩ := sent
          rw [growsToo.segmentOf?] at missing
          exact ⟨growsToo.trans growsMore, .unattached chosen missing, sound⟩
        · exact ⟨growsToo.trans growsMore, fragment.offset, sent⟩

end Sound

end RankMail

import RankMail.Proofs.Network.Basic
import RankMail.Proofs.Pool.Slots
import RankMail.Proofs.Queue.Quiet
import RankMail.Proofs.Site

set_option autoImplicit false

/-! # Where things lie in a network

Every node has a file of its own, and maps its own file and those of its peers, each mapping at
addresses that no other mapping has had. `Charted` says this of a network, and that what a node
knows of addresses is true.

An offset of a slot stands for one place, `Network.place`, whichever node uses it.

A network `Evolves` when its nodes work with their pools and with shared memory. Then the places
stay, and what is charted stays charted (`Charted.evolve`).
-/

namespace RankMail

def Segment.Clear (segment other : Segment) : Prop :=
  segment.file.base + segment.size ≤ other.file.base ∨
    other.file.base + other.size ≤ segment.file.base

/-- A node is what its rank and its directory say. -/
structure Node.Placed (node : Node) (directory : String) (rank : UInt32) : Prop where
  nodeRank : node.rank = rank
  nodeDirectory : node.directory = directory
  segmentRank : node.segment.rank = rank
  arena : node.pool.arena.segment = node.segment
  arenaRank : node.pool.arena.rank = rank
  addressRank : node.addresses.own = rank
  usable : rank.toNat ≤ maxRank
  above : arenaStart < node.segment.size
  below : node.segment.size ≤ maxSegmentSize
  /-- A node is not among its own peers. -/
  alone : node.peer? rank = none

/-- Mappings lie behind one another, at whole pages, and end before an address. -/
structure Laid (mapped : List Segment) (nextBase : Nat) : Prop where
  spread : ∀ {segment}, segment ∈ mapped → 0 < segment.file.base ∧
    segment.file.base % pageSize = 0 ∧ segment.file.base + segment.size < nextBase
  clear : ∀ {one two}, one ∈ mapped → two ∈ mapped → one = two ∨ one.Clear two
  next : 0 < nextBase ∧ nextBase % pageSize = 0

/-- The nodes of a network have files of their own and know where they have mapped what; `mapped`
are all mappings that there have been. -/
structure Charted (directory : String) (mapped : List Segment) (network : Network) : Prop where
  placed : ∀ {rank node}, network.nodes rank = some node → node.Placed directory rank
  knows : ∀ {rank node}, network.nodes rank = some node → ∀ other,
    node.addresses.find? other = (node.segmentOf? other).map Segment.mapping
  peers : ∀ {rank node other segment}, network.nodes rank = some node →
    node.segmentOf? other = some segment → segment ∈ mapped ∧ segment.rank = other ∧
      ∃ peer, network.nodes other = some peer ∧ segment.SameFile peer.segment
  regions : ∀ {rank node other peer}, network.nodes rank = some node →
    network.nodes other = some peer → node.segment.file.region = peer.segment.file.region →
      rank = other
  size : ∀ {rank node}, network.nodes rank = some node →
    (network.world.memory.region node.segment.file.region).size = node.segment.size ∧
      node.segment.file.region < network.world.memory.fresh
  laid : Laid mapped network.world.nextBase
  disk : network.world.disk.IsProper network.world.memory.fresh
  filed : ∀ {rank node}, network.nodes rank = some node →
    network.world.disk.Files directory (Segment.fileName rank) node.segment.file.region
  removed : ∀ {segment}, segment ∈ network.world.segments → segment.removesFile = true →
    ∃ rank node, network.nodes rank = some node ∧ segment.file.base = node.segment.file.base

namespace Network

variable {network : Network} {rank : UInt32} {node : Node} {offset other : Offset}
  {index : Nat} {descriptor : Descriptor}

def region (network : Network) (rank : UInt32) : Nat :=
  ((network.nodes rank).map fun node => node.segment.file.region).getD 0

def place (network : Network) (offset : Offset) : Place :=
  ⟨network.region offset.rank, offset.position.toNat⟩

/-- Where the words of a rank's queue lie. -/
def chain (network : Network) (rank : UInt32) : Chain :=
  ⟨⟨network.region rank, queueStart⟩, network.place⟩

/-- A slot that the node of its rank has carved. -/
def Slot (network : Network) (offset : Offset) (index : Nat) (descriptor : Descriptor) : Prop :=
  ∃ node, network.nodes offset.rank = some node ∧ node.pool.arena.Has index descriptor ∧
    descriptor.position = offset.position.toNat

/-- The offset of a slot that has been carved. -/
def IsCarved (network : Network) (offset : Offset) : Prop :=
  ∃ index descriptor, network.Slot offset index descriptor

def AreCarved (network : Network) : Prop :=
  ∀ {rank node}, network.nodes rank = some node →
    node.pool.arena.Carved network.world.memory

theorem region_of_node (found : network.nodes rank = some node) :
    network.region rank = node.segment.file.region := by
  rw [region, found]
  rfl

theorem place_of_node (found : network.nodes offset.rank = some node) :
    network.place offset = node.segment.placeAt offset.position.toNat := by
  rw [place, region_of_node found]
  rfl

theorem Slot.position_eq (slot : network.Slot offset index descriptor) :
    UInt32.ofNat descriptor.position = offset.position := by
  obtain ⟨_, _, _, position⟩ := slot
  rw [position, UInt32.ofNat_toNat]

end Network

/-! ## How a network goes on -/

/-- An arena keeps the slots that it has carved, and may carve more. -/
structure Arena.Grows (arena after : Arena) : Prop where
  segment : after.segment = arena.segment
  capacities : after.capacities = arena.capacities
  rank : after.rank = arena.rank
  has : ∀ {index descriptor}, arena.Has index descriptor → after.Has index descriptor

/-- A node changes nothing but its pool. -/
structure Node.Grows (node after : Node) : Prop where
  rest : after = { node with pool := after.pool }
  arena : node.pool.arena.Grows after.pool.arena

theorem Arena.Grows.refl (arena : Arena) : arena.Grows arena := ⟨rfl, rfl, rfl, id⟩

theorem Node.Grows.refl (node : Node) : node.Grows node := ⟨rfl, .refl _⟩

namespace Node.Grows

variable {node after : Node}

theorem segment (grows : node.Grows after) : after.segment = node.segment := by
  rw [grows.rest]

theorem addresses (grows : node.Grows after) : after.addresses = node.addresses := by
  rw [grows.rest]

theorem segmentOf? (grows : node.Grows after) (rank : UInt32) :
    after.segmentOf? rank = node.segmentOf? rank := by
  rw [grows.rest]
  rfl

end Node.Grows

/-- The nodes of a network have worked with their pools and with shared memory. -/
structure Network.Evolves (before after : Network) : Prop where
  forth : ∀ {rank node}, before.nodes rank = some node →
    ∃ next, after.nodes rank = some next ∧ node.Grows next
  back : ∀ {rank next}, after.nodes rank = some next →
    ∃ node, before.nodes rank = some node ∧ node.Grows next
  disk : after.world.disk = before.world.disk
  nextBase : after.world.nextBase = before.world.nextBase
  segments : after.world.segments = before.world.segments
  size : ∀ number, (after.world.memory.region number).size =
    (before.world.memory.region number).size
  fresh : before.world.memory.fresh ≤ after.world.memory.fresh

namespace Network

variable {network before after : Network} {rank : UInt32} {node next : Node} {offset : Offset}
  {index : Nat} {descriptor : Descriptor} {touched : List (Place × Nat)}

@[simp] theorem left_left (network : Network) (rank : UInt32) (one two : Scene Node) :
    (network.left rank one).left rank two = network.left rank two := by
  simp [left, World.leave]

theorem left_enter (found : network.nodes rank = some node) :
    network.left rank (network.world.enter node) = network := by
  obtain ⟨world, nodes, fragments, received, retired, log⟩ := network
  simp only [left, World.leave, World.enter, ← found, Function.update_eq_self]

/-- A node that does nothing but write leaves another memory. -/
theorem left_memory (found : network.nodes rank = some node) (memory : Memory) :
    network.left rank ⟨node, memory, network.world.notices⟩ =
      { network with world := { network.world with memory } } := by
  obtain ⟨world, nodes, fragments, received, retired, log⟩ := network
  simp only [left, World.leave, ← found, Function.update_eq_self]

/-- What a node does with its pool and with shared memory lets the network evolve. -/
theorem evolves_left {scene : Scene Node} (found : network.nodes rank = some node)
    (grows : node.Grows scene.actor)
    (keeps : Memory.Keeps touched network.world.memory scene.memory) :
    network.Evolves (network.left rank scene) where
  forth {other peer} foundPeer := by
    by_cases same : other = rank
    · subst same
      obtain rfl := Option.some.inj (found.symm.trans foundPeer)
      exact ⟨scene.actor, by simp [left], grows⟩
    · exact ⟨peer, by simpa [left, same] using foundPeer, .refl peer⟩
  back {other peer} foundPeer := by
    by_cases same : other = rank
    · subst same
      obtain rfl : scene.actor = peer := by simpa [left] using foundPeer
      exact ⟨node, found, grows⟩
    · exact ⟨peer, by simpa [left, same] using foundPeer, .refl peer⟩
  disk := rfl
  nextBase := rfl
  segments := rfl
  size := keeps.size
  fresh := keeps.fresh

namespace Evolves

theorem region (evolves : before.Evolves after) (rank : UInt32) :
    after.region rank = before.region rank := by
  cases found : before.nodes rank with
  | some node =>
      obtain ⟨next, foundNext, grows⟩ := evolves.forth found
      rw [region_of_node found, region_of_node foundNext, grows.segment]
  | none =>
      -- No node comes or goes.
      have missing : after.nodes rank = none := by
        by_contra present
        obtain ⟨next, foundNext⟩ := Option.ne_none_iff_exists'.mp present
        obtain ⟨node, foundNode, _⟩ := evolves.back foundNext
        simp [found] at foundNode
      rw [Network.region, Network.region, found, missing]

theorem place (evolves : before.Evolves after) (offset : Offset) :
    after.place offset = before.place offset := by
  rw [Network.place, evolves.region, Network.place]

theorem chain (evolves : before.Evolves after) (rank : UInt32) :
    after.chain rank = before.chain rank := by
  rw [Network.chain, evolves.region, funext evolves.place, Network.chain]

theorem slot (evolves : before.Evolves after) (slot : before.Slot offset index descriptor) :
    after.Slot offset index descriptor := by
  obtain ⟨node, found, has, position⟩ := slot
  obtain ⟨next, foundNext, grows⟩ := evolves.forth found
  exact ⟨next, foundNext, grows.arena.has has, position⟩

theorem isCarved (evolves : before.Evolves after) (carved : before.IsCarved offset) :
    after.IsCarved offset :=
  carved.imp fun _ => Exists.imp fun _ => evolves.slot

end Evolves

end Network

namespace Charted

variable {directory : String} {mapped : List Segment} {network : Network} {rank : UInt32}
  {node : Node} {offset other : Offset} {index second : Nat} {descriptor next : Descriptor}

def site (charted : Charted directory mapped network) : Site where
  home rank := (network.nodes rank).map fun node => ⟨node.segment.file.region, node.segment.size⟩
  apart := by
    intro rank other here there found foundOther same
    obtain ⟨node, foundNode, rfl⟩ := Option.map_eq_some_iff.mp found
    obtain ⟨peer, foundPeer, rfl⟩ := Option.map_eq_some_iff.mp foundOther
    exact charted.regions foundNode foundPeer same

theorem site_place (charted : Charted directory mapped network)
    (found : network.nodes offset.rank = some node) :
    charted.site.place offset = network.place offset := by
  have home : charted.site.home offset.rank =
      some ⟨node.segment.file.region, node.segment.size⟩ := by
    simp [site, found]
  rw [Network.place_of_node found]
  exact Site.place_of_home home

theorem arena_eq (charted : Charted directory mapped network)
    (found : network.nodes rank = some node) : node.pool.arena.segment = node.segment :=
  (charted.placed found).arena

theorem own_segment (charted : Charted directory mapped network)
    (found : network.nodes rank = some node) : node.segmentOf? rank = some node.segment := by
  rw [Node.segmentOf?, (charted.placed found).nodeRank, if_pos rfl]

theorem evolve {after : Network} (charted : Charted directory mapped network)
    (evolves : network.Evolves after) : Charted directory mapped after where
  placed found := by
    obtain ⟨old, foundOld, grows⟩ := evolves.back found
    have placed := charted.placed foundOld
    rw [grows.rest]
    exact
      { nodeRank := placed.nodeRank
        nodeDirectory := placed.nodeDirectory
        segmentRank := placed.segmentRank
        arena := grows.arena.segment.trans placed.arena
        arenaRank := grows.arena.rank.trans placed.arenaRank
        addressRank := placed.addressRank
        usable := placed.usable
        above := placed.above
        below := placed.below
        alone := placed.alone }
  knows found := by
    obtain ⟨old, foundOld, grows⟩ := evolves.back found
    intro other
    rw [grows.addresses, grows.segmentOf?]
    exact charted.knows foundOld other
  peers found attached := by
    obtain ⟨old, foundOld, grows⟩ := evolves.back found
    rw [grows.segmentOf?] at attached
    obtain ⟨member, rank, peer, foundPeer, same⟩ := charted.peers foundOld attached
    obtain ⟨next, foundNext, growsPeer⟩ := evolves.forth foundPeer
    exact ⟨member, rank, next, foundNext, by rw [growsPeer.segment]; exact same⟩
  regions found foundPeer := by
    obtain ⟨old, foundOld, grows⟩ := evolves.back found
    obtain ⟨oldPeer, foundOldPeer, growsPeer⟩ := evolves.back foundPeer
    rw [grows.segment, growsPeer.segment]
    exact charted.regions foundOld foundOldPeer
  size found := by
    obtain ⟨old, foundOld, grows⟩ := evolves.back found
    rw [grows.segment, evolves.size]
    exact ⟨(charted.size foundOld).1, Nat.lt_of_lt_of_le (charted.size foundOld).2 evolves.fresh⟩
  laid := by
    rw [evolves.nextBase]
    exact charted.laid
  disk := by
    rw [evolves.disk]
    exact
      { known := fun found => Nat.lt_of_lt_of_le (charted.disk.known found) evolves.fresh
        apart := charted.disk.apart }
  filed found := by
    obtain ⟨old, foundOld, grows⟩ := evolves.back found
    rw [grows.segment, evolves.disk]
    exact charted.filed foundOld
  removed inside removes := by
    rw [evolves.segments] at inside
    obtain ⟨rank, node, found, base⟩ := charted.removed inside removes
    obtain ⟨next, foundNext, grows⟩ := evolves.forth found
    exact ⟨rank, next, foundNext, by rw [grows.segment]; exact base⟩

/-! ## Slots -/

theorem isSlot (charted : Charted directory mapped network) (carved : network.AreCarved)
    (slot : network.Slot offset index descriptor) : charted.site.IsSlot offset := by
  obtain ⟨node, found, has, position⟩ := slot
  refine ⟨⟨node.segment.file.region, node.segment.size⟩, by simp [site, found], ?_, ?_⟩
  · rw [← position]
    exact (carved found).aligned has
  · have inside := (carved found).within has
    rw [charted.arena_eq found] at inside
    simp only [Descriptor.stop] at inside
    show _ ≤ node.segment.size
    rw [← position]
    omega

theorem proper (charted : Charted directory mapped network) (carved : network.AreCarved)
    (slot : network.Slot offset index descriptor) : offset ≠ .free :=
  (charted.isSlot carved slot).proper

theorem slot_unique (carved : network.AreCarved)
    (one : network.Slot offset index descriptor) (two : network.Slot offset second next) :
    index = second ∧ descriptor = next := by
  obtain ⟨node, found, has, position⟩ := one
  obtain ⟨again, foundAgain, hasNext, positionNext⟩ := two
  obtain rfl := Option.some.inj (found.symm.trans foundAgain)
  obtain rfl := (carved found).index_eq has hasNext (position.trans positionNext.symm)
  exact ⟨rfl, Option.some.inj (has.symm.trans hasNext)⟩

theorem slots_apart (charted : Charted directory mapped network) (carved : network.AreCarved)
    (one : network.Slot offset index descriptor) (two : network.Slot other second next)
    (differ : offset ≠ other) :
    Memory.Apart (network.place offset) (headerSize + descriptor.capacity.toNat)
      (network.place other) (headerSize + next.capacity.toNat) := by
  obtain ⟨node, found, has, position⟩ := one
  obtain ⟨peer, foundPeer, hasNext, positionNext⟩ := two
  rw [Network.place_of_node found, Network.place_of_node foundPeer]
  intro same
  -- In one file there are only slots of one node.
  have ranks : offset.rank = other.rank := charted.regions found foundPeer same
  rw [ranks, foundPeer] at found
  obtain rfl := Option.some.inj found
  have positions : descriptor.position ≠ next.position := by
    rw [position, positionNext]
    intro equal
    apply differ
    exact Offset.eq_of_toNat ranks equal
  simp only [Segment.placeAt]
  rw [← position, ← positionNext]
  -- Of two slots of an arena, the one that was carved first ends before the other begins.
  rcases Nat.lt_trichotomy index second with less | equal | more
  · have split := (carved foundPeer).apart has hasNext less
    simp only [Descriptor.stop] at split
    exact .inl (by omega)
  · subst equal
    exact absurd (congrArg Descriptor.position (Option.some.inj (has.symm.trans hasNext))) positions
  · have split := (carved foundPeer).apart hasNext has more
    simp only [Descriptor.stop] at split
    exact .inr (by omega)

theorem slot_above (carved : network.AreCarved) (slot : network.Slot offset index descriptor) :
    arenaStart ≤ offset.position.toNat := by
  obtain ⟨node, found, has, position⟩ := slot
  rw [← position]
  exact (carved found).above has

/-- The words of a queue share no byte, whichever slots are in it. -/
theorem separate (charted : Charted directory mapped network) (carved : network.AreCarved)
    (rank : UInt32) : (network.chain rank).Separate network.IsCarved where
  proper := fun ⟨_, _, slot⟩ => charted.proper carved slot
  fromBlock := by
    rintro offset ⟨index, descriptor, slot⟩ _
    have above := slot_above carved slot
    simp only [Network.chain, Network.place, queueStart, arenaStart] at above ⊢
    omega
  fromOther := by
    rintro offset other ⟨index, descriptor, one⟩ ⟨second, next, two⟩ differ same
    have split := charted.slots_apart carved one two differ same
    simp only [Network.chain, headerSize] at split ⊢
    omega

/-! ## What a node knows -/

theorem knows_rank (charted : Charted directory mapped network)
    (found : network.nodes rank = some node) {target : UInt32} {segment : Segment}
    (attached : node.segmentOf? target = some segment) :
    charted.site.Knows node.addresses target := by
  obtain ⟨inside, _, peer, foundPeer, same⟩ := charted.peers found attached
  refine ⟨⟨peer.segment.file.region, peer.segment.size⟩, segment.mapping, by simp [site, foundPeer],
    ?_, same.region, same.size, ?_⟩
  · rw [charted.knows found target, attached]
    rfl
  · have aligned := (charted.laid.spread inside).2.1
    simp only [pageSize, headerAlignment, Segment.mapping] at aligned ⊢
    omega

theorem resolve_missing (charted : Charted directory mapped network)
    (found : network.nodes rank = some node) (missing : node.segmentOf? offset.rank = none) :
    node.addresses.resolve offset = .error (.unregistered offset.rank) := by
  have unknown : node.addresses.expect offset.rank = .error (.unregistered offset.rank) := by
    rw [AddressMap.expect, charted.knows found, missing]
    rfl
  simp [AddressMap.resolve, unknown, bind, Except.bind]

/-- A node finds a slot of each rank whose segment it has mapped, and aborts for other ranks. -/
theorem header_or (charted : Charted directory mapped network) (carved : network.AreCarved)
    (found : network.nodes rank = some node) (slot : network.IsCarved offset) {stuck : Prop}
    (attached : (node.segmentOf? offset.rank).isSome = true ∨ stuck) :
    node.addresses.header offset = .ok (network.place offset) ∨
      (∃ cause, node.addresses.header offset = .error cause) ∧ stuck := by
  obtain ⟨index, descriptor, slot⟩ := slot
  obtain ⟨owner, foundOwner, _⟩ := id slot
  cases mapped : node.segmentOf? offset.rank with
  | some segment =>
      refine .inl ?_
      rw [← charted.site_place foundOwner]
      exact Site.header_eq (charted.isSlot carved slot) (charted.knows_rank found mapped)
  | none =>
      refine .inr ⟨⟨.unregistered offset.rank, ?_⟩, attached.resolve_left (by simp [mapped])⟩
      simp [AddressMap.header, charted.resolve_missing found mapped, bind, Except.bind]

theorem resolve_eq (charted : Charted directory mapped network) (carved : network.AreCarved)
    (found : network.nodes rank = some node) (slot : network.IsCarved offset) {segment : Segment}
    (attached : node.segmentOf? offset.rank = some segment) :
    node.addresses.resolve offset = .ok (segment.addressAt offset.position.toNat) := by
  obtain ⟨index, descriptor, slot⟩ := slot
  have proper := charted.proper carved slot
  obtain ⟨inside, _, peer, foundPeer, same⟩ := charted.peers found attached
  obtain ⟨home, foundHome, aligned, room⟩ := charted.isSlot carved slot
  have known : node.addresses.find? offset.rank = some segment.mapping := by
    rw [charted.knows found, attached]
    rfl
  obtain rfl : _ = home := by simpa [site, foundPeer] using foundHome
  refine (Site.resolve_of_mapping proper known ?_ aligned ?_).1
  · show _ ≤ segment.file.size
    rw [same.size]
    exact room
  · have base := (charted.laid.spread inside).2.1
    simp only [pageSize, headerAlignment, Segment.mapping] at base ⊢
    omega

theorem offsetFor_eq (charted : Charted directory mapped network)
    (found : network.nodes rank = some node) {target : UInt32} {segment : Segment}
    (attached : node.segmentOf? target = some segment) {position : Nat}
    (inside : position < segment.size) :
    node.addresses.offsetFor target (segment.addressAt position) =
      .ok ⟨target, UInt32.ofNat position⟩ := by
  obtain ⟨_, _, peer, foundPeer, _⟩ := charted.peers found attached
  have known : node.addresses.expect target = .ok segment.mapping := by
    rw [AddressMap.expect, charted.knows found, attached]
    rfl
  have usable := (charted.placed foundPeer).usable
  have distance : segment.addressAt position - segment.file.base = position :=
    Nat.add_sub_cancel_left ..
  have within : ¬(segment.addressAt position < segment.file.base ∨
      segment.file.size ≤ position) := by
    simp only [Segment.addressAt, Segment.size] at inside ⊢
    omega
  simp [AddressMap.offsetFor, known, bind, Except.bind, Segment.mapping, distance, within,
    Offset.ofRank?, usable]

theorem offsetFor_other (charted : Charted directory mapped network)
    (found : network.nodes rank = some node) {target : UInt32} {segment stranger : Segment}
    (attached : node.segmentOf? target = some segment) (member : stranger ∈ mapped)
    (differs : stranger ≠ segment) {position : Nat} (inside : position < stranger.size) :
    node.addresses.offsetFor target (stranger.addressAt position) =
      .error (.outsideSegment (stranger.addressAt position) target) := by
  obtain ⟨here, _, _, _, _⟩ := charted.peers found attached
  have known : node.addresses.expect target = .ok segment.mapping := by
    rw [AddressMap.expect, charted.knows found, attached]
    rfl
  have outside : stranger.addressAt position < segment.file.base ∨
      segment.file.size ≤ stranger.addressAt position - segment.file.base := by
    rcases charted.laid.clear member here with same | before | behind
    · exact absurd same differs
    · simp only [Segment.addressAt, Segment.size] at inside before ⊢
      omega
    · simp only [Segment.addressAt, Segment.size] at inside behind ⊢
      omega
  simp [AddressMap.offsetFor, known, bind, Except.bind, Segment.mapping, outside]

theorem segment_ne (charted : Charted directory mapped network)
    (found : network.nodes rank = some node) {target : UInt32} {peer : Node}
    (foundPeer : network.nodes target = some peer) (differs : rank ≠ target) :
    node.segment ≠ peer.segment := by
  intro same
  apply differs
  rw [← (charted.placed found).segmentRank, ← (charted.placed foundPeer).segmentRank, same]

theorem base_ne (charted : Charted directory mapped network) {one two : Segment}
    (here : one ∈ mapped) (there : two ∈ mapped) (differ : one ≠ two) (long : 0 < one.size)
    (longToo : 0 < two.size) : one.file.base ≠ two.file.base := by
  rcases charted.laid.clear here there with same | before | behind
  · exact absurd same differ
  · omega
  · omega

end Charted

end RankMail

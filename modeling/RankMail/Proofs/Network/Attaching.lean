import RankMail.Proofs.Network.Settled
import RankMail.Proofs.Segment.Lifecycle

set_option autoImplicit false

/-! # Attaching, detaching and closing

What a node attaches and what it detaches makes no difference to what there is in the files. A
network `Persists` when its files, its pools and all that is held stay as they are, and then it
stays settled as long as it is still charted (`Settled.persist`). New nodes that have carved nothing
may join it.

A node that attaches another one maps that node's file once more, behind all earlier mappings
(`Laid.cons`), whatever it has mapped and closed before.
-/

namespace RankMail

/-! ## Mappings -/

namespace Laid

variable {mapped : List Segment} {nextBase : Nat} {segment : Segment}

theorem skip (laid : Laid mapped nextBase) (length : Nat) :
    Laid mapped (nextBase + alignUp pageSize length) where
  spread inside := by
    obtain ⟨positive, aligned, below⟩ := laid.spread inside
    exact ⟨positive, aligned, by omega⟩
  clear := laid.clear
  next := by
    have aligned := (le_alignUp (show 0 < pageSize by decide) length).2
    have next := laid.next
    simp only [pageSize] at aligned next ⊢
    omega

theorem cons (laid : Laid mapped nextBase) (base : segment.file.base = nextBase) :
    Laid (segment :: mapped) (nextBase + alignUp pageSize (segment.size + 1)) where
  spread inside := by
    have room := (le_alignUp (show 0 < pageSize by decide) (segment.size + 1)).1
    rcases List.mem_cons.mp inside with rfl | inside
    · exact ⟨base ▸ laid.next.1, base ▸ laid.next.2, by omega⟩
    · exact (laid.skip (segment.size + 1)).spread inside
  clear {one two} here there := by
    -- Every earlier mapping ends before the new one begins.
    have behind : ∀ {other}, other ∈ mapped → other.file.base + other.size ≤ segment.file.base :=
      fun inside => by
        have below := (laid.spread inside).2.2
        omega
    rcases List.mem_cons.mp here with rfl | old
    · rcases List.mem_cons.mp there with rfl | oldToo
      · exact .inl rfl
      · exact .inr (.inr (behind oldToo))
    · rcases List.mem_cons.mp there with rfl | oldToo
      · exact .inr (.inl (behind old))
      · exact laid.clear old oldToo
  next := (laid.skip (segment.size + 1)).next

end Laid

/-! ## Networks that persist -/

/-- A node that has carved nothing, with a queue that is empty. -/
structure Node.IsNew (node : Node) (memory : Memory) : Prop where
  carved : node.pool.arena.Carved memory
  bare : node.pool.arena.descriptors = #[]
  unused : ∀ sizeClass, node.pool.free.get sizeClass = []
  head : memory.load SegmentField.head node.segment.place = Offset.free.word
  tail : memory.load SegmentField.tail node.segment.place = Offset.free.word

/-- The pools and the files of a network stay as they are, and so does all that is held. -/
structure Network.Persists (network after : Network) : Prop where
  forth : ∀ {rank node}, network.nodes rank = some node →
    ∃ next, after.nodes rank = some next ∧ next.pool = node.pool ∧ next.segment = node.segment
  back : ∀ {rank next}, after.nodes rank = some next →
    (∃ node, network.nodes rank = some node ∧ next.pool = node.pool ∧
      next.segment = node.segment) ∨
    (network.nodes rank = none ∧ next.IsNew after.world.memory)
  read : ∀ {rank node}, network.nodes rank = some node → ∀ address count,
    after.world.memory.read ⟨node.segment.file.region, address⟩ count =
      network.world.memory.read ⟨node.segment.file.region, address⟩ count
  fragments : after.fragments = network.fragments
  received : after.received = network.received
  retired : after.retired = network.retired
  log : after.log = network.log

namespace Network.Persists

variable {network after : Network} {rank : UInt32} {node : Node} {offset : Offset} {index : Nat}
  {descriptor : Descriptor}

theorem region (persists : network.Persists after) (found : network.nodes rank = some node) :
    after.region rank = network.region rank := by
  obtain ⟨next, foundNext, _, segment⟩ := persists.forth found
  rw [region_of_node found, region_of_node foundNext, segment]

theorem slot (persists : network.Persists after) :
    after.Slot offset index descriptor ↔ network.Slot offset index descriptor := by
  constructor
  · rintro ⟨next, foundNext, has, position⟩
    -- A node that has joined has carved nothing.
    rcases persists.back foundNext with ⟨node, found, pool, _⟩ | ⟨_, new⟩
    · exact ⟨node, found, pool ▸ has, position⟩
    · rw [Arena.Has, new.bare] at has
      simp at has
  · rintro ⟨node, found, has, position⟩
    obtain ⟨next, foundNext, pool, _⟩ := persists.forth found
    exact ⟨next, foundNext, pool.symm ▸ has, position⟩

theorem isCarved (persists : network.Persists after) :
    after.IsCarved offset ↔ network.IsCarved offset :=
  exists_congr fun _ => exists_congr fun _ => persists.slot

theorem place (persists : network.Persists after) (carved : network.IsCarved offset) :
    after.place offset = network.place offset := by
  obtain ⟨_, _, node, found, _⟩ := carved
  rw [Network.place, Network.place, persists.region found]

theorem load (persists : network.Persists after) (found : network.nodes rank = some node)
    (field : Field) (address : Nat) :
    after.world.memory.load field ⟨node.segment.file.region, address⟩ =
      network.world.memory.load field ⟨node.segment.file.region, address⟩ :=
  congrArg LittleEndian.value (persists.read found (address + field.distance) field.width)

theorem slot_same (persists : network.Persists after) (carved : network.IsCarved offset) :
    after.letter offset = network.letter offset ∧
      after.isReturned offset = network.isReturned offset := by
  obtain ⟨_, _, node, found, _⟩ := id carved
  have place := persists.place carved
  have here := Network.place_of_node found
  have load := fun field => persists.load found field offset.position.toNat
  rw [Network.letter, Network.letter, Network.isReturned, Network.isReturned, place, here]
  constructor
  · simp only [Memory.letterAt, Memory.claimedPayload, Memory.claimedLength, Place.shift,
      Segment.placeAt, load, persists.read found]
  · rw [Memory.isReturnedAt, Memory.isReturnedAt, Segment.placeAt, load]

theorem carries (persists : network.Persists after) {item : Item}
    (carved : network.IsCarved item.offset) (carries : network.Carries rank item) :
    after.Carries rank item := by
  obtain ⟨letter, flags⟩ := persists.slot_same carved
  unfold Carries at carries ⊢
  rwa [letter, flags]

theorem unused (persists : network.Persists after) (rank : UInt32) (sizeClass : SizeClass) :
    after.unused rank sizeClass = network.unused rank sizeClass := by
  cases found : network.nodes rank with
  | some node =>
      obtain ⟨next, foundNext, pool, _⟩ := persists.forth found
      rw [unused_of_node found, unused_of_node foundNext, pool]
  | none =>
      rw [Network.unused, Network.unused, found]
      cases foundNext : after.nodes rank with
      | none => rfl
      | some next =>
          rcases persists.back foundNext with ⟨node, foundNode, _⟩ | ⟨_, new⟩
          · simp [found] at foundNode
          · simp [new.unused]

theorem contents (persists : network.Persists after) (pending : UInt32 → List Item)
    (hand : List Offset) : after.contents pending hand = network.contents pending hand := by
  funext location
  cases location with
  | unused rank sizeClass => exact persists.unused rank sizeClass
  | held => exact congrArg (List.map Fragment.offset) persists.fragments
  | received => exact congrArg (List.map fun delivery => delivery.message.offset) persists.received
  | retired => exact congrArg (List.map Prod.fst) persists.retired
  | queued | hand => rfl

theorem areCarved {directory : String} {mapped : List Segment} (persists : network.Persists after)
    (charted : Charted directory mapped network) (carved : network.AreCarved) :
    after.AreCarved := by
  intro rank next foundNext
  rcases persists.back foundNext with ⟨node, found, pool, _⟩ | ⟨_, new⟩
  · have arena := charted.arena_eq found
    rw [pool]
    refine (carved found).congr ?_ fun {index descriptor} has => ?_
    · rw [arena]
      exact persists.load found SegmentField.cursor 0
    · refine ((carved found).names has).congr (Nat.le_refl 12) ?_
      rw [arena]
      exact persists.read found _ _
  · exact new.carved

theorem hasRead {mapped mappedAfter : List Segment} {delivery : Delivery}
    (persists : network.Persists after) (covers : mapped ⊆ mappedAfter)
    (carved : network.IsCarved delivery.message.offset) (read : network.HasRead mapped delivery) :
    after.HasRead mappedAfter delivery := by
  obtain ⟨letter, flags⟩ := persists.slot_same carved
  exact
    { reader := by
        obtain ⟨node, found⟩ := read.reader
        exact (persists.forth found).imp fun _ => And.left
      segment := covers read.segment
      owner := by
        obtain ⟨node, found, same, own⟩ := read.owner
        obtain ⟨next, foundNext, _, segment⟩ := persists.forth found
        exact ⟨next, foundNext, by rw [segment]; exact same, by rw [segment]; exact own⟩
      letter := letter.symm ▸ read.letter
      live := flags.symm ▸ read.live }

/-- The queue of a node holds what it held: its words are in the file of the node, and the links are
in the files of those who have carved what is in it. -/
theorem holds {queue : List Offset} (persists : network.Persists after)
    (found : network.nodes rank = some node) (carved : ∀ offset ∈ queue, network.IsCarved offset)
    (holds : (network.chain rank).Holds network.world.memory queue) :
    (after.chain rank).Holds after.world.memory queue := by
  have region := persists.region found
  have here := Network.region_of_node found
  have word : ∀ address, after.world.memory.word 8 ⟨network.region rank, address⟩ =
      network.world.memory.word 8 ⟨network.region rank, address⟩ := fun address => by
    rw [here]
    exact congrArg LittleEndian.value (persists.read found address 8)
  refine holds.congr (fun offset inside => ?_) ?_
  · by_cases free : offset = .free
    · subst free
      rw [Chain.link, Chain.link, Chain.linkPlace_free, Chain.linkPlace_free]
      simp only [Network.chain, region, word]
    · have carved := carved offset (inside.resolve_left free)
      obtain ⟨_, _, owner, foundOwner, _⟩ := id carved
      rw [Chain.link, Chain.link, Chain.linkPlace_proper free, Chain.linkPlace_proper free]
      simp only [Network.chain, persists.place carved, Network.place_of_node foundOwner]
      exact congrArg (fun bytes => Offset.ofWord (LittleEndian.value bytes))
        (persists.read foundOwner offset.position.toNat 8)
  · simp only [Chain.tail, Chain.tailPlace, Network.chain, region, Place.shift, word]

end Network.Persists

theorem Node.IsNew.holds {network : Network} {rank : UInt32} {node : Node}
    (new : node.IsNew network.world.memory) (found : network.nodes rank = some node) :
    (network.chain rank).Holds network.world.memory [] := by
  have region := Network.region_of_node found
  refine Chain.holds_nil ?_ ?_
  · rw [Chain.link, Chain.linkPlace_free, Network.chain, region]
    exact (congrArg Offset.ofWord new.head).trans (Offset.ofWord_word _)
  · rw [Chain.tail, Chain.tailPlace, Network.chain, region]
    exact (congrArg Offset.ofWord new.tail).trans (Offset.ofWord_word _)

theorem Sound.persist {directory : String} {mapped mappedAfter : List Segment}
    {network after : Network} {pending : UInt32 → List Item} {hand : List Offset}
    (sound : Sound directory mapped network pending hand) (persists : network.Persists after)
    (charted : Charted directory mappedAfter after) (covers : mapped ⊆ mappedAfter) :
    Sound directory mappedAfter after pending hand where
  charted := charted
  carved := persists.areCarved sound.charted sound.carved
  unused {rank next sizeClass fragment} foundNext inside := by
    rcases persists.back foundNext with ⟨node, found, pool, _⟩ | ⟨_, new⟩
    · rw [pool] at inside
      rw [Node.IsHandle, pool]
      exact sound.unused found inside
    · rw [new.unused] at inside
      exact absurd inside List.not_mem_nil
  held inside := by
    rw [persists.fragments] at inside
    obtain ⟨rank, node, found, handle⟩ := sound.held inside
    obtain ⟨next, foundNext, pool, _⟩ := persists.forth found
    refine ⟨rank, next, foundNext, ?_⟩
    rw [Node.IsHandle, pool]
    exact handle
  read {delivery} inside := by
    rw [persists.received] at inside
    exact persists.hasRead covers
      (sound.isCarved .received (List.mem_map.mpr ⟨delivery, inside, rfl⟩)) (sound.read inside)
  nobody {rank} missing := by
    refine sound.nobody ?_
    by_contra present
    obtain ⟨node, found⟩ := Option.ne_none_iff_exists'.mp present
    obtain ⟨next, foundNext, _⟩ := persists.forth found
    simp [missing] at foundNext
  holds {rank next} foundNext := by
    rcases persists.back foundNext with ⟨node, found, _, _⟩ | ⟨missing, new⟩
    · exact persists.holds found (fun _ inside => sound.isCarved (.queued rank) inside)
        (sound.holds found)
    · rw [sound.nobody missing]
      exact new.holds foundNext
  items {rank item} inside := persists.carries
    (sound.isCarved (.queued rank) (List.mem_map.mpr ⟨item, inside, rfl⟩)) (sound.items inside)
  exact := by
    rw [persists.contents]
    exact sound.exact.congr (fun _ => .refl _) fun _ => persists.isCarved

/-! ## Charts that persist -/

namespace Network

variable {network : Network} {rank other : UInt32} {node next old peer : Node}

/-- When one node is replaced, a node that is there afterwards was there before, or replaces the
one. -/
theorem node_of_update (found : network.nodes rank = some node)
    (foundPeer : Function.update network.nodes rank (some next) other = some peer) :
    ∃ old, network.nodes other = some old ∧
      ((other = rank ∧ old = node ∧ peer = next) ∨ peer = old) := by
  by_cases same : other = rank
  · subst same
    rw [Function.update_self] at foundPeer
    obtain rfl := Option.some.inj foundPeer
    exact ⟨node, found, .inl ⟨rfl, rfl, rfl⟩⟩
  · rw [Function.update_of_ne same] at foundPeer
    exact ⟨peer, foundPeer, .inr rfl⟩

/-- When one node is replaced, a node that was there is there afterwards, or is the one. -/
theorem update_of_node (found : network.nodes rank = some node) (next : Node)
    (foundOld : network.nodes other = some old) :
    ∃ peer, Function.update network.nodes rank (some next) other = some peer ∧
      ((other = rank ∧ old = node ∧ peer = next) ∨ peer = old) := by
  by_cases same : other = rank
  · subst same
    obtain rfl := Option.some.inj (found.symm.trans foundOld)
    exact ⟨next, Function.update_self .., .inl ⟨rfl, rfl, rfl⟩⟩
  · exact ⟨old, by rw [Function.update_of_ne same]; exact foundOld, .inr rfl⟩

end Network

namespace Charted

variable {directory : String} {mapped mappedAfter : List Segment} {network : Network}
  {rank : UInt32} {node : Node} {world : World}

/-- The world has other mappings, and the same files. -/
theorem reworld (charted : Charted directory mapped network)
    (memory : world.memory = network.world.memory) (disk : world.disk = network.world.disk)
    (laid : Laid mappedAfter world.nextBase) (covers : mapped ⊆ mappedAfter)
    (segments : ∀ segment ∈ world.segments, segment.removesFile = true →
      segment ∈ network.world.segments) :
    Charted directory mappedAfter { network with world } where
  placed := charted.placed
  knows := charted.knows
  peers found attached := by
    obtain ⟨inside, rest⟩ := charted.peers found attached
    exact ⟨covers inside, rest⟩
  regions := charted.regions
  size found := by
    simp only [memory]
    exact charted.size found
  laid := laid
  disk := by
    simp only [memory, disk]
    exact charted.disk
  filed found := by
    simp only [disk]
    exact charted.filed found
  removed inside removes := charted.removed (segments _ inside removes) removes

/-- A node has attached or detached something. -/
theorem renode (charted : Charted directory mapped network)
    (found : network.nodes rank = some node) (next : Node) (segment : next.segment = node.segment)
    (placed : next.Placed directory rank)
    (knows : ∀ other, next.addresses.find? other = (next.segmentOf? other).map Segment.mapping)
    (peers : ∀ {other mapping}, next.segmentOf? other = some mapping →
      mapping ∈ mapped ∧ mapping.rank = other ∧
        ∃ peer, network.nodes other = some peer ∧ mapping.SameFile peer.segment) :
    Charted directory mapped
      { network with nodes := Function.update network.nodes rank (some next) } := by
  -- Every node has the segment that it had, so the files and mappings are those of before.
  have back : ∀ {other peer}, Function.update network.nodes rank (some next) other = some peer →
      ∃ old, network.nodes other = some old ∧ peer.segment = old.segment := fun foundPeer => by
    obtain ⟨old, foundOld, ⟨rfl, rfl, rfl⟩ | rfl⟩ := Network.node_of_update found foundPeer
    · exact ⟨old, foundOld, segment⟩
    · exact ⟨_, foundOld, rfl⟩
  have forth : ∀ {other old}, network.nodes other = some old →
      ∃ peer, Function.update network.nodes rank (some next) other = some peer ∧
        peer.segment = old.segment := fun foundOld => by
    obtain ⟨peer, foundPeer, ⟨rfl, rfl, rfl⟩ | rfl⟩ := Network.update_of_node found next foundOld
    · exact ⟨peer, foundPeer, segment⟩
    · exact ⟨_, foundPeer, rfl⟩
  exact
    { placed := fun foundPeer => by
        obtain ⟨old, foundOld, ⟨rfl, rfl, rfl⟩ | rfl⟩ := Network.node_of_update found foundPeer
        · exact placed
        · exact charted.placed foundOld
      knows := fun foundPeer => by
        obtain ⟨old, foundOld, ⟨rfl, rfl, rfl⟩ | rfl⟩ := Network.node_of_update found foundPeer
        · exact knows
        · exact charted.knows foundOld
      peers := fun {other peer third mapping} foundPeer attached => by
        have known : mapping ∈ mapped ∧ mapping.rank = third ∧
            ∃ peer, network.nodes third = some peer ∧ mapping.SameFile peer.segment := by
          obtain ⟨old, foundOld, ⟨rfl, rfl, rfl⟩ | rfl⟩ := Network.node_of_update found foundPeer
          · exact peers attached
          · exact charted.peers foundOld attached
        obtain ⟨inside, named, owner, foundOwner, same⟩ := known
        obtain ⟨ownerNext, foundNext, ownerSegment⟩ := forth foundOwner
        exact ⟨inside, named, ownerNext, foundNext, by rw [ownerSegment]; exact same⟩
      regions := fun foundOne foundTwo same => by
        obtain ⟨old, foundOld, segmentOld⟩ := back foundOne
        obtain ⟨oldToo, foundOldToo, segmentOldToo⟩ := back foundTwo
        rw [segmentOld, segmentOldToo] at same
        exact charted.regions foundOld foundOldToo same
      size := fun foundPeer => by
        obtain ⟨old, foundOld, segmentOld⟩ := back foundPeer
        rw [segmentOld]
        exact charted.size foundOld
      laid := charted.laid
      disk := charted.disk
      filed := fun foundPeer => by
        obtain ⟨old, foundOld, segmentOld⟩ := back foundPeer
        rw [segmentOld]
        exact charted.filed foundOld
      removed := fun inside removes => by
        obtain ⟨other, old, foundOld, base⟩ := charted.removed inside removes
        obtain ⟨peer, foundPeer, segmentPeer⟩ := forth foundOld
        exact ⟨other, peer, foundPeer, by rw [segmentPeer]; exact base⟩ }

end Charted

namespace Settled

variable {directory : String} {mapped mappedAfter : List Segment} {network after : Network}
  {pending : UInt32 → List Item} {rank peer : UInt32} {node next : Node}

theorem persist (settled : Settled directory mapped network pending)
    (persists : network.Persists after) (charted : Charted directory mappedAfter after)
    (covers : mapped ⊆ mappedAfter) : Settled directory mappedAfter after pending where
  sound := settled.sound.persist persists charted covers
  logged :=
    { sent := by
        intro rank
        rw [Network.sentTo, Network.surfacedAt, persists.log]
        exact settled.logged.sent rank
      surfaced := by
        intro delivery inside
        rw [persists.received] at inside
        rw [Network.surfacedAt, persists.log]
        exact settled.logged.surfaced inside }

end Settled

namespace Network

variable {network : Network} {rank : UInt32} {node : Node} {world : World}

/-- A network persists when a node attaches or detaches something. -/
theorem persists_update (found : network.nodes rank = some node) (next : Node)
    (pool : next.pool = node.pool)
    (segment : next.segment = node.segment) (memory : world.memory = network.world.memory) :
    network.Persists { network with
      world
      nodes := Function.update network.nodes rank (some next) } where
  forth foundOld := by
    obtain ⟨peer, foundPeer, ⟨rfl, rfl, rfl⟩ | rfl⟩ := update_of_node found next foundOld
    · exact ⟨peer, foundPeer, pool, segment⟩
    · exact ⟨_, foundPeer, rfl, rfl⟩
  back foundPeer := by
    obtain ⟨old, foundOld, ⟨rfl, rfl, rfl⟩ | rfl⟩ := node_of_update found foundPeer
    · exact .inl ⟨old, foundOld, pool, segment⟩
    · exact .inl ⟨_, foundOld, rfl, rfl⟩
  read _ _ _ := by rw [memory]
  fragments := rfl
  received := rfl
  retired := rfl
  log := rfl

/-- What has been carved stays carved, whatever world a node finds itself in. -/
theorem isCarved_update (found : network.nodes rank = some node) (next : Node)
    (pool : next.pool = node.pool) {offset : Offset} (carved : network.IsCarved offset) :
    IsCarved { network with
      world
      nodes := Function.update network.nodes rank (some next) } offset := by
  obtain ⟨index, descriptor, owner, foundOwner, has, position⟩ := carved
  obtain ⟨peer, foundPeer, ⟨_, rfl, rfl⟩ | rfl⟩ := update_of_node found next foundOwner
  · exact ⟨index, descriptor, peer, foundPeer, pool.symm ▸ has, position⟩
  · exact ⟨index, descriptor, peer, foundPeer, has, position⟩

theorem persists_world (memory : world.memory = network.world.memory) :
    network.Persists { network with world } where
  forth found := ⟨_, found, rfl, rfl⟩
  back found := .inl ⟨_, found, rfl, rfl⟩
  read _ _ _ := by rw [memory]
  fragments := rfl
  received := rfl
  retired := rfl
  log := rfl

end Network

namespace Node

variable {node : Node} {directory : String} {rank peer : UInt32} {segment : Segment}
  {addresses : AddressMap}

def detached (node : Node) (peer : UInt32) : Node :=
  { node with
    peers := node.peers.filter fun segment => segment.rank != peer
    addresses := node.addresses.unregister peer }

def attached (node : Node) (segment : Segment) (addresses : AddressMap) : Node :=
  { node with addresses, peers := segment :: node.peers }

theorem Placed.detached (placed : node.Placed directory rank) (peer : UInt32) :
    (node.detached peer).Placed directory rank :=
  { placed with
    alone := by
      have alone := placed.alone
      rw [Node.peer?, List.find?_eq_none] at alone ⊢
      exact fun segment inside => alone segment (List.mem_filter.mp inside).1 }

theorem Placed.attached (placed : node.Placed directory rank) (differs : segment.rank ≠ rank)
    (own : addresses.own = node.addresses.own) :
    (node.attached segment addresses).Placed directory rank :=
  { placed with
    addressRank := own.trans placed.addressRank
    alone := by
      rw [Node.peer?, Node.attached, List.find?_cons_of_neg (by simpa using differs)]
      exact placed.alone }

theorem segmentOf?_detached (differs : peer ≠ node.rank) (other : UInt32) :
    (node.detached peer).segmentOf? other =
      if other = peer then none else node.segmentOf? other := by
  simp only [Node.segmentOf?, Node.peer?, detached, List.find?_filter]
  by_cases own : other = node.rank
  · rw [if_pos own, if_pos own, if_neg (fun same => differs (same.symm.trans own))]
  · rw [if_neg own, if_neg own]
    by_cases same : other = peer
    · subst same
      rw [if_pos rfl, List.find?_eq_none]
      intro segment _
      simp
    · rw [if_neg same]
      congr 1
      funext segment
      by_cases named : segment.rank = other
      · simp [named, same]
      · simp [named]

/-- A node that has attached a peer finds its segment besides all others. -/
theorem segmentOf?_attached (differs : segment.rank ≠ node.rank) (addresses : AddressMap)
    (other : UInt32) :
    (node.attached segment addresses).segmentOf? other =
      if other = segment.rank then some segment else node.segmentOf? other := by
  show (if other = node.rank then some node.segment
    else List.find? (fun peer => peer.rank == other) (segment :: node.peers)) = _
  simp only [Node.segmentOf?, Node.peer?]
  by_cases own : other = node.rank
  · rw [if_pos own, if_pos own, if_neg (fun same => differs (same.symm.trans own))]
  · rw [if_neg own, if_neg own]
    by_cases same : other = segment.rank
    · rw [if_pos same, List.find?_cons_of_pos (by simp [same])]
    · rw [if_neg same, List.find?_cons_of_neg (by simpa using Ne.symm same)]

end Node

namespace Settled

variable {directory : String} {mapped : List Segment} {network : Network}
  {pending : UInt32 → List Item} {rank peer : UInt32} {node : Node}

/-! ## The three operations -/

theorem detach_meets (settled : Settled directory mapped network pending) (rank peer : UInt32) :
    (Network.detach rank peer network).Meets False
      (Proceeds directory network pending (.detach rank peer)) := by
  have charted := settled.sound.charted
  refine Action.meets_bind (Network.meets_asNode (fun _ => ?_) fun {node} found => ?_)
  · exact ⟨⟨mapped, pending, settled, fun _ => .stay⟩, fun orderly => orderly.elim, .inl rfl, id⟩
  · have placed := charted.placed found
    rw [Node.detachPeer, Action.bind_done (Scene.self_apply _)]
    split
    · next attached =>
        -- A node is not among its own peers.
        have differs : peer ≠ node.rank := by
          rintro rfl
          have present : (node.peer? node.rank).isSome = true := attached
          rw [placed.nodeRank, placed.alone] at present
          cases present
        have chartedAfter := charted.renode found (node.detached peer) rfl (placed.detached peer)
          (fun other => by
            rw [Node.segmentOf?_detached differs]
            show (node.addresses.unregister peer).find? other = _
            rw [AddressMap.find?_unregister, charted.knows found]
            split <;> rfl)
          (fun {other mapping} attached => by
            rw [Node.segmentOf?_detached differs] at attached
            split at attached
            · cases attached
            · exact charted.peers found attached)
        have persists := @Network.persists_update _ _ _ network.world found (node.detached peer) rfl
          rfl rfl
        exact ⟨⟨mapped, pending, settled.persist persists chartedAfter (List.Subset.refl _),
            fun _ => .stay⟩, fun orderly => orderly.elim, .inl rfl, persists.isCarved.mpr⟩
    · refine ⟨⟨mapped, pending, ?_, fun _ => .stay⟩, fun orderly => orderly.elim, .inl rfl,
        Network.isCarved_grows found (.refl node)⟩
      exact (Network.left_enter found).symm ▸ settled

/-- A node has attached another one, of which it has mapped the file. -/
theorem attach {other : Node} {segment : Segment} {known : AddressMap}
    (settled : Settled directory mapped network pending) (found : network.nodes rank = some node)
    (foundPeer : network.nodes peer = some other) (missing : node.segmentOf? peer = none)
    (named : segment.rank = peer) (removes : segment.removesFile = false)
    (same : segment.SameFile other.segment) (base : segment.file.base = network.world.nextBase)
    (registered : node.addresses.register peer segment.mapping = .ok known)
    (addresses : AddressSpace) :
    Settled directory (segment :: mapped) { network with
      world := { network.world with
        addresses
        nextBase := network.world.nextBase + alignUp pageSize (segment.size + 1)
        segments := segment :: network.world.segments }
      nodes := Function.update network.nodes rank (some (node.attached segment known)) }
        pending := by
  have charted := settled.sound.charted
  have placed := charted.placed found
  have covers : mapped ⊆ segment :: mapped := List.subset_cons_self ..
  -- First the mapping is there, then the node knows of it.
  have reworlded : Charted directory (segment :: mapped) { network with
      world := { network.world with
        addresses
        nextBase := network.world.nextBase + alignUp pageSize (segment.size + 1)
        segments := segment :: network.world.segments } } :=
    charted.reworld rfl rfl (charted.laid.cons base) covers fun other inside removesToo => by
      rcases List.mem_cons.mp inside with rfl | inside
      · simp [removes] at removesToo
      · exact inside
  have differs : segment.rank ≠ node.rank := by
    intro own
    rw [Node.segmentOf?, if_pos (named.symm.trans own)] at missing
    cases missing
  have chartedAfter := reworlded.renode found (node.attached segment known) rfl
    (placed.attached (placed.nodeRank ▸ differs) (AddressMap.own_register registered))
    (fun third => by
      rw [Node.segmentOf?_attached differs]
      show known.find? third = _
      rw [AddressMap.find?_register registered, charted.knows found, named]
      split <;> rfl)
    (fun {third mapping} attached => by
      rw [Node.segmentOf?_attached differs] at attached
      split at attached
      · next here =>
          obtain rfl := Option.some.inj attached
          exact ⟨List.mem_cons_self, here.symm, other, by rw [here, named]; exact foundPeer, same⟩
      · exact reworlded.peers found attached)
  exact settled.persist (Network.persists_update found (node.attached segment known) rfl rfl rfl)
    chartedAfter covers

theorem attach_meets (settled : Settled directory mapped network pending) (rank peer : UInt32) :
    (Network.attach rank peer network).Meets True
      (Proceeds directory network pending (.attach rank peer)) := by
  have charted := settled.sound.charted
  rw [Network.attach]
  split
  · next node other found foundPeer =>
      have placed := charted.placed found
      have update : ∀ world : World, { network with
          world
          nodes := Function.update network.nodes rank (some node) } = { network with world } := by
        intro world
        rw [← found, Function.update_eq_self]
      refine Outcome.meets_mapState.mpr ?_
      rw [Node.attachPeer, Action.bind_done (Action.look_apply _ _)]
      split
      · refine ⟨⟨mapped, pending, ?_, fun _ => .stay⟩, fun orderly => orderly.elim, .inl rfl,
          fun carved => ?_⟩
        · exact update network.world ▸ settled
        · exact update network.world ▸ carved
      · next missing =>
          have filed : network.world.disk.Files node.directory (Segment.fileName peer)
              other.segment.file.region := placed.nodeDirectory ▸ charted.filed foundPeer
          refine Action.meets_bind (Action.meets_within.mpr ((Segment.attach_meets filed).mono ?_))
          rintro (fault | segment) world ⟨addresses, nextBase, segments, rfl, ends⟩
          · -- The file could not be opened or mapped. At most some addresses have been passed over.
            obtain ⟨rfl, behind⟩ := ends
            have laid : Laid mapped nextBase := by
              rcases behind with rfl | rfl
              · exact charted.laid
              · exact charted.laid.skip _
            refine ⟨⟨mapped, pending, ?_, fun _ => .stay⟩, fun orderly => orderly.elim, .inl rfl,
              ?_⟩ <;>
              rw [update]
            · exact settled.persist (Network.persists_world rfl)
                (charted.reworld rfl rfl laid (List.Subset.refl _) fun _ inside _ => inside)
                (List.Subset.refl _)
            · exact id
          · obtain ⟨named, removes, region, size, base, rfl, rfl⟩ := ends
            cases registered : node.addresses.register peer segment.mapping with
            -- A rank or a size that offsets cannot hold is not registered: the node aborts.
            | error cause =>
                exact Action.meets_bind
                  (Action.meets_ofAbort (.inr ⟨⟨cause, registered⟩, trivial⟩))
            | ok known =>
                have same : segment.SameFile other.segment :=
                  ⟨region, size.trans (charted.size foundPeer).1⟩
                exact Action.meets_bind (Action.meets_ofAbort (.inl ⟨known, registered,
                  ⟨⟨segment :: mapped, pending, settled.attach found foundPeer
                      (by simpa using missing) named removes same base registered addresses,
                    fun _ => .stay⟩,
                    fun orderly => orderly.elim, .inl rfl,
                    fun carved => Network.isCarved_update found (node.attached segment known) rfl
                      carved⟩⟩))
  · exact ⟨⟨mapped, pending, settled, fun _ => .stay⟩, fun orderly => orderly.elim, .inl rfl, id⟩

theorem close (settled : Settled directory mapped network pending) {segment : Segment}
    {world : World} (member : segment ∈ network.world.segments)
    (unkept : ¬network.Keeps segment.file.base)
    (closed : segment.close network.world = .done () world) :
    Settled directory mapped { network with world } pending := by
  -- Whoever made the segment still has it, if it is one that removes its file.
  have stays : segment.removesFile = false := by
    cases removes : segment.removesFile with
    | false => rfl
    | true =>
        obtain ⟨rank, node, found, base⟩ := settled.sound.charted.removed member removes
        exact absurd (.inl ⟨rank, node, found, node.segment, List.mem_cons_self, base.symm⟩) unkept
  have closes := Segment.close_meets segment network.world
  rw [closed] at closes
  obtain rfl := closes.2 stays
  exact settled.persist (Network.persists_world rfl)
    (settled.sound.charted.reworld rfl rfl settled.sound.charted.laid (List.Subset.refl _)
      fun _ inside _ => (List.mem_filter.mp inside).1) (List.Subset.refl _)

/-- It makes no difference which process goes on. -/
theorem turn (settled : Settled directory mapped network pending) (process : UInt32)
    (addresses : AddressSpace) :
    Settled directory mapped (network.turned process addresses) pending :=
  settled.persist (Network.persists_world rfl)
    (settled.sound.charted.reworld rfl rfl settled.sound.charted.laid (List.Subset.refl _)
      fun _ inside _ => inside) (List.Subset.refl _)

end Settled

end RankMail

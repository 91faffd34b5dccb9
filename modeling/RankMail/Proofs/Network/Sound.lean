import RankMail.Proofs.Network.Letters
import RankMail.Proofs.Network.Places
import RankMail.Proofs.Network.Zones

set_option autoImplicit false

/-! # What holds of a network

`Sound` is what holds of a network between two steps of its nodes: the words of each queue hold the
fragments that are said to be pending there; each of them says what its sender said, or is on its
way back to the node whose queue it is; each message says what it said when it was read; each handle
is the handle of a slot; and each slot is in exactly one place.

A step writes some zones. What it means for the rest is said by `Works.letter` and `Works.holds`.
-/

namespace RankMail

/-- A fragment is the handle of a slot that a node has carved. -/
def Node.IsHandle (node : Node) (fragment : Fragment) : Prop :=
  ∃ index descriptor, node.pool.arena.Has index descriptor ∧
    fragment = node.pool.arena.handle index descriptor

namespace Network

def letter (network : Network) (offset : Offset) : Letter :=
  network.world.memory.letterAt (network.place offset) offset.rank

def isReturned (network : Network) (offset : Offset) : Bool :=
  network.world.memory.isReturnedAt (network.place offset)

def IsHandle (network : Network) (fragment : Fragment) : Prop :=
  ∃ rank node, network.nodes rank = some node ∧ node.IsHandle fragment

/-- What a node keeps as unused are handles of its own slots, each under its class. -/
def OwnsUnused (network : Network) : Prop :=
  ∀ {rank node sizeClass fragment}, network.nodes rank = some node →
    fragment ∈ node.pool.free.get sizeClass →
      node.IsHandle fragment ∧ fragment.sizeClass = sizeClass

/-- An item in the queue of a rank is a message as it was sent, or on its way back to the rank. -/
def Carries (network : Network) (rank : UInt32) (item : Item) : Prop :=
  match item.letter with
  | some letter => network.isReturned item.offset = false ∧ letter = network.letter item.offset
  | none => network.isReturned item.offset = true ∧ item.offset.rank = rank

/-- A message was read from a mapping of the file of its owner, says what it said then, and is not
on its way back. -/
structure HasRead (network : Network) (mapped : List Segment) (delivery : Delivery) : Prop where
  reader : ∃ node, network.nodes delivery.reader = some node
  segment : delivery.message.segment ∈ mapped
  owner : ∃ node, network.nodes delivery.message.owner = some node ∧
    delivery.message.segment.SameFile node.segment ∧
    (delivery.message.owner = delivery.reader → delivery.message.segment = node.segment)
  letter : delivery.letter = network.letter delivery.message.offset
  live : network.isReturned delivery.message.offset = false

end Network

/-- What holds of a network between two steps. -/
structure Sound (directory : String) (mapped : List Segment) (network : Network)
    (pending : UInt32 → List Item) (hand : List Offset) : Prop where
  charted : Charted directory mapped network
  carved : network.AreCarved
  unused : network.OwnsUnused
  held : ∀ {fragment}, fragment ∈ network.fragments → network.IsHandle fragment
  read : ∀ {delivery}, delivery ∈ network.received → network.HasRead mapped delivery
  nobody : ∀ {rank}, network.nodes rank = none → pending rank = []
  holds : ∀ {rank node}, network.nodes rank = some node →
    (network.chain rank).Holds network.world.memory ((pending rank).map Item.offset)
  items : ∀ {rank item}, item ∈ pending rank → network.Carries rank item
  exact : Exact (network.contents pending hand) network.IsCarved

/-! ## Slots and their handles -/

namespace Charted

variable {directory : String} {mapped : List Segment} {network : Network} {rank : UInt32}
  {node : Node} {offset : Offset} {index : Nat} {descriptor : Descriptor}

theorem position_lt (charted : Charted directory mapped network) (carved : network.AreCarved)
    (found : network.nodes rank = some node) (has : node.pool.arena.Has index descriptor) :
    descriptor.position < 2 ^ 32 := by
  have within := (carved found).within has
  have below := (charted.placed found).below
  rw [charted.arena_eq found] at within
  simp only [Descriptor.stop, headerSize, maxSegmentSize] at within below
  omega

theorem slot_of_has (charted : Charted directory mapped network) (carved : network.AreCarved)
    (found : network.nodes rank = some node) (has : node.pool.arena.Has index descriptor) :
    network.Slot ⟨rank, UInt32.ofNat descriptor.position⟩ index descriptor := by
  refine ⟨node, found, has, ?_⟩
  exact (UInt32.toNat_ofNat_of_lt' (charted.position_lt carved found has)).symm

theorem offset_handle (charted : Charted directory mapped network)
    (found : network.nodes rank = some node) (index : Nat) (descriptor : Descriptor) :
    (node.pool.arena.handle index descriptor).offset =
      ⟨rank, UInt32.ofNat descriptor.position⟩ := by
  rw [Fragment.offset, Arena.handle, charted.arena_eq found, (charted.placed found).segmentRank]

theorem names (charted : Charted directory mapped network) (carved : network.AreCarved)
    (slot : network.Slot offset index descriptor) :
    network.world.memory.Names (network.place offset) offset.rank (UInt32.ofNat index)
      descriptor.capacity := by
  obtain ⟨node, found, has, position⟩ := slot
  have names := (carved found).names has
  rwa [charted.arena_eq found, (charted.placed found).arenaRank, position,
    ← Network.place_of_node found] at names

/-- An arena fits another memory if its cursor has not been written and its slots are still
named. -/
theorem carved_after (charted : Charted directory mapped network) (carved : network.AreCarved)
    {zones : List Zone} {after : Memory}
    (changes : network.Changes zones network.world.memory after)
    (found : network.nodes rank = some node) (cursor : .cursor rank ∉ zones)
    (named : ∀ {offset index descriptor}, network.Slot offset index descriptor →
      offset.rank = rank → .name offset ∉ zones ∨
        after.Names (network.place offset) rank (UInt32.ofNat index) descriptor.capacity) :
    node.pool.arena.Carved after := by
  refine (carved found).congr ?_ ?_
  · have kept := charted.read_zone carved changes (.cursor rank) ⟨node, found⟩ cursor
    rw [charted.arena_eq found, Segment.cursor, Segment.cursor]
    simp only [Network.zonePlace, Zone.home, Zone.start, Zone.length,
      Network.region_of_node found] at kept
    exact congrArg LittleEndian.value kept
  · intro index descriptor has
    have slot := charted.slot_of_has carved found has
    have here : network.place ⟨rank, UInt32.ofNat descriptor.position⟩ =
        node.segment.placeAt descriptor.position := by
      rw [Network.place_of_node (by exact found),
        UInt32.toNat_ofNat_of_lt' (charted.position_lt carved found has)]
    have names := charted.names carved slot
    rw [charted.arena_eq found, (charted.placed found).arenaRank, ← here]
    rcases named slot rfl with away | named
    · exact names.congr (Nat.le_refl 12) (charted.read_zone carved changes
        (.name ⟨rank, UInt32.ofNat descriptor.position⟩) ⟨_, _, slot⟩ away)
    · exact named

end Charted

/-! ## Steps that write -/

/-- The zones of a list leave alone what a slot says. -/
def Spares (zones : List Zone) (offset : Offset) : Prop :=
  .name offset ∉ zones ∧ ∀ capacity, .body offset capacity ∉ zones

namespace Network

theorem changes_nil (network : Network) (memory : Memory) : network.Changes [] memory memory where
  known _ inside := absurd inside List.not_mem_nil
  keeps := Memory.Keeps.refl ..

/-- A step of a node writes some zones; what is held and what has been read stays. -/
structure Works (network after : Network) (zones : List Zone) : Prop where
  evolves : network.Evolves after
  changes : after.Changes zones network.world.memory after.world.memory
  fragments : after.fragments = network.fragments
  received : after.received = network.received
  retired : after.retired = network.retired

variable {network after : Network} {zones : List Zone} {before memory : Memory} {rank : UInt32}
  {node : Node} {fragment : Fragment}

theorem Evolves.hasZone {zone : Zone} (evolves : network.Evolves after)
    (has : network.HasZone zone) : after.HasZone zone := by
  cases zone with
  | cursor | queue | bell =>
      obtain ⟨node, found⟩ := has
      exact (evolves.forth found).imp fun _ => And.left
  | link | name => exact evolves.isCarved has
  | body => exact has.imp fun _ => Exists.imp fun _ => And.imp_left evolves.slot

theorem Evolves.range (evolves : network.Evolves after) : after.range = network.range := by
  funext zone
  simp only [Network.range, Network.zonePlace, evolves.region, evolves.place]

theorem Evolves.changes (evolves : network.Evolves after)
    (changes : network.Changes zones before memory) : after.Changes zones before memory where
  known zone inside := evolves.hasZone (changes.known zone inside)
  keeps := by
    rw [evolves.range]
    exact changes.keeps

theorem Evolves.isHandle (evolves : network.Evolves after) (handle : network.IsHandle fragment) :
    after.IsHandle fragment := by
  obtain ⟨rank, node, found, index, descriptor, has, rfl⟩ := handle
  obtain ⟨next, foundNext, grows⟩ := evolves.forth found
  exact ⟨rank, next, foundNext, index, descriptor, grows.arena.has has, by
    rw [Arena.handle, Arena.handle, grows.arena.segment]⟩

namespace Works

variable {directory : String} {mapped : List Segment} {offset : Offset} {item : Item}
  {delivery : Delivery} {line : List Offset}

/-- A slot that is spared says what it said, and has the flags that it had. -/
theorem spared (works : network.Works after zones) (charted : Charted directory mapped network)
    (carved : network.AreCarved) (carvedAfter : after.AreCarved) (slot : network.IsCarved offset)
    (spares : Spares zones offset) :
    after.letter offset = network.letter offset ∧
      after.isReturned offset = network.isReturned offset := by
  obtain ⟨index, descriptor, slot⟩ := slot
  have chartedAfter := charted.evolve works.evolves
  have slotAfter := works.evolves.slot slot
  have place := works.evolves.place offset
  have name := chartedAfter.read_zone carvedAfter works.changes (.name offset)
    ⟨_, _, slotAfter⟩ spares.1
  have body := chartedAfter.read_zone carvedAfter works.changes
    (.body offset descriptor.capacity.toNat) ⟨_, _, slotAfter, rfl⟩ (spares.2 _)
  simp only [Network.zonePlace, Zone.home, Zone.start, Zone.length, place] at name body
  constructor
  · rw [letter, letter, place]
    exact Memory.letterAt_congr (charted.names carved slot) name body
  · rw [isReturned, isReturned, place]
    exact Memory.isReturnedAt_congr (congrArg LittleEndian.value
      (@Memory.read_part _ _ ((network.place offset).shift 20) 4 2 _ body (by omega)))

theorem carries (works : network.Works after zones) (charted : Charted directory mapped network)
    (carved : network.AreCarved) (carvedAfter : after.AreCarved)
    (slot : network.IsCarved item.offset) (spares : Spares zones item.offset)
    (carries : network.Carries rank item) : after.Carries rank item := by
  obtain ⟨letter, flags⟩ := works.spared charted carved carvedAfter slot spares
  unfold Carries at carries ⊢
  rwa [letter, flags]

theorem hasRead (works : network.Works after zones) (charted : Charted directory mapped network)
    (carved : network.AreCarved) (carvedAfter : after.AreCarved)
    (slot : network.IsCarved delivery.message.offset)
    (spares : Spares zones delivery.message.offset)
    (read : network.HasRead mapped delivery) : after.HasRead mapped delivery where
  reader := by
    obtain ⟨node, found⟩ := read.reader
    exact (works.evolves.forth found).imp fun _ => And.left
  segment := read.segment
  owner := by
    obtain ⟨node, found, same, own⟩ := read.owner
    obtain ⟨next, foundNext, grows⟩ := works.evolves.forth found
    exact ⟨next, foundNext, by rw [grows.segment]; exact same, by rw [grows.segment]; exact own⟩
  letter := by
    rw [(works.spared charted carved carvedAfter slot spares).1]
    exact read.letter
  live := by
    rw [(works.spared charted carved carvedAfter slot spares).2]
    exact read.live

/-- The words of a queue still hold a list if neither they nor the links of the list have been
written. -/
theorem holds (works : network.Works after zones) (charted : Charted directory mapped network)
    (carved : network.AreCarved) (carvedAfter : after.AreCarved)
    (found : network.nodes rank = some node)
    (slots : ∀ offset ∈ line, network.IsCarved offset) (queue : .queue rank ∉ zones)
    (links : ∀ offset ∈ line, .link offset ∉ zones)
    (holds : (network.chain rank).Holds network.world.memory line) :
    (after.chain rank).Holds after.world.memory line := by
  have chartedAfter := charted.evolve works.evolves
  obtain ⟨next, foundNext, _⟩ := works.evolves.forth found
  rw [works.evolves.chain]
  have words := chartedAfter.read_zone carvedAfter works.changes (.queue rank)
    ⟨next, foundNext⟩ queue
  simp only [Network.zonePlace, Zone.home, Zone.start, Zone.length, works.evolves.region] at words
  refine holds.congr (fun offset inside => ?_) ?_
  · rcases inside with rfl | inside
    · exact congrArg (fun bytes => Offset.ofWord (LittleEndian.value bytes))
        (@Memory.read_part _ _ ⟨network.region rank, queueStart⟩ 0 8 _ words (by omega))
    · have link := chartedAfter.read_zone carvedAfter works.changes (.link offset)
        (works.evolves.isCarved (slots offset inside)) (links offset inside)
      simp only [Network.zonePlace, Zone.home, Zone.start, Zone.length,
        works.evolves.place] at link
      have proper := (charted.separate carved rank).proper (slots offset inside)
      rw [Chain.link, Chain.link, Chain.linkPlace_proper proper]
      exact congrArg (fun bytes => Offset.ofWord (LittleEndian.value bytes)) link
  · exact congrArg (fun bytes => Offset.ofWord (LittleEndian.value bytes))
      (@Memory.read_part _ _ ⟨network.region rank, queueStart⟩ 8 8 _ words (by omega))

end Works

theorem works_left {scene : Scene Node} (found : network.nodes rank = some node)
    (grows : node.Grows scene.actor)
    (changes : (network.left rank scene).Changes zones network.world.memory scene.memory) :
    network.Works (network.left rank scene) zones where
  evolves := evolves_left found grows changes.keeps
  changes := changes
  fragments := rfl
  received := rfl
  retired := rfl

end Network

namespace Sound

variable {directory : String} {mapped : List Segment} {network after : Network}
  {pending pendingAfter : UInt32 → List Item} {hand handAfter : List Offset} {zones : List Zone}

theorem isCarved (sound : Sound directory mapped network pending hand) (location : Location)
    {offset : Offset} (inside : offset ∈ network.contents pending hand location) :
    network.IsCarved offset := sound.exact.somewhere.mpr ⟨location, inside⟩

/-- What is to be shown after a step that writes. -/
theorem work (sound : Sound directory mapped network pending hand)
    (works : network.Works after zones) (carved : after.AreCarved) (unused : after.OwnsUnused)
    (received : ∀ delivery ∈ network.received, Spares zones delivery.message.offset)
    (nobody : ∀ {rank}, network.nodes rank = none → pendingAfter rank = [])
    (holds : ∀ {rank node}, network.nodes rank = some node →
      (after.chain rank).Holds after.world.memory ((pendingAfter rank).map Item.offset))
    (items : ∀ {rank item}, item ∈ pendingAfter rank → after.Carries rank item)
    (exact : Exact (after.contents pendingAfter handAfter) after.IsCarved) :
    Sound directory mapped after pendingAfter handAfter where
  charted := sound.charted.evolve works.evolves
  carved := carved
  unused := unused
  held inside := by
    rw [works.fragments] at inside
    exact works.evolves.isHandle (sound.held inside)
  read {delivery} inside := by
    rw [works.received] at inside
    have slot : network.IsCarved delivery.message.offset :=
      sound.isCarved .received (List.mem_map.mpr ⟨delivery, inside, rfl⟩)
    exact works.hasRead sound.charted sound.carved carved slot (received delivery inside)
      (sound.read inside)
  nobody {rank} missing := by
    refine nobody ?_
    by_contra present
    obtain ⟨node, found⟩ := Option.ne_none_iff_exists'.mp present
    obtain ⟨next, foundNext, _⟩ := works.evolves.forth found
    simp [missing] at foundNext
  holds foundNext := by
    obtain ⟨node, found, _⟩ := works.evolves.back foundNext
    exact holds found
  items := items
  exact := exact

end Sound

end RankMail

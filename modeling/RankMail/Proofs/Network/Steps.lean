import RankMail.Proofs.Network.Sound

set_option autoImplicit false

/-! # Single steps of a network

Each step of a node that does anything to the network keeps it sound, and takes a slot from one
place to another:

    touch      something is written into slots in hand        (no move)
    carve      a new slot                                     -> hand
    pop        an unused slot                                 -> hand
    push       hand                                           -> unused
    enqueue    hand                                           -> queue
    dequeue    queue                                          -> hand

What is held, received and retired is moved by whoever uses the nodes (`Sound.relabel`).
-/

namespace RankMail

namespace Node

def keeping (node : Node) (sizeClass : SizeClass) (fragments : List Fragment) : Node :=
  { node with pool := { node.pool with free := node.pool.free.set sizeClass fragments } }

def extended (node : Node) (sizeClass : SizeClass) (position : Nat) : Node :=
  { node with pool := { node.pool with arena := node.pool.arena.extended sizeClass position } }

theorem grows_extended (node : Node) (sizeClass : SizeClass) (position : Nat) :
    node.Grows (node.extended sizeClass position) :=
  ⟨rfl, rfl, rfl, rfl, fun old => old.extended sizeClass position⟩

end Node

namespace Network

variable {network after : Network} {rank : UInt32} {node : Node} {zones : List Zone}
  {pending : UInt32 → List Item} {hand : List Offset} {scene : Scene Node}

@[simp] theorem nodes_left (network : Network) (rank : UInt32) (scene : Scene Node) :
    (network.left rank scene).nodes rank = some scene.actor := by
  simp [left]

theorem nodes_left_other {other : UInt32} (differs : other ≠ rank) (scene : Scene Node) :
    (network.left rank scene).nodes other = network.nodes other := by
  simp [left, differs]

theorem unused_of_node (found : network.nodes rank = some node) (sizeClass : SizeClass) :
    network.unused rank sizeClass = (node.pool.free.get sizeClass).map Fragment.offset := by
  rw [unused, found]
  rfl

theorem unused_left_other {other : UInt32} (differs : other ≠ rank) (scene : Scene Node)
    (sizeClass : SizeClass) :
    (network.left rank scene).unused other sizeClass = network.unused other sizeClass := by
  simp [unused, left, differs]

theorem nodes_of_left {other : UInt32} {peer : Node}
    (found : (network.left rank scene).nodes other = some peer) :
    (other = rank ∧ peer = scene.actor) ∨ (other ≠ rank ∧ network.nodes other = some peer) := by
  by_cases same : other = rank
  · subst same
    rw [nodes_left] at found
    exact .inl ⟨rfl, (Option.some.inj found).symm⟩
  · exact .inr ⟨same, nodes_left_other same scene ▸ found⟩

/-- A node whose pool keeps the same slots as unused leaves every slot where it is. -/
theorem contents_left (found : network.nodes rank = some node)
    (free : scene.actor.pool.free = node.pool.free) (pending : UInt32 → List Item)
    (hand : List Offset) :
    (network.left rank scene).contents pending hand = network.contents pending hand := by
  funext location
  cases location with
  | unused other sizeClass =>
      by_cases same : other = rank
      · subst same
        show (network.left other scene).unused other sizeClass = network.unused other sizeClass
        rw [unused_of_node (nodes_left ..), unused_of_node found, free]
      · exact unused_left_other same scene sizeClass
  | held | queued | received | retired | hand => rfl

theorem ownsUnused_left (owns : network.OwnsUnused) (found : network.nodes rank = some node)
    (grows : node.Grows scene.actor) (free : scene.actor.pool.free = node.pool.free) :
    (network.left rank scene).OwnsUnused := by
  intro other peer sizeClass fragment foundPeer inside
  rcases nodes_of_left foundPeer with ⟨rfl, rfl⟩ | ⟨_, foundPeer⟩
  · rw [free] at inside
    obtain ⟨⟨index, descriptor, has, rfl⟩, same⟩ := owns found inside
    exact ⟨⟨index, descriptor, grows.arena.has has, by
      rw [Arena.handle, Arena.handle, grows.arena.segment]⟩, same⟩
  · exact owns foundPeer inside

theorem slot_of_left {offset : Offset} {index : Nat} {descriptor : Descriptor}
    (found : network.nodes rank = some node)
    (arena : scene.actor.pool.arena = node.pool.arena)
    (slot : (network.left rank scene).Slot offset index descriptor) :
    network.Slot offset index descriptor := by
  obtain ⟨peer, foundPeer, has, position⟩ := slot
  rcases nodes_of_left foundPeer with ⟨same, rfl⟩ | ⟨_, foundPeer⟩
  · rw [arena] at has
    exact ⟨node, by rw [same]; exact found, has, position⟩
  · exact ⟨peer, foundPeer, has, position⟩

theorem isCarved_left (found : network.nodes rank = some node)
    (arena : scene.actor.pool.arena = node.pool.arena)
    (evolves : network.Evolves (network.left rank scene)) (offset : Offset) :
    (network.left rank scene).IsCarved offset ↔ network.IsCarved offset :=
  ⟨Exists.imp fun _ => Exists.imp fun _ => slot_of_left found arena, evolves.isCarved⟩

end Network

def slotZones (offset : Offset) (capacity : Nat) : List Zone :=
  [.link offset, .name offset, .body offset capacity]

theorem home_slotZones {offset : Offset} {capacity : Nat} {zone : Zone}
    (inside : zone ∈ slotZones offset capacity) : zone.home = .inr offset := by
  simp only [slotZones, List.mem_cons, List.not_mem_nil, or_false] at inside
  rcases inside with rfl | rfl | rfl <;> rfl

theorem Network.hasZone_slotZones {network : Network} {offset : Offset} {index : Nat}
    {descriptor : Descriptor} (slot : network.Slot offset index descriptor) :
    ∀ zone ∈ slotZones offset descriptor.capacity.toNat, network.HasZone zone := by
  intro zone inside
  simp only [slotZones, List.mem_cons, List.not_mem_nil, or_false] at inside
  rcases inside with rfl | rfl | rfl
  · exact ⟨_, _, slot⟩
  · exact ⟨_, _, slot⟩
  · exact ⟨_, _, slot, rfl⟩

namespace Sound

variable {directory : String} {mapped : List Segment} {network after : Network} {rank : UInt32}
  {node : Node} {pending : UInt32 → List Item} {hand : List Offset} {zones : List Zone}
  {memory : Memory} {notices : List Notice} {offset : Offset}

/-! ## Writing -/

/-- A slot in hand, or that is held: one into which something may be written. -/
def Open (network : Network) (hand : List Offset) (offset : Offset) : Prop :=
  offset ∈ hand ∨ offset ∈ network.fragments.map Fragment.offset

/-- A step that writes into no slot that is in a queue or has been read, and not into the words of
a queue either. -/
theorem spare (sound : Sound directory mapped network pending hand)
    (works : network.Works after zones) (carved : after.AreCarved) (unused : after.OwnsUnused)
    (away : ∀ {location offset}, offset ∈ network.contents pending hand location →
      location ≠ .hand → location ≠ .held → ∀ zone ∈ zones, zone.home ≠ .inr offset)
    (queues : ∀ other, .queue other ∉ zones) {handAfter : List Offset}
    (exact : Exact (after.contents pending handAfter) after.IsCarved) :
    Sound directory mapped after pending handAfter := by
  have spares : ∀ {location offset}, offset ∈ network.contents pending hand location →
      location ≠ .hand → location ≠ .held → Spares zones offset := by
    intro location offset inside notHand notHeld
    exact ⟨fun member => away inside notHand notHeld _ member rfl,
      fun capacity member => away inside notHand notHeld _ member rfl⟩
  refine sound.work works carved unused (fun delivery inside => ?_) sound.nobody
    (fun {other peer} foundPeer => ?_) (fun {other item} inside => ?_) exact
  · exact @spares .received _ (List.mem_map.mpr ⟨delivery, inside, rfl⟩) (by simp) (by simp)
  · refine works.holds sound.charted sound.carved carved foundPeer (fun offset inside => ?_)
      (queues other) (fun offset inside member => ?_) (sound.holds foundPeer)
    · exact sound.isCarved (.queued other) inside
    · exact @away (.queued other) offset inside (by simp) (by simp) _ member rfl
  · have queued : item.offset ∈ network.contents pending hand (.queued other) :=
      List.mem_map.mpr ⟨item, inside, rfl⟩
    exact works.carries sound.charted sound.carved carved (sound.isCarved _ queued)
      (spares queued (by simp) (by simp)) (sound.items inside)

/-- The arenas still fit if no cursor has been written and all slots are still named. -/
theorem areCarved_left (sound : Sound directory mapped network pending hand)
    (found : network.nodes rank = some node)
    (changes : network.Changes zones network.world.memory memory)
    (cursors : ∀ other, .cursor other ∉ zones)
    (named : ∀ {offset index descriptor}, network.Slot offset index descriptor →
      .name offset ∉ zones ∨ memory.Names (network.place offset) offset.rank
        (UInt32.ofNat index) descriptor.capacity) :
    (network.left rank ⟨node, memory, notices⟩).AreCarved := by
  intro other peer foundPeer
  have foundOld : network.nodes other = some peer := by
    rcases Network.nodes_of_left foundPeer with ⟨rfl, rfl⟩ | ⟨_, foundPeer⟩
    · exact found
    · exact foundPeer
  refine sound.charted.carved_after sound.carved changes foundOld (cursors other) ?_
  rintro offset index descriptor slot rfl
  exact named slot

/-- Something is written into open slots, or into the words of doorbells. -/
theorem touch (sound : Sound directory mapped network pending hand)
    (found : network.nodes rank = some node)
    (changes : network.Changes zones network.world.memory memory)
    (opened : ∀ zone ∈ zones, (∃ offset, zone.home = .inr offset ∧ Open network hand offset) ∨
      ∃ other, zone = .bell other)
    (named : ∀ {offset index descriptor}, network.Slot offset index descriptor →
      .name offset ∉ zones ∨ memory.Names (network.place offset) offset.rank
        (UInt32.ofNat index) descriptor.capacity)
    (notices : List Notice) :
    Sound directory mapped (network.left rank ⟨node, memory, notices⟩) pending hand := by
  have evolves : network.Evolves (network.left rank ⟨node, memory, notices⟩) :=
    Network.evolves_left found (.refl node) changes.keeps
  have works : network.Works (network.left rank ⟨node, memory, notices⟩) zones :=
    Network.works_left found (.refl node) (evolves.changes changes)
  -- No zone of a slot that is neither in hand nor held is written.
  have away : ∀ {location offset}, offset ∈ network.contents pending hand location →
      location ≠ .hand → location ≠ .held → ∀ zone ∈ zones, zone.home ≠ .inr offset := by
    intro location offset inside notHand notHeld zone member home
    rcases opened zone member with ⟨other, homeOther, opened⟩ | ⟨other, rfl⟩
    · obtain rfl := Sum.inr.inj (home.symm.trans homeOther)
      rcases opened with inHand | held
      · exact notHand (sound.exact.once inside (show offset ∈ network.contents pending hand .hand
          from inHand))
      · exact notHeld (sound.exact.once inside (show offset ∈ network.contents pending hand .held
          from held))
    · cases home
  have control : ∀ other, .queue other ∉ zones ∧ .cursor other ∉ zones := by
    intro other
    constructor <;>
    · intro member
      rcases opened _ member with ⟨offset, home, _⟩ | ⟨third, bell⟩
      · cases home
      · cases bell
  have carved : (network.left rank ⟨node, memory, notices⟩).AreCarved :=
    sound.areCarved_left found changes (fun other => (control other).2) named
  refine sound.spare works carved (Network.ownsUnused_left sound.unused found (.refl node) rfl)
    away (fun other => (control other).1) ?_
  rw [Network.contents_left found rfl]
  exact sound.exact.congr (fun _ => .refl _) (Network.isCarved_left found rfl evolves)

/-! ## Moving -/

/-- What is moved by whoever uses the nodes. -/
theorem relabel (sound : Sound directory mapped network pending hand) (after : Network)
    (nodes : after.nodes = network.nodes) (world : after.world = network.world)
    {handAfter : List Offset}
    (held : ∀ {fragment}, fragment ∈ after.fragments → network.IsHandle fragment)
    (read : ∀ {delivery}, delivery ∈ after.received → network.HasRead mapped delivery)
    (exact : Exact (after.contents pending handAfter) network.IsCarved) :
    Sound directory mapped after pending handAfter := by
  obtain ⟨_, _, fragments, received, retired, log⟩ := after
  obtain rfl : _ = network.nodes := nodes
  obtain rfl : _ = network.world := world
  have evolves :
      network.Evolves ⟨network.world, network.nodes, fragments, received, retired, log⟩ :=
    { forth := fun found => ⟨_, found, .refl _⟩
      back := fun found => ⟨_, found, .refl _⟩
      disk := rfl
      nextBase := rfl
      segments := rfl
      size := fun _ => rfl
      fresh := Nat.le_refl _ }
  exact
    { charted := sound.charted.evolve evolves
      carved := sound.carved
      unused := sound.unused
      held := held
      read := fun inside =>
        { reader := (read inside).reader
          segment := (read inside).segment
          owner := (read inside).owner
          letter := (read inside).letter
          live := (read inside).live }
      nobody := sound.nobody
      holds := sound.holds
      items := sound.items
      exact := exact }

/-! ## Slots that are not used -/

theorem unused_keeping (found : network.nodes rank = some node) (sizeClass other : SizeClass)
    (fragments : List Fragment) (third : UInt32) :
    (network.left rank ⟨node.keeping sizeClass fragments, memory, notices⟩).unused third other =
      if third = rank ∧ other = sizeClass then fragments.map Fragment.offset
      else network.unused third other := by
  by_cases same : third = rank
  · subst same
    rw [Network.unused_of_node (Network.nodes_left ..), Network.unused_of_node found,
      Node.keeping, PerClass.get_set]
    by_cases ofClass : other = sizeClass
    · simp [ofClass]
    · simp [ofClass]
  · rw [Network.unused_left_other same, if_neg (fun both => same both.1)]

theorem keep (sound : Sound directory mapped network pending hand)
    (found : network.nodes rank = some node) {sizeClass : SizeClass} {fragments : List Fragment}
    {handAfter : List Offset}
    (unused : ∀ fragment ∈ fragments, node.IsHandle fragment ∧ fragment.sizeClass = sizeClass)
    (exact : Exact ((network.left rank
      ⟨node.keeping sizeClass fragments, network.world.memory, notices⟩).contents pending
        handAfter) network.IsCarved) :
    Sound directory mapped (network.left rank
      ⟨node.keeping sizeClass fragments, network.world.memory, notices⟩) pending handAfter := by
  have grows : node.Grows (node.keeping sizeClass fragments) := ⟨rfl, .refl _⟩
  have evolves : network.Evolves (network.left rank
      ⟨node.keeping sizeClass fragments, network.world.memory, notices⟩) :=
    Network.evolves_left found grows (Memory.Keeps.refl [] _)
  have works : network.Works (network.left rank
      ⟨node.keeping sizeClass fragments, network.world.memory, notices⟩) [] :=
    Network.works_left found grows (Network.changes_nil ..)
  have carved : (network.left rank
      ⟨node.keeping sizeClass fragments, network.world.memory, notices⟩).AreCarved := by
    intro other peer foundPeer
    rcases Network.nodes_of_left foundPeer with ⟨rfl, rfl⟩ | ⟨_, foundPeer⟩
    · have fits := sound.carved found
      exact fits
    · exact sound.carved foundPeer
  have owns : (network.left rank
      ⟨node.keeping sizeClass fragments, network.world.memory, notices⟩).OwnsUnused := by
    intro other peer ofClass fragment foundPeer inside
    rcases Network.nodes_of_left foundPeer with ⟨rfl, rfl⟩ | ⟨_, foundPeer⟩
    · simp only [Node.keeping, PerClass.get_set] at inside
      split at inside
      · next same => exact same ▸ unused fragment inside
      · have old := sound.unused found inside
        exact old
    · exact sound.unused foundPeer inside
  exact sound.spare works carved owns (fun _ _ _ _ inside => absurd inside List.not_mem_nil)
    (fun _ => List.not_mem_nil)
    (exact.congr (fun _ => .refl _) (Network.isCarved_left found rfl evolves))

theorem count_free (sound : Sound directory mapped network pending hand)
    (found : network.nodes rank = some node) {sizeClass : SizeClass} {fragment : Fragment}
    (inside : fragment ∈ node.pool.free.get sizeClass) :
    (node.pool.free.get sizeClass).count fragment = 1 := by
  have nodup := sound.exact.nodup (.unused rank sizeClass)
  simp only [Network.contents, Network.unused_of_node found] at nodup
  exact List.count_eq_one_of_mem (List.Nodup.of_map _ nodup) inside

theorem pop (sound : Sound directory mapped network pending hand)
    (found : network.nodes rank = some node) {sizeClass : SizeClass} {fragment : Fragment}
    {rest : List Fragment} (top : node.pool.free.get sizeClass = fragment :: rest)
    (notices : List Notice) :
    Sound directory mapped (network.left rank
      ⟨node.keeping sizeClass rest, network.world.memory, notices⟩) pending
      (fragment.offset :: hand) := by
  refine sound.keep found (fun kept inside => ?_) (sound.exact.move
    { differ := (by simp : Location.unused rank sizeClass ≠ .hand)
      taken := ?_
      put := .refl _
      others := fun location notSource notTarget => ?_ })
  · exact sound.unused found (top ▸ List.mem_cons_of_mem _ inside)
  · simp only [Network.contents]
    rw [unused_keeping found, if_pos ⟨rfl, rfl⟩, Network.unused_of_node found, top]
    exact .refl _
  · cases location with
    | unused third other =>
        simp only [Network.contents]
        rw [unused_keeping found, if_neg]
        rintro ⟨rfl, rfl⟩
        exact notSource rfl
    | hand => exact absurd rfl notTarget
    | held | queued | received | retired => exact .refl _

theorem push (found : network.nodes rank = some node) {fragment : Fragment}
    (sound : Sound directory mapped network pending (fragment.offset :: hand))
    (handle : node.IsHandle fragment)
    (notices : List Notice) :
    Sound directory mapped (network.left rank
      ⟨node.keeping fragment.sizeClass (fragment :: node.pool.free.get fragment.sizeClass),
        network.world.memory, notices⟩) pending hand := by
  refine sound.keep found (fun kept inside => ?_) (sound.exact.move
    { differ := (by simp : Location.hand ≠ .unused rank fragment.sizeClass)
      taken := .refl _
      put := ?_
      others := fun location notSource notTarget => ?_ })
  · rcases List.mem_cons.mp inside with rfl | inside
    · exact ⟨handle, rfl⟩
    · exact sound.unused found inside
  · simp only [Network.contents]
    rw [unused_keeping found, if_pos ⟨rfl, rfl⟩, Network.unused_of_node found]
    exact .refl _
  · cases location with
    | unused third other =>
        simp only [Network.contents]
        rw [unused_keeping found, if_neg]
        rintro ⟨rfl, rfl⟩
        exact notTarget rfl
    | hand => exact absurd rfl notSource
    | held | queued | received | retired => exact .refl _

/-! ## Carving -/

theorem isCarved_extended (found : network.nodes rank = some node) {sizeClass : SizeClass}
    {position : Nat} (small : position < 2 ^ 32) (offset : Offset) :
    (network.left rank ⟨node.extended sizeClass position, memory, notices⟩).IsCarved offset ↔
      network.IsCarved offset ∨ offset = ⟨rank, UInt32.ofNat position⟩ := by
  have number := UInt32.toNat_ofNat_of_lt' small
  constructor
  · rintro ⟨index, descriptor, peer, foundPeer, has, same⟩
    rcases Network.nodes_of_left foundPeer with ⟨ranks, rfl⟩ | ⟨_, foundPeer⟩
    · rcases Arena.has_extended has with ⟨has, _⟩ | ⟨_, rfl⟩
      · exact .inl ⟨index, descriptor, node, by rw [ranks]; exact found, has, same⟩
      · exact .inr (Offset.eq_of_toNat ranks (same.symm.trans number.symm))
    · exact .inl ⟨index, descriptor, peer, foundPeer, has, same⟩
  · rintro (⟨index, descriptor, peer, foundPeer, has, same⟩ | rfl)
    · by_cases ranks : offset.rank = rank
      · rw [ranks, found] at foundPeer
        obtain rfl := Option.some.inj foundPeer
        refine ⟨index, descriptor, node.extended sizeClass position, ?_, has.extended _ _, same⟩
        rw [ranks]
        exact Network.nodes_left ..
      · exact ⟨index, descriptor, peer, by simpa [Network.left, ranks] using foundPeer, has, same⟩
    · exact ⟨_, _, _, Network.nodes_left .., node.pool.arena.has_last sizeClass position,
        number.symm⟩

theorem changes_extended {sizeClass : SizeClass} {position : Nat} (small : position < 2 ^ 32)
    (keeps : network.world.memory.Keeps [(node.segment.place.shift 32, 8),
      (node.segment.placeAt position, headerSize)] memory) :
    (network.left rank ⟨node.extended sizeClass position, memory, notices⟩).Changes
      (.cursor rank :: slotZones ⟨rank, UInt32.ofNat position⟩
        (node.pool.arena.nextDescriptor sizeClass position).capacity.toNat)
      network.world.memory memory := by
  have number := UInt32.toNat_ofNat_of_lt' small
  have foundNext := network.nodes_left rank ⟨node.extended sizeClass position, memory, notices⟩
  have slot : (network.left rank ⟨node.extended sizeClass position, memory, notices⟩).Slot
      ⟨rank, UInt32.ofNat position⟩ _ _ :=
    ⟨_, foundNext, node.pool.arena.has_last sizeClass position, number.symm⟩
  have region : (network.left rank ⟨node.extended sizeClass position, memory, notices⟩).region
      rank = node.segment.file.region := (Network.region_of_node foundNext).trans rfl
  constructor
  · intro zone inside
    rcases List.mem_cons.mp inside with rfl | inside
    · exact ⟨_, foundNext⟩
    · exact Network.hasZone_slotZones slot zone inside
  · refine keeps.widen fun {place count} positive apart => ?_
    simp only [slotZones, List.map_cons, List.map_nil, Memory.apartFrom_cons,
      Memory.apartFrom_nil, Network.range, Network.zonePlace, Zone.home, Zone.start, Zone.length,
      Place.shift, Network.place, region, number, and_true, Memory.Apart, Segment.place,
      Segment.placeAt, headerSize] at apart ⊢
    omega

/-- What is written into one file leaves the arenas in other files as they are. -/
theorem carved_other {touched : List (Place × Nat)} {other : UInt32} {peer : Node}
    (sound : Sound directory mapped network pending hand) (found : network.nodes rank = some node)
    (foundPeer : network.nodes other = some peer) (differs : other ≠ rank)
    (keeps : network.world.memory.Keeps touched memory)
    (here : ∀ range ∈ touched, range.1.region = node.segment.file.region) :
    peer.pool.arena.Carved memory := by
  have apart : ∀ place count, place.region = peer.segment.file.region →
      Memory.ApartFrom place count touched := by
    intro place count there range inside same
    rw [there, here range inside] at same
    exact absurd (sound.charted.regions foundPeer found same) differs
  have arena := sound.charted.arena_eq foundPeer
  refine (sound.carved foundPeer).congr ?_ fun {index descriptor} has => ?_
  · rw [arena]
    exact keeps.load (apart _ _ rfl)
  · refine ((sound.carved foundPeer).names has).congr (Nat.le_refl 12) (keeps.read ?_)
    rw [arena]
    exact apart _ _ rfl

/-- A slot is carved, and goes into the hand. -/
theorem carve (sound : Sound directory mapped network pending hand)
    (found : network.nodes rank = some node) {sizeClass : SizeClass} {position : Nat}
    (start : node.pool.arena.segment.cursor network.world.memory = position)
    (carved : (node.extended sizeClass position).pool.arena.Carved memory)
    (keeps : network.world.memory.Keeps [(node.pool.arena.segment.place.shift 32, 8),
      (node.pool.arena.segment.placeAt position, headerSize)] memory)
    (notices : List Notice) :
    Sound directory mapped
      (network.left rank ⟨node.extended sizeClass position, memory, notices⟩) pending
      (⟨rank, UInt32.ofNat position⟩ :: hand) := by
  rw [sound.charted.arena_eq found] at keeps
  have grows := node.grows_extended sizeClass position
  have evolves : network.Evolves
      (network.left rank ⟨node.extended sizeClass position, memory, notices⟩) :=
    Network.evolves_left found grows keeps
  have charted := sound.charted.evolve evolves
  have foundNext := network.nodes_left rank ⟨node.extended sizeClass position, memory, notices⟩
  have areCarved :
      (network.left rank ⟨node.extended sizeClass position, memory, notices⟩).AreCarved := by
    intro other peer foundPeer
    rcases Network.nodes_of_left foundPeer with ⟨rfl, rfl⟩ | ⟨differs, foundPeer⟩
    · exact carved
    · refine sound.carved_other found foundPeer differs keeps fun range inside => ?_
      rcases List.mem_pair.mp inside with rfl | rfl <;> rfl
  have small : position < 2 ^ 32 := charted.position_lt areCarved foundNext
    (node.pool.arena.has_last sizeClass position)
  -- Behind all slots there was none yet.
  have new : ¬network.IsCarved ⟨rank, UInt32.ofNat position⟩ := by
    rintro ⟨index, descriptor, again, foundAgain, has, same⟩
    obtain rfl := Option.some.inj (found.symm.trans foundAgain)
    have before := (sound.carved found).below has
    rw [start] at before
    rw [UInt32.toNat_ofNat_of_lt' small] at same
    simp only [Descriptor.stop, headerSize] at before
    omega
  have works : network.Works
      (network.left rank ⟨node.extended sizeClass position, memory, notices⟩) _ :=
    Network.works_left found grows (changes_extended small keeps)
  refine sound.spare works areCarved
    (Network.ownsUnused_left sound.unused found grows rfl) ?_ ?_ ?_
  · -- What is anywhere has been carved, so it is not the new slot.
    intro location offset inside _ _ zone member home
    rcases List.mem_cons.mp member with rfl | member
    · cases home
    · obtain rfl := Sum.inr.inj ((home_slotZones member).symm.trans home)
      exact new (sound.isCarved location inside)
  · simp [slotZones]
  · -- The new slot is in the hand, and nowhere else.
    refine @Exact.add _ .hand _ _ _ _ sound.exact new (isCarved_extended found small) (.refl _) ?_
    intro location notHand
    rw [Network.contents_left found rfl]
    cases location with
    | hand => exact absurd rfl notHand
    | unused | held | queued | received | retired => exact .refl _

/-! ## Queues -/

/-- Links and the words of a queue say nothing. -/
theorem carries_links (sound : Sound directory mapped network pending hand)
    (found : network.nodes rank = some node) {target other : UInt32} {links : List Offset}
    (changes : network.Changes (.queue target :: links.map .link) network.world.memory memory)
    {item : Item} (slot : network.IsCarved item.offset) (carries : network.Carries other item) :
    (network.left rank ⟨node, memory, notices⟩).Carries other item := by
  have evolves : network.Evolves (network.left rank ⟨node, memory, notices⟩) :=
    Network.evolves_left found (.refl node) changes.keeps
  have works : network.Works (network.left rank ⟨node, memory, notices⟩) _ :=
    Network.works_left found (.refl node) (evolves.changes changes)
  have carved : (network.left rank ⟨node, memory, notices⟩).AreCarved :=
    sound.areCarved_left found changes (by simp) fun _ => .inl (by simp)
  exact works.carries sound.charted sound.carved carved slot ⟨by simp, by simp⟩ carries

theorem requeue (sound : Sound directory mapped network pending hand)
    (found : network.nodes rank = some node) {target : UInt32} {peer : Node}
    (foundPeer : network.nodes target = some peer) (links : List Offset) {handAfter : List Offset}
    {line : List Item}
    (changes : network.Changes (.queue target :: links.map .link) network.world.memory memory)
    (linked : ∀ offset ∈ links, offset ∈ hand ∨ offset ∈ (pending target).map Item.offset)
    (holds : (network.chain target).Holds memory (line.map Item.offset))
    (items : ∀ item ∈ line, network.IsCarved item.offset ∧ network.Carries target item)
    (exact : Exact (network.contents (Function.update pending target line) handAfter)
      network.IsCarved) :
    Sound directory mapped (network.left rank ⟨node, memory, notices⟩)
      (Function.update pending target line) handAfter := by
  have evolves : network.Evolves (network.left rank ⟨node, memory, notices⟩) :=
    Network.evolves_left found (.refl node) changes.keeps
  have works : network.Works (network.left rank ⟨node, memory, notices⟩) _ :=
    Network.works_left found (.refl node) (evolves.changes changes)
  -- Links and the words of queues are no part of what a slot says.
  have spares : ∀ offset, Spares (.queue target :: links.map .link) offset := fun offset =>
    ⟨by simp, by simp⟩
  have carved : (network.left rank ⟨node, memory, notices⟩).AreCarved :=
    sound.areCarved_left found changes (by simp) fun _ => .inl (by simp)
  refine sound.work works carved
    (Network.ownsUnused_left sound.unused found (.refl node) rfl) (fun _ _ => spares _) ?_ ?_ ?_ ?_
  · intro other missing
    have differs : other ≠ target := by
      rintro rfl
      simp [missing] at foundPeer
    rw [Function.update_of_ne differs]
    exact sound.nobody missing
  · -- Only the queue of `target` holds another list than before.
    intro other third foundThird
    by_cases same : other = target
    · subst same
      rw [Function.update_self, evolves.chain]
      exact holds
    · rw [Function.update_of_ne same]
      refine works.holds sound.charted sound.carved carved foundThird (fun offset inside => ?_)
        (by simp [same]) (fun offset inside member => ?_) (sound.holds foundThird)
      · exact sound.isCarved (.queued other) inside
      · -- A slot in another queue is neither in hand nor in this queue.
        have inLinks : offset ∈ links := by simpa using member
        rcases linked offset inLinks with inHand | inQueue
        · cases @Exact.once _ _ sound.exact (.queued other) .hand offset inside inHand
        · exact same (Location.queued.inj (@Exact.once _ _ sound.exact (.queued other)
            (.queued target) offset inside inQueue))
  · intro other item inside
    by_cases same : other = target
    · subst same
      rw [Function.update_self] at inside
      exact sound.carries_links found changes (items item inside).1 (items item inside).2
    · rw [Function.update_of_ne same] at inside
      exact sound.carries_links found changes
        (sound.isCarved (.queued other) (List.mem_map.mpr ⟨item, inside, rfl⟩))
        (sound.items inside)
  · rw [Network.contents_left found rfl]
    exact exact.congr (fun _ => .refl _) (Network.isCarved_left found rfl evolves)

theorem contents_update {target : UInt32} {line : List Item} {location : Location}
    (differs : location ≠ .queued target) (away : location ≠ .hand) {handAfter : List Offset} :
    network.contents (Function.update pending target line) handAfter location =
      network.contents pending hand location := by
  cases location with
  | queued other =>
      have other_ne : other ≠ target := by
        rintro rfl
        exact differs rfl
      simp [Network.contents, Function.update_of_ne other_ne]
  | hand => exact absurd rfl away
  | unused | held | received | retired => rfl

/-- Putting a slot at the end of a queue writes words of the queue and links of what is in it. -/
theorem changes_appended {target : UInt32} {peer : Node} {queue : List Offset} {offset : Offset}
    (sound : Sound directory mapped network pending hand)
    (foundPeer : network.nodes target = some peer) (inHand : network.IsCarved offset)
    (queued : ∀ other ∈ queue, network.IsCarved other)
    {previous : Offset} (last : previous ∈ Offset.free :: queue)
    (keeps : network.world.memory.Keeps [((network.chain target).place offset, 8),
      ((network.chain target).tailPlace, 8), ((network.chain target).linkPlace previous, 8)]
      memory) :
    network.Changes (.queue target :: (offset :: queue).map .link) network.world.memory memory := by
  constructor
  · intro zone inside
    rcases List.mem_cons.mp inside with rfl | inside
    · exact ⟨peer, foundPeer⟩
    · obtain ⟨other, member, rfl⟩ := List.mem_map.mp inside
      rcases List.mem_cons.mp member with rfl | member
      · exact inHand
      · exact queued other member
  · refine keeps.widen fun {place count} positive apart => ?_
    have block := apart _ (List.mem_map.mpr ⟨.queue target, List.mem_cons_self, rfl⟩)
    have link : ∀ other ∈ offset :: queue,
        Memory.Apart place count (network.place other) 8 := fun other inside =>
      apart _ (List.mem_map.mpr ⟨.link other, List.mem_cons_of_mem _
        (List.mem_map.mpr ⟨other, inside, rfl⟩), rfl⟩)
    have words : ∀ {start}, start + 8 ≤ 16 → Memory.Apart place count
        ((network.chain target).block.shift start) 8 := by
      intro start inside same
      have split := block same
      simp only [Network.range, Network.zonePlace, Zone.home, Zone.start, Zone.length] at split
      simp only [Network.chain, Place.shift]
      omega
    simp only [Memory.apartFrom_cons, Memory.apartFrom_nil, and_true]
    refine ⟨link _ List.mem_cons_self, words (by decide), ?_⟩
    -- The link before the new one is the head of the queue, if nothing was in it.
    rcases List.mem_cons.mp last with rfl | inside
    · rw [Chain.linkPlace_free]
      exact @words 0 (by decide)
    · rw [Chain.linkPlace_proper ((sound.charted.separate sound.carved target).proper
        (queued previous inside))]
      exact link previous (List.mem_cons_of_mem _ inside)

theorem enqueue (found : network.nodes rank = some node) {target : UInt32} {peer : Node}
    (foundPeer : network.nodes target = some peer) {item : Item}
    (sound : Sound directory mapped network pending (item.offset :: hand))
    (carries : network.Carries target item)
    (holds : (network.chain target).Holds memory
      ((pending target).map Item.offset ++ [item.offset]))
    {previous : Offset} (last : previous ∈ Offset.free :: (pending target).map Item.offset)
    (keeps : network.world.memory.Keeps [((network.chain target).place item.offset, 8),
      ((network.chain target).tailPlace, 8), ((network.chain target).linkPlace previous, 8)]
      memory)
    (notices : List Notice) :
    Sound directory mapped (network.left rank ⟨node, memory, notices⟩)
      (Function.update pending target (pending target ++ [item])) hand := by
  have inHand : network.IsCarved item.offset := sound.isCarved .hand List.mem_cons_self
  have queued : ∀ offset ∈ (pending target).map Item.offset, network.IsCarved offset :=
    fun offset inside => sound.isCarved (.queued target) inside
  refine sound.requeue found foundPeer (item.offset :: (pending target).map Item.offset)
    (sound.changes_appended foundPeer inHand queued last keeps) ?_ ?_ ?_ ?_
  · intro offset inside
    rcases List.mem_cons.mp inside with rfl | inside
    · exact .inl List.mem_cons_self
    · exact .inr inside
  · rw [List.map_append]
    exact holds
  · intro other inside
    rcases List.mem_append.mp inside with inside | inside
    · exact ⟨queued _ (List.mem_map.mpr ⟨other, inside, rfl⟩), sound.items inside⟩
    · rw [List.mem_singleton.mp inside]
      exact ⟨inHand, carries⟩
  · refine sound.exact.move
      { differ := (by simp : Location.hand ≠ .queued target)
        taken := .refl _
        put := ?_
        others := fun location notSource notTarget => ?_ }
    · simp only [Network.contents, Function.update_self, List.map_append]
      exact List.perm_append_singleton ..
    · rw [contents_update notTarget notSource]

theorem changes_queue (found : network.nodes rank = some node)
    (keeps : network.world.memory.Keeps [((network.chain rank).block, 8),
      ((network.chain rank).tailPlace, 8)] memory) :
    network.Changes (.queue rank :: [].map .link) network.world.memory memory := by
  constructor
  · intro zone inside
    obtain rfl : zone = .queue rank := by simpa using inside
    exact ⟨node, found⟩
  · refine keeps.widen fun {place count} positive apart => ?_
    simp only [List.map_cons, List.map_nil, Memory.apartFrom_cons, Memory.apartFrom_nil, and_true,
      Network.range, Network.zonePlace, Zone.home, Zone.start, Zone.length, Network.chain,
      Chain.tailPlace, Place.shift, QueueField.tail, Memory.Apart] at apart ⊢
    omega

theorem dequeue (sound : Sound directory mapped network pending hand)
    (found : network.nodes rank = some node) {item : Item} {rest : List Item}
    (first : pending rank = item :: rest)
    (holds : (network.chain rank).Holds memory (rest.map Item.offset))
    (changes : network.Changes (.queue rank :: [].map .link) network.world.memory memory)
    (notices : List Notice) :
    Sound directory mapped (network.left rank ⟨node, memory, notices⟩)
      (Function.update pending rank rest) (item.offset :: hand) := by
  refine sound.requeue found found [] changes
    (fun _ inside => absurd inside List.not_mem_nil) holds ?_ ?_
  · intro other inside
    have member : other ∈ pending rank := first ▸ List.mem_cons_of_mem _ inside
    exact ⟨sound.isCarved (.queued rank) (List.mem_map.mpr ⟨other, member, rfl⟩),
      sound.items member⟩
  · refine sound.exact.move
      { differ := (by simp : Location.queued rank ≠ .hand)
        taken := ?_
        put := .refl _
        others := fun location notSource notTarget => ?_ }
    · simp only [Network.contents, Function.update_self, first]
      exact .refl _
    · rw [contents_update notSource notTarget]

end Sound

end RankMail

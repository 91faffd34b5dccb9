import RankMail.Proofs.Network.Receiving
import RankMail.Proofs.Network.Refusals

set_option autoImplicit false

/-! # What a node writes in its own file

What a node writes in its own file lies apart from all slots but those that it works on
(`Network.Own`):

    control words    the cursor, the queue, the doorbell
    fresh            behind the cursor, where the next slots are carved
    slots            those that it has in its hand

A byte in the header of each slot names its class. No node looks at it but to give a notice, but
each header is written with the class with which the slot was carved, and nothing else is written
over that byte; so it always says the class (`Network.AreClassed`).

`Network.Framed` says what a node writes when it acts: such ranges of its own file, and others that
are named.
-/

namespace RankMail

theorem Memory.load_sizeClass {memory : Memory} {place : Place} {source slot capacity : UInt32}
    {sizeClass : SizeClass} (written : memory.read place headerSize =
      (Header.fresh source slot sizeClass capacity).bytes) :
    memory.load HeaderField.sizeClass place = sizeClass.index := by
  have named : UInt8.ofNat (memory.load HeaderField.sizeClass place) =
      UInt8.ofNat sizeClass.index :=
    congrArg Header.classIndex (Header.read_of_bytes written)
  have small : memory.load HeaderField.sizeClass place < 2 ^ 8 :=
    memory.load_lt HeaderField.sizeClass place
  have few := sizeClass.index_lt
  have same := congrArg UInt8.toNat named
  rwa [UInt8.toNat_ofNat_of_lt' small, UInt8.toNat_ofNat_of_lt' (Nat.lt_trans few (by decide))]
    at same

namespace Network

/-- A range of a node's own file, apart from all slots but some. -/
structure Own (network : Network) (node : Node) (slots : List Offset) (range : Place × Nat) :
    Prop where
  region : range.1.region = node.segment.file.region
  stop : range.1.address + range.2 ≤ node.segment.size
  apart : ∀ {offset index descriptor}, network.Slot offset index descriptor → offset ∉ slots →
    Memory.Apart (network.place offset) (headerSize + descriptor.capacity.toNat) range.1 range.2

/-- The header of each slot names the class with which the slot was carved. -/
def AreClassed (network : Network) : Prop :=
  ∀ offset index descriptor, network.Slot offset index descriptor →
    network.world.memory.load HeaderField.sizeClass (network.place offset) =
      descriptor.sizeClass.index

/-- A range with the class of no slot in it. -/
def Bland (network : Network) (range : Place × Nat) : Prop :=
  ∀ offset index descriptor, network.Slot offset index descriptor →
    Memory.Apart ((network.place offset).shift HeaderField.sizeClass.distance) 1 range.1 range.2

namespace Own

variable {network after : Network} {node : Node} {slots : List Offset} {range : Place × Nat}

theorem bland (own : network.Own node [] range) : network.Bland range := by
  intro offset index descriptor slot same
  have split := own.apart slot List.not_mem_nil same
  simp only [Place.shift, HeaderField.sizeClass, headerSize] at split ⊢
  omega

theorem mono {more : List Offset} (own : network.Own node slots range) (subset : slots ⊆ more) :
    network.Own node more range where
  region := own.region
  stop := own.stop
  apart slot away := own.apart slot fun inside => away (subset inside)

theorem before {next : Node} (own : after.Own next slots range) (evolves : network.Evolves after)
    (grows : node.Grows next) : network.Own node slots range where
  region := own.region.trans (by rw [grows.segment])
  stop := by
    rw [← grows.segment]
    exact own.stop
  apart {offset _ _} slot away := by
    rw [← evolves.place offset]
    exact own.apart (evolves.slot slot) away

end Own

end Network

namespace Charted

variable {directory : String} {mapped : List Segment} {network : Network} {rank : UInt32}
  {node : Node} {slots : List Offset} {offset : Offset} {index : Nat} {descriptor : Descriptor}
  {place : Place} {distance count : Nat} {fragment : Fragment}

theorem own_control (charted : Charted directory mapped network) (carved : network.AreCarved)
    (found : network.nodes rank = some node) (region : place.region = node.segment.file.region)
    (stop : place.address + count ≤ arenaStart) (slots : List Offset) :
    network.Own node slots (place, count) where
  region := region
  stop := Nat.le_trans stop (Nat.le_of_lt (charted.placed found).above)
  apart slot _ _ := .inr (Nat.le_trans stop (slot_above carved slot))

theorem own_fresh (charted : Charted directory mapped network) (carved : network.AreCarved)
    (found : network.nodes rank = some node) (region : place.region = node.segment.file.region)
    (start : node.segment.cursor network.world.memory ≤ place.address)
    (stop : place.address + count ≤ node.segment.size) (slots : List Offset) :
    network.Own node slots (place, count) where
  region := region
  stop := stop
  apart {offset _ _} slot _ same := by
    obtain ⟨owner, foundOwner, has, position⟩ := slot
    rw [Network.place_of_node foundOwner] at same ⊢
    -- In one file there are only slots of one node.
    obtain rfl := charted.regions foundOwner found (same.trans region)
    obtain rfl := Option.some.inj (found.symm.trans foundOwner)
    have below := (carved found).below has
    rw [charted.arena_eq found] at below
    simp only [Descriptor.stop, headerSize] at below
    simp only [Segment.placeAt, headerSize]
    omega

theorem own_slot (charted : Charted directory mapped network) (carved : network.AreCarved)
    (found : network.nodes offset.rank = some node)
    (slot : network.Slot offset index descriptor) (inside : offset ∈ slots)
    (stop : distance + count ≤ headerSize + descriptor.capacity.toNat) :
    network.Own node slots ((network.place offset).shift distance, count) where
  region := network.region_of_node found
  stop := by
    obtain ⟨owner, foundOwner, has, position⟩ := slot
    obtain rfl := Option.some.inj (found.symm.trans foundOwner)
    have within := (carved found).within has
    rw [charted.arena_eq found, Descriptor.stop, position] at within
    simp only [Place.shift, Network.place]
    omega
  apart {other _ _} slotOther away same := by
    have differ : other ≠ offset := fun same => away (same ▸ inside)
    have split := charted.slots_apart carved slotOther slot differ same
    simp only [Place.shift]
    omega

theorem own_handle (charted : Charted directory mapped network) (carved : network.AreCarved)
    (found : network.nodes rank = some node) (handle : node.IsHandle fragment)
    (inside : fragment.offset ∈ slots) (stop : distance + count ≤ headerSize + fragment.capacity) :
    network.Own node slots (fragment.place.shift distance, count) := by
  obtain ⟨_, ranks, index, descriptor, fits⟩ := charted.fits carved found handle
  rw [fits.capacity] at stop
  rw [fits.place]
  exact charted.own_slot carved (ranks ▸ found) fits.slot inside stop

/-! ## Classes -/

theorem bland_slot (charted : Charted directory mapped network) (carved : network.AreCarved)
    (slot : network.Slot offset index descriptor)
    (stop : distance + count ≤ headerSize + descriptor.capacity.toNat)
    (beside : distance + count ≤ 26 ∨ 27 ≤ distance) :
    network.Bland ((network.place offset).shift distance, count) := by
  intro other second next slotOther same
  by_cases equal : other = offset
  · subst equal
    simp only [Place.shift, HeaderField.sizeClass]
    omega
  · have split := charted.slots_apart carved slotOther slot equal same
    simp only [Place.shift, HeaderField.sizeClass, headerSize] at split stop ⊢
    omega

end Charted

theorem Arena.has_of_stocked {arena : Arena} {sizeClass : SizeClass} {position count index : Nat}
    {descriptor : Descriptor}
    (has : (arena.stocked sizeClass position count).Has index descriptor) :
    arena.Has index descriptor ∨ ∃ fragment ∈ arena.stock sizeClass position count,
      fragment = arena.handle index descriptor := by
  rcases Nat.lt_or_ge index arena.descriptors.size with below | behind
  · exact .inl ((Array.getElem?_append_left below).symm.trans has)
  · have more := (Array.getElem?_append_right behind).symm.trans has
    simp only [List.getElem?_toArray, List.getElem?_map, Option.map_eq_some_iff] at more
    obtain ⟨number, found, rfl⟩ := more
    obtain ⟨inside, rfl⟩ := List.getElem?_eq_some_iff.mp found
    rw [List.length_range] at inside
    refine .inr ⟨_, List.mem_map.mpr ⟨_, List.mem_range.mpr inside, rfl⟩, ?_⟩
    rw [List.getElem_range, Nat.add_sub_cancel' behind]

namespace Network

variable {network : Network} {rank : UInt32} {scene after : Scene Node}
  {touched : List (Place × Nat)} {offset : Offset} {index : Nat} {descriptor : Descriptor}

theorem slot_of_scene (arena : after.actor.pool.arena = scene.actor.pool.arena)
    (slot : (network.left rank after).Slot offset index descriptor) :
    (network.left rank scene).Slot offset index descriptor := by
  rw [← network.left_left rank scene] at slot
  exact slot_of_left (nodes_left ..) arena slot

/-- Each slot still has its class if nothing has been written over it, or if its header has been
written anew. -/
theorem AreClassed.acts (classed : (network.left rank scene).AreClassed)
    (grows : scene.actor.Grows after.actor) (keeps : scene.memory.Keeps touched after.memory)
    (slots : ∀ {offset index descriptor}, (network.left rank after).Slot offset index descriptor →
      after.memory.load HeaderField.sizeClass ((network.left rank scene).place offset) =
          descriptor.sizeClass.index ∨
        (network.left rank scene).Slot offset index descriptor ∧ ∀ range ∈ touched,
          Memory.Apart (((network.left rank scene).place offset).shift
            HeaderField.sizeClass.distance) 1 range.1 range.2) :
    (network.left rank after).AreClassed := by
  intro offset index descriptor slot
  rw [(evolves_scene grows keeps).place]
  rcases slots slot with anew | ⟨old, apart⟩
  · exact anew
  · exact (keeps.load apart).trans (classed _ _ _ old)

/-- Each slot still has its class if no range that has been written reaches over one. -/
theorem AreClassed.bland (classed : (network.left rank scene).AreClassed)
    (grows : scene.actor.Grows after.actor)
    (arena : after.actor.pool.arena = scene.actor.pool.arena)
    (keeps : scene.memory.Keeps touched after.memory)
    (bland : ∀ range ∈ touched, (network.left rank scene).Bland range) :
    (network.left rank after).AreClassed :=
  classed.acts grows keeps fun slot =>
    .inr ⟨slot_of_scene arena slot,
      fun range inside => bland range inside _ _ _ (slot_of_scene arena slot)⟩

end Network

/-- What a node makes of its scene: it writes ranges of its own file apart from all slots but some,
and ranges that are named. -/
structure Network.Framed (network : Network) (rank : UInt32) (slots : List Offset)
    (outward : List (Place × Nat)) (before after : Scene Node) : Prop where
  grows : before.actor.Grows after.actor
  classed : (network.left rank before).AreClassed → (network.left rank after).AreClassed
  writes : ∃ inward, before.memory.Keeps (inward ++ outward) after.memory ∧
    ∀ range ∈ inward, (network.left rank before).Own before.actor slots range

namespace Network.Framed

variable {network : Network} {rank : UInt32} {slots more : List Offset}
  {outward : List (Place × Nat)} {before between after : Scene Node}

theorem quiet (actor : after.actor = before.actor) (memory : after.memory = before.memory) :
    network.Framed rank slots outward before after where
  grows := actor ▸ .refl _
  classed classed := by
    have keeps : before.memory.Keeps [] after.memory := memory ▸ .refl ..
    exact classed.bland (actor ▸ .refl _) (by rw [actor]) keeps fun _ inside =>
      absurd inside List.not_mem_nil
  writes := ⟨[], memory ▸ .refl .., fun _ inside => absurd inside List.not_mem_nil⟩

theorem mono (framed : network.Framed rank slots outward before after) (subset : slots ⊆ more) :
    network.Framed rank more outward before after where
  grows := framed.grows
  classed := framed.classed
  writes := framed.writes.imp fun _ writes =>
    ⟨writes.1, fun range inside => (writes.2 range inside).mono subset⟩

theorem beyond (framed : network.Framed rank slots [] before after)
    (outward : List (Place × Nat)) : network.Framed rank slots outward before after where
  grows := framed.grows
  classed := framed.classed
  writes := framed.writes.imp fun _ writes => ⟨writes.1.mono (by simp), writes.2⟩

theorem relabel (framed : network.Framed rank slots outward before after) (other : Network)
    (world : other.world = network.world) (nodes : other.nodes = network.nodes) :
    other.Framed rank slots outward before after := by
  obtain ⟨_, _, _, _, _, _⟩ := other
  subst world nodes
  refine ⟨framed.grows, framed.classed, framed.writes.imp fun _ writes =>
    ⟨writes.1, fun range inside => ?_⟩⟩
  have own := writes.2 range inside
  exact ⟨own.region, own.stop, own.apart⟩

/-- Ranges of several steps add up. -/
theorem trans (one : network.Framed rank slots [] before between)
    (two : network.Framed rank slots outward between after) :
    network.Framed rank slots outward before after where
  grows := one.grows.trans two.grows
  classed := two.classed ∘ one.classed
  writes := by
    obtain ⟨first, keeps, owned⟩ := one.writes
    obtain ⟨second, keepsMore, ownedMore⟩ := two.writes
    refine ⟨first ++ second, (keeps.trans keepsMore).mono (by simp), fun range inside => ?_⟩
    rcases List.mem_append.mp inside with inside | inside
    · exact owned range inside
    · exact (ownedMore range inside).before (evolves_scene one.grows keeps) one.grows

end Network.Framed

namespace Sound

variable {directory : String} {mapped : List Segment} {network : Network} {rank : UInt32}
  {pending : UInt32 → List Item} {hand : List Offset} {scene after : Scene Node}
  {fragment : Fragment} {sizeClass : SizeClass}

/-! ## Headers -/

/-- A node writes the headers of slots of its own with which they were carved, and control words. -/
theorem framed_headers {fragments : List Fragment} {control : List (Place × Nat)}
    (sound : Sound directory mapped (network.left rank scene) pending hand)
    (handles : ∀ fragment ∈ fragments, scene.actor.IsHandle fragment)
    (grows : scene.actor.Grows after.actor)
    (arena : after.actor.pool.arena = scene.actor.pool.arena)
    (keeps : scene.memory.Keeps (control ++ fragments.map Fragment.headerRange) after.memory)
    (words : ∀ range ∈ control, range.1.region = scene.actor.segment.file.region ∧
      range.1.address + range.2 ≤ arenaStart)
    (blank : ∀ fragment ∈ fragments,
      fragment.IsBlank scene.actor.pool.arena.rank after.memory) :
    network.Framed rank (fragments.map Fragment.offset) [] scene after := by
  have found := network.nodes_left rank scene
  have owned : ∀ range ∈ control ++ fragments.map Fragment.headerRange,
      (network.left rank scene).Own scene.actor (fragments.map Fragment.offset) range := by
    intro range inside
    rcases List.mem_append.mp inside with inside | inside
    · obtain ⟨region, stop⟩ := words range inside
      exact sound.charted.own_control sound.carved found region stop _
    · obtain ⟨fragment, member, rfl⟩ := List.mem_map.mp inside
      show (network.left rank scene).Own _ _ (fragment.place.shift 0, headerSize)
      exact sound.charted.own_handle sound.carved found (handles fragment member)
        (List.mem_map.mpr ⟨fragment, member, rfl⟩) (by omega)
  refine ⟨grows, fun classed => classed.acts grows keeps fun {offset _ _} slot => ?_,
    _, keeps.mono (List.subset_append_left ..), owned⟩
  have old := Network.slot_of_scene arena slot
  by_cases written : offset ∈ fragments.map Fragment.offset
  · obtain ⟨fragment, member, rfl⟩ := List.mem_map.mp written
    obtain ⟨_, _, index, descriptor, fits⟩ :=
      sound.charted.fits sound.carved found (handles fragment member)
    obtain ⟨_, rfl⟩ := Charted.slot_unique sound.carved fits.slot old
    rw [← fits.place, ← fits.sizeClass]
    exact .inl (Memory.load_sizeClass (blank fragment member))
  · refine .inr ⟨old, fun range inside regions => ?_⟩
    have split := (owned range inside).apart old written regions
    simp only [Place.shift, HeaderField.sizeClass, headerSize] at split ⊢
    omega

theorem framed_recycles
    (sound : Sound directory mapped (network.left rank scene) pending hand)
    (handle : scene.actor.IsHandle fragment) (recycles : scene.Recycles fragment after) :
    network.Framed rank [fragment.offset] [] scene after := by
  refine @framed_headers _ _ _ _ _ _ _ _ [fragment] [] sound
    (List.forall_mem_singleton.mpr handle) recycles.grows ?_ recycles.keeps
    (fun _ inside => absurd inside List.not_mem_nil)
    (List.forall_mem_singleton.mpr recycles.isBlank)
  rw [recycles.actor]
  rfl

/-- A node that goes through its queue writes the words of the queue, and the headers of what it
takes back. -/
theorem framed_skims {fragments : List Fragment}
    (sound : Sound directory mapped (network.left rank scene) pending hand)
    (handles : ∀ fragment ∈ fragments, scene.actor.IsHandle fragment)
    (skims : scene.Skims fragments after) :
    network.Framed rank (fragments.map Fragment.offset) [] scene after := by
  refine @framed_headers _ _ _ _ _ _ _ _ fragments [_] sound handles skims.grows ?_ skims.keeps
    (List.forall_mem_singleton.mpr ⟨rfl, ?_⟩) skims.headers
  · rw [skims.rest]
  · exact (by decide : queueStart + 16 ≤ arenaStart)

/-! ## Taking a slot -/

/-- What a batch writes is the cursor, and the headers of slots that lie behind it. -/
theorem own_restocks {grown : Scene Pool} {count : Nat} {handAfter : List Offset}
    (sound : Sound directory mapped (network.left rank scene) pending hand)
    (soundAfter : Sound directory mapped (network.left rank (grown.around scene.actor)) pending
      handAfter)
    (restocks : Pool.Restocks scene.pool sizeClass count fragment grown) :
    ∀ range ∈ (scene.actor.pool.arena.segment.place.shift 32, 8) ::
      (Pool.stock scene.pool sizeClass count).map Fragment.headerRange,
        (network.left rank scene).Own scene.actor [] range := by
  have found := network.nodes_left rank scene
  have own := sound.charted.arena_eq found
  have arena : grown.actor.arena = _ := restocks.carves.actor
  intro range inside
  rcases List.mem_cons.mp inside with rfl | inside
  · rw [own]
    exact sound.charted.own_control sound.carved found rfl
      (show 0 + 32 + 8 ≤ arenaStart by decide) []
  · obtain ⟨other, member, rfl⟩ := List.mem_map.mp inside
    obtain ⟨index, few, rfl⟩ := Arena.mem_stock member
    have has := Arena.has_stocked scene.actor.pool.arena sizeClass
      (scene.actor.pool.arena.segment.cursor scene.memory) few
    have within := (soundAfter.carved (network.nodes_left rank (grown.around scene.actor))).within
      (arena ▸ has)
    change _ ≤ grown.actor.arena.segment.size at within
    rw [arena] at within
    change _ ≤ scene.actor.pool.arena.segment.size at within
    simp only [Descriptor.stop] at within
    refine sound.charted.own_fresh sound.carved found ?_ ?_ ?_ []
    · exact congrArg (fun segment => segment.file.region) own
    · rw [← own]
      exact Nat.le_add_right ..
    · rw [← own]
      exact Nat.le_trans (Nat.le_add_right ..) within

theorem slot_restocks {grown : Scene Pool} {count : Nat} {offset : Offset} {index : Nat}
    {descriptor : Descriptor}
    (sound : Sound directory mapped (network.left rank scene) pending hand)
    (restocks : Pool.Restocks scene.pool sizeClass count fragment grown)
    (slot : (network.left rank (grown.around scene.actor)).Slot offset index descriptor) :
    (network.left rank scene).Slot offset index descriptor ∨
      ∃ other ∈ Pool.stock scene.pool sizeClass count,
        other.place = (network.left rank scene).place offset ∧
        other.sizeClass = descriptor.sizeClass := by
  have found := network.nodes_left rank scene
  have arena : grown.actor.arena = _ := restocks.carves.actor
  obtain ⟨owner, foundOwner, has, position⟩ := slot
  rcases Network.nodes_of_left foundOwner with ⟨own, rfl⟩ | ⟨differs, foundOwner⟩
  · change grown.actor.arena.Has index descriptor at has
    rw [arena] at has
    rcases Arena.has_of_stocked has with old | ⟨other, inside, rfl⟩
    · exact .inl ⟨scene.actor, by rw [own]; exact found, old, position⟩
    · refine .inr ⟨_, inside, ?_, rfl⟩
      rw [Network.place_of_node (by rw [own]; exact found), ← position,
        ← sound.charted.arena_eq found]
      rfl
  · exact .inl ⟨owner, by simpa [Network.left, differs] using foundOwner, has, position⟩

/-- A node that takes a slot writes the cursor and the headers of a batch, if anything. -/
theorem framed_alloc (sound : Sound directory mapped (network.left rank scene) pending hand)
    (sizeClass : SizeClass) :
    (Node.alloc sizeClass scene).Meets False fun _ after =>
      network.Framed rank [] [] scene after := by
  have allocates := Node.meets_inPool.mp (sound.alloc_meets sizeClass)
  refine Node.meets_inPool.mpr ((allocates.both (sound.isApt.get_meets sizeClass)).mono ?_)
  rintro (fault | fragment) grown ⟨⟨grows, sounds⟩, taken⟩
  · obtain ⟨_, notices, rfl⟩ := taken
    exact .quiet rfl rfl
  · rcases taken with ⟨rest, _, rfl⟩ | ⟨_, restocks⟩
    · exact
        { grows
          classed := fun classed => classed.bland grows rfl (.refl [] _)
            fun _ inside => absurd inside List.not_mem_nil
          writes := ⟨[], .refl .., fun _ inside => absurd inside List.not_mem_nil⟩ }
    · have owned := sound.own_restocks sounds.1 restocks
      refine ⟨grows, fun classed => classed.acts grows restocks.carves.keeps fun slot => ?_,
        _, restocks.carves.keeps.mono (List.subset_append_left ..), owned⟩
      rcases sound.slot_restocks restocks slot with old | ⟨other, inside, place, same⟩
      · exact .inr ⟨old, fun range inside => (owned range inside).bland _ _ _ old⟩
      · rw [← place, ← same]
        exact .inl (Memory.load_sizeClass (restocks.carves.blank other inside))

/-! ## A slot in hand -/

theorem framed_body {touched outward : List (Place × Nat)}
    (sound : Sound directory mapped (network.left rank scene) pending hand)
    (handle : scene.actor.IsHandle fragment) (actor : after.actor = scene.actor)
    (keeps : scene.memory.Keeps (touched ++ outward) after.memory)
    (inside : ∀ range ∈ touched, ∃ distance, range.1 = fragment.place.shift distance ∧
      (distance + range.2 ≤ 26 ∨ 27 ≤ distance) ∧
        distance + range.2 ≤ headerSize + fragment.capacity)
    (bland : ∀ range ∈ outward, (network.left rank scene).Bland range) :
    network.Framed rank [fragment.offset] outward scene after where
  grows := actor ▸ .refl _
  classed classed := by
    refine classed.bland (actor ▸ .refl _) (by rw [actor]) keeps fun range member => ?_
    rcases List.mem_append.mp member with member | member
    · obtain ⟨_, _, index, descriptor, fits⟩ :=
        sound.charted.fits sound.carved (network.nodes_left rank scene) handle
      obtain ⟨place, count⟩ := range
      obtain ⟨distance, rfl, beside, stop⟩ := inside _ member
      rw [fits.place]
      rw [fits.capacity] at stop
      exact sound.charted.bland_slot sound.carved fits.slot stop beside
    · exact bland range member
  writes := by
    refine ⟨touched, keeps, fun range member => ?_⟩
    obtain ⟨place, count⟩ := range
    obtain ⟨distance, rfl, _, stop⟩ := inside _ member
    exact sound.charted.own_handle sound.carved (network.nodes_left rank scene) handle
      List.mem_cons_self stop

end Sound

end RankMail

import Mathlib.Data.List.Range
import RankMail.Proofs.Pool.Slots

set_option autoImplicit false

/-! # How many slots there is room for

`Arena.available` forecasts by one division how many slots of a class there is room for. Carving
asks for the room of one slot, and moves the cursor behind it:

    cursor                                               end of the segment
      | slot 0 | slot 1 |  . . .  | slot k - 1 | too short |

So each slot takes one from the forecast (`Apt.available_further`). The slots of a class that are
carved one behind the other from the cursor on are the `stock` of an arena, with one index behind
the other; `Arena.Carves` says what else becomes of the arena and of memory.
-/

namespace RankMail

/-! ## Blank headers -/

namespace Fragment

variable {fragment : Fragment} {rank : UInt32} {memory after : Memory}

def headerRange (fragment : Fragment) : Place × Nat := (fragment.place, headerSize)

/-- The header with which the slot was carved. -/
def blank (fragment : Fragment) (rank : UInt32) : Header :=
  .fresh rank fragment.slot fragment.sizeClass (UInt32.ofNat fragment.capacity)

/-- The header of the slot is still the one with which it was carved. -/
def IsBlank (fragment : Fragment) (rank : UInt32) (memory : Memory) : Prop :=
  memory.read fragment.place headerSize = (fragment.blank rank).bytes

theorem IsBlank.header_eq (blank : fragment.IsBlank rank memory) :
    fragment.header memory = fragment.blank rank :=
  Header.read_of_bytes blank

theorem IsBlank.length_eq (blank : fragment.IsBlank rank memory) : fragment.length memory = 0 := by
  have length : UInt32.ofNat (memory.load HeaderField.length fragment.place) = 0 :=
    congrArg Header.length blank.header_eq
  have small : memory.load HeaderField.length fragment.place < 2 ^ 32 :=
    memory.load_lt HeaderField.length fragment.place
  have none : memory.load HeaderField.length fragment.place = 0 := by
    have number := congrArg UInt32.toNat length
    rwa [UInt32.toNat_ofNat_of_lt' small] at number
  rw [Fragment.length, none, Nat.zero_min]

theorem IsBlank.congr (blank : fragment.IsBlank rank memory)
    (same : after.read fragment.place headerSize = memory.read fragment.place headerSize) :
    fragment.IsBlank rank after :=
  same.trans blank

end Fragment

namespace Arena

variable {arena : Arena} {memory : Memory} {scene after : Scene Arena} {sizeClass : SizeClass}
  {count : Nat}

/-! ## One slot -/

def slotLength (arena : Arena) (sizeClass : SizeClass) : Nat :=
  (slotSize (arena.capacities.capacity sizeClass)).getD 0

theorem available_eq (arena : Arena) (memory : Memory) (sizeClass : SizeClass) :
    arena.available memory sizeClass =
      arena.segment.remaining memory / arena.slotLength sizeClass := by
  rw [available, slotLength]
  cases slotSize (arena.capacities.capacity sizeClass) with
  | none => exact (Nat.div_zero _).symm
  | some size => rfl

theorem Apt.sized (apt : arena.Apt memory) (sizeClass : SizeClass) :
    slotSize (arena.capacities.capacity sizeClass) = some (arena.slotLength sizeClass) ∧
      headerSize + arena.capacities.capacity sizeClass ≤ arena.slotLength sizeClass := by
  obtain ⟨size, sized, _, enough⟩ := slotSize_eq (apt.allowed sizeClass)
  have length : arena.slotLength sizeClass = size := by
    rw [slotLength, sized]
    rfl
  rw [length]
  exact ⟨sized, enough⟩

theorem Apt.slotLength_pos (apt : arena.Apt memory) (sizeClass : SizeClass) :
    0 < arena.slotLength sizeClass := by
  have enough := (apt.sized sizeClass).2
  simp only [headerSize] at enough
  omega

/-- A slot is forecast exactly if it fits behind the cursor. -/
theorem Apt.available_pos_iff (apt : arena.Apt memory) :
    0 < arena.available memory sizeClass ↔
      arena.segment.cursor memory + arena.slotLength sizeClass ≤ arena.segment.size := by
  have below := apt.below
  rw [available_eq, Nat.div_pos_iff, Segment.remaining]
  have positive := apt.slotLength_pos sizeClass
  constructor
  · rintro ⟨_, fits⟩
    omega
  · intro fits
    omega

def nextFragment (arena : Arena) (sizeClass : SizeClass) (memory : Memory) : Fragment :=
  arena.handle arena.descriptors.size (arena.nextDescriptor sizeClass (arena.segment.cursor memory))

/-- The scene of an arena that has carved one more slot of a class at the cursor. -/
def further (sizeClass : SizeClass) (scene : Scene Arena) : Scene Arena :=
  let position := scene.actor.segment.cursor scene.memory
  ⟨scene.actor.extended sizeClass position,
    (scene.memory.store SegmentField.cursor scene.actor.segment.place
      (position + scene.actor.slotLength sizeClass)).writeHeader
        (scene.actor.segment.placeAt position) (scene.actor.nextHeader sizeClass),
    scene.notices⟩

theorem Apt.carve_of_room (apt : scene.actor.Apt scene.memory)
    (room : 0 < scene.actor.available scene.memory sizeClass) :
    carve sizeClass scene =
      .done (scene.actor.nextFragment sizeClass scene.memory) (further sizeClass scene) :=
  apt.carve_of_fits (apt.sized sizeClass).1 (apt.available_pos_iff.mp room)

theorem Apt.carve_of_none (apt : scene.actor.Apt scene.memory)
    (none : scene.actor.available scene.memory sizeClass = 0) :
    carve sizeClass scene = .failed (.exhausted sizeClass) { scene with
      notices := scene.notices ++ [.exhausted scene.actor.segment.rank sizeClass
        (scene.actor.segment.remaining scene.memory)] } := by
  refine carve_of_full (apt.sized sizeClass).1 (Nat.not_le.mp fun fits => ?_)
  exact absurd (apt.available_pos_iff.mpr fits) (by omega)

theorem Apt.cursor_further (apt : scene.actor.Apt scene.memory)
    (room : 0 < scene.actor.available scene.memory sizeClass) :
    scene.actor.segment.cursor (further sizeClass scene).memory =
      scene.actor.segment.cursor scene.memory + scene.actor.slotLength sizeClass := by
  have above := apt.above
  have fits := apt.available_pos_iff.mp room
  have small := apt.small
  simp only [maxSegmentSize] at small
  refine (scene.actor.segment.cursor_write _ (by omega) _).trans ?_
  exact scene.actor.segment.cursor_store scene.memory (by omega)

theorem Apt.stays (apt : scene.actor.Apt scene.memory)
    (room : 0 < scene.actor.available scene.memory sizeClass) :
    (further sizeClass scene).actor.Apt (further sizeClass scene).memory := by
  have cursor := apt.cursor_further room
  have fits := apt.available_pos_iff.mp room
  have above := apt.above
  have enough := (apt.sized sizeClass).2
  refine ⟨apt.small, apt.allowed, ?_, ?_⟩
  · show arenaStart + headerAlignment * (scene.actor.descriptors.push _).size ≤
      scene.actor.segment.cursor (further sizeClass scene).memory
    rw [cursor, Array.size_push]
    simp only [headerAlignment, headerSize] at above enough ⊢
    omega
  · show scene.actor.segment.cursor (further sizeClass scene).memory ≤ _
    rw [cursor]
    exact fits

/-- A slot takes its length from what is left of the segment. -/
theorem Apt.remaining_further (apt : scene.actor.Apt scene.memory)
    (room : 0 < scene.actor.available scene.memory sizeClass) :
    scene.actor.segment.remaining (further sizeClass scene).memory =
      scene.actor.segment.remaining scene.memory - scene.actor.slotLength sizeClass := by
  rw [Segment.remaining, Segment.remaining, apt.cursor_further room]
  omega

/-- A slot takes one from the forecast of its class. -/
theorem Apt.available_further (apt : scene.actor.Apt scene.memory)
    (room : 0 < scene.actor.available scene.memory sizeClass) :
    (further sizeClass scene).actor.available (further sizeClass scene).memory
      sizeClass + 1 = scene.actor.available scene.memory sizeClass := by
  have left : (further sizeClass scene).actor.available
      (further sizeClass scene).memory sizeClass =
        (scene.actor.segment.remaining scene.memory - scene.actor.slotLength sizeClass) /
          scene.actor.slotLength sizeClass := by
    rw [← apt.remaining_further room]
    exact available_eq ..
  rw [available_eq, Nat.div_pos_iff] at room
  rw [left, available_eq]
  exact (Nat.div_eq_sub_div room.1 room.2).symm

/-! ## Several slots -/

/-- The handles of some slots of a class that are carved one behind the other from a position on,
under the next indices. -/
def stock (arena : Arena) (sizeClass : SizeClass) (position count : Nat) : List Fragment :=
  (List.range count).map fun index => arena.handle (arena.descriptors.size + index)
    (arena.nextDescriptor sizeClass (position + index * arena.slotLength sizeClass))

/-- The arena once it has carved them. -/
def stocked (arena : Arena) (sizeClass : SizeClass) (position count : Nat) : Arena :=
  { arena with descriptors := arena.descriptors ++ ((List.range count).map fun index =>
      arena.nextDescriptor sizeClass (position + index * arena.slotLength sizeClass)).toArray }

@[simp] theorem stock_zero (arena : Arena) (sizeClass : SizeClass) (position : Nat) :
    arena.stock sizeClass position 0 = [] := rfl

@[simp] theorem stocked_zero (arena : Arena) (sizeClass : SizeClass) (position : Nat) :
    arena.stocked sizeClass position 0 = arena := by
  simp [stocked]

/-- The slots behind the first one lie as far from its end as all of them from its beginning. -/
theorem stock_position (arena : Arena) (sizeClass : SizeClass) (position index : Nat) :
    position + (index + 1) * arena.slotLength sizeClass =
      position + arena.slotLength sizeClass + index * arena.slotLength sizeClass := by
  rw [Nat.succ_mul]
  omega

/-- The first slot of a stock is the next one, and the others are those of the arena that has carved
it. -/
theorem stock_succ (arena : Arena) (sizeClass : SizeClass) (position count : Nat) :
    arena.stock sizeClass position (count + 1) =
      arena.handle arena.descriptors.size (arena.nextDescriptor sizeClass position) ::
        (arena.extended sizeClass position).stock sizeClass
          (position + arena.slotLength sizeClass) count := by
  have follows : ∀ index, arena.descriptors.size + (index + 1) =
      (arena.extended sizeClass position).descriptors.size + index := by
    intro index
    simp only [extended, Array.size_push]
    omega
  rw [stock, List.range_succ_eq_map, List.map_cons, List.map_map]
  simp only [Function.comp_def, Nat.succ_eq_add_one, stock_position, follows, Nat.zero_mul,
    Nat.add_zero]
  rfl

theorem stocked_succ (arena : Arena) (sizeClass : SizeClass) (position count : Nat) :
    arena.stocked sizeClass position (count + 1) =
      (arena.extended sizeClass position).stocked sizeClass
        (position + arena.slotLength sizeClass) count := by
  rw [stocked, List.range_succ_eq_map, List.map_cons, List.map_map]
  simp only [Function.comp_def, Nat.succ_eq_add_one, stock_position, Nat.zero_mul, Nat.add_zero]
  simp [stocked, extended, nextDescriptor, slotLength]

/-- An arena has carved some slots of a class, one behind the other. Only the cursor and the headers
of these slots have been written. -/
structure Carves (before : Scene Arena) (sizeClass : SizeClass) (count : Nat)
    (after : Scene Arena) : Prop where
  actor : after.actor =
    before.actor.stocked sizeClass (before.actor.segment.cursor before.memory) count
  cursor : before.actor.segment.cursor after.memory =
    before.actor.segment.cursor before.memory + count * before.actor.slotLength sizeClass
  blank : ∀ fragment ∈ before.actor.stock sizeClass
      (before.actor.segment.cursor before.memory) count,
    fragment.IsBlank before.actor.rank after.memory
  keeps : before.memory.Keeps ((before.actor.segment.place.shift 32, 8) ::
    (before.actor.stock sizeClass (before.actor.segment.cursor before.memory) count).map
      Fragment.headerRange) after.memory
  notices : before.notices <+: after.notices
  apt : after.actor.Apt after.memory
  left : after.actor.available after.memory sizeClass + count =
    before.actor.available before.memory sizeClass

theorem Carves.none (apt : scene.actor.Apt scene.memory) (sizeClass : SizeClass)
    (notices : List Notice) :
    Carves scene sizeClass 0 { scene with notices := scene.notices ++ notices } where
  actor := (stocked_zero ..).symm
  cursor := by simp
  blank _ inside := absurd inside List.not_mem_nil
  keeps := .refl ..
  notices := List.prefix_append ..
  apt := apt
  left := rfl

theorem mem_stock {position : Nat} {fragment : Fragment}
    (inside : fragment ∈ arena.stock sizeClass position count) :
    ∃ index < count, fragment = arena.handle (arena.descriptors.size + index)
      (arena.nextDescriptor sizeClass (position + index * arena.slotLength sizeClass)) := by
  obtain ⟨index, below, same⟩ := List.mem_map.mp inside
  exact ⟨index, List.mem_range.mp below, same.symm⟩

theorem blank_further (scene : Scene Arena) (sizeClass : SizeClass) :
    (scene.actor.nextFragment sizeClass scene.memory).IsBlank scene.actor.rank
      (further sizeClass scene).memory := by
  have written := Memory.read_write_same (scene.memory.store SegmentField.cursor
    scene.actor.segment.place (scene.actor.segment.cursor scene.memory +
      scene.actor.slotLength sizeClass)) (scene.actor.segment.placeAt
        (scene.actor.segment.cursor scene.memory)) (scene.actor.nextHeader sizeClass).bytes
  rw [Header.length_bytes] at written
  refine written.trans ?_
  rw [nextHeader, nextFragment, Fragment.blank, handle, nextDescriptor, UInt32.ofNat_toNat]

theorem Apt.apart_stock (apt : scene.actor.Apt scene.memory) (sizeClass : SizeClass)
    (count : Nat) :
    Memory.ApartFrom (scene.actor.nextFragment sizeClass scene.memory).place headerSize
      ((scene.actor.segment.place.shift 32, 8) ::
        ((further sizeClass scene).actor.stock sizeClass
          (scene.actor.segment.cursor scene.memory + scene.actor.slotLength sizeClass) count).map
            Fragment.headerRange) := by
  have above := apt.above
  have enough := (apt.sized sizeClass).2
  simp only [arenaStart] at above
  simp only [headerSize] at enough
  intro range inside
  rcases List.mem_cons.mp inside with rfl | inside
  · simp only [Memory.Apart, Fragment.place, nextFragment, handle, nextDescriptor,
      Segment.placeAt, Segment.place, Place.shift, headerSize]
    omega
  · obtain ⟨fragment, member, rfl⟩ := List.mem_map.mp inside
    obtain ⟨index, _, rfl⟩ := mem_stock member
    simp only [Memory.Apart, Fragment.headerRange, Fragment.place, nextFragment, handle,
      nextDescriptor, Segment.placeAt, headerSize]
    omega

/-- Whoever carves a slot and then some more has carved one more. -/
theorem Carves.more (apt : scene.actor.Apt scene.memory)
    (room : 0 < scene.actor.available scene.memory sizeClass)
    (carves : Carves (further sizeClass scene) sizeClass count after) :
    Carves scene sizeClass (count + 1) after := by
  have cursor : (further sizeClass scene).actor.segment.cursor (further sizeClass scene).memory =
      scene.actor.segment.cursor scene.memory + scene.actor.slotLength sizeClass :=
    apt.cursor_further room
  obtain ⟨actor, moved, blank, keeps, notices, further, left⟩ := carves
  rw [cursor] at actor moved blank keeps
  refine ⟨?_, ?_, ?_, ?_, notices, further, ?_⟩
  · rw [stocked_succ]
    exact actor
  · rw [Nat.succ_mul]
    refine moved.trans ?_
    show _ + count * scene.actor.slotLength sizeClass = _
    omega
  · rw [stock_succ]
    refine List.forall_mem_cons.mpr ⟨?_, blank⟩
    exact (blank_further scene sizeClass).congr (keeps.read (apt.apart_stock sizeClass count))
  · rw [stock_succ]
    have first := (scene.memory.keeps_store SegmentField.cursor scene.actor.segment.place
      (scene.actor.segment.cursor scene.memory + scene.actor.slotLength sizeClass)).trans
        (Memory.keeps_writeHeader _ (scene.actor.segment.placeAt
          (scene.actor.segment.cursor scene.memory)) (scene.actor.nextHeader sizeClass))
    refine (first.trans keeps).mono fun range inside => ?_
    simp only [List.mem_append, List.mem_cons, List.not_mem_nil, or_false, List.map_cons]
      at inside ⊢
    rcases inside with (rfl | rfl) | rfl | inside
    · exact .inl rfl
    · exact .inr (.inl rfl)
    · exact .inl rfl
    · exact .inr (.inr inside)
  · have one := apt.available_further room
    omega

/-! ## The table of slots -/

theorem Has.stocked {index : Nat} {descriptor : Descriptor} (has : arena.Has index descriptor)
    (sizeClass : SizeClass) (position count : Nat) :
    (arena.stocked sizeClass position count).Has index descriptor :=
  (Array.getElem?_append_left (Array.getElem?_eq_some_iff.mp has).1).trans has

theorem has_stocked {index : Nat} (arena : Arena) (sizeClass : SizeClass) (position : Nat)
    (below : index < count) :
    (arena.stocked sizeClass position count).Has (arena.descriptors.size + index)
      (arena.nextDescriptor sizeClass (position + index * arena.slotLength sizeClass)) := by
  refine (Array.getElem?_append_right (Nat.le_add_right ..)).trans ?_
  simp [below]

/-- The headers of the slots that have been carved before stay. -/
theorem Carves.read_old {index : Nat} {descriptor : Descriptor}
    (carves : Carves scene sizeClass count after)
    (stacked : scene.actor.Stacked scene.memory) (has : scene.actor.Has index descriptor) :
    after.memory.read (scene.actor.handle index descriptor).place headerSize =
      scene.memory.read (scene.actor.handle index descriptor).place headerSize := by
  have above := stacked.above has
  have below := stacked.below has
  simp only [arenaStart] at above
  simp only [Descriptor.stop, headerSize] at below
  refine carves.keeps.read fun range inside => ?_
  rcases List.mem_cons.mp inside with rfl | inside
  · simp only [Memory.Apart, Fragment.place, handle, Segment.placeAt, Segment.place, Place.shift,
      headerSize]
    omega
  · obtain ⟨fragment, member, rfl⟩ := List.mem_map.mp inside
    obtain ⟨index, _, rfl⟩ := mem_stock member
    simp only [Memory.Apart, Fragment.headerRange, Fragment.place, handle, nextDescriptor,
      Segment.placeAt, headerSize]
    omega

end Arena

end RankMail

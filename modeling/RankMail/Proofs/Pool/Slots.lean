import RankMail.Pool
import RankMail.Proofs.Ends
import RankMail.Proofs.Memory.Frame

set_option autoImplicit false

/-! # Slots

What an arena has carved lies between the control words and the cursor, one slot behind the other:
`Arena.Stacked`. This does not depend on what has been written into the slots. Carving another slot
keeps it, and writes nothing but the cursor and the new header (`Stacked.carve_meets`). As long as
nobody has overwritten the headers, each of them names its slot besides: `Arena.Carved`.

A slot that comes back gets the header with which it was carved if its header still names it
(`recycle_named`), so it does not matter what else has been written into it in the meantime; if its
header does not name it, the pool aborts (`recycle_unnamed`).
-/

namespace RankMail

def Descriptor.stop (descriptor : Descriptor) : Nat :=
  descriptor.position + headerSize + descriptor.capacity.toNat

/-- An arena has carved a slot under an index. -/
def Arena.Has (arena : Arena) (index : Nat) (descriptor : Descriptor) : Prop :=
  arena.descriptors[index]? = some descriptor

/-- The slots of an arena lie behind one another, between the control words and the cursor. -/
structure Arena.Stacked (arena : Arena) (memory : Memory) : Prop where
  small : arena.segment.size ≤ maxSegmentSize
  allowed : ∀ sizeClass, arena.capacities.capacity sizeClass ≤ maxCapacity
  cursorAligned : arena.segment.cursor memory % headerAlignment = 0
  cursorAbove : arenaStart + headerAlignment * arena.descriptors.size ≤ arena.segment.cursor memory
  cursorBelow : arena.segment.cursor memory ≤ arena.segment.size
  aligned : ∀ {index descriptor}, arena.Has index descriptor →
    descriptor.position % headerAlignment = 0
  above : ∀ {index descriptor}, arena.Has index descriptor → arenaStart ≤ descriptor.position
  below : ∀ {index descriptor}, arena.Has index descriptor →
    descriptor.stop ≤ arena.segment.cursor memory
  apart : ∀ {index other descriptor next}, arena.Has index descriptor → arena.Has other next →
    index < other → descriptor.stop ≤ next.position
  capacity : ∀ {index descriptor}, arena.Has index descriptor →
    descriptor.capacity.toNat = arena.capacities.capacity descriptor.sizeClass

/-- An arena can carve on from the cursor of its segment, whatever lies before it. Its table has no
more slots than there is room for before the cursor. -/
structure Arena.Apt (arena : Arena) (memory : Memory) : Prop where
  small : arena.segment.size ≤ maxSegmentSize
  allowed : ∀ sizeClass, arena.capacities.capacity sizeClass ≤ maxCapacity
  above : arenaStart + headerAlignment * arena.descriptors.size ≤ arena.segment.cursor memory
  below : arena.segment.cursor memory ≤ arena.segment.size

/-- An arena fits its memory: its slots lie apart, and each is named by its header. -/
structure Arena.Carved (arena : Arena) (memory : Memory) : Prop extends
    Arena.Stacked arena memory where
  names : ∀ {index descriptor}, arena.Has index descriptor →
    memory.Names (arena.segment.placeAt descriptor.position) arena.rank (UInt32.ofNat index)
      descriptor.capacity

/-! ## Capacities -/

theorem foldlM_steps {step : Nat → UInt64 → Except Fault Nat} {Allowed : UInt64 → Prop}
    (steps : ∀ {largest capacity found}, step largest capacity = .ok found → Allowed capacity)
    {sizes : List UInt64} {largest found : Nat} (folded : sizes.foldlM step largest = .ok found) :
    ∀ capacity ∈ sizes, Allowed capacity := by
  induction sizes generalizing largest with
  | nil => exact fun _ inside => absurd inside List.not_mem_nil
  | cons first rest ih =>
      rw [List.foldlM_cons] at folded
      cases stepped : step largest first with
      | error fault => simp [stepped, bind, Except.bind] at folded
      | ok next =>
          simp only [stepped, bind, Except.bind] at folded
          intro capacity inside
          rcases List.mem_cons.mp inside with rfl | inside
          · exact steps stepped
          · exact ih folded capacity inside

theorem Capacities.le_maxCapacity {capacities : Capacities}
    (valid : capacities.validate = .ok ()) (sizeClass : SizeClass) :
    capacities.capacity sizeClass ≤ maxCapacity := by
  have small : ∀ {number size : Nat}, slotSize number = some size → number ≤ maxCapacity := by
    intro number size found
    rw [slotSize] at found
    split at found
    · cases found
    · next allowed => exact Nat.not_lt.mp allowed
  rw [Capacities.validate] at valid
  split at valid
  · cases valid
  · split at valid
    · cases valid
    · cases folded : capacities.largestSlot with
      | error fault => simp [folded, bind, Except.bind] at valid
      | ok largest =>
          have member : sizeClass ∈ SizeClass.all := SizeClass.mem_all sizeClass
          refine @foldlM_steps _ (fun capacity => capacity.toNat ≤ maxCapacity) ?_ _ _ _ folded _
            (List.mem_map.mpr ⟨sizeClass, member, rfl⟩)
          intro largest capacity found stepped
          split at stepped
          · next size fits => exact small fits
          · cases stepped

/-! ## The cursor -/

/-- Two mappings of one file. -/
structure Segment.SameFile (segment other : Segment) : Prop where
  region : segment.file.region = other.file.region
  size : segment.file.size = other.file.size

namespace Segment

theorem SameFile.refl (segment : Segment) : segment.SameFile segment := ⟨rfl, rfl⟩

theorem SameFile.cursor {segment other : Segment} (same : segment.SameFile other)
    (memory : Memory) : segment.cursor memory = other.cursor memory := by
  rw [Segment.cursor, Segment.place, same.region, Segment.cursor, Segment.place]

theorem cursor_write (segment : Segment) (memory : Memory) {position : Nat}
    (behind : arenaStart ≤ position) (data : List UInt8) :
    segment.cursor (memory.write (segment.placeAt position) data) = segment.cursor memory := by
  refine (memory.keeps_write (segment.placeAt position) data).load ?_
  simp only [Memory.apartFrom_cons, Memory.apartFrom_nil, and_true, Memory.Apart, placeAt, place,
    Place.shift, SegmentField.cursor]
  simp only [arenaStart] at behind
  omega

theorem cursor_store (segment : Segment) (memory : Memory) {stop : Nat} (small : stop < 2 ^ 64) :
    segment.cursor (memory.store SegmentField.cursor segment.place stop) = stop :=
  (Memory.load_store_same ..).trans (Nat.mod_eq_of_lt small)

end Segment

/-! ## Names -/

namespace Memory

variable {before after : Memory}

theorem Names.congr {place : Place} {rank slot capacity : UInt32} {count : Nat}
    (names : Names before place rank slot capacity) (long : 12 ≤ count)
    (same : after.read (place.shift 8) count = before.read (place.shift 8) count) :
    Names after place rank slot capacity := by
  have word : ∀ {field : Field}, 8 ≤ field.distance → field.distance + field.width ≤ 20 →
      after.load field place = before.load field place := by
    intro field above below
    have part := read_part same
      (show (field.distance - 8) + field.width ≤ count by omega)
    have here : (place.shift 8).shift (field.distance - 8) = place.shift field.distance := by
      simp only [Place.shift]
      congr 1
      omega
    rw [here] at part
    exact congrArg LittleEndian.value part
  exact
    { source := (word (by decide) (by decide)).trans names.source
      slot := (word (by decide) (by decide)).trans names.slot
      capacity := (word (by decide) (by decide)).trans names.capacity }

end Memory

namespace Arena

variable {arena : Arena} {memory after : Memory} {index other : Nat}
  {descriptor next : Descriptor}

theorem Apt.size_lt (apt : arena.Apt memory) : arena.descriptors.size < 2 ^ 32 := by
  have above := apt.above
  have below := apt.below
  have small := apt.small
  simp only [headerAlignment, maxSegmentSize] at above small
  omega

namespace Stacked

/-- Whoever has carved slots behind one another can carve on. -/
theorem apt (stacked : arena.Stacked memory) : arena.Apt memory :=
  ⟨stacked.small, stacked.allowed, stacked.cursorAbove, stacked.cursorBelow⟩

theorem size_lt (stacked : arena.Stacked memory) : arena.descriptors.size < 2 ^ 32 :=
  stacked.apt.size_lt

theorem within (stacked : arena.Stacked memory) (found : arena.Has index descriptor) :
    descriptor.stop ≤ arena.segment.size :=
  Nat.le_trans (stacked.below found) stacked.cursorBelow

theorem position_lt (stacked : arena.Stacked memory) (found : arena.Has index descriptor) :
    descriptor.position < arena.segment.size := by
  have within := stacked.within found
  simp only [Descriptor.stop, headerSize] at within
  omega

/-- Different slots begin at different positions. -/
theorem index_eq (stacked : arena.Stacked memory) (one : arena.Has index descriptor)
    (two : arena.Has other next) (same : descriptor.position = next.position) :
    index = other := by
  rcases Nat.lt_trichotomy index other with less | equal | more
  · have apart := stacked.apart one two less
    simp only [Descriptor.stop, headerSize] at apart
    omega
  · exact equal
  · have apart := stacked.apart two one more
    simp only [Descriptor.stop, headerSize] at apart
    omega

/-- The slots of an arena lie as they did if its cursor has not gone back. -/
theorem advance (stacked : arena.Stacked memory)
    (aligned : arena.segment.cursor after % headerAlignment = 0)
    (forward : arena.segment.cursor memory ≤ arena.segment.cursor after)
    (inside : arena.segment.cursor after ≤ arena.segment.size) : arena.Stacked after where
  small := stacked.small
  allowed := stacked.allowed
  cursorAligned := aligned
  cursorAbove := Nat.le_trans stacked.cursorAbove forward
  cursorBelow := inside
  aligned := stacked.aligned
  above := stacked.above
  below found := Nat.le_trans (stacked.below found) forward
  apart := stacked.apart
  capacity := stacked.capacity

theorem congr (stacked : arena.Stacked memory)
    (cursor : arena.segment.cursor after = arena.segment.cursor memory) : arena.Stacked after :=
  stacked.advance (cursor ▸ stacked.cursorAligned) (Nat.le_of_eq cursor.symm)
    (cursor ▸ stacked.cursorBelow)

end Stacked

/-- An arena fits every memory in which its cursor and the names of its slots are the same. -/
theorem Carved.congr (carved : arena.Carved memory)
    (cursor : arena.segment.cursor after = arena.segment.cursor memory)
    (names : ∀ {index descriptor}, arena.Has index descriptor →
      after.Names (arena.segment.placeAt descriptor.position) arena.rank (UInt32.ofNat index)
        descriptor.capacity) : arena.Carved after :=
  { carved.toStacked.congr cursor with names }

def handle (arena : Arena) (index : Nat) (descriptor : Descriptor) : Fragment :=
  { segment := arena.segment
    position := descriptor.position
    slot := UInt32.ofNat index
    sizeClass := descriptor.sizeClass
    capacity := descriptor.capacity.toNat }

/-! ## Carving -/

def nextDescriptor (arena : Arena) (sizeClass : SizeClass) (position : Nat) : Descriptor :=
  ⟨sizeClass, position, UInt32.ofNat (arena.capacities.capacity sizeClass)⟩

def extended (arena : Arena) (sizeClass : SizeClass) (position : Nat) : Arena :=
  { arena with descriptors := arena.descriptors.push (arena.nextDescriptor sizeClass position) }

def nextHeader (arena : Arena) (sizeClass : SizeClass) : Header :=
  Header.fresh arena.rank (UInt32.ofNat arena.descriptors.size) sizeClass
    (UInt32.ofNat (arena.capacities.capacity sizeClass))

theorem ofSegment_ok {segment : Segment} {capacities : Capacities} {rank : UInt32}
    {arena : Arena} (made : ofSegment segment capacities rank = .ok arena) :
    capacities.validate = .ok () ∧ arena = ⟨segment, capacities, rank, #[]⟩ := by
  rw [ofSegment] at made
  cases valid : capacities.validate with
  | error fault =>
      rw [valid] at made
      cases made
  | ok value =>
      rw [valid] at made
      exact ⟨rfl, (Except.ok.inj made).symm⟩

theorem slotSize_eq {capacity : Nat} (allowed : capacity ≤ maxCapacity) :
    ∃ size, slotSize capacity = some size ∧ size % headerAlignment = 0 ∧
      headerSize + capacity ≤ size := by
  refine ⟨alignUp headerAlignment (headerSize + capacity), ?_, ?_, ?_⟩
  · rw [slotSize, if_neg (by omega)]
  · simp [alignUp]
  · simp only [alignUp, headerAlignment]
    omega

theorem capacity_next {sizeClass : SizeClass}
    (allowed : arena.capacities.capacity sizeClass ≤ maxCapacity) (position : Nat) :
    (arena.nextDescriptor sizeClass position).capacity.toNat =
      arena.capacities.capacity sizeClass := by
  simp only [maxCapacity, headerSize] at allowed
  rw [nextDescriptor, UInt32.toNat_ofNat']
  omega

theorem has_extended {sizeClass : SizeClass} {position : Nat}
    (found : (arena.extended sizeClass position).Has index descriptor) :
    (arena.Has index descriptor ∧ index < arena.descriptors.size) ∨
      (index = arena.descriptors.size ∧ descriptor = arena.nextDescriptor sizeClass position) := by
  simp only [Has, extended, Array.getElem?_push] at found
  split at found
  · next last => exact .inr ⟨last, (Option.some.inj found).symm⟩
  · exact .inl ⟨found, (Array.getElem?_eq_some_iff.mp found).1⟩

theorem has_last (arena : Arena) (sizeClass : SizeClass) (position : Nat) :
    (arena.extended sizeClass position).Has arena.descriptors.size
      (arena.nextDescriptor sizeClass position) := by
  simp [Has, extended]

theorem Has.extended (found : arena.Has index descriptor) (sizeClass : SizeClass)
    (position : Nat) : (arena.extended sizeClass position).Has index descriptor := by
  have inside := (Array.getElem?_eq_some_iff.mp found).1
  simp only [Has, Arena.extended, Array.getElem?_push, if_neg (Nat.ne_of_lt inside)]
  exact found

/-- One more slot behind the others. -/
theorem Stacked.extended (stacked : arena.Stacked memory) {sizeClass : SizeClass} {size : Nat}
    (sized : slotSize (arena.capacities.capacity sizeClass) = some size)
    (fits : arena.segment.cursor memory + size ≤ arena.segment.size)
    (cursor : arena.segment.cursor after = arena.segment.cursor memory + size) :
    (arena.extended sizeClass (arena.segment.cursor memory)).Stacked after := by
  obtain ⟨_, sizedAgain, multiple, room⟩ := slotSize_eq (stacked.allowed sizeClass)
  obtain rfl := Option.some.inj (sized.symm.trans sizedAgain)
  have aligned := stacked.cursorAligned
  have above := stacked.cursorAbove
  have capacity := capacity_next (stacked.allowed sizeClass) (arena.segment.cursor memory)
  exact
    { small := stacked.small
      allowed := stacked.allowed
      cursorAligned := by
        show arena.segment.cursor after % headerAlignment = 0
        rw [cursor]
        simp only [headerAlignment] at aligned multiple ⊢
        omega
      cursorAbove := by
        show arenaStart + headerAlignment * (arena.descriptors.push _).size ≤
          arena.segment.cursor after
        rw [cursor, Array.size_push]
        simp only [headerAlignment, headerSize] at above multiple room ⊢
        omega
      cursorBelow := by
        show arena.segment.cursor after ≤ arena.segment.size
        rw [cursor]
        exact fits
      aligned := fun found => by
        rcases has_extended found with ⟨found, _⟩ | ⟨_, rfl⟩
        · exact stacked.aligned found
        · exact aligned
      above := fun found => by
        rcases has_extended found with ⟨found, _⟩ | ⟨_, rfl⟩
        · exact stacked.above found
        · exact Nat.le_trans (Nat.le_add_right ..) above
      below := fun found => by
        show Descriptor.stop _ ≤ arena.segment.cursor after
        rw [cursor]
        rcases has_extended found with ⟨found, _⟩ | ⟨_, rfl⟩
        · exact Nat.le_trans (stacked.below found) (Nat.le_add_right ..)
        · simp only [Descriptor.stop, capacity]
          simp only [nextDescriptor]
          omega
      apart := fun one two less => by
        -- The new slot has the last index, so it is never the first of two.
        rcases has_extended one with ⟨one, _⟩ | ⟨rfl, rfl⟩ <;>
          rcases has_extended two with ⟨two, inside⟩ | ⟨rfl, rfl⟩
        · exact stacked.apart one two less
        · exact stacked.below one
        · omega
        · omega
      capacity := fun found => by
        rcases has_extended found with ⟨found, _⟩ | ⟨_, rfl⟩
        · exact stacked.capacity found
        · exact capacity }

theorem Carved.names_extended (carved : arena.Carved memory) {sizeClass : SizeClass}
    (keeps : memory.Keeps [(arena.segment.place.shift 32, 8),
      (arena.segment.placeAt (arena.segment.cursor memory), headerSize)] after)
    (names : after.Names (arena.segment.placeAt (arena.segment.cursor memory)) arena.rank
      (UInt32.ofNat arena.descriptors.size) (UInt32.ofNat (arena.capacities.capacity sizeClass)))
    (found : (arena.extended sizeClass (arena.segment.cursor memory)).Has index descriptor) :
    after.Names (arena.segment.placeAt descriptor.position) arena.rank (UInt32.ofNat index)
      descriptor.capacity := by
  rcases has_extended found with ⟨found, _⟩ | ⟨rfl, rfl⟩
  · have start := carved.above found
    have stop := carved.below found
    simp only [arenaStart] at start
    simp only [Descriptor.stop, headerSize] at stop
    refine (carved.names found).congr (Nat.le_refl 12) (keeps.read ?_)
    simp only [Memory.apartFrom_cons, Memory.apartFrom_nil, and_true, Memory.Apart,
      Segment.placeAt, Segment.place, Place.shift]
    constructor
    · intro _
      omega
    · intro _
      omega
  · exact names

/-- In the range that has been claimed for a slot its header is written, and it becomes the last
slot. -/
theorem carveAt_eq {sizeClass : SizeClass}
    (allowed : arena.capacities.capacity sizeClass ≤ maxCapacity)
    (few : arena.descriptors.size < 2 ^ 32) (position : Nat) (memory : Memory)
    (notices : List Notice) :
    carveAt sizeClass position ⟨arena, memory, notices⟩ =
      .done (arena.handle arena.descriptors.size (arena.nextDescriptor sizeClass position))
        ⟨arena.extended sizeClass position, memory.writeHeader (arena.segment.placeAt position)
          (arena.nextHeader sizeClass), notices⟩ := by
  have same : (arena.nextDescriptor sizeClass position).capacity.toNat =
      arena.capacities.capacity sizeClass := capacity_next allowed position
  rw [carveAt, Action.bind_done (Scene.self_apply _)]
  simp only [if_neg (Nat.not_le.mpr few), handle, same]
  rfl

/-- If there is room for a slot of a class, it is carved at the cursor, which moves behind it. -/
theorem Apt.carve_of_fits {scene : Scene Arena} (apt : scene.actor.Apt scene.memory)
    {sizeClass : SizeClass} {size : Nat}
    (sized : slotSize (scene.actor.capacities.capacity sizeClass) = some size)
    (fits : scene.actor.segment.cursor scene.memory + size ≤ scene.actor.segment.size) :
    let position := scene.actor.segment.cursor scene.memory
    carve sizeClass scene =
      .done (scene.actor.handle scene.actor.descriptors.size
          (scene.actor.nextDescriptor sizeClass position))
        ⟨scene.actor.extended sizeClass position,
          (scene.memory.store SegmentField.cursor scene.actor.segment.place
            (position + size)).writeHeader (scene.actor.segment.placeAt position)
              (scene.actor.nextHeader sizeClass), scene.notices⟩ := by
  obtain ⟨arena, memory, notices⟩ := scene
  have small := apt.small
  simp only [maxSegmentSize] at small fits
  have reserved := @Segment.reserve_fits arena.segment memory size ⟨by omega, fits⟩
  have claimed : Scene.inMemory (arena.segment.reserve size) ⟨arena, memory, notices⟩ =
      .done (some (arena.segment.cursor memory)) ⟨arena, memory.store SegmentField.cursor
        arena.segment.place (arena.segment.cursor memory + size), notices⟩ := by
    rw [Scene.inMemory_apply, reserved]
    rfl
  rw [carve, Action.bind_done (Scene.self_apply _)]
  simp only [sized]
  rw [Action.bind_done claimed]
  exact carveAt_eq (apt.allowed sizeClass) apt.size_lt _ _ _

theorem carve_of_full {scene : Scene Arena} {sizeClass : SizeClass} {size : Nat}
    (sized : slotSize (scene.actor.capacities.capacity sizeClass) = some size)
    (full : scene.actor.segment.size < scene.actor.segment.cursor scene.memory + size) :
    carve sizeClass scene = .failed (.exhausted sizeClass) { scene with
      notices := scene.notices ++ [.exhausted scene.actor.segment.rank sizeClass
        (scene.actor.segment.remaining scene.memory)] } := by
  obtain ⟨arena, memory, notices⟩ := scene
  have refused : Scene.inMemory (arena.segment.reserve size) ⟨arena, memory, notices⟩ =
      .done none ⟨arena, memory, notices⟩ := by
    rw [Scene.inMemory_apply, Segment.reserve_refused fun both => Nat.not_le.mpr full both.2]
    rfl
  rw [carve, Action.bind_done (Scene.self_apply _)]
  simp only [sized]
  rw [Action.bind_done refused]
  rfl

theorem Apt.carve_done_iff {scene : Scene Arena} (apt : scene.actor.Apt scene.memory)
    {sizeClass : SizeClass} {size : Nat}
    (sized : slotSize (scene.actor.capacities.capacity sizeClass) = some size) :
    (∃ fragment after, carve sizeClass scene = .done fragment after) ↔
      scene.actor.segment.cursor scene.memory + size ≤ scene.actor.segment.size := by
  by_cases fits : scene.actor.segment.cursor scene.memory + size ≤ scene.actor.segment.size
  · exact iff_of_true ⟨_, _, apt.carve_of_fits sized fits⟩ fits
  · rw [carve_of_full sized (Nat.not_le.mp fits)]
    refine iff_of_false ?_ fits
    rintro ⟨fragment, after, same⟩
    cases same

/-- Carving takes a slot from the cursor on, or fails because there is no room and changes
nothing. -/
theorem Stacked.carve_meets {scene : Scene Arena} (stacked : scene.actor.Stacked scene.memory)
    (sizeClass : SizeClass) :
    (carve sizeClass scene).Meets False fun result after =>
      match result with
      | .ok fragment =>
          let position := scene.actor.segment.cursor scene.memory
          fragment = scene.actor.handle scene.actor.descriptors.size
              (scene.actor.nextDescriptor sizeClass position) ∧
            after.actor = scene.actor.extended sizeClass position ∧
            after.actor.Stacked after.memory ∧
            after.memory.Names (scene.actor.segment.placeAt position) scene.actor.rank
              (UInt32.ofNat scene.actor.descriptors.size)
              (UInt32.ofNat (scene.actor.capacities.capacity sizeClass)) ∧
            scene.memory.Keeps [(scene.actor.segment.place.shift 32, 8),
              (scene.actor.segment.placeAt position, headerSize)] after.memory
      | .error fault => fault = .exhausted sizeClass ∧ after.actor = scene.actor ∧
          after.memory = scene.memory := by
  obtain ⟨size, sized, _⟩ := slotSize_eq (stacked.allowed sizeClass)
  by_cases fits : scene.actor.segment.cursor scene.memory + size ≤ scene.actor.segment.size
  · obtain ⟨arena, memory, notices⟩ := scene
    have small := stacked.small
    simp only [maxSegmentSize] at small fits
    rw [stacked.apt.carve_of_fits sized fits]
    have above : arenaStart ≤ arena.segment.cursor memory :=
      Nat.le_trans (Nat.le_add_right ..) stacked.cursorAbove
    have cursor : arena.segment.cursor ((memory.store SegmentField.cursor arena.segment.place
        (arena.segment.cursor memory + size)).writeHeader
          (arena.segment.placeAt (arena.segment.cursor memory)) (arena.nextHeader sizeClass)) =
        arena.segment.cursor memory + size :=
      (arena.segment.cursor_write _ above _).trans (arena.segment.cursor_store memory (by omega))
    have keeps := (memory.keeps_store SegmentField.cursor arena.segment.place
      (arena.segment.cursor memory + size)).trans (Memory.keeps_writeHeader _
        (arena.segment.placeAt (arena.segment.cursor memory)) (arena.nextHeader sizeClass))
    exact ⟨rfl, rfl, stacked.extended sized fits cursor, Memory.names_writeHeader .., keeps⟩
  · rw [carve_of_full sized (Nat.not_le.mp fits)]
    exact ⟨rfl, rfl, rfl⟩

/-- Carving leaves an arena that fits its memory with one that does. -/
theorem carve_meets {scene : Scene Arena} (carved : scene.actor.Carved scene.memory)
    (sizeClass : SizeClass) :
    (carve sizeClass scene).Meets False fun result after =>
      match result with
      | .ok fragment =>
          let position := scene.actor.segment.cursor scene.memory
          fragment = scene.actor.handle scene.actor.descriptors.size
              (scene.actor.nextDescriptor sizeClass position) ∧
            after.actor = scene.actor.extended sizeClass position ∧
            after.actor.Carved after.memory ∧
            scene.memory.Keeps [(scene.actor.segment.place.shift 32, 8),
              (scene.actor.segment.placeAt position, headerSize)] after.memory
      | .error fault => fault = .exhausted sizeClass ∧ after.actor = scene.actor ∧
          after.memory = scene.memory := by
  refine (carved.toStacked.carve_meets sizeClass).mono ?_
  rintro (fault | fragment) ⟨arena, memory, notices⟩
  · exact id
  · rintro ⟨handle, rfl, stacked, names, keeps⟩
    refine ⟨handle, rfl, { stacked with names := ?_ }, keeps⟩
    exact carved.names_extended keeps names

end Arena

/-! ## Filling a slot -/

namespace Fragment

def lengthPlace (fragment : Fragment) : Place := fragment.place.shift HeaderField.length.distance

/-- Whoever overwrites a part of the payload writes into the payload only. -/
theorem edit_meets (fragment : Fragment) (start : Nat) (data : List UInt8) (memory : Memory) :
    (fragment.edit start data memory).Meets False fun result after =>
      result = .ok () ∧ memory.Keeps [(fragment.payloadPlace, fragment.capacity)] after := by
  refine Outcome.meets_done.mpr ⟨rfl, ?_⟩
  by_cases inside : start ≤ fragment.capacity
  · refine (memory.keeps_write (fragment.payloadPlace.shift start) _).widen
      fun {place count} positive apart range member => ?_
    rw [List.mem_singleton.mp member]
    simp only [Memory.apartFrom_cons, Memory.apartFrom_nil, and_true, Memory.Apart, Place.shift,
      List.length_take] at apart ⊢
    omega
  · rw [Nat.sub_eq_zero_of_le (Nat.le_of_not_le inside), List.take_zero]
    exact (memory.keeps_write_nil _).mono (List.nil_subset _)

theorem setLength_meets (fragment : Fragment) (length : Nat) (memory : Memory) :
    (fragment.setLength length memory).Meets False fun _ after =>
      memory.Keeps [(fragment.lengthPlace, 4)] after := by
  rw [setLength]
  split
  · exact .refl ..
  · exact memory.keeps_store HeaderField.length fragment.place length

theorem write_eq {fragment : Fragment} {data : List UInt8}
    (fits : data.length ≤ fragment.capacity) (memory : Memory) :
    fragment.write data memory = .done () ((memory.write fragment.payloadPlace data).store
      HeaderField.length fragment.place data.length) := by
  have allowed : ¬fragment.capacity < data.length := by omega
  rw [write, if_neg allowed, Action.bind_done (Action.modify_apply _ _), setLength, if_neg allowed]
  rfl

theorem load_length_write {fragment : Fragment} {data : List UInt8}
    (fits : data.length ≤ fragment.capacity) (small : fragment.capacity < 2 ^ 32)
    (memory : Memory) :
    ((memory.write fragment.payloadPlace data).store HeaderField.length fragment.place
      data.length).load HeaderField.length fragment.place = data.length := by
  rw [Memory.load_store_same, show HeaderField.length.width = 4 from rfl]
  exact Nat.mod_eq_of_lt (by omega)

theorem payload_write {fragment : Fragment} {data : List UInt8}
    (fits : data.length ≤ fragment.capacity) (small : fragment.capacity < 2 ^ 32)
    (memory : Memory) :
    fragment.payload ((memory.write fragment.payloadPlace data).store HeaderField.length
      fragment.place data.length) = data := by
  rw [payload, length, load_length_write fits small, Nat.min_eq_left fits,
    (Memory.keeps_store _ HeaderField.length fragment.place data.length).read ?_]
  · exact Memory.read_write_same ..
  · simp only [Memory.apartFrom_cons, Memory.apartFrom_nil, and_true, Memory.Apart, payloadPlace,
      Place.shift, HeaderField.length, headerSize]
    omega

/-- Whoever fills the payload writes into the payload and sets its length. -/
theorem write_meets (fragment : Fragment) (data : List UInt8) (memory : Memory) :
    (fragment.write data memory).Meets False fun _ after =>
      memory.Keeps [(fragment.payloadPlace, fragment.capacity), (fragment.lengthPlace, 4)]
        after := by
  by_cases fits : data.length ≤ fragment.capacity
  · have filled : memory.Keeps [(fragment.payloadPlace, fragment.capacity)]
        (memory.write fragment.payloadPlace data) := by
      refine (memory.keeps_write fragment.payloadPlace data).widen
        fun {place count} positive apart range member => ?_
      rw [List.mem_singleton.mp member]
      simp only [Memory.apartFrom_cons, Memory.apartFrom_nil, and_true, Memory.Apart] at apart ⊢
      omega
    rw [write_eq fits]
    exact filled.trans (Memory.keeps_store _ HeaderField.length fragment.place data.length)
  · rw [write, if_pos (Nat.not_le.mp fits)]
    exact .refl ..

end Fragment

/-! ## Unused slots -/

theorem Segment.inside_addressAt {segment : Segment} {position : Nat}
    (inside : position < segment.size) :
    segment.addressAt position - segment.file.base = position ∧
      ¬(segment.addressAt position < segment.file.base ∨ segment.size ≤ position) := by
  simp only [addressAt]
  omega

namespace Pool

variable {pool : Pool} {memory : Memory} {notices : List Notice} {index : Nat}
  {descriptor : Descriptor}

def pushed (pool : Pool) (sizeClass : SizeClass) (fragment : Fragment) : Pool :=
  { pool with free := pool.free.set sizeClass (fragment :: pool.free.get sizeClass) }

theorem push_eq (sizeClass : SizeClass) (fragment : Fragment) (scene : Scene Pool) :
    push sizeClass fragment scene =
      .done () { scene with actor := scene.actor.pushed sizeClass fragment } := rfl

theorem compare_eq (place : Place) (slot : UInt32) (descriptor : Descriptor)
    (scene : Scene Pool) :
    ∃ notices, compare place slot descriptor scene = .done () { scene with notices } := by
  simp only [compare, Action.bind_apply, Action.look_apply]
  split
  · exact ⟨_, rfl⟩
  · exact ⟨scene.notices, rfl⟩

/-- A slot that comes back with a header that names it gets the header with which it was carved, and
is unused. -/
theorem recycle_named (stacked : pool.arena.Stacked memory) (has : pool.arena.Has index descriptor)
    (named : memory.load HeaderField.slot
      (pool.arena.segment.placeAt descriptor.position) = index) :
    ∃ noticed, recycle (pool.arena.segment.addressAt descriptor.position)
        ⟨pool, memory, notices⟩ =
      .done () ⟨pool.pushed descriptor.sizeClass (pool.arena.handle index descriptor),
        memory.writeHeader (pool.arena.segment.placeAt descriptor.position)
          (.fresh pool.arena.rank (UInt32.ofNat index) descriptor.sizeClass descriptor.capacity),
        noticed⟩ := by
  have inside := (Array.getElem?_eq_some_iff.mp has).1
  have small := stacked.size_lt
  obtain ⟨position, placed⟩ := Segment.inside_addressAt (stacked.position_lt has)
  have known : pool.arena.descriptor? (UInt32.ofNat index) = some descriptor := by
    rw [Arena.descriptor?, UInt32.toNat_ofNat_of_lt' (Nat.lt_trans inside small)]
    exact has
  obtain ⟨noticed, compared⟩ := compare_eq (pool.arena.segment.placeAt descriptor.position)
    (UInt32.ofNat index) descriptor ⟨pool, memory, notices⟩
  refine ⟨noticed, ?_⟩
  rw [recycle, Action.bind_done (Scene.self_apply _)]
  simp only [position, if_neg placed]
  rw [Action.bind_done (Action.look_apply _ _)]
  simp only [named, known, ne_eq, not_true_eq_false, if_false]
  rw [Action.bind_done compared]
  rfl

/-- A pool aborts when a slot comes back with a header that does not name it. -/
theorem recycle_unnamed (stacked : pool.arena.Stacked memory)
    (has : pool.arena.Has index descriptor)
    (unnamed : memory.load HeaderField.slot
      (pool.arena.segment.placeAt descriptor.position) ≠ index) :
    recycle (pool.arena.segment.addressAt descriptor.position) ⟨pool, memory, notices⟩ =
      .aborted (.notCarved descriptor.position (UInt32.ofNat (memory.load HeaderField.slot
        (pool.arena.segment.placeAt descriptor.position)))) := by
  obtain ⟨position, placed⟩ := Segment.inside_addressAt (stacked.position_lt has)
  rw [recycle, Action.bind_done (Scene.self_apply _)]
  simp only [position, if_neg placed]
  rw [Action.bind_done (Action.look_apply _ _)]
  cases known : pool.arena.descriptor? (UInt32.ofNat (memory.load HeaderField.slot
      (pool.arena.segment.placeAt descriptor.position))) with
  | none => rfl
  | some other =>
      -- Some other slot has the index that was read, and it lies elsewhere.
      have differs : other.position ≠ descriptor.position := by
        intro same
        apply unnamed
        rw [← stacked.index_eq known has same]
        exact (UInt32.toNat_ofNat_of_lt' (memory.load_lt HeaderField.slot _)).symm
      simp only [if_pos differs, Action.abort_apply]

/-- A slot of an arena that fits its memory comes back. -/
theorem recycle_eq (carved : pool.arena.Carved memory) (has : pool.arena.Has index descriptor) :
    ∃ noticed, recycle (pool.arena.segment.addressAt descriptor.position)
        ⟨pool, memory, notices⟩ =
      .done () ⟨pool.pushed descriptor.sizeClass (pool.arena.handle index descriptor),
        memory.writeHeader (pool.arena.segment.placeAt descriptor.position)
          (.fresh pool.arena.rank (UInt32.ofNat index) descriptor.sizeClass descriptor.capacity),
        noticed⟩ := by
  have inside := (Array.getElem?_eq_some_iff.mp has).1
  have small := carved.size_lt
  refine recycle_named carved.toStacked has ?_
  exact (carved.names has).slot.trans (UInt32.toNat_ofNat_of_lt' (Nat.lt_trans inside small))

end Pool

end RankMail

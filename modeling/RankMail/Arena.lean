import RankMail.Config.Basic
import RankMail.Fragment
import RankMail.Scene

set_option autoImplicit false

/-! # Arenas

An `Arena` carves slots from what is left of a segment, each behind the one before, and keeps a
descriptor of every slot that it has carved. The headers in shared memory can be overwritten by
anybody; the descriptors cannot, and they decide what a slot is.
-/

namespace RankMail

/-- What is known of a carved slot. -/
structure Descriptor where
  sizeClass : SizeClass
  /-- Where the header begins. -/
  position : Nat
  capacity : UInt32
deriving Repr, DecidableEq

/-- Who carves slots from a segment. -/
structure Arena where
  segment : Segment
  capacities : Capacities
  /-- The rank that new headers name. -/
  rank : UInt32
  /-- The carved slots, by their index. -/
  descriptors : Array Descriptor
deriving Repr, DecidableEq

namespace Arena

/-- An arena that has carved nothing yet. -/
def ofSegment (segment : Segment) (capacities : Capacities) (rank : UInt32) :
    Except Fault Arena := do
  capacities.validate
  .ok { segment, capacities, rank, descriptors := #[] }

def descriptor? (arena : Arena) (slot : UInt32) : Option Descriptor :=
  arena.descriptors[slot.toNat]?

/-- How many more slots of a class the rest of the segment can hold. -/
def available (arena : Arena) (memory : Memory) (sizeClass : SizeClass) : Nat :=
  match slotSize (arena.capacities.capacity sizeClass) with
  | some size => arena.segment.remaining memory / size
  | none => 0

/-- Carves a slot at a position that has been claimed for it. -/
def carveAt (sizeClass : SizeClass) (position : Nat) : Action (Scene Arena) Fragment := do
  let arena ← Scene.self
  let capacity := arena.capacities.capacity sizeClass
  if 2 ^ 32 ≤ arena.descriptors.size then .fail (.refused .slotTableFull)
  else
    let slot := UInt32.ofNat arena.descriptors.size
    let header := Header.fresh arena.rank slot sizeClass (UInt32.ofNat capacity)
    Scene.inMemory (.modify fun memory =>
      memory.writeHeader (arena.segment.placeAt position) header)
    Scene.become { arena with
      descriptors := arena.descriptors.push ⟨sizeClass, position, UInt32.ofNat capacity⟩ }
    pure { segment := arena.segment, position, slot, sizeClass, capacity }

def carve (sizeClass : SizeClass) : Action (Scene Arena) Fragment := do
  let arena ← Scene.self
  match slotSize (arena.capacities.capacity sizeClass) with
  | none => .fail (.config .capacityTooLarge)
  | some size => do
      match ← Scene.inMemory (arena.segment.reserve size) with
      | some position => carveAt sizeClass position
      | none => do
          let left ← .look fun scene => arena.segment.remaining scene.memory
          Scene.notify (.exhausted arena.segment.rank sizeClass left)
          .fail (.exhausted sizeClass)

end Arena

end RankMail

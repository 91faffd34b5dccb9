import RankMail.AddressMap

set_option autoImplicit false

/-! # Segments

A `Segment` is one process's mapping of the file in which a rank has its control words and its
arena. Two mappings of the same file share the region, and are told apart by their base address,
which no other mapping ever gets.
-/

namespace RankMail

/-- A file mapped into a process. -/
structure MappedFile where
  path : String
  region : Nat
  /-- The address at which the bytes appear to the process. -/
  base : Nat
  /-- The length of the file when it was mapped. -/
  size : Nat
deriving Repr, DecidableEq

/-- A mapping of the file of a rank. -/
structure Segment where
  file : MappedFile
  rank : UInt32
  /-- Whether the file is removed when the mapping is closed; so only for who created it. -/
  removesFile : Bool
deriving Repr, DecidableEq

namespace Segment

def fileName (rank : UInt32) : String := Text.padded 6 rank.toNat ++ ".seg"

def place (segment : Segment) : Place := ⟨segment.file.region, 0⟩

def placeAt (segment : Segment) (position : Nat) : Place := ⟨segment.file.region, position⟩

def addressAt (segment : Segment) (position : Nat) : Nat := segment.file.base + position

def size (segment : Segment) : Nat := segment.file.size

/-- How an address map records the segment. -/
def mapping (segment : Segment) : Mapping :=
  ⟨segment.file.base, segment.file.size, segment.file.region⟩

def queueBlock (segment : Segment) : Place := segment.placeAt queueStart

def doorbellBlock (segment : Segment) : Place := segment.placeAt doorbellStart

/-- The first byte of the arena that has not been claimed. -/
def cursor (segment : Segment) (memory : Memory) : Nat :=
  memory.load SegmentField.cursor segment.place

/-- The bytes of the arena that have not been claimed. -/
def remaining (segment : Segment) (memory : Memory) : Nat :=
  segment.size - segment.cursor memory

/-- Claims a range of the arena and returns its beginning. If the range does not fit, or would
end beyond 64 bits, nothing changes. -/
def reserve (segment : Segment) (length : Nat) : Action Memory (Option Nat) := fun memory =>
  let start := segment.cursor memory
  if start + length < 2 ^ 64 ∧ start + length ≤ segment.size then
    .done (some start) (memory.store SegmentField.cursor segment.place (start + length))
  else .done none memory

/-- A range that fits is granted from the cursor on, and only the cursor moves. -/
theorem reserve_fits {segment : Segment} {memory : Memory} {length : Nat}
    (fits : segment.cursor memory + length < 2 ^ 64 ∧
      segment.cursor memory + length ≤ segment.size) :
    segment.reserve length memory =
      .done (some (segment.cursor memory))
        (memory.store SegmentField.cursor segment.place (segment.cursor memory + length)) :=
  if_pos fits

theorem reserve_refused {segment : Segment} {memory : Memory} {length : Nat}
    (short : ¬(segment.cursor memory + length < 2 ^ 64 ∧
      segment.cursor memory + length ≤ segment.size)) :
    segment.reserve length memory = .done none memory :=
  if_neg short

/-- The process that created the segment. -/
def owner (segment : Segment) (memory : Memory) : UInt32 :=
  UInt32.ofNat (memory.load SegmentField.owner segment.place)

end Segment

end RankMail

import RankMail.Layout
import RankMail.Outcome

set_option autoImplicit false

/-! # Fragment headers

Before the payload of each fragment stands its header. The rank, slot, capacity and class in it
are written once, when the slot is carved; the link to the next fragment of a queue, the length of
the payload and the flags change as the fragment travels. All of it lies in memory that every
process may write, so a header is only ever a claim.
-/

namespace RankMail

structure Header where
  /-- The next fragment of the queue. -/
  next : Offset
  /-- The rank that filled the fragment. -/
  source : UInt32
  /-- The index under which the owner of the arena knows the slot. -/
  slot : UInt32
  capacity : UInt32
  length : UInt32
  flags : UInt16
  /-- The number of the size class. -/
  classIndex : UInt8
deriving Repr, DecidableEq

/-- The flag of a fragment that is on its way back to the rank that owns its slot. -/
def returnedFlag : UInt16 := 0x8000

namespace Header

/-- The header of a slot that has just been carved. -/
def fresh (source slot : UInt32) (sizeClass : SizeClass) (capacity : UInt32) : Header :=
  { next := .free
    source
    slot
    capacity
    length := 0
    flags := 0
    classIndex := UInt8.ofNat sizeClass.index }

def bytes (header : Header) : List UInt8 :=
  LittleEndian.bytes 8 header.next.word ++ LittleEndian.bytes 4 header.source.toNat
    ++ LittleEndian.bytes 4 header.slot.toNat ++ LittleEndian.bytes 4 header.capacity.toNat
    ++ LittleEndian.bytes 4 header.length.toNat ++ LittleEndian.bytes 2 header.flags.toNat
    ++ header.classIndex :: List.replicate 37 0

def read (memory : Memory) (place : Place) : Header :=
  { next := Offset.ofWord (memory.load HeaderField.next place)
    source := UInt32.ofNat (memory.load HeaderField.source place)
    slot := UInt32.ofNat (memory.load HeaderField.slot place)
    capacity := UInt32.ofNat (memory.load HeaderField.capacity place)
    length := UInt32.ofNat (memory.load HeaderField.length place)
    flags := UInt16.ofNat (memory.load HeaderField.flags place)
    classIndex := UInt8.ofNat (memory.load HeaderField.sizeClass place) }

def sizeClass? (header : Header) : Option SizeClass := SizeClass.ofIndex? header.classIndex.toNat

@[simp] theorem length_bytes (header : Header) : header.bytes.length = headerSize := by
  simp [bytes, headerSize]

end Header

namespace Memory

/-- Writes a header; the payload stays. -/
def writeHeader (memory : Memory) (place : Place) (header : Header) : Memory :=
  memory.write place header.bytes

/-- Whether the header at a place belongs to a fragment on its way back. -/
def isReturnedAt (memory : Memory) (place : Place) : Bool :=
  UInt16.ofNat (memory.load HeaderField.flags place) &&& returnedFlag != 0

/-- How much of the payload the header at a place claims, up to its own capacity. -/
def claimedLength (memory : Memory) (place : Place) : Nat :=
  min (memory.load HeaderField.length place) (memory.load HeaderField.capacity place)

def claimedPayload (memory : Memory) (place : Place) : List UInt8 :=
  memory.read (place.shift headerSize) (memory.claimedLength place)

end Memory

end RankMail

import RankMail.Memory.Basic

set_option autoImplicit false

/-! # Where things lie

A segment begins with 384 bytes of control words, followed by the arena:

       0   header     magic, version, state, rank, size, arena start, arena cursor, owner
     128   queue      head and tail of the inbound queue
     256   doorbell   count of rings, count of waiters
     384   arena      fragments, each a header and its payload

A `Field` is a word at a fixed distance from the beginning of such a block. `Memory.load` and
`Memory.store` go through fields, and two fields that share no byte do not affect each other
(`load_store_apart`).
-/

namespace RankMail

/-- A word of `width` bytes, `distance` bytes from the beginning of a block. -/
structure Field where
  distance : Nat
  width : Nat
deriving Repr, DecidableEq

namespace Memory

/-- The number in a field of the block that begins at a place. -/
def load (memory : Memory) (field : Field) (block : Place) : Nat :=
  memory.word field.width (block.shift field.distance)

def store (memory : Memory) (field : Field) (block : Place) (number : Nat) : Memory :=
  memory.setWord field.width (block.shift field.distance) number

theorem load_store_same (memory : Memory) (field : Field) (block : Place) (number : Nat) :
    (memory.store field block number).load field block = number % 256 ^ field.width :=
  word_setWord_same ..

theorem load_store_apart {field other : Field} {block place : Place}
    (apart : Apart (place.shift other.distance) other.width (block.shift field.distance)
      field.width) (memory : Memory) (number : Nat) :
    (memory.store field block number).load other place = memory.load other place :=
  word_setWord_apart apart memory number

theorem load_lt (memory : Memory) (field : Field) (block : Place) :
    memory.load field block < 256 ^ field.width :=
  word_lt ..

end Memory

/-! ## The segment -/

def queueStart : Nat := 128

def doorbellStart : Nat := 256

def arenaStart : Nat := 384

def maxSegmentSize : Nat := 2 ^ 32 - 1

/-- The mark at the beginning of every segment. -/
def segmentMagic : Nat := 0x43525352

/-- The layout that this library writes and understands. -/
def segmentVersion : Nat := 1

/-- The state of a segment whose header is being written. -/
def stateWriting : Nat := 1

def stateReady : Nat := 2

namespace SegmentField

def magic : Field := ⟨0, 4⟩
def version : Field := ⟨4, 4⟩
def state : Field := ⟨8, 4⟩
def rank : Field := ⟨12, 4⟩
def size : Field := ⟨16, 8⟩
def dataStart : Field := ⟨24, 8⟩
def cursor : Field := ⟨32, 8⟩
def owner : Field := ⟨40, 4⟩
def head : Field := ⟨128, 8⟩
def tail : Field := ⟨136, 8⟩
def rings : Field := ⟨256, 4⟩
def waiters : Field := ⟨260, 4⟩

end SegmentField

/-! ## The blocks within -/

namespace QueueField

def head : Field := ⟨0, 8⟩
def tail : Field := ⟨8, 8⟩

end QueueField

namespace DoorbellField

def rings : Field := ⟨0, 4⟩
def waiters : Field := ⟨4, 4⟩

end DoorbellField

namespace HeaderField

def next : Field := ⟨0, 8⟩
def source : Field := ⟨8, 4⟩
def slot : Field := ⟨12, 4⟩
def capacity : Field := ⟨16, 4⟩
def length : Field := ⟨20, 4⟩
def flags : Field := ⟨24, 2⟩
def sizeClass : Field := ⟨26, 1⟩

end HeaderField

end RankMail

import RankMail.Header
import RankMail.Segment.Basic

set_option autoImplicit false

/-! # Messages

A `Message` is a fragment that has been taken from a queue. Every word of its header may have been
written by somebody else, so the payload ends at the latest with the segment.
-/

namespace RankMail

/-- A fragment taken from a queue. -/
structure Message where
  /-- The segment that holds the fragment. -/
  segment : Segment
  offset : Offset
deriving Repr, DecidableEq

namespace Message

def position (message : Message) : Nat := message.offset.position.toNat

def place (message : Message) : Place := message.segment.placeAt message.position

def address (message : Message) : Nat := message.segment.addressAt message.position

def flags (message : Message) (memory : Memory) : UInt16 :=
  UInt16.ofNat (memory.load HeaderField.flags message.place)

/-- The rank whose segment holds the fragment. -/
def owner (message : Message) : UInt32 := message.offset.rank

/-- The rank that filled the fragment. -/
def source (message : Message) (memory : Memory) : UInt32 :=
  UInt32.ofNat (memory.load HeaderField.source message.place)

def length (message : Message) (memory : Memory) : Nat :=
  min (memory.claimedLength message.place)
    (message.segment.size - (message.position + headerSize))

def payload (message : Message) (memory : Memory) : List UInt8 :=
  memory.read (message.place.shift headerSize) (message.length memory)

def inspect (message : Message) (memory : Memory) : String :=
  "Received \x7b offset: " ++ message.offset.describe ++ ", len: "
    ++ toString (message.length memory) ++ " \x7d"

end Message

end RankMail

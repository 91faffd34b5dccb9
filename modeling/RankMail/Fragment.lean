import RankMail.Header
import RankMail.Segment.Basic

set_option autoImplicit false

/-! # Fragments

A `Fragment` is the handle of a slot that has been carved from the arena of a segment: whoever
holds it may fill the payload. The handle remembers where the slot lies, its class and its
capacity, so nothing but the length of the payload is believed to the header, and that only as far
as the capacity.
-/

namespace RankMail

/-- The handle of a carved slot. -/
structure Fragment where
  segment : Segment
  /-- Where the header begins. -/
  position : Nat
  slot : UInt32
  sizeClass : SizeClass
  capacity : Nat
deriving Repr, DecidableEq

namespace Fragment

def place (fragment : Fragment) : Place := fragment.segment.placeAt fragment.position

def payloadPlace (fragment : Fragment) : Place := fragment.place.shift headerSize

def address (fragment : Fragment) : Nat := fragment.segment.addressAt fragment.position

def header (fragment : Fragment) (memory : Memory) : Header := Header.read memory fragment.place

def length (fragment : Fragment) (memory : Memory) : Nat :=
  min (memory.load HeaderField.length fragment.place) fragment.capacity

def payload (fragment : Fragment) (memory : Memory) : List UInt8 :=
  memory.read fragment.payloadPlace (fragment.length memory)

def setLength (fragment : Fragment) (length : Nat) : Action Memory Unit :=
  if fragment.capacity < length then .fail (.oversize length fragment.capacity)
  else .modify fun memory => memory.store HeaderField.length fragment.place length

def write (fragment : Fragment) (data : List UInt8) : Action Memory Unit :=
  if fragment.capacity < data.length then .fail (.oversize data.length fragment.capacity)
  else do
    .modify fun memory => memory.write fragment.payloadPlace data
    fragment.setLength data.length

/-- Overwrites a part of the payload, whatever its length; what lies beyond the capacity is left
out. -/
def edit (fragment : Fragment) (start : Nat) (data : List UInt8) : Action Memory Unit :=
  .modify fun memory => memory.write (fragment.payloadPlace.shift start)
    (data.take (fragment.capacity - start))

def setFlags (fragment : Fragment) (flags : UInt16) : Action Memory Unit :=
  .modify fun memory => memory.store HeaderField.flags fragment.place flags.toNat

def inspect (fragment : Fragment) : String :=
  "FragmentRef \x7b rank: " ++ toString fragment.segment.rank ++ ", slot: "
    ++ toString fragment.slot ++ ", class: " ++ fragment.sizeClass.name ++ ", capacity: "
    ++ toString fragment.capacity ++ " \x7d"

end Fragment

end RankMail

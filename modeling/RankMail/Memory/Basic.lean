import RankMail.Memory.Sparse
import RankMail.Memory.LittleEndian

set_option autoImplicit false

/-! # Shared memory

Memory is a row of regions. A region holds the bytes of one file, whatever names the file has and
however many processes have mapped it: whoever reaches a region sees the same bytes. A `Place`
points into a region.

Every region number is valid. A region that was never made is empty, and a write makes it, so
the laws below need no hypothesis on the region.
-/

namespace RankMail

/-- The bytes of a file and its length. -/
structure Region where
  bytes : Sparse
  size : Nat
deriving Repr, DecidableEq

instance : Inhabited Region := ⟨⟨.empty, 0⟩⟩

structure Place where
  region : Nat
  address : Nat
deriving Repr, DecidableEq

namespace Place

def shift (place : Place) (distance : Nat) : Place :=
  ⟨place.region, place.address + distance⟩

end Place

/-- All regions, by number. -/
structure Memory where
  regions : List Region
deriving Repr, DecidableEq

namespace Memory

def empty : Memory := ⟨[]⟩

instance : Inhabited Memory := ⟨empty⟩

/-- Puts a region at an index of a row, which is extended as far as needed. -/
def setRegion : List Region → Nat → Region → List Region
  | [], 0, region => [region]
  | [], index + 1, region => default :: setRegion [] index region
  | _ :: rest, 0, region => region :: rest
  | first :: rest, index + 1, region => first :: setRegion rest index region

def region (memory : Memory) (number : Nat) : Region := memory.regions.getD number default

def modify (memory : Memory) (number : Nat) (change : Region → Region) : Memory :=
  ⟨setRegion memory.regions number (change (memory.region number))⟩

def byte (memory : Memory) (place : Place) : UInt8 :=
  (memory.region place.region).bytes.get place.address

def read (memory : Memory) (place : Place) (count : Nat) : List UInt8 :=
  (memory.region place.region).bytes.read place.address count

def write (memory : Memory) (place : Place) (data : List UInt8) : Memory :=
  memory.modify place.region fun old => { old with bytes := old.bytes.write place.address data }

/-- The little-endian number in the `width` bytes from a place on. -/
def word (memory : Memory) (width : Nat) (place : Place) : Nat :=
  LittleEndian.value (memory.read place width)

def setWord (memory : Memory) (width : Nat) (place : Place) (number : Nat) : Memory :=
  memory.write place (LittleEndian.bytes width number)

/-- The number that the next new region gets. -/
def fresh (memory : Memory) : Nat := memory.regions.length

/-- Gives a region another length; what lies beyond it is zero from then on. -/
def resize (memory : Memory) (number size : Nat) : Memory :=
  memory.modify number fun old => ⟨old.bytes.truncate size, size⟩

/-! ## What a change to one region does to the others -/

theorem getD_setRegion (regions : List Region) (index : Nat) (region : Region) (other : Nat) :
    (setRegion regions index region).getD other default =
      if other = index then region else regions.getD other default := by
  fun_induction setRegion regions index region generalizing other with
  | case1 region => cases other <;> simp
  | case2 index region ih =>
      cases other with
      | zero => simp
      | succ other => simpa using ih other
  | case3 first rest region => cases other <;> simp
  | case4 first rest index region ih =>
      cases other with
      | zero => simp
      | succ other => simpa using ih other

theorem region_modify (memory : Memory) (number other : Nat) (change : Region → Region) :
    (memory.modify number change).region other =
      if other = number then change (memory.region number) else memory.region other :=
  getD_setRegion ..

/-- A write changes the bytes it covers and no other. -/
theorem byte_write (memory : Memory) (place other : Place) (data : List UInt8) :
    (memory.write place data).byte other =
      if other.region = place.region ∧ place.address ≤ other.address ∧
          other.address < place.address + data.length
      then data.getD (other.address - place.address) 0
      else memory.byte other := by
  simp only [byte, write, region_modify]
  by_cases same : other.region = place.region
  · rw [if_pos same]
    simp only [Sparse.get_write, same, true_and]
  · rw [if_neg same, if_neg (by simp [same])]

theorem read_eq_map (memory : Memory) (place : Place) (count : Nat) :
    memory.read place count =
      (List.range count).map fun distance => memory.byte (place.shift distance) := by
  simp [read, Sparse.read_eq_map, byte, Place.shift, List.range'_eq_map_range, Function.comp_def]

@[simp] theorem length_read (memory : Memory) (place : Place) (count : Nat) :
    (memory.read place count).length = count := by
  simp [read]

theorem read_write_same (memory : Memory) (place : Place) (data : List UInt8) :
    (memory.write place data).read place data.length = data := by
  simp [read, write, region_modify, Sparse.read_write]

def Apart (place : Place) (count : Nat) (other : Place) (extent : Nat) : Prop :=
  place.region = other.region →
    place.address + count ≤ other.address ∨ other.address + extent ≤ place.address

theorem read_write_apart {place other : Place} {count : Nat} {data : List UInt8}
    (apart : Apart other count place data.length) (memory : Memory) :
    (memory.write place data).read other count = memory.read other count := by
  rw [read_eq_map, read_eq_map]
  apply List.map_congr_left
  intro distance inside
  have small : distance < count := by simpa using inside
  rw [byte_write, if_neg]
  simp only [Place.shift]
  rintro ⟨same, above, below⟩
  have split := apart same
  omega

theorem word_setWord_same (memory : Memory) (width : Nat) (place : Place) (number : Nat) :
    (memory.setWord width place number).word width place = number % 256 ^ width := by
  have back := read_write_same memory place (LittleEndian.bytes width number)
  rw [LittleEndian.length_bytes] at back
  rw [word, setWord, back, LittleEndian.value_bytes]

theorem word_setWord_apart {width extent : Nat} {place other : Place}
    (apart : Apart other extent place width) (memory : Memory) (number : Nat) :
    (memory.setWord width place number).word extent other = memory.word extent other := by
  rw [word, setWord, read_write_apart, word]
  rwa [LittleEndian.length_bytes]

theorem word_lt (memory : Memory) (width : Nat) (place : Place) :
    memory.word width place < 256 ^ width := by
  have bound := LittleEndian.value_lt (memory.read place width)
  rwa [length_read] at bound

end Memory

end RankMail

import RankMail.Header
import RankMail.Segment.Basic

set_option autoImplicit false

/-! # What stays as it is

A step writes here and there and leaves all other bytes alone. `Memory.Keeps` names the ranges that
may have been written; whatever is read apart from them reads as before, and no file has another
length. Ranges of several steps add up (`Keeps.trans`).
-/

namespace RankMail

namespace Memory

variable {before after last : Memory} {touched more : List (Place × Nat)}

/-- A range is apart from every range of a list. -/
def ApartFrom (place : Place) (count : Nat) (touched : List (Place × Nat)) : Prop :=
  ∀ range ∈ touched, Apart place count range.1 range.2

@[simp] theorem apartFrom_nil (place : Place) (count : Nat) : ApartFrom place count [] :=
  fun _ inside => nomatch inside

@[simp] theorem apartFrom_cons {place : Place} {count : Nat} {range : Place × Nat} :
    ApartFrom place count (range :: touched) ↔
      Apart place count range.1 range.2 ∧ ApartFrom place count touched :=
  List.forall_mem_cons

/-- Two memories differ at most in some ranges. -/
structure Keeps (touched : List (Place × Nat)) (before after : Memory) : Prop where
  read : ∀ {place count}, ApartFrom place count touched →
    after.read place count = before.read place count
  size : ∀ number, (after.region number).size = (before.region number).size
  fresh : before.fresh ≤ after.fresh

theorem Keeps.refl (touched : List (Place × Nat)) (memory : Memory) :
    Keeps touched memory memory := ⟨fun _ => rfl, fun _ => rfl, Nat.le_refl _⟩

theorem Keeps.trans (one : Keeps touched before after) (two : Keeps more after last) :
    Keeps (touched ++ more) before last where
  read apart := (two.read fun range inside => apart range (List.mem_append_right _ inside)).trans
    (one.read fun range inside => apart range (List.mem_append_left _ inside))
  size number := (two.size number).trans (one.size number)
  fresh := Nat.le_trans one.fresh two.fresh

/-- More ranges may be named than have been written. -/
theorem Keeps.mono (keeps : Keeps touched before after) (subset : touched ⊆ more) :
    Keeps more before after where
  read apart := keeps.read fun range inside => apart range (subset inside)
  size := keeps.size
  fresh := keeps.fresh

/-- Other ranges may be named if nothing lies apart from them that does not lie apart from what has
been written. -/
theorem Keeps.widen (keeps : Keeps touched before after)
    (covers : ∀ {place count}, 0 < count → ApartFrom place count more →
      ApartFrom place count touched) : Keeps more before after where
  read {place count} apart := by
    rcases Nat.eq_zero_or_pos count with rfl | positive
    · rw [read_eq_map, read_eq_map]
      rfl
    · exact keeps.read (covers positive apart)
  size := keeps.size
  fresh := keeps.fresh

theorem Keeps.load (keeps : Keeps touched before after) {field : Field} {block : Place}
    (apart : ApartFrom (block.shift field.distance) field.width touched) :
    after.load field block = before.load field block :=
  congrArg LittleEndian.value (keeps.read apart)

theorem length_setRegion (regions : List Region) (index : Nat) (region : Region) :
    regions.length ≤ (setRegion regions index region).length := by
  fun_induction setRegion regions index region with
  | case1 region => exact Nat.zero_le _
  | case2 index region ih => exact Nat.zero_le _
  | case3 first rest region => exact Nat.le_refl _
  | case4 first rest index region ih => exact Nat.succ_le_succ ih

theorem keeps_write (memory : Memory) (place : Place) (data : List UInt8) :
    Keeps [(place, data.length)] memory (memory.write place data) where
  read apart := read_write_apart (apart _ List.mem_cons_self) memory
  size number := by
    rw [write, region_modify]
    split
    · next same => rw [same]
    · rfl
  fresh := length_setRegion ..

theorem keeps_write_nil (memory : Memory) (place : Place) :
    Keeps [] memory (memory.write place []) where
  read _ := by
    rw [read_eq_map, read_eq_map]
    refine List.map_congr_left fun index _ => ?_
    rw [byte_write, if_neg]
    simp only [List.length_nil]
    omega
  size := (keeps_write memory place []).size
  fresh := (keeps_write memory place []).fresh

theorem keeps_store (memory : Memory) (field : Field) (block : Place) (number : Nat) :
    Keeps [(block.shift field.distance, field.width)] memory
      (memory.store field block number) := by
  have keeps := keeps_write memory (block.shift field.distance)
    (LittleEndian.bytes field.width number)
  rwa [LittleEndian.length_bytes] at keeps

theorem keeps_setWord (memory : Memory) (width : Nat) (place : Place) (number : Nat) :
    Keeps [(place, width)] memory (memory.setWord width place number) := by
  have keeps := keeps_write memory place (LittleEndian.bytes width number)
  rwa [LittleEndian.length_bytes] at keeps

theorem keeps_writeHeader (memory : Memory) (place : Place) (header : Header) :
    Keeps [(place, headerSize)] memory (memory.writeHeader place header) := by
  have keeps := keeps_write memory place header.bytes
  rwa [header.length_bytes] at keeps

/-! ## Parts of a range -/

theorem read_shift (memory : Memory) (place : Place) {distance count total : Nat}
    (inside : distance + count ≤ total) :
    memory.read (place.shift distance) count =
      ((memory.read place total).drop distance).take count := by
  rw [read_eq_map, read_eq_map]
  apply List.ext_getElem
  · simp
    omega
  · intro index here there
    simp [Place.shift, Nat.add_assoc]

theorem read_part {place : Place} {distance count total : Nat}
    (same : after.read place total = before.read place total) (inside : distance + count ≤ total) :
    after.read (place.shift distance) count = before.read (place.shift distance) count := by
  rw [read_shift after place inside, read_shift before place inside, same]

/-! ## Headers -/

theorem load_writeHeader (memory : Memory) (place : Place) (header : Header) {field : Field}
    (inside : field.distance + field.width ≤ headerSize) :
    (memory.writeHeader place header).load field place =
      LittleEndian.value ((header.bytes.drop field.distance).take field.width) := by
  have whole : (memory.writeHeader place header).read place headerSize = header.bytes := by
    rw [← header.length_bytes]
    exact read_write_same memory place header.bytes
  rw [load, word, read_shift _ place inside, whole]

/-- What a header says of the slot behind it and never changes: who carved it, under which index,
and how large. -/
structure Names (memory : Memory) (place : Place) (rank slot capacity : UInt32) : Prop where
  source : memory.load HeaderField.source place = rank.toNat
  slot : memory.load HeaderField.slot place = slot.toNat
  capacity : memory.load HeaderField.capacity place = capacity.toNat

theorem value_bytes_uInt32 (number : UInt32) :
    LittleEndian.value (LittleEndian.bytes 4 number.toNat) = number.toNat := by
  rw [LittleEndian.value_bytes]
  exact Nat.mod_eq_of_lt number.toNat_lt

/-- A stretch of a text of which the parts are known. -/
theorem take_drop_middle {α : Type} (front middle back : List α) :
    ((front ++ (middle ++ back)).drop front.length).take middle.length = middle := by
  rw [List.drop_left, List.take_left]

theorem names_writeHeader (memory : Memory) (place : Place) (header : Header) :
    Names (memory.writeHeader place header) place header.source header.slot header.capacity where
  source := by
    rw [load_writeHeader _ _ _ (by decide), ← value_bytes_uInt32]
    exact congrArg _ (take_drop_middle (LittleEndian.bytes 8 header.next.word)
      (LittleEndian.bytes 4 header.source.toNat) _)
  slot := by
    rw [load_writeHeader _ _ _ (by decide), ← value_bytes_uInt32]
    exact congrArg _ (take_drop_middle (LittleEndian.bytes 8 header.next.word
      ++ LittleEndian.bytes 4 header.source.toNat) (LittleEndian.bytes 4 header.slot.toNat) _)
  capacity := by
    rw [load_writeHeader _ _ _ (by decide), ← value_bytes_uInt32]
    exact congrArg _ (take_drop_middle (LittleEndian.bytes 8 header.next.word
      ++ LittleEndian.bytes 4 header.source.toNat ++ LittleEndian.bytes 4 header.slot.toNat)
      (LittleEndian.bytes 4 header.capacity.toNat) _)

end Memory

theorem Header.read_of_bytes {memory : Memory} {place : Place} {header : Header}
    (same : memory.read place headerSize = header.bytes) : read memory place = header := by
  have parts : ∀ field : Field, field.distance + field.width ≤ headerSize →
      memory.load field place =
        LittleEndian.value ((header.bytes.drop field.distance).take field.width) := by
    intro field inside
    rw [Memory.load, Memory.word, Memory.read_shift memory place inside, same]
  have small : header.next.word < 18446744073709551616 := header.next.word_lt
  rw [read, parts HeaderField.next (by decide), parts HeaderField.source (by decide),
    parts HeaderField.slot (by decide), parts HeaderField.capacity (by decide),
    parts HeaderField.length (by decide), parts HeaderField.flags (by decide),
    parts HeaderField.sizeClass (by decide)]
  simp [bytes, HeaderField.next, HeaderField.source, HeaderField.slot, HeaderField.capacity,
    HeaderField.length, HeaderField.flags, HeaderField.sizeClass, List.drop_append,
    List.drop_of_length_le, LittleEndian.value_bytes, LittleEndian.value, Nat.mod_eq_of_lt small]

end RankMail

import RankMail.Proofs.Network.Basic
import RankMail.Proofs.Pool.Slots

set_option autoImplicit false

/-! # What a slot says

The sender of a fragment and its reader look at the same bytes through mappings of their own.
`Memory.letterAt` is what the bytes say, whoever looks: `Message.letter_eq` and
`Fragment.payload_eq`. It depends on the name of the slot and on its body and on nothing else
(`letterAt_congr`), so neither links nor flags change it.
-/

namespace RankMail

namespace Memory

variable {before after memory : Memory} {place : Place} {rank slot capacity : UInt32}

/-- What the header at a place and the payload behind it say. -/
def letterAt (memory : Memory) (place : Place) (owner : UInt32) : Letter :=
  ⟨UInt32.ofNat (memory.load HeaderField.source place), owner, memory.claimedPayload place⟩

theorem claimedLength_le (names : Names memory place rank slot capacity) :
    memory.claimedLength place ≤ capacity.toNat := by
  rw [claimedLength, names.capacity]
  exact Nat.min_le_right ..

theorem claimedPayload_congr (names : Names before place rank slot capacity)
    (namesAfter : Names after place rank slot capacity)
    (length : after.load HeaderField.length place = before.load HeaderField.length place)
    (payload : after.read (place.shift headerSize) capacity.toNat =
      before.read (place.shift headerSize) capacity.toNat) :
    after.claimedPayload place = before.claimedPayload place := by
  have claimed : after.claimedLength place = before.claimedLength place := by
    rw [claimedLength, claimedLength, length, names.capacity, namesAfter.capacity]
  have inside : 0 + before.claimedLength place ≤ capacity.toNat := by
    rw [Nat.zero_add]
    exact claimedLength_le names
  rw [claimedPayload, claimedPayload, claimed]
  exact @read_part before after (place.shift headerSize) 0 _ _ payload inside

/-- A slot says the same as long as its name and its body are the same. -/
theorem letterAt_congr (names : Names before place rank slot capacity) {owner : UInt32}
    (name : after.read (place.shift 8) 12 = before.read (place.shift 8) 12)
    (body : after.read (place.shift 20) (44 + capacity.toNat) =
      before.read (place.shift 20) (44 + capacity.toNat)) :
    after.letterAt place owner = before.letterAt place owner := by
  have namesAfter := names.congr (Nat.le_refl 12) name
  have length : after.load HeaderField.length place = before.load HeaderField.length place :=
    congrArg LittleEndian.value (@read_part before after (place.shift 20) 0 4 _ body (by omega))
  have payload := @read_part before after (place.shift 20) 44 capacity.toNat _ body (Nat.le_refl _)
  rw [letterAt, letterAt, names.source, namesAfter.source,
    claimedPayload_congr names namesAfter length payload]

theorem isReturnedAt_congr
    (flags : after.load HeaderField.flags place = before.load HeaderField.flags place) :
    after.isReturnedAt place = before.isReturnedAt place := by
  rw [isReturnedAt, isReturnedAt, flags]

theorem flags_store (memory : Memory) (place : Place) (flags : UInt16) :
    UInt16.ofNat ((memory.store HeaderField.flags place flags.toNat).load HeaderField.flags place) =
      flags := by
  have small : flags.toNat < 256 ^ 2 := flags.toNat_lt
  rw [load_store_same, show HeaderField.flags.width = 2 from rfl, Nat.mod_eq_of_lt small,
    UInt16.ofNat_toNat]

theorem isReturnedAt_store_zero (memory : Memory) (place : Place) :
    (memory.store HeaderField.flags place (0 : UInt16).toNat).isReturnedAt place = false := by
  rw [isReturnedAt, flags_store]
  decide

/-- With the flag a fragment is on its way back, whatever other flags it has. -/
theorem isReturnedAt_store_or (memory : Memory) (place : Place) (flags : UInt16) :
    (memory.store HeaderField.flags place (flags ||| returnedFlag).toNat).isReturnedAt place =
      true := by
  have kept : (flags ||| returnedFlag) &&& returnedFlag = returnedFlag := by
    apply UInt16.toNat_inj.mp
    rw [UInt16.toNat_and, UInt16.toNat_or]
    apply Nat.eq_of_testBit_eq
    intro index
    simp only [Nat.testBit_and, Nat.testBit_or]
    cases flags.toNat.testBit index <;> cases returnedFlag.toNat.testBit index <;> rfl
  rw [isReturnedAt, flags_store, kept]
  decide

theorem letterAt_store_flags (names : Names memory place rank slot capacity) (owner : UInt32)
    (flags : Nat) :
    (memory.store HeaderField.flags place flags).letterAt place owner =
      memory.letterAt place owner := by
  have keeps := memory.keeps_store HeaderField.flags place flags
  have name : (memory.store HeaderField.flags place flags).read (place.shift 8) 12 =
      memory.read (place.shift 8) 12 := by
    refine keeps.read ?_
    simp [Apart, Place.shift, HeaderField.flags]
  have namesAfter := names.congr (Nat.le_refl 12) name
  have length : (memory.store HeaderField.flags place flags).load HeaderField.length place =
      memory.load HeaderField.length place := by
    refine keeps.load ?_
    simp [Apart, Place.shift, HeaderField.flags, HeaderField.length]
  have payload : (memory.store HeaderField.flags place flags).read (place.shift headerSize)
      capacity.toNat = memory.read (place.shift headerSize) capacity.toNat := by
    refine keeps.read ?_
    simp only [apartFrom_cons, apartFrom_nil, and_true, Apart, Place.shift, HeaderField.flags,
      headerSize]
    omega
  rw [letterAt, letterAt, names.source, namesAfter.source,
    claimedPayload_congr names namesAfter length payload]

end Memory

theorem Message.letter_eq {message : Message} {memory : Memory} {rank slot capacity : UInt32}
    (names : memory.Names message.place rank slot capacity)
    (within : message.position + headerSize + capacity.toNat ≤ message.segment.size) :
    message.letter memory = memory.letterAt message.place message.owner := by
  have length : message.length memory = memory.claimedLength message.place := by
    have claimed := Memory.claimedLength_le names
    rw [Message.length]
    omega
  rw [letter, Memory.letterAt, source, payload, length, Memory.claimedPayload]

namespace Fragment

variable {fragment : Fragment} {memory : Memory} {rank slot capacity : UInt32}

theorem payload_eq (names : memory.Names fragment.place rank slot capacity)
    (same : fragment.capacity = capacity.toNat) :
    fragment.payload memory = memory.claimedPayload fragment.place := by
  rw [payload, length, Memory.claimedPayload, Memory.claimedLength, names.capacity, same]
  rfl

end Fragment

end RankMail

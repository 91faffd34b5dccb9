import RankMail.Layout
import RankMail.Outcome

set_option autoImplicit false

/-! # Address maps

A process knows, for some ranks, where it has mapped their segments. An `AddressMap` translates
between its own addresses and offsets that every process understands.

An offset read from shared memory may be any word at all. `resolve` is the gate that such a word
has to pass before a header is touched: its rank is registered, the whole header lies within the
mapping, and the address is aligned.
-/

namespace RankMail

/-- A range of addresses at which a region is mapped. -/
structure Mapping where
  base : Nat
  size : Nat
  region : Nat
deriving Repr, DecidableEq

/-- Where a process has mapped the segments of some ranks, its own among them. -/
structure AddressMap where
  /-- The rank of the process itself. -/
  own : UInt32
  mappings : List (UInt32 × Mapping)
deriving Repr, DecidableEq

namespace AddressMap

def empty (own : UInt32) : AddressMap := ⟨own, []⟩

def find? (map : AddressMap) (rank : UInt32) : Option Mapping := map.mappings.lookup rank

def isRegistered (map : AddressMap) (rank : UInt32) : Bool := (map.find? rank).isSome

def unregister (map : AddressMap) (rank : UInt32) : AddressMap :=
  { map with mappings := map.mappings.filter fun entry => entry.1 != rank }

/-- Records the mapping of a rank, in place of an earlier one. -/
def register (map : AddressMap) (rank : UInt32) (mapping : Mapping) : Except Abort AddressMap :=
  if mapping.base = 0 then .error (.nullBase rank)
  else if maxRank < rank.toNat ∨ maxSegmentSize < mapping.size then .error (.unaddressable rank)
  else .ok { map with mappings := (rank, mapping) :: (map.unregister rank).mappings }

/-- The mapping of a rank that has to have one. -/
def expect (map : AddressMap) (rank : UInt32) : Except Abort Mapping :=
  match map.find? rank with
  | some mapping => .ok mapping
  | none => .error (.unregistered rank)

/-- The offset of an address in the segment of a rank. -/
def offsetFor (map : AddressMap) (rank : UInt32) (address : Nat) : Except Abort Offset := do
  let mapping ← map.expect rank
  if address < mapping.base ∨ mapping.size ≤ address - mapping.base then
    .error (.outsideSegment address rank)
  else
    match Offset.ofRank? rank (UInt32.ofNat (address - mapping.base)) with
    | some offset => .ok offset
    | none => .error .rankTooLarge

/-- The offset of an address in the process's own segment. -/
def offset (map : AddressMap) (address : Nat) : Except Abort Offset :=
  map.offsetFor map.own address

def address (map : AddressMap) (offset : Offset) : Except Abort Nat := do
  if offset.isFree then .error .freeTranslated
  else
    let mapping ← map.expect offset.rank
    if mapping.size ≤ offset.position.toNat then .error (.pastEnd offset mapping.size)
    else .ok (mapping.base + offset.position.toNat)

def place (map : AddressMap) (offset : Offset) : Except Abort Place := do
  let address ← map.address offset
  let mapping ← map.expect offset.rank
  .ok ⟨mapping.region, address - mapping.base⟩

/-- The address of the fragment header that an offset stands for. -/
def resolve (map : AddressMap) (offset : Offset) : Except Abort Nat := do
  let mapping ← map.expect offset.rank
  if mapping.size < offset.position.toNat + headerSize then .error (.noRoomForHeader offset)
  else
    let address ← map.address offset
    if address % headerAlignment ≠ 0 then .error (.misaligned offset) else .ok address

def header (map : AddressMap) (offset : Offset) : Except Abort Place := do
  let _ ← map.resolve offset
  map.place offset

/-! ## Registration -/

@[simp] theorem find?_empty (own rank : UInt32) : (empty own).find? rank = none := rfl

theorem find?_unregister (map : AddressMap) (rank other : UInt32) :
    (map.unregister rank).find? other = if other = rank then none else map.find? other := by
  obtain ⟨own, mappings⟩ := map
  simp only [find?, unregister]
  induction mappings with
  | nil => simp
  | cons entry rest ih =>
      obtain ⟨key, mapping⟩ := entry
      have step : ∀ entries : List (UInt32 × Mapping),
          List.lookup other ((key, mapping) :: entries) =
            if other = key then some mapping else List.lookup other entries := by
        intro entries
        by_cases wanted : other = key
        · simp [wanted]
        · have missed : (other == key) = false := by simpa using wanted
          rw [List.lookup_cons, missed, if_neg wanted]
      rw [step]
      by_cases dropped : key = rank
      · subst dropped
        rw [List.filter_cons_of_neg (by simp), ih]
        split <;> rfl
      · rw [List.filter_cons_of_pos (by simpa using dropped), step, ih]
        by_cases wanted : other = key
        · subst wanted
          simp [dropped]
        · simp [wanted]

theorem find?_register {map after : AddressMap} {rank : UInt32} {mapping : Mapping}
    (registered : map.register rank mapping = .ok after) (other : UInt32) :
    after.find? other = if other = rank then some mapping else map.find? other := by
  unfold register at registered
  split at registered
  · simp at registered
  · split at registered
    · simp at registered
    · obtain rfl := Except.ok.inj registered
      show List.lookup other ((rank, mapping) :: (map.unregister rank).mappings) = _
      have rest := find?_unregister map rank other
      unfold find? at rest
      by_cases wanted : other = rank
      · subst wanted
        simp
      · rw [if_neg wanted] at rest ⊢
        have missed : (other == rank) = false := by simpa using wanted
        rw [List.lookup_cons, missed]
        exact rest

theorem own_register {map after : AddressMap} {rank : UInt32} {mapping : Mapping}
    (registered : map.register rank mapping = .ok after) : after.own = map.own := by
  unfold register at registered
  split at registered
  · cases registered
  · split at registered
    · cases registered
    · rw [← Except.ok.inj registered]

end AddressMap

end RankMail

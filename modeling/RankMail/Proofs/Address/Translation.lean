import Mathlib.Logic.Function.Basic
import RankMail.Proofs.Queue.Traffic

set_option autoImplicit false

/-! # Addresses and offsets

Each process keeps an address map of its own, and any of them may map a segment anywhere:

        here                   offset                   there
    base + n    <------->    rank, n    <------->    base' + n

Whatever sequence of changes an address map has been through, as long as each mapping that was
entered exists and can be expressed (`AddressMap.IsUsable`), a process finds the offset of every
address in the segments it knows, and from the offset the address again. Another process finds its
own address of the same byte.

What a queue operation does depends on the address map only through the places of headers
(`Queue.Alike`), so two processes that have mapped the same segments do the same through the maps
of either.
-/

namespace RankMail

/-! ## Words -/

namespace Offset

variable {offset other : Offset} {raw : Int}

theorem raw_injective (same : offset.raw = other.raw) : offset = other := by
  rw [← ofRaw_raw offset, same, ofRaw_raw]

/-- The ranks that may be used are those whose words are not negative. -/
theorem raw_nonneg_iff : 0 ≤ offset.raw ↔ offset.rank.toNat ≤ maxRank := by
  have small := offset.word_lt
  have position := offset.position.toNat_lt
  have upper : offset.word < 2 ^ 63 ↔ offset.rank.toNat ≤ maxRank := by
    unfold word maxRank
    omega
  rw [← upper, raw]
  split <;> omega

theorem raw_ofRaw (low : 0 ≤ raw) (high : raw < 2 ^ 63) : (ofRaw raw).raw = raw := by
  have same : (raw % 2 ^ 64).toNat = raw.toNat := by omega
  have small : raw.toNat < 2 ^ 63 := by omega
  have word : (ofWord raw.toNat).word = raw.toNat := word_ofWord (by omega)
  rw [ofRaw, same, Offset.raw, word, if_pos small]
  omega

/-- A word that is not negative is that of its rank and its position. -/
theorem ofRank?_of_raw_nonneg (low : 0 ≤ offset.raw) :
    ofRank? offset.rank offset.position = some offset :=
  if_pos (raw_nonneg_iff.mp low)

theorem ne_free_of_rank (usable : offset.rank.toNat ≤ maxRank) : offset ≠ .free := by
  rintro rfl
  exact absurd usable (by decide)

end Offset

/-! ## One address map -/

namespace AddressMap

variable {map after copy : AddressMap} {rank : UInt32} {mapping twin : Mapping} {offset : Offset}
  {address position : Nat}

/-- A mapping that offsets can express. -/
structure IsExpressible (rank : UInt32) (mapping : Mapping) : Prop where
  rank : rank.toNat ≤ maxRank
  size : mapping.size ≤ maxSegmentSize

/-- A mapping is entered exactly if offsets can express it. -/
theorem register_cases (map : AddressMap) (rank : UInt32) (somewhere : mapping.base ≠ 0) :
    (¬IsExpressible rank mapping ∧ map.register rank mapping = .error (.unaddressable rank)) ∨
      IsExpressible rank mapping ∧ ∃ after, map.register rank mapping = .ok after := by
  rw [register, if_neg somewhere]
  by_cases out : maxRank < rank.toNat ∨ maxSegmentSize < mapping.size
  · rw [if_pos out]
    refine .inl ⟨fun fits => ?_, rfl⟩
    have rank := fits.rank
    have size := fits.size
    omega
  · rw [if_neg out]
    exact .inr ⟨⟨by omega, by omega⟩, _, rfl⟩

theorem expressible_of_register (registered : map.register rank mapping = .ok after) :
    IsExpressible rank mapping := by
  rw [register] at registered
  split at registered
  · cases registered
  · split at registered
    · cases registered
    · exact ⟨by omega, by omega⟩

theorem address_eq (found : map.find? offset.rank = some mapping)
    (fits : IsExpressible offset.rank mapping) (inside : offset.position.toNat < mapping.size) :
    map.address offset = .ok (mapping.base + offset.position.toNat) := by
  have proper : offset.isFree = false := by
    rw [Bool.eq_false_iff, ne_eq, Offset.isFree_iff]
    exact Offset.ne_free_of_rank fits.rank
  have expected : map.expect offset.rank = .ok mapping := by rw [expect, found]
  simp only [AddressMap.address, proper, expected, bind, Except.bind, Bool.false_eq_true, if_false,
    if_neg (Nat.not_le.mpr inside)]

theorem IsExpressible.toNat_position (fits : IsExpressible rank mapping)
    (inside : position < mapping.size) : (UInt32.ofNat position).toNat = position := by
  have size := fits.size
  rw [maxSegmentSize] at size
  rw [UInt32.toNat_ofNat']
  exact Nat.mod_eq_of_lt (by omega)

theorem address_of_expressible (found : map.find? rank = some mapping)
    (fits : IsExpressible rank mapping) (inside : position < mapping.size) :
    ∃ offset, Offset.ofRank? rank (UInt32.ofNat position) = some offset ∧
      map.address offset = .ok (mapping.base + position) := by
  have word := fits.toNat_position inside
  refine ⟨⟨rank, UInt32.ofNat position⟩, if_pos fits.rank, ?_⟩
  rw [address_eq found fits (by rwa [word]), word]

theorem offsetFor_eq (found : map.find? rank = some mapping) (fits : IsExpressible rank mapping)
    (above : mapping.base ≤ address) (below : address < mapping.base + mapping.size) :
    map.offsetFor rank address = .ok ⟨rank, UInt32.ofNat (address - mapping.base)⟩ := by
  have expected : map.expect rank = .ok mapping := by rw [expect, found]
  have inside : ¬(address < mapping.base ∨ mapping.size ≤ address - mapping.base) := by omega
  have usable : Offset.ofRank? rank (UInt32.ofNat (address - mapping.base)) =
      some ⟨rank, UInt32.ofNat (address - mapping.base)⟩ := if_pos fits.rank
  simp only [offsetFor, expected, bind, Except.bind, if_neg inside, usable]

/-- A mapping that there can be: it can be expressed, and it lies in the address space. -/
structure IsUsable (rank : UInt32) (mapping : Mapping) : Prop extends
    IsExpressible rank mapping where
  somewhere : mapping.base ≠ 0
  ends : mapping.base + mapping.size ≤ 2 ^ 64

def IsSound (map : AddressMap) : Prop :=
  ∀ rank mapping, map.find? rank = some mapping → IsUsable rank mapping

inductive Change where
  | register (rank : UInt32) (mapping : Mapping)
  | unregister (rank : UInt32)
deriving Repr, DecidableEq

def Change.IsSound : Change → Prop
  | register rank mapping => IsUsable rank mapping
  | unregister _ => True

def change (map : AddressMap) : Change → Except Abort AddressMap
  | .register rank mapping => map.register rank mapping
  | .unregister rank => .ok (map.unregister rank)

theorem isSound_empty (own : UInt32) : (empty own).IsSound := by
  intro rank mapping found
  cases found

/-- A sound change does not abort, and keeps an address map sound. -/
theorem IsSound.change (sound : map.IsSound) {change : Change} (proper : change.IsSound) :
    ∃ after, map.change change = .ok after ∧ after.IsSound := by
  cases change with
  | register rank mapping =>
      rcases map.register_cases rank proper.somewhere with ⟨strange, _⟩ | ⟨_, after, registered⟩
      · exact absurd proper.toIsExpressible strange
      · refine ⟨after, registered, fun other there found => ?_⟩
        rw [find?_register registered] at found
        split at found
        case isTrue same =>
          subst same
          obtain rfl := Option.some.inj found
          exact proper
        case isFalse => exact sound _ _ found
  | unregister rank =>
      refine ⟨map.unregister rank, rfl, fun other there found => ?_⟩
      rw [find?_unregister] at found
      split at found
      case isTrue => cases found
      case isFalse => exact sound _ _ found

/-- An address in a segment has an offset of that rank, which is none of the negative words and
leads back to the address. -/
theorem IsSound.offset_of_address (sound : map.IsSound) (found : map.find? rank = some mapping)
    (above : mapping.base ≤ address) (below : address < mapping.base + mapping.size) :
    ∃ offset, map.offsetFor rank address = .ok offset ∧ offset.rank = rank ∧ 0 ≤ offset.raw ∧
      offset ≠ .free ∧ map.address offset = .ok address := by
  have fits := (sound _ _ found).toIsExpressible
  have word : (UInt32.ofNat (address - mapping.base)).toNat = address - mapping.base :=
    fits.toNat_position (by omega)
  refine ⟨_, offsetFor_eq found fits above below, rfl, Offset.raw_nonneg_iff.mpr fits.rank,
    Offset.ne_free_of_rank fits.rank, ?_⟩
  rw [address_eq found fits (by rw [word]; omega), word]
  congr 1
  omega

/-- An offset in a segment has an address, which leads back to the offset. -/
theorem IsSound.address_of_offset (sound : map.IsSound)
    (found : map.find? offset.rank = some mapping)
    (inside : offset.position.toNat < mapping.size) :
    ∃ address, map.address offset = .ok address ∧
      map.offsetFor offset.rank address = .ok offset := by
  have fits := (sound _ _ found).toIsExpressible
  refine ⟨_, address_eq found fits inside, ?_⟩
  rw [offsetFor_eq found fits (by omega) (by omega), Nat.add_sub_cancel_left, UInt32.ofNat_toNat]

/-- The same byte of a segment is as far behind the base in one process as in another. -/
theorem IsSound.same_distance (sound : map.IsSound) (soundToo : copy.IsSound)
    (found : map.find? rank = some mapping) (foundToo : copy.find? rank = some twin)
    (sizes : mapping.size = twin.size)
    (above : mapping.base ≤ address) (below : address < mapping.base + mapping.size) :
    ∃ offset there, map.offsetFor rank address = .ok offset ∧ copy.address offset = .ok there ∧
      twin.base ≤ there ∧ there - twin.base = address - mapping.base := by
  have fits := (sound _ _ found).toIsExpressible
  have word : (UInt32.ofNat (address - mapping.base)).toNat = address - mapping.base :=
    fits.toNat_position (by omega)
  refine ⟨_, twin.base + (address - mapping.base), offsetFor_eq found fits above below, ?_,
    by omega, by omega⟩
  rw [address_eq foundToo (soundToo _ _ foundToo).toIsExpressible (by rw [word]; omega), word]

/-! ## Two processes -/

/-- Two processes have mapped the same segments, each wherever it likes. -/
def Mirrors (map copy : AddressMap) : Prop := ∀ rank,
  (map.find? rank).map (fun mapping => (mapping.region, mapping.size)) =
    (copy.find? rank).map fun mapping => (mapping.region, mapping.size)

/-- No two mappings of a process share an address, and all of them begin where a header may. -/
structure IsSpread (map : AddressMap) : Prop where
  aligned : ∀ {rank mapping}, map.find? rank = some mapping →
    mapping.base % headerAlignment = 0
  apart : ∀ {rank other mapping there}, map.find? rank = some mapping →
    map.find? other = some there → rank ≠ other →
      mapping.base + mapping.size ≤ there.base ∨ there.base + there.size ≤ mapping.base

/-- A process sees a place at an address. -/
def Shows (map : AddressMap) (address : Nat) (place : Place) : Prop :=
  ∃ rank mapping, map.find? rank = some mapping ∧ mapping.base ≤ address ∧
    address < mapping.base + mapping.size ∧ place = ⟨mapping.region, address - mapping.base⟩

/-- At an address within a mapping, a process sees the place of that mapping and no other. -/
theorem IsSpread.shows_iff (spread : map.IsSpread) (found : map.find? rank = some mapping)
    (inside : position < mapping.size) (seen : Place) :
    map.Shows (mapping.base + position) seen ↔ seen = ⟨mapping.region, position⟩ := by
  constructor
  · rintro ⟨other, there, foundOther, above, below, rfl⟩
    have same : rank = other := by
      by_contra differ
      have split := spread.apart found foundOther differ
      omega
    subst same
    obtain rfl := Option.some.inj (found.symm.trans foundOther)
    rw [Nat.add_sub_cancel_left]
  · rintro rfl
    refine ⟨rank, mapping, found, by omega, by omega, ?_⟩
    rw [Nat.add_sub_cancel_left]

theorem expect_of_none (missing : map.find? rank = none) :
    map.expect rank = .error (.unregistered rank) := by
  rw [expect, missing]

/-- The place of an offset does not depend on where its segment is mapped. -/
theorem place_eq (found : map.find? offset.rank = some mapping) :
    map.place offset =
      if offset.isFree then .error .freeTranslated
      else if mapping.size ≤ offset.position.toNat then .error (.pastEnd offset mapping.size)
      else .ok ⟨mapping.region, offset.position.toNat⟩ := by
  have expected : map.expect offset.rank = .ok mapping := by rw [expect, found]
  simp only [place, AddressMap.address, expected, bind, Except.bind]
  by_cases free : offset.isFree = true
  · rw [if_pos free, if_pos free]
  · rw [if_neg free, if_neg free]
    by_cases past : mapping.size ≤ offset.position.toNat
    · rw [if_pos past, if_pos past]
    · rw [if_neg past, if_neg past]
      simp only [Nat.add_sub_cancel_left]

theorem resolve_eq (found : map.find? offset.rank = some mapping) :
    map.resolve offset =
      if mapping.size < offset.position.toNat + headerSize then .error (.noRoomForHeader offset)
      else if offset.isFree then .error .freeTranslated
      else if (mapping.base + offset.position.toNat) % headerAlignment ≠ 0 then
        .error (.misaligned offset)
      else .ok (mapping.base + offset.position.toNat) := by
  have expected : map.expect offset.rank = .ok mapping := by rw [expect, found]
  simp only [resolve, AddressMap.address, expected, bind, Except.bind]
  by_cases short : mapping.size < offset.position.toNat + headerSize
  · rw [if_pos short, if_pos short]
  · have within : ¬mapping.size ≤ offset.position.toNat := by
      simp only [headerSize] at short
      omega
    rw [if_neg short, if_neg short]
    by_cases free : offset.isFree = true
    · simp only [if_pos free]
    · simp only [if_neg free, if_neg within]

theorem header_eq (found : map.find? offset.rank = some mapping)
    (aligned : mapping.base % headerAlignment = 0) :
    map.header offset =
      if mapping.size < offset.position.toNat + headerSize then .error (.noRoomForHeader offset)
      else if offset.isFree then .error .freeTranslated
      else if offset.position.toNat % headerAlignment ≠ 0 then .error (.misaligned offset)
      else .ok ⟨mapping.region, offset.position.toNat⟩ := by
  have even : (mapping.base + offset.position.toNat) % headerAlignment =
      offset.position.toNat % headerAlignment := by
    simp only [headerAlignment] at aligned ⊢
    omega
  rw [header, place_eq found, resolve_eq found, even]
  by_cases short : mapping.size < offset.position.toNat + headerSize
  · simp only [if_pos short, bind, Except.bind]
  · have within : ¬mapping.size ≤ offset.position.toNat := by
      simp only [headerSize] at short
      omega
    by_cases free : offset.isFree = true
    · simp only [if_neg short, if_pos free, bind, Except.bind]
    · by_cases odd : offset.position.toNat % headerAlignment ≠ 0
      · simp only [if_neg short, if_neg free, if_pos odd, bind, Except.bind]
      · simp only [if_neg short, if_neg free, if_neg odd, if_neg within, bind, Except.bind]

/-- Of a rank, two processes that have mapped the same segments know as much as each other. -/
theorem Mirrors.cases (mirrors : map.Mirrors copy) (rank : UInt32) :
    (map.find? rank = none ∧ copy.find? rank = none) ∨
      ∃ mapping twin, map.find? rank = some mapping ∧ copy.find? rank = some twin ∧
        twin.region = mapping.region ∧ twin.size = mapping.size := by
  have same := mirrors rank
  cases found : map.find? rank with
  | none =>
      rw [found, Option.map_none, eq_comm, Option.map_eq_none_iff] at same
      exact .inl ⟨rfl, same⟩
  | some mapping =>
      rw [found, Option.map_some, eq_comm, Option.map_eq_some_iff] at same
      obtain ⟨twin, foundToo, equal⟩ := same
      obtain ⟨region, size⟩ := Prod.mk.inj equal
      exact .inr ⟨mapping, twin, rfl, foundToo, region, size⟩

/-- Two processes that have mapped the same segments mean the same place by an offset. -/
theorem Mirrors.place_eq (mirrors : map.Mirrors copy) (offset : Offset) :
    map.place offset = copy.place offset := by
  rcases mirrors.cases offset.rank with
    ⟨missing, missingToo⟩ | ⟨mapping, twin, found, foundToo, region, size⟩
  · simp only [place, AddressMap.address, expect_of_none missing, expect_of_none missingToo]
  · rw [AddressMap.place_eq found, AddressMap.place_eq foundToo, region, size]

theorem Mirrors.header_eq (mirrors : map.Mirrors copy) (spread : map.IsSpread)
    (spreadToo : copy.IsSpread) (offset : Offset) : map.header offset = copy.header offset := by
  rcases mirrors.cases offset.rank with
    ⟨missing, missingToo⟩ | ⟨mapping, twin, found, foundToo, region, size⟩
  · simp only [header, resolve, expect_of_none missing, expect_of_none missingToo, bind,
      Except.bind]
  · rw [AddressMap.header_eq found (spread.aligned found),
      AddressMap.header_eq foundToo (spreadToo.aligned foundToo), region, size]

theorem resolve_inv (resolved : map.resolve offset = .ok address) :
    ∃ mapping, map.find? offset.rank = some mapping ∧
      offset.position.toNat + headerSize ≤ mapping.size ∧
      address = mapping.base + offset.position.toNat ∧
      map.place offset = .ok ⟨mapping.region, offset.position.toNat⟩ := by
  cases found : map.find? offset.rank with
  | none =>
      simp only [resolve, expect_of_none found, bind, Except.bind] at resolved
      cases resolved
  | some mapping =>
      rw [resolve_eq found] at resolved
      split at resolved
      case isTrue => cases resolved
      case isFalse room =>
        split at resolved
        case isTrue => cases resolved
        case isFalse proper =>
          split at resolved
          case isTrue => cases resolved
          case isFalse =>
            have within : ¬mapping.size ≤ offset.position.toNat := by
              simp only [headerSize] at room
              omega
            refine ⟨mapping, rfl, by omega, (Except.ok.inj resolved).symm, ?_⟩
            rw [place_eq found, if_neg proper, if_neg within]

/-- Where two processes find the header of one offset, they see the same bytes. -/
theorem Mirrors.shows (mirrors : map.Mirrors copy) (spread : map.IsSpread)
    (spreadToo : copy.IsSpread) (resolved : map.resolve offset = .ok address) :
    ∃ there place, copy.resolve offset = .ok there ∧ map.header offset = .ok place ∧
      copy.header offset = .ok place ∧
      ∀ distance, distance < headerSize → ∀ seen,
        (map.Shows (address + distance) seen ↔ seen = place.shift distance) ∧
        (copy.Shows (there + distance) seen ↔ seen = place.shift distance) := by
  obtain ⟨mapping, found, room, rfl, placed⟩ := resolve_inv resolved
  have header : map.header offset = .ok ⟨mapping.region, offset.position.toNat⟩ := by
    rw [AddressMap.header, resolved]
    exact placed
  have headerToo := mirrors.header_eq spread spreadToo offset ▸ header
  obtain ⟨twin, foundToo, region, size⟩ : ∃ twin, copy.find? offset.rank = some twin ∧
      twin.region = mapping.region ∧ twin.size = mapping.size := by
    rcases mirrors.cases offset.rank with ⟨missing, _⟩ | ⟨_, twin, foundAgain, rest⟩
    · rw [missing] at found
      cases found
    · obtain rfl := Option.some.inj (found.symm.trans foundAgain)
      exact ⟨twin, rest⟩
  have resolvedToo : copy.resolve offset = .ok (twin.base + offset.position.toNat) := by
    cases away : copy.resolve offset with
    | error cause =>
        rw [AddressMap.header, away] at headerToo
        cases headerToo
    | ok there =>
        obtain ⟨_, foundAgain, _, rfl, _⟩ := resolve_inv away
        obtain rfl := Option.some.inj (foundToo.symm.trans foundAgain)
        rfl
  refine ⟨_, _, resolvedToo, header, headerToo, fun distance small seen => ⟨?_, ?_⟩⟩
  · rw [Nat.add_assoc, spread.shows_iff found (by omega)]
    rfl
  · rw [Nat.add_assoc, spreadToo.shows_iff foundToo (by omega), region]
    rfl

end AddressMap

/-! ## Queues through the maps of two processes -/

namespace Queue

variable {queue copy : Queue}

/-- Two queues have the same control words and find the same headers. -/
structure Alike (queue copy : Queue) : Prop where
  block : queue.block = copy.block
  header : ∀ offset, queue.addresses.header offset = copy.addresses.header offset

theorem Alike.setHead (alike : queue.Alike copy) (offset : Offset) :
    queue.setHead offset = copy.setHead offset := by
  rw [Queue.setHead, Queue.setHead, alike.block]

theorem Alike.exchangeTail (alike : queue.Alike copy) (offset : Offset) :
    queue.exchangeTail offset = copy.exchangeTail offset := by
  funext memory
  rw [Queue.exchangeTail, Queue.exchangeTail, alike.block]

theorem Alike.takeHead (alike : queue.Alike copy) : queue.takeHead = copy.takeHead := by
  funext memory
  rw [Queue.takeHead, Queue.takeHead, alike.block]

theorem Alike.releaseTail (alike : queue.Alike copy) (offset : Offset) :
    queue.releaseTail offset = copy.releaseTail offset := by
  funext memory
  rw [Queue.releaseTail, Queue.releaseTail, alike.block]

theorem Alike.setLink (alike : queue.Alike copy) (offset target : Offset) :
    queue.setLink offset target = copy.setLink offset target := by
  simp only [Queue.setLink, Queue.header, alike.header]

theorem Alike.link (alike : queue.Alike copy) (offset : Offset) :
    queue.link offset = copy.link offset := by
  simp only [Queue.link, Queue.header, alike.header]

theorem Alike.attach (alike : queue.Alike copy) (previous offset : Offset) :
    queue.attach previous offset = copy.attach previous offset := by
  simp only [Queue.attach, alike.setLink, alike.setHead]

theorem Alike.advance_sender (alike : queue.Alike copy) (sender : Sender) :
    sender.advance queue = sender.advance copy := by
  cases sender <;>
    simp only [Sender.advance, alike.setLink, alike.attach, alike.exchangeTail]

theorem Alike.advance_receiver (alike : queue.Alike copy) (receiver : Receiver) :
    receiver.advance queue = receiver.advance copy := by
  cases receiver <;>
    simp only [Receiver.advance, alike.link, alike.takeHead, alike.releaseTail, alike.setHead]

theorem Alike.enqueue (alike : queue.Alike copy) (offset : Offset) :
    queue.enqueue offset = copy.enqueue offset := by
  simp only [Sender.enqueue_eq, alike.advance_sender]

theorem Alike.dequeue (alike : queue.Alike copy) : queue.dequeue = copy.dequeue := by
  simp only [Queue.dequeue, Queue.header, alike.header, alike.takeHead, alike.releaseTail,
    alike.setHead]

end Queue

/-! ## The maps of all processes -/

namespace AddressMap

variable {Party : Type} [DecidableEq Party]

/-- The address maps of all processes after one of them has changed its own. -/
def enter (maps : Party → AddressMap) (call : Party × Change) :
    Except Abort (Party → AddressMap) := do
  let after ← (maps call.1).change call.2
  .ok (Function.update maps call.1 after)

/-- The address maps of all processes after a number of changes, beginning with none mapped. -/
def enterAll (own : Party → UInt32) (calls : List (Party × Change)) :
    Except Abort (Party → AddressMap) :=
  calls.foldlM enter fun party => empty (own party)

theorem enter_sound {maps : Party → AddressMap} {call : Party × Change}
    (sound : ∀ party, (maps party).IsSound) (proper : call.2.IsSound) :
    ∃ after, enter maps call = .ok after ∧ ∀ party, (after party).IsSound := by
  obtain ⟨changed, done, soundAfter⟩ := (sound call.1).change proper
  refine ⟨Function.update maps call.1 changed, by rw [enter, done]; rfl, fun party => ?_⟩
  by_cases same : party = call.1
  · subst same
    rw [Function.update_self]
    exact soundAfter
  · rw [Function.update_of_ne same]
    exact sound party

theorem enterAll_sound {maps : Party → AddressMap} {calls : List (Party × Change)}
    (sound : ∀ party, (maps party).IsSound) (proper : ∀ call ∈ calls, call.2.IsSound) :
    ∃ after, calls.foldlM enter maps = .ok after ∧ ∀ party, (after party).IsSound := by
  induction calls generalizing maps with
  | nil => exact ⟨maps, rfl, sound⟩
  | cons call rest ih =>
      obtain ⟨next, entered, soundNext⟩ := enter_sound sound (proper call List.mem_cons_self)
      obtain ⟨after, done, soundAfter⟩ := ih soundNext fun later inside =>
        proper later (List.mem_cons_of_mem _ inside)
      refine ⟨after, ?_, soundAfter⟩
      rw [List.foldlM_cons, entered]
      exact done

/-- However processes have entered and forgotten mappings, addresses and offsets agree: a segment's
addresses and its offsets go over into each other, the words of offsets tell them apart, and the
same byte is equally far behind either base. Two processes that have mapped the same segments do
the same with a queue, step by step, and touch the same bytes in doing so. -/
theorem enterAll_translates (own : Party → UInt32) (calls : List (Party × Change))
    (proper : ∀ call ∈ calls, call.2.IsSound) :
    ∃ maps, enterAll own calls = .ok maps ∧
      (∀ party rank mapping, (maps party).find? rank = some mapping →
        (∀ address, mapping.base ≤ address → address < mapping.base + mapping.size →
          ∃ offset, (maps party).offsetFor rank address = .ok offset ∧ offset.rank = rank ∧
            0 ≤ offset.raw ∧ offset ≠ .free ∧ (maps party).address offset = .ok address) ∧
        ∀ offset : Offset, offset.rank = rank → offset.position.toNat < mapping.size →
          ∃ address, (maps party).address offset = .ok address ∧
            (maps party).offsetFor rank address = .ok offset) ∧
      (∀ offset other : Offset, offset ≠ other → offset.raw ≠ other.raw) ∧
      (∀ raw : Int, 0 ≤ raw → raw < 2 ^ 63 →
        (Offset.ofRank? (Offset.ofRaw raw).rank (Offset.ofRaw raw).position).map Offset.raw =
          some raw) ∧
      (∀ one two rank here there, (maps one).find? rank = some here →
        (maps two).find? rank = some there → here.size = there.size →
        ∀ address, here.base ≤ address → address < here.base + here.size →
          ∃ offset found, (maps one).offsetFor rank address = .ok offset ∧
            (maps two).address offset = .ok found ∧ there.base ≤ found ∧
            found - there.base = address - here.base) ∧
      ∀ one two, (maps one).Mirrors (maps two) → (maps one).IsSpread → (maps two).IsSpread →
        (∀ block offset, Queue.enqueue ⟨block, maps one⟩ offset =
          Queue.enqueue ⟨block, maps two⟩ offset) ∧
        (∀ block, Queue.dequeue ⟨block, maps one⟩ = Queue.dequeue ⟨block, maps two⟩) ∧
        (∀ block (sender : Sender),
          sender.advance ⟨block, maps one⟩ = sender.advance ⟨block, maps two⟩) ∧
        (∀ block (receiver : Receiver),
          receiver.advance ⟨block, maps one⟩ = receiver.advance ⟨block, maps two⟩) ∧
        (∀ offset, (maps one).place offset = (maps two).place offset) ∧
        ∀ offset here, (maps one).resolve offset = .ok here →
          ∃ there place, (maps two).resolve offset = .ok there ∧
            (maps one).header offset = .ok place ∧ (maps two).header offset = .ok place ∧
            ∀ distance, distance < headerSize → ∀ seen,
              ((maps one).Shows (here + distance) seen ↔ seen = place.shift distance) ∧
              ((maps two).Shows (there + distance) seen ↔ seen = place.shift distance) := by
  obtain ⟨maps, done, sound⟩ := enterAll_sound (fun party => isSound_empty (own party)) proper
  refine ⟨maps, done, ?_, ?_, ?_, ?_, ?_⟩
  · intro party rank mapping found
    refine ⟨fun address above below => (sound party).offset_of_address found above below, ?_⟩
    rintro offset rfl inside
    exact (sound party).address_of_offset found inside
  · intro offset other differ same
    exact differ (Offset.raw_injective same)
  · intro raw low high
    have back := Offset.raw_ofRaw low high
    rw [Offset.ofRank?_of_raw_nonneg (by rw [back]; exact low), Option.map_some, back]
  · intro one two rank here there found foundToo sizes address above below
    exact (sound one).same_distance (sound two) found foundToo sizes above below
  · intro one two mirrors spread spreadToo
    have alike (block : Place) : Queue.Alike ⟨block, maps one⟩ ⟨block, maps two⟩ :=
      ⟨rfl, mirrors.header_eq spread spreadToo⟩
    exact ⟨fun block => (alike block).enqueue, fun block => (alike block).dequeue,
      fun block => (alike block).advance_sender, fun block => (alike block).advance_receiver,
      mirrors.place_eq, fun offset here resolved => mirrors.shows spread spreadToo resolved⟩

/-- Two processes map the segments of two ranks the other way round, one of them twice. -/
def crossedCalls : List (Bool × Change) :=
  [(false, .register 7 ⟨4096, 4096, 0⟩), (true, .register 9 ⟨8192, 1024, 1⟩),
    (false, .register 9 ⟨64, 1024, 1⟩), (true, .register 7 ⟨128, 4096, 0⟩),
    (false, .unregister 7), (false, .register 7 ⟨65536, 4096, 0⟩)]

/-- What one of the two has mapped in the end. -/
def crossedMap (base other : Nat) : AddressMap :=
  ⟨7, [(7, ⟨base, 4096, 0⟩), (9, ⟨other, 1024, 1⟩)]⟩

theorem crossedMap_mirrors (base other base' other' : Nat) :
    (crossedMap base other).Mirrors (crossedMap base' other') := by
  intro rank
  simp only [find?, crossedMap, List.lookup_cons, List.lookup_nil]
  by_cases seven : (rank == 7) = true
  · rw [seven]
    rfl
  · rw [Bool.eq_false_iff.mpr seven]
    by_cases nine : (rank == 9) = true
    · rw [nine]
      rfl
    · rw [Bool.eq_false_iff.mpr nine]

theorem find?_crossedMap {base other : Nat} {rank : UInt32} {mapping : Mapping}
    (found : (crossedMap base other).find? rank = some mapping) :
    (rank = 7 ∧ mapping = ⟨base, 4096, 0⟩) ∨ (rank = 9 ∧ mapping = ⟨other, 1024, 1⟩) := by
  simp only [find?, crossedMap, List.lookup_cons, List.lookup_nil] at found
  split at found
  case h_1 same => exact .inl ⟨by simpa using same, (Option.some.inj found).symm⟩
  case h_2 =>
    split at found
    case h_1 same => exact .inr ⟨by simpa using same, (Option.some.inj found).symm⟩
    case h_2 => cases found

theorem crossedMap_spread {base other : Nat} (aligned : base % 64 = 0) (alignedToo : other % 64 = 0)
    (apart : base + 4096 ≤ other ∨ other + 1024 ≤ base) : (crossedMap base other).IsSpread where
  aligned found := by
    rcases find?_crossedMap found with ⟨_, rfl⟩ | ⟨_, rfl⟩
    · exact aligned
    · exact alignedToo
  apart found foundToo differ := by
    rcases find?_crossedMap found with ⟨rfl, rfl⟩ | ⟨rfl, rfl⟩ <;>
      rcases find?_crossedMap foundToo with ⟨rfl, rfl⟩ | ⟨rfl, rfl⟩
    · exact absurd rfl differ
    · exact apart
    · exact apart.symm
    · exact absurd rfl differ

/-- The two find the same byte at addresses of their own, and take the same from a queue. -/
theorem enterAll_translates_crossed :
    (∀ call ∈ crossedCalls, call.2.IsSound) ∧
      ∃ maps, enterAll (fun _ => 7) crossedCalls = .ok maps ∧
        (maps false).Mirrors (maps true) ∧ (maps false).IsSpread ∧ (maps true).IsSpread ∧
        (∃ offset found, (maps false).offsetFor 7 65600 = .ok offset ∧
          (maps true).address offset = .ok found ∧ found - 128 = 64) ∧
        ∀ block, Queue.dequeue ⟨block, maps false⟩ = Queue.dequeue ⟨block, maps true⟩ := by
  have proper : ∀ call ∈ crossedCalls, call.2.IsSound := by
    simp only [crossedCalls, List.forall_mem_cons, Change.IsSound]
    refine ⟨?_, ?_, ?_, ?_, trivial, ?_, by simp⟩ <;>
      exact ⟨⟨by decide, by decide⟩, by decide, by decide⟩
  obtain ⟨maps, done, _, _, _, distances, queues⟩ :=
    enterAll_translates (fun _ : Bool => 7) crossedCalls proper
  have ends (party : Bool) (map : AddressMap)
      (computed : (enterAll (fun _ : Bool => 7) crossedCalls).map (fun maps => maps party) =
        .ok map) : maps party = map := by
    rw [done] at computed
    exact Except.ok.inj computed
  have one := ends false (crossedMap 65536 64) rfl
  have two := ends true (crossedMap 128 8192) rfl
  have mirrors : (maps false).Mirrors (maps true) := by
    rw [one, two]
    exact crossedMap_mirrors _ _ _ _
  have spread : (maps false).IsSpread := by
    rw [one]
    exact crossedMap_spread (by decide) (by decide) (by decide)
  have spreadToo : (maps true).IsSpread := by
    rw [two]
    exact crossedMap_spread (by decide) (by decide) (by decide)
  obtain ⟨offset, found, away, back, _, distance⟩ := distances false true 7 ⟨65536, 4096, 0⟩
    ⟨128, 4096, 0⟩ (by rw [one]; rfl) (by rw [two]; rfl) rfl 65600 (by decide) (by decide)
  exact ⟨proper, maps, done, mirrors, spread, spreadToo, ⟨offset, found, away, back, distance⟩,
    (queues false true mirrors spread spreadToo).2.1⟩

end AddressMap

end RankMail

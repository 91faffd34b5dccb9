import RankMail.Proofs.Network.Attaching
import RankMail.Proofs.Segment.Publication

set_option autoImplicit false

/-! # What may be written where

A `Plot` is a segment that has been made, and a `Parcel` a slot that has been carved from one. The
`Ground` knows them all, which plot belongs to which rank at present, and what is mapped:

      0                44        128     144      256     264     384             cursor     size
      | words of header |         | queue |        | bell  |       | parcel | ...    |         |
        never written               knots                            knot at its start

The words that say what a segment is are never written again, because whatever is written goes to
the queue, to the doorbell or into a parcel. That it goes into a parcel is a matter of the offsets
that are found in queues. They lie in `knots`: the head and the tail of each queue and the link of
each parcel. A receiver comes only to offsets that are `Queued`, by following links from a head or a
tail, and each of them has to be that of a parcel.

`Ground.Sound` is that invariant. What is written is `Memory.Steady`; a change of the knots keeps
the invariant if it puts nothing into a knot but what is queued already, a parcel without a link, or
the mark `free` (`Sound.change`).
-/

namespace RankMail

/-- A segment that has been made: whose it is, where it lies and who made it. -/
structure Plot where
  rank : UInt32
  region : Nat
  size : Nat
  process : UInt32
deriving Repr, DecidableEq

/-- A slot that has been carved. -/
structure Parcel where
  region : Nat
  position : Nat
  capacity : Nat

/-- All segments that have been made, the one that each rank has at present, what is mapped, and all
slots that have been carved. -/
structure Ground where
  made : List Plot
  current : UInt32 → Option Plot
  mapped : List Segment
  parcels : List Parcel
  /-- Regions below this number are in memory. -/
  floor : Nat

def Plot.place (plot : Plot) : Place := ⟨plot.region, 0⟩

/-- What is made when a process makes a segment. -/
def Segment.plot (segment : Segment) (process : UInt32) : Plot :=
  ⟨segment.rank, segment.file.region, segment.size, process⟩

/-- The words of the segment that never change. -/
def Plot.Stands (plot : Plot) (memory : Memory) : Prop :=
  Segment.Identity memory plot.place plot.rank plot.size plot.process

namespace Parcel

/-- The place of the header, which begins with the link. -/
def place (parcel : Parcel) : Place := ⟨parcel.region, parcel.position⟩

def stop (parcel : Parcel) : Nat := parcel.position + headerSize + parcel.capacity

def Apart (parcel other : Parcel) : Prop := parcel.region = other.region →
  parcel.stop ≤ other.position ∨ other.stop ≤ parcel.position

theorem Apart.symm {parcel other : Parcel} (apart : parcel.Apart other) : other.Apart parcel :=
  fun same => (apart same.symm).symm

end Parcel

namespace Memory

variable {before after last : Memory} {touched : List (Place × Nat)}

def offsetAt (memory : Memory) (place : Place) : Offset := Offset.ofWord (memory.word 8 place)

theorem offsetAt_setWord (memory : Memory) (place : Place) (offset : Offset) :
    (memory.setWord 8 place offset.word).offsetAt place = offset := Chain.ofWord_setWord ..

/-- The link in a header that has been written. -/
theorem offsetAt_writeHeader (memory : Memory) (place : Place) (header : Header) :
    (memory.writeHeader place header).offsetAt place = header.next := by
  have link := memory.load_writeHeader place header (by decide :
    HeaderField.next.distance + HeaderField.next.width ≤ headerSize)
  have first : (header.bytes.drop HeaderField.next.distance).take HeaderField.next.width =
      LittleEndian.bytes 8 header.next.word := by
    have length : (LittleEndian.bytes 8 header.next.word).length = HeaderField.next.width := by
      rw [LittleEndian.length_bytes]
      rfl
    have drop : header.bytes.drop HeaderField.next.distance = header.bytes := List.drop_zero
    rw [drop, Header.bytes]
    simp only [List.append_assoc]
    rw [← length, List.take_left]
  have small : header.next.word < 256 ^ 8 := header.next.word_lt
  rw [first, LittleEndian.value_bytes, Nat.mod_eq_of_lt small] at link
  rw [offsetAt, ← Offset.ofWord_word header.next]
  exact congrArg Offset.ofWord link

/-- Where the words of a segment's header end. -/
def wordsEnd : Nat := 44

/-- The words of every header are as they were, and so is the length of every file. -/
structure Steady (before after : Memory) : Prop where
  words : ∀ region, after.read ⟨region, 0⟩ wordsEnd = before.read ⟨region, 0⟩ wordsEnd
  size : ∀ region, (after.region region).size = (before.region region).size
  fresh : before.fresh ≤ after.fresh

theorem Keeps.steady (keeps : Keeps touched before after)
    (behind : ∀ range ∈ touched, wordsEnd ≤ range.1.address) : before.Steady after where
  words region := keeps.read fun range inside _ => by
    have behind := behind range inside
    simp only [Nat.zero_add]
    exact .inl behind
  size := keeps.size
  fresh := keeps.fresh

theorem Steady.load (steady : before.Steady after) (region : Nat) {field : Field}
    (inside : field.distance + field.width ≤ wordsEnd) :
    after.load field ⟨region, 0⟩ = before.load field ⟨region, 0⟩ :=
  load_congr (steady.words region) inside

theorem Keeps.offsetAt (keeps : Keeps touched before after) {place : Place}
    (apart : ApartFrom place 8 touched) : after.offsetAt place = before.offsetAt place := by
  rw [Memory.offsetAt, word, keeps.read apart]
  rfl

end Memory

theorem Plot.Stands.congr {plot : Plot} {before after : Memory} (stands : plot.Stands before)
    (same : ∀ field ∈ [SegmentField.magic, SegmentField.version, SegmentField.state,
      SegmentField.rank, SegmentField.size, SegmentField.dataStart, SegmentField.owner],
      after.load field plot.place = before.load field plot.place) : plot.Stands after where
  magic := (same _ (by simp)).trans stands.magic
  version := (same _ (by simp)).trans stands.version
  state := (same _ (by simp)).trans stands.state
  rank := (same _ (by simp)).trans stands.rank
  size := (same _ (by simp)).trans stands.size
  dataStart := (same _ (by simp)).trans stands.dataStart
  owner := (same _ (by simp)).trans stands.owner

namespace Ground

variable {ground : Ground} {before after memory : Memory} {rank : UInt32} {plot : Plot}
  {offset target : Offset} {place : Place} {parcel : Parcel} {segment : Segment}
  {touched : List (Place × Nat)}

/-- A slot has been carved there. -/
def Has (ground : Ground) (region position capacity : Nat) : Prop :=
  ⟨region, position, capacity⟩ ∈ ground.parcels

/-- What may be found in a queue: if its rank has a segment at present, the offset is that of a slot
in it. Offsets of ranks that have never had a segment are not found, but for the mark `free`. -/
structure Admits (ground : Ground) (offset : Offset) : Prop where
  slot : ∀ plot, ground.current offset.rank = some plot →
    ∃ capacity, ground.Has plot.region offset.position.toNat capacity
  known : offset = .free ∨ ∃ plot ∈ ground.made, plot.rank = offset.rank

def headPlace (plot : Plot) : Place := ⟨plot.region, queueStart⟩

def tailPlace (plot : Plot) : Place := ⟨plot.region, queueStart + 8⟩

/-- The places at which offsets are kept. -/
inductive IsKnot (ground : Ground) : Place → Prop
  | head {rank : UInt32} {plot : Plot} (here : ground.current rank = some plot) :
      ground.IsKnot (headPlace plot)
  | tail {rank : UInt32} {plot : Plot} (here : ground.current rank = some plot) :
      ground.IsKnot (tailPlace plot)
  | link {parcel : Parcel} (carved : parcel ∈ ground.parcels) : ground.IsKnot parcel.place

/-- The offsets that a receiver may come to, in whichever queue. -/
inductive Queued (ground : Ground) (memory : Memory) : Offset → Prop
  | head {rank : UInt32} {plot : Plot} (here : ground.current rank = some plot) :
      ground.Queued memory (memory.offsetAt (headPlace plot))
  | tail {rank : UInt32} {plot : Plot} (here : ground.current rank = some plot) :
      ground.Queued memory (memory.offsetAt (tailPlace plot))
  | link {offset : Offset} {plot : Plot} (queued : ground.Queued memory offset)
      (here : ground.current offset.rank = some plot) :
      ground.Queued memory (memory.offsetAt ⟨plot.region, offset.position.toNat⟩)

/-- A collection of offsets that has all heads and tails in it, and with an offset that to which it
is linked, has all that are queued. -/
theorem Queued.within {Within : Offset → Prop} (queued : ground.Queued memory offset)
    (ends : ∀ {rank plot}, ground.current rank = some plot →
      Within (memory.offsetAt (headPlace plot)) ∧ Within (memory.offsetAt (tailPlace plot)))
    (links : ∀ {offset plot}, Within offset → ground.current offset.rank = some plot →
      Within (memory.offsetAt ⟨plot.region, offset.position.toNat⟩)) : Within offset := by
  induction queued with
  | head here => exact (ends here).1
  | tail here => exact (ends here).2
  | link _ here ih => exact links ih here

/-- What holds of the ground itself. -/
structure Proper (ground : Ground) : Prop where
  usable : ∀ plot ∈ ground.made,
    plot.rank.toNat ≤ maxRank ∧ arenaStart < plot.size ∧ plot.size ≤ maxSegmentSize
  current : ∀ {rank plot}, ground.current rank = some plot → plot ∈ ground.made ∧ plot.rank = rank
  charted : ∀ segment ∈ ground.mapped, ∃ plot, ground.current segment.rank = some plot ∧
    segment.file.region = plot.region ∧ segment.size = plot.size
  clear : ∀ one ∈ ground.mapped, ∀ two ∈ ground.mapped, one = two ∨ one.Clear two
  homes : ∀ parcel ∈ ground.parcels, arenaStart ≤ parcel.position ∧
    ∃ plot ∈ ground.made, plot.region = parcel.region
  apart : ∀ one ∈ ground.parcels, ∀ two ∈ ground.parcels, one = two ∨ one.Apart two

/-- The ground is as it should be, and so is what lies on it. -/
structure Sound (ground : Ground) (memory : Memory) : Prop extends ground.Proper where
  stands : ∀ plot ∈ ground.made, plot.Stands memory
  length : ∀ plot ∈ ground.made, (memory.region plot.region).size = plot.size
  known : ∀ plot ∈ ground.made, plot.region < memory.fresh
  floor : ground.floor ≤ memory.fresh
  cursor : ∀ plot ∈ ground.made, arenaStart ≤ memory.load SegmentField.cursor plot.place ∧
    memory.load SegmentField.cursor plot.place ≤ plot.size
  below : ∀ parcel ∈ ground.parcels,
    parcel.stop ≤ memory.load SegmentField.cursor ⟨parcel.region, 0⟩
  queued : ∀ {offset}, ground.Queued memory offset → ground.Admits offset

/-! ## Knots -/

theorem Proper.current_free (proper : ground.Proper) : ground.current Offset.free.rank = none := by
  cases found : ground.current Offset.free.rank with
  | none => rfl
  | some plot =>
      obtain ⟨inside, same⟩ := proper.current found
      have usable := (proper.usable plot inside).1
      rw [same] at usable
      exact absurd usable (by decide)

theorem Proper.admits_free (proper : ground.Proper) : ground.Admits .free where
  slot plot here := by
    rw [proper.current_free] at here
    cases here
  known := .inl rfl

/-- What may be found stays so while more is made and carved, and fewer ranks have a segment. -/
theorem Admits.mono {other : Ground} (admits : ground.Admits offset)
    (made : ground.made ⊆ other.made) (parcels : ground.parcels ⊆ other.parcels)
    (fewer : ∀ {plot}, other.current offset.rank = some plot →
      ground.current offset.rank = some plot) : other.Admits offset where
  slot plot here := (admits.slot plot (fewer here)).imp fun _ carved => parcels carved
  known := admits.known.imp_right fun ⟨plot, inside, same⟩ => ⟨plot, made inside, same⟩

/-- A knot is one of the words of a queue, or the link of a slot. -/
theorem IsKnot.low_or_link (knot : ground.IsKnot place) :
    (Memory.wordsEnd ≤ place.address ∧ place.address + 8 ≤ doorbellStart ∧
        (place.address = queueStart ∨ place.address = queueStart + 8)) ∨
      ∃ parcel ∈ ground.parcels, place = parcel.place := by
  cases knot with
  | head here =>
      exact .inl ⟨(by decide : Memory.wordsEnd ≤ queueStart),
        (by decide : queueStart + 8 ≤ doorbellStart), .inl rfl⟩
  | tail here =>
      exact .inl ⟨(by decide : Memory.wordsEnd ≤ queueStart + 8),
        (by decide : queueStart + 8 + 8 ≤ doorbellStart), .inr rfl⟩
  | link carved => exact .inr ⟨_, carved, rfl⟩

/-- A slot lies behind all control words. -/
theorem Proper.behind (proper : ground.Proper) (carved : parcel ∈ ground.parcels) :
    doorbellStart + 8 ≤ parcel.place.address ∧ Memory.wordsEnd ≤ parcel.place.address :=
  have high := (proper.homes parcel carved).1
  ⟨Nat.le_trans (by decide) high, Nat.le_trans (by decide) high⟩

/-- The links of two slots are apart, and each is apart from what else is in the other slot. -/
theorem Proper.split (proper : ground.Proper) {one two : Parcel} (first : one ∈ ground.parcels)
    (second : two ∈ ground.parcels) (differ : one ≠ two) : one.Apart two :=
  (proper.apart one first two second).resolve_left differ

theorem Proper.knot_behind (proper : ground.Proper) (knot : ground.IsKnot place) :
    Memory.wordsEnd ≤ place.address := by
  rcases knot.low_or_link with ⟨behind, _⟩ | ⟨parcel, carved, rfl⟩
  · exact behind
  · exact (proper.behind carved).2

theorem Proper.knot_made (proper : ground.Proper) (knot : ground.IsKnot place) :
    ∃ plot ∈ ground.made, plot.region = place.region := by
  cases knot with
  | head here => exact ⟨_, (proper.current here).1, rfl⟩
  | tail here => exact ⟨_, (proper.current here).1, rfl⟩
  | link carved => exact (proper.homes _ carved).2

theorem Proper.knots_apart (proper : ground.Proper) {one two : Place} (first : ground.IsKnot one)
    (second : ground.IsKnot two) (differ : one ≠ two) : Memory.Apart one 8 two 8 := by
  intro same
  have addresses : one.address ≠ two.address := fun equal => by
    obtain ⟨region, address⟩ := one
    obtain rfl : region = two.region := same
    obtain rfl : address = two.address := equal
    exact differ rfl
  have words : queueStart + 8 + 8 ≤ doorbellStart := by decide
  rcases first.low_or_link with ⟨_, lowOne, here⟩ | ⟨parcel, carved, rfl⟩ <;>
    rcases second.low_or_link with ⟨_, lowTwo, there⟩ | ⟨other, carvedToo, rfl⟩
  · omega
  · have high := (proper.behind carvedToo).1
    omega
  · have high := (proper.behind carved).1
    omega
  · have split := proper.split carved carvedToo (by rintro rfl; exact differ rfl) same
    simp only [Parcel.stop, headerSize] at split
    simp only [Parcel.place]
    omega

/-! ## Changes -/

/-- What may be put into a knot: the mark `free`, what is queued already, or a slot of which the
link is free. -/
def Joins (ground : Ground) (before after : Memory) (target : Offset) : Prop :=
  target = .free ∨ ground.Queued before target ∨
    ground.Admits target ∧ ∀ plot, ground.current target.rank = some plot →
      after.offsetAt ⟨plot.region, target.position.toNat⟩ = .free

/-- Behind the words of the headers anything may be written that leaves the knots alone, or puts
into them what may be put there. -/
theorem Sound.change (sound : ground.Sound before) (steady : before.Steady after)
    (joins : ground.Joins before after target)
    (knots : ∀ {place}, ground.IsKnot place → after.offsetAt place = before.offsetAt place ∨
      after.offsetAt place = target ∨ after.offsetAt place = .free) : ground.Sound after where
  toProper := sound.toProper
  stands plot inside := (sound.stands plot inside).congr fun field member => by
    refine steady.load plot.region ?_
    revert member
    decide +revert
  length plot inside := (steady.size plot.region).trans (sound.length plot inside)
  known plot inside := Nat.lt_of_lt_of_le (sound.known plot inside) steady.fresh
  floor := Nat.le_trans sound.floor steady.fresh
  cursor plot inside := by
    rw [Plot.place, steady.load plot.region (by decide)]
    exact sound.cursor plot inside
  below parcel carved := by
    rw [steady.load parcel.region (by decide)]
    exact sound.below parcel carved
  queued {offset} queued := by
    -- All that is queued now has been queued before, is the target, or leads nowhere.
    let Within : Offset → Prop := fun offset =>
      ground.Queued before offset ∨ offset = target ∨ offset = .free
    have tied : ∀ {place}, ground.IsKnot place → Within (before.offsetAt place) →
        Within (after.offsetAt place) := by
      intro place knot was
      rcases knots knot with same | same | same
      · exact same ▸ was
      · exact .inr (.inl same)
      · exact .inr (.inr same)
    have nowhere : ∀ {plot}, ground.current Offset.free.rank ≠ some plot := by
      intro plot there
      rw [sound.current_free] at there
      cases there
    have within : Within offset := by
      refine queued.within (fun here => ?_) fun {offset plot} within here => ?_
      · exact ⟨tied (.head here) (.inl (.head here)), tied (.tail here) (.inl (.tail here))⟩
      · have follow : ground.Queued before offset →
            Within (after.offsetAt ⟨plot.region, offset.position.toNat⟩) := by
          intro queued
          obtain ⟨capacity, carved⟩ := (sound.queued queued).slot _ here
          exact tied (.link carved) (.inl (.link queued here))
        rcases within with queued | rfl | rfl
        · exact follow queued
        · rcases joins with rfl | queued | ⟨_, loose⟩
          · exact absurd here nowhere
          · exact follow queued
          · exact .inr (.inr (loose _ here))
        · exact absurd here nowhere
    rcases within with queued | rfl | rfl
    · exact sound.queued queued
    · rcases joins with rfl | queued | ⟨admits, _⟩
      · exact sound.admits_free
      · exact sound.queued queued
      · exact admits
    · exact sound.admits_free

/-- What is written apart from the words of the headers and from the knots does no harm. -/
theorem Sound.quiet (sound : ground.Sound before) (keeps : Memory.Keeps touched before after)
    (behind : ∀ range ∈ touched, Memory.wordsEnd ≤ range.1.address)
    (apart : ∀ {place}, ground.IsKnot place → Memory.ApartFrom place 8 touched) :
    ground.Sound after :=
  sound.change (keeps.steady behind) (.inl rfl)
    fun knot => .inl (keeps.offsetAt (apart knot))

/-- What is written into one knot does not change another. -/
theorem Proper.offsetAt_other (proper : ground.Proper) {one two : Place} (first : ground.IsKnot one)
    (second : ground.IsKnot two) (differ : one ≠ two) (memory : Memory) (target : Offset) :
    (memory.setWord 8 two target.word).offsetAt one = memory.offsetAt one :=
  (memory.keeps_setWord 8 two target.word).offsetAt
    (by simpa using proper.knots_apart first second differ)

/-- An offset that may be put into a knot is put there, whatever has been there in between. -/
theorem Sound.tie (sound : ground.Sound memory) (knot : ground.IsKnot place)
    (keeps : memory.Keeps [(place, 8)] before)
    (joins : ground.Joins memory (before.setWord 8 place target.word) target) :
    ground.Sound (before.setWord 8 place target.word) := by
  have all := keeps.trans (before.keeps_setWord 8 place target.word)
  refine sound.change (all.steady ?_) joins fun {other} there => ?_
  · simpa using sound.knot_behind knot
  · by_cases same : other = place
    · exact .inr (.inl (same ▸ before.offsetAt_setWord place target))
    · refine .inl (all.offsetAt ?_)
      simpa using sound.knots_apart there knot same

theorem Sound.untie (sound : ground.Sound memory) (knot : ground.IsKnot place) :
    ground.Sound (memory.setWord 8 place Offset.free.word) :=
  sound.tie knot (.refl ..) (.inl rfl)

/-- A range within a slot, behind its link, is apart from all knots. -/
theorem Proper.apart_inside (proper : ground.Proper) (carved : parcel ∈ ground.parcels)
    {start count : Nat} (above : parcel.position + 8 ≤ start) (within : start + count ≤ parcel.stop)
    (knot : ground.IsKnot place) : Memory.Apart place 8 ⟨parcel.region, start⟩ count := by
  intro same
  rcases knot.low_or_link with ⟨_, low, _⟩ | ⟨other, carvedToo, rfl⟩
  · have high := (proper.behind carved).1
    simp only [Parcel.place] at high ⊢
    omega
  · simp only [Parcel.place] at same ⊢
    by_cases equal : other = parcel
    · subst equal
      exact .inl above
    · have split := proper.split carvedToo carved equal same
      simp only [Parcel.stop, headerSize] at split within
      omega

/-- Into a slot anything may be written behind its link. -/
theorem Sound.fill (sound : ground.Sound before) (carved : parcel ∈ ground.parcels)
    (keeps : Memory.Keeps touched before after)
    (inside : ∀ range ∈ touched, range.1.region = parcel.region ∧
      parcel.position + 8 ≤ range.1.address ∧ range.1.address + range.2 ≤ parcel.stop) :
    ground.Sound after := by
  refine sound.quiet keeps (fun range member => ?_) fun knot range member => ?_
  · have low : Memory.wordsEnd ≤ arenaStart := by decide
    have high := (sound.homes parcel carved).1
    have above := (inside range member).2.1
    omega
  · obtain ⟨region, above, within⟩ := inside range member
    obtain ⟨⟨number, start⟩, count⟩ := range
    obtain rfl : number = parcel.region := region
    exact sound.apart_inside carved above within knot

theorem Sound.bell (sound : ground.Sound memory) (segment : Segment) (field : Field)
    (inside : field.distance + field.width ≤ 8) (number : Nat) :
    ground.Sound (memory.store field segment.doorbellBlock number) := by
  refine sound.quiet (memory.keeps_store ..) ?_ fun knot => ?_
  · have behind : Memory.wordsEnd ≤ doorbellStart := by decide
    simp only [List.mem_singleton, forall_eq, Segment.doorbellBlock, Segment.placeAt, Place.shift]
    omega
  · simp only [Memory.apartFrom_cons, Memory.apartFrom_nil, and_true]
    intro _
    simp only [Segment.doorbellBlock, Segment.placeAt, Place.shift]
    rcases knot.low_or_link with ⟨_, low, _⟩ | ⟨parcel, carved, rfl⟩
    · omega
    · have high := (sound.behind carved).1
      omega

/-- The header of a slot may be written anew, with a link that is free. -/
theorem Sound.stamp (sound : ground.Sound memory) (carved : parcel ∈ ground.parcels)
    {header : Header} (loose : header.next = .free) :
    ground.Sound (memory.writeHeader parcel.place header) := by
  have keeps := memory.keeps_writeHeader parcel.place header
  refine sound.change (keeps.steady ?_) (.inl rfl) fun {other} there => ?_
  · simpa using sound.knot_behind (.link carved)
  · by_cases same : other = parcel.place
    · subst same
      refine .inr (.inr ?_)
      rw [memory.offsetAt_writeHeader, loose]
    · refine .inl (keeps.offsetAt ?_)
      simp only [Memory.apartFrom_cons, Memory.apartFrom_nil, and_true]
      intro region
      rcases there.low_or_link with ⟨_, low, _⟩ | ⟨two, carvedToo, rfl⟩
      · have high := (sound.behind carved).1
        omega
      · have split := sound.split carvedToo carved (by rintro rfl; exact same rfl) region
        simp only [Parcel.stop, headerSize] at split
        simp only [Parcel.place, headerSize]
        omega

end Ground

end RankMail

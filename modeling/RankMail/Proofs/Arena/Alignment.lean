import RankMail.Proofs.Address.Translation
import RankMail.Proofs.Arena.Exhaustion

set_option autoImplicit false

/-! # Where headers come to lie

`AddressMap.resolve` refuses a header that does not lie at a multiple of 64, and then its fragment
cannot be appended to any queue. Nobody looks at that when a slot is carved: the header lies where
the cursor stood. The lengths of slots are filled up to whole alignments, but a plain range is as
long as it was asked for:

    384        416              544        576
     | 32 bytes | slot           | 32 bytes | slot
                 not aligned                 aligned

Calls are made here one after another, each as a whole, by any number of arenas and by whoever
claims plain ranges. What decides is how many bytes they have been granted as plain ranges
(`Quarry.Level`): one call keeps that (`Level.perform_meets`), and so do all of them
(`Level.performAll_meets`).
-/

namespace RankMail

/-! ## Appending a fragment -/

namespace Queue

variable {queue : Queue} {offset : Offset} {place : Place} {cause : Abort} {memory : Memory}

/-- The tail of a queue is free, or another fragment's whose header is found. -/
def IsOpen (queue : Queue) (offset : Offset) (memory : Memory) : Prop :=
  let tail := Offset.ofWord (memory.load QueueField.tail queue.block)
  tail = .free ∨ tail ≠ offset ∧ ∃ place, queue.addresses.header tail = .ok place

theorem setLink_of_header (located : queue.addresses.header offset = .ok place) (target : Offset)
    (memory : Memory) :
    queue.setLink offset target memory =
      .done () (memory.store HeaderField.next place target.word) := by
  have found : queue.header offset memory = .done place memory := by
    rw [Queue.header, located]
    rfl
  rw [Queue.setLink, Action.bind_done found]
  rfl

/-- A fragment whose header is not found is not appended. -/
theorem enqueue_of_error (refused : queue.addresses.resolve offset = .error cause)
    (memory : Memory) : queue.enqueue offset memory = .aborted cause := by
  have missing : queue.header offset memory = .aborted cause := by
    rw [Queue.header, AddressMap.header, refused]
    rfl
  have unlinked : queue.setLink offset .free memory = .aborted cause := by
    rw [Queue.setLink, Action.bind_apply, missing]
  rw [enqueue, Action.bind_apply, unlinked]

/-- A fragment whose header is found, away from the words of an open queue, is appended. -/
theorem enqueue_of_header (located : queue.addresses.header offset = .ok place)
    (proper : offset ≠ .free)
    (apart : Memory.Apart (queue.block.shift QueueField.tail.distance) QueueField.tail.width
      (place.shift HeaderField.next.distance) HeaderField.next.width)
    (isOpen : queue.IsOpen offset memory) :
    ∃ after, queue.enqueue offset memory = .done () after := by
  -- Unlinking the fragment does not touch the tail, so the one from before is found.
  have exchanged : queue.exchangeTail offset
      (memory.store HeaderField.next place Offset.free.word) =
        .done (Offset.ofWord (memory.load QueueField.tail queue.block))
          ((memory.store HeaderField.next place Offset.free.word).store QueueField.tail queue.block
            offset.word) := by
    rw [exchangeTail, Memory.load_store_apart apart]
  rw [enqueue, Action.bind_done (setLink_of_header located .free memory),
    Action.bind_done exchanged]
  rcases isOpen with free | ⟨other, there, found⟩
  · rw [free, if_neg proper.symm]
    exact ⟨_, rfl⟩
  · rw [if_neg other, attach]
    split
    · exact ⟨_, rfl⟩
    · exact ⟨_, setLink_of_header found offset _⟩

end Queue

/-! ## Fragments that can be appended -/

/-- A process has entered a mapping of a segment that begins at an aligned address. -/
structure AddressMap.Enters (map : AddressMap) (mapping : Segment) : Prop where
  sound : map.IsSound
  found : map.find? mapping.rank = some mapping.mapping
  aligned : mapping.file.base % headerAlignment = 0

theorem AddressMap.IsSound.enters {map : AddressMap} {mapping : Segment} (sound : map.IsSound)
    (usable : IsUsable mapping.rank mapping.mapping)
    (aligned : mapping.file.base % headerAlignment = 0) :
    ∃ after, map.register mapping.rank mapping.mapping = .ok after ∧ after.Enters mapping := by
  have proper : (Change.register mapping.rank mapping.mapping).IsSound := usable
  obtain ⟨after, registered, soundAfter⟩ := sound.change proper
  refine ⟨after, registered, soundAfter, ?_, aligned⟩
  rw [find?_register registered, if_pos rfl]

namespace Fragment

variable {fragment : Fragment} {map : AddressMap} {mapping : Segment}

/-- Every process that has mapped the segment finds the header through its offset, and can append
the fragment to every open queue. -/
def IsSendable (fragment : Fragment) : Prop :=
  ∀ {map : AddressMap} {mapping : Segment}, map.Enters mapping →
    mapping.SameFile fragment.segment → ∃ offset,
      map.offsetFor mapping.rank (mapping.addressAt fragment.position) = .ok offset ∧
      map.resolve offset = .ok (mapping.addressAt fragment.position) ∧
      ∀ (target : Segment) (memory : Memory), (target.queue map).IsOpen offset memory →
        ∃ after, (target.queue map).enqueue offset memory = .done () after

/-- No process that has mapped the segment accepts the offset of the header, and every one that
appends the fragment to a queue aborts. -/
def IsDisplaced (fragment : Fragment) : Prop :=
  ∀ {map : AddressMap} {mapping : Segment}, map.Enters mapping →
    mapping.SameFile fragment.segment → ∃ offset,
      map.offsetFor mapping.rank (mapping.addressAt fragment.position) = .ok offset ∧
      map.resolve offset = .error (.misaligned offset) ∧
      ∀ (target : Segment) (memory : Memory),
        (target.queue map).enqueue offset memory = .aborted (.misaligned offset)

/-- The header of a fragment lies in the arena of its segment. -/
structure IsWithin (fragment : Fragment) : Prop where
  above : arenaStart ≤ fragment.position
  below : fragment.position + headerSize ≤ fragment.segment.size

theorem IsWithin.offsetFor_eq (within : fragment.IsWithin) (enters : map.Enters mapping)
    (same : mapping.SameFile fragment.segment) :
    map.offsetFor mapping.rank (mapping.addressAt fragment.position) =
        .ok ⟨mapping.rank, UInt32.ofNat fragment.position⟩ ∧
      (UInt32.ofNat fragment.position).toNat = fragment.position ∧
      fragment.position + headerSize ≤ mapping.mapping.size := by
  have room : fragment.position + headerSize ≤ mapping.file.size :=
    Nat.le_trans within.below (Nat.le_of_eq same.size.symm)
  have inside : fragment.position < mapping.file.size := by
    simp only [headerSize] at room
    omega
  have fits := (enters.sound _ _ enters.found).toIsExpressible
  refine ⟨?_, fits.toNat_position inside, room⟩
  have offset := AddressMap.offsetFor_eq enters.found fits
    (show mapping.file.base ≤ mapping.addressAt fragment.position from Nat.le_add_right ..)
    (Nat.add_lt_add_left inside _)
  rwa [Segment.addressAt, Segment.mapping, Nat.add_sub_cancel_left] at offset

theorem IsWithin.isSendable (within : fragment.IsWithin)
    (aligned : fragment.position % headerAlignment = 0) : fragment.IsSendable := by
  intro map mapping enters same
  obtain ⟨offset, word, room⟩ := within.offsetFor_eq enters same
  have proper : (⟨mapping.rank, UInt32.ofNat fragment.position⟩ : Offset) ≠ .free :=
    Offset.ne_free_of_rank (enters.sound _ _ enters.found).rank
  obtain ⟨resolved, located⟩ := Site.resolve_of_mapping proper enters.found
    (word.symm ▸ room) (word.symm ▸ aligned) enters.aligned
  rw [word] at resolved located
  refine ⟨_, offset, resolved, fun target memory isOpen => ?_⟩
  have above := within.above
  refine Queue.enqueue_of_header located proper ?_ isOpen
  simp only [Memory.Apart, Segment.queue, Segment.queueBlock, Segment.placeAt, Place.shift,
    QueueField.tail, HeaderField.next, queueStart]
  simp only [arenaStart] at above
  omega

theorem IsWithin.isDisplaced (within : fragment.IsWithin)
    (odd : fragment.position % headerAlignment ≠ 0) : fragment.IsDisplaced := by
  intro map mapping enters same
  obtain ⟨offset, word, room⟩ := within.offsetFor_eq enters same
  have proper : ¬(⟨mapping.rank, UInt32.ofNat fragment.position⟩ : Offset).isFree = true :=
    fun free => Offset.ne_free_of_rank (enters.sound _ _ enters.found).rank
      (Offset.isFree_iff.mp free)
  have aligned := enters.aligned
  have refused : map.resolve ⟨mapping.rank, UInt32.ofNat fragment.position⟩ =
      .error (.misaligned ⟨mapping.rank, UInt32.ofNat fragment.position⟩) := by
    rw [AddressMap.resolve_eq enters.found, word, if_neg (Nat.not_lt.mpr room), if_neg proper,
      if_pos]
    simp only [Segment.mapping, headerAlignment] at aligned odd ⊢
    omega
  exact ⟨_, offset, refused, fun target memory => Queue.enqueue_of_error refused memory⟩

end Fragment

/-! ## Arenas -/

namespace Arena

variable {arena : Arena} {memory after : Memory}

theorem Apt.advance (apt : arena.Apt memory)
    (forward : arena.segment.cursor memory ≤ arena.segment.cursor after)
    (inside : arena.segment.cursor after ≤ arena.segment.size) : arena.Apt after :=
  ⟨apt.small, apt.allowed, Nat.le_trans apt.above forward, inside⟩

theorem Apt.slotLength_whole (apt : arena.Apt memory) (sizeClass : SizeClass) :
    arena.slotLength sizeClass % headerAlignment = 0 := by
  obtain ⟨size, sized, whole, _⟩ := slotSize_eq (apt.allowed sizeClass)
  rwa [slotLength, sized]

end Arena

/-! ## Calls -/

namespace Quarry

/-- A carver with nothing claimed carves a slot, with nobody else in between. -/
def carve (name : Nat) (sizeClass : SizeClass) : Action Quarry Unit := do
  match (← .get).carvers name with
  | some ⟨arena, none⟩ => do
      let fragment ← asArena name arena (Arena.carve sizeClass)
      .modify fun quarry => { quarry with
        fragments := fragment :: quarry.fragments
        granted := fragment.range :: quarry.granted }
  | _ => pure ()

/-- What is called for: a new arena, a plain range, or a slot. A call is made as a whole, other than
a `Move`, and a plain range may have any length. -/
inductive Call where
  | join (name : Nat) (mapping : Segment) (capacities : Capacities) (rank : UInt32)
  | reserve (mapping : Segment) (length : Nat)
  | carve (name : Nat) (sizeClass : SizeClass)
deriving Repr, DecidableEq

namespace Call

/-- Makes a call, which may fail, and tells how many bytes it has been granted as a plain range. -/
def perform : Call → Action Quarry Nat
  | join name mapping capacities rank => do
      let _ ← Action.attempt (Quarry.join name mapping capacities rank)
      pure 0
  | reserve mapping length => do
      match ← Quarry.reserve mapping length with
      | some _ => pure length
      | none => pure 0
  | carve name sizeClass => do
      let _ ← Action.attempt (Quarry.carve name sizeClass)
      pure 0

/-- Makes calls one after another, and tells how many bytes they have been granted as plain
ranges. -/
def performAll : List Call → Action Quarry Nat
  | [] => pure 0
  | call :: rest => do
      let length ← call.perform
      let more ← performAll rest
      pure (length + more)

def Concerns (segment : Segment) : Call → Prop
  | join _ mapping _ _ => mapping.SameFile segment
  | reserve mapping _ => mapping.SameFile segment
  | carve _ _ => True

end Call

/-! ## What the calls keep -/

variable {segment mapping : Segment} {quarry after : Quarry} {plain length : Nat} {name : Nat}
  {arena : Arena} {sizeClass : SizeClass}

/-- Between two calls a carver has nothing claimed, and it can carve on. -/
structure Rests (carver : Carver) (segment : Segment) (memory : Memory) : Prop where
  idle : carver.claimed = none
  mapping : carver.arena.segment.SameFile segment
  apt : carver.arena.Apt memory

/-- The cursor is as far from a whole alignment as all plain ranges end to end, and all carvers can
carve on. -/
structure Level (segment : Segment) (plain : Nat) (quarry : Quarry) : Prop where
  small : segment.size ≤ maxSegmentSize
  above : arenaStart ≤ segment.cursor quarry.memory
  below : segment.cursor quarry.memory ≤ segment.size
  distance : segment.cursor quarry.memory % headerAlignment = plain % headerAlignment
  rests : ∀ {name carver}, quarry.carvers name = some carver →
    Rests carver segment quarry.memory

namespace Level

theorem congr (level : Level segment plain quarry) (memory : after.memory = quarry.memory)
    (carvers : after.carvers = quarry.carvers) : Level segment plain after where
  small := level.small
  above := memory ▸ level.above
  below := memory ▸ level.below
  distance := memory ▸ level.distance
  rests found := memory ▸ level.rests (carvers ▸ found)

theorem advance (level : Level segment plain quarry) {memory : Memory}
    (cursor : segment.cursor memory = segment.cursor quarry.memory + length)
    (inside : segment.cursor quarry.memory + length ≤ segment.size) :
    Level segment (plain + length) { quarry with memory } where
  small := level.small
  above := by
    have above := level.above
    show arenaStart ≤ segment.cursor memory
    omega
  below := by
    show segment.cursor memory ≤ segment.size
    omega
  distance := by
    have distance := level.distance
    show segment.cursor memory % headerAlignment = _
    rw [cursor]
    simp only [headerAlignment] at distance ⊢
    omega
  rests {name carver} found := by
    obtain ⟨idle, same, apt⟩ := level.rests found
    refine ⟨idle, same, apt.advance ?_ ?_⟩
    · rw [same.cursor, same.cursor, cursor]
      exact Nat.le_add_right ..
    · rw [same.cursor, cursor]
      exact Nat.le_trans inside (Nat.le_of_eq same.size.symm)

theorem drop (level : Level segment (plain + length) quarry)
    (whole : length % headerAlignment = 0) : Level segment plain quarry :=
  { level with
    distance := by
      have distance := level.distance
      simp only [headerAlignment] at distance whole ⊢
      omega }

theorem keep (level : Level segment plain quarry) {carver : Carver}
    (rests : Rests carver segment quarry.memory) :
    Level segment plain (quarry.keep name carver) :=
  { level with
    rests := fun found => by
      rw [carvers_keep] at found
      split at found
      · exact Option.some.inj found ▸ rests
      · exact level.rests found }

theorem start {directory : String} {rank : UInt32} {size : Nat} {removesFile : Bool}
    {world last : World}
    (created : Segment.create directory rank size removesFile world = .done segment last) :
    Level segment 0 (.start last.memory) := by
  have sound := sound_start created
  have cursor : segment.cursor (Quarry.start last.memory).memory = arenaStart := sound.cursor
  have below : arenaStart ≤ segment.size := sound.below
  exact
    { small := sound.small
      above := Nat.le_of_eq cursor.symm
      below := cursor ▸ below
      distance := by
        rw [cursor]
        decide
      rests := fun found => by cases found }

theorem join_meets (level : Level segment plain quarry) (same : mapping.SameFile segment)
    (name : Nat) (capacities : Capacities) (rank : UInt32) :
    (join name mapping capacities rank quarry).Meets False fun _ after =>
      Level segment plain after := by
  rw [join]
  cases made : Arena.ofSegment mapping capacities rank with
  | error fault => exact level
  | ok arena =>
      obtain ⟨valid, rfl⟩ := Arena.ofSegment_ok made
      refine level.keep ⟨rfl, same, ?_, Capacities.le_maxCapacity valid, ?_, ?_⟩
      · exact Nat.le_trans (Nat.le_of_eq same.size) level.small
      · exact (same.cursor quarry.memory).symm ▸ level.above
      · exact Nat.le_trans (Nat.le_of_eq (same.cursor quarry.memory))
          (Nat.le_trans level.below (Nat.le_of_eq same.size.symm))

theorem reserve_meets (level : Level segment plain quarry) (same : mapping.SameFile segment)
    (length : Nat) :
    (reserve mapping length quarry).Meets False fun result after =>
      ∃ start, result = .ok start ∧
        Level segment (plain + if start.isSome then length else 0) after := by
  have cursor := same.cursor quarry.memory
  by_cases fits : mapping.cursor quarry.memory + length < 2 ^ 64 ∧
      mapping.cursor quarry.memory + length ≤ mapping.size
  · have moved : segment.cursor (quarry.memory.store SegmentField.cursor mapping.place
        (mapping.cursor quarry.memory + length)) = segment.cursor quarry.memory + length := by
      rw [← same.cursor, mapping.cursor_store quarry.memory fits.1, cursor]
    have inside : segment.cursor quarry.memory + length ≤ segment.size :=
      cursor ▸ Nat.le_trans fits.2 (Nat.le_of_eq same.size)
    refine Action.meets_bind (Action.meets_within.mpr ?_)
    rw [Segment.reserve_fits fits]
    exact ⟨_, rfl, (level.advance moved inside).congr rfl rfl⟩
  · refine Action.meets_bind (Action.meets_within.mpr ?_)
    rw [Segment.reserve_refused fits]
    exact ⟨none, rfl, level⟩

theorem further (level : Level segment plain quarry) (name : Nat)
    (apt : arena.Apt quarry.memory) (same : arena.segment.SameFile segment)
    (room : 0 < arena.available quarry.memory sizeClass) :
    Level segment plain (quarry.left name (Arena.further sizeClass (quarry.scene arena))) := by
  have moved := @Arena.Apt.cursor_further (quarry.scene arena) sizeClass apt room
  have stays := @Arena.Apt.stays (quarry.scene arena) sizeClass apt room
  have fits := apt.available_pos_iff.mp room
  have advanced : Level segment (plain + arena.slotLength sizeClass)
      { quarry with memory := (Arena.further sizeClass (quarry.scene arena)).memory } := by
    refine level.advance ?_ ?_
    · rw [← same.cursor, ← same.cursor]
      exact moved
    · rw [← same.cursor]
      exact Nat.le_trans fits (Nat.le_of_eq same.size)
  have rests : Rests ⟨(Arena.further sizeClass (quarry.scene arena)).actor, none⟩ segment
      (Arena.further sizeClass (quarry.scene arena)).memory := ⟨rfl, same, stays⟩
  exact ((advanced.drop (apt.slotLength_whole sizeClass)).keep rests).congr rfl rfl

/-- The next slot of an arena begins at the cursor, if there is room for it. -/
theorem slot_meets (level : Level segment plain quarry) {carver : Carver}
    (found : quarry.carvers name = some carver) (sizeClass : SizeClass) :
    (Arena.carve sizeClass (quarry.scene carver.arena)).Meets False fun result scene =>
      Level segment plain (quarry.left name scene) ∧
        match result with
        | .ok fragment =>
            carver.arena.slotLength sizeClass ≤ carver.arena.segment.remaining quarry.memory ∧
              fragment.IsBlank carver.arena.rank scene.memory ∧ fragment.IsWithin ∧
              fragment.position % headerAlignment = plain % headerAlignment
        | .error fault => fault = .exhausted sizeClass ∧
            carver.arena.segment.remaining quarry.memory < carver.arena.slotLength sizeClass := by
  obtain ⟨_, same, apt⟩ := level.rests found
  have cursor := same.cursor quarry.memory
  rcases Nat.eq_zero_or_pos (carver.arena.available quarry.memory sizeClass) with full | room
  · rw [@Arena.Apt.carve_of_none (quarry.scene carver.arena) sizeClass apt full]
    have rests : Rests ⟨carver.arena, none⟩ segment quarry.memory := ⟨rfl, same, apt⟩
    refine ⟨(level.keep rests).congr rfl rfl, rfl, ?_⟩
    rw [Arena.available_eq, Nat.div_eq_zero_iff] at full
    have positive := apt.slotLength_pos sizeClass
    omega
  · have fits := apt.available_pos_iff.mp room
    have enough := (apt.sized sizeClass).2
    rw [@Arena.Apt.carve_of_room (quarry.scene carver.arena) sizeClass apt room]
    refine ⟨level.further name apt same room, ?_,
      Arena.blank_further (quarry.scene carver.arena) sizeClass, ⟨?_, ?_⟩, ?_⟩
    · rw [Segment.remaining]
      omega
    · exact Nat.le_trans level.above (Nat.le_of_eq cursor.symm)
    · show carver.arena.segment.cursor quarry.memory + headerSize ≤ carver.arena.segment.size
      omega
    · exact (congrArg (· % headerAlignment) cursor).trans level.distance

theorem carve_meets (level : Level segment plain quarry) (name : Nat) (sizeClass : SizeClass) :
    (carve name sizeClass quarry).Meets False fun _ after => Level segment plain after := by
  rw [carve, Action.bind_done (Action.get_apply _)]
  cases found : quarry.carvers name with
  | none => exact level
  | some carver =>
      obtain ⟨arena, busy⟩ := carver
      obtain rfl : busy = none := (level.rests found).idle
      have ends := level.slot_meets found sizeClass
      refine Action.meets_bind (Action.meets_within.mpr (ends.mono ?_))
      rintro (fault | fragment) scene ⟨kept, _⟩
      · exact kept
      · exact kept.congr rfl rfl

/-- One call leaves the cursor as far from a whole alignment as the plain ranges, with its own. -/
theorem perform_meets (level : Level segment plain quarry) {call : Call}
    (concerns : call.Concerns segment) :
    (call.perform quarry).Meets False fun result after =>
      ∃ length, result = .ok length ∧ Level segment (plain + length) after := by
  cases call with
  | join name mapping capacities rank =>
      refine Action.meets_bind (Action.meets_attempt ?_)
      exact (level.join_meets concerns name capacities rank).mono fun _ _ kept => ⟨0, rfl, kept⟩
  | reserve mapping length =>
      refine Action.meets_bind ((level.reserve_meets concerns length).mono ?_)
      rintro result after ⟨_ | start, rfl, kept⟩
      · exact ⟨0, rfl, kept⟩
      · exact ⟨length, rfl, kept⟩
  | carve name sizeClass =>
      refine Action.meets_bind (Action.meets_attempt ?_)
      exact (level.carve_meets name sizeClass).mono fun _ _ kept => ⟨0, rfl, kept⟩

theorem performAll_meets (level : Level segment plain quarry) {calls : List Call}
    (concern : ∀ call ∈ calls, call.Concerns segment) :
    (Call.performAll calls quarry).Meets False fun result after =>
      ∃ length, result = .ok length ∧ Level segment (plain + length) after := by
  -- What has been granted so far is part of the number that the rest of the calls begin with.
  induction calls generalizing plain quarry with
  | nil => exact ⟨0, rfl, level⟩
  | cons call rest ih =>
      obtain ⟨concerns, others⟩ := List.forall_mem_cons.mp concern
      refine Action.meets_bind ((level.perform_meets concerns).mono ?_)
      rintro result between ⟨length, rfl, kept⟩
      refine Action.meets_bind ((ih kept others).mono ?_)
      rintro result after ⟨more, rfl, kept⟩
      exact ⟨length + more, rfl, Nat.add_assoc plain length more ▸ kept⟩

end Level

/-- **A header is aligned exactly if the plain ranges before it make up whole alignments.** Whatever
calls are made on a new segment, plain ranges of any length among them, they come to an end. After
them the next slot of an arena is carved unless there is too little left, and its header lies as far
from a whole alignment as all plain ranges end to end. If they make up whole alignments, every
process that has mapped the segment finds the header through its offset and can append the fragment;
if not, every process that tries aborts. -/
theorem plain_ranges_decide_alignment {directory : String} {rank : UInt32} {size : Nat}
    {removesFile : Bool} {world last : World}
    (created : Segment.create directory rank size removesFile world = .done segment last)
    {calls : List Call} (concern : ∀ call ∈ calls, call.Concerns segment) :
    ∃ plain quarry, Call.performAll calls (.start last.memory) = .done plain quarry ∧
      ∀ name carver, quarry.carvers name = some carver → ∀ sizeClass,
        (Arena.carve sizeClass (quarry.scene carver.arena)).Meets False fun result scene =>
          match result with
          | .ok fragment =>
              carver.arena.slotLength sizeClass ≤ carver.arena.segment.remaining quarry.memory ∧
                fragment.IsBlank carver.arena.rank scene.memory ∧
                fragment.position % headerAlignment = plain % headerAlignment ∧
                (plain % headerAlignment = 0 → fragment.IsSendable) ∧
                (plain % headerAlignment ≠ 0 → fragment.IsDisplaced)
          | .error fault => fault = .exhausted sizeClass ∧
              carver.arena.segment.remaining quarry.memory <
                carver.arena.slotLength sizeClass := by
  obtain ⟨plain, quarry, called, level⟩ := ((Level.start created).performAll_meets concern).done
  rw [Nat.zero_add] at level
  refine ⟨plain, quarry, called, fun name carver found sizeClass =>
    (level.slot_meets found sizeClass).mono ?_⟩
  rintro (fault | fragment) scene ⟨_, carved⟩
  · exact carved
  · obtain ⟨room, blank, within, distance⟩ := carved
    exact ⟨room, blank, distance, fun whole => within.isSendable (distance.trans whole),
      fun odd => within.isDisplaced fun aligned => odd (distance.symm.trans aligned)⟩

/-! ## Short ranges -/

/-- A new segment, with the world that it has been made in. -/
def untouched : Segment × World :=
  (Segment.create "/" 0 2048 false (.start 7 [])).done?.get (by decide +kernel)

theorem untouched_created :
    Segment.create "/" 0 2048 false (.start 7 []) = .done untouched.1 untouched.2 :=
  Outcome.eq_of_done? (Option.some_get _).symm

theorem enters_untouched : ∃ map : AddressMap, map.Enters untouched.1 := by
  have facts : untouched.1.rank.toNat ≤ maxRank ∧ untouched.1.size ≤ maxSegmentSize ∧
      untouched.1.file.base ≠ 0 ∧ untouched.1.file.base + untouched.1.size ≤ 2 ^ 64 ∧
      untouched.1.file.base % headerAlignment = 0 := by
    decide +kernel
  obtain ⟨rank, small, somewhere, ends, base⟩ := facts
  obtain ⟨map, _, enters⟩ :=
    (AddressMap.isSound_empty 0).enters ⟨⟨rank, small⟩, somewhere, ends⟩ base
  exact ⟨map, enters⟩

/-- An arena, a plain range of 32 bytes, a slot, and another such range. -/
def balanced : List Call :=
  [.join 0 untouched.1 ⟨64, 128, 256⟩ 0, .reserve untouched.1 32, .carve 0 .user,
    .reserve untouched.1 32]

/-- Behind two ranges of 32 bytes, with a slot between them, a header is aligned again, and its
fragment can be appended to the queue of the segment, which is empty. -/
theorem plain_ranges_decide_alignment_balanced :
    Segment.create "/" 0 2048 false (.start 7 []) = .done untouched.1 untouched.2 ∧
    (∀ call ∈ balanced, call.Concerns untouched.1) ∧
    ∃ quarry carver fragment scene map offset after,
      Call.performAll balanced (.start untouched.2.memory) = .done 64 quarry ∧
      quarry.carvers 0 = some carver ∧
      Arena.carve .user (quarry.scene carver.arena) = .done fragment scene ∧
      fragment.position = 576 ∧ map.Enters untouched.1 ∧
      map.resolve offset = .ok (untouched.1.addressAt 576) ∧
      (untouched.1.queue map).enqueue offset scene.memory = .done () after := by
  have concern : ∀ call ∈ balanced, call.Concerns untouched.1 := by
    simp [balanced, Call.Concerns, Segment.SameFile.refl]
  have facts : ∃ last ∈ (Call.performAll balanced (.start untouched.2.memory)).done?,
      last.1 = 64 ∧ ∃ carver ∈ last.2.carvers 0,
        ∃ carved ∈ (Arena.carve .user (last.2.scene carver.arena)).done?,
          carved.1.position = 576 ∧ carved.1.segment = untouched.1 ∧
            Offset.ofWord (carved.2.memory.load QueueField.tail untouched.1.queueBlock) =
              .free := by
    decide +kernel
  obtain ⟨⟨plain, quarry⟩, last, rfl, carver, found, ⟨fragment, scene⟩, carved, position, same,
    free⟩ := facts
  obtain ⟨map, enters⟩ := enters_untouched
  obtain ⟨_, _, again, decides⟩ := plain_ranges_decide_alignment untouched_created concern
  obtain ⟨rfl, rfl⟩ := Outcome.done.inj ((Outcome.eq_of_done? last).symm.trans again)
  have next := decides 0 carver found .user
  rw [Outcome.eq_of_done? carved] at next
  obtain ⟨_, _, _, sendable, _⟩ := next
  have sameFile : untouched.1.SameFile fragment.segment := by
    rw [same]
    exact .refl _
  have whole : 64 % headerAlignment = 0 := by decide
  obtain ⟨offset, _, resolved, appended⟩ := sendable whole enters sameFile
  obtain ⟨after, done⟩ := appended untouched.1 scene.memory (.inl free)
  rw [position] at resolved
  exact ⟨untouched_created, concern, quarry, carver, fragment, scene, map, offset, after, again,
    found, Outcome.eq_of_done? carved, position, enters, resolved, done⟩

/-- Behind one range of 32 bytes the header of a new slot is not aligned, although nothing has
failed, and whoever appends its fragment to the queue of the segment aborts. -/
theorem short_range_displaces :
    ∃ quarry carver fragment scene map,
      Call.performAll [.join 0 untouched.1 ⟨64, 128, 256⟩ 0, .reserve untouched.1 32]
        (.start untouched.2.memory) = .done 32 quarry ∧
      quarry.carvers 0 = some carver ∧
      Arena.carve .user (quarry.scene carver.arena) = .done fragment scene ∧
      fragment.position = 416 ∧ fragment.position % headerAlignment ≠ 0 ∧
      untouched.1.file.base % headerAlignment = 0 ∧ map.Enters untouched.1 ∧
      ∃ offset, map.offsetFor untouched.1.rank (untouched.1.addressAt fragment.position) =
          .ok offset ∧
        map.resolve offset = .error (.misaligned offset) ∧
        (untouched.1.queue map).enqueue offset scene.memory = .aborted (.misaligned offset) := by
  have facts : ∃ last ∈ (Call.performAll [.join 0 untouched.1 ⟨64, 128, 256⟩ 0,
        .reserve untouched.1 32] (.start untouched.2.memory)).done?,
      last.1 = 32 ∧ ∃ carver ∈ last.2.carvers 0,
        ∃ carved ∈ (Arena.carve .user (last.2.scene carver.arena)).done?,
          carved.1.position = 416 ∧ carved.1.segment = untouched.1 ∧
            416 + headerSize ≤ carved.1.segment.size := by
    decide +kernel
  obtain ⟨⟨plain, quarry⟩, last, rfl, carver, found, ⟨fragment, scene⟩, carved, position, same,
    below⟩ := facts
  obtain ⟨map, enters⟩ := enters_untouched
  have within : fragment.IsWithin :=
    ⟨position ▸ (by decide : arenaStart ≤ 416), position ▸ below⟩
  have odd : fragment.position % headerAlignment ≠ 0 := by
    rw [position]
    decide
  have sameFile : untouched.1.SameFile fragment.segment := by
    rw [same]
    exact .refl _
  obtain ⟨offset, here, refused, aborts⟩ := within.isDisplaced odd enters sameFile
  exact ⟨quarry, carver, fragment, scene, map, Outcome.eq_of_done? last, found,
    Outcome.eq_of_done? carved, position, odd, enters.aligned, enters, offset, here, refused,
    aborts untouched.1 scene.memory⟩

end Quarry

end RankMail

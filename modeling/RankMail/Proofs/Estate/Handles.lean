import RankMail.Node
import RankMail.Proofs.Estate.Growth

set_option autoImplicit false

/-! # Handles on the ground

A fragment and a message are handles of a slot, an address map one of mapped segments. As long as
they fit the ground, whatever is done with them keeps it sound: payloads and flags are written
behind the link of a slot, and only offsets of slots are put into queues.

An action may abort or hang at any time; of one that does there is nothing to say.
-/

namespace RankMail

theorem AddressMap.place_ok {map : AddressMap} {offset : Offset} {place : Place}
    (found : map.place offset = .ok place) : ∃ mapping, map.find? offset.rank = some mapping ∧
      place = ⟨mapping.region, offset.position.toNat⟩ := by
  rw [AddressMap.place, AddressMap.address, AddressMap.expect] at found
  cases known : map.find? offset.rank with
  | none =>
      rw [known] at found
      split at found <;> cases found
  | some mapping =>
      rw [known] at found
      split at found
      · cases found
      · by_cases past : mapping.size ≤ offset.position.toNat
        · simp [past, bind, Except.bind] at found
        · simp only [past, bind, Except.bind, if_false, Nat.add_sub_cancel_left] at found
          exact ⟨mapping, rfl, (Except.ok.inj found).symm⟩

theorem AddressMap.header_ok {map : AddressMap} {offset : Offset} {place : Place}
    (found : map.header offset = .ok place) : map.place offset = .ok place := by
  rw [AddressMap.header] at found
  cases resolved : map.resolve offset with
  | error cause => simp [resolved, bind, Except.bind] at found
  | ok address => simpa [resolved, bind, Except.bind] using found

theorem AddressMap.offsetFor_ok {map : AddressMap} {rank : UInt32} {address : Nat} {offset : Offset}
    (found : map.offsetFor rank address = .ok offset) : ∃ mapping, map.find? rank = some mapping ∧
      mapping.base ≤ address ∧ address < mapping.base + mapping.size ∧
      offset = ⟨rank, UInt32.ofNat (address - mapping.base)⟩ := by
  rw [AddressMap.offsetFor, AddressMap.expect] at found
  cases known : map.find? rank with
  | none => simp [known, bind, Except.bind] at found
  | some mapping =>
      simp only [known, bind, Except.bind] at found
      split at found
      · cases found
      · next inside =>
          rw [Offset.ofRank?] at found
          split at found
          · next same =>
              split at same
              · obtain rfl := Option.some.inj same
                exact ⟨mapping, rfl, by omega, by omega, (Except.ok.inj found).symm⟩
              · cases same
          · cases found

namespace Ground

variable {ground more : Ground} {memory after : Memory} {addresses : AddressMap}
  {segment target : Segment} {offset : Offset} {position capacity : Nat}

/-- An address map has mapped segments in it, under their ranks. -/
def Knows (ground : Ground) (addresses : AddressMap) : Prop :=
  ∀ rank mapping, addresses.find? rank = some mapping →
    ∃ segment ∈ ground.mapped, segment.rank = rank ∧ mapping = segment.mapping

/-- The handle of a slot that has been carved. -/
structure Holds (ground : Ground) (fragment : Fragment) : Prop where
  mapped : fragment.segment ∈ ground.mapped
  carved : ground.Has fragment.segment.file.region fragment.position fragment.capacity

/-- A message that lies in a slot. -/
structure Brings (ground : Ground) (message : Message) : Prop where
  mapped : message.segment ∈ ground.mapped
  rank : message.offset.rank = message.segment.rank
  carved : ∃ capacity, ground.Has message.segment.file.region message.position capacity

theorem Holds.retain {fragment : Fragment} (holds : ground.Holds fragment)
    (retains : Retains [fragment.segment] ground more) : more.Holds fragment :=
  ⟨retains.mapped _ List.mem_cons_self holds.mapped, retains.parcels holds.carved⟩

theorem Brings.retain {message : Message} (brings : ground.Brings message)
    (retains : Retains [message.segment] ground more) : more.Brings message where
  mapped := retains.mapped _ List.mem_cons_self brings.mapped
  rank := brings.rank
  carved := brings.carved.imp fun _ carved => retains.parcels carved

/-! ## Addresses -/

theorem Sound.has_inside (sound : ground.Sound memory) (mapped : segment ∈ ground.mapped)
    (carved : ground.Has segment.file.region position capacity) :
    position + headerSize + capacity ≤ segment.size := by
  obtain ⟨plot, made, _, _, place, size⟩ := sound.plot_of_mapped mapped
  have below := sound.below _ carved
  have fits := (sound.cursor plot made).2
  rw [← place] at fits
  rw [size]
  exact Nat.le_trans below fits

theorem Sound.position_toNat (sound : ground.Sound memory) (mapped : segment ∈ ground.mapped)
    (carved : ground.Has segment.file.region position capacity) :
    (UInt32.ofNat position).toNat = position := by
  obtain ⟨plot, here, _, size⟩ := sound.charted segment mapped
  have usable := (sound.usable plot (sound.current here).1).2.2
  have inside := sound.has_inside mapped carved
  have small : position < 2 ^ 32 := by
    simp only [maxSegmentSize, headerSize] at usable inside
    omega
  exact UInt32.toNat_ofNat_of_lt' small

/-- The place of an offset that a map knows lies in the segment of its rank. -/
theorem Proper.place_of_header (proper : ground.Proper) (knows : ground.Knows addresses)
    {place : Place} (found : addresses.header offset = .ok place) :
    ∃ plot, ground.current offset.rank = some plot ∧
      place = ⟨plot.region, offset.position.toNat⟩ := by
  obtain ⟨mapping, known, rfl⟩ := AddressMap.place_ok (AddressMap.header_ok found)
  obtain ⟨segment, mapped, rank, rfl⟩ := knows _ _ known
  obtain ⟨plot, here, region, _⟩ := proper.charted segment mapped
  rw [rank] at here
  refine ⟨plot, here, ?_⟩
  rw [← region]
  rfl

theorem Proper.admits_slot (proper : ground.Proper) (mapped : segment ∈ ground.mapped)
    (rank : offset.rank = segment.rank)
    (carved : ∃ capacity, ground.Has segment.file.region offset.position.toNat capacity) :
    ground.Admits offset := by
  obtain ⟨plot, here, region, _⟩ := proper.charted segment mapped
  obtain ⟨made, named⟩ := proper.current here
  refine ⟨fun other there => ?_, .inr ⟨plot, made, named.trans rank.symm⟩⟩
  rw [rank, here] at there
  obtain rfl := Option.some.inj there
  rwa [← region]

/-- The offset of a slot that is mapped, found from its address, is that of the slot. -/
theorem Sound.admits_address (sound : ground.Sound memory) (knows : ground.Knows addresses)
    (mapped : segment ∈ ground.mapped)
    (carved : ground.Has segment.file.region position capacity) {rank : UInt32}
    (found : addresses.offsetFor rank (segment.addressAt position) = .ok offset) :
    ground.Admits offset := by
  obtain ⟨mapping, known, above, below, rfl⟩ := AddressMap.offsetFor_ok found
  obtain ⟨other, there, sameRank, rfl⟩ := knows _ _ known
  have inside := sound.has_inside mapped carved
  simp only [Segment.mapping, Segment.addressAt] at above below ⊢
  -- No address lies in two mappings.
  have same : other = segment := by
    refine (sound.clear other there segment mapped).resolve_right fun split => ?_
    simp only [Segment.Clear, Segment.size, headerSize] at split inside
    omega
  subst same
  refine sound.admits_slot mapped sameRank.symm ⟨capacity, ?_⟩
  rw [Nat.add_sub_cancel_left, sound.position_toNat mapped carved]
  exact carved

/-! ## Queues -/

theorem Proper.link_ne (proper : ground.Proper) {plot other : Plot}
    (carved : ground.Has plot.region position capacity) :
    (⟨plot.region, position⟩ : Place) ≠ headPlace other ∧
      (⟨plot.region, position⟩ : Place) ≠ tailPlace other := by
  have high : arenaStart ≤ position := (proper.homes _ carved).1
  have head : queueStart < arenaStart := by decide
  have tail : queueStart + 8 < arenaStart := by decide
  constructor <;> intro same
  · have address : position = queueStart := congrArg Place.address same
    omega
  · have address : position = queueStart + 8 := congrArg Place.address same
    omega

/-- A queue is that of a plot, and its addresses are known. -/
structure Serves (ground : Ground) (queue : Queue) (plot : Plot) : Prop where
  knows : ground.Knows queue.addresses
  here : ∃ rank, ground.current rank = some plot
  block : queue.block = headPlace plot

theorem Proper.serves (proper : ground.Proper) (knows : ground.Knows addresses)
    (mapped : target ∈ ground.mapped) : ∃ plot, ground.Serves (target.queue addresses) plot := by
  obtain ⟨plot, here, region, _⟩ := proper.charted target mapped
  exact ⟨plot, knows, ⟨_, here⟩, congrArg (fun region => (⟨region, queueStart⟩ : Place)) region⟩

section

variable {queue : Queue} {plot : Plot} {previous : Offset}

theorem Sound.setLink_meets (sound : ground.Sound memory) (serves : ground.Serves queue plot)
    (slot : ground.Admits previous)
    (joins : ∀ after, ground.Joins memory after offset) :
    (queue.setLink previous offset memory).Meets True fun _ after =>
      ground.Sound after ∧ ∀ {plot}, ground.current previous.rank = some plot →
        after.offsetAt ⟨plot.region, previous.position.toNat⟩ = offset := by
  refine Action.meets_bind ?_
  rw [Queue.header]
  cases found : queue.addresses.header previous with
  | error cause => trivial
  | ok place =>
      obtain ⟨plot, here, rfl⟩ := sound.place_of_header serves.knows found
      obtain ⟨capacity, carved⟩ := slot.slot plot here
      refine ⟨sound.tie (.link carved) (.refl ..) (joins _), fun {other} there => ?_⟩
      obtain rfl := Option.some.inj (here.symm.trans there)
      exact memory.offsetAt_setWord _ _

/-- A slot of which the link is free becomes the tail. -/
theorem Sound.exchangeTail_meets (sound : ground.Sound memory) (serves : ground.Serves queue plot)
    (slot : ground.Admits offset)
    (loose : ∀ {plot}, ground.current offset.rank = some plot →
      memory.offsetAt ⟨plot.region, offset.position.toNat⟩ = .free) :
    (queue.exchangeTail offset memory).Meets True fun result after =>
      ground.Sound after ∧ ground.Queued after offset ∧ ∀ previous, result = .ok previous →
        ground.Admits previous := by
  obtain ⟨rank, here⟩ := serves.here
  rw [Queue.exchangeTail, serves.block]
  refine ⟨sound.tie (.tail here) (.refl ..) (.inr (.inr ⟨slot, fun other there => ?_⟩)), ?_, ?_⟩
  · obtain ⟨capacity, carved⟩ := slot.slot other there
    rw [← loose there]
    exact sound.offsetAt_other (.link carved) (.tail here) (sound.link_ne carved).2 memory offset
  · have tied := memory.offsetAt_setWord (tailPlace plot) offset
    have queued : ground.Queued (memory.setWord 8 (tailPlace plot) offset.word) _ := .tail here
    rwa [tied] at queued
  · intro previous same
    obtain rfl := Except.ok.inj same
    exact sound.queued (.tail here)

theorem Sound.enqueue_meets (sound : ground.Sound memory) (serves : ground.Serves queue plot)
    (slot : ground.Admits offset) :
    (queue.enqueue offset memory).Meets True fun _ after => ground.Sound after := by
  refine Action.meets_bind ((sound.setLink_meets serves slot
    fun _ => .inl rfl).mono ?_)
  rintro (fault | value) untied ⟨sound, loose⟩
  · exact sound
  · refine Action.meets_bind ((sound.exchangeTail_meets serves slot loose).mono ?_)
    rintro (fault | previous) exchanged ⟨sound, queued, last⟩
    · exact sound
    · by_cases same : previous = offset
      · simp only [if_pos same]
        trivial
      · simp only [if_neg same, Queue.attach]
        split
        · obtain ⟨rank, here⟩ := serves.here
          rw [Queue.setHead, serves.block]
          exact sound.tie (.head here) (.refl ..) (.inr (.inl queued))
        · exact (sound.setLink_meets serves (last previous rfl) fun _ => .inr (.inl queued)).mono
            fun _ _ linked => linked.1

theorem Sound.releaseTail_meets (sound : ground.Sound memory) (serves : ground.Serves queue plot)
    (offset : Offset) : (queue.releaseTail offset memory).Meets False fun result after =>
      ∃ found, result = .ok found ∧ ground.Sound after ∧ (found = false → after = memory) := by
  obtain ⟨rank, here⟩ := serves.here
  rw [Queue.releaseTail, serves.block]
  split
  · exact ⟨true, rfl, sound.untie (.tail here), fun same => by cases same⟩
  · exact ⟨false, rfl, sound, fun _ => rfl⟩

theorem Sound.dequeue_meets (sound : ground.Sound memory) (serves : ground.Serves queue plot) :
    (queue.dequeue memory).Meets True fun result after => ground.Sound after ∧
      ∀ offset, result = .ok (some offset) → ground.Admits offset := by
  obtain ⟨rank, here⟩ := serves.here
  have queued : ground.Queued memory (memory.offsetAt (headPlace plot)) := .head here
  have taken : queue.takeHead memory = .done (memory.offsetAt (headPlace plot))
      (memory.setWord 8 (headPlace plot) Offset.free.word) := by
    rw [Queue.takeHead, serves.block]
    rfl
  generalize memory.offsetAt (headPlace plot) = first at queued taken
  have untied := sound.untie (.head here)
  rw [Queue.dequeue, Action.bind_done taken]
  split
  · exact ⟨untied, fun _ same => by cases same⟩
  · rw [Queue.header]
    cases found : queue.addresses.header first with
    | error cause => trivial
    | ok place =>
        obtain ⟨home, there, rfl⟩ := sound.place_of_header serves.knows found
        have slot := sound.queued queued
        obtain ⟨capacity, carved⟩ := slot.slot home there
        -- That the head has been taken away does not change the link of the first slot.
        have looked : Queue.linkAt ⟨home.region, first.position.toNat⟩
            (memory.setWord 8 (headPlace plot) Offset.free.word) =
            .done (memory.offsetAt ⟨home.region, first.position.toNat⟩)
              (memory.setWord 8 (headPlace plot) Offset.free.word) :=
          congrArg (Outcome.done · _) (sound.offsetAt_other (.link carved) (.head here)
            (sound.link_ne carved).1 memory .free)
        refine Action.meets_bind (Outcome.meets_done.mpr ?_)
        simp only [Action.bind_done looked]
        split
        · trivial
        · split
          · refine Action.meets_bind (Outcome.meets_done.mpr
              ⟨?_, fun _ same => Option.some.inj (Except.ok.inj same) ▸ slot⟩)
            rw [serves.block]
            exact sound.tie (.head here) (memory.keeps_setWord ..)
              (.inr (.inl (.link queued there)))
          · next loose =>
              refine Action.meets_bind ((untied.releaseTail_meets serves first).always ?_)
              rintro _ after ⟨last, rfl, sound, unchanged⟩
              cases last with
              | true => exact ⟨sound, fun _ same => Option.some.inj (Except.ok.inj same) ▸ slot⟩
              | false =>
                  obtain rfl := unchanged rfl
                  -- The slot is not linked, and no one is there who would link it.
                  have waits : Queue.awaitLink ⟨home.region, first.position.toNat⟩
                      (memory.setWord 8 (headPlace plot) Offset.free.word) = .hung := by
                    rw [Queue.awaitLink, Action.bind_done looked, if_pos (by simpa using loose)]
                    rfl
                  simp only [Bool.false_eq_true, if_false, Action.bind_apply, waits]
                  trivial

end

theorem Sound.ring_meets (sound : ground.Sound memory) (segment : Segment) :
    (segment.doorbell.ring memory).Meets True fun _ after => ground.Sound after :=
  sound.bell segment DoorbellField.rings (by decide) _

/-- A slot is appended to the queue of a segment, and the doorbell rung. -/
theorem Sound.deliver_meets (sound : ground.Sound memory) {node : Node}
    (knows : ground.Knows node.addresses) (mapped : target ∈ ground.mapped)
    (slot : ground.Admits offset) :
    (node.deliver target offset memory).Meets True fun _ after => ground.Sound after := by
  obtain ⟨plot, serves⟩ := sound.serves knows mapped
  refine Action.meets_bind ((sound.enqueue_meets serves slot).mono ?_)
  rintro (fault | value) after sound
  · exact sound
  · exact sound.ring_meets target

/-! ## Slots in hand -/

theorem Sound.setField (sound : ground.Sound memory) {region : Nat}
    (carved : ground.Has region position capacity) {field : Field} (behind : 8 ≤ field.distance)
    (inside : field.distance + field.width ≤ headerSize) (number : Nat) :
    ground.Sound (memory.store field ⟨region, position⟩ number) := by
  refine sound.fill carved (memory.keeps_store ..) fun range member => ?_
  obtain rfl := List.mem_singleton.mp member
  refine ⟨rfl, ?_, ?_⟩ <;> simp only [Place.shift, Parcel.stop] <;> omega

theorem Sound.fill_fragment (sound : ground.Sound memory) {fragment : Fragment}
    (holds : ground.Holds fragment) (keeps : memory.Keeps
      [(fragment.payloadPlace, fragment.capacity), (fragment.lengthPlace, 4)] after) :
    ground.Sound after := by
  refine sound.fill holds.carved keeps (List.forall_mem_cons.mpr
    ⟨⟨rfl, ?_, ?_⟩, List.forall_mem_cons.mpr ⟨⟨rfl, ?_, ?_⟩, fun _ inside => nomatch inside⟩⟩) <;>
    simp only [Fragment.payloadPlace, Fragment.lengthPlace, Fragment.place, Segment.placeAt,
      Place.shift, HeaderField.length, Parcel.stop, headerSize] <;> omega

theorem Sound.setLength_meets (sound : ground.Sound memory) {fragment : Fragment}
    (holds : ground.Holds fragment) (length : Nat) :
    (fragment.setLength length memory).Meets True fun _ after => ground.Sound after :=
  (fragment.setLength_meets length memory).always fun _ _ keeps =>
    sound.fill_fragment holds (keeps.mono (List.subset_cons_self ..))

theorem Sound.edit_meets (sound : ground.Sound memory) {fragment : Fragment}
    (holds : ground.Holds fragment) (start : Nat) (data : List UInt8) :
    (fragment.edit start data memory).Meets True fun _ after => ground.Sound after :=
  (fragment.edit_meets start data memory).always fun _ _ edited =>
    sound.fill_fragment holds (edited.2.mono (by simp))

theorem Sound.write_meets (sound : ground.Sound memory) {fragment : Fragment}
    (holds : ground.Holds fragment) (data : List UInt8) :
    (fragment.write data memory).Meets True fun _ after => ground.Sound after :=
  (fragment.write_meets data memory).always fun _ _ keeps => sound.fill_fragment holds keeps

end Ground

end RankMail

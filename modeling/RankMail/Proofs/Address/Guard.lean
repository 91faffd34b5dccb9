import RankMail.Proofs.Address.Translation
import RankMail.Proofs.Memory.Scope
import RankMail.Proofs.Node.Anchored

set_option autoImplicit false

/-! # What any word may lead to

The words of a queue can be overwritten by everybody, so whoever follows one has to expect each of
the 2 ^ 64 words there are. What stands in the way is `AddressMap.resolve`:

    the word                                              leads to
    negative                                              an abort
    of a rank that is not mapped now                      an abort
    a header would not fit before the end of the mapping  an abort
    the address is no multiple of 64                      an abort
    any other                                             a header within the mapping

So a queue may be in any state at all: appending to it, taking from it and reading it look at the
two words of the queue and at headers within mappings, and write nowhere else.
-/

namespace RankMail

theorem Action.ofAbort_done {State Value : Type} {value : Except Abort Value} {found : Value}
    {state after : State} (done : Action.ofAbort value state = .done found after) :
    value = .ok found ∧ state = after := by
  cases value with
  | error cause => cases done
  | ok value =>
      obtain ⟨rfl, rfl⟩ := Outcome.done.inj done
      exact ⟨rfl, rfl⟩

theorem Scene.inMemory_done {Actor Value : Type} {action : Action Memory Value}
    {scene after : Scene Actor} {value : Value}
    (done : Scene.inMemory action scene = .done value after) : after.actor = scene.actor := by
  rw [Scene.inMemory_apply] at done
  cases ends : action scene.memory with
  | done found memory =>
      rw [ends] at done
      obtain ⟨-, rfl⟩ := Outcome.done.inj done
      rfl
  | failed | aborted | hung =>
      rw [ends] at done
      cases done

/-! ## Words -/

/-- Every signed word is the word of its offset. -/
theorem Offset.raw_ofRaw_of_range {raw : Int} (low : -2 ^ 63 ≤ raw) (high : raw < 2 ^ 63) :
    (Offset.ofRaw raw).raw = raw := by
  have small : (raw % 2 ^ 64).toNat < 2 ^ 64 := by omega
  rw [Offset.ofRaw, Offset.raw, Offset.word_ofWord small]
  split <;> omega

namespace AddressMap

variable {map after : AddressMap} {rank : UInt32} {mapping : Mapping} {offset : Offset}
  {address : Nat} {changes : List Change}

/-! ## Address maps -/

/-- A mapping that is entered lies somewhere in the address space. -/
def Change.IsPlaced : Change → Prop
  | register _ mapping => mapping.base ≠ 0 ∧ mapping.base + mapping.size ≤ 2 ^ 64
  | unregister _ => True

/-- What is known of a rank after a change. -/
def Change.tell (rank : UInt32) (known : Option Mapping) : Change → Option Mapping
  | register other mapping => if rank = other then some mapping else known
  | unregister other => if rank = other then none else known

/-- What was last entered for a rank and has not been forgotten since. -/
def standing (changes : List Change) (rank : UInt32) : Option Mapping :=
  changes.foldl (Change.tell rank) none

theorem find?_change {change : Change} (done : map.change change = .ok after) (rank : UInt32) :
    after.find? rank = change.tell rank (map.find? rank) := by
  cases change with
  | register other mapping => exact find?_register done rank
  | unregister other =>
      obtain rfl := Except.ok.inj done
      exact find?_unregister map other rank

theorem find?_changes (done : changes.foldlM change map = .ok after) (rank : UInt32) :
    after.find? rank = changes.foldl (Change.tell rank) (map.find? rank) := by
  induction changes generalizing map with
  | nil =>
      obtain rfl := Except.ok.inj done
      rfl
  | cons first rest ih =>
      rw [List.foldlM_cons] at done
      cases changed : map.change first with
      | error cause =>
          rw [changed] at done
          cases done
      | ok between =>
          rw [changed] at done
          rw [ih done, find?_change changed, List.foldl_cons]

theorem isSound_changes (sound : map.IsSound) (placed : ∀ change ∈ changes, change.IsPlaced)
    (done : changes.foldlM change map = .ok after) : after.IsSound := by
  induction changes generalizing map with
  | nil =>
      obtain rfl := Except.ok.inj done
      exact sound
  | cons first rest ih =>
      rw [List.foldlM_cons] at done
      cases changed : map.change first with
      | error cause =>
          rw [changed] at done
          cases done
      | ok between =>
          rw [changed] at done
          have proper : first.IsSound := by
            have here := placed first List.mem_cons_self
            cases first with
            | register rank mapping =>
                exact ⟨expressible_of_register changed, here.1, here.2⟩
            | unregister rank => trivial
          obtain ⟨other, same, soundThen⟩ := sound.change proper
          obtain rfl := Except.ok.inj (changed.symm.trans same)
          exact ih soundThen (fun change inside => placed change (List.mem_cons_of_mem _ inside))
            done

/-- A rank that has been mapped is not the rank of a negative word. -/
theorem IsSound.raw_nonneg (sound : map.IsSound) (found : map.find? offset.rank = some mapping) :
    0 ≤ offset.raw :=
  Offset.raw_nonneg_iff.mpr (sound _ _ found).rank

theorem IsSound.isFree_eq_false (sound : map.IsSound)
    (found : map.find? offset.rank = some mapping) : offset.isFree = false := by
  rw [Bool.eq_false_iff, ne_eq, Offset.isFree_iff]
  exact Offset.ne_free_of_rank (sound _ _ found).rank

/-- The gate: which offsets are resolved, and to what. -/
theorem IsSound.resolve_iff (sound : map.IsSound) :
    map.resolve offset = .ok address ↔ ∃ mapping, map.find? offset.rank = some mapping ∧
      offset.position.toNat + headerSize ≤ mapping.size ∧
      (mapping.base + offset.position.toNat) % headerAlignment = 0 ∧
      address = mapping.base + offset.position.toNat := by
  cases found : map.find? offset.rank with
  | none => simp [resolve, expect_of_none found, bind, Except.bind]
  | some mapping =>
      rw [resolve_eq found, sound.isFree_eq_false found]
      simp only [Option.some.injEq, exists_eq_left', Bool.false_eq_true, if_false]
      split
      case isTrue short =>
        refine ⟨fun same => (by cases same), fun fits => ?_⟩
        omega
      case isFalse room =>
        split
        case isTrue odd =>
          exact ⟨fun same => (by cases same), fun fits => absurd fits.2.1 odd⟩
        case isFalse aligned =>
          refine ⟨fun same => ⟨by omega, not_not.mp aligned, (Except.ok.inj same).symm⟩, ?_⟩
          rintro ⟨_, _, rfl⟩
          rfl

theorem IsSound.address_iff (sound : map.IsSound) :
    map.address offset = .ok address ↔ ∃ mapping, map.find? offset.rank = some mapping ∧
      offset.position.toNat < mapping.size ∧ address = mapping.base + offset.position.toNat := by
  cases found : map.find? offset.rank with
  | none =>
      rw [AddressMap.address]
      split <;> simp [expect_of_none found, bind, Except.bind]
  | some mapping =>
      simp only [Option.some.injEq, exists_eq_left']
      by_cases inside : offset.position.toNat < mapping.size
      · rw [address_eq found (sound _ _ found).toIsExpressible inside]
        refine ⟨fun same => ⟨inside, (Except.ok.inj same).symm⟩, ?_⟩
        rintro ⟨_, rfl⟩
        rfl
      · have past : mapping.size ≤ offset.position.toNat := by omega
        simp only [AddressMap.address, sound.isFree_eq_false found, expect, found, bind,
          Except.bind, Bool.false_eq_true, if_false, if_pos past]
        exact ⟨fun same => (by cases same), fun both => absurd both.1 inside⟩

/-- For what reason an offset is not translated. -/
theorem address_error (missing : map.find? offset.rank = none) (proper : offset ≠ .free) :
    map.address offset = .error (.unregistered offset.rank) := by
  have named : ¬offset.isFree = true := fun free => proper (Offset.isFree_iff.mp free)
  rw [AddressMap.address, if_neg named, expect_of_none missing]
  rfl

theorem IsSound.address_past (sound : map.IsSound) (found : map.find? offset.rank = some mapping)
    (past : mapping.size ≤ offset.position.toNat) :
    map.address offset = .error (.pastEnd offset mapping.size) := by
  simp only [AddressMap.address, sound.isFree_eq_false found, expect, found, bind, Except.bind,
    Bool.false_eq_true, if_false, if_pos past]

/-- What becomes of a word that an address map is asked for, by what was last entered. -/
structure Guards (changes : List Change) (map : AddressMap) (offset : Offset) : Prop where
  /-- Which words are resolved, and to what. -/
  resolve_iff : ∀ address, map.resolve offset = .ok address ↔
    ∃ mapping, standing changes offset.rank = some mapping ∧
      offset.position.toNat + headerSize ≤ mapping.size ∧
      (mapping.base + offset.position.toNat) % headerAlignment = 0 ∧
      address = mapping.base + offset.position.toNat
  /-- The whole header lies in the mapping and is aligned, and it is also what is translated. -/
  resolved : ∀ address, map.resolve offset = .ok address →
    map.address offset = .ok address ∧ address % headerAlignment = 0 ∧
      ∃ mapping, standing changes offset.rank = some mapping ∧ mapping.base ≤ address ∧
        address + headerSize ≤ mapping.base + mapping.size ∧ address + headerSize ≤ 2 ^ 64
  /-- Which words are translated, and to what. -/
  address_iff : ∀ address, map.address offset = .ok address ↔
    ∃ mapping, standing changes offset.rank = some mapping ∧
      offset.position.toNat < mapping.size ∧ address = mapping.base + offset.position.toNat
  free : offset.raw = Offset.free.raw → map.address offset = .error .freeTranslated
  negative : offset.raw < 0 → offset.raw ≠ Offset.free.raw →
    map.address offset = .error (.unregistered offset.rank)
  unregistered : standing changes offset.rank = none → offset.raw ≠ Offset.free.raw →
    map.address offset = .error (.unregistered offset.rank)
  pastEnd : ∀ mapping, standing changes offset.rank = some mapping →
    mapping.size ≤ offset.position.toNat →
      map.address offset = .error (.pastEnd offset mapping.size)

theorem guards (placed : ∀ change ∈ changes, change.IsPlaced) {own : UInt32}
    (done : changes.foldlM change (empty own) = .ok map) (offset : Offset) :
    Guards changes map offset := by
  have sound := isSound_changes (isSound_empty own) placed done
  have known : map.find? offset.rank = standing changes offset.rank := find?_changes done _
  have proper : offset.raw ≠ Offset.free.raw → offset ≠ .free := by
    rintro differs rfl
    exact differs rfl
  refine ⟨fun address => known ▸ sound.resolve_iff, fun address resolved => ?_,
    fun address => known ▸ sound.address_iff, fun same => ?_, fun low differs => ?_,
    fun missing differs => address_error (known.trans missing) (proper differs),
    fun mapping found past => sound.address_past (known.trans found) past⟩
  · obtain ⟨mapping, found, room, aligned, rfl⟩ := sound.resolve_iff.mp resolved
    have ends := (sound _ _ found).ends
    have translated := address_eq found (sound _ _ found).toIsExpressible
      (Nat.lt_of_lt_of_le (Nat.lt_add_of_pos_right (by decide)) room)
    exact ⟨translated, aligned, mapping, known ▸ found, Nat.le_add_right .., by omega, by omega⟩
  · rw [Offset.raw_injective same]
    rfl
  · refine address_error ?_ (proper differs)
    cases found : map.find? offset.rank with
    | none => rfl
    | some mapping =>
        have high := sound.raw_nonneg found
        omega

end AddressMap

/-! ## Queues -/

def Place.IsWithin (place start : Place) (count : Nat) : Prop :=
  place.region = start.region ∧ start.address ≤ place.address ∧
    place.address < start.address + count

theorem Place.isWithin_shift {start : Place} {distance count : Nat} (small : distance < count) :
    (start.shift distance).IsWithin start count :=
  ⟨rfl, Nat.le_add_right .., Nat.add_lt_add_left small _⟩

/-- A place in a header that lies wholly in a mapping and begins where a header may. -/
def AddressMap.InHeader (map : AddressMap) (place : Place) : Prop :=
  ∃ rank mapping position, map.find? rank = some mapping ∧
    position + headerSize ≤ mapping.size ∧ (mapping.base + position) % headerAlignment = 0 ∧
    place.IsWithin ⟨mapping.region, position⟩ headerSize

/-- What is found as a header is one. -/
theorem AddressMap.covers_header {map : AddressMap} {offset : Offset} {place : Place}
    (located : map.header offset = .ok place) : Scope.Covers map.InHeader place headerSize := by
  rw [AddressMap.header] at located
  cases resolved : map.resolve offset with
  | error cause =>
      rw [resolved] at located
      cases located
  | ok address =>
      rw [resolved] at located
      obtain ⟨mapping, found, room, same, placed⟩ := resolve_inv resolved
      obtain rfl := Except.ok.inj (placed.symm.trans located)
      have aligned : (mapping.base + offset.position.toNat) % headerAlignment = 0 := by
        rw [resolve_eq found] at resolved
        by_contra odd
        rw [if_pos odd] at resolved
        split at resolved
        · cases resolved
        · split at resolved <;> cases resolved
      exact fun distance small =>
        ⟨_, mapping, _, found, room, aligned, Place.isWithin_shift small⟩

namespace Queue

variable {queue : Queue} {memory : Memory} {allowed : Place → Prop}

/-- The places at which a queue may be read and written. -/
def MayTouch (queue : Queue) (place : Place) : Prop :=
  place.IsWithin queue.block 16 ∨ queue.addresses.InHeader place

/-- A queue may be read and written at its two words and in all headers. -/
structure Admits (queue : Queue) (allowed : Place → Prop) : Prop where
  block : Scope.Covers allowed queue.block 16
  header : ∀ {offset place}, queue.addresses.header offset = .ok place →
    Scope.Covers allowed place headerSize

theorem admits_mayTouch (queue : Queue) : queue.Admits queue.MayTouch where
  block _ small := .inl (Place.isWithin_shift small)
  header located distance small := .inr (AddressMap.covers_header located distance small)

namespace Admits

variable (admits : queue.Admits allowed)

include admits

theorem head : Scope.Covers allowed (queue.block.shift QueueField.head.distance) 8 :=
  admits.block.part (by decide)

theorem tail : Scope.Covers allowed (queue.block.shift QueueField.tail.distance) 8 :=
  admits.block.part (by decide)

theorem setHead (offset : Offset) :
    (Scope.ofMemory allowed).Bounds (queue.setHead offset) memory :=
  Scope.bounds_store admits.head

theorem takeHead : (Scope.ofMemory allowed).Bounds queue.takeHead memory where
  tells same := ⟨by rw [Scope.load_same admits.head same], Scope.write_same _ _ same⟩
  leaves := Scope.store_kept Offset.free.word admits.head

theorem exchangeTail (offset : Offset) :
    (Scope.ofMemory allowed).Bounds (queue.exchangeTail offset) memory where
  tells same := ⟨by rw [Scope.load_same admits.tail same], Scope.write_same _ _ same⟩
  leaves := Scope.store_kept offset.word admits.tail

theorem releaseTail (offset : Offset) :
    (Scope.ofMemory allowed).Bounds (queue.releaseTail offset) memory where
  tells {twin} same := by
    rw [Queue.releaseTail, Queue.releaseTail, Scope.load_same admits.tail same]
    split
    · exact ⟨rfl, Scope.write_same _ _ same⟩
    · exact ⟨rfl, same⟩
  leaves := by
    rw [Queue.releaseTail]
    split
    · exact Scope.store_kept Offset.free.word admits.tail
    · exact (Scope.ofMemory allowed).refl memory

theorem linkAt {offset : Offset} {place : Place}
    (located : queue.addresses.header offset = .ok place) :
    (Scope.ofMemory allowed).Bounds (Queue.linkAt place) memory :=
  Scope.bounds_look fun same => congrArg Offset.ofWord
    (Scope.load_same ((admits.header located).part (by decide)) same)

theorem link (offset : Offset) : (Scope.ofMemory allowed).Bounds (queue.link offset) memory :=
  Scope.bounds_bind (Scope.bounds_ofAbort _) fun done => admits.linkAt (Action.ofAbort_done done).1

theorem setLink (offset target : Offset) :
    (Scope.ofMemory allowed).Bounds (queue.setLink offset target) memory :=
  Scope.bounds_bind (Scope.bounds_ofAbort _) fun done =>
    Scope.bounds_store ((admits.header (Action.ofAbort_done done).1).part (by decide))

theorem attach (previous offset : Offset) :
    (Scope.ofMemory allowed).Bounds (queue.attach previous offset) memory := by
  rw [Queue.attach]
  split
  · exact admits.setHead offset
  · exact admits.setLink previous offset

theorem sender (sender : Sender) :
    (Scope.ofMemory allowed).Bounds (sender.advance queue) memory := by
  cases sender with
  | idle => exact Scope.bounds_pure _
  | unlinking offset =>
      exact Scope.bounds_bind (admits.setLink offset _) fun _ => Scope.bounds_pure _
  | arriving offset =>
      refine Scope.bounds_bind (admits.exchangeTail offset) fun _ => ?_
      split
      · exact Scope.bounds_abort _
      · exact Scope.bounds_pure _
  | owing previous offset =>
      exact Scope.bounds_bind (admits.attach previous offset) fun _ => Scope.bounds_pure _

theorem receiver (receiver : Receiver) :
    (Scope.ofMemory allowed).Bounds (receiver.advance queue) memory := by
  cases receiver with
  | idle => exact Scope.bounds_bind admits.takeHead fun _ => Scope.bounds_pure _
  | reading first =>
      refine Scope.bounds_bind (admits.link first) fun _ => ?_
      split
      · exact Scope.bounds_abort _
      · exact Scope.bounds_pure _
  | releasing first =>
      exact Scope.bounds_bind (admits.releaseTail first) fun _ => Scope.bounds_pure _
  | awaiting first => exact Scope.bounds_bind (admits.link first) fun _ => Scope.bounds_pure _
  | passing first next => exact Scope.bounds_bind (admits.setHead next) fun _ => Scope.bounds_pure _

theorem enqueue (offset : Offset) :
    (Scope.ofMemory allowed).Bounds (queue.enqueue offset) memory := by
  rw [Sender.enqueue_eq]
  refine Scope.bounds_bind (admits.sender _) fun _ => ?_
  refine Scope.bounds_bind (admits.sender _) fun _ => ?_
  exact Scope.bounds_bind (admits.sender _) fun _ => Scope.bounds_pure _

theorem dequeue : (Scope.ofMemory allowed).Bounds queue.dequeue memory := by
  refine Scope.bounds_bind admits.takeHead fun {first between} _ => ?_
  split
  · exact Scope.bounds_pure none
  · refine Scope.bounds_bind (Scope.bounds_ofAbort _) fun {place settled} done => ?_
    have located := (Action.ofAbort_done done).1
    refine Scope.bounds_bind (admits.linkAt located) fun _ => ?_
    split
    · exact Scope.bounds_abort _
    · split
      · exact Scope.bounds_bind (admits.setHead _) fun _ => Scope.bounds_pure _
      · refine Scope.bounds_bind (admits.releaseTail first) fun _ => ?_
        split
        · exact Scope.bounds_pure _
        · refine Scope.bounds_bind (Scope.bounds_bind (admits.linkAt located) fun _ => ?_)
            fun _ => Scope.bounds_bind (admits.setHead _) fun _ => Scope.bounds_pure _
          split
          · exact Scope.bounds_hang
          · exact Scope.bounds_pure _

end Admits

end Queue

/-! ## Reading -/

section

variable {allowed : Place → Prop} {inner : Scene Pool}

theorem Pool.bounds_compare {place : Place} {slot : UInt32} {descriptor : Descriptor}
    (covers : Scope.Covers allowed place headerSize) :
    (Scope.ofScene allowed).Bounds (Pool.compare place slot descriptor) inner := by
  refine Scope.bounds_bind (Scope.bounds_look fun same => ?_) fun _ => ?_
  · refine Prod.ext ?_ ?_
    · exact congrArg UInt8.ofNat (Scope.load_same (covers.part (by decide)) same.2.2)
    · exact congrArg UInt32.ofNat (Scope.load_same (covers.part (by decide)) same.2.2)
  · split
    · exact Scope.bounds_notify _
    · exact Scope.bounds_pure ()

theorem Pool.bounds_restore {slot : UInt32} {descriptor : Descriptor}
    (covers : Scope.Covers allowed (inner.actor.arena.segment.placeAt descriptor.position)
      headerSize) :
    (Scope.ofScene allowed).Bounds (Pool.restore slot descriptor) inner := by
  refine Scope.bounds_bind Scope.bounds_self fun {pool scene} looked => ?_
  obtain ⟨rfl, rfl⟩ := Outcome.done.inj looked
  refine Scope.bounds_bind (Scope.bounds_inMemory (Scope.bounds_write ?_)) fun _ => ?_
  · rwa [Header.length_bytes]
  · exact Scope.bounds_bind Scope.bounds_self fun _ => Scope.bounds_become _

theorem Pool.bounds_recycle {address : Nat}
    (covers : Scope.Covers allowed (inner.actor.arena.segment.placeAt
      (address - inner.actor.arena.segment.file.base)) headerSize) :
    (Scope.ofScene allowed).Bounds (Pool.recycle address) inner := by
  refine Scope.bounds_bind Scope.bounds_self fun {pool scene} looked => ?_
  obtain ⟨rfl, rfl⟩ := Outcome.done.inj looked
  dsimp only
  split
  · exact Scope.bounds_fail _
  · refine Scope.bounds_bind (Scope.bounds_look fun same => ?_) fun {slot scene} looked => ?_
    · exact congrArg UInt32.ofNat (Scope.load_same (covers.part (by decide)) same.2.2)
    obtain ⟨rfl, rfl⟩ := Outcome.done.inj looked
    cases inner.actor.arena.descriptor? _ with
    | none => exact Scope.bounds_abort _
    | some descriptor =>
        by_cases here : descriptor.position = address - inner.actor.arena.segment.file.base
        · simp only [if_neg (not_not.mpr here)]
          refine Scope.bounds_bind (Pool.bounds_compare covers) fun {_ between} compared => ?_
          obtain ⟨notices, noted⟩ := compare_eq (inner.actor.arena.segment.placeAt
            (address - inner.actor.arena.segment.file.base)) _ descriptor inner
          obtain ⟨-, rfl⟩ := Outcome.done.inj (noted.symm.trans compared)
          exact Pool.bounds_restore (here ▸ covers)
        · simp only [ne_eq, if_pos here]
          exact Scope.bounds_abort _

end

namespace Node

variable {node : Node} {allowed : Place → Prop}

/-- An address that a connected node has for a header in its own segment leads to that header. -/
theorem IsConnected.own_header (connected : node.IsConnected) {offset : Offset} {address : Nat}
    {place : Place} (own : offset.rank = node.rank)
    (resolved : node.addresses.resolve offset = .ok address)
    (located : node.addresses.header offset = .ok place) :
    node.segment.placeAt (address - node.segment.file.base) = place := by
  obtain ⟨mapping, found, _, rfl, placed⟩ := AddressMap.resolve_inv resolved
  rw [connected.known, segmentOf?, if_pos own] at found
  obtain rfl := Option.some.inj found
  rw [AddressMap.header, resolved] at located
  obtain rfl := Except.ok.inj (placed.symm.trans located)
  rw [show node.segment.mapping.base = node.segment.file.base from rfl, Nat.add_sub_cancel_left]
  rfl

/-- A node that takes a fragment of its own back touches only its header. -/
theorem bounds_reclaim {scene : Scene Node} {address : Nat} {place : Place}
    (anchored : scene.actor.pool.arena.segment = scene.actor.segment)
    (leads : scene.actor.segment.placeAt (address - scene.actor.segment.file.base) = place)
    (covers : Scope.Covers allowed place headerSize) :
    (Scope.ofScene allowed).Bounds (reclaim address) scene := by
  refine Scope.bounds_bind (Scope.bounds_attempt (Scope.bounds_inPart ?_))
    fun _ => Scope.bounds_pure ()
  refine Pool.bounds_recycle ?_
  show Scope.Covers allowed (scene.actor.pool.arena.segment.placeAt
    (address - scene.actor.pool.arena.segment.file.base)) headerSize
  rw [anchored, leads]
  exact covers

/-- A node that knows where its own segment is mapped, from which its pool carves, touches only the
words of its queue and headers within its mappings when it reads, whatever there is in memory. -/
theorem bounds_readWithin (fuel : Nat) :
    ∀ {scene : Scene Node}, scene.actor.IsConnected →
      scene.actor.pool.arena.segment = scene.actor.segment → scene.actor.queue.Admits allowed →
        (Scope.ofScene allowed).Bounds (readWithin fuel) scene := by
  induction fuel with
  | zero => exact fun _ _ _ => Scope.bounds_hang
  | succ fuel ih =>
      intro scene connected anchored admits
      refine Scope.bounds_bind Scope.bounds_self fun {node between} looked => ?_
      obtain ⟨rfl, rfl⟩ := Outcome.done.inj looked
      refine Scope.bounds_bind (Scope.bounds_inMemory admits.dequeue) fun {taken taking} done => ?_
      have same := Scene.inMemory_done done
      cases taken with
      | none => exact Scope.bounds_pure none
      | some offset =>
          refine Scope.bounds_bind (Scope.bounds_ofAbort _) fun {address one} resolves => ?_
          obtain ⟨resolved, rfl⟩ := Action.ofAbort_done resolves
          refine Scope.bounds_bind (Scope.bounds_ofAbort _) fun {place two} locates => ?_
          obtain ⟨located, rfl⟩ := Action.ofAbort_done locates
          have covers := admits.header located
          refine Scope.bounds_bind (Scope.bounds_look fun alike => ?_) fun {flag three} looked => ?_
          · rw [Memory.isReturnedAt, Memory.isReturnedAt,
              Scope.load_same (covers.part (by decide)) alike.2.2]
          obtain ⟨rfl, rfl⟩ := Outcome.done.inj looked
          split
          · next returned =>
            refine Scope.bounds_bind (bounds_reclaim (same ▸ anchored)
              (same ▸ connected.own_header returned.1 resolved located) covers)
              fun {_ last} reclaimed => ?_
            have comes := congrArg Outcome.state? reclaimed
            have only := onlyPools_bind (onlyPools_attempt (onlyPools_inPool
              (Pool.recycle address))) (fun _ => onlyPools_pure ()) taking
            -- Whatever the pool does, the node has mapped what it had mapped.
            have stays := only.post_of_state comes
            rw [same] at stays
            obtain ⟨_, arena⟩ := Prod.mk.inj ((reclaim_anchored address).leaves.post_of_state comes)
            have segment : last.actor.segment = scene.actor.segment := by rw [stays]
            refine ih (stays ▸ connected.pool _) ?_ ?_
            · rw [arena, same, anchored, segment]
            · rw [stays]
              exact admits
          · exact Scope.bounds_bind (Scope.bounds_ofAbort _) fun _ => Scope.bounds_pure _

end Node

/-! ## Any word -/

open AddressMap in
/-- **No word leads out of a mapping.** However mappings have been entered and forgotten, as long as
each lies somewhere in the address space, and whichever of the 2 ^ 64 words is looked up, the
address map knows of its rank what was last entered, and the word is resolved exactly if a whole
header lies at an aligned address in that mapping (`AddressMap.Guards`).

So from any memory at all, with any words for head, tail and links, appending to a queue, taking
from it, and every single step of a sender or of the receiver look at the two words of the queue and
at headers within mappings, and change nothing else; and so does a node that reads its queue,
however many fragments it takes back on the way. -/
theorem words_stay_inside :
    (∀ (own : UInt32) (changes : List Change) (map : AddressMap),
      (∀ change ∈ changes, change.IsPlaced) → changes.foldlM change (empty own) = .ok map →
      (∀ rank, map.find? rank = standing changes rank) ∧
      (∀ raw : Int, -2 ^ 63 ≤ raw → raw < 2 ^ 63 →
        (Offset.ofRaw raw).raw = raw ∧ Guards changes map (Offset.ofRaw raw)) ∧
      ∀ (queue : Queue) (memory : Memory), queue.addresses = map →
        (∀ place, queue.MayTouch place → place.IsWithin queue.block 16 ∨
          ∃ rank mapping position, standing changes rank = some mapping ∧
            position + headerSize ≤ mapping.size ∧
            (mapping.base + position) % headerAlignment = 0 ∧
            place.IsWithin ⟨mapping.region, position⟩ headerSize) ∧
        (∀ offset, (Scope.ofMemory queue.MayTouch).Bounds (queue.enqueue offset) memory) ∧
        (Scope.ofMemory queue.MayTouch).Bounds queue.dequeue memory ∧
        (∀ sender : Sender, (Scope.ofMemory queue.MayTouch).Bounds (sender.advance queue) memory) ∧
        ∀ receiver : Receiver,
          (Scope.ofMemory queue.MayTouch).Bounds (receiver.advance queue) memory) ∧
    ∀ scene : Scene Node, scene.actor.Reached →
      (Scope.ofScene scene.actor.queue.MayTouch).Bounds Node.readQueue scene ∧
      ∀ fuel, (Scope.ofScene scene.actor.queue.MayTouch).Bounds (Node.readWithin fuel) scene := by
  refine ⟨fun own changes map placed done => ⟨find?_changes done, fun raw low high =>
    ⟨Offset.raw_ofRaw_of_range low high, guards placed done _⟩, fun queue memory same =>
    ⟨fun place touches => ?_, ?_⟩⟩, fun scene reached => ?_⟩
  · rcases touches with inside | ⟨rank, mapping, position, found, rest⟩
    · exact .inl inside
    · rw [same, find?_changes done] at found
      exact .inr ⟨rank, mapping, position, found, rest⟩
  · have admits := queue.admits_mayTouch
    exact ⟨admits.enqueue, admits.dequeue, admits.sender, admits.receiver⟩
  · have reads (fuel : Nat) := Node.bounds_readWithin fuel reached.connected reached.arena_segment
      scene.actor.queue.admits_mayTouch
    refine ⟨?_, reads⟩
    rw [Node.readQueue]
    refine Scope.bounds_bind Scope.bounds_self fun {_ between} looked => ?_
    obtain ⟨-, rfl⟩ := Outcome.done.inj looked
    exact reads _

/-- A process maps the segments of two ranks, and one of them again elsewhere. -/
def remappedChanges : List AddressMap.Change :=
  [.register 7 ⟨4096, 4096, 0⟩, .register 9 ⟨64, 1024, 1⟩, .unregister 7,
    .register 7 ⟨65536, 4096, 0⟩]

/-- A header is looked for where the segment is mapped now; one that would begin too late, or at no
multiple of 64, is not found, and the word -1 stands for nothing. A node that has been made reads no
more than its queue and headers, even when head and tail have been overwritten. -/
theorem words_stay_inside_remapped :
    ∃ map, (∀ change ∈ remappedChanges, change.IsPlaced) ∧
      remappedChanges.foldlM AddressMap.change (.empty 7) = .ok map ∧
      map.resolve (.ofRaw (7 * 2 ^ 32 + 4032)) = .ok 69568 ∧
      (∀ address, map.resolve (.ofRaw (7 * 2 ^ 32 + 4033)) ≠ .ok address) ∧
      (∀ address, map.resolve (.ofRaw (9 * 2 ^ 32 + 8)) ≠ .ok address) ∧
      map.address (.ofRaw (-1)) = .error (.unregistered 0xFFFFFFFF) ∧
      Node.resident.1.Reached ∧
      (Scope.ofScene Node.resident.1.queue.MayTouch).Bounds Node.readQueue
        ⟨Node.resident.1, Node.resident.2.memory.store QueueField.head
          Node.resident.1.segment.queueBlock 12345, []⟩ := by
  have placed : ∀ change ∈ remappedChanges, change.IsPlaced := by
    simp only [remappedChanges, List.forall_mem_cons, AddressMap.Change.IsPlaced]
    refine ⟨?_, ?_, trivial, ?_, by simp⟩ <;> exact ⟨by decide, by decide⟩
  obtain ⟨maps, reads⟩ := words_stay_inside
  have done : remappedChanges.foldlM AddressMap.change (.empty 7) =
      .ok ⟨7, [(7, ⟨65536, 4096, 0⟩), (9, ⟨64, 1024, 1⟩)]⟩ := rfl
  obtain ⟨-, words, -⟩ := maps 7 remappedChanges _ placed done
  have last := (words (7 * 2 ^ 32 + 4032) (by decide) (by decide)).2
  have late := (words (7 * 2 ^ 32 + 4033) (by decide) (by decide)).2
  have odd := (words (9 * 2 ^ 32 + 8) (by decide) (by decide)).2
  have negative := (words (-1) (by decide) (by decide)).2
  have resident := Node.reached_resident
  generalize Node.resident = made at resident ⊢
  refine ⟨_, placed, done, ?_, fun address resolved => ?_, fun address resolved => ?_, ?_,
    resident, (reads ⟨made.1, _, _⟩ resident).1⟩
  · exact (last.resolve_iff _).mpr ⟨⟨65536, 4096, 0⟩, rfl, by decide, by decide, rfl⟩
  · obtain ⟨mapping, found, room, _⟩ := (late.resolve_iff _).mp resolved
    obtain rfl : (⟨65536, 4096, 0⟩ : Mapping) = mapping := Option.some.inj found
    exact absurd room (by decide)
  · obtain ⟨mapping, found, _, aligned, _⟩ := (odd.resolve_iff _).mp resolved
    obtain rfl : (⟨64, 1024, 1⟩ : Mapping) = mapping := Option.some.inj found
    exact absurd aligned (by decide)
  · exact negative.negative (by decide) (by decide)

end RankMail

import RankMail.Proofs.Network.Creating
import RankMail.Proofs.Network.Operations
import RankMail.Proofs.Network.Settled
import RankMail.Proofs.Node.Peers

set_option autoImplicit false

/-! # What a configuration promises

`Config.validate` looks at numbers only. What is then done with the numbers is done elsewhere, and
each place has bounds of its own:

    segment size      when the segment is made
    capacities        when the arena is made
    slot size         when a slot is carved from what is left of the segment

If files and mappings do not fail, a configuration is valid exactly if all of these are content with
it, for a first slot of each class; and a node that is made with it can send itself whatever a class
holds (`Config.validate_agrees`).
-/

namespace RankMail

/-! ## Capacities -/

namespace Capacities

variable {capacities : Capacities}

/-- Folding over capacities comes to at most a limit exactly if each of them has a slot of at most
that size. -/
theorem foldlM_slots (limit : Nat) (sizes : List UInt64) (largest : Nat) :
    (∃ found, sizes.foldlM (fun largest capacity =>
        match slotSize capacity.toNat with
        | some size => Except.ok (max largest size)
        | none => .error (Fault.config .capacityTooLarge)) largest = .ok found ∧ found ≤ limit) ↔
      largest ≤ limit ∧ ∀ capacity ∈ sizes, ∃ size, slotSize capacity.toNat = some size ∧
        size ≤ limit := by
  induction sizes generalizing largest with
  | nil =>
      constructor
      · rintro ⟨found, same, below⟩
        obtain rfl := Except.ok.inj same
        exact ⟨below, fun _ inside => absurd inside List.not_mem_nil⟩
      · exact fun both => ⟨largest, rfl, both.1⟩
  | cons capacity sizes ih =>
      rw [List.foldlM_cons, List.forall_mem_cons]
      cases sized : slotSize capacity.toNat with
      | none =>
          refine iff_of_false ?_ ?_
          · rintro ⟨_, same, _⟩
            cases same
          · rintro ⟨_, ⟨_, same, _⟩, _⟩
            cases same
      | some size =>
          refine (ih (max largest size)).trans ?_
          rw [Nat.max_le, and_assoc]
          refine and_congr_right fun _ => and_congr_left fun _ => ?_
          exact ⟨fun below => ⟨size, rfl, below⟩, fun ⟨_, same, below⟩ =>
            Option.some.inj same ▸ below⟩

/-- The longest slot is at most so long exactly if each class has a slot of at most that length. -/
theorem largestSlot_le_iff (limit : Nat) :
    (∃ largest, capacities.largestSlot = .ok largest ∧ largest ≤ limit) ↔
      ∀ sizeClass, ∃ size, slotSize (capacities.capacity sizeClass) = some size ∧ size ≤ limit := by
  refine (foldlM_slots limit capacities.toList 0).trans ?_
  rw [and_iff_right (Nat.zero_le _)]
  constructor
  · exact fun each sizeClass => each _ (List.mem_map_of_mem (SizeClass.mem_all sizeClass))
  · intro each capacity inside
    obtain ⟨sizeClass, _, rfl⟩ := List.mem_map.mp inside
    exact each sizeClass

end Capacities

namespace Config

variable {config : Config}

/-- A first slot of each class fits into the arena of a segment. -/
def HasRoom (config : Config) : Prop :=
  ∀ sizeClass, ∃ size, slotSize (config.capacities.capacity sizeClass) = some size ∧
    arenaStart + size ≤ config.segmentSize.toNat

/-- What it is to be valid, bound by bound. -/
theorem validate_iff : config.validate = .ok () ↔
    (arenaStart < config.segmentSize.toNat ∧ config.segmentSize.toNat ≤ maxSegmentSize) ∧
      config.growBatch ≠ 0 ∧ config.capacities.validate = .ok () ∧ config.HasRoom := by
  rw [validate]
  by_cases tooLarge : maxSegmentSize < config.segmentSize.toNat
  · rw [if_pos tooLarge]
    exact iff_of_false (by simp) fun both => Nat.not_le.mpr tooLarge both.1.2
  rw [if_neg tooLarge]
  by_cases tooSmall : config.segmentSize.toNat ≤ arenaStart
  · rw [if_pos tooSmall]
    exact iff_of_false (by simp) fun both => Nat.not_lt.mpr tooSmall both.1.1
  rw [if_neg tooSmall, and_iff_right ⟨Nat.lt_of_not_le tooSmall, Nat.le_of_not_lt tooLarge⟩]
  by_cases idle : config.growBatch = 0
  · rw [if_pos idle]
    exact iff_of_false (by simp) fun both => both.1 idle
  rw [if_neg idle, and_iff_right idle]
  have room : config.HasRoom ↔ ∃ largest, config.capacities.largestSlot = .ok largest ∧
      largest ≤ config.segmentSize.toNat - arenaStart := by
    rw [Capacities.largestSlot_le_iff]
    refine forall_congr' fun sizeClass => exists_congr fun size => and_congr_right fun _ => ?_
    omega
  cases valid : config.capacities.validate with
  | error fault => exact iff_of_false (by simp [bind, Except.bind]) fun both => by simp at both
  | ok value =>
      rw [room, and_iff_right rfl]
      cases longest : config.capacities.largestSlot with
      | error fault =>
          refine iff_of_false (by simp [bind, Except.bind]) ?_
          rintro ⟨_, same, _⟩
          cases same
      | ok largest =>
          simp only [bind, Except.bind, Except.ok.injEq, exists_eq_left']
          split
          · next large => exact iff_of_false (by simp) (Nat.not_le.mpr large)
          · next fits => exact iff_of_true rfl (Nat.le_of_not_lt fits)

end Config

/-! ## Making a segment -/

/-- Only a file can have been the matter. -/
def ByFile {Value : Type} (result : Except Fault Value) : Prop :=
  ∀ fault, result = .error fault → ∃ cause, fault = .file cause

section

variable {Value : Type}

theorem byFile_ok (value : Value) : ByFile (.ok value) := fun _ same => by cases same

theorem byFile_file (cause : FileFault) : ByFile (.error (.file cause) : Except Fault Value) :=
  fun _ same => ⟨cause, (Except.error.inj same).symm⟩

theorem ByFile.pass {Other : Type} {fault : Fault}
    (byFile : ByFile (.error fault : Except Fault Value)) :
    ByFile (.error fault : Except Fault Other) := by
  obtain ⟨cause, rfl⟩ := byFile fault rfl
  exact byFile_file cause

end

namespace Disk

theorem ensureDirectory_byFile (path : String) (disk : Disk) :
    (ensureDirectory path disk).Meets False fun result _ => ByFile result := by
  rw [ensureDirectory]
  split
  · exact byFile_ok ()
  · split
    · exact byFile_ok ()
    · exact byFile_file _

theorem ensureDirectories_byFile (names : List String) : ∀ (path : String) (disk : Disk),
    (ensureDirectories path names disk).Meets False fun result _ => ByFile result := by
  induction names with
  | nil => exact ensureDirectory_byFile
  | cons last above ih =>
      intro path disk
      have first := ensureDirectory_byFile path disk
      rw [ensureDirectories]
      dsimp only
      split
      · refine Action.meets_bind ((ih _ _).mono ?_)
        rintro (fault | value) after byFile
        · exact byFile
        · exact ensureDirectory_byFile path after
      · exact first

theorem makeDirectories_byFile (path : String) (disk : Disk) :
    (makeDirectories path disk).Meets False fun result _ => ByFile result := by
  rw [makeDirectories]
  split
  · exact byFile_ok ()
  · exact ensureDirectories_byFile _ path disk

end Disk

theorem World.onDisk_byFile (change : Disk → Except FileFault Disk) (world : World) :
    (World.onDisk change world).Meets False fun result _ => ByFile result := by
  rw [World.onDisk]
  split
  · exact byFile_ok ()
  · exact byFile_file _

theorem MappedFile.create_lockFault (path : String) (size : Nat) (world : World) :
    (MappedFile.create path size world).Meets False fun _ after =>
      after.addresses.lockFault = world.addresses.lockFault := by
  rw [MappedFile.create]
  split
  · exact rfl
  refine Action.meets_bind ?_
  rw [World.createFile]
  split
  · refine Outcome.meets_done.mpr (Action.meets_bind ?_)
    rw [World.setLength]
    split
    · refine Action.meets_within.mpr (Outcome.meets_done.mpr ?_)
      dsimp only
      rw [MappedFile.map]
      split
      · exact rfl
      · next addresses taken => exact AddressSpace.lockFault_take? taken
    · exact rfl
  · exact rfl

theorem MappedFile.create_byFile (path : String) {size : Nat} (some : size ≠ 0) (world : World) :
    (MappedFile.create path size world).Meets False fun result _ => ByFile result := by
  rw [MappedFile.create, if_neg some]
  refine Action.meets_bind ?_
  rw [World.createFile]
  split
  · refine Outcome.meets_done.mpr (Action.meets_bind ?_)
    rw [World.setLength]
    split
    · refine Action.meets_within.mpr (Outcome.meets_done.mpr ?_)
      dsimp only
      rw [MappedFile.map]
      split
      · exact byFile_file _
      · exact byFile_ok _
    · exact byFile_file _
  · exact byFile_file _

namespace Segment

variable {directory : String} {rank : UInt32} {size : Nat} {removesFile : Bool} {world : World}

theorem publish_lockFault (segment : Segment) (target : String) (world : World) :
    (segment.publish target world).Meets False fun _ after =>
      after.addresses.lockFault = world.addresses.lockFault := by
  refine Action.meets_bind (Action.meets_attempt (Action.meets_bind ?_))
  rw [World.onDisk]
  split
  · exact rfl
  · refine Outcome.meets_failed.mpr (Action.meets_bind ?_)
    rw [close_eq]
    exact rfl

theorem publish_byFile (segment : Segment) (target : String) (world : World) :
    (segment.publish target world).Meets False fun result _ => ByFile result := by
  refine Action.meets_bind (Action.meets_attempt (Action.meets_bind
    ((World.onDisk_byFile ..).mono ?_)))
  rintro (fault | value) after byFile
  · refine Action.meets_bind ((close_meets ..).mono ?_)
    rintro result last ⟨rfl, _⟩
    exact byFile.pass
  · exact byFile_ok _

/-- A segment of a rank and of a size that may be used is made unless a file is the matter. -/
theorem create_byFile (usable : rank.toNat ≤ maxRank)
    (fits : arenaStart < size ∧ size ≤ maxSegmentSize) :
    (create directory rank size removesFile world).Meets False fun result _ => ByFile result := by
  rw [create, if_neg (Nat.not_lt.mpr usable), if_neg (by omega)]
  refine Action.meets_bind (Action.meets_within.mpr ((Disk.makeDirectories_byFile ..).mono ?_))
  rintro (fault | value) made byFile
  · exact byFile.pass
  · refine Action.meets_bind ((MappedFile.create_byFile _ (by omega) _).mono ?_)
    rintro (fault | file) drafted byFile
    · exact byFile.pass
    · exact Action.meets_bind (Outcome.meets_done.mpr (publish_byFile ..))

/-- Files and mappings do not fail when the segment of a rank is made. -/
def Serves (directory : String) (rank : UInt32) (size : Nat) (removesFile : Bool)
    (world : World) : Prop :=
  ∀ cause after, create directory rank size removesFile world ≠ .failed (.file cause) after

theorem serves_of_done
    (done : (create directory rank size removesFile world).done?.isSome = true) :
    Serves directory rank size removesFile world := by
  intro cause after failed
  rw [failed] at done
  cases done

theorem create_lockFault (directory : String) (rank : UInt32) (size : Nat) (removesFile : Bool)
    (world : World) :
    (create directory rank size removesFile world).Meets False fun _ after =>
      after.addresses.lockFault = world.addresses.lockFault := by
  rw [create]
  split
  · exact rfl
  split
  · exact rfl
  refine Action.meets_bind (Action.meets_within.mpr
    ((Disk.makeDirectories_meets directory world.disk).mono ?_))
  rintro (fault | value) disk _
  · exact rfl
  refine Action.meets_bind ((MappedFile.create_lockFault ..).mono ?_)
  rintro (fault | file) drafted same
  · exact same
  refine Action.meets_bind (Outcome.meets_done.mpr ((publish_lockFault ..).mono ?_))
  exact fun _ _ again => again.trans same

theorem lockFault_create {segment : Segment} {after : World}
    (made : create directory rank size removesFile world = .done segment after) :
    after.addresses.lockFault = world.addresses.lockFault := by
  have keeps := create_lockFault directory rank size removesFile world
  rw [made] at keeps
  exact keeps

theorem Serves.create_done_iff (serves : Serves directory rank size removesFile world)
    (usable : rank.toNat ≤ maxRank) :
    (∃ segment after, create directory rank size removesFile world = .done segment after) ↔
      arenaStart < size ∧ size ≤ maxSegmentSize := by
  constructor
  · rintro ⟨segment, after, made⟩
    have ends := create_ends directory rank size removesFile world
    rw [made] at ends
    obtain ⟨_, above, below, _⟩ := ends segment rfl
    exact ⟨above, below⟩
  · intro fits
    have meets : (create directory rank size removesFile world).Meets False _ :=
      create_byFile usable fits
    cases ends : create directory rank size removesFile world with
    | done segment after => exact ⟨segment, after, rfl⟩
    | failed fault after =>
        rw [ends] at meets
        obtain ⟨cause, rfl⟩ := meets fault rfl
        exact absurd ends (serves cause after)
    | aborted cause =>
        rw [ends] at meets
        exact meets.elim
    | hung =>
        rw [ends] at meets
        exact meets.elim

end Segment

/-! ## A first slot -/

namespace Arena

theorem ofSegment_done_iff {segment : Segment} {capacities : Capacities} {rank : UInt32} :
    (∃ arena, ofSegment segment capacities rank = .ok arena) ↔ capacities.validate = .ok () := by
  refine ⟨fun ⟨arena, made⟩ => (ofSegment_ok made).1, fun valid => ?_⟩
  exact ⟨⟨segment, capacities, rank, #[]⟩, by rw [ofSegment, valid]; rfl⟩

end Arena

namespace Outcome

variable {State Part Value : Type} {outcome : Outcome State Value} {change : State → Part}

theorem mapState_done_iff : (∃ value last, outcome.mapState change = .done value last) ↔
    ∃ value last, outcome = .done value last := by
  constructor
  · rintro ⟨value, last, same⟩
    cases outcome with
    | done value last => exact ⟨value, last, rfl⟩
    | failed fault last => cases same
    | aborted cause => cases same
    | hung => cases same
  · rintro ⟨value, last, rfl⟩
    exact ⟨value, change last, rfl⟩

end Outcome

namespace Config

variable {config : Config} {directory : String} {rank : UInt32} {sizeClass : SizeClass}
  {world : World}

/-- Makes a segment as a node does, and carves a first slot in it. -/
def firstSlot (directory : String) (rank : UInt32) (config : Config) (sizeClass : SizeClass) :
    Action World Fragment := do
  let segment ← Segment.create directory rank config.segmentSize.toNat config.removeOnClose
  let arena ← .ofFault (Arena.ofSegment segment config.capacities rank)
  .within (fun world => world.enter arena) (fun scene world => world.leave scene)
    (Arena.carve sizeClass)

/-- A fragment is the first of its class: it begins the arena, and both its handle and its header
have the capacity that is configured. -/
structure IsFirst (config : Config) (sizeClass : SizeClass) (fragment : Fragment)
    (memory : Memory) : Prop where
  position : fragment.position = arenaStart
  offset : fragment.offset.position.toNat = fragment.position
  capacity : fragment.capacity = config.capacities.capacity sizeClass
  header : memory.load HeaderField.capacity fragment.place = config.capacities.capacity sizeClass

/-- The first slot of a class is carved exactly if there may be such slots and there is room for
this one. -/
theorem firstSlot_done_iff (proper : world.disk.IsProper world.memory.fresh) {segment : Segment}
    {after : World} (created : Segment.create directory rank config.segmentSize.toNat
      config.removeOnClose world = .done segment after) :
    (∃ fragment last, firstSlot directory rank config sizeClass world = .done fragment last) ↔
      config.capacities.validate = .ok () ∧
        ∃ size, slotSize (config.capacities.capacity sizeClass) = some size ∧
          arenaStart + size ≤ config.segmentSize.toNat := by
  have made := Segment.create_meets proper directory rank config.segmentSize.toNat
    config.removeOnClose
  rw [created] at made
  have made := made segment rfl
  rw [firstSlot, Action.bind_done created]
  cases valid : config.capacities.validate with
  | error fault =>
      refine iff_of_false ?_ fun both => by cases both.1
      rintro ⟨fragment, last, same⟩
      rw [Arena.ofSegment, valid] at same
      cases same
  | ok value =>
      have stacked := (made.carved valid rank).toStacked
      obtain ⟨size, sized, _⟩ := Arena.slotSize_eq (stacked.allowed sizeClass)
      have arena : Arena.ofSegment segment config.capacities rank =
          .ok ⟨segment, config.capacities, rank, #[]⟩ := by
        rw [Arena.ofSegment, valid]
        rfl
      rw [arena, Action.bind_done (Action.ofFault_ok ..)]
      refine Outcome.mapState_done_iff.trans ?_
      have carves := @Arena.Apt.carve_done_iff (after.enter _) stacked.apt sizeClass size sized
      rw [carves]
      simp only [World.enter, made.cursor, made.sized, true_and]
      refine ⟨fun fits => ⟨size, sized, fits⟩, ?_⟩
      rintro ⟨_, again, fits⟩
      exact Option.some.inj (sized.symm.trans again) ▸ fits

theorem firstSlot_meets (proper : world.disk.IsProper world.memory.fresh) :
    (firstSlot directory rank config sizeClass world).Meets False fun result after =>
      ∀ fragment, result = .ok fragment → config.IsFirst sizeClass fragment after.memory := by
  refine Action.meets_bind ((Segment.create_meets proper ..).mono ?_)
  rintro (fault | segment) after made
  · exact fun _ same => by cases same
  have made := made segment rfl
  dsimp only
  cases arena : Arena.ofSegment segment config.capacities rank with
  | error fault => exact fun _ same => by cases same
  | ok arena =>
      obtain ⟨valid, rfl⟩ := Arena.ofSegment_ok arena
      have stacked := (made.carved valid rank).toStacked
      rw [Action.bind_done (Action.ofFault_ok ..)]
      refine Action.meets_within.mpr ((@Arena.Stacked.carve_meets (after.enter _) stacked
        sizeClass).mono ?_)
      rintro (fault | fragment) last carved
      · exact fun _ same => by cases same
      intro _ again
      obtain rfl := Except.ok.inj again
      obtain ⟨rfl, _, _, names, _⟩ := carved
      have capacity := Arena.capacity_next (stacked.allowed sizeClass) arenaStart
      simp only [World.enter, made.cursor] at names ⊢
      refine ⟨rfl, ?_, capacity, names.capacity.trans capacity⟩
      exact (by decide : (UInt32.ofNat arenaStart).toNat = arenaStart)

/-- What a configuration is used for is content with it: it asks for slots, and the segment, the
arena and a first slot of each class are made. -/
structure IsUsable (config : Config) (directory : String) (rank : UInt32) (world : World) :
    Prop where
  grows : 1 ≤ config.growBatch.toNat
  arena : ∃ segment after, Segment.create directory rank config.segmentSize.toNat
    config.removeOnClose world = .done segment after ∧
      ∃ arena, Arena.ofSegment segment config.capacities rank = .ok arena
  slots : ∀ sizeClass, ∃ fragment after,
    firstSlot directory rank config sizeClass world = .done fragment after

/-- No number that a slot of a class is computed with is out of the range of its type. -/
structure InRange (config : Config) (sizeClass : SizeClass) (size : Nat) : Prop where
  sized : slotSize (config.capacities.capacity sizeClass) = some size
  /-- The sum from which the size is rounded down. -/
  rounded : headerSize + config.capacities.capacity sizeClass + (headerAlignment - 1) < 2 ^ 64
  capacity : (UInt32.ofNat (config.capacities.capacity sizeClass)).toNat =
    config.capacities.capacity sizeClass
  arena : arenaStart ≤ config.segmentSize.toNat
  stop : arenaStart + size < 2 ^ 32

/-- A configuration that is valid is usable, and only such a one is. -/
theorem validate_iff_isUsable (usable : rank.toNat ≤ maxRank)
    (proper : world.disk.IsProper world.memory.fresh)
    (serves : Segment.Serves directory rank config.segmentSize.toNat config.removeOnClose world) :
    config.validate = .ok () ↔ config.IsUsable directory rank world := by
  have idle : config.growBatch ≠ 0 ↔ 1 ≤ config.growBatch.toNat := by
    rw [Nat.one_le_iff_ne_zero, ne_eq, ne_eq, ← UInt64.toNat_inj]
    rfl
  rw [validate_iff, idle, ← serves.create_done_iff usable]
  constructor
  · rintro ⟨⟨segment, after, created⟩, grows, valid, room⟩
    refine ⟨grows, ⟨segment, after, created, Arena.ofSegment_done_iff.mpr valid⟩,
      fun sizeClass => ?_⟩
    exact (firstSlot_done_iff proper created).mpr ⟨valid, room sizeClass⟩
  · rintro ⟨grows, ⟨segment, after, created, made⟩, slots⟩
    refine ⟨⟨segment, after, created⟩, grows, Arena.ofSegment_done_iff.mp made,
      fun sizeClass => ?_⟩
    exact ((firstSlot_done_iff proper created).mp (slots sizeClass)).2

theorem inRange_of_validate (valid : config.validate = .ok ()) (sizeClass : SizeClass) :
    ∃ size, config.InRange sizeClass size := by
  obtain ⟨⟨above, below⟩, _, capacities, room⟩ := validate_iff.mp valid
  obtain ⟨size, sized, fits⟩ := room sizeClass
  have allowed := Capacities.le_maxCapacity capacities sizeClass
  simp only [maxCapacity, maxSegmentSize, headerSize] at allowed below
  refine ⟨size, sized, ?_, ?_, Nat.le_of_lt above, by omega⟩
  · simp only [headerSize, headerAlignment]
    omega
  · rw [UInt32.toNat_ofNat']
    omega

end Config

/-! ## A node that sends to itself -/

section

variable {directory : String} {mapped : List Segment} {network : Network} {rank : UInt32}
  {node : Node} {pending : UInt32 → List Item} {hand : List Offset} {config : Config}
  {world : World} {sizeClass : SizeClass} {size : Nat}

theorem Sound.get_done {inner : Scene Pool}
    (sound : Sound directory mapped (network.left rank (inner.around node)) pending hand)
    (sized : slotSize (inner.actor.arena.capacities.capacity sizeClass) = some size)
    (fits : inner.actor.arena.segment.cursor inner.memory + size ≤
      inner.actor.arena.segment.size) :
    ∃ fragment after, Pool.get sizeClass inner = .done fragment after := by
  rw [Pool.get, Action.bind_done (Scene.self_apply _)]
  cases inner.actor.free.get sizeClass with
  | cons fragment rest => exact ⟨_, _, rfl⟩
  | nil =>
      have found := network.nodes_left rank (inner.around node)
      have stacked : inner.actor.arena.Stacked inner.memory := (sound.carved found).toStacked
      obtain ⟨fragment, last, carves⟩ := (@Arena.Apt.carve_done_iff
        ⟨inner.actor.arena, inner.memory, inner.notices⟩ stacked.apt sizeClass size sized).mpr fits
      have carved : Pool.inArena (Arena.carve sizeClass) inner = .done fragment
          ⟨{ inner.actor with arena := last.actor }, last.memory, last.notices⟩ := by
        rw [Pool.inArena, Scene.inPart_apply, carves]
        rfl
      have carving := sound.carve_meets sizeClass
      rw [carved] at carving
      obtain ⟨after, grown, _⟩ :=
        (Sound.grow_meets sizeClass (inner.actor.growBatch - 1) carving.2.1).done_unit
      exact ⟨fragment, after, (Action.bind_done carved _).trans (Action.bind_done grown _)⟩

/-- A node sends bytes to a peer that it has attached if a slot for them can be carved. -/
theorem Sound.send_done {scene : Scene Node} {peer : UInt32} {payload : List UInt8}
    (sound : Sound directory mapped (network.left rank scene) pending hand)
    (reaching : (network.left rank scene).Reaching scene.actor False)
    (attached : scene.actor.segmentOf? peer ≠ none)
    (chosen : scene.actor.pool.arena.capacities.forPayload payload.length = some sizeClass)
    (sized : slotSize (scene.actor.pool.arena.capacities.capacity sizeClass) = some size)
    (fits : scene.actor.pool.arena.segment.cursor scene.memory + size ≤
      scene.actor.pool.arena.segment.size) :
    ∃ after, Node.send peer payload scene = .done () after := by
  obtain ⟨fragment, taken, allocated⟩ : ∃ fragment taken,
      Node.alloc sizeClass scene = .done fragment taken :=
    Outcome.mapState_done_iff.mpr (@Sound.get_done _ _ _ _ scene.actor _ _ _ _
      ⟨scene.actor.pool, _, _⟩ sound sized fits)
  have allocates := sound.alloc_holds chosen
  rw [allocated] at allocates
  obtain ⟨grows, sound, handle, _, enough⟩ := allocates
  obtain ⟨written, wrote, actor, sound, _⟩ := (sound.write_meets handle enough).done_unit
  have growsToo : scene.actor.Grows written.actor := actor ▸ grows
  have sending := sound.writeToPeer_meets (actor ▸ handle) (reaching.grows growsToo) peer
  obtain ⟨after, sent, _⟩ : ∃ after, Node.writeToPeer peer fragment written = .done () after ∧
      True := by
    refine (sending.mono ?_).done_unit
    -- The peer is attached, so the fragment does not come back.
    rintro (fault | value) after ⟨_, ends⟩
    · rw [growsToo.segmentOf?] at ends
      exact absurd ends.2.1 attached
    · exact ⟨rfl, trivial⟩
  refine ⟨after, ?_⟩
  rw [Node.send_of_class peer chosen, Action.bind_done allocated, Action.bind_done wrote]
  exact sent

theorem Node.create_done (usable : rank.toNat ≤ maxRank)
    (proper : world.disk.IsProper world.memory.fresh) (positive : 0 < world.nextBase)
    (serves : Segment.Serves directory rank config.segmentSize.toNat config.removeOnClose world)
    (valid : config.validate = .ok ())
    (allowed : config.lockMemory = true → world.addresses.lockFault = none) :
    ∃ node after, Node.create directory rank config world = .done node after := by
  obtain ⟨sizes, _, capacities, _⟩ := Config.validate_iff.mp valid
  obtain ⟨segment, made, created⟩ := (serves.create_done_iff usable).mpr sizes
  have makes := Segment.create_meets proper directory rank config.segmentSize.toNat
    config.removeOnClose
  rw [created] at makes
  have making := makes segment rfl
  have somewhere : segment.mapping.base ≠ 0 := by
    show segment.file.base ≠ 0
    rw [making.base]
    omega
  obtain ⟨addresses, registered⟩ : ∃ addresses,
      (AddressMap.empty rank).register rank segment.mapping = .ok addresses := by
    rcases AddressMap.register_cases (.empty rank) rank somewhere with ⟨refused, _⟩ | ⟨_, known⟩
    · refine absurd ⟨usable, ?_⟩ refused
      show segment.size ≤ maxSegmentSize
      rw [making.sized]
      exact making.below
    · exact known
  have founded : ofSegment directory rank config segment made = _ := ofSegment_eq registered
    capacities fun wanted => (Segment.lockFault_create created).trans (allowed wanted)
  exact ⟨_, made, (Action.bind_done ((makeSegment_eq valid).trans created) _).trans founded⟩

/-- The first thing a new node does is to send itself bytes, if a class holds them. -/
theorem Node.Created.send_done {after : World} {payload : List UInt8}
    (created : node.Created directory rank config world after)
    (proper : world.disk.IsProper world.memory.fresh)
    (next : 0 < world.nextBase ∧ world.nextBase % pageSize = 0) (room : config.HasRoom)
    (held : ∃ sizeClass, payload.length ≤ config.capacities.capacity sizeClass) :
    ∃ last, Node.send rank payload (after.enter node) = .done () last := by
  -- What else the process has mapped does not matter, so it may as well be nothing.
  have alone : node.Created directory rank config { world with segments := [] }
      { after with segments := [node.segment] } :=
    { created with made := { created.made with segments := rfl } }
  have settled := Settled.join (@Settled.start directory { world with segments := [] } proper rfl
    next) rfl alone
  have found := (Network.start { world with segments := [] }).nodes_joined_self rank node
    { after with segments := [node.segment] }
  have sound := settled.sound
  have enter : Network.left _ rank (after.enter node) = _ := Network.left_enter found
  rw [← enter] at sound
  have arena : node.pool.arena = ⟨node.segment, config.capacities, rank, #[]⟩ :=
    congrArg Pool.arena created.pool
  obtain ⟨sizeClass, chosen⟩ :
      ∃ sizeClass, config.capacities.forPayload payload.length = some sizeClass := by
    rw [← Option.isSome_iff_exists, Option.isSome_iff_ne_none]
    obtain ⟨sizeClass, fits⟩ := held
    exact fun none => Nat.not_le.mpr (Capacities.forPayload_eq_none_iff.mp none sizeClass) fits
  obtain ⟨size, sized, fits⟩ := room sizeClass
  refine @Sound.send_done _ _ _ _ _ _ sizeClass size _ _ _ sound ?_ ?_ ?_ ?_ ?_
  · rw [enter]
    intro other peer foundPeer
    rcases Network.nodes_of_joined foundPeer with ⟨rfl, rfl⟩ | ⟨_, foundPeer⟩
    · exact .inl (by simp [World.enter, created.segmentOf?])
    · cases foundPeer
  · simp [World.enter, created.segmentOf?]
  · simpa only [World.enter, arena] using chosen
  · simpa only [World.enter, arena] using sized
  · simpa only [World.enter, arena, created.made.cursor, created.made.sized] using fits

/-- If files and mappings serve, a configuration is valid exactly if everything that uses it accepts
it. The slots then have the capacities that are configured, no number is out of range, and a new
node sends itself whatever the largest class holds. There is such a node unless its memory is to be
locked and the system refuses. -/
theorem Config.validate_agrees (directory : String) (config : Config)
    (usable : rank.toNat ≤ maxRank) (proper : world.disk.IsProper world.memory.fresh)
    (next : 0 < world.nextBase ∧ world.nextBase % pageSize = 0)
    (serves : Segment.Serves directory rank config.segmentSize.toNat config.removeOnClose world) :
    (config.validate = .ok () ↔ config.IsUsable directory rank world) ∧
      (config.validate = .ok () →
        (∀ sizeClass, ∃ fragment after,
          firstSlot directory rank config sizeClass world = .done fragment after ∧
            config.IsFirst sizeClass fragment after.memory) ∧
        (∀ sizeClass, ∃ size, config.InRange sizeClass size) ∧
        (∀ node after, Node.create directory rank config world = .done node after →
          ∀ payload : List UInt8,
            (∃ sizeClass, payload.length ≤ config.capacities.capacity sizeClass) →
              ∃ last, Node.send rank payload (after.enter node) = .done () last) ∧
        ((config.lockMemory = true → world.addresses.lockFault = none) →
          ∃ node after, Node.create directory rank config world = .done node after)) := by
  have agrees : config.validate = .ok () ↔ config.IsUsable directory rank world :=
    validate_iff_isUsable usable proper serves
  refine ⟨agrees, fun valid => ⟨fun sizeClass => ?_, inRange_of_validate valid,
    fun node after made payload held => ?_, Node.create_done usable proper next.1 serves valid⟩⟩
  · obtain ⟨fragment, after, carved⟩ := (agrees.mp valid).slots sizeClass
    have first : (firstSlot directory rank config sizeClass world).Meets False _ :=
      firstSlot_meets proper
    rw [carved] at first
    exact ⟨fragment, after, carved, first fragment rfl⟩
  · have creates := Node.create_meets proper directory rank config
    rw [made] at creates
    exact (creates node rfl).send_done proper next (validate_iff.mp valid).2.2.2 held

end

/-- A configuration for a segment with room for eight slots or so. -/
def Config.modest : Config := ⟨2048, ⟨64, 128, 256⟩, 2, .busyPoll 1, false, false⟩

/-- In a process that has done nothing yet a node is made with it, and sends itself 256 bytes. -/
theorem Config.validate_agrees_modest :
    Config.modest.validate = .ok () ∧ Config.modest.IsUsable "/" 0 (.start 7 []) ∧
      ∃ node after last, Node.create "/" 0 Config.modest (.start 7 []) = .done node after ∧
        Node.send 0 (List.replicate 256 1) (after.enter node) = .done () last := by
  have serves : Segment.Serves "/" 0 Config.modest.segmentSize.toNat Config.modest.removeOnClose
      (.start 7 []) := Segment.serves_of_done (by decide +kernel)
  have valid : Config.modest.validate = .ok () := by decide +kernel
  obtain ⟨agrees, uses⟩ := @Config.validate_agrees 0 (.start 7 []) "/" .modest (by decide)
    (Disk.isProper_empty _) (by decide) serves
  obtain ⟨_, _, sends, creates⟩ := uses valid
  obtain ⟨node, after, created⟩ := creates fun _ => rfl
  obtain ⟨last, sent⟩ := sends node after created (List.replicate 256 1)
    ⟨.maxSend, Nat.le_of_eq List.length_replicate⟩
  exact ⟨valid, agrees.mp valid, node, after, last, created, sent⟩

end RankMail

import RankMail.Proofs.Disk.Files
import RankMail.Proofs.Memory.Frame

set_option autoImplicit false

/-! # What comes of making, mapping and closing a segment

A segment that has been made lies in a file of its own, at addresses that no mapping has had, and
its control words say that its arena and its queue are empty: `Segment.Made`. What else there is in
memory and on disk stays. A segment that is attached is a further mapping of a file that is there
(`Segment.attach_meets`), and closing one that does not remove its file changes neither files nor
memory (`Segment.close_eq`).
-/

namespace RankMail

namespace Memory

/-- Nothing has changed outside a region, and no region is gone. -/
structure Only (number : Nat) (before after : Memory) : Prop where
  region : ∀ {other}, other ≠ number → after.region other = before.region other
  fresh : before.fresh ≤ after.fresh

variable {number : Nat} {before after last : Memory}

theorem Only.trans (one : Only number before after) (two : Only number after last) :
    Only number before last :=
  ⟨fun differs => (two.region differs).trans (one.region differs),
    Nat.le_trans one.fresh two.fresh⟩

theorem only_modify (memory : Memory) (number : Nat) (change : Region → Region) :
    Only number memory (memory.modify number change) where
  region differs := by rw [region_modify, if_neg differs]
  fresh := length_setRegion ..

theorem Only.read (only : Only number before after) {place : Place}
    (differs : place.region ≠ number) (count : Nat) :
    after.read place count = before.read place count := by
  rw [Memory.read, Memory.read, only.region differs]

theorem only_resize (memory : Memory) (number size : Nat) :
    Only number memory (memory.resize number size) := only_modify ..

theorem only_write (memory : Memory) (place : Place) (data : List UInt8) :
    Only place.region memory (memory.write place data) := only_modify ..

theorem only_store (memory : Memory) (field : Field) (block : Place) (number : Nat) :
    Only block.region memory (memory.store field block number) :=
  only_write memory (block.shift field.distance) _

theorem lt_length_setRegion (regions : List Region) (index : Nat) (region : Region) :
    index < (setRegion regions index region).length := by
  fun_induction setRegion regions index region with
  | case1 region => exact Nat.one_pos
  | case2 index region ih => exact Nat.succ_lt_succ ih
  | case3 first rest region => exact Nat.succ_pos _
  | case4 first rest index region ih => exact Nat.succ_lt_succ ih

theorem lt_fresh_resize (memory : Memory) (number size : Nat) :
    number < (memory.resize number size).fresh := lt_length_setRegion ..

theorem size_resize (memory : Memory) (number size : Nat) :
    ((memory.resize number size).region number).size = size := by
  rw [resize, region_modify, if_pos rfl]

end Memory

def Field.Apart (field other : Field) : Prop :=
  field.distance + field.width ≤ other.distance ∨ other.distance + other.width ≤ field.distance

instance (field other : Field) : Decidable (field.Apart other) :=
  inferInstanceAs (Decidable (_ ∨ _))

theorem le_alignUp {alignment : Nat} (positive : 0 < alignment) (number : Nat) :
    number ≤ alignUp alignment number ∧ alignUp alignment number % alignment = 0 := by
  have split := Nat.div_add_mod' (number + (alignment - 1)) alignment
  have rest := Nat.mod_lt (number + (alignment - 1)) positive
  refine ⟨?_, Nat.mul_mod_left ..⟩
  rw [alignUp]
  omega

namespace MappedFile

variable {path : String} {region size : Nat} {world : World}

theorem map_meets (path : String) (region : Nat) (world : World) :
    (map path region world).Meets False fun result after =>
      match result with
      | .ok file => file = ⟨path, region, world.nextBase, (world.memory.region region).size⟩ ∧
          ∃ addresses, after = { world with
            addresses
            nextBase := world.nextBase +
              alignUp pageSize ((world.memory.region region).size + 1) }
      | .error _ => after = world := by
  rw [map]
  split
  · exact rfl
  · exact ⟨rfl, _, rfl⟩

theorem create_meets (path : String) (size : Nat) (world : World) :
    (create path size world).Meets False fun result after => ∀ file, result = .ok file →
      ∃ disk region addresses, world.disk.createFile path world.memory.fresh = .ok (disk, region) ∧
        file = ⟨path, region, world.nextBase, size⟩ ∧
        after = { world with
          disk
          memory := (world.memory.resize region 0).resize region size
          addresses
          nextBase := world.nextBase + alignUp pageSize (size + 1) } := by
  rw [create]
  split
  · exact fun _ same => by cases same
  · refine Action.meets_bind ?_
    rw [World.createFile]
    split
    · next disk region created =>
        refine Outcome.meets_done.mpr (Action.meets_bind ?_)
        rw [World.setLength]
        split
        · refine Action.meets_within.mpr (Outcome.meets_done.mpr ((map_meets ..).mono ?_))
          rintro (fault | file) after ends
          · exact fun _ same => by cases same
          · intro _ same
            obtain rfl := Except.ok.inj same
            obtain ⟨rfl, addresses, rfl⟩ := ends
            have length := (world.memory.resize region 0).size_resize region size
            refine ⟨disk, region, addresses, created, ?_, ?_⟩
            · exact congrArg (MappedFile.mk path region world.nextBase) length
            · exact congrArg (fun length => { world with
                disk
                memory := (world.memory.resize region 0).resize region size
                addresses
                nextBase := world.nextBase + alignUp pageSize (length + 1) }) length
        · exact fun _ same => by cases same
    · exact fun _ same => by cases same

theorem meets_unlessFailed {Value : Type} {stuck : Prop} {file : MappedFile}
    {action : Action World Value} {world : World} {post : Except Fault Value → World → Prop}
    (meets : (action world).Meets stuck fun result after =>
      match result with
      | .ok value => post (.ok value) after
      | .error fault => post (.error fault) (file.unmap after)) :
    (file.unlessFailed action world).Meets stuck post := by
  rw [unlessFailed]
  cases ends : action world with
  | failed fault after => rw [ends] at meets; exact meets
  | done value after => rw [ends] at meets; exact meets
  | aborted cause => rw [ends] at meets; exact meets
  | hung => rw [ends] at meets; exact meets

end MappedFile

namespace Segment

variable {directory : String} {rank process : UInt32} {size : Nat} {removesFile : Bool}
  {segment : Segment} {world after : World}

/-! ## Control words -/

theorem writeControls_keeps (memory : Memory) (block : Place) (rank : UInt32) (size : Nat)
    (process : UInt32) :
    memory.Only block.region (writeControls memory block rank size process) ∧
      ∀ number, ((writeControls memory block rank size process).region number).size =
        (memory.region number).size := by
  have store : ∀ (words : List (Field × Nat)) (written : Memory),
      memory.Only block.region written →
      (∀ number, (written.region number).size = (memory.region number).size) →
      memory.Only block.region
          (words.foldl (fun written word => written.store word.1 block word.2) written) ∧
        ∀ number, ((words.foldl (fun written word => written.store word.1 block word.2)
          written).region number).size = (memory.region number).size := by
    intro words
    -- However many words are still to be stored, all of them lie in the block.
    induction words with
    | nil => exact fun _ only sizes => ⟨only, sizes⟩
    | cons word words ih =>
        intro written only sizes
        refine ih _ (only.trans (written.only_store word.1 block word.2)) fun number => ?_
        rw [(Memory.keeps_store written word.1 block word.2).size]
        exact sizes number
  exact store _ _ (memory.only_write block _) (Memory.keeps_write memory block _).size

/-- After words have been stored one after another, a field holds the last one that was stored in
it. -/
theorem load_words {field : Field} {words : List (Field × Nat)}
    (apart : ∀ other ∈ words.map Prod.fst, other = field ∨ other.Apart field) (memory : Memory)
    (block : Place) :
    (words.foldl (fun written word => written.store word.1 block word.2) memory).load field block =
      (words.reverse.lookup field).elim (memory.load field block) (· % 256 ^ field.width) := by
  induction words generalizing memory with
  | nil => rfl
  | cons first rest ih =>
      obtain ⟨split, others⟩ := List.forall_mem_cons.mp apart
      rw [List.foldl_cons, ih others, List.reverse_cons, List.lookup_append]
      cases rest.reverse.lookup field with
      | some number => rfl
      | none =>
          rw [List.lookup_cons]
          by_cases same : field = first.1
          · rw [beq_iff_eq.mpr same, same]
            exact Memory.load_store_same ..
          · rw [beq_eq_false_iff_ne.mpr same]
            refine Memory.load_store_apart (fun _ => ?_) memory first.2
            have split := split.resolve_left (Ne.symm same)
            simp only [Field.Apart] at split
            simp only [Place.shift]
            omega

theorem load_zeroControls {field : Field} (inside : field.distance + field.width ≤ arenaStart)
    (memory : Memory) (block : Place) : (zeroControls memory block).load field block = 0 := by
  have zeros := Memory.read_write_same memory block (List.replicate arenaStart 0)
  rw [List.length_replicate] at zeros
  rw [Memory.load, Memory.word, zeroControls, Memory.read_shift _ _ inside, zeros,
    List.drop_replicate, List.take_replicate, LittleEndian.value_replicate_zero]

/-- The words of the header of a segment that nobody writes any more once it is ready. -/
structure Identity (memory : Memory) (block : Place) (rank : UInt32) (size : Nat)
    (process : UInt32) : Prop where
  magic : memory.load SegmentField.magic block = segmentMagic
  version : memory.load SegmentField.version block = segmentVersion
  state : memory.load SegmentField.state block = stateReady
  rank : memory.load SegmentField.rank block = rank.toNat
  size : memory.load SegmentField.size block = size
  dataStart : memory.load SegmentField.dataStart block = arenaStart
  owner : memory.load SegmentField.owner block = process.toNat

/-- The control words of a segment that nobody has used yet. -/
structure Fresh (memory : Memory) (block : Place) (rank : UInt32) (size : Nat)
    (process : UInt32) : Prop extends Identity memory block rank size process where
  cursor : memory.load SegmentField.cursor block = arenaStart
  head : memory.load SegmentField.head block = Offset.free.word
  tail : memory.load SegmentField.tail block = Offset.free.word
  rings : memory.load SegmentField.rings block = 0
  waiters : memory.load SegmentField.waiters block = 0

/-- The fields of the header of a new segment, in the order in which they are written. -/
def headerFields : List Field :=
  [SegmentField.state, SegmentField.version, SegmentField.rank, SegmentField.size,
   SegmentField.dataStart, SegmentField.cursor, SegmentField.owner, SegmentField.head,
   SegmentField.tail, SegmentField.magic, SegmentField.state]

theorem map_headerWords (rank : UInt32) (size : Nat) (process : UInt32) :
    (headerWords rank size process).map Prod.fst = headerFields := rfl

theorem fresh_writeControls (memory : Memory) (block : Place) (rank : UInt32) {size : Nat}
    (small : size < 2 ^ 64) (process : UInt32) :
    Fresh (writeControls memory block rank size process) block rank size process := by
  have stored : ∀ {field : Field} {number : Nat},
      (headerWords rank size process).reverse.lookup field = some number →
      (∀ other ∈ headerFields, other = field ∨ other.Apart field) →
      number < 256 ^ field.width →
      (writeControls memory block rank size process).load field block = number := by
    intro field number last apart fits
    rw [writeControls, load_words (map_headerWords rank size process ▸ apart), last]
    exact Nat.mod_eq_of_lt fits
  have zeroed : ∀ {field : Field},
      (headerWords rank size process).reverse.lookup field = none →
      (∀ other ∈ headerFields, other = field ∨ other.Apart field) →
      field.distance + field.width ≤ arenaStart →
      (writeControls memory block rank size process).load field block = 0 := by
    intro field last apart inside
    rw [writeControls, load_words (map_headerWords rank size process ▸ apart), last]
    exact load_zeroControls inside ..
  exact
    { magic := stored rfl (by decide) (by decide)
      version := stored rfl (by decide) (by decide)
      state := stored rfl (by decide) (by decide)
      rank := stored rfl (by decide) rank.toNat_lt
      size := stored rfl (by decide) small
      dataStart := stored rfl (by decide) (by decide)
      owner := stored rfl (by decide) process.toNat_lt
      cursor := stored rfl (by decide) (by decide)
      head := stored rfl (by decide) (by decide)
      tail := stored rfl (by decide) (by decide)
      rings := zeroed rfl (by decide) (by decide)
      waiters := zeroed rfl (by decide) (by decide) }

/-! ## Making -/

/-- What there is once the segment of a rank has been made. -/
structure Made (directory : String) (rank : UInt32) (size : Nat) (world : World) (segment : Segment)
    (after : World) : Prop where
  named : segment.rank = rank
  usable : rank.toNat ≤ maxRank
  above : arenaStart < size
  below : size ≤ maxSegmentSize
  sized : segment.size = size
  base : segment.file.base = world.nextBase
  nextBase : after.nextBase = world.nextBase + alignUp pageSize (size + 1)
  segments : after.segments = segment :: world.segments
  disk : world.disk.Publishes after.disk directory rank world.memory.fresh segment.file.region
  only : world.memory.Only segment.file.region after.memory
  known : segment.file.region < after.memory.fresh
  length : (after.memory.region segment.file.region).size = size
  cursor : segment.cursor after.memory = arenaStart
  head : after.memory.load SegmentField.head segment.place = Offset.free.word
  tail : after.memory.load SegmentField.tail segment.place = Offset.free.word

/-- What is left on disk once a segment has been closed. -/
def left (segment : Segment) (disk : Disk) : Disk :=
  if segment.removesFile then
    match disk.removeFile segment.file.path with
    | .ok after => after
    | .error _ => disk
  else disk

theorem close_eq (segment : Segment) (world : World) :
    segment.close world = .done () (segment.file.unmap { world with
      disk := segment.left world.disk
      segments := world.segments.filter (· != segment) }) := by
  rw [close, Action.bind_done (Action.modify_apply _ _), left]
  split
  · rw [Action.bind_apply, Action.attempt, World.removeFile, World.onDisk]
    dsimp only [MappedFile.unmap]
    cases world.disk.removeFile segment.file.path <;> rfl
  · rfl

/-- Nothing else is mapped where a segment has its addresses, so it is not mapped if those are
free. -/
theorem filter_unmapped {segment : Segment} {mapped : List Segment}
    (unused : ∀ other ∈ mapped, other.file.base ≠ segment.file.base) :
    mapped.filter (· != segment) = mapped := by
  refine List.filter_eq_self.mpr fun other inside => ?_
  rw [bne_iff_ne]
  rintro rfl
  exact unused other inside rfl

/-- Closing a segment changes neither files nor memory if the segment does not remove its file. -/
theorem close_meets (segment : Segment) (world : World) :
    (segment.close world).Meets False fun result after => result = .ok () ∧
      (segment.removesFile = false → after = segment.file.unmap
        { world with segments := world.segments.filter (· != segment) }) := by
  rw [close_eq]
  refine ⟨rfl, fun keeps => ?_⟩
  rw [left, if_neg (Bool.eq_false_iff.mp keeps)]

theorem publish_meets (segment : Segment) (target : String) (world : World) :
    (segment.publish target world).Meets False fun result after =>
      ∀ published, result = .ok published →
        ∃ disk, world.disk.rename segment.file.path target = .ok disk ∧
          published = { segment with file := { segment.file with path := target } } ∧
          after = { world with disk, segments := published :: world.segments } := by
  refine Action.meets_bind (Action.meets_attempt (Action.meets_bind ?_))
  rw [World.onDisk]
  split
  · next disk renamed =>
      intro published same
      obtain rfl := Except.ok.inj same
      exact ⟨disk, renamed, rfl, rfl⟩
  · refine Outcome.meets_failed.mpr (Action.meets_bind ((close_meets ..).mono ?_))
    rintro result after ⟨rfl, _⟩
    exact fun _ same => by cases same

/-- What making a segment comes to, in full: the draft is made in directories that are there, cut to
nothing, given its length, mapped and filled with control words, and takes the name of its rank. -/
theorem create_ends (directory : String) (rank : UInt32) (size : Nat) (removesFile : Bool)
    (world : World) :
    (create directory rank size removesFile world).Meets False fun result after =>
      ∀ segment, result = .ok segment →
        rank.toNat ≤ maxRank ∧ arenaStart < size ∧ size ≤ maxSegmentSize ∧
        ∃ made drafted disk region addresses, world.disk.Grown made ∧
          made.createFile (draftPath directory rank) world.memory.fresh = .ok (drafted, region) ∧
          drafted.rename (draftPath directory rank) (path directory rank) = .ok disk ∧
          segment = ⟨⟨path directory rank, region, world.nextBase, size⟩, rank, removesFile⟩ ∧
          after = { world with
            disk
            memory := writeControls ((world.memory.resize region 0).resize region size) ⟨region, 0⟩
              rank size world.process
            addresses
            nextBase := world.nextBase + alignUp pageSize (size + 1)
            segments := segment :: world.segments } := by
  rw [create]
  split
  · exact fun _ same => by cases same
  · next usable =>
      split
      · exact fun _ same => by cases same
      · next fits =>
          refine Action.meets_bind (Action.meets_within.mpr
            ((Disk.makeDirectories_meets directory world.disk).mono ?_))
          rintro (fault | value) made grown
          · exact fun _ same => by cases same
          · refine Action.meets_bind
              ((MappedFile.create_meets _ size { world with disk := made }).mono ?_)
            rintro (fault | file) drafted ends
            · exact fun _ same => by cases same
            · obtain ⟨disk, region, addresses, created, rfl, rfl⟩ := ends _ rfl
              refine Action.meets_bind (Outcome.meets_done.mpr ((publish_meets ..).mono ?_))
              intro result after ends published same
              obtain ⟨final, renamed, rfl, rfl⟩ := ends published same
              exact ⟨Nat.le_of_not_lt usable, by omega, by omega, made, disk, final, region,
                addresses, grown, created, renamed, rfl, rfl⟩

theorem create_meets (proper : world.disk.IsProper world.memory.fresh) (directory : String)
    (rank : UInt32) (size : Nat) (removesFile : Bool) :
    (create directory rank size removesFile world).Meets False fun result after =>
      ∀ segment, result = .ok segment → Made directory rank size world segment after := by
  refine (create_ends directory rank size removesFile world).mono ?_
  intro result after ends segment same
  obtain ⟨usable, above, below, made, drafted, disk, region, addresses, grown, created, renamed,
    rfl, rfl⟩ := ends segment same
  -- The file is cut to nothing, gets its length, and then its control words.
  have only := (world.memory.only_resize region 0).trans
    ((world.memory.resize region 0).only_resize region size)
  have known := (world.memory.resize region 0).lt_fresh_resize region size
  have length := (world.memory.resize region 0).size_resize region size
  obtain ⟨onlyControls, sizes⟩ := writeControls_keeps
    ((world.memory.resize region 0).resize region size) ⟨region, 0⟩ rank size world.process
  have fresh := fresh_writeControls ((world.memory.resize region 0).resize region size)
    ⟨region, 0⟩ rank (Nat.lt_of_le_of_lt below (by decide)) world.process
  exact
    { named := rfl
      usable := usable
      above := above
      below := below
      sized := rfl
      base := rfl
      nextBase := rfl
      segments := rfl
      disk := Disk.publishes proper grown created renamed
      only := only.trans onlyControls
      known := Nat.lt_of_lt_of_le known onlyControls.fresh
      length := (sizes region).trans length
      cursor := fresh.cursor
      head := fresh.head
      tail := fresh.tail }

/-! ## Attaching -/

/-- A segment that is attached is another mapping of the file that has the name of its rank; if it
cannot be attached, at most some addresses are not used again. -/
theorem attach_meets {region : Nat}
    (filed : world.disk.Files directory (fileName rank) region) :
    (attach directory rank world).Meets True fun result after =>
      ∃ addresses nextBase segments, after = { world with addresses, nextBase, segments } ∧
        match result with
        | .ok segment => segment.rank = rank ∧ segment.removesFile = false ∧
            segment.file.region = region ∧ segment.size = (world.memory.region region).size ∧
            segment.file.base = world.nextBase ∧
            nextBase = world.nextBase + alignUp pageSize (segment.size + 1) ∧
            segments = segment :: world.segments
        | .error _ => segments = world.segments ∧ (nextBase = world.nextBase ∨
            nextBase = world.nextBase +
              alignUp pageSize ((world.memory.region region).size + 1)) := by
  rw [attach]
  refine Action.meets_bind (Action.meets_bind ?_)
  rw [World.openFile]
  split
  · next found opened =>
      -- What has been opened by its name is the file of that name.
      obtain rfl := (Disk.openFile_join isName_fileName opened).unique filed
      refine Outcome.meets_done.mpr (Action.meets_bind (Outcome.meets_done.mpr ?_))
      dsimp only
      split
      · exact ⟨_, _, _, rfl, rfl, .inl rfl⟩
      · refine (MappedFile.map_meets ..).always ?_
        rintro (fault | file) mapped ends
        · exact ends ▸ ⟨_, _, _, rfl, rfl, .inl rfl⟩
        · -- From here on the addresses are gone, even if the segment is refused.
          obtain ⟨rfl, addresses, rfl⟩ := ends
          refine MappedFile.meets_unlessFailed ?_
          split
          · exact ⟨_, _, _, rfl, rfl, .inr rfl⟩
          · refine Action.meets_bind (Action.meets_within.mpr ?_)
            rw [awaitReady]
            split
            · trivial
            · cases checkHeader _ _ _ _ with
              | error fault => exact ⟨_, _, _, rfl, rfl, .inr rfl⟩
              | ok value => exact ⟨_, _, _, rfl, rfl, rfl, rfl, rfl, rfl, rfl, rfl⟩
  · exact ⟨_, _, _, rfl, rfl, .inl rfl⟩

end Segment

end RankMail

import RankMail.Proofs.Node.Creation
import RankMail.Proofs.Segment.Admission

set_option autoImplicit false

/-! # Who removes the file of a rank

A segment that was made to do so removes the file that has the name of its rank when it is closed.
It goes by the name, so whose file that is by then does not matter:

    made     the file of the rank is the new segment's
    closed   if the segment was made to remove its file, there is none any more

A rank may be given a new segment while an earlier one is still mapped, and then the earlier one
takes the file of the new one with it. A `Tenure` says who can do so: those mapped when the file was
made that remove the file of the rank. The file is there as long as none of them has been closed,
and no longer (`Roll.Reached.attaches_while_kept`).

Both can happen in one: a node whose segment the system refuses to lock is not created, but its
segment was made, and is closed at once (`Roll.Reached.replaces_if_refused`).
-/

namespace RankMail

open Segment

/-! ## The file of a rank -/

namespace Segment

variable {directory : String} {rank : UInt32} {own : List String} {world after : World}
  {segment : Segment}

/-- The file that has the name of the segment's rank is that of the segment, and is complete. -/
structure OwnsFile (segment : Segment) (directory : String) (world : World) : Prop where
  opened : world.disk.openFile (path directory segment.rank) = .ok segment.file.region
  complete : ∃ process,
    Complete world.memory segment.file.region segment.rank segment.size process

def LacksFile (directory : String) (rank : UInt32) (world : World) : Prop :=
  ∃ above, (Path.steps directory).foldlM world.disk.enter [] = .ok above ∧
    ∀ region, world.disk.find? (above ++ [fileName rank]) ≠ some (.file region)

theorem OwnsFile.aside (owns : segment.OwnsFile directory world)
    (confined : Confined own world after) (other : fileName segment.rank ∉ own) :
    segment.OwnsFile directory after := by
  obtain ⟨opened, same⟩ := confined.openFile_join isName_fileName other owns.opened
  exact ⟨opened, owns.complete.imp fun _ complete => complete.congr same⟩

theorem LacksFile.aside (lacks : LacksFile directory rank world)
    (confined : Confined own world after) (other : fileName rank ∉ own) :
    LacksFile directory rank after := by
  obtain ⟨above, followed, nothing⟩ := lacks
  exact ⟨above, Disk.follow_of_directories confined.directories followed,
    fun region found => nothing region ((confined.files other).mp found)⟩

/-- The file of a rank that has one can be attached, if there are addresses for it. -/
theorem OwnsFile.attach_done (owns : segment.OwnsFile directory world)
    (room : world.HasRoom segment.size) :
    ∃ mapping after, attach directory segment.rank world = .done mapping after ∧
      mapping.SameFile segment := by
  obtain ⟨process, complete⟩ := owns.complete
  have length := complete.length
  have admits : Admits directory segment.rank world segment.file.region :=
    ⟨⟨owns.opened, length.symm ▸ room, length.symm ▸ complete.above⟩,
      process, length.symm ▸ complete.words.toIdentity⟩
  rcases attach_cases directory segment.rank world with ⟨stalls, _⟩ | ⟨_, meets⟩
  · exact absurd stalls admits.not_stalls
  · cases ends : attach directory segment.rank world with
    | done mapping after =>
        rw [ends] at meets
        obtain ⟨_, _, joins⟩ := meets
        have region := joins.admits.1.unique admits.1
        have size : mapping.file.size = (world.memory.region mapping.file.region).size :=
          congrArg (fun mapping => mapping.file.size) joins.maps
        exact ⟨mapping, after, rfl, region, by rw [size, region, length]; rfl⟩
    | failed fault after =>
        rw [ends] at meets
        exact absurd admits (meets.2.2.strange _)
    | aborted cause =>
        rw [ends] at meets
        exact meets.elim
    | hung =>
        rw [ends] at meets
        exact meets.elim

theorem LacksFile.attach_fails (lacks : LacksFile directory rank world) :
    ∃ cause, attach directory rank world = .failed (.file cause) world := by
  obtain ⟨above, followed, nothing⟩ := lacks
  cases opened : world.disk.openFile (path directory rank) with
  | ok region =>
      obtain ⟨again, followedToo, found⟩ := Disk.openFile_join isName_fileName opened
      obtain rfl := Except.ok.inj (followed.symm.trans followedToo)
      exact absurd found (nothing region)
  | error cause =>
      have missing : World.openFile (path directory rank) world = .failed (.file cause) world := by
        rw [World.openFile, opened]
      refine ⟨cause, ?_⟩
      rw [attach, MappedFile.open, bind_assoc, Action.bind_apply, missing]

/-- A segment that is closed and removes the file of its rank leaves none. -/
theorem lacksFile_closed (removes : segment.removesFile = true)
    (named : segment.file.path = path directory segment.rank)
    (before : segment.rank = rank ∧
      ((∃ region, world.disk.openFile (path directory rank) = .ok region) ∨
        LacksFile directory rank world))
    (disk : after.disk = segment.left world.disk) : LacksFile directory rank after := by
  obtain ⟨rfl, before⟩ := before
  rcases before with ⟨region, opened⟩ | ⟨above, followed, nothing⟩
  · obtain ⟨removed, done⟩ := Disk.removeFile_of_openFile opened
    rw [left, if_pos removes, named, done] at disk
    obtain ⟨above, region, followed, found, rfl⟩ := Disk.removeFile_join isName_fileName done
    refine ⟨above, ?_, fun region there => ?_⟩
    · rw [disk]
      refine Disk.follow_of_directories (fun {place} there => ?_) followed
      rwa [Disk.find?_erase_of_ne (by rintro rfl; simp [found] at there)]
    · rw [disk, Disk.find?_erase_self] at there
      cases there
  · rcases left_cases isName_fileName named world.disk with same | ⟨again, region, too, found, _⟩
    · rw [same] at disk
      exact ⟨above, by rwa [disk], by rwa [disk]⟩
    · obtain rfl := Except.ok.inj (followed.symm.trans too)
      exact absurd found (nothing region)

end Segment

/-! ## What is left alone -/

/-- The files of all ranks are what they were, and whatever removes files is mapped if it was. -/
structure LeavesFiles (world after : World) : Prop where
  confined : ∃ own, Confined own world after ∧ ∀ rank, fileName rank ∉ own
  kept : ∀ segment ∈ world.segments, segment.removesFile = true → segment ∈ after.segments
  more : ∀ segment ∈ after.segments, segment ∈ world.segments ∨
    segment.removesFile = false ∧ segment.file.base < after.nextBase
  nextBase : world.nextBase ≤ after.nextBase

/-- A segment has been made, and its file has taken the name of its rank. -/
structure TakesName (directory : String) (world : World) (segment : Segment) (after : World) :
    Prop where
  confined : Confined [draftName segment.rank, fileName segment.rank] world after
  owns : segment.OwnsFile directory after
  path : segment.file.path = path directory segment.rank
  base : segment.file.base = world.nextBase
  nextBase : world.nextBase < after.nextBase
  segments : after.segments = segment :: world.segments

section

variable {directory : String} {rank : UInt32} {size : Nat} {removesFile : Bool}
  {world after : World}

theorem LeavesFiles.of_draft (confined : Confined [draftName rank] world after)
    (segments : after.segments = world.segments) (nextBase : world.nextBase ≤ after.nextBase) :
    LeavesFiles world after where
  confined := ⟨_, confined, fun _ inside => draftName_ne (List.mem_singleton.mp inside).symm⟩
  kept _ inside _ := segments ▸ inside
  more _ inside := .inl (segments ▸ inside)
  nextBase := nextBase

theorem LeavesFiles.refl (proper : world.disk.IsProper world.memory.fresh) :
    LeavesFiles world world :=
  @LeavesFiles.of_draft 0 _ _ (.refl proper rfl rfl) rfl (Nat.le_refl _)

theorem draft_meets {order : Order} (proper : world.disk.IsProper world.memory.fresh)
    (usable : order.IsUsable) :
    (MappedFile.create (draftPath directory order.rank) order.size world).Meets False
      fun result after =>
        Confined [draftName order.rank] world after ∧ after.segments = world.segments ∧
          world.nextBase ≤ after.nextBase ∧ ∀ file, result = .ok file →
            Mapped directory after order file ∧ file.base = world.nextBase := by
  have some : order.size ≠ 0 := Nat.ne_of_gt (Nat.lt_trans (by decide) usable.above)
  rw [MappedFile.create, if_neg some]
  refine Action.meets_bind ((createFile_meets proper usable).mono ?_)
  rintro result created ⟨confined, same, drafted⟩
  have segments : created.segments = world.segments := by rw [same]
  have nextBase : created.nextBase = world.nextBase := by rw [same]
  cases result with
  | error fault =>
      exact ⟨confined, segments, Nat.le_of_eq nextBase.symm, fun _ same => by cases same⟩
  | ok region =>
      have drafted := drafted region rfl
      refine Action.meets_bind ?_
      rw [World.setLength]
      split
      · have sized := confined.trans (drafted.written confined.proper
          (created.memory.only_resize region order.size))
        refine Action.meets_within.mpr (Outcome.meets_done.mpr ((MappedFile.map_meets ..).mono ?_))
        rintro (fault | file) after ends
        · obtain rfl := ends
          exact ⟨sized, segments, Nat.le_of_eq nextBase.symm, fun _ same => by cases same⟩
        · obtain ⟨rfl, addresses, rfl⟩ := ends
          refine ⟨sized.congr rfl rfl, segments,
            Nat.le_trans (Nat.le_of_eq nextBase.symm) (Nat.le_add_right ..), fun _ same => ?_⟩
          obtain rfl := Except.ok.inj same
          exact ⟨⟨⟨usable, drafted.named⟩, rfl, created.memory.size_resize region order.size⟩,
            nextBase⟩
      · exact ⟨confined, segments, Nat.le_of_eq nextBase.symm, fun _ same => by cases same⟩

/-- If a segment cannot be made, at most a draft is left of it. -/
theorem create_leaves (proper : world.disk.IsProper world.memory.fresh)
    (below : ∀ segment ∈ world.segments, segment.file.base < world.nextBase) :
    (create directory rank size removesFile world).Meets False fun result after =>
      ∀ fault, result = .error fault → LeavesFiles world after := by
  rw [create]
  split
  · exact fun _ _ => .refl proper
  next ranked =>
  split
  · exact fun _ _ => .refl proper
  next sized =>
  have usable : (⟨rank, size, removesFile⟩ : Order).IsUsable :=
    ⟨Nat.le_of_not_lt ranked, show arenaStart < size by omega,
      show size ≤ maxSegmentSize by omega⟩
  refine Action.meets_bind (Action.meets_within.mpr
    ((Disk.makeDirectories_meets directory world.disk).mono ?_))
  intro result made grown
  have directories : Confined [draftName rank] world { world with disk := made } :=
    .of_grown proper grown rfl
  cases result with
  | error fault => exact fun _ _ => .of_draft directories rfl (Nat.le_refl _)
  | ok value =>
      refine Action.meets_bind ((@draft_meets directory _ ⟨rank, size, removesFile⟩
        directories.proper usable).mono ?_)
      rintro (fault | file) drafted ⟨confined, segments, nextBase, drafts⟩
      · exact fun _ _ => .of_draft (directories.trans confined) segments nextBase
      obtain ⟨mapped, base⟩ := drafts file rfl
      have written := mapped.toDrafted.written confined.proper (writeControls_keeps drafted.memory
        ⟨file.region, 0⟩ rank size drafted.process).1
      refine Action.meets_bind (Outcome.meets_done.mpr (Action.meets_bind (Action.meets_attempt
        (Action.meets_bind ?_))))
      rw [World.onDisk]
      split
      · exact fun _ same => by cases same
      · -- The draft keeps its name, and goes with the segment if that removes files.
        refine Outcome.meets_failed.mpr (Action.meets_bind ?_)
        rw [close_eq]
        refine fun _ _ => .of_draft ((directories.trans (confined.trans written)).trans ?_) ?_
          nextBase
        · refine @close_confined directory _ ⟨file, rank, removesFile⟩ _ written.proper
            isName_draftName ?_ _ rfl rfl
          rw [← draftPath_eq]
          exact mapped.path
        · refine (filter_unmapped fun other inside => ?_).trans segments
          exact Nat.ne_of_lt (base ▸ below other (segments ▸ inside))

theorem create_takesName (proper : world.disk.IsProper world.memory.fresh) :
    (create directory rank size removesFile world).Meets False fun result after =>
      ∀ segment, result = .ok segment → TakesName directory world segment after := by
  refine ((create_ends directory rank size removesFile world).both
    (create_meets proper directory rank size removesFile)).mono ?_
  rintro result after ⟨ends, makes⟩ segment same
  have made := makes segment same
  obtain ⟨usable, above, below, grown, drafted, disk, region, addresses, grows, created, renamed,
    rfl, rfl⟩ := ends segment same
  have opened := Disk.openFile_of_rename (Disk.openFile_of_createFile created) renamed
  rw [draftPath_eq] at created renamed
  obtain ⟨place, followed, writes⟩ := Disk.createFile_writes isName_draftName created
  obtain ⟨again, number, followedToo, renames⟩ :=
    Disk.rename_renames isName_draftName isName_fileName renamed
  obtain rfl := Except.ok.inj
    ((Disk.follow_of_directories writes.directories followed).symm.trans followedToo)
  obtain rfl := Entry.file.inj (Option.some.inj (renames.found.symm.trans writes.file))
  have bytes := read_writeControls ((world.memory.resize number 0).resize number size) ⟨number, 0⟩
    rank size world.process
  -- The directory is made, the draft is written, and the draft takes the name of the rank.
  have one : Confined [draftName rank] world { world with disk := grown } :=
    .of_grown proper grows rfl
  have two : Confined [draftName rank] { world with disk := grown } { world with
      disk := drafted
      memory := writeControls ((world.memory.resize number 0).resize number size) ⟨number, 0⟩ rank
        size world.process } := .of_writes one.proper writes made.only made.known
  exact
    { confined := ((one.trans two).mono (by simp)).trans (.of_renames two.proper renames rfl)
      owns := ⟨opened, world.process, usable, above, below, made.length, bytes,
        fresh_of_bytes (Nat.lt_of_le_of_lt below (by decide)) bytes⟩
      path := rfl
      base := rfl
      nextBase := Nat.lt_add_of_pos_right (alignUp_pos size)
      segments := rfl }

/-- Whether the segment is made for a node or by itself makes no difference. -/
theorem makeSegment_meets (proper : world.disk.IsProper world.memory.fresh)
    (below : ∀ segment ∈ world.segments, segment.file.base < world.nextBase) (config : Config) :
    (Node.makeSegment directory rank config world).Meets False fun result after =>
      match result with
      | .ok segment => TakesName directory world segment after
      | .error _ => LeavesFiles world after := by
  refine Node.meets_makeSegment (fun _ _ => .refl proper) fun _ => ?_
  refine ((create_takesName proper).both (create_leaves proper below)).mono ?_
  rintro (fault | segment) after ⟨takes, leaves⟩
  · exact leaves fault rfl
  · exact takes segment rfl

/-- Attaching changes no files, and what is attached never removes any. -/
theorem attach_leaves (proper : world.disk.IsProper world.memory.fresh) :
    (attach directory rank world).Meets True fun _ after => LeavesFiles world after := by
  rcases attach_cases directory rank world with ⟨_, hangs⟩ | ⟨_, meets⟩
  · rw [hangs]
    trivial
  refine meets.always ?_
  rintro result after ⟨memory, disk, ends⟩
  have confined : ∃ own, Confined own world after ∧ ∀ rank, fileName rank ∉ own :=
    ⟨[], .refl proper memory disk, fun _ => List.not_mem_nil⟩
  cases result with
  | error fault =>
      exact ⟨confined, fun _ inside _ => ends.segments ▸ inside,
        fun _ inside => .inl (ends.segments ▸ inside), ends.nextBase⟩
  | ok segment =>
      have removes : segment.removesFile = false := congrArg Segment.removesFile ends.maps
      have base : segment.file.base = world.nextBase :=
        congrArg (fun segment => segment.file.base) ends.maps
      refine ⟨confined, fun _ inside _ => ?_, fun other inside => ?_, Nat.le_of_lt ends.nextBase⟩
      · rw [ends.segments]
        exact List.mem_cons_of_mem _ inside
      · rw [ends.segments] at inside
        rcases List.mem_cons.mp inside with rfl | inside
        · exact .inr ⟨removes, Nat.lt_of_le_of_lt (Nat.le_of_eq base) ends.nextBase⟩
        · exact .inl inside

theorem attachPeer_leaves (proper : world.disk.IsProper world.memory.fresh) (node : Node) :
    (Node.attachPeer rank (node, world)).Meets True fun _ state => LeavesFiles world state.2 := by
  rw [Node.attachPeer, Action.bind_done (Action.look_apply _ _)]
  dsimp only
  split
  · exact .refl proper
  refine Action.meets_bind (Action.meets_within.mpr ((attach_leaves proper).mono ?_))
  rintro (fault | segment) after leaves
  · exact leaves
  cases registered : node.addresses.register rank segment.mapping with
  | error cause =>
      exact Action.meets_bind (Action.meets_ofAbort (.inr ⟨⟨cause, registered⟩, trivial⟩))
  | ok addresses =>
      exact Action.meets_bind (Action.meets_ofAbort (.inl ⟨addresses, registered, leaves⟩))

end

/-! ## Who has made the files -/

/-- Whose the file of a rank is. -/
structure Tenure where
  /-- The segment whose file it is. -/
  segment : Segment
  /-- The segments that were mapped when the file was made, and remove it when they are closed. -/
  removers : List Segment
deriving Repr, DecidableEq

/-- None of those who remove the file has been closed. -/
def Tenure.IsKept (tenure : Tenure) (world : World) : Prop :=
  ∀ segment ∈ tenure.removers, segment ∈ world.segments

instance (tenure : Tenure) (world : World) : Decidable (tenure.IsKept world) :=
  inferInstanceAs (Decidable (∀ _ ∈ _, _))

/-- Whose the file of each rank is, as far as one has been made. -/
structure Roll where
  tenure? : UInt32 → Option Tenure

namespace Roll

def blank : Roll := ⟨fun _ => none⟩

/-- The roll once a segment has been made, if one has. Whoever is mapped by then and removes the
file of that rank will remove this one. -/
def enter (roll : Roll) : Option (Segment × World) → Roll
  | none => roll
  | some (segment, world) => ⟨Function.update roll.tenure? segment.rank (some
      { segment
        removers := world.segments.filter fun other =>
          other.removesFile && other.rank == segment.rank })⟩

theorem enter_self (roll : Roll) (segment : Segment) (world : World) :
    (roll.enter (some (segment, world))).tenure? segment.rank = some
      { segment
        removers := world.segments.filter fun other =>
          other.removesFile && other.rank == segment.rank } := Function.update_self ..

theorem enter_of_ne {rank : UInt32} {segment : Segment} (differs : rank ≠ segment.rank)
    (roll : Roll) (world : World) :
    (roll.enter (some (segment, world))).tenure? rank = roll.tenure? rank :=
  Function.update_of_ne differs ..

/-- What processes do with the segments of a directory. -/
inductive Deed where
  /-- Another process goes on, with addresses and limits of its own; or the limits change. -/
  | turn (process : UInt32) (addresses : AddressSpace)
  | create (rank : UInt32) (size : Nat) (removesFile : Bool)
  | createNode (rank : UInt32) (config : Config)
  | attach (rank : UInt32)
  | attachPeer (node : Node) (rank : UInt32)
  /-- Whatever is mapped is closed, but for some. -/
  | close (held : List Nat)

def Deed.perform (directory : String) : Deed → Action World Unit
  | turn process addresses => .modify fun world => { world with process, addresses }
  | create rank size removesFile => do
      let _ ← Segment.create directory rank size removesFile
      pure ()
  | createNode rank config => do
      let _ ← Node.create directory rank config
      pure ()
  | attach rank => do
      let _ ← Segment.attach directory rank
      pure ()
  | attachPeer node rank =>
      Action.within (fun world => (node, world)) (fun state _ => state.2) (Node.attachPeer rank)
  | close held => Segment.closeUnheld held

/-- The segment that is made by a deed, and the world when it has just been made. A node may fail to
be created although its segment has been made: the segment may be refused to be locked. -/
def Deed.makes? (directory : String) (world : World) : Deed → Option (Segment × World)
  | create rank size removesFile => (Segment.create directory rank size removesFile world).done?
  | createNode rank config => (Node.makeSegment directory rank config world).done?
  | _ => none

/-- The worlds, with their rolls, that come about from one in which nothing is mapped, whether what
is done succeeds or fails. -/
inductive Reached (directory : String) : Roll → World → Prop
  | start {world : World} (proper : world.disk.IsProper world.memory.fresh)
      (unmapped : world.segments = []) : Reached directory .blank world
  | perform {roll : Roll} {world after : World} (reached : Reached directory roll world)
      (deed : Deed) (ends : (deed.perform directory world).state? = some after) :
      Reached directory (roll.enter (deed.makes? directory world)) after

end Roll

structure Tenure.Holds (tenure : Tenure) (directory : String) (rank : UInt32) (world : World) :
    Prop where
  named : tenure.segment.rank = rank
  removers : ∀ segment ∈ tenure.removers, segment.removesFile = true ∧ segment.rank = rank ∧
    segment.file.base < world.nextBase
  owns : tenure.IsKept world → tenure.segment.OwnsFile directory world
  lacks : ¬tenure.IsKept world → LacksFile directory rank world

/-- What the roll says is so, and whoever removes a file is known to. -/
structure Roll.Sound (roll : Roll) (directory : String) (world : World) : Prop where
  proper : world.disk.IsProper world.memory.fresh
  below : ∀ segment ∈ world.segments, segment.file.base < world.nextBase
  paths : ∀ segment ∈ world.segments, segment.removesFile = true →
    segment.file.path = path directory segment.rank
  entered : ∀ segment ∈ world.segments, segment.removesFile = true →
    ∃ tenure, roll.tenure? segment.rank = some tenure ∧ segment ∈ tenure.removers
  holds : ∀ {rank tenure}, roll.tenure? rank = some tenure → tenure.Holds directory rank world

namespace Tenure

variable {tenure : Tenure} {directory : String} {rank : UInt32} {own : List String}
  {world after : World}

/-- What holds of a tenure goes on holding if neither its file nor its removers are touched. -/
theorem Holds.aside (holds : tenure.Holds directory rank world)
    (confined : Confined own world after) (other : fileName rank ∉ own)
    (same : tenure.IsKept after ↔ tenure.IsKept world)
    (nextBase : world.nextBase ≤ after.nextBase) : tenure.Holds directory rank after where
  named := holds.named
  removers segment inside := by
    obtain ⟨removes, ranked, below⟩ := holds.removers segment inside
    exact ⟨removes, ranked, Nat.lt_of_lt_of_le below nextBase⟩
  owns kept := (holds.owns (same.mp kept)).aside confined (holds.named ▸ other)
  lacks gone := (holds.lacks fun kept => gone (same.mpr kept)).aside confined other

end Tenure

namespace Roll.Sound

variable {roll : Roll} {directory : String} {world made after : World} {segment : Segment}

theorem leaves (sound : roll.Sound directory world) (leaves : LeavesFiles world after) :
    roll.Sound directory after := by
  obtain ⟨own, confined, others⟩ := leaves.confined
  have old : ∀ segment ∈ after.segments, segment.removesFile = true → segment ∈ world.segments :=
    fun segment inside removes => (leaves.more segment inside).resolve_right fun new => by
      rw [new.1] at removes
      cases removes
  exact
    { proper := confined.proper
      below := fun segment inside => by
        rcases leaves.more segment inside with inside | ⟨_, below⟩
        · exact Nat.lt_of_lt_of_le (sound.below segment inside) leaves.nextBase
        · exact below
      paths := fun segment inside removes =>
        sound.paths segment (old segment inside removes) removes
      entered := fun segment inside removes =>
        sound.entered segment (old segment inside removes) removes
      holds := fun {rank tenure} here => by
        have holds := sound.holds here
        refine holds.aside confined (others rank) ?_ leaves.nextBase
        refine forall₂_congr fun segment inside => ?_
        have removes := (holds.removers segment inside).1
        exact ⟨fun mapped => old segment mapped removes, fun mapped =>
          leaves.kept segment mapped removes⟩ }

/-- A segment that has been made has the file of its rank, until one of those is closed who remove
it. -/
theorem takesName (sound : roll.Sound directory world)
    (takes : TakesName directory world segment after) :
    (roll.enter (some (segment, after))).Sound directory after := by
  have here : ∀ other, other ∈ after.segments ↔ other = segment ∨ other ∈ world.segments :=
    fun other => by rw [takes.segments, List.mem_cons]
  have below : ∀ other ∈ after.segments, other.file.base < after.nextBase := by
    intro other inside
    rcases (here other).mp inside with rfl | inside
    · exact Nat.lt_of_le_of_lt (Nat.le_of_eq takes.base) takes.nextBase
    · exact Nat.lt_trans (sound.below other inside) takes.nextBase
  exact
    { proper := takes.confined.proper
      below := below
      paths := fun other inside removes => by
        rcases (here other).mp inside with rfl | inside
        · exact takes.path
        · exact sound.paths other inside removes
      entered := fun other inside removes => by
        by_cases same : other.rank = segment.rank
        · refine ⟨_, same ▸ enter_self roll segment after, List.mem_filter.mpr ⟨inside, ?_⟩⟩
          simp [removes, same]
        · have old := ((here other).mp inside).resolve_left fun new => same (new ▸ rfl)
          obtain ⟨tenure, here, member⟩ := sound.entered other old removes
          exact ⟨tenure, (enter_of_ne same roll after).trans here, member⟩
      holds := fun {rank tenure} entered => by
        by_cases same : rank = segment.rank
        · subst same
          obtain rfl := Option.some.inj ((enter_self roll segment after).symm.trans entered)
          refine ⟨rfl, fun other inside => ?_, fun _ => takes.owns, fun gone => ?_⟩
          · obtain ⟨inside, both⟩ := List.mem_filter.mp inside
            simp only [Bool.and_eq_true, beq_iff_eq] at both
            exact ⟨both.1, both.2, below other inside⟩
          · exact absurd (fun other inside => (List.mem_filter.mp inside).1) gone
        · have holds := sound.holds ((enter_of_ne same roll after).symm.trans entered)
          refine holds.aside takes.confined ?_ ?_ (Nat.le_of_lt takes.nextBase)
          · simp only [List.mem_cons, List.not_mem_nil, or_false, not_or]
            exact ⟨draftName_ne.symm, fun equal => same (fileName_inj equal)⟩
          · refine forall₂_congr fun other inside => ?_
            refine (here other).trans (or_iff_right fun new => ?_)
            exact same ((holds.removers other inside).2.1.symm.trans (congrArg Segment.rank new)) }

/-- Once a segment has been closed that removes the file of its rank, the file is gone. -/
theorem close (sound : roll.Sound directory world)
    (paths : segment.removesFile = true → segment.file.path = path directory segment.rank)
    (entered : segment.removesFile = true →
      ∃ tenure, roll.tenure? segment.rank = some tenure ∧ segment ∈ tenure.removers) :
    (segment.close world).Meets False fun result after => result = .ok () ∧
      roll.Sound directory after := by
  rw [close_eq]
  refine ⟨rfl, ?_⟩
  have fewer : world.segments.filter (· != segment) ⊆ world.segments :=
    fun _ inside => (List.mem_filter.mp inside).1
  cases removes : segment.removesFile with
  | false =>
      have same : segment.left world.disk = world.disk := if_neg (Bool.eq_false_iff.mp removes)
      refine sound.leaves ⟨⟨[], .refl sound.proper rfl same, fun _ => List.not_mem_nil⟩,
        fun other inside otherRemoves => List.mem_filter.mpr ⟨inside, ?_⟩,
        fun other inside => .inl (fewer inside), Nat.le_refl _⟩
      rw [bne_iff_ne]
      rintro rfl
      rw [removes] at otherRemoves
      cases otherRemoves
  | true =>
      have named := paths removes
      have confined := @close_confined directory world segment _ sound.proper isName_fileName named
        (segment.file.unmap { world with
          disk := segment.left world.disk
          segments := world.segments.filter (· != segment) }) rfl rfl
      refine ⟨confined.proper, fun other inside => sound.below other (fewer inside),
        fun other inside => sound.paths other (fewer inside),
        fun other inside => sound.entered other (fewer inside), fun {rank tenure} here => ?_⟩
      have holds := sound.holds here
      by_cases same : rank = segment.rank
      · subst same
        obtain ⟨_, again, member⟩ := entered removes
        obtain rfl := Option.some.inj (here.symm.trans again)
        have gone : segment ∉ world.segments.filter (· != segment) := by simp
        refine ⟨holds.named, holds.removers, fun kept => absurd (kept segment member) gone,
          fun _ => lacksFile_closed removes named ⟨rfl, ?_⟩ rfl⟩
        by_cases kept : tenure.IsKept world
        · obtain ⟨opened, _⟩ := holds.owns kept
          rw [holds.named] at opened
          exact .inl ⟨_, opened⟩
        · exact .inr (holds.lacks kept)
      · refine holds.aside confined ?_ ?_ (Nat.le_refl _)
        · exact fun inside => same (fileName_inj (List.mem_singleton.mp inside))
        · refine forall₂_congr fun other inside => ?_
          refine List.mem_filter.trans (and_iff_left ?_)
          rw [bne_iff_ne]
          rintro rfl
          exact same (holds.removers other inside).2.1.symm

theorem closeAll (sound : roll.Sound directory world) (segments : List Segment)
    (paths : ∀ segment ∈ segments, segment.removesFile = true →
      segment.file.path = path directory segment.rank)
    (entered : ∀ segment ∈ segments, segment.removesFile = true →
      ∃ tenure, roll.tenure? segment.rank = some tenure ∧ segment ∈ tenure.removers) :
    (Segment.closeAll segments world).Meets False fun result after => result = .ok () ∧
      roll.Sound directory after := by
  induction segments generalizing world with
  | nil => exact ⟨rfl, sound⟩
  | cons first rest ih =>
      obtain ⟨named, paths⟩ := List.forall_mem_cons.mp paths
      obtain ⟨known, entered⟩ := List.forall_mem_cons.mp entered
      refine Action.meets_bind ((sound.close named known).mono ?_)
      rintro _ after ⟨rfl, sound⟩
      exact ih sound paths entered

theorem takes (sound : roll.Sound directory world) {rank : UInt32} {config : Config}
    (makes : Node.makeSegment directory rank config world = .done segment made) :
    TakesName directory world segment made := by
  have meets : (Node.makeSegment directory rank config world).Meets False _ :=
    makeSegment_meets sound.proper sound.below config
  rw [makes] at meets
  exact meets

/-- A segment that has just been made is closed again. -/
theorem undone (sound : roll.Sound directory world)
    (takes : TakesName directory world segment made)
    (closed : segment.close made = .done () after) :
    (roll.enter (some (segment, made))).Sound directory after := by
  have sound := sound.takesName takes
  have mapped : segment ∈ made.segments := takes.segments ▸ List.mem_cons_self
  have closes := sound.close (sound.paths segment mapped) (sound.entered segment mapped)
  rw [closed] at closes
  exact closes.2

theorem perform_meets (sound : roll.Sound directory world) (deed : Deed) :
    (deed.perform directory world).Meets True fun _ after =>
      (roll.enter (deed.makes? directory world)).Sound directory after := by
  cases deed with
  | turn process addresses =>
      exact sound.leaves
        (@LeavesFiles.of_draft 0 _ _ (.refl sound.proper rfl rfl) rfl (Nat.le_refl _))
  | create rank size removesFile =>
      refine Action.meets_bind (((create_takesName sound.proper).both
        (create_leaves sound.proper sound.below)).told.always ?_)
      rintro (fault | segment) after ⟨made, takes, leaves⟩
      · rw [Deed.makes?, made]
        exact sound.leaves (leaves fault rfl)
      · rw [Deed.makes?, made]
        exact sound.takesName (takes segment rfl)
  | createNode rank config =>
      refine Action.meets_bind ((Node.create_ends directory rank config world).mono ?_)
      rw [Deed.makes?]
      rintro (fault | node) after ends
      · rcases ends with failed | ⟨segment, between, makes, closed⟩
        · have leaves : (Node.makeSegment directory rank config world).Meets False _ :=
            makeSegment_meets sound.proper sound.below config
          rw [failed] at leaves ⊢
          exact sound.leaves leaves
        · rw [makes]
          exact sound.undone (sound.takes makes) closed
      · obtain ⟨segment, makes, _⟩ := ends
        rw [makes]
        exact sound.takesName (sound.takes makes)
  | attach rank =>
      refine Action.meets_bind ((attach_leaves sound.proper).mono ?_)
      rintro (fault | segment) after leaves <;> exact sound.leaves leaves
  | attachPeer node rank =>
      rw [Deed.perform]
      refine Action.meets_within.mpr ((attachPeer_leaves sound.proper node).mono ?_)
      exact fun _ _ leaves => sound.leaves leaves
  | close held =>
      have mapped : ∀ segment ∈ world.segments.filter fun segment =>
          !held.contains segment.file.base, segment ∈ world.segments :=
        fun _ inside => (List.mem_filter.mp inside).1
      refine Action.meets_bind (Outcome.meets_done.mpr ((sound.closeAll _
        (fun segment inside => sound.paths segment (mapped segment inside))
        (fun segment inside => sound.entered segment (mapped segment inside))).always ?_))
      exact fun _ _ closed => closed.2

end Roll.Sound

namespace Roll

variable {directory : String} {roll : Roll} {world : World}

theorem Reached.sound (reached : Reached directory roll world) : roll.Sound directory world := by
  induction reached with
  | start proper unmapped =>
      refine ⟨proper, fun _ inside => ?_, fun _ inside => ?_, fun _ inside => ?_,
        fun here => by cases here⟩ <;>
      · rw [unmapped] at inside
        cases inside
  | perform reached deed ends ih => exact (ih.perform_meets deed).post_of_state ends

def run (directory : String) : List Deed → Roll → World → Option (Roll × World)
  | [], roll, world => some (roll, world)
  | deed :: deeds, roll, world =>
      match (deed.perform directory world).state? with
      | some after => run directory deeds (roll.enter (deed.makes? directory world)) after
      | none => none

theorem Reached.run {deeds : List Deed} {last : Roll × World}
    (reached : Reached directory roll world)
    (ends : Roll.run directory deeds roll world = some last) : Reached directory last.1 last.2 := by
  induction deeds generalizing roll world with
  | nil =>
      obtain rfl := Option.some.inj ends
      exact reached
  | cons deed deeds ih =>
      rw [Roll.run] at ends
      split at ends
      · next after performed => exact ih (reached.perform deed performed) ends
      · cases ends

/-- A node that is not created although its segment could be made has the same effect on the rank:
the file is that of its segment, if it was not to be removed; else there is none. -/
theorem Reached.replaces_if_refused (reached : Reached directory roll world) {rank : UInt32}
    {config : Config} {segment : Segment} {made after : World} {fault : Fault}
    (makes : Node.makeSegment directory rank config world = .done segment made)
    (refused : Node.create directory rank config world = .failed fault after) :
    (config.removeOnClose = true →
      ∃ cause, Segment.attach directory rank after = .failed (.file cause) after) ∧
    (config.removeOnClose = false → after.HasRoom segment.size →
      ∃ mapping last, Segment.attach directory rank after = .done mapping last ∧
        mapping.SameFile segment) := by
  have closed : segment.close made = .done () after := by
    have ends := Node.create_ends directory rank config world
    rw [refused, makes] at ends
    obtain failed | ⟨_, _, same, closed⟩ := ends
    · cases failed
    · obtain ⟨rfl, rfl⟩ := Outcome.done.inj same
      exact closed
  have sound := reached.sound.undone (reached.sound.takes makes) closed
  obtain ⟨ranked, removes⟩ := Node.makeSegment_named makes
  subst ranked
  have holds := sound.holds (enter_self roll segment made)
  rw [close_eq] at closed
  obtain ⟨_, rfl⟩ := Outcome.done.inj closed
  have takes := reached.sound.takes makes
  refine ⟨fun wanted => (holds.lacks fun kept => ?_).attach_fails, fun unwanted room => ?_⟩
  · -- The segment itself would remove the file, and is not mapped any more.
    have member : segment ∈ made.segments := takes.segments ▸ List.mem_cons_self
    have mapped := kept segment (List.mem_filter.mpr ⟨member, by simp [removes, wanted]⟩)
    simp [MappedFile.unmap] at mapped
  · refine (holds.owns fun other inside => ?_).attach_done room
    obtain ⟨member, both⟩ := List.mem_filter.mp inside
    refine List.mem_filter.mpr ⟨member, ?_⟩
    rw [bne_iff_ne]
    rintro rfl
    simp [removes, unwanted] at both

/-- Whoever has the rank keeps his segment mapped when a node is refused. -/
def refused : Roll × World :=
  (run "/" [.create 0 2048 false,
    .turn 7 { AddressSpace.start with lockFault := some .notPermitted },
    .createNode 0 ⟨2048, ⟨64, 128, 256⟩, 2, .busyPoll 1, true, true⟩] .blank (.start 7 [])).get
    (by decide +kernel)

-- The file of the first segment has been replaced, and that of the node is gone.
example : refused.2.segments.map Segment.rank = [0] ∧
    (Segment.attach "/" 0 refused.2).fault? = some (.file .missing) := by
  decide +kernel

/-- **The file of a rank is there as long as nobody has been closed who removes it.** Those are all
that were mapped when the file was made and that remove the file of that rank, be it the latest
segment of the rank or an earlier one. Until the first of them is closed, the rank can be attached,
and it is the latest segment; afterwards there is nothing to attach, though the latest segment may
still be mapped. A segment that is closed removes no file but the one that has the name of its rank
by then, and this only if it was made to. -/
theorem Reached.attaches_while_kept (reached : Reached directory roll world) :
    (∀ {rank tenure}, roll.tenure? rank = some tenure →
      (tenure.IsKept world → world.HasRoom tenure.segment.size →
        ∃ mapping after, Segment.attach directory rank world = .done mapping after ∧
          mapping.SameFile tenure.segment) ∧
      (¬tenure.IsKept world →
        ∃ cause, Segment.attach directory rank world = .failed (.file cause) world)) ∧
    ∀ segment ∈ world.segments, ∃ after, segment.close world = .done () after ∧
      ∀ {place region}, world.disk.find? place = some (.file region) →
        after.disk.find? place = some (.file region) ∨ segment.removesFile = true ∧
          world.disk.Files directory (fileName segment.rank) region := by
  have sound := reached.sound
  refine ⟨fun {rank tenure} here => ⟨fun kept room => ?_, fun gone => ?_⟩, ?_⟩
  · obtain rfl := (sound.holds here).named
    exact ((sound.holds here).owns kept).attach_done room
  · exact ((sound.holds here).lacks gone).attach_fails
  · intro segment mapped
    refine ⟨_, close_eq segment world, fun {place region} found => ?_⟩
    show (segment.left world.disk).find? place = _ ∨ _
    cases removes : segment.removesFile with
    | false =>
        have same : segment.left world.disk = world.disk := if_neg (Bool.eq_false_iff.mp removes)
        exact .inl (same.symm ▸ found)
    | true =>
        rcases left_cases isName_fileName (sound.paths segment mapped removes) world.disk with
          same | ⟨above, other, followed, there, erased⟩
        · exact .inl (same.symm ▸ found)
        · by_cases here : place = above ++ [fileName segment.rank]
          · exact .inr ⟨rfl, above, followed, here ▸ found⟩
          · rw [erased, Disk.find?_erase_of_ne here]
            exact .inl found

/-- A segment that removes its file, and a second one of the same rank that does not. -/
def shared : Roll × World :=
  (run "/" [.create 0 2048 true, .create 0 4096 false] .blank (.start 7 [])).get
    (by decide +kernel)

theorem reached_shared : Reached "/" shared.1 shared.2 :=
  .run (.start (Disk.isProper_empty _) rfl) (Option.some_get _).symm

def second : Tenure := (shared.1.tenure? 0).get (by decide +kernel)

/-- While both are mapped, the second one can be attached. -/
theorem attaches_while_kept_shared : Reached "/" shared.1 shared.2 ∧
    shared.1.tenure? 0 = some second ∧ second.segment.size = 4096 ∧ second.IsKept shared.2 ∧
      ∃ mapping after, Segment.attach "/" 0 shared.2 = .done mapping after ∧
        mapping.SameFile second.segment := by
  have kept : second.IsKept shared.2 := by decide +kernel
  have room : shared.2.HasRoom second.segment.size := by decide +kernel
  have here : shared.1.tenure? 0 = some second := (Option.some_get _).symm
  obtain ⟨attaches, _⟩ := reached_shared.attaches_while_kept
  exact ⟨reached_shared, here, by decide +kernel, kept, (attaches here).1 kept room⟩

/-- Then the first one is closed. -/
def parted : Roll × World :=
  (run "/" [.close [second.segment.file.base]] shared.1 shared.2).get (by decide +kernel)

/-- Now there is nothing to attach, though the second one is mapped and was made to keep its
file. -/
theorem close_takes_latest : Reached "/" parted.1 parted.2 ∧
    parted.1.tenure? 0 = some second ∧ second.segment ∈ parted.2.segments ∧
      second.segment.removesFile = false ∧ parted.2.HasRoom second.segment.size ∧
      (Segment.attach "/" 0 parted.2).fault? = some (.file .missing) := by
  refine ⟨reached_shared.run (Option.some_get _).symm, ?_⟩
  decide +kernel

end Roll

end RankMail

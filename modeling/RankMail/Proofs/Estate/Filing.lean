import RankMail.Proofs.Estate.Actors

set_option autoImplicit false

/-! # The files of the segments

What lies on the ground can be found on disk: under the name of a rank lies its present segment, and
under the name of a draft nothing that has been made. `Ground.Describes` says this of a world, and
that what is mapped is what the ground says.

A segment is made of a draft, step by step, and only the last step changes the ground: the draft
gets the name of the rank. If that rank has had another segment before, nothing of it may be in use.
-/

namespace RankMail

open Segment

namespace Segment

/-- Whoever finds a file that says what it is maps it at once, and keeps it if it is that of the
rank. -/
theorem attach_eq {directory : String} {rank owner process : UInt32} {region size : Nat}
    {world : World} (opened : world.disk.openFile (path directory rank) = .ok region)
    (length : (world.memory.region region).size = size) (above : arenaStart < size)
    (identity : Identity world.memory ⟨region, 0⟩ owner size process) :
    attach directory rank world =
      match world.addresses.take? world.nextBase (alignUp pageSize size) with
      | none => .failed (.file .noAddresses) world
      | some addresses =>
          let file : MappedFile := ⟨path directory rank, region, world.nextBase, size⟩
          let mapped := { world with
            addresses
            nextBase := world.nextBase + alignUp pageSize (size + 1) }
          if rank = owner then
            .done ⟨file, rank, false⟩
              { mapped with segments := ⟨file, rank, false⟩ :: world.segments }
          else .failed (.corrupt .rank) (file.unmap mapped) := by
  subst length
  have found : World.openFile (path directory rank) world = .done region world := by
    rw [World.openFile, opened]
  have some : (world.memory.region region).size ≠ 0 := by omega
  rw [attach, MappedFile.open, bind_assoc, Action.bind_done found, bind_assoc,
    Action.bind_done (Action.look_apply _ _), if_neg some, Action.bind_apply, MappedFile.map]
  cases world.addresses.take? world.nextBase
    (alignUp pageSize (world.memory.region region).size) with
  | none => rfl
  | some addresses =>
      have large : ¬(world.memory.region region).size ≤ arenaStart := by omega
      have ready : ¬world.memory.load SegmentField.state ⟨region, 0⟩ ≠ stateReady :=
        not_not_intro identity.state
      have checked : checkHeader world.memory ⟨region, 0⟩ rank (world.memory.region region).size =
          if rank = owner then .ok () else .error (.corrupt .rank) := by
        have same : owner.toNat = rank.toNat ↔ rank = owner := UInt32.toNat_inj.trans eq_comm
        simp only [checkHeader, identity.magic, identity.version, identity.rank, identity.size,
          identity.dataStart, ne_eq, not_true_eq_false, if_false, same, ite_not]
      simp only [MappedFile.unlessFailed, if_neg large, Action.bind_apply, World.inMemory,
        Action.within_apply, awaitReady, place, if_neg ready, Segment.size, checked]
      by_cases own : rank = owner
      · simp only [if_pos own]
        rfl
      · simp only [if_neg own]
        rfl

end Segment

theorem Laid.subset {mapped fewer : List Segment} {nextBase : Nat} (laid : Laid mapped nextBase)
    (subset : fewer ⊆ mapped) : Laid fewer nextBase :=
  ⟨fun inside => laid.spread (subset inside),
    fun here there => laid.clear (subset here) (subset there), laid.next⟩

namespace Ground

variable {directory name : String} {ground : Ground} {disk after : Disk} {world : World}
  {rank : UInt32} {region fresh more : Nat} {above place : List String} {file : MappedFile}
  {segment : Segment} {plot : Plot} {removesFile : Bool} {size : Nat}

/-- Where the directory lies, under the name of a rank lies its present segment, and what has the
name of a draft has not been made. -/
structure Filed (directory : String) (ground : Ground) (disk : Disk) (fresh : Nat) : Prop where
  proper : disk.IsProper fresh
  filed : ∀ {rank region},
    disk.find? (Path.place directory ++ [fileName rank]) = some (.file region) →
      ∃ plot, ground.current rank = some plot ∧ plot.region = region
  drafts : ∀ {rank region},
    disk.find? (Path.place directory ++ [draftName rank]) = some (.file region) →
      ∀ plot ∈ ground.made, plot.region ≠ region

/-- What the ground says of segments holds in a world. -/
structure Describes (directory : String) (ground : Ground) (world : World) : Prop where
  sound : ground.Sound world.memory
  filed : ground.Filed directory world.disk world.memory.fresh
  mapped : ground.mapped = world.segments
  laid : Laid world.segments world.nextBase
  paths : ∀ segment ∈ world.segments, segment.file.path = path directory segment.rank

/-! ## Files -/

theorem Filed.mono (filed : ground.Filed directory disk fresh) (further : fresh ≤ more) :
    ground.Filed directory disk more :=
  { filed with proper := filed.proper.mono further }

theorem Filed.grown (filed : ground.Filed directory disk fresh) (grown : disk.Grown after) :
    ground.Filed directory after fresh where
  proper := grown.isProper filed.proper
  filed found := filed.filed (grown.files.mp found)
  drafts found := filed.drafts (grown.files.mp found)

theorem Filed.erase (filed : ground.Filed directory disk fresh) (place : List String) :
    ground.Filed directory (disk.erase place) fresh := by
  have still : ∀ {other second}, (disk.erase place).find? other = some (.file second) →
      disk.find? other = some (.file second) := by
    intro other second found
    rw [Disk.find?_erase] at found
    split at found
    · cases found
    · exact found
  exact
    { proper := filed.proper.erase place
      filed := fun found => filed.filed (still found)
      drafts := fun found => filed.drafts (still found) }

/-- A draft may be made, and lies in a file in which nothing has been made. -/
theorem Filed.createDraft (filed : ground.Filed directory disk fresh)
    (known : ∀ plot ∈ ground.made, plot.region < fresh)
    (created : disk.createFile (draftPath directory rank) fresh = .ok (after, region)) :
    ground.Filed directory after (max fresh (region + 1)) ∧
      after.Files directory (draftName rank) region := by
  rw [draftPath_eq] at created
  obtain ⟨above, followed, writes⟩ := Disk.createFile_writes isName_draftName created
  have files : after.Files directory (draftName rank) region :=
    ⟨above, Disk.follow_of_directories writes.directories followed, writes.file⟩
  obtain rfl := Disk.follow_eq followed
  -- The file is that of an earlier draft, or none that has been known.
  have unmade : ∀ plot ∈ ground.made, plot.region ≠ region := by
    obtain ⟨again, followedToo, ⟨there, _⟩ | ⟨_, rfl, _⟩⟩ :=
      Disk.createFile_join isName_draftName created
    · exact filed.drafts (Disk.Files.found ⟨again, followedToo, there⟩)
    · exact fun plot made => Nat.ne_of_lt (known plot made)
  have before : ∀ {name second}, name ≠ draftName rank →
      after.find? (Path.place directory ++ [name]) = some (.file second) →
        disk.find? (Path.place directory ++ [name]) = some (.file second) :=
    fun differs found => writes.others (Disk.place_ne differs _ _) ▸ found
  refine ⟨?_, files⟩
  exact
    { proper := writes.proper filed.proper
      filed := fun found => filed.filed (before draftName_ne.symm found)
      drafts := fun {other second} found => by
        by_cases same : other = rank
        · subst same
          obtain rfl := Entry.file.inj (Option.some.inj (files.found.symm.trans found))
          exact unmade
        · exact filed.drafts (before (fun equal => same (draftName_inj equal)) found) }

/-- A draft takes the name of its rank, and so becomes its present segment. -/
theorem Filed.publish (filed : ground.Filed directory disk fresh) (plot : Plot)
    (files : disk.Files directory (draftName plot.rank) plot.region)
    (renamed : disk.rename (draftPath directory plot.rank) (path directory plot.rank) = .ok after)
    {current : UInt32 → Option Plot} (here : current plot.rank = some plot)
    (others : ∀ {rank}, rank ≠ plot.rank → current rank = ground.current rank)
    (mapped : List Segment) :
    Filed directory { ground with made := plot :: ground.made, current, mapped } after fresh := by
  rw [draftPath_eq] at renamed
  obtain ⟨above, region, followed, renames⟩ :=
    Disk.rename_renames isName_draftName isName_fileName renamed
  obtain rfl := files.unique ⟨above, followed, renames.found⟩
  have gone := Disk.rename_gone isName_draftName isName_fileName draftName_ne renamed followed
  obtain rfl := Disk.follow_eq followed
  -- What is found under another name has been there before.
  have still : ∀ {name second}, name ≠ fileName plot.rank →
      after.find? (Path.place directory ++ [name]) = some (.file second) →
        name ≠ draftName plot.rank ∧
          disk.find? (Path.place directory ++ [name]) = some (.file second) := by
    intro name second differs there
    have notSource : name ≠ draftName plot.rank := by
      rintro rfl
      exact absurd (gone.symm.trans there) (by simp)
    exact ⟨notSource, renames.others (Disk.place_ne notSource _ _) (Disk.place_ne differs _ _) ▸
      there⟩
  exact
    { proper := renames.proper filed.proper
      filed := fun {rank second} there => by
        by_cases same : rank = plot.rank
        · subst same
          exact ⟨plot, here, Entry.file.inj (Option.some.inj (renames.file.symm.trans there))⟩
        · obtain ⟨_, old⟩ := still (fun equal => same (fileName_inj equal)) there
          obtain ⟨other, found, region⟩ := filed.filed old
          exact ⟨other, (others same).trans found, region⟩
      drafts := fun {rank second} there => by
        obtain ⟨notSource, there⟩ := still draftName_ne there
        refine List.forall_mem_cons.mpr ⟨?_, filed.drafts there⟩
        rintro rfl
        exact Disk.place_ne notSource _ _ (filed.proper.apart there renames.found) }

/-! ## Worlds -/

theorem Describes.congr {after : World} (describes : ground.Describes directory world)
    (memory : after.memory = world.memory) (disk : after.disk = world.disk)
    (segments : after.segments = world.segments) (laid : Laid after.segments after.nextBase) :
    ground.Describes directory after where
  sound := memory ▸ describes.sound
  filed := by
    rw [memory, disk]
    exact describes.filed
  mapped := segments ▸ describes.mapped
  laid := laid
  paths := segments ▸ describes.paths

theorem Describes.written (describes : ground.Describes directory world)
    (files : world.disk.Files directory (draftName rank) region) {memory : Memory}
    (only : world.memory.Only region memory) :
    ground.Describes directory { world with memory } :=
  { describes with
    sound := describes.sound.aside only (describes.filed.drafts files.found)
    filed := describes.filed.mono only.fresh }

theorem Describes.makeDirectories_meets (describes : ground.Describes directory world)
    (path : String) :
    (World.makeDirectories path world).Meets False fun _ after =>
      ground.Describes directory after := by
  refine Action.meets_within.mpr ((Disk.makeDirectories_meets path world.disk).mono ?_)
  exact fun _ made grown => { describes with filed := describes.filed.grown grown }

theorem Describes.createDraft_meets (describes : ground.Describes directory world) :
    (World.createFile (draftPath directory rank) world).Meets False fun result after =>
      ground.Describes directory after ∧
        ∀ region, result = .ok region → after.disk.Files directory (draftName rank) region := by
  rw [World.createFile]
  split
  · next disk region created =>
    obtain ⟨filed, files⟩ := describes.filed.createDraft describes.sound.known created
    have only := world.memory.only_resize region 0
    have known := world.memory.lt_fresh_resize region 0
    refine ⟨{ describes with
      sound := describes.sound.aside only (filed.drafts files.found)
      filed := filed.mono (Nat.max_le.mpr ⟨only.fresh, known⟩) }, fun _ same => ?_⟩
    exact Except.ok.inj same ▸ files
  · exact ⟨describes, fun _ same => by cases same⟩

theorem Describes.map_meets (describes : ground.Describes directory world) (path : String)
    (region : Nat) :
    (MappedFile.map path region world).Meets False fun result after =>
      ground.Describes directory after ∧ ∀ file, result = .ok file →
        file = ⟨path, region, world.nextBase, (world.memory.region region).size⟩ ∧
        after.memory = world.memory ∧ after.disk = world.disk ∧
        after.nextBase = world.nextBase + alignUp pageSize (file.size + 1) := by
  refine (MappedFile.map_meets path region world).mono ?_
  rintro (fault | file) after ends
  · exact ⟨ends ▸ describes, fun _ same => by cases same⟩
  · obtain ⟨rfl, addresses, rfl⟩ := ends
    refine ⟨describes.congr rfl rfl rfl (describes.laid.skip _), fun _ same => ?_⟩
    obtain rfl := Except.ok.inj same
    exact ⟨rfl, rfl, rfl, rfl⟩

theorem Describes.close_meets (describes : ground.Describes directory world)
    (isName : Path.IsName name) (named : segment.file.path = Path.join directory name) :
    (segment.close world).Meets False fun result after => result = .ok () ∧
      after.segments = world.segments.filter (· != segment) ∧
      Describes directory { ground with mapped := after.segments } after := by
  have fewer : (world.segments.filter (· != segment)) ⊆ world.segments := List.filter_subset_self _
  have closed : Describes directory
      { ground with mapped := world.segments.filter (· != segment) }
      (segment.file.unmap { world with segments := world.segments.filter (· != segment) }) :=
    { sound := describes.sound.shrink (fun here => here) fun other inside =>
        ⟨describes.mapped ▸ fewer inside, rfl⟩
      filed := { describes.filed with }
      mapped := rfl
      laid := describes.laid.subset fewer
      paths := fun other inside => describes.paths other (fewer inside) }
  rw [Segment.close_eq]
  refine ⟨rfl, rfl, ?_⟩
  rcases Segment.left_cases isName named world.disk with same | ⟨above, region, _, _, same⟩
  · rw [same]
    exact closed
  · rw [same]
    exact { closed with filed := closed.filed.erase _ }

/-! ## Making a segment -/

/-- A draft that has been made and mapped. -/
structure Drafts (directory : String) (rank : UInt32) (world : World) (file : MappedFile) :
    Prop where
  named : file.path = draftPath directory rank
  files : world.disk.Files directory (draftName rank) file.region
  unused : ∀ segment ∈ world.segments, segment.file.base ≠ file.base

theorem Describes.draft_meets (describes : ground.Describes directory world) (rank : UInt32)
    (size : Nat) :
    (MappedFile.create (draftPath directory rank) size world).Meets False fun result after =>
      ground.Describes directory after ∧ ∀ file, result = .ok file →
        Drafts directory rank after file := by
  rw [MappedFile.create]
  split
  · exact ⟨describes, fun _ same => by cases same⟩
  · refine Action.meets_bind (describes.createDraft_meets.mono ?_)
    rintro (fault | region) created ⟨describes, files⟩
    · exact ⟨describes, fun _ same => by cases same⟩
    · have files := files region rfl
      refine Action.meets_bind ?_
      rw [World.setLength]
      split
      · have describes := describes.written files (created.memory.only_resize region size)
        refine Action.meets_within.mpr (Outcome.meets_done.mpr
          ((describes.map_meets (draftPath directory rank) region).mono ?_))
        rintro result after ⟨mapped, ends⟩
        refine ⟨mapped, fun file same => ?_⟩
        obtain ⟨rfl, _, disk, _⟩ := ends file same
        have segments : after.segments = created.segments :=
          mapped.mapped.symm.trans describes.mapped
        refine ⟨rfl, disk ▸ files, fun other inside => ?_⟩
        -- All earlier mappings end before the new one begins.
        have below : other.file.base + other.size < created.nextBase :=
          (describes.laid.spread (segments ▸ inside)).2.2
        exact Nat.ne_of_lt (Nat.lt_of_le_of_lt (Nat.le_add_right ..) below)
      · exact ⟨describes, fun _ same => by cases same⟩

/-- If a segment cannot be made, at most a draft of it is left. -/
theorem Describes.create_fails (describes : ground.Describes directory world) (rank : UInt32)
    (size : Nat) (removesFile : Bool) :
    (create directory rank size removesFile world).Meets False fun result after =>
      ∀ fault, result = .error fault → ground.Describes directory after := by
  rw [create]
  split
  · exact fun _ _ => describes
  · split
    · exact fun _ _ => describes
    · refine Action.meets_bind ((describes.makeDirectories_meets directory).mono ?_)
      rintro (fault | value) made describes
      · exact fun _ _ => describes
      · refine Action.meets_bind ((describes.draft_meets rank size).mono ?_)
        rintro (fault | file) drafted ⟨describes, drafts⟩
        · exact fun _ _ => describes
        · obtain ⟨named, files, unused⟩ := drafts file rfl
          have describes := describes.written files (writeControls_keeps drafted.memory
            ⟨file.region, 0⟩ rank size drafted.process).1
          refine Action.meets_bind (Outcome.meets_done.mpr (Action.meets_bind
            (Action.meets_attempt (Action.meets_bind ?_))))
          rw [World.onDisk]
          split
          · exact fun _ same => by cases same
          · refine Outcome.meets_failed.mpr (Action.meets_bind ((describes.close_meets
              isName_draftName (named.trans (draftPath_eq directory rank))).mono ?_))
            rintro result after ⟨rfl, segments, closed⟩ _ _
            -- The draft has never been among the segments.
            have same : after.segments = drafted.segments :=
              segments.trans (filter_unmapped unused)
            have mapped : after.segments = ground.mapped := same.trans describes.mapped.symm
            rwa [mapped] at closed

theorem Describes.create_founds (describes : ground.Describes directory world)
    (vacant : ground.Vacant world.memory rank) (size : Nat) (removesFile : Bool) :
    (create directory rank size removesFile world).Meets False fun result after =>
      ∀ segment, result = .ok segment →
        (ground.founded (segment.plot world.process) segment).Describes directory after ∧
          segment.rank = rank ∧ segment.size = size ∧ segment ∉ world.segments ∧
          after.segments = segment :: world.segments ∧ after.process = world.process := by
  refine (create_ends directory rank size removesFile world).mono ?_
  rintro result after ends segment same
  obtain ⟨usable, above, below, made, drafted, disk, region, addresses, grown, created, renamed,
    rfl, rfl⟩ := ends segment same
  obtain ⟨filed, files⟩ := (describes.filed.grown grown).createDraft describes.sound.known created
  have unmade := filed.drafts files.found
  -- The draft is cut to nothing, gets its length, and then its control words.
  have only := (world.memory.only_resize region 0).trans
    ((world.memory.resize region 0).only_resize region size)
  have known := (world.memory.resize region 0).lt_fresh_resize region size
  have length := (world.memory.resize region 0).size_resize region size
  obtain ⟨onlyControls, sizes⟩ := writeControls_keeps
    ((world.memory.resize region 0).resize region size) ⟨region, 0⟩ rank size world.process
  have fresh := fresh_writeControls ((world.memory.resize region 0).resize region size)
    ⟨region, 0⟩ rank (Nat.lt_of_le_of_lt below (by decide)) world.process
  have total := only.trans onlyControls
  have vacant : ground.Vacant _ rank := ⟨vacant.unmapped, fun queued => vacant.unqueued
    (describes.sound.queued_before (describes.sound.knots_aside total unmade) queued)⟩
  have clear : ∀ other ∈ ground.mapped, other.Clear
      ⟨⟨path directory rank, region, world.nextBase, size⟩, rank, removesFile⟩ := by
    intro other inside
    have below := (describes.laid.spread (describes.mapped ▸ inside)).2.2
    exact .inl (Nat.le_of_lt below)
  have further : max world.memory.fresh (region + 1) ≤ _ :=
    Nat.max_le.mpr ⟨total.fresh, Nat.lt_of_lt_of_le known onlyControls.fresh⟩
  -- All earlier mappings end before the new one begins.
  have new : ⟨⟨path directory rank, region, world.nextBase, size⟩, rank, removesFile⟩ ∉
      world.segments := fun inside =>
    Nat.not_lt_of_ge (Nat.le_add_right ..) (describes.laid.spread inside).2.2
  refine ⟨?_, rfl, rfl, new, rfl, rfl⟩
  exact
    { sound := (describes.sound.aside total unmade).establish vacant unmade ⟨usable, above, below⟩
        fresh ((sizes region).trans length) (Nat.lt_of_lt_of_le known onlyControls.fresh)
        rfl rfl rfl clear
      filed := (filed.publish ⟨rank, region, size, world.process⟩ files renamed
        (Function.update_self ..) (fun differs => Function.update_of_ne differs ..) _).mono further
      mapped := congrArg _ describes.mapped
      laid := describes.laid.cons rfl
      paths := List.forall_mem_cons.mpr ⟨rfl, describes.paths⟩ }

/-! ## Attaching and closing -/

/-- A file under the name of a rank is that of its present segment, and says so. -/
theorem Describes.present (describes : ground.Describes directory world)
    (opened : world.disk.openFile (path directory rank) = .ok region) :
    ∃ plot ∈ ground.made, ground.current rank = some plot ∧ plot.rank = rank ∧
      plot.region = region ∧ plot.Stands world.memory ∧ arenaStart < plot.size ∧
      (world.memory.region region).size = plot.size := by
  obtain ⟨plot, here, rfl⟩ :=
    describes.filed.filed (Disk.openFile_join isName_fileName opened).found
  obtain ⟨made, named⟩ := describes.sound.current here
  exact ⟨plot, made, here, named, rfl, describes.sound.stands plot made,
    (describes.sound.usable plot made).2.1, describes.sound.length plot made⟩

/-- A segment that is attached is mapped. If it cannot be, nothing has changed. -/
theorem Describes.attach_meets (describes : ground.Describes directory world) (rank : UInt32) :
    (attach directory rank world).Meets False fun result after =>
      match result with
      | .ok segment => segment.rank = rank ∧ after.segments = segment :: world.segments ∧
          Describes directory { ground with mapped := segment :: ground.mapped } after
      | .error _ => after = world := by
  cases opened : world.disk.openFile (path directory rank) with
  | error cause =>
      have missing : World.openFile (path directory rank) world = .failed (.file cause) world := by
        rw [World.openFile, opened]
      rw [attach, MappedFile.open, bind_assoc, Action.bind_apply, missing]
      exact rfl
  | ok region =>
      obtain ⟨plot, made, here, rfl, rfl, stands, above, length⟩ := describes.present opened
      rw [attach_eq opened length above stands]
      cases world.addresses.take? world.nextBase (alignUp pageSize plot.size) with
      | none => exact rfl
      | some addresses =>
          simp only [if_true]
          refine ⟨rfl, rfl, ?_⟩
          exact
            { sound := describes.sound.map here rfl rfl fun other inside =>
                .inl (Nat.le_of_lt (describes.laid.spread (describes.mapped ▸ inside)).2.2)
              filed := { describes.filed with }
              mapped := congrArg _ describes.mapped
              laid := describes.laid.cons rfl
              paths := List.forall_mem_cons.mpr ⟨rfl, describes.paths⟩ }

theorem Describes.closeAll_meets (describes : ground.Describes directory world)
    (segments : List Segment)
    (paths : ∀ segment ∈ segments, segment.file.path = path directory segment.rank) :
    (closeAll segments world).Meets False fun result after => result = .ok () ∧
      Describes directory { ground with mapped := after.segments } after ∧
      ∀ segment, segment ∈ after.segments ↔ segment ∈ world.segments ∧ segment ∉ segments := by
  induction segments generalizing ground world with
  | nil =>
      refine ⟨rfl, ?_, fun segment => by simp⟩
      rw [← describes.mapped]
      exact describes
  | cons first rest ih =>
      obtain ⟨named, others⟩ := List.forall_mem_cons.mp paths
      refine Action.meets_bind ((describes.close_meets isName_fileName named).mono ?_)
      rintro _ closed ⟨rfl, fewer, describes⟩
      refine (ih describes others).mono ?_
      rintro result after ⟨rfl, describes, kept⟩
      refine ⟨rfl, describes, fun segment => ?_⟩
      rw [kept, fewer, List.mem_filter, bne_iff_ne, List.mem_cons, not_or, and_assoc]

theorem Describes.closeUnheld_meets (describes : ground.Describes directory world)
    (held : List Nat) :
    (Segment.closeUnheld held world).Meets False fun result after => result = .ok () ∧
      Describes directory { ground with mapped := after.segments } after ∧
      after.segments ⊆ world.segments ∧
      ∀ segment ∈ world.segments, segment.file.base ∈ held → segment ∈ after.segments := by
  rw [Segment.closeUnheld, Action.bind_done (Action.look_apply _ _)]
  refine (describes.closeAll_meets _ fun segment inside =>
    describes.paths segment (List.mem_filter.mp inside).1).mono ?_
  rintro result after ⟨rfl, describes, kept⟩
  refine ⟨rfl, describes, fun segment inside => ((kept segment).mp inside).1,
    fun segment inside isHeld => (kept segment).mpr ⟨inside, fun unheld => ?_⟩⟩
  simpa [isHeld] using (List.mem_filter.mp unheld).2

end Ground

end RankMail

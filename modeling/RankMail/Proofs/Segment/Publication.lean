import Mathlib.Logic.Function.Basic
import RankMail.Proofs.Segment.Lifecycle

set_option autoImplicit false

/-! # Publishing a segment

Whoever makes a segment does so step by step, while others make and attach segments in the same
directory, and may stop anywhere:

    check, make the directory --> make the draft --> set its length --> map it
        --> zero the control words --> store the header word by word --> rename the draft

`Making.advance` and `Attaching.advance` are the steps; with nobody between they add up to
`Segment.create` and `Segment.attach` (`Making.advance_rest`, `Attaching.advance_rest`). What is on
disk and in memory is common to all, everything else in a `World` is each party's own.

All steps but the last go to the draft, which has the name of no rank. So a file that is found under
the name of a rank is one that was there before, or it is complete.
-/

namespace RankMail

open Segment

/-! ## Control bytes -/

namespace Memory

variable {memory other : Memory} {block place : Place} {count : Nat}

theorem read_write_congr (same : memory.read block count = other.read place count)
    (distance : Nat) (data : List UInt8) :
    (memory.write (block.shift distance) data).read block count =
      (other.write (place.shift distance) data).read place count := by
  rw [read_eq_map, read_eq_map, List.map_inj_left] at same
  rw [read_eq_map, read_eq_map, List.map_inj_left]
  intro position inside
  rw [byte_write, byte_write, same position inside]
  simp only [Place.shift, true_and, Nat.add_sub_add_left, Nat.add_le_add_iff_left, Nat.add_assoc,
    Nat.add_lt_add_iff_left]

theorem load_congr (same : memory.read block count = other.read place count) {field : Field}
    (inside : field.distance + field.width ≤ count) :
    memory.load field block = other.load field place := by
  rw [load, word, read_shift _ _ inside, same, ← read_shift _ _ inside]
  rfl

end Memory

namespace Segment

variable {memory other : Memory} {block place : Place} {rank process : UInt32} {size : Nat}

/-- The control bytes of a new segment. -/
def controlBytes (rank : UInt32) (size : Nat) (process : UInt32) : List UInt8 :=
  (writeControls .empty ⟨0, 0⟩ rank size process).read ⟨0, 0⟩ arenaStart

def storeWords (block : Place) (words : List (Field × Nat)) (memory : Memory) : Memory :=
  words.foldl (fun written word => written.store word.1 block word.2) memory

theorem storeWords_congr (words : List (Field × Nat))
    (same : memory.read block arenaStart = other.read place arenaStart) :
    (storeWords block words memory).read block arenaStart =
      (storeWords place words other).read place arenaStart := by
  induction words generalizing memory other with
  | nil => exact same
  | cons word words ih => exact ih (Memory.read_write_congr same word.1.distance _)

/-- Whatever was there before, the control words of a new segment are the same. -/
theorem read_writeControls (memory : Memory) (block : Place) (rank : UInt32) (size : Nat)
    (process : UInt32) :
    (writeControls memory block rank size process).read block arenaStart =
      controlBytes rank size process := by
  refine storeWords_congr (headerWords rank size process) ?_
  have zeros : ∀ (memory : Memory) (block : Place),
      (zeroControls memory block).read block arenaStart = List.replicate arenaStart 0 := by
    intro memory block
    have written := memory.read_write_same block (List.replicate arenaStart 0)
    rwa [List.length_replicate] at written
  rw [zeros, zeros]

/-- The file of a segment that has been made and that nobody has used yet. -/
structure Complete (memory : Memory) (region : Nat) (rank : UInt32) (size : Nat)
    (process : UInt32) : Prop where
  usable : rank.toNat ≤ maxRank
  above : arenaStart < size
  below : size ≤ maxSegmentSize
  length : (memory.region region).size = size
  bytes : memory.read ⟨region, 0⟩ arenaStart = controlBytes rank size process
  words : Fresh memory ⟨region, 0⟩ rank size process

theorem fresh_of_bytes (small : size < 2 ^ 64)
    (bytes : memory.read block arenaStart = controlBytes rank size process) :
    Fresh memory block rank size process := by
  have fresh := fresh_writeControls .empty ⟨0, 0⟩ rank small process
  have load : ∀ {field : Field}, field.distance + field.width ≤ arenaStart →
      memory.load field block = (writeControls .empty ⟨0, 0⟩ rank size process).load field ⟨0, 0⟩ :=
    fun inside => Memory.load_congr bytes inside
  exact
    { magic := (load (by decide)).trans fresh.magic
      version := (load (by decide)).trans fresh.version
      state := (load (by decide)).trans fresh.state
      rank := (load (by decide)).trans fresh.rank
      size := (load (by decide)).trans fresh.size
      dataStart := (load (by decide)).trans fresh.dataStart
      owner := (load (by decide)).trans fresh.owner
      cursor := (load (by decide)).trans fresh.cursor
      head := (load (by decide)).trans fresh.head
      tail := (load (by decide)).trans fresh.tail
      rings := (load (by decide)).trans fresh.rings
      waiters := (load (by decide)).trans fresh.waiters }

theorem Complete.congr {region : Nat} (complete : Complete memory region rank size process)
    (same : other.region region = memory.region region) :
    Complete other region rank size process := by
  have bytes : other.read ⟨region, 0⟩ arenaStart = controlBytes rank size process := by
    rw [← complete.bytes, Memory.read, Memory.read, same]
  exact
    { complete with
      length := same ▸ complete.length
      bytes := bytes
      words := fresh_of_bytes (Nat.lt_of_le_of_lt complete.below (by decide)) bytes }

end Segment

/-! ## Steps -/

/-- What is asked of whoever makes a segment. -/
structure Order where
  rank : UInt32
  size : Nat
  removesFile : Bool
deriving Repr, DecidableEq

namespace Order

def segment (order : Order) (file : MappedFile) : Segment := ⟨file, order.rank, order.removesFile⟩

structure IsUsable (order : Order) : Prop where
  rank : order.rank.toNat ≤ maxRank
  above : arenaStart < order.size
  below : order.size ≤ maxSegmentSize

end Order

/-- What whoever makes a segment is about to do. -/
inductive Making where
  /-- To check what is asked for, and to make the directory. -/
  | checking
  /-- To make the draft, or to empty it. -/
  | drafting
  /-- To set the length of the draft. -/
  | sizing (region : Nat)
  /-- To map the draft. -/
  | mapping (region : Nat)
  /-- To zero the control words. -/
  | clearing (file : MappedFile)
  /-- To store words of the header, and then to rename the draft. -/
  | filling (file : MappedFile) (words : List (Field × Nat))
  /-- To close the segment, because the draft cannot be renamed. -/
  | withdrawing (file : MappedFile) (fault : Fault)
deriving Repr, DecidableEq

namespace Making

/-- One step of whoever makes a segment, up to the segment itself. -/
def advance (directory : String) (order : Order) : Making → Action World (Making ⊕ Segment)
  | checking =>
      if maxRank < order.rank.toNat then .fail (.config .rankTooLarge)
      else if order.size ≤ arenaStart ∨ maxSegmentSize < order.size then
        .fail (.config .segmentSize)
      else do
        World.makeDirectories directory
        pure (.inl drafting)
  | drafting =>
      if order.size = 0 then .fail (.refused .emptyMapping)
      else do
        let region ← World.createFile (draftPath directory order.rank)
        pure (.inl (sizing region))
  | sizing region => do
      World.setLength region order.size
      pure (.inl (mapping region))
  | mapping region => do
      let file ← MappedFile.map (draftPath directory order.rank) region
      pure (.inl (clearing file))
  | clearing file => do
      let process ← .look World.process
      .modify fun world => { world with
        memory := zeroControls world.memory (order.segment file).place }
      pure (.inl (filling file (headerWords order.rank order.size process)))
  | filling file [] => do
      match ← Action.attempt (file.rename (path directory order.rank)) with
      | .ok renamed => do
          .modify fun world => { world with
            segments := order.segment renamed :: world.segments }
          pure (.inr (order.segment renamed))
      | .error fault => pure (.inl (withdrawing file fault))
  | filling file (word :: words) => do
      .modify fun world => { world with
        memory := world.memory.store word.1 (order.segment file).place word.2 }
      pure (.inl (filling file words))
  | withdrawing file fault => do
      (order.segment file).close
      .fail fault

def finish (directory : String) (order : Order) (file : MappedFile) : Action World Segment := do
  .modify fun world => { world with
    memory := writeControls world.memory (order.segment file).place order.rank order.size
      world.process }
  (order.segment file).publish (path directory order.rank)

def rest (directory : String) (order : Order) : Making → Action World Segment
  | checking => create directory order.rank order.size order.removesFile
  | drafting => do
      let file ← MappedFile.create (draftPath directory order.rank) order.size
      finish directory order file
  | sizing region => do
      World.setLength region order.size
      let file ← MappedFile.map (draftPath directory order.rank) region
      finish directory order file
  | mapping region => do
      let file ← MappedFile.map (draftPath directory order.rank) region
      finish directory order file
  | clearing file => finish directory order file
  | filling file words => do
      .modify fun world => { world with
        memory := storeWords (order.segment file).place words world.memory }
      (order.segment file).publish (path directory order.rank)
  | withdrawing file fault => do
      (order.segment file).close
      .fail fault

/-- What is to be done is one step and what is to be done after it. At the beginning, it is to make
the segment. -/
theorem advance_rest (directory : String) (order : Order) (making : Making) :
    making.rest directory order = (do
      match ← making.advance directory order with
      | .inl next => next.rest directory order
      | .inr segment => pure segment) := by
  cases making with
  | checking =>
      rw [rest, create, advance]
      split
      · rfl
      · split
        · rfl
        · simp only [bind_assoc, pure_bind]
          rfl
  | drafting =>
      rw [rest, MappedFile.create, advance]
      split
      · rfl
      · simp only [bind_assoc, pure_bind]
        rfl
  | sizing region => simp only [rest, advance, bind_assoc, pure_bind]
  | mapping region => simp only [rest, advance, bind_assoc, pure_bind]
  | clearing file => rfl
  | filling file words =>
      cases words with
      | cons word words => rfl
      | nil =>
          funext world
          show (order.segment file).publish (path directory order.rank) world = _
          simp only [publish, advance, Action.bind_apply, Order.segment]
          rcases Action.attempt (file.rename (path directory order.rank)) world with
            ⟨renamed | fault, after⟩ | _ | _ | _ <;> rfl
  | withdrawing file fault =>
      simp only [rest, advance, bind_assoc]
      rfl

end Making

/-- What whoever attaches a segment is about to do. -/
inductive Attaching where
  /-- To open the file of the rank. -/
  | opening
  /-- To map it. -/
  | mapping (region : Nat)
  /-- To look whether it is ready, and then to check its header. -/
  | awaiting (file : MappedFile)
deriving Repr, DecidableEq

namespace Attaching

def mapOpened (directory : String) (rank : UInt32) (region : Nat) : Action World MappedFile := do
  if (← .look fun world => (world.memory.region region).size) = 0 then
    .fail (.refused .emptyMapping)
  else MappedFile.map (path directory rank) region

/-- One step of whoever attaches a segment. While it is not ready, the step is repeated. -/
def advance (directory : String) (rank : UInt32) : Attaching → Action World (Attaching ⊕ Segment)
  | opening => do
      let region ← World.openFile (path directory rank)
      pure (.inl (mapping region))
  | mapping region => do
      let file ← mapOpened directory rank region
      pure (.inl (awaiting file))
  | awaiting file => file.unlessFailed do
      if file.size ≤ arenaStart then .fail (.corrupt .tooSmall)
      else do
        let segment : Segment := { file, rank, removesFile := false }
        let state ← .look fun world => world.memory.load SegmentField.state segment.place
        if state ≠ stateReady then pure (.inl (awaiting file))
        else do
          World.inMemory segment.awaitReady
          .modify fun world => { world with segments := segment :: world.segments }
          pure (.inr segment)

def finish (rank : UInt32) (file : MappedFile) : Action World Segment :=
  file.unlessFailed do
    if file.size ≤ arenaStart then .fail (.corrupt .tooSmall)
    else
      let segment : Segment := { file, rank, removesFile := false }
      World.inMemory segment.awaitReady
      .modify fun world => { world with segments := segment :: world.segments }
      pure segment

def rest (directory : String) (rank : UInt32) : Attaching → Action World Segment
  | opening => attach directory rank
  | mapping region => do
      let file ← mapOpened directory rank region
      finish rank file
  | awaiting file => finish rank file

/-- What is to be done is one step and what is to be done after it. At the beginning, it is to
attach the segment. -/
theorem advance_rest (directory : String) (rank : UInt32) (attaching : Attaching) :
    attaching.rest directory rank = (do
      match ← attaching.advance directory rank with
      | .inl next => next.rest directory rank
      | .inr segment => pure segment) := by
  cases attaching with
  | opening =>
      simp only [rest, attach, MappedFile.open, advance, bind_assoc, pure_bind]
      simp only [mapOpened, bind_assoc]
      rfl
  | mapping region => simp only [rest, advance, bind_assoc, pure_bind]
  | awaiting file =>
      funext world
      show finish rank file world = _
      rw [Action.bind_apply]
      by_cases small : file.size ≤ arenaStart
      · simp only [finish, advance, MappedFile.unlessFailed, if_pos small]
        rfl
      · by_cases ready : world.memory.load SegmentField.state ⟨file.region, 0⟩ = stateReady
        · simp only [finish, advance, MappedFile.unlessFailed, if_neg small, Action.bind_apply,
            Action.look_apply, place, ready, ne_eq, not_true_eq_false, if_false]
          rcases World.inMemory (Segment.awaitReady ⟨file, rank, false⟩) world with _ | _ | _ | _
            <;> rfl
        · have waits : advance directory rank (awaiting file) world =
              .done (.inl (awaiting file)) world := by
            simp only [advance, MappedFile.unlessFailed, if_neg small, Action.bind_apply,
              Action.look_apply, place, ne_eq, ready, not_false_eq_true, if_true,
              Action.pure_apply]
          rw [waits]
          rfl

end Attaching

/-! ## What a step leaves alone -/

/-- A step changes no files but those of some names. -/
structure Confined (own : List String) (before after : World) : Prop where
  proper : after.disk.IsProper after.memory.fresh
  directories : ∀ {place}, before.disk.find? place = some .directory →
    after.disk.find? place = some .directory
  files : ∀ {above name region}, name ∉ own →
    (after.disk.find? (above ++ [name]) = some (.file region) ↔
      before.disk.find? (above ++ [name]) = some (.file region))
  bytes : ∀ {above name region}, name ∉ own →
    before.disk.find? (above ++ [name]) = some (.file region) →
      after.memory.region region = before.memory.region region

namespace Confined

variable {own more : List String} {name directory : String} {above : List String} {region : Nat}
  {before after : World}

theorem refl (proper : before.disk.IsProper before.memory.fresh)
    (memory : after.memory = before.memory) (disk : after.disk = before.disk) :
    Confined own before after where
  proper := by rwa [memory, disk]
  directories found := by rwa [disk]
  files _ := by rw [disk]
  bytes _ _ := by rw [memory]

theorem mono (confined : Confined own before after) (subset : own ⊆ more) :
    Confined more before after where
  proper := confined.proper
  directories := confined.directories
  files other := confined.files fun inside => other (subset inside)
  bytes other := confined.bytes fun inside => other (subset inside)

theorem trans {between : World} (one : Confined own before between)
    (two : Confined own between after) : Confined own before after where
  proper := two.proper
  directories found := two.directories (one.directories found)
  files other := (two.files other).trans (one.files other)
  bytes other found := (two.bytes other ((one.files other).mpr found)).trans (one.bytes other found)

theorem congr {last : World} (confined : Confined own before after)
    (memory : last.memory = after.memory) (disk : last.disk = after.disk) :
    Confined own before last where
  proper := by
    rw [memory, disk]
    exact confined.proper
  directories := disk ▸ confined.directories
  files := disk ▸ confined.files
  bytes := memory ▸ confined.bytes

theorem files_join (confined : Confined own before after) (other : name ∉ own)
    (files : before.disk.Files directory name region) :
    after.disk.Files directory name region := by
  obtain ⟨above, followed, found⟩ := files
  exact ⟨above, Disk.follow_of_directories confined.directories followed,
    (confined.files other).mpr found⟩

theorem openFile_join (confined : Confined own before after) (isName : Path.IsName name)
    (other : name ∉ own) (opened : before.disk.openFile (Path.join directory name) = .ok region) :
    after.disk.openFile (Path.join directory name) = .ok region ∧
      after.memory.region region = before.memory.region region := by
  obtain ⟨above, last, leads, short, found⟩ := Disk.openFile_iff.mp opened
  obtain ⟨_, _, same⟩ := Disk.spot_join isName leads
  cases same
  exact ⟨Disk.openFile_iff.mpr ⟨above, name, Disk.spot_of_directories confined.directories leads,
    short, (confined.files other).mpr found⟩, confined.bytes other found⟩

theorem of_grown (proper : before.disk.IsProper before.memory.fresh)
    (grown : before.disk.Grown after.disk) (memory : after.memory = before.memory) :
    Confined own before after where
  proper := by
    rw [memory]
    exact grown.isProper proper
  directories := grown.directories
  files _ := grown.files
  bytes _ _ := by rw [memory]

theorem of_writes (proper : before.disk.IsProper before.memory.fresh)
    (writes : Disk.Writes before.disk after.disk (above ++ [name]) before.memory.fresh region)
    (only : before.memory.Only region after.memory) (known : region < after.memory.fresh) :
    Confined [name] before after := by
  have written := writes.proper proper
  have elsewhere : ∀ {place other}, other ∉ [name] → place ++ [other] ≠ above ++ [name] :=
    fun other => Disk.place_ne (by simpa using other) _ _
  refine ⟨written.mono (Nat.max_le.mpr ⟨only.fresh, known⟩), writes.directories, fun other => ?_,
    fun other there => ?_⟩
  · rw [writes.others (elsewhere other)]
  · rw [← writes.others (elsewhere other)] at there
    exact only.region fun same => elsewhere other (written.apart (same ▸ there) writes.file)

theorem of_renames {target : String} (proper : before.disk.IsProper before.memory.fresh)
    (renames : Disk.Renames before.disk after.disk (above ++ [name]) (above ++ [target]) region)
    (memory : after.memory = before.memory) : Confined [name, target] before after := by
  refine ⟨?_, renames.directories, fun other => ?_, fun _ _ => by rw [memory]⟩
  · rw [memory]
    exact renames.proper proper
  · simp only [List.mem_cons, List.not_mem_nil, or_false, not_or] at other
    rw [renames.others (Disk.place_ne other.1 _ _) (Disk.place_ne other.2 _ _)]

theorem of_only (proper : before.disk.IsProper before.memory.fresh)
    (found : before.disk.find? (above ++ [name]) = some (.file region))
    (only : before.memory.Only region after.memory) (disk : after.disk = before.disk) :
    Confined [name] before after where
  proper := by
    rw [disk]
    exact proper.mono only.fresh
  directories there := by rwa [disk]
  files _ := by rw [disk]
  bytes other there := only.region fun same =>
    Disk.place_ne (by simpa using other) _ _ (proper.apart (same ▸ there) found)

end Confined

/-- A step of whoever makes the segment of a rank. It changes no files but its draft and the file of
its rank, and in place of that file it puts at most a complete one. -/
structure Advances (rank : UInt32) (before after : World) : Prop where
  confined : Confined [draftName rank, fileName rank] before after
  found : ∀ {above region}, after.disk.find? (above ++ [fileName rank]) = some (.file region) →
    (before.disk.find? (above ++ [fileName rank]) = some (.file region) ∧
        after.memory.region region = before.memory.region region) ∨
      ∃ size process, Complete after.memory region rank size process

theorem Confined.advances {rank : UInt32} {before after : World}
    (confined : Confined [draftName rank] before after) : Advances rank before after where
  confined := confined.mono (by simp)
  found there := by
    have other : fileName rank ∉ [draftName rank] := by simp [draftName_ne.symm]
    have was := (confined.files other).mp there
    exact .inl ⟨was, confined.bytes other was⟩

theorem Advances.refl {rank : UInt32} {before after : World}
    (proper : before.disk.IsProper before.memory.fresh) (memory : after.memory = before.memory)
    (disk : after.disk = before.disk) : Advances rank before after :=
  (Confined.refl proper memory disk).advances

theorem Advances.congr {rank : UInt32} {before after last : World}
    (advances : Advances rank before after) (memory : last.memory = after.memory)
    (disk : last.disk = after.disk) : Advances rank before last where
  confined := advances.confined.congr memory disk
  found := by rw [memory, disk]; exact advances.found

/-- The draft is there, and a segment can be made of it. -/
structure Drafted (directory : String) (disk : Disk) (order : Order) (region : Nat) : Prop where
  usable : order.IsUsable
  named : disk.Files directory (draftName order.rank) region

structure Mapped (directory : String) (world : World) (order : Order) (file : MappedFile) :
    Prop extends Drafted directory world.disk order file.region where
  path : file.path = draftPath directory order.rank
  length : (world.memory.region file.region).size = order.size

/-- What holds between two steps of whoever makes a segment. -/
def Making.Holds (directory : String) (world : World) (order : Order) : Making → Prop
  | checking => True
  | drafting => order.IsUsable
  | sizing region => Drafted directory world.disk order region
  | mapping region => Drafted directory world.disk order region ∧
      (world.memory.region region).size = order.size
  | clearing file => Mapped directory world order file
  | filling file words => Mapped directory world order file ∧
      -- The words that are still to be stored complete the header.
      ∃ process, (storeWords (order.segment file).place words world.memory).read
        (order.segment file).place arenaStart = controlBytes order.rank order.size process
  | withdrawing file _ => file.path = draftPath directory order.rank

section

variable {directory : String} {order : Order} {world : World} {file : MappedFile} {region : Nat}

theorem Drafted.written (drafted : Drafted directory world.disk order region)
    (proper : world.disk.IsProper world.memory.fresh) {memory : Memory}
    (only : world.memory.Only region memory) :
    Confined [draftName order.rank] world { world with memory } := by
  obtain ⟨above, _, found⟩ := drafted.named
  exact @Confined.of_only _ _ _ _ { world with memory } proper found only rfl

theorem Mapped.written (mapped : Mapped directory world order file) {memory : Memory}
    (sizes : (memory.region file.region).size = (world.memory.region file.region).size) :
    Mapped directory { world with memory } order file :=
  { mapped with length := sizes.trans mapped.length }

theorem createFile_meets (proper : world.disk.IsProper world.memory.fresh)
    (usable : order.IsUsable) :
    (World.createFile (draftPath directory order.rank) world).Meets False fun result after =>
      Confined [draftName order.rank] world after ∧
        after = { world with disk := after.disk, memory := after.memory } ∧
        ∀ region, result = .ok region → Drafted directory after.disk order region := by
  rw [World.createFile]
  split
  · next disk region created =>
    rw [draftPath_eq] at created
    obtain ⟨above, followed, writes⟩ := Disk.createFile_writes isName_draftName created
    refine ⟨.of_writes proper writes (world.memory.only_resize region 0)
      (world.memory.lt_fresh_resize region 0), rfl, fun _ same => ?_⟩
    obtain rfl := Except.ok.inj same
    exact ⟨usable, above, Disk.follow_of_directories writes.directories followed, writes.file⟩
  · exact ⟨.refl proper rfl rfl, rfl, fun _ same => by cases same⟩

theorem rename_meets (proper : world.disk.IsProper world.memory.fresh)
    (mapped : Mapped directory world order file) {process : UInt32}
    (bytes : world.memory.read ⟨file.region, 0⟩ arenaStart =
      controlBytes order.rank order.size process) :
    (file.rename (path directory order.rank) world).Meets False fun _ after =>
      Advances order.rank world after := by
  refine Action.meets_bind ?_
  rw [World.onDisk]
  split
  · next disk renamed =>
    rw [mapped.path, draftPath_eq] at renamed
    obtain ⟨above, region, followed, renames⟩ :=
      Disk.rename_renames isName_draftName isName_fileName renamed
    -- It is the draft that has been mapped, since its name stands for one file.
    obtain rfl := mapped.named.unique ⟨above, followed, renames.found⟩
    refine ⟨.of_renames proper renames rfl, ?_⟩
    · intro place region there
      have complete : Complete world.memory file.region order.rank order.size process :=
        { usable := mapped.usable.rank
          above := mapped.usable.above
          below := mapped.usable.below
          length := mapped.length
          bytes := bytes
          words := fresh_of_bytes (Nat.lt_of_le_of_lt mapped.usable.below (by decide)) bytes }
      by_cases same : place ++ [fileName order.rank] = above ++ [fileName order.rank]
      · rw [same, renames.file] at there
        obtain rfl := Entry.file.inj (Option.some.inj there)
        exact .inr ⟨order.size, process, complete⟩
      · rw [renames.others (Disk.place_ne draftName_ne.symm _ _) same] at there
        exact .inl ⟨there, rfl⟩
  · exact Advances.refl proper rfl rfl

/-- If a segment that is closed removes a file, it is the one that has its name by then. -/
theorem Segment.left_cases {segment : Segment} {name : String} (isName : Path.IsName name)
    (named : segment.file.path = Path.join directory name) (disk : Disk) :
    segment.left disk = disk ∨ ∃ above region,
      (Path.steps directory).foldlM disk.enter [] = .ok above ∧
        disk.find? (above ++ [name]) = some (.file region) ∧
        segment.left disk = disk.erase (above ++ [name]) := by
  rw [left]
  split
  · rw [named]
    split
    · next removed => exact .inr (Disk.removeFile_join isName removed)
    · exact .inl rfl
  · exact .inl rfl

theorem Segment.close_confined {segment : Segment} {name : String}
    (proper : world.disk.IsProper world.memory.fresh) (isName : Path.IsName name)
    (named : segment.file.path = Path.join directory name) {after : World}
    (memory : after.memory = world.memory) (disk : after.disk = segment.left world.disk) :
    Confined [name] world after := by
  rcases left_cases isName named world.disk with same | ⟨above, region, _, found, erased⟩
  · exact .refl proper memory (disk.trans same)
  · rw [erased] at disk
    have elsewhere : ∀ {place other}, other ∉ [name] → place ++ [other] ≠ above ++ [name] :=
      fun other => Disk.place_ne (by simpa using other) _ _
    refine ⟨?_, fun {place} there => ?_, fun other => ?_, fun _ _ => by rw [memory]⟩
    · rw [memory, disk]
      exact proper.erase _
    · have differs : place ≠ above ++ [name] := by
        rintro rfl
        simp [found] at there
      rw [disk]
      exact (Disk.find?_erase_of_ne differs).trans there
    · rw [disk, Disk.find?_erase_of_ne (elsewhere other)]

/-- A segment whose draft cannot be renamed is closed, and the draft removed with it. -/
theorem withdraw_meets (proper : world.disk.IsProper world.memory.fresh)
    (named : file.path = draftPath directory order.rank) :
    ((order.segment file).close world).Meets False fun _ after =>
      Advances order.rank world after := by
  rw [draftPath_eq] at named
  rw [close_eq]
  refine Outcome.meets_done.mpr (Confined.advances ?_)
  exact @close_confined _ _ (order.segment file) _ proper isName_draftName named _ rfl rfl

/-- What holds for whoever makes a segment stays when another file is written. -/
theorem Making.Holds.aside {making : Making} {own : List String} {before after : World}
    (holds : making.Holds directory before order) (confined : Confined own before after)
    (other : draftName order.rank ∉ own) : making.Holds directory after order := by
  have drafted : ∀ {region}, Drafted directory before.disk order region →
      Drafted directory after.disk order region ∧
        after.memory.region region = before.memory.region region := by
    rintro region ⟨usable, above, followed, found⟩
    exact ⟨⟨usable, confined.files_join other ⟨above, followed, found⟩⟩,
      confined.bytes other found⟩
  have mapped : ∀ {file}, Mapped directory before order file →
      Mapped directory after order file ∧
        after.memory.region file.region = before.memory.region file.region := by
    rintro file ⟨named, path, length⟩
    obtain ⟨named, bytes⟩ := drafted named
    exact ⟨⟨named, path, by rw [bytes, length]⟩, bytes⟩
  cases making with
  | checking => trivial
  | drafting => exact holds
  | sizing region => exact (drafted holds).1
  | mapping region =>
      obtain ⟨named, bytes⟩ := drafted holds.1
      exact ⟨named, by rw [bytes, holds.2]⟩
  | clearing file => exact (mapped holds).1
  | filling file words =>
      obtain ⟨named, process, filled⟩ := holds
      obtain ⟨named, bytes⟩ := mapped named
      refine ⟨named, process, (storeWords_congr words ?_).trans filled⟩
      rw [Memory.read, Memory.read]
      exact congrArg (fun region => region.bytes.read 0 arenaStart) bytes
  | withdrawing file fault => exact holds

theorem Advances.fails {after : World} (advances : Advances order.rank world after)
    {fault : Fault} : Advances order.rank world after ∧
      ∀ next, (.error fault : Except Fault (Making ⊕ Segment)) = .ok (.inl next) →
        next.Holds directory after order :=
  ⟨advances, fun _ same => by cases same⟩

theorem Advances.leads {after : World} (advances : Advances order.rank world after)
    {making : Making} (holds : making.Holds directory after order) :
    Advances order.rank world after ∧
      ∀ next, (.ok (.inl making) : Except Fault (Making ⊕ Segment)) = .ok (.inl next) →
        next.Holds directory after order :=
  ⟨advances, fun _ same => Sum.inl.inj (Except.ok.inj same) ▸ holds⟩

theorem Making.advance_meets (proper : world.disk.IsProper world.memory.fresh) {making : Making}
    (holds : making.Holds directory world order) :
    (making.advance directory order world).Meets False fun result after =>
      Advances order.rank world after ∧
        ∀ next, result = .ok (.inl next) → next.Holds directory after order := by
  cases making with
  | checking =>
      rw [advance]
      split
      · exact (Advances.refl proper rfl rfl).fails
      · next usable =>
          split
          · exact (Advances.refl proper rfl rfl).fails
          · next fits =>
              refine Action.meets_bind (Action.meets_within.mpr
                ((Disk.makeDirectories_meets directory world.disk).mono ?_))
              intro result made grown
              have advances : Advances order.rank world { world with disk := made } :=
                Confined.advances (.of_grown proper grown rfl)
              cases result with
              | error fault => exact advances.fails
              | ok value => exact advances.leads ⟨Nat.le_of_not_lt usable, by omega, by omega⟩
  | drafting =>
      rw [advance]
      split
      · exact (Advances.refl proper rfl rfl).fails
      · refine Action.meets_bind ((createFile_meets proper holds).mono ?_)
        rintro (fault | region) after ⟨confined, _, drafted⟩
        · exact confined.advances.fails
        · exact confined.advances.leads (drafted region rfl)
  | sizing region =>
      rw [advance, World.setLength]
      split
      · have written := holds.written proper (world.memory.only_resize region order.size)
        refine Action.meets_bind (written.advances.leads ?_)
        exact ⟨⟨holds.usable, holds.named⟩, world.memory.size_resize region order.size⟩
      · exact (Advances.refl proper rfl rfl).fails
  | mapping region =>
      refine Action.meets_bind ((MappedFile.map_meets ..).mono ?_)
      rintro (fault | file) after ends
      · obtain rfl := ends
        exact (Advances.refl proper rfl rfl).fails
      · obtain ⟨rfl, addresses, rfl⟩ := ends
        refine Outcome.meets_done.mpr (Advances.leads ?_ ?_)
        · exact .refl proper rfl rfl
        · exact ⟨⟨holds.1.usable, holds.1.named⟩, rfl, holds.2⟩
  | clearing file =>
      have written := Drafted.written holds.toDrafted proper
        (world.memory.only_write ⟨file.region, 0⟩ (List.replicate arenaStart 0))
      refine written.advances.leads ⟨holds.written ?_, world.process, read_writeControls ..⟩
      exact (world.memory.keeps_write ⟨file.region, 0⟩ _).size file.region
  | filling file words =>
      obtain ⟨mapped, process, bytes⟩ := holds
      cases words with
      | nil =>
          refine Action.meets_bind
            (Action.meets_attempt ((rename_meets proper mapped bytes).mono ?_))
          rintro (fault | renamed) after advances
          · exact advances.leads mapped.path
          · refine Action.meets_bind (Outcome.meets_done.mpr (Outcome.meets_done.mpr ?_))
            exact ⟨advances.congr rfl rfl, fun _ same => by cases same⟩
      | cons word words =>
          have written := Drafted.written mapped.toDrafted proper
            (world.memory.only_store word.1 ⟨file.region, 0⟩ word.2)
          refine written.advances.leads ⟨mapped.written ?_, process, bytes⟩
          exact (world.memory.keeps_store word.1 ⟨file.region, 0⟩ word.2).size file.region
  | withdrawing file fault =>
      refine Action.meets_bind ((withdraw_meets proper holds).mono ?_)
      rintro (fault | value) after advances <;> exact advances.fails

end

/-- Whoever attaches a segment changes neither memory nor disk. -/
theorem Attaching.advance_meets (directory : String) (rank : UInt32) (attaching : Attaching)
    (world : World) :
    (attaching.advance directory rank world).Meets False fun _ after =>
      after.memory = world.memory ∧ after.disk = world.disk := by
  cases attaching with
  | opening =>
      refine Action.meets_bind ?_
      rw [World.openFile]
      split <;> exact ⟨rfl, rfl⟩
  | mapping region =>
      refine Action.meets_bind (Action.meets_bind (Outcome.meets_done.mpr ?_))
      dsimp only
      split
      · exact ⟨rfl, rfl⟩
      · refine (MappedFile.map_meets ..).mono ?_
        rintro (fault | file) after ends
        · exact ends ▸ ⟨rfl, rfl⟩
        · obtain ⟨_, _, rfl⟩ := ends
          exact ⟨rfl, rfl⟩
  | awaiting file =>
      refine MappedFile.meets_unlessFailed ?_
      split
      · exact ⟨rfl, rfl⟩
      · refine Action.meets_bind (Outcome.meets_done.mpr ?_)
        dsimp only
        split
        · exact ⟨rfl, rfl⟩
        · next ready =>
          refine Action.meets_bind (Action.meets_within.mpr ?_)
          rw [awaitReady, if_neg ready]
          cases checkHeader _ _ _ _ <;> exact ⟨rfl, rfl⟩

/-! ## All parties -/

/-- Who makes a segment, with what is his own. -/
structure Maker where
  order : Order
  world : World
  making : Making

/-- Who attaches a segment, with what is his own. -/
structure Attacher where
  rank : UInt32
  world : World
  attaching : Attaching

/-- What is on disk and in memory, and all who make and attach segments. At most one at a time makes
the segment of a rank. -/
structure Yard where
  memory : Memory
  disk : Disk
  makers : UInt32 → Option Maker
  attachers : Nat → Option Attacher

/-- What is left to be done after a step, if it has not been the last. -/
def Outcome.left? {Stage : Type} : Outcome World (Stage ⊕ Segment) → Option Stage
  | done (.inl stage) _ => some stage
  | _ => none

theorem Outcome.Meets.left {Stage : Type} {outcome : Outcome World (Stage ⊕ Segment)}
    {holds : World → Prop} {next : Stage → World → Prop} {world : World}
    (meets : outcome.Meets False fun result after =>
      holds after ∧ ∀ stage, result = .ok (.inl stage) → next stage after)
    (ends : outcome.state? = some world) :
    holds world ∧ ∀ stage, outcome.left? = some stage → next stage world := by
  rcases outcome with ⟨stage | segment, after⟩ | ⟨fault, after⟩ | cause | _
  · obtain rfl := Option.some.inj ends
    exact ⟨meets.1, fun _ same => meets.2 _ (congrArg (Except.ok ∘ Sum.inl) (Option.some.inj same))⟩
  · obtain rfl := Option.some.inj ends
    exact ⟨meets.1, fun _ same => by cases same⟩
  · obtain rfl := Option.some.inj ends
    exact ⟨meets.1, fun _ same => by cases same⟩
  · cases ends
  · cases ends

namespace Yard

def start (memory : Memory) (disk : Disk) : Yard := ⟨memory, disk, fun _ => none, fun _ => none⟩

def enter (yard : Yard) (world : World) : World :=
  { world with memory := yard.memory, disk := yard.disk }

def leave (yard : Yard) (world : World) : Yard :=
  { yard with memory := world.memory, disk := world.disk }

/-- Somebody begins to make the segment of a rank, if nobody else does. -/
def make (yard : Yard) (order : Order) (world : World) : Yard :=
  match yard.makers order.rank with
  | some _ => yard
  | none => { yard with
      makers := Function.update yard.makers order.rank (some ⟨order, world, .checking⟩) }

def proceed (directory : String) (rank : UInt32) (yard : Yard) : Yard :=
  match yard.makers rank with
  | none => yard
  | some maker =>
      let outcome := maker.making.advance directory maker.order (yard.enter maker.world)
      match outcome.state? with
      | none => yard
      | some world => { yard.leave world with
          makers := Function.update yard.makers rank
            (outcome.left?.map fun making => { maker with world, making }) }

/-- Whoever makes the segment of a rank stops where he is. -/
def abandon (yard : Yard) (rank : UInt32) : Yard :=
  { yard with makers := Function.update yard.makers rank none }

def attach (yard : Yard) (name : Nat) (rank : UInt32) (world : World) : Yard :=
  { yard with attachers := Function.update yard.attachers name (some ⟨rank, world, .opening⟩) }

def look (directory : String) (name : Nat) (yard : Yard) : Yard :=
  match yard.attachers name with
  | none => yard
  | some attacher =>
      let outcome := attacher.attaching.advance directory attacher.rank (yard.enter attacher.world)
      match outcome.state? with
      | none => yard
      | some world => { yard.leave world with
          attachers := Function.update yard.attachers name
            (outcome.left?.map fun attaching => { attacher with world, attaching }) }

/-- What may happen. -/
inductive Act where
  | make (order : Order) (world : World)
  | proceed (rank : UInt32)
  | abandon (rank : UInt32)
  | attach (name : Nat) (rank : UInt32) (world : World)
  | look (name : Nat)

def perform (directory : String) (yard : Yard) : Act → Yard
  | .make order world => yard.make order world
  | .proceed rank => yard.proceed directory rank
  | .abandon rank => yard.abandon rank
  | .attach name rank world => yard.attach name rank world
  | .look name => yard.look directory name

/-- What comes of a memory and a disk, whoever makes and attaches segments and in whatever order
they take their steps. -/
inductive Reached (directory : String) (first : Yard) : Yard → Prop
  | start (idle : first = .start first.memory first.disk)
      (proper : first.disk.IsProper first.memory.fresh) : Reached directory first first
  | perform {yard : Yard} (act : Act) (reached : Reached directory first yard) :
      Reached directory first (yard.perform directory act)

/-- A file was there at the beginning under the same name, with the same bytes. -/
structure Stays (first : Yard) (memory : Memory) (place : List String) (region : Nat) : Prop where
  found : first.disk.find? place = some (.file region)
  bytes : memory.region region = first.memory.region region

/-- What holds of a yard. -/
structure Sound (directory : String) (first yard : Yard) : Prop where
  proper : yard.disk.IsProper yard.memory.fresh
  makers : ∀ {rank maker}, yard.makers rank = some maker → maker.order.rank = rank ∧
    maker.making.Holds directory (yard.enter maker.world) maker.order
  files : ∀ {above rank region}, yard.disk.find? (above ++ [fileName rank]) = some (.file region) →
    first.Stays yard.memory (above ++ [fileName rank]) region ∨
      ∃ size process, Complete yard.memory region rank size process

namespace Sound

variable {directory : String} {first yard : Yard} {rank : UInt32}

/-- What a step does that changes neither memory nor disk, nor who makes segments. -/
theorem congr {after : Yard} (sound : Sound directory first yard)
    (memory : after.memory = yard.memory) (disk : after.disk = yard.disk)
    (makers : ∀ {rank maker}, after.makers rank = some maker → yard.makers rank = some maker ∨
      maker.order.rank = rank ∧ maker.making = .checking) : Sound directory first after where
  proper := by rw [memory, disk]; exact sound.proper
  makers found := by
    rcases makers found with old | ⟨named, new⟩
    · simp only [enter, memory, disk]
      exact sound.makers old
    · exact ⟨named, by rw [new]; trivial⟩
  files there := by
    rw [disk] at there
    rw [memory]
    exact sound.files there

theorem make (sound : Sound directory first yard) (order : Order) (world : World) :
    Sound directory first (yard.make order world) := by
  rw [Yard.make]
  split
  · exact sound
  · refine sound.congr rfl rfl fun {rank maker} found => ?_
    simp only [Function.update_apply] at found
    split at found
    · next same =>
      obtain rfl := Option.some.inj found
      exact .inr ⟨same.symm, rfl⟩
    · exact .inl found

theorem abandon (sound : Sound directory first yard) (rank : UInt32) :
    Sound directory first (yard.abandon rank) := by
  refine sound.congr rfl rfl fun {other maker} found => ?_
  simp only [Yard.abandon, Function.update_apply] at found
  split at found
  · cases found
  · exact .inl found

theorem look (sound : Sound directory first yard) (name : Nat) :
    Sound directory first (yard.look directory name) ∧
      (yard.look directory name).memory = yard.memory ∧
      (yard.look directory name).disk = yard.disk := by
  rw [Yard.look]
  split
  · exact ⟨sound, rfl, rfl⟩
  · next attacher found =>
    have meets := attacher.attaching.advance_meets directory attacher.rank
      (yard.enter attacher.world)
    dsimp only
    cases ends : (attacher.attaching.advance directory attacher.rank
        (yard.enter attacher.world)).state? with
    | none => exact ⟨sound, rfl, rfl⟩
    | some world =>
        obtain ⟨memory, disk⟩ := meets.post_of_state ends
        exact ⟨sound.congr memory disk .inl, memory, disk⟩

theorem proceed (sound : Sound directory first yard) (rank : UInt32) :
    Sound directory first (yard.proceed directory rank) ∧
      ∀ world, Confined [draftName rank, fileName rank] (yard.enter world)
        ((yard.proceed directory rank).enter world) := by
  have idle : Sound directory first yard ∧ ∀ world, Confined [draftName rank, fileName rank]
      (yard.enter world) (yard.enter world) := ⟨sound, fun _ => .refl sound.proper rfl rfl⟩
  rw [Yard.proceed]
  split
  · exact idle
  · next maker found =>
    obtain ⟨named, holds⟩ := sound.makers found
    have meets := Making.advance_meets sound.proper holds
    dsimp only
    cases ends : (maker.making.advance directory maker.order (yard.enter maker.world)).state? with
    | none => exact idle
    | some world =>
        obtain ⟨advances, next⟩ := meets.left ends
        obtain rfl := named
        have confined : ∀ own : World, Confined [draftName maker.order.rank,
            fileName maker.order.rank] (yard.enter own)
              ((yard.leave world).enter own) := by
          intro own
          exact ⟨advances.confined.proper, advances.confined.directories,
            advances.confined.files, advances.confined.bytes⟩
        refine ⟨⟨advances.confined.proper, fun {other found} there => ?_, ?_⟩, confined⟩
        · simp only [Function.update_apply] at there
          split at there
          · next same =>
            obtain ⟨making, left, rfl⟩ := Option.map_eq_some_iff.mp there
            exact ⟨same.symm, next making left⟩
          · next differs =>
            obtain ⟨named, holds⟩ := sound.makers there
            exact ⟨named, holds.aside (confined _) (named ▸ (not_mem_names differs).1)⟩
        · intro above other region there
          have kept : yard.disk.find? (above ++ [fileName other]) = some (.file region) →
              world.memory.region region = yard.memory.region region →
              first.Stays world.memory (above ++ [fileName other]) region ∨
                ∃ size process, Complete world.memory region other size process :=
            fun was bytes => (sound.files was).imp
              (fun stays => ⟨stays.found, bytes.trans stays.bytes⟩)
              fun ⟨size, process, complete⟩ => ⟨size, process, complete.congr bytes⟩
          by_cases same : other = maker.order.rank
          · subst same
            exact (advances.found there).elim (fun old => kept old.1 old.2) .inr
          · have elsewhere := (not_mem_names same).2
            have was := (advances.confined.files elsewhere).mp there
            exact kept was (advances.confined.bytes elsewhere was)

end Sound

variable {directory : String} {first yard : Yard}

theorem Reached.sound (reached : Reached directory first yard) : Sound directory first yard := by
  induction reached with
  | start idle proper =>
      refine ⟨proper, fun found => ?_, fun there => .inl ⟨there, rfl⟩⟩
      rw [idle] at found
      cases found
  | perform act reached ih =>
      cases act with
      | make order world => exact ih.make order world
      | proceed rank => exact (ih.proceed rank).1
      | abandon rank => exact ih.abandon rank
      | attach name rank world => exact ih.congr rfl rfl .inl
      | look name => exact (ih.look name).1

/-- **A segment is published at once.** Wherever those who make and attach segments have got to, and
whoever of them has stopped, a file that is found under the name of a rank was there at the
beginning and has not been touched, or it is complete. Different ranks have different names, no
draft has the name of a rank, and so a step in making the segment of one rank leaves the files and
drafts of all others alone. Attaching changes nothing. -/
theorem Reached.publishes_at_once (reached : Reached directory first yard) :
    (∀ rank region, yard.disk.openFile (path directory rank) = .ok region →
      (∃ above, (Path.steps directory).foldlM yard.disk.enter [] = .ok above ∧
        first.Stays yard.memory (above ++ [fileName rank]) region) ∨
      ∃ size process, Complete yard.memory region rank size process) ∧
    (∀ rank other, fileName rank = fileName other → rank = other) ∧
    (∀ rank other, draftName rank ≠ fileName other) ∧
    (∀ rank other, other ≠ rank → ∀ name ∈ [draftName other, fileName other], ∀ above region,
      ((yard.proceed directory rank).disk.find? (above ++ [name]) = some (.file region) ↔
        yard.disk.find? (above ++ [name]) = some (.file region)) ∧
      (yard.disk.find? (above ++ [name]) = some (.file region) →
        (yard.proceed directory rank).memory.region region = yard.memory.region region)) ∧
    ∀ name, (yard.look directory name).memory = yard.memory ∧
      (yard.look directory name).disk = yard.disk := by
  have sound := reached.sound
  refine ⟨fun rank region opened => ?_, fun _ _ => fileName_inj, fun _ _ => draftName_ne,
    fun rank other differs name named above region => ?_, fun name => (sound.look name).2⟩
  · obtain ⟨above, followed, found⟩ := Disk.openFile_join isName_fileName opened
    exact (sound.files found).imp_left fun stays => ⟨above, followed, stays⟩
  · have confined := (sound.proceed rank).2 (.start 0 [])
    obtain ⟨draft, file⟩ := not_mem_names differs
    have elsewhere : name ∉ [draftName rank, fileName rank] := by
      simp only [List.mem_cons, List.not_mem_nil, or_false] at named
      rcases named with rfl | rfl
      · exact draft
      · exact file
    exact ⟨confined.files elsewhere, confined.bytes elsewhere⟩

/-! ## Two makers -/

/-- Two processes make the segments of two ranks, step by step in turn. The second one stops before
its draft gets its name; the first one goes on to the end. -/
def twoMakers : Yard :=
  ([Act.make ⟨0, 2048, false⟩ (.start 7 []), Act.make ⟨1, 4096, true⟩ (.start 8 [])] ++
    (List.replicate 16 [Act.proceed 0, Act.proceed 1]).flatten ++
      [Act.abandon 1, Act.proceed 0]).foldl (perform "/") (.start .empty .empty)

theorem reached_twoMakers : Reached "/" (.start .empty .empty) twoMakers := by
  have run : ∀ (acts : List Act) (yard : Yard), Reached "/" (.start .empty .empty) yard →
      Reached "/" (.start .empty .empty) (acts.foldl (perform "/") yard) := by
    intro acts
    induction acts with
    | nil => exact fun _ reached => reached
    | cons act acts ih => exact fun yard reached => ih _ (reached.perform act)
  exact run _ _ (.start rfl (Disk.isProper_empty 0))

/-- The segment of the first is found, and is complete; that of the second is not found. -/
theorem publishes_at_once_twoMakers : ∃ region size process,
    twoMakers.disk.openFile (path "/" 0) = .ok region ∧
      Complete twoMakers.memory region 0 size process ∧
      twoMakers.disk.leadsTo (path "/" 1) = false := by
  have found : (twoMakers.disk.openFile (path "/" 0)).toBool = true ∧
      twoMakers.disk.leadsTo (path "/" 1) = false := by
    decide +kernel
  cases opened : twoMakers.disk.openFile (path "/" 0) with
  | error fault =>
      rw [opened] at found
      cases found.1
  | ok region =>
      rcases reached_twoMakers.publishes_at_once.1 0 region opened with
        ⟨above, _, stays⟩ | ⟨size, process, complete⟩
      · exact absurd stays.found (by cases above <;> exact fun there => by cases there)
      · exact ⟨region, size, process, rfl, complete, found.2⟩

end Yard

end RankMail

import RankMail.Proofs.Estate.Standing
import RankMail.Proofs.Segment.Admission

set_option autoImplicit false

/-! # Segments stay attachable

Whatever is called, the words that say what a segment is stay as they were when it was made. So
whoever finds a file under the name of a rank can attach it at once, and then has the same queue,
the same doorbell and the same arena before him as everybody else who has mapped it
(`Reached.attaches`). A copy of the file under the name of another rank says of itself whose it is,
and is refused.
-/

namespace RankMail

open Segment

namespace Segment

variable {memory after : Memory} {block place : Place} {rank process : UInt32} {size count : Nat}
  {segment other : Segment}

/-- Files that begin with the same bytes are those of the same segment. -/
theorem Identity.congr (identity : Identity memory block rank size process)
    (same : after.read place count = memory.read block count) (long : Memory.wordsEnd ≤ count) :
    Identity after place rank size process := by
  have load : ∀ {field : Field}, field.distance + field.width ≤ Memory.wordsEnd →
      after.load field place = memory.load field block :=
    fun inside => Memory.load_congr same (Nat.le_trans inside long)
  exact
    { magic := (load (by decide)).trans identity.magic
      version := (load (by decide)).trans identity.version
      state := (load (by decide)).trans identity.state
      rank := (load (by decide)).trans identity.rank
      size := (load (by decide)).trans identity.size
      dataStart := (load (by decide)).trans identity.dataStart
      owner := (load (by decide)).trans identity.owner }

/-- Two mappings of one segment: what is there for one of them is there for the other. -/
structure Shares (segment other : Segment) : Prop where
  size : segment.size = other.size
  cursor : ∀ memory, segment.cursor memory = other.cursor memory
  queue : ∀ addresses, segment.queue addresses = other.queue addresses
  doorbell : segment.doorbell = other.doorbell
  bytes : ∀ memory, segment.file.bytes memory = other.file.bytes memory

theorem shares_of_region (region : segment.file.region = other.file.region)
    (size : segment.size = other.size) : segment.Shares other where
  size := size
  cursor memory := by rw [cursor, cursor, place, place, region]
  queue addresses := by rw [queue, queue, queueBlock, queueBlock, placeAt, placeAt, region]
  doorbell := by rw [doorbell, doorbell, doorbellBlock, doorbellBlock, placeAt, placeAt, region]
  bytes memory := by
    rw [MappedFile.bytes, MappedFile.bytes, region]
    exact congrArg _ size

end Segment

namespace World

variable {world copied : World} {path target : String} {region : Nat}

theorem writeInto_empty (world : World) (data : List UInt8)
    (empty : (world.memory.region region).size = 0) :
    ∃ memory, writeInto region 0 data world = .done () { world with memory } ∧
      (memory.region region).size = data.length ∧ memory.read ⟨region, 0⟩ data.length = data := by
  refine ⟨_, rfl, ?_⟩
  split
  · next nothing =>
    obtain rfl := List.isEmpty_iff.mp nothing
    exact ⟨empty, List.length_eq_zero_iff.mp (Memory.length_read ..)⟩
  · have keeps := Memory.keeps_write (world.memory.resize region data.length) ⟨region, 0⟩ data
    have length := world.memory.size_resize region data.length
    dsimp only
    rw [empty, Nat.zero_add, Nat.max_eq_right (Nat.zero_le _)]
    exact ⟨(keeps.size region).trans length, Memory.read_write_same ..⟩

/-- A file that has been copied: the copy has the same bytes, and nothing has been mapped. -/
theorem copyFile_copies (opened : world.disk.openFile path = .ok region)
    (done : copyFile path target world = .done () copied) :
    ∃ disk copy, world.disk.createFile target world.memory.fresh = .ok (disk, copy) ∧
      copied.disk = disk ∧ copied.addresses = world.addresses ∧ copied.nextBase = world.nextBase ∧
      (region ≠ copy →
        (copied.memory.region copy).size = (world.memory.region region).size ∧
        copied.memory.read ⟨copy, 0⟩ (world.memory.region region).size =
          world.memory.read ⟨region, 0⟩ (world.memory.region region).size) := by
  have source : openSource path world = .done region world := by
    have found : openFile path world = .done region world := by rw [openFile, opened]
    rw [openSource, Action.bind_done (Action.attempt_done found)]
    rfl
  rw [copyFile, Action.bind_done source, Action.bind_apply, createFile] at done
  cases created : world.disk.createFile target world.memory.fresh with
  | error cause =>
      rw [created] at done
      cases done
  | ok made =>
      obtain ⟨disk, copy⟩ := made
      rw [created] at done
      dsimp only at done
      rw [contents, Action.bind_done (Action.look_apply _ _)] at done
      dsimp only at done
      obtain ⟨memory, written, length, reads⟩ := writeInto_empty
        { world with disk, memory := world.memory.resize copy 0 }
        ((world.memory.resize copy 0).read ⟨region, 0⟩
          ((world.memory.resize copy 0).region region).size) (world.memory.size_resize copy 0)
      rw [written] at done
      obtain ⟨-, rfl⟩ := Outcome.done.inj done
      refine ⟨disk, copy, rfl, rfl, rfl, rfl, fun differ => ?_⟩
      have only := world.memory.only_resize copy 0
      have differ : (⟨region, 0⟩ : Place).region ≠ copy := differ
      rw [Memory.length_read, only.region differ] at length reads
      exact ⟨length, reads.trans (only.read differ _)⟩

end World

/-- A segment that has been attached is that on a plot, and shares everything with whoever has it
mapped already. Nothing else has changed. -/
structure Segment.Attached (plot : Plot) (world : World) (segment : Segment) (after : World) :
    Prop where
  rank : segment.rank = plot.rank
  region : segment.file.region = plot.region
  size : segment.size = plot.size
  memory : after.memory = world.memory
  disk : after.disk = world.disk
  mapped : after.segments = segment :: world.segments
  shares : ∀ other ∈ world.segments, other.rank = plot.rank → segment.Shares other

/-- Whoever attaches the segment of a plot under the name of its rank has it at once, unless there
are no addresses left. Whoever finds a copy of its file under another rank's name is told so. -/
structure Plot.IsAttachable (directory : String) (world : World) (plot : Plot) : Prop where
  attaches : world.HasRoom plot.size → ∃ segment after,
    attach directory plot.rank world = .done segment after ∧ segment.Attached plot world after
  crowded : ¬world.HasRoom plot.size →
    attach directory plot.rank world = .failed (.file .noAddresses) world
  copies : world.HasRoom plot.size → ∀ other copied, other ≠ plot.rank →
    World.copyFile (path directory plot.rank) (path directory other) world = .done () copied →
    ∃ after, attach directory other copied = .failed (.corrupt .rank) after

namespace Ground

variable {directory : String} {ground : Ground} {world copied : World} {rank other : UInt32}
  {region : Nat} {plot : Plot}

/-- A copy under the name of another rank is refused. -/
theorem Describes.copy_refused (describes : ground.Describes directory world)
    (here : ground.current plot.rank = some plot)
    (opened : world.disk.openFile (path directory plot.rank) = .ok plot.region)
    (room : world.HasRoom plot.size) (differs : other ≠ plot.rank)
    (done : World.copyFile (path directory plot.rank) (path directory other) world =
      .done () copied) :
    ∃ after, attach directory other copied = .failed (.corrupt .rank) after := by
  have made := (describes.sound.current here).1
  have above := (describes.sound.usable plot made).2.1
  have length := describes.sound.length plot made
  obtain ⟨disk, copy, created, rfl, addresses, base, copies⟩ := World.copyFile_copies opened done
  obtain ⟨spot, _, writes⟩ := Disk.createFile_writes isName_fileName created
  obtain ⟨place, _, found⟩ := Disk.openFile_join isName_fileName opened
  -- The copy has a name of its own, and so a region of its own.
  have apart : plot.region ≠ copy := by
    intro same
    have named := Disk.place_ne (fun equal => differs (fileName_inj equal).symm) place spot
    rw [← writes.others named] at found
    exact named ((writes.proper describes.filed.proper).apart (same ▸ found) writes.file)
  obtain ⟨copyLength, bytes⟩ := copies apart
  have long : Memory.wordsEnd ≤ (world.memory.region plot.region).size :=
    length ▸ Nat.le_trans (by decide) (Nat.le_of_lt above)
  have identity := Identity.congr (describes.sound.stands plot made) bytes long
  rw [attach_eq (Disk.openFile_of_createFile created) (copyLength.trans length) above identity]
  rw [World.HasRoom, ← addresses, ← base] at room
  obtain ⟨rest, taken⟩ := Option.isSome_iff_exists.mp room
  rw [taken]
  exact ⟨_, if_neg differs⟩

/-- A file that is found under the name of a rank is that of its present segment, which can be
attached. -/
theorem Describes.attachable (describes : ground.Describes directory world)
    (opened : world.disk.openFile (path directory rank) = .ok region) :
    ∃ plot ∈ ground.made, ground.current rank = some plot ∧ plot.rank = rank ∧
      plot.region = region ∧ plot.IsAttachable directory world := by
  obtain ⟨plot, made, here, rfl, rfl, stands, above, length⟩ := describes.present opened
  have attached := attach_eq opened length above stands
  refine ⟨plot, made, here, rfl, rfl, fun room => ?_, fun crowded => ?_,
    fun room _ _ => describes.copy_refused here opened room⟩
  · obtain ⟨addresses, taken⟩ := Option.isSome_iff_exists.mp room
    rw [attached, taken]
    refine ⟨_, _, if_pos rfl, rfl, rfl, rfl, rfl, rfl, rfl, fun other inside same => ?_⟩
    rw [← describes.mapped] at inside
    obtain ⟨again, there, region, size⟩ := describes.sound.charted other inside
    rw [same, here] at there
    obtain rfl := Option.some.inj there
    exact shares_of_region region.symm size.symm
  · rw [attached, Option.not_isSome_iff_eq_none.mp crowded]

end Ground

namespace Estate

variable {directory : String} {estate between after : Estate}

/-- **Segments stay attachable.** The words that say what a segment is never change once it has been
made, whatever is called. So a file that is found under the name of a rank is that of the rank's
latest segment, and whoever attaches it has it at once, in the length that its maker has given
it. -/
theorem Reached.stay_attachable (reached : Reached directory estate)
    (runs : estate.Runs directory after) :
    (∀ plot ∈ estate.made, plot ∈ after.made ∧
      plot.Stands estate.memory ∧ plot.Stands after.memory) ∧
    ∀ rank region, after.holdings.world.disk.openFile (path directory rank) = .ok region →
      ∃ plot ∈ after.made, after.latest? rank = some plot ∧ plot.rank = rank ∧
        plot.region = region ∧ plot.IsAttachable directory after.holdings.world := by
  obtain ⟨ground, carries⟩ := reached.sound
  obtain ⟨⟨later, carriesToo⟩, made⟩ := runs.follows ⟨ground, carries⟩
  have describes := carriesToo.houses.describes
  refine ⟨fun plot inside => ⟨made inside, ?_, ?_⟩, fun rank region opened => ?_⟩
  · exact carries.houses.describes.sound.stands plot (carries.made ▸ inside)
  · exact describes.sound.stands plot (carriesToo.made ▸ made inside)
  · obtain ⟨plot, inside, here, rest⟩ := describes.attachable opened
    exact ⟨plot, carriesToo.made ▸ inside, carriesToo.latest here, rest⟩

/-! ## Runs that are given -/

/-- What some calls lead to, if each of them is allowed and comes to an end. -/
def run? (directory : String) (isAllowed : Estate → Call → Bool) :
    List Call → Estate → Option Estate
  | [], estate => some estate
  | call :: rest, estate =>
      if isAllowed estate call then do
        let after ← (call.perform directory estate).state?
        run? directory isAllowed rest after.settled
      else none

/-- Enough to be allowed: no rank gets a second segment, and what is appended to a queue has been
taken from one. -/
def isSafe (estate : Estate) : Call → Bool
  | .create _ rank _ _ => estate.made.all (·.rank != rank)
  | .node _ rank _ => estate.made.all (·.rank != rank)
  | .reserve _ length => length % headerAlignment == 0
  | .enqueue _ _ offset => estate.taken.contains offset
  | _ => true

theorem allowed_of_isSafe {call : Call} (safe : isSafe estate call = true) :
    call.Allowed estate := by
  cases call with
  | create => exact .inl (by simpa [isSafe] using safe)
  | node => exact .inl (by simpa [isSafe] using safe)
  | reserve => exact beq_iff_eq.mp safe
  | enqueue => exact .taken (by simpa [isSafe] using safe)
  | _ => trivial

theorem Runs.of_run? {calls : List Call} (runs : estate.Runs directory between)
    (ran : run? directory isSafe calls between = some after) : estate.Runs directory after := by
  induction calls generalizing between with
  | nil =>
      obtain rfl := Option.some.inj ran
      exact runs
  | cons call rest ih =>
      rw [run?] at ran
      split at ran
      · next safe =>
          obtain ⟨next, ends, ran⟩ := Option.bind_eq_some_iff.mp ran
          exact ih (runs.call (allowed_of_isSafe safe) ends) ran
      · cases ran

/-- What the nodes below are made with. -/
def modestConfig : Config := ⟨2048, ⟨64, 128, 256⟩, 2, .busyPoll 1, false, false⟩

/-- Two ranks make their nodes and attach each other. -/
def paired : Estate :=
  (run? "/" isSafe [.node "a" 0 modestConfig, .node "b" 1 modestConfig, .attachPeer "a" 1,
    .attachPeer "b" 0] (start 7 [])).get (by decide +kernel)

/-- One of them sends, the other reads and gives back, and is dropped. -/
def parted : Estate :=
  (run? "/" isSafe [.send "a" 1 [104, 105], .send "a" 1 [], .read "b" (some "m"),
    .release "b" "m", .drop "b"] paired).get (by decide +kernel)

/-- The file of the node that has been dropped can still be attached. -/
theorem stay_attachable_parted : ∃ region, ∃ plot ∈ parted.made,
    Reached "/" paired ∧ paired.Runs "/" parted ∧
      parted.holdings.world.disk.openFile (path "/" 1) = .ok region ∧ plot.region = region ∧
      plot.IsAttachable "/" parted.holdings.world := by
  have reached : Reached "/" paired :=
    ⟨_, begins_start "/" 7 [], Runs.refl.of_run? (Option.some_get _).symm⟩
  have runs : paired.Runs "/" parted := Runs.refl.of_run? (Option.some_get _).symm
  have there : (parted.holdings.world.disk.openFile (path "/" 1)).toBool = true := by
    decide +kernel
  cases opened : parted.holdings.world.disk.openFile (path "/" 1) with
  | error fault =>
      rw [opened] at there
      cases there
  | ok region =>
      obtain ⟨plot, inside, _, _, same, attachable⟩ :=
        (reached.stay_attachable runs).2 1 region opened
      exact ⟨region, plot, inside, reached, runs, rfl, same, attachable⟩

/-- A rank that gets another segment while an offset of it is queued elsewhere. The receiver, who
attaches the rank only now, takes the offset to be one of the new segment, and what stands there for
a link leads to the beginning of the segment. Once that has been given back, the mark of the segment
is gone, and nobody can attach it. -/
theorem requeued_offset_spoils_mark : ∃ before ∈ run? "/" (fun _ _ => true)
      [.node "a" 0 modestConfig, .node "b" 1 modestConfig, .attachPeer "a" 1,
        .send "a" 1 [104, 105], .node "a" 0 modestConfig] (start 7 []),
    ∃ after ∈ run? "/" (fun _ _ => true)
      [.attachPeer "b" 0, .read "b" (some "m"), .read "b" (some "n"), .release "b" "n"] before,
    ∃ plot ∈ before.latest? 0, after.latest? 0 = some plot ∧
      before.memory.load SegmentField.magic plot.place = segmentMagic ∧
      after.memory.load SegmentField.magic plot.place ≠ segmentMagic ∧
      after.holdings.world.disk.openFile (path "/" 0) = .ok plot.region ∧
      (attach "/" 0 after.holdings.world).fault? = some (.corrupt .magic) := by
  decide +kernel

end Estate

end RankMail

import RankMail.World
import RankMail.Queue
import RankMail.Doorbell

set_option autoImplicit false

/-! # From creating a segment to closing it

A segment is written under a name of its own and takes the name of its rank only when it is
complete, so that whoever finds a file under the name of a rank never sees half a header:

    create temporary file --> set its length --> write the header --> rename

`Segment.attach` believes nothing it finds: it accepts a file exactly if every word of the header
that never changes has the value that `Segment.create` gives it. A file whose header is still being
written is waited for.
-/

namespace RankMail

namespace Segment

def path (directory : String) (rank : UInt32) : String := Path.join directory (fileName rank)

/-- The path of the file of a rank while it is written. -/
def draftPath (directory : String) (rank : UInt32) : String := path directory rank ++ ".tmp"

/-- The queue of the segment, its fragments reached through some addresses. -/
def queue (segment : Segment) (addresses : AddressMap) : Queue := ⟨segment.queueBlock, addresses⟩

def doorbell (segment : Segment) : Doorbell := ⟨segment.doorbellBlock⟩

/-! ## Creating -/

def zeroControls (memory : Memory) (block : Place) : Memory :=
  memory.write block (List.replicate arenaStart 0)

/-- The words of the header of a new segment, in the order in which they are written. The mark at
the beginning comes last but one, and that the segment is ready comes last. -/
def headerWords (rank : UInt32) (size : Nat) (process : UInt32) : List (Field × Nat) :=
  [(SegmentField.state, stateWriting),
   (SegmentField.version, segmentVersion),
   (SegmentField.rank, rank.toNat),
   (SegmentField.size, size),
   (SegmentField.dataStart, arenaStart),
   (SegmentField.cursor, arenaStart),
   (SegmentField.owner, process.toNat),
   (SegmentField.head, Offset.free.word),
   (SegmentField.tail, Offset.free.word),
   (SegmentField.magic, segmentMagic),
   (SegmentField.state, stateReady)]

/-- Writes the control words of a new segment. -/
def writeControls (memory : Memory) (block : Place) (rank : UInt32) (size : Nat)
    (process : UInt32) : Memory :=
  (headerWords rank size process).foldl (fun written word => written.store word.1 block word.2)
    (zeroControls memory block)

/-- Ends the mapping of a segment and removes the file, if that is due; that it cannot be removed
does not matter. -/
def close (segment : Segment) : Action World Unit := do
  .modify fun world =>
    segment.file.unmap { world with segments := world.segments.filter (· != segment) }
  if segment.removesFile then
    let _ ← Action.attempt (World.removeFile segment.file.path)

/-- Runs an action and closes the segment if it fails. -/
def unlessFailed {Value : Type} (segment : Segment) (action : Action World Value) :
    Action World Value := do
  match ← Action.attempt action with
  | .ok value => pure value
  | .error fault => do
      segment.close
      .fail fault

/-- Gives the file of a new segment the name of its rank. -/
def publish (segment : Segment) (target : String) : Action World Segment := do
  match ← Action.attempt (segment.file.rename target) with
  | .ok file =>
      let published := { segment with file }
      .modify fun world => { world with segments := published :: world.segments }
      pure published
  | .error fault => do
      segment.close
      .fail fault

/-- Makes the segment of a rank, in place of an earlier one. -/
def create (directory : String) (rank : UInt32) (size : Nat) (removesFile : Bool) :
    Action World Segment :=
  if maxRank < rank.toNat then .fail (.config .rankTooLarge)
  else if size ≤ arenaStart ∨ maxSegmentSize < size then .fail (.config .segmentSize)
  else do
    World.makeDirectories directory
    let file ← MappedFile.create (draftPath directory rank) size
    let segment : Segment := { file, rank, removesFile }
    .modify fun world => { world with
      memory := writeControls world.memory segment.place rank size world.process }
    segment.publish (path directory rank)

/-! ## Attaching -/

/-- What the header of a segment that is ready says wrongly, if anything. -/
def checkHeader (memory : Memory) (block : Place) (rank : UInt32) (size : Nat) :
    Except Fault Unit :=
  let version := memory.load SegmentField.version block
  if memory.load SegmentField.magic block ≠ segmentMagic then .error (.corrupt .magic)
  else if version ≠ segmentVersion then .error (.version (UInt32.ofNat version))
  else if memory.load SegmentField.rank block ≠ rank.toNat then .error (.corrupt .rank)
  else if memory.load SegmentField.size block ≠ size then .error (.corrupt .size)
  else if memory.load SegmentField.dataStart block ≠ arenaStart then .error (.corrupt .dataStart)
  else .ok ()

/-- Waits until the segment is ready, then checks its header. -/
def awaitReady (segment : Segment) : Action Memory Unit := fun memory =>
  if memory.load SegmentField.state segment.place ≠ stateReady then .hung
  else Action.ofFault (checkHeader memory segment.place segment.rank segment.size) memory

/-- Maps the segment of a rank that somebody else has made. -/
def attach (directory : String) (rank : UInt32) : Action World Segment := do
  let file ← MappedFile.open (path directory rank)
  file.unlessFailed do
    if file.size ≤ arenaStart then .fail (.corrupt .tooSmall)
    else
      let segment : Segment := { file, rank, removesFile := false }
      World.inMemory segment.awaitReady
      .modify fun world => { world with segments := segment :: world.segments }
      pure segment

/-- Locks the segment in physical memory, if the system allows it. -/
def lock (segment : Segment) : Action World Unit := segment.file.lock

/-! ## Owners and holders -/

/-- Whether the process that made the segment still runs. Numbers from 2 ^ 31 on, and zero, are
those of no process. -/
def isOwnerAlive (segment : Segment) (world : World) : Bool :=
  let owner := segment.owner world.memory
  owner ≠ 0 && owner.toNat < 2 ^ 31 && world.running.contains owner

def closeAll : List Segment → Action World Unit
  | [] => pure ()
  | segment :: rest => do
      segment.close
      closeAll rest

/-- Closes the segments that nobody holds any more; what is held is named by the bases of the
mappings. -/
def closeUnheld (held : List Nat) : Action World Unit := do
  let segments ← .look World.segments
  closeAll (segments.filter fun segment => !held.contains segment.file.base)

end Segment

end RankMail

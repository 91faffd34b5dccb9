import RankMail.AddressSpace
import RankMail.Disk
import RankMail.Scene
import RankMail.Segment.Basic

set_option autoImplicit false

/-! # Worlds

A `World` is all that lies outside the actors of a process: shared memory, the names on disk, and
what the process has mapped. Files are read and written through their names here; everything else
reaches their bytes through shared memory.

Each mapping gets a base address that no mapping had before, so it stands for one mapping for
ever. How many addresses are in use at a time is a matter of its own: a mapping takes them from the
process's `AddressSpace` and gives them back when it ends. The segments that have not been closed
are kept in `segments`.
-/

namespace RankMail

/-- Shared memory, the disk, and what the process has mapped. -/
structure World where
  memory : Memory
  disk : Disk
  /-- No mapping has reached this address. -/
  nextBase : Nat
  /-- What the process has addresses for, and may lock. -/
  addresses : AddressSpace
  /-- The segments that have not been closed, the latest first. -/
  segments : List Segment
  /-- The notices given since somebody last took them. -/
  notices : List Notice
  /-- The number of the process itself. -/
  process : UInt32
  /-- The numbers of the processes that run. -/
  running : List UInt32
deriving Repr, DecidableEq

/-- Mappings begin at multiples of this. -/
def pageSize : Nat := 4096

/-- No place in a file is further from its start. -/
def fileLimit : Nat := 2 ^ 63 - 1

namespace World

variable {Actor Value : Type}

/-- The world of a process that has done nothing yet. -/
def start (process : UInt32) (running : List UInt32) : World :=
  { memory := .empty
    disk := .empty
    nextBase := 16 * pageSize
    addresses := .start
    segments := []
    notices := []
    process
    running := process :: running }

def inMemory (action : Action Memory Value) : Action World Value :=
  .within World.memory (fun memory world => { world with memory }) action

def onDisk (change : Disk → Except FileFault Disk) : Action World Unit := fun world =>
  match change world.disk with
  | .ok disk => .done () { world with disk }
  | .error cause => .failed (.file cause) world

/-- The scene of an actor in this world. -/
def enter (world : World) (actor : Actor) : Scene Actor := ⟨actor, world.memory, world.notices⟩

def leave (world : World) (scene : Scene Actor) : World :=
  { world with memory := scene.memory, notices := scene.notices }

/-! ## Files -/

/-- Makes a directory and those above it, as far as they are missing. -/
def makeDirectories (path : String) : Action World Unit :=
  .within World.disk (fun disk world => { world with disk }) (Disk.makeDirectories path)

def openFile (path : String) : Action World Nat := fun world =>
  match world.disk.openFile path with
  | .ok region => .done region world
  | .error cause => .failed (.file cause) world

/-- The region of a file that is made if there is none, and emptied if there is one. -/
def createFile (path : String) : Action World Nat := fun world =>
  match world.disk.createFile path world.memory.fresh with
  | .ok (disk, region) => .done region { world with disk, memory := world.memory.resize region 0 }
  | .error cause => .failed (.file cause) world

def setLength (region length : Nat) : Action World Unit :=
  if length ≤ fileLimit then inMemory (.modify fun memory => memory.resize region length)
  else .fail (.file .lengthTooLarge)

/-- Writes into a file, which grows if need be. -/
def writeInto (region start : Nat) (data : List UInt8) : Action World Unit :=
  inMemory (.modify fun memory =>
    if data.isEmpty then memory
    else (memory.resize region (max (memory.region region).size (start + data.length))).write
      ⟨region, start⟩ data)

def contents (region : Nat) : Action World (List UInt8) :=
  .look fun world => world.memory.read ⟨region, 0⟩ (world.memory.region region).size

def readFile (path : String) : Action World (List UInt8) := do
  contents (← openFile path)

def writeFile (path : String) (data : List UInt8) : Action World Unit := do
  writeInto (← createFile path) 0 data

/-- Writes into an existing file. Where nothing is written, any place will do. -/
def patchFile (path : String) (start : Nat) (data : List UInt8) : Action World Unit := do
  let region ← openFile path
  if data.isEmpty ∨ start + data.length ≤ fileLimit then writeInto region start data
  else .fail (.file .invalid)

def resizeFile (path : String) (length : Nat) : Action World Unit := do
  setLength (← openFile path) length

def openSource (path : String) : Action World Nat := do
  match ← Action.attempt (openFile path) with
  | .ok region => pure region
  | .error (.file .isDirectory) => .fail (.file .notRegular)
  | .error fault => .fail fault

/-- Copies a file into another, which is emptied first. -/
def copyFile (path target : String) : Action World Unit := do
  let source ← openSource path
  let copy ← createFile target
  writeInto copy 0 (← contents source)

/-- Removes a file; a mapping of it keeps its bytes. -/
def removeFile (path : String) : Action World Unit := onDisk (·.removeFile path)

end World

/-! ## Mapped files -/

namespace MappedFile

/-- Maps a region at addresses that were never used. -/
def map (path : String) (region : Nat) : Action World MappedFile := fun world =>
  let size := (world.memory.region region).size
  match world.addresses.take? world.nextBase (alignUp pageSize size) with
  | none => .failed (.file .noAddresses) world
  | some addresses =>
      .done { path, region, base := world.nextBase, size }
        { world with addresses, nextBase := world.nextBase + alignUp pageSize (size + 1) }

def unmap (file : MappedFile) (world : World) : World :=
  { world with addresses := world.addresses.giveBack file.base }

/-- Runs an action and ends a mapping with it, however it ends. -/
def during {Value : Type} (file : MappedFile) (action : Action World Value) :
    Action World Value := fun world => (action world).mapState file.unmap

/-- Runs an action and ends a mapping if it fails. -/
def unlessFailed {Value : Type} (file : MappedFile) (action : Action World Value) :
    Action World Value := fun world =>
  match action world with
  | .failed fault after => .failed fault (file.unmap after)
  | outcome => outcome

/-- Makes a file of zeros, in place of an earlier one, and maps it. -/
def create (path : String) (size : Nat) : Action World MappedFile :=
  if size = 0 then .fail (.refused .emptyMapping)
  else do
    let region ← World.createFile path
    World.setLength region size
    map path region

def «open» (path : String) : Action World MappedFile := do
  let region ← World.openFile path
  if (← .look fun world => (world.memory.region region).size) = 0 then
    .fail (.refused .emptyMapping)
  else map path region

/-- Gives the file another name; the mapping stays. -/
def rename (file : MappedFile) (target : String) : Action World MappedFile := do
  World.onDisk (·.rename file.path target)
  pure { file with path := target }

/-- Asks the system to lock the mapping in physical memory, for which any reason not to is a file
fault. -/
def lock (_ : MappedFile) : Action World Unit := fun world =>
  match world.addresses.lockFault with
  | none => .done () world
  | some cause => .failed (.file cause) world

def bytes (file : MappedFile) (memory : Memory) : List UInt8 :=
  memory.read ⟨file.region, 0⟩ file.size

end MappedFile

end RankMail

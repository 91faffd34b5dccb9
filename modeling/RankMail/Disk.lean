import RankMail.Outcome

set_option autoImplicit false

/-! # Names of files

The disk knows directories and, for each file name, the region that holds the file's bytes. What
happens to a name does not touch the bytes: whoever has mapped a file that is renamed, replaced or
removed keeps its region.

A path is a text with slashes. It is followed from the root on, one step after the other
(`Disk.enter`), up to its last step, which may be a name that nothing has yet (`Disk.spot`). A dot
stays in a directory and two dots leave it, so a path that goes into a missing directory and out
again leads nowhere.
-/

namespace RankMail

namespace Path

def isSlashed (path : String) : Bool := path.toList.getLast? == some '/'

def join (directory name : String) : String :=
  if directory = "" ∨ isSlashed directory = true then directory ++ name
  else directory ++ "/" ++ name

/-- The steps of a path, dots among them. -/
def steps (path : String) : List String :=
  ((path.toList.splitOn '/').filter fun step => !step.isEmpty).map String.ofList

/-- The steps of a path that lead somewhere else. -/
def parts (path : String) : List String := (steps path).filter (· != ".")

def fileName (path : String) : String := (parts path).getLast?.getD ""

/-- Paths have fewer bytes than this. -/
def lengthLimit : Nat := 4096

/-- Names have at most this many bytes. -/
def nameLimit : Nat := 255

/-- What is wrong with the text of a path, if anything. -/
def fault? (path : String) : Option FileFault :=
  if '\x00' ∈ path.toList then some .zeroByte
  else if lengthLimit ≤ path.utf8ByteSize then some .nameTooLong
  else if path = "" then some .missing
  else none

end Path

inductive Entry where
  | directory
  | file (region : Nat)
deriving Repr, DecidableEq

/-- All names, each by its place: the names of the directories it lies in, and then its own. The
root has none. -/
structure Disk where
  entries : List (List String × Entry)
deriving Repr, DecidableEq

namespace Disk

/-- Nothing but the root. -/
def empty : Disk := ⟨[]⟩

instance : Inhabited Disk := ⟨empty⟩

def find? (disk : Disk) (place : List String) : Option Entry :=
  if place.isEmpty then some .directory else disk.entries.lookup place

def erase (disk : Disk) (place : List String) : Disk :=
  ⟨disk.entries.filter fun entry => entry.1 != place⟩

/-- Puts something at a place, instead of what was there. -/
def insert (disk : Disk) (place : List String) (entry : Entry) : Disk :=
  ⟨(place, entry) :: (disk.erase place).entries⟩

/-! ## Following a path -/

def lookUp (disk : Disk) (above : List String) (name : String) :
    Except FileFault (Option Entry) :=
  if Path.nameLimit < name.utf8ByteSize then .error .nameTooLong
  else .ok (disk.find? (above ++ [name]))

/-- Goes one step on from a directory, into another. -/
def enter (disk : Disk) (above : List String) (step : String) :
    Except FileFault (List String) := do
  if step = "." then .ok above
  else if step = ".." then .ok above.dropLast
  else
    match ← disk.lookUp above step with
    | some .directory => .ok (above ++ [step])
    | some (.file _) => .error .notDirectory
    | none => .error .missing

/-- Where the last step of a path leads. -/
inductive Spot where
  /-- To a directory, by dots or because the path is the root. -/
  | directory (place : List String)
  /-- To a name in a directory, which may be followed by a slash. -/
  | name (above : List String) (name : String) (slashed : Bool)
deriving Repr, DecidableEq

/-- Follows a path up to its last step. -/
def spot (disk : Disk) (path : String) : Except FileFault Spot := do
  match Path.fault? path with
  | some fault => .error fault
  | none =>
      let steps := Path.steps path
      let above ← steps.dropLast.foldlM disk.enter []
      match steps.getLast? with
      | none => .ok (.directory above)
      | some "." => .ok (.directory above)
      | some ".." => .ok (.directory above.dropLast)
      | some name => .ok (.name above name (Path.isSlashed path))

def directory (disk : Disk) (path : String) : Except FileFault (List String) := do
  match ← disk.spot path with
  | .directory place => .ok place
  | .name above name _ => disk.enter above name

def entry (disk : Disk) (path : String) : Except FileFault Entry := do
  match ← disk.spot path with
  | .directory _ => .ok .directory
  | .name above name slashed =>
      match ← disk.lookUp above name with
      | some .directory => .ok .directory
      | some (.file region) => if slashed then .error .notDirectory else .ok (.file region)
      | none => .error .missing

def leadsTo (disk : Disk) (path : String) : Bool := (disk.entry path).toBool

/-- The names in a directory, in order. -/
def list? (disk : Disk) (path : String) : Option (List String) :=
  match disk.directory path with
  | .error _ => none
  | .ok above =>
      let names := disk.entries.filterMap fun entry =>
        if entry.1.dropLast = above then entry.1.getLast? else none
      some (names.mergeSort fun name other => name ≤ other)

/-! ## Directories -/

def makeDirectory (disk : Disk) (path : String) : Except FileFault Disk := do
  match ← disk.spot path with
  | .directory _ => .error .alreadyThere
  | .name above name _ =>
      match ← disk.lookUp above name with
      | some _ => .error .alreadyThere
      | none => .ok (disk.insert (above ++ [name]) .directory)

def ensureDirectory (path : String) : Action Disk Unit := fun disk =>
  match disk.makeDirectory path with
  | .ok made => .done () made
  | .error fault =>
      if fault = .alreadyThere ∧ (disk.directory path).toBool then .done () disk
      else .failed (.file fault) disk

/-- Makes a directory, and before that those above it if they are missing; their names come last
first. -/
def ensureDirectories (path : String) : List String → Action Disk Unit
  | [] => ensureDirectory path
  | last :: above => fun disk =>
      match ensureDirectory path disk with
      | .failed (.file .missing) after =>
          (do
            ensureDirectories ("/".intercalate (last :: above).reverse) above
            ensureDirectory path : Action Disk Unit) after
      | outcome => outcome

/-- Makes a directory and those above it, as far as they are missing. What has been made before a
fault stays. -/
def makeDirectories (path : String) : Action Disk Unit :=
  if path = "" then pure () else ensureDirectories path (Path.parts path).dropLast.reverse

/-! ## Files -/

def openFile (disk : Disk) (path : String) : Except FileFault Nat := do
  match ← disk.entry path with
  | .file region => .ok region
  | .directory => .error .isDirectory

/-- The region of a file, which is made if there is none; `fresh` is the region of a new file. -/
def createFile (disk : Disk) (path : String) (fresh : Nat) : Except FileFault (Disk × Nat) := do
  match ← disk.spot path with
  | .directory _ => .error .isDirectory
  | .name _ _ true => .error .isDirectory
  | .name above name false =>
      match ← disk.lookUp above name with
      | some (.file region) => .ok (disk, region)
      | some .directory => .error .isDirectory
      | none => .ok (disk.insert (above ++ [name]) (.file fresh), fresh)

/-- Gives a file another name, in place of a file that has it. -/
def rename (disk : Disk) (path target : String) : Except FileFault Disk := do
  match ← disk.spot path, ← disk.spot target with
  | .name above name slashed, .name aboveTarget nameTarget slashedTarget =>
      match ← disk.lookUp above name with
      | none => .error .missing
      | some .directory => .error .isDirectory
      | some (.file region) =>
          let place := aboveTarget ++ [nameTarget]
          let found ← disk.lookUp aboveTarget nameTarget
          if slashed || slashedTarget then .error .notDirectory
          else if place.isPrefixOf above then .error .notEmpty
          else if found = some .directory then .error .isDirectory
          else .ok ((disk.erase (above ++ [name])).insert place (.file region))
  | _, _ => .error .busy

def removeFile (disk : Disk) (path : String) : Except FileFault Disk := do
  match ← disk.spot path with
  | .directory _ => .error .isDirectory
  | .name above name slashed =>
      match ← disk.lookUp above name with
      | none => .error .missing
      | some .directory => .error .isDirectory
      | some (.file _) =>
          if slashed then .error .notDirectory else .ok (disk.erase (above ++ [name]))

end Disk

end RankMail

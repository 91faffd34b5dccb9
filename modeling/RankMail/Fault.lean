import RankMail.SizeClass
import RankMail.Offset
import RankMail.Json.Fault

set_option autoImplicit false

/-! # Faults and aborts

An operation that cannot be carried out ends in a `Fault`, after which everything goes on; the
caller decides. An `Abort` is raised where shared words are found in a state that no sender or
receiver leaves behind, so that nothing may be touched any more. Both are causes; their texts are
given by `Fault.message`, `Fault.inspect` and `Abort.message`.
-/

namespace RankMail

/-- Why the system refused to do something with a file or a mapping. -/
inductive FileFault where
  | missing
  | alreadyThere
  | notDirectory
  | isDirectory
  | notEmpty
  | busy
  | nameTooLong
  | invalid
  | noAddresses
  | zeroByte
  | lengthTooLarge
  | notRegular
  | notText
  | notPermitted
  | unavailable
deriving Repr, DecidableEq

inductive Corruption where
  | tooSmall
  | magic
  | rank
  | size
  | dataStart
deriving Repr, DecidableEq

inductive ConfigFault where
  | segmentTooLarge
  | noDataRegion
  | noGrowth
  | zeroCapacity
  | equalCapacities
  | capacityTooLarge
  | slotTooLarge
  | rankTooLarge
  | segmentSize
deriving Repr, DecidableEq

/-- What is asked for although it does not make sense. -/
inductive Refusal where
  | emptyMapping
  | foreignFragment
  | noClass
  | slotTableFull
  | noAnswer
  | silence
deriving Repr, DecidableEq

inductive Fault where
  | file (cause : FileFault)
  | exhausted (sizeClass : SizeClass)
  | corrupt (cause : Corruption)
  | version (found : UInt32)
  | config (cause : ConfigFault)
  | oversize (length capacity : Nat)
  | unknownPeer (rank : UInt32)
  | refused (cause : Refusal)
  | json (fault : Json.Fault)
deriving Repr, DecidableEq

/-- Why nothing may be touched any more. -/
inductive Abort where
  /-- An offset was asked for with a rank that has none. -/
  | rankTooLarge
  | freeTranslated
  | unregistered (rank : UInt32)
  | nullBase (rank : UInt32)
  | unaddressable (rank : UInt32)
  | outsideSegment (address : Nat) (rank : UInt32)
  | pastEnd (offset : Offset) (size : Nat)
  | noRoomForHeader (offset : Offset)
  | misaligned (offset : Offset)
  | alreadyTail (offset : Offset)
  | selfLink (offset : Offset)
  | unattached (offset : Offset)
  | notCarved (position : Nat) (slot : UInt32)
deriving Repr, DecidableEq

namespace FileFault

/-- The number of the system's error, if it has one. -/
def code? : FileFault → Option Nat
  | notPermitted => some 1
  | missing => some 2
  | unavailable => some 11
  | noAddresses => some 12
  | busy => some 16
  | alreadyThere => some 17
  | notDirectory => some 20
  | isDirectory => some 21
  | invalid => some 22
  | nameTooLong => some 36
  | notEmpty => some 39
  | zeroByte => none
  | lengthTooLarge => none
  | notRegular => none
  | notText => none

def kind : FileFault → String
  | missing => "NotFound"
  | notPermitted => "PermissionDenied"
  | unavailable => "WouldBlock"
  | noAddresses => "OutOfMemory"
  | busy => "ResourceBusy"
  | alreadyThere => "AlreadyExists"
  | notDirectory => "NotADirectory"
  | isDirectory => "IsADirectory"
  | invalid => "InvalidInput"
  | nameTooLong => "InvalidFilename"
  | notEmpty => "DirectoryNotEmpty"
  | zeroByte => "InvalidInput"
  | lengthTooLarge => "InvalidInput"
  | notRegular => "InvalidInput"
  | notText => "InvalidData"

def phrase : FileFault → String
  | missing => "No such file or directory"
  | notPermitted => "Operation not permitted"
  | unavailable => "Resource temporarily unavailable"
  | alreadyThere => "File exists"
  | notDirectory => "Not a directory"
  | isDirectory => "Is a directory"
  | notEmpty => "Directory not empty"
  | busy => "Device or resource busy"
  | nameTooLong => "File name too long"
  | invalid => "Invalid argument"
  | noAddresses => "Cannot allocate memory"
  | zeroByte => "file name contained an unexpected NUL byte"
  | lengthTooLarge => "number too large to fit in target type"
  | notRegular => "the source path is neither a regular file nor a symlink to a regular file"
  | notText => "stream did not contain valid UTF-8"

def message (fault : FileFault) : String :=
  match fault.code? with
  | some code => fault.phrase ++ " (os error " ++ toString code ++ ")"
  | none => fault.phrase

def inspect (fault : FileFault) : String :=
  match fault.code? with
  | some code =>
      "Os \x7b code: " ++ toString code ++ ", kind: " ++ fault.kind ++ ", message: "
        ++ Text.quoted fault.phrase ++ " \x7d"
  | none =>
      "Error \x7b kind: " ++ fault.kind ++ ", message: " ++ Text.quoted fault.phrase ++ " \x7d"

end FileFault

def Corruption.message : Corruption → String
  | tooSmall => "segment too small"
  | magic => "segment magic mismatch"
  | rank => "segment rank mismatch"
  | size => "segment size mismatch"
  | dataStart => "segment data offset mismatch"

def ConfigFault.message : ConfigFault → String
  | segmentTooLarge => "segment size exceeds 4 GiB"
  | noDataRegion => "segment size leaves no data region"
  | noGrowth => "grow batch must be non-zero"
  | zeroCapacity => "size class capacity must be non-zero"
  | equalCapacities => "size class capacities must be distinct"
  | capacityTooLarge => "size class capacity exceeds fragment limit"
  | slotTooLarge => "largest slot does not fit the data region"
  | rankTooLarge => "rank exceeds relative addressing range"
  | segmentSize => "segment size out of range"

def Refusal.message : Refusal → String
  | emptyMapping => "mmap length must be non-zero"
  | foreignFragment => "fragment belongs to another rank"
  | noClass => "no size class requested"
  | slotTableFull => "slot table overflow"
  | noAnswer => "pong did not answer"
  | silence => "ping went quiet"

namespace Fault

/-- The text of a fault; that of a fault in a JSON text is without its position. -/
def message : Fault → String
  | file cause => "io error: " ++ cause.message
  | exhausted sizeClass => "fragment pool exhausted for size class " ++ sizeClass.name
  | corrupt cause => "corrupt metadata: " ++ cause.message
  | version found => "unsupported version: " ++ toString found
  | config cause => "invalid config: " ++ cause.message
  | oversize length capacity =>
      "payload of " ++ toString length ++ " bytes exceeds fragment capacity " ++ toString capacity
  | unknownPeer rank => "unknown peer rank " ++ toString rank
  | refused cause => "unsupported: " ++ cause.message
  | json fault => "config parse error: " ++ fault.message

def inspect : Fault → String
  | file cause => "Io(" ++ cause.inspect ++ ")"
  | exhausted sizeClass => "ResourceExhausted \x7b class: " ++ sizeClass.name ++ " \x7d"
  | corrupt cause => "CorruptMetadata(" ++ Text.quoted cause.message ++ ")"
  | version found => "UnsupportedVersion(" ++ toString found ++ ")"
  | config cause => "InvalidConfig(" ++ Text.quoted cause.message ++ ")"
  | oversize length capacity =>
      "PayloadTooLarge \x7b len: " ++ toString length ++ ", capacity: " ++ toString capacity
        ++ " \x7d"
  | unknownPeer rank => "UnknownPeer(" ++ toString rank ++ ")"
  | refused cause => "Unsupported(" ++ Text.quoted cause.message ++ ")"
  | json fault =>
      "Config(Error(" ++ Text.quoted fault.message ++ ", line: " ++ toString fault.line
        ++ ", column: " ++ toString fault.column ++ "))"

end Fault

def Abort.message : Abort → String
  | rankTooLarge => "assertion failed: rank <= MAX_RANK"
  | freeTranslated => "attempted to translate the free sentinel"
  | unregistered rank => "no segment base registered for rank " ++ toString rank
  | nullBase rank => "segment base for rank " ++ toString rank ++ " is null"
  | unaddressable rank =>
      "segment for rank " ++ toString rank ++ " cannot be addressed relatively"
  | outsideSegment address rank =>
      "address " ++ Text.hex address ++ " is outside the segment of rank " ++ toString rank
  | pastEnd offset size =>
      offset.describe ++ " is outside a segment of " ++ toString size ++ " bytes"
  | noRoomForHeader offset =>
      offset.describe ++ " does not leave room for a fragment header"
  | misaligned offset => offset.describe ++ " is not a fragment header boundary"
  | alreadyTail offset =>
      "fifo: " ++ offset.describe ++ " enqueued while already the tail"
  | selfLink offset => "fifo: " ++ offset.describe ++ " links to itself"
  | unattached offset => "dequeued " ++ offset.describe ++ " from an unattached rank"
  | notCarved position slot =>
      "fragment at offset " ++ Text.hex position ++ " names slot " ++ toString slot
        ++ " that was never carved there"

end RankMail

import RankMail.Config.Basic
import RankMail.Json.Value

set_option autoImplicit false

/-! # Configurations as JSON

A configuration is written as one object, in the order of its members and without blanks.
When it is read, members may come in any order, unknown ones are passed over, and all but the
segment size may be left out. A record may also be given as a list of its fields.

The kind of a wait strategy is told by the member `type`, which need not come first. So the other
members are kept until the object has been read, and only then interpreted.
-/

namespace RankMail

open Json

/-! ## Writing -/

def member (name value : String) : String := "\"" ++ name ++ "\":" ++ value

def object (members : List String) : String :=
  "\x7b" ++ String.intercalate "," members ++ "\x7d"

def truth (value : Bool) : String := if value then "true" else "false"

def WaitStrategy.toJson : WaitStrategy → String
  | hybrid spin => object [member "type" "\"Hybrid\"", member "spin_us" (toString spin)]
  | busyPoll interval =>
      object [member "type" "\"BusyPoll\"", member "interval_us" (toString interval)]

def Capacities.toJson (capacities : Capacities) : String :=
  object [member "user" (toString capacities.user), member "eager" (toString capacities.eager),
    member "max_send" (toString capacities.maxSend)]

def Config.toJson (config : Config) : String :=
  object [member "segment_size" (toString config.segmentSize),
    member "size_classes" config.capacities.toJson,
    member "grow_batch" (toString config.growBatch),
    member "wait_strategy" config.wait.toJson,
    member "unlink_on_drop" (truth config.removeOnClose),
    member "lock_memory" (truth config.lockMemory)]

/-! ## Reading -/

namespace Json.Reader

def size : Reader UInt64 := do
  let value ← unsigned (2 ^ 64 - 1) "usize"
  pure (UInt64.ofNat value)

end Json.Reader

open Json.Reader

/-- Capacities of which some may have been read. -/
structure CapacitiesDraft where
  user : Option UInt64
  eager : Option UInt64
  maxSend : Option UInt64
deriving Repr, DecidableEq

namespace Capacities

def slots : List (Slot CapacitiesDraft) :=
  [⟨"user", fun draft => draft.user.isSome, fun draft => do
      pure { draft with user := some (← size) }⟩,
   ⟨"eager", fun draft => draft.eager.isSome, fun draft => do
      pure { draft with eager := some (← size) }⟩,
   ⟨"max_send", fun draft => draft.maxSend.isSome, fun draft => do
      pure { draft with maxSend := some (← size) }⟩]

def readObject : Reader Capacities := do
  let draft ← members slots ⟨none, none, none⟩
  let user ← required "user" draft.user
  let eager ← required "eager" draft.eager
  let maxSend ← required "max_send" draft.maxSend
  pure ⟨user, eager, maxSend⟩

def readList : Reader Capacities := do
  let expected := "struct SizeClassConfig with 3 elements"
  let user ← requiredItem 0 expected (← item true size)
  let eager ← requiredItem 1 expected (← item false size)
  let maxSend ← requiredItem 2 expected (← item false size)
  pure ⟨user, eager, maxSend⟩

def read (depth : Nat) : Reader Capacities :=
  record depth "struct SizeClassConfig" (fun _ => readObject) (fun _ => readList)

end Capacities

namespace WaitStrategy

/-- The two kinds of strategy, by their names. -/
inductive Kind where
  | hybrid
  | busyPoll
deriving Repr, DecidableEq

/-- What is said about a strategy where something else stands. -/
def expected : String := "internally tagged enum WaitStrategy"

def readKind : Reader Kind := do
  match ← peekToken with
  | none => failNext .openValue
  | some '"' => placed do
      skip
      match ← text with
      | "Hybrid" => pure .hybrid
      | "BusyPoll" => pure .busyPoll
      | other => failContent (.unknownVariant other "Hybrid" "BusyPoll")
  | some _ => wrongKindHere "variant identifier"

/-- What is known of a strategy while its members are read. -/
structure Draft where
  kind : Option Kind
  others : List (String × Value)

/-- Reads the members of an object; all but the kind are kept. -/
def membersLoop (depth : Nat) : Nat → Bool → Draft → Reader Draft
  | 0, _, draft => pure draft
  | steps + 1, isFirst, draft => do
      match ← nextName isFirst with
      | none => pure draft
      | some "type" =>
          if draft.kind.isSome then failContent (.repeatedMember "type")
          else do
            colon
            let kind ← readKind
            membersLoop depth steps false { draft with kind := some kind }
      | some name => do
          colon
          let other ← value depth
          membersLoop depth steps false { draft with others := draft.others ++ [(name, other)] }

/-- Reads the kind and the kept members from an object. -/
def readObject (depth : Nat) : Reader (Kind × Value) := do
  let draft ← membersLoop depth ((← left) + 1) true ⟨none, []⟩
  let kind ← required "type" draft.kind
  pure (kind, .object draft.others)

def readList (depth : Nat) : Reader (Kind × Value) := do
  let kind ← required "type" (← item true readKind)
  let others ← items false (value depth)
  pure (kind, .list others)

/-- The name of a kind's only field. -/
def Kind.field : Kind → String
  | hybrid => "spin_us"
  | busyPoll => "interval_us"

/-- What is said about a kind given as a list that is too short. -/
def Kind.expected : Kind → String
  | hybrid => "struct variant WaitStrategy::Hybrid with 1 element"
  | busyPoll => "struct variant WaitStrategy::BusyPoll with 1 element"

def Kind.ofValue (kind : Kind) (kept : Value) : Reader WaitStrategy :=
  match kind with
  | hybrid => do
      let spin ← unsignedValue (2 ^ 32 - 1) "u32" kept
      pure (.hybrid (UInt32.ofNat spin))
  | busyPoll => do
      let interval ← unsignedValue (2 ^ 64 - 1) "u64" kept
      pure (.busyPoll (UInt64.ofNat interval))

/-- Interprets the kept members of an object: the kind's field has to be there once. -/
def Kind.ofMembers (kind : Kind) : Option WaitStrategy → List (String × Value) →
    Reader WaitStrategy
  | found, [] => required kind.field found
  | found, (name, kept) :: rest =>
      if name = kind.field then
        if found.isSome then failContent (.repeatedMember name)
        else do
          let strategy ← kind.ofValue kept
          kind.ofMembers (some strategy) rest
      else kind.ofMembers found rest

def Kind.ofKept (kind : Kind) : Value → Reader WaitStrategy
  | .object members => kind.ofMembers none members
  | .list [] => failContent (.wrongLength 0 kind.expected)
  | .list [kept] => kind.ofValue kept
  | .list (kept :: rest) => do
      let _ ← kind.ofValue kept
      failContent (.wrongLength (rest.length + 1) "1 element in sequence")
  | other => failContent (.wrongKind other.found kind.expected)

def read (depth : Nat) : Reader WaitStrategy := do
  let (kind, kept) ← record depth expected readObject readList
  kind.ofKept kept

end WaitStrategy

structure ConfigDraft where
  segmentSize : Option UInt64
  capacities : Option Capacities
  growBatch : Option UInt64
  wait : Option WaitStrategy
  removeOnClose : Option Bool
  lockMemory : Option Bool
deriving Repr, DecidableEq

namespace Config

/-- The configuration of a draft that has a segment size; the rest is standard where missing. -/
def ofDraft (segmentSize : UInt64) (draft : ConfigDraft) : Config :=
  let base := ofSegmentSize segmentSize
  { segmentSize
    capacities := draft.capacities.getD base.capacities
    growBatch := draft.growBatch.getD base.growBatch
    wait := draft.wait.getD base.wait
    removeOnClose := draft.removeOnClose.getD base.removeOnClose
    lockMemory := draft.lockMemory.getD base.lockMemory }

def slots (depth : Nat) : List (Slot ConfigDraft) :=
  [⟨"segment_size", fun draft => draft.segmentSize.isSome, fun draft => do
      pure { draft with segmentSize := some (← size) }⟩,
   ⟨"size_classes", fun draft => draft.capacities.isSome, fun draft => do
      pure { draft with capacities := some (← Capacities.read depth) }⟩,
   ⟨"grow_batch", fun draft => draft.growBatch.isSome, fun draft => do
      pure { draft with growBatch := some (← size) }⟩,
   ⟨"wait_strategy", fun draft => draft.wait.isSome, fun draft => do
      pure { draft with wait := some (← WaitStrategy.read depth) }⟩,
   ⟨"unlink_on_drop", fun draft => draft.removeOnClose.isSome, fun draft => do
      pure { draft with removeOnClose := some (← boolean) }⟩,
   ⟨"lock_memory", fun draft => draft.lockMemory.isSome, fun draft => do
      pure { draft with lockMemory := some (← boolean) }⟩]

def readObject (depth : Nat) : Reader Config := do
  let draft ← members (slots depth) ⟨none, none, none, none, none, none⟩
  let segmentSize ← required "segment_size" draft.segmentSize
  pure (ofDraft segmentSize draft)

def readList (depth : Nat) : Reader Config := do
  let segmentSize ← requiredItem 0 "struct NodeConfig with 6 elements" (← item true size)
  let capacities ← item false (Capacities.read depth)
  let growBatch ← item false size
  let wait ← item false (WaitStrategy.read depth)
  let removeOnClose ← item false boolean
  let lockMemory ← item false boolean
  pure (ofDraft segmentSize ⟨segmentSize, capacities, growBatch, wait, removeOnClose, lockMemory⟩)

def read (depth : Nat) : Reader Config :=
  record depth "struct NodeConfig" readObject readList

/-- The valid configuration that a JSON text describes. -/
def ofJson (json : String) : Except Fault Config := do
  match Reader.run (read depthLimit) json with
  | .ok config => do
      config.validate
      .ok config
  | .error fault => .error (.json fault)

def ofBytes (data : List UInt8) : Except Fault Config :=
  match String.fromUTF8? (ByteArray.mk data.toArray) with
  | some json => ofJson json
  | none => .error (.file .notText)

end Config

end RankMail

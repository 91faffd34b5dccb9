import RankMail.Config.File
import RankMail.PingPong

set_option autoImplicit false

/-! # The command line

The program measures round trips between two ranks:

    --dir DIR          the directory of the segments
    --role ping|pong   which of the two this process is
    --iterations N     how many round trips
    --size N           how long the payload is
    --config FILE      a configuration for the nodes
    --spawn            run the other side as well
    --help             say what there is to say

A value follows its option as the next argument, where it must not look like an option, or after
an equals sign. No option may be given twice. Arguments are looked at in order, so `--help` is
answered unless something before it is wrong.
-/

namespace RankMail

namespace CommandLine

/-- Which side of a round trip a process is. -/
inductive Role where
  | ping
  | pong
deriving Repr, DecidableEq

structure Options where
  directory : String
  role : Role
  iterations : UInt64
  size : UInt64
  config : Option String
  spawn : Bool
deriving Repr, DecidableEq

inductive Request where
  | run (options : Options)
  | help
  | misuse
deriving Repr, DecidableEq

/-! ## Reading the arguments -/

structure Draft where
  directory : Option String
  role : Option Role
  iterations : Option UInt64
  size : Option UInt64
  config : Option String
  spawn : Bool
deriving Repr, DecidableEq

def Draft.empty : Draft := ⟨none, none, none, none, none, false⟩

/-- The options, with what stands in for those that are missing. -/
def Draft.options (draft : Draft) : Options :=
  { directory := draft.directory.getD "/dev/shm/rankmail-pingpong"
    role := draft.role.getD .ping
    iterations := draft.iterations.getD 100000
    size := draft.size.getD 64
    config := draft.config
    spawn := draft.spawn }

/-- The number written in decimal digits, with or without a plus before them. -/
def number? (text : String) : Option UInt64 :=
  let digits := match text.toList with
    | '+' :: rest => rest
    | chars => chars
  if digits.isEmpty || !digits.all Char.isDigit then none
  else
    let value := Nat.ofDigitChars 10 digits 0
    if value < 2 ^ 64 then some (UInt64.ofNat value) else none

def path? (text : String) : Option String := if text.isEmpty then none else some text

def role? (text : String) : Option Role :=
  if text = "ping" then some .ping else if text = "pong" then some .pong else none

/-- An option that takes a value: whether it has been read, and how to read it. -/
structure Valued where
  isRead : Draft → Bool
  read? : String → Draft → Option Draft

def valued? (name : String) : Option Valued :=
  if name = "dir" then
    some ⟨fun draft => draft.directory.isSome,
      fun text draft => (path? text).map fun value => { draft with directory := some value }⟩
  else if name = "role" then
    some ⟨fun draft => draft.role.isSome,
      fun text draft => (role? text).map fun value => { draft with role := some value }⟩
  else if name = "iterations" then
    some ⟨fun draft => draft.iterations.isSome,
      fun text draft => (number? text).map fun value => { draft with iterations := some value }⟩
  else if name = "size" then
    some ⟨fun draft => draft.size.isSome,
      fun text draft => (number? text).map fun value => { draft with size := some value }⟩
  else if name = "config" then
    some ⟨fun draft => draft.config.isSome,
      fun text draft => (path? text).map fun value => { draft with config := some value }⟩
  else none

/-- Reads the value of an option that has not been read. -/
def Valued.put? (option : Valued) (text : String) (draft : Draft) : Option Draft :=
  if option.isRead draft then none else option.read? text draft

/-- Whether an argument looks like an option; a single dash does not. -/
def isOption (argument : String) : Bool := argument.startsWith "-" && argument != "-"

/-- The parts of a text before and after its first equals sign. -/
def splitValue (text : String) : String × Option String :=
  let name := text.toList.takeWhile (· != '=')
  match text.toList.drop name.length with
  | [] => (text, none)
  | _ :: value => (String.ofList name, some (String.ofList value))

inductive Argument where
  | help
  | spawn
  | valued (option : Valued) (value : Option String)
  | last
  | wrong

def Argument.ofText (text : String) : Argument :=
  if text = "--" then .last
  else if text.startsWith "--" then
    let (name, value) := splitValue (text.drop 2).toString
    match valued? name with
    | some option => .valued option value
    | none =>
        if value.isSome then .wrong
        else if name = "help" then .help
        else if name = "spawn" then .spawn
        else .wrong
  else if text.startsWith "-h" then .help
  else .wrong

/-- Reads the arguments one after the other; `waiting` is an option whose value has to come. -/
def readAll : List String → Option Valued → Draft → Request
  | [], none, draft => .run draft.options
  | [], some _, _ => .misuse
  | text :: rest, some waiting, draft =>
      if isOption text then .misuse
      else
        match waiting.put? text draft with
        | some filled => readAll rest none filled
        | none => .misuse
  | text :: rest, none, draft =>
      match Argument.ofText text with
      | .help => .help
      | .spawn => if draft.spawn then .misuse else readAll rest none { draft with spawn := true }
      | .valued option none => readAll rest (some option) draft
      | .valued option (some value) =>
          match option.put? value draft with
          | some filled => readAll rest none filled
          | none => .misuse
      | .last => if rest.isEmpty then .run draft.options else .misuse
      | .wrong => .misuse

def parse (arguments : List String) : Request := readAll arguments none .empty

/-! ## Carrying it out -/

structure Report where
  /-- The faults that its processes end with, the first to end first. -/
  faults : List Fault
  /-- How long each round trip took. -/
  durations : List Nat
deriving Repr, DecidableEq

namespace Report

def exitCode (report : Report) : UInt32 := if report.faults.isEmpty then 0 else 1

/-- What is written to standard error. -/
def complaints (report : Report) : String :=
  String.join (report.faults.map fun fault => "Error: " ++ fault.inspect ++ "\n")

/-- The duration below which a number of thousandths of the others lie. -/
def percentile (sorted : Array Nat) (thousandths : Nat) : Nat :=
  sorted.getD ((sorted.size - 1) * thousandths / 1000) 0

/-- What is written to standard output. -/
def summary (report : Report) : String :=
  if !report.faults.isEmpty || report.durations.isEmpty then ""
  else
    let sorted := (report.durations.mergeSort (· ≤ ·)).toArray
    "rtt ns: p50=" ++ toString (percentile sorted 500) ++ " p99="
      ++ toString (percentile sorted 990) ++ " p99.9=" ++ toString (percentile sorted 999)
      ++ " max=" ++ toString (percentile sorted 1000) ++ "\n"

/-- The faults of both sides when one of them stops. The other then hears nothing any more. -/
def ofStop : PingPong.Stop → Report
  | .ping fault => ⟨[fault, .refused .silence], []⟩
  | .pong fault => ⟨[fault, .refused .noAnswer], []⟩

end Report

def config (options : Options) : Action World Config :=
  match options.config with
  | some path => Config.ofFile path
  | none => pure .standard

/-- What a process without its other side comes to: it waits for a segment that nobody makes. -/
def runAlone (options : Options) (config : Config) : Action World Unit := do
  let (rank, peer) := match options.role with
    | .ping => (PingPong.pingRank, PingPong.pongRank)
    | .pong => (PingPong.pongRank, PingPong.pingRank)
  let node ← Node.create options.directory rank config
  let _ ← PingPong.attached node peer
  if options.iterations = 0 then pure ()
  else
    .fail (.refused (match options.role with
      | .ping => .noAnswer
      | .pong => .silence))

/-- Both sides, unless ping has something to send that no fragment can hold. -/
def begin (options : Options) (session : PingPong.Session) : Except Report PingPong.Session :=
  match session.ping.classFor options.size.toNat with
  | .ok _ => .ok session
  | .error fault =>
      if options.iterations = 0 then .error ⟨[], []⟩ else .error (.ofStop (.ping fault))

/-- What the program does before the first round trip: it is either over, or there is a session. -/
def prepare (options : Options) : Action World (Except Report PingPong.Session) := do
  match ← Action.attempt (config options) with
  | .error fault => return .error ⟨[fault], []⟩
  | .ok config =>
      if options.role = .ping ∧ options.spawn then
        match ← Action.attempt (PingPong.start options.directory config) with
        | .error fault => return .error ⟨[fault, fault], []⟩
        | .ok (ping, pong) => return begin options { ping, pong, world := ← Action.get }
      else
        match ← Action.attempt (runAlone options config) with
        | .error fault => return .error ⟨[fault], []⟩
        | .ok _ => return .error ⟨[], []⟩

def payload (options : Options) : List UInt8 := List.replicate options.size.toNat 0xA5

/-- Carries out what is asked for, each round trip taking no time at all. -/
def carryOut (options : Options) : Action World Report := do
  match ← prepare options with
  | .error report => return report
  | .ok session =>
      let count := options.iterations.toNat
      match PingPong.roundTrips (payload options) count session with
      | .done none after => do
          .set after.world
          return ⟨[], List.replicate count 0⟩
      | .done (some stop) after => do
          .set after.world
          return .ofStop stop
      | .failed fault after => do
          .set after.world
          return ⟨[fault], []⟩
      | .aborted cause => .abort cause
      | .hung => .hang

end CommandLine

end RankMail

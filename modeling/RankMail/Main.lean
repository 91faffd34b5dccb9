import RankMail.CommandLine

set_option autoImplicit false

/-! # The program

Reads the arguments, lets both sides of the round trips run, and prints how long the round trips
took. Whatever it decides is decided in `CommandLine`; here the clock is read, and texts are
printed.
-/

namespace RankMail

namespace Main

def usage : String :=
  "usage: rankmail [--dir DIR] [--role ping|pong] [--iterations N] [--size N] [--config FILE]\n"
    ++ "                [--spawn] [--help]"

/-- A world that holds the configuration file, if there is one that can be read. -/
def world (options : CommandLine.Options) : IO World := do
  let empty := World.start 1 []
  match options.config with
  | none => pure empty
  | some path =>
      match ← (IO.FS.readBinFile path).toBaseIO with
      | .error _ => pure empty
      | .ok bytes =>
          let written : Action World Unit := do
            World.makeDirectories ("/".intercalate (Path.parts path).dropLast)
            World.writeFile path bytes.toList
          pure ((written empty).state?.getD empty)

/-- Measures round trips, up to the first that fails. The durations come last first. -/
def measure (payload : List UInt8) :
    Nat → PingPong.Session → List Nat → IO (Except Abort CommandLine.Report)
  | 0, _, durations => pure (.ok ⟨[], durations⟩)
  | count + 1, session, durations => do
      let before ← IO.monoNanosNow
      match PingPong.roundTrip payload session with
      | .done none after => do
          let now ← IO.monoNanosNow
          measure payload count after ((now - before) :: durations)
      | .done (some stop) _ => pure (.ok (.ofStop stop))
      | .failed fault _ => pure (.ok ⟨[fault], []⟩)
      | .aborted cause => pure (.error cause)
      | .hung => pure (.ok ⟨[.refused .silence], []⟩)

def carryOut (options : CommandLine.Options) : IO (Except Abort CommandLine.Report) := do
  match CommandLine.prepare options (← world options) with
  | .done (.error report) _ => pure (.ok report)
  | .done (.ok session) _ =>
      measure (CommandLine.payload options) options.iterations.toNat session []
  | .failed fault _ => pure (.ok ⟨[fault], []⟩)
  | .aborted cause => pure (.error cause)
  | .hung => pure (.ok ⟨[.refused .silence], []⟩)

end Main

end RankMail

def main (arguments : List String) : IO UInt32 := do
  match RankMail.CommandLine.parse arguments with
  | .help => do
      IO.println RankMail.Main.usage
      return 0
  | .misuse => do
      IO.eprintln RankMail.Main.usage
      return 2
  | .run options => do
      match ← RankMail.Main.carryOut options with
      | .ok report => do
          IO.print report.summary
          IO.eprint report.complaints
          return report.exitCode
      | .error cause => do
          IO.eprintln cause.message
          return 134

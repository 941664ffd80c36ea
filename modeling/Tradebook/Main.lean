import Std.Time.DateTime.Timestamp
import Tradebook.Cli.Arguments
import Tradebook.Cli.Help
import Tradebook.Cli.Program
import Tradebook.Offline
import Tradebook.Uuid

/-!
# The program

Reads the arguments, the environment, the clock and the settings, and prints what
comes of the command. Wrong usage ends with status 2, a command that fails with
status 1, and arithmetic that leaves its range with status 101. This program
reaches no net; its clocks are those of Greenwich.
-/

namespace Tradebook.Main

/-- What the program has of its surroundings. -/
structure Machine where
  now : Timestamp
  id : String

/-- The most steps of a loop that asks the world how to go on. -/
def greatestSteps : Nat :=
  1000000000

/-- The clock. -/
def readClock : IO Timestamp := do
  let nanos := (← Std.Time.Timestamp.now).toNanosecondsSinceUnixEpoch.val
  match Timestamp.ofParts? (nanos / 1000000000) (nanos % 1000000000).toNat with
  | some t => return t
  | none => throw (.userError "the clock is out of range")

/-- A file. -/
def readFile (path : String) : IO FileContent := do
  try
    let bytes ← IO.FS.readBinFile path
    match String.fromUTF8? bytes with
    | some content => return .text content
    | none => return .unreadable "stream did not contain valid UTF-8"
  catch cause =>
    match cause with
    | .noFileOrDirectory _ _ _ => return .missing
    | _ => return .unreadable (toString cause)

/-- The values of some environment variables. -/
def readVariables (names : List String) : IO (String → Option String) := do
  let values ← names.mapM fun name => return (name, ← IO.getEnv name)
  return fun name => (values.lookup name).join

/-- The variables that the settings in a file refer to. -/
def referredVariables (path : String) (content : FileContent) : List String :=
  match UserConfig.ofFile path content with
  | .ok config => config.variables
  | .error _ => []

/-- Carries out what was asked for. -/
def perform (invocation : Cli.Invocation) : IO UInt32 := do
  let path := invocation.config.getD ""
  let content ← if invocation.config.isSome then readFile path else pure .missing
  let env ← readVariables (referredVariables path content)
  let id := Uuid.text (← IO.getRandomBytes 16).toList
  let out : Cli.Outside Machine := {
    env
    file := fun _ => content
    zone := .utc
    http := Offline.http Machine.now
    stream := Offline.stream Machine.now fun _ => false
    database := Offline.database fun _ => false
    newId := fun m => (m.id, m) }
  match (Cli.run out greatestSteps invocation ⟨← readClock, id⟩).1 with
  | .ok lines =>
    lines.forM fun line => IO.println line
    return 0
  | .error cause =>
    IO.eprintln ("Error: " ++ cause.message)
    return 1
  | .overflow =>
    IO.eprintln "arithmetic left its range"
    return 101
  | .exhausted =>
    IO.eprintln "too many steps"
    return 1

/-- Tells why a command line is not carried out. -/
def explain (env : String → Option String) (cause : Cli.UsageError) : IO UInt32 := do
  match Cli.Help.answer? env cause, cause with
  | some lines, _ =>
    lines.forM fun line => IO.println line
    return 0
  | none, .nothingAsked level =>
    (Cli.Help.lines env level false).forM fun line => IO.eprintln line
    return 2
  | none, _ =>
    IO.eprintln ("error: " ++ cause.message)
    return 2

end Tradebook.Main

open Tradebook Tradebook.Main

/-- The program. -/
def main (arguments : List String) : IO UInt32 := do
  let env ← readVariables ["SYNCBOT_CONFIG", "DATABASE_URL"]
  match Cli.Invocation.ofArguments env arguments with
  | .ok invocation => perform invocation
  | .error cause => explain env cause

import JourneyMatch.Command.Run
import JourneyMatch.Settings.Basic
import JourneyMatch.Store.Snapshot

/-
  This file holds the command line of the operator. A command
  works on the snapshot at the usual path of the store, which
  is written again afterwards.

  Key definitions include:
    * `main`
-/

namespace JourneyMatch

/- Reads a file, if it is there. -/
def readIfThere
    (path : String) : IO (Option String) := do
  try
    return some (← IO.FS.readFile path)
  catch _ =>
    return none

/- How deep a snapshot is. -/
def snapshotDepth : Nat :=
  2

/- The store of a snapshot, or a new one if there is none. -/
def storeOf
    (text : Option String) : Except String Store :=
  match text with
  | none => .ok .empty
  | some text =>
      match readWhole? (Json.read snapshotDepth) text with
      | .error e => .error e.message
      | .ok j =>
          match Store.ofSnapshot? j with
          | some s => .ok s
          | none => .error "not a snapshot of a store"

/-
  Carries out a command on a snapshot. Where there is none,
  none is written.
-/
def runCommand
    (c : Command) : IO UInt32 := do
  let path := Settings.usual.storePath
  let found ← readIfThere path
  match storeOf found with
  | .error message =>
      IO.eprintln message
      return 1
  | .ok s =>
      let (result, s) := c.run s
      if found.isSome then
        IO.FS.writeFile path s.snapshot.compact
      match result with
      | .ok lines =>
          for line in lines do
            IO.println line
          return 0
      | .error e =>
          IO.eprintln e.message
          return 1

/- Reads a command line and carries the command out. -/
def runCommandLine
    (args : List String) : IO UInt32 := do
  match Command.parse args with
  | .ok c => runCommand c
  | .error .help =>
      IO.println UsageError.help.message
      return 0
  | .error e =>
      IO.eprintln e.message
      return 2

end JourneyMatch

/- The program. -/
def main
    (args : List String) : IO UInt32 :=
  JourneyMatch.runCommandLine args

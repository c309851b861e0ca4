import JourneyMatch.Command.Basic
import JourneyMatch.Matcher.Basic

/-
  This file defines what the commands of an operator do to a
  store, and the lines of JSON that they print.

  Key definitions include:
    * `Command.run`
-/

namespace JourneyMatch

namespace Command

/- The line that tells of a removal by key. -/
def removalLine
    (verb : String)
    (key : String)
    (removed : Bool) : String :=
  Json.compact
    (.object
      (Entries.insert verb (.bool removed)
        [("key", .string key)]))

/- The line that tells how many entries have been removed. -/
def clearedLine
    (subscription : String)
    (removed : Nat) : String :=
  Json.compact
    (.object
      [("removed", .number (.integer removed)),
        ("subscriptionId", .string subscription)])

/- The lines of a list, or why there is none. -/
def listed
    {α : Type}
    [Wire α] :
    Except StoreError (List α) →
    Except MatchError (List String)
  | .ok xs => .ok (xs.map Wire.text)
  | .error cause => .error (.store cause)

/-
  Carries out a command and gives the lines to print. A
  matcher begins on the store where entries are cleared.
-/
def run
    (s : Store) :
    Command → Except MatchError (List String) × Store
  | .listPending n subscription limit =>
      (listed (Admin.listPending n subscription limit s), s)
  | .deletePending n key =>
      match Admin.deletePending n key s with
      | (.ok deleted, s) =>
          (.ok [removalLine "deleted" key deleted], s)
      | (.error cause, s) => (.error (.store cause), s)
  | .clearPending subscription =>
      let m := Matcher.begin 0 .counted s
      match m.clear subscription with
      | (.ok removed, m) =>
          (.ok [clearedLine subscription removed], m.store)
      | (.error e, m) => (.error e, m.store)
  | .listTasks after limit =>
      (listed (Admin.listTasks after limit s), s)
  | .removeTask key =>
      let (removed, s) := Admin.deleteTask key s
      (.ok [removalLine "removed" key removed], s)

end Command

end JourneyMatch

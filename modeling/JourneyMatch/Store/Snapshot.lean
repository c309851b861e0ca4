import JourneyMatch.Store.Basic

/-
  This file defines the snapshot of a store: a JSON object of
  its levels, each of which is an object of its texts.

  Key definitions include:
    * `Store.snapshot`
    * `Store.ofSnapshot?`
-/

namespace JourneyMatch

namespace Store

/- The snapshot of a level. -/
def levelSnapshot
    (l : Level) : Json :=
  .object (l.entries.map fun (key, text) => (key, .string text))

/- The snapshot of a store. -/
def snapshot
    (s : Store) : Json :=
  .object
    (s.levels.entries.map fun (name, l) =>
      (name, levelSnapshot l))

/- The entries of an object, if all of them are of a kind. -/
def entriesOf?
    {β : Type}
    (read? : Json → Option β) : Json → Option (SortedMap β)
  | .object members => do
      let entries ←
        members.mapM fun (key, value) =>
          (read? value).map fun x => (key, x)
      some (SortedMap.empty.insertAll entries)
  | _ => none

/- The text of a snapshot. -/
def textOf? : Json → Option String
  | .string text => some text
  | _ => none

/- The store of a snapshot. -/
def ofSnapshot?
    (j : Json) : Option Store :=
  (entriesOf? (entriesOf? textOf?) j).map fun levels => ⟨levels⟩

end Store

end JourneyMatch

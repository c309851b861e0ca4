import JourneyMatch.Sorted.Map

/-
  This file defines a cell whose value is replaced as a
  whole, and its watchers. A watcher has seen the value that
  was there when it began to watch, and every value that it
  has read since.

  Key definitions include:
    * `Cell`
    * `Cell.update`
    * `Watchers`
    * `Watchers.watch`
    * `Watchers.changed?`
    * `Watchers.read?`
-/

namespace JourneyMatch

------------------------------------------------------------
-- The cell
------------------------------------------------------------

/- A value and how often it has been replaced. -/
structure Cell (α : Type) where
  value : α
  version : Nat
  deriving DecidableEq, Repr

namespace Cell

/- A cell with its first value. -/
def new
    {α : Type}
    (value : α) : Cell α :=
  ⟨value, 0⟩

/- Replaces the value, be it by an equal one. -/
def update
    {α : Type}
    (value : α)
    (c : Cell α) : Cell α :=
  ⟨value, c.version + 1⟩

end Cell

------------------------------------------------------------
-- Watchers
------------------------------------------------------------

/- The version that each watcher has seen, by name. -/
abbrev Watchers :=
  SortedMap Nat

namespace Watchers

/- Begins to watch, in place of an earlier watcher. -/
def watch
    {α : Type}
    (name : String)
    (c : Cell α)
    (ws : Watchers) : Watchers :=
  ws.insert name c.version

/- Whether there is a value that a watcher has not seen. -/
def changed?
    {α : Type}
    (name : String)
    (c : Cell α)
    (ws : Watchers) : Option Bool :=
  (ws.find? name).map fun seen => decide (seen < c.version)

/- Reads the value for a watcher, who then has seen it. -/
def read?
    {α : Type}
    (name : String)
    (c : Cell α)
    (ws : Watchers) : Option α × Watchers :=
  match ws.find? name with
  | none => (none, ws)
  | some _ => (some c.value, ws.watch name c)

end Watchers

end JourneyMatch

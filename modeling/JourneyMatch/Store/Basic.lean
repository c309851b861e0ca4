import JourneyMatch.Sorted.Map
import JourneyMatch.Wire.Basic

/-
  This file defines the store: named levels, each of which
  maps keys to JSON texts in ascending order of keys.

  A removal that decodes leaves a value that does not decode
  where it is. Writing replaces the value first and decodes
  the one before it afterwards.

  Key definitions include:
    * `StoreError`
    * `Level`
    * `Level.get`
    * `Level.put`
    * `Level.take`
    * `Level.deleteIf`
    * `Level.startingWith`
    * `Level.after`
    * `Level.before`
    * `Store`
    * `Store.level`
    * `Store.setLevel`
    * `Store.existing`
-/

namespace JourneyMatch

------------------------------------------------------------
-- Errors
------------------------------------------------------------

/-
  Why the store refuses: a value does not decode, or a level
  does not exist.
-/
inductive StoreError where
  | codec (cause : ReadError)
  | missingLevel (name : String)
  deriving DecidableEq, Repr

/- The wording of a refusal. -/
def StoreError.message : StoreError → String
  | .codec cause => "value encoding error: " ++ cause.message
  | .missingLevel name => "sublevel not found: " ++ name

/- Reads a stored text. -/
def decodeStored
    (α : Type)
    [Wire α]
    (text : String) : Except StoreError α :=
  match Wire.parse α text with
  | .ok x => .ok x
  | .error cause => .error (.codec cause)

/- Reads a stored text, if there is one. -/
def decodeStored?
    (α : Type)
    [Wire α] :
    Option String → Except StoreError (Option α)
  | none => .ok none
  | some text => (decodeStored α text).map some

/- Reads the stored texts of entries, in order. -/
def decodeEntries
    (α : Type)
    [Wire α] :
    List (String × String) →
    Except StoreError (List (String × α))
  | [] => .ok []
  | (key, text) :: rest =>
      match decodeStored α text with
      | .error e => .error e
      | .ok x =>
          match decodeEntries α rest with
          | .error e => .error e
          | .ok xs => .ok ((key, x) :: xs)

------------------------------------------------------------
-- Levels
------------------------------------------------------------

/- A level of the store, with the stored texts. -/
abbrev Level :=
  SortedMap String

namespace Level

/- The value under a key. -/
def get
    (α : Type)
    [Wire α]
    (l : Level)
    (key : String) : Except StoreError (Option α) :=
  decodeStored? α (l.find? key)

/- Writes a value and gives the one before it. -/
def put
    {α : Type}
    [Wire α]
    (l : Level)
    (key : String)
    (value : α) : Except StoreError (Option α) × Level :=
  (l.get α key, l.insert key (Wire.text value))

/- Removes a value, if it decodes, and gives it. -/
def take
    (α : Type)
    [Wire α]
    (l : Level)
    (key : String) : Except StoreError (Option α) × Level :=
  match l.get α key with
  | .ok (some x) => (.ok (some x), l.erase key)
  | .ok none => (.ok none, l)
  | .error e => (.error e, l)

/- Removes a key and tells whether it was there. -/
def delete
    (l : Level)
    (key : String) : Bool × Level :=
  (l.contains key, l.erase key)

/- Removes a key if its text is accepted. -/
def deleteIf
    (l : Level)
    (key : String)
    (accepts : String → Bool) : Bool × Level :=
  match l.find? key with
  | none => (false, l)
  | some text =>
      if accepts text then (true, l.erase key) else (false, l)

/- Whether a key begins with a text. -/
def startsWith
    (start key : String) : Bool :=
  start.toList.isPrefixOf key.toList

/- The entries whose keys begin with a text. -/
def startingWith
    (l : Level)
    (start : String) : List (String × String) :=
  l.entries.filter fun entry => startsWith start entry.1

/- The entries whose keys lie above a text, or all. -/
def after
    (l : Level)
    (bound : Option String) : List (String × String) :=
  match bound with
  | none => l.entries
  | some bound => l.entries.filter fun entry => bound < entry.1

/- The entries whose keys lie below a text. -/
def before
    (l : Level)
    (bound : String) : List (String × String) :=
  l.entries.filter fun entry => entry.1 < bound

end Level

------------------------------------------------------------
-- The store
------------------------------------------------------------

/- All levels, by name. -/
structure Store where
  levels : SortedMap Level

namespace Store

/- The store without levels. -/
def empty : Store :=
  ⟨.empty⟩

instance : Inhabited Store :=
  ⟨empty⟩

/- The level of a name; one that does not exist is empty. -/
def level
    (s : Store)
    (name : String) : Level :=
  (s.levels.find? name).getD .empty

/- Puts a level in the place of the one of its name. -/
def setLevel
    (s : Store)
    (name : String)
    (l : Level) : Store :=
  ⟨s.levels.insert name l⟩

/- Makes sure that a level exists. -/
def ensure
    (s : Store)
    (name : String) : Store :=
  s.setLevel name (s.level name)

/- The name of the level that exists from the beginning. -/
def firstLevel : String :=
  "__sled__default"

/- The level of a name, if it exists. -/
def existing
    (s : Store)
    (name : String) : Except StoreError Level :=
  match s.levels.find? name with
  | some l => .ok l
  | none =>
      if name = firstLevel then
        .ok .empty
      else
        .error (.missingLevel name)

/- Lets an operation work on a level. -/
def onLevel
    {ρ : Type}
    (s : Store)
    (name : String)
    (operation : Level → ρ × Level) : ρ × Store :=
  let (result, l) := operation (s.level name)
  (result, s.setLevel name l)

/- Removes a key from two levels at once. -/
def deleteFromBoth
    (s : Store)
    (first second key : String) : Store :=
  let s := s.setLevel first ((s.level first).erase key)
  s.setLevel second ((s.level second).erase key)

/- What a level is after another was put into the store. -/
@[simp] theorem level_setLevel
    (s : Store)
    (name other : String)
    (l : Level) :
    (s.setLevel name l).level other
      = if name = other then l else s.level other := by
  simp only [level, setLevel, SortedMap.find?_insert]
  split <;> rfl

end Store

end JourneyMatch

import JourneyMatch.Notices
import JourneyMatch.Toml.Document

/-
  This file defines the settings of the service and how they
  are loaded: from a TOML file, whose sections and entries
  may all be missing, with a store path that may be given
  besides and then counts instead.

  Key definitions include:
    * `Settings`
    * `SettingsError`
    * `Settings.ofTable`
    * `Settings.check`
    * `Settings.load`
-/

namespace JourneyMatch

------------------------------------------------------------
-- The types
------------------------------------------------------------

/-
  The settings: where the store lies, the period between two
  firings and the usual expiry, both in milliseconds, and the
  number of notifications that may wait to be written.
-/
structure Settings where
  storePath : String
  frequency : Nat
  expiry : Nat
  buffer : Nat
  deriving DecidableEq, Repr

namespace Settings

/- The settings where nothing is said. -/
def usual : Settings :=
  { storePath := "./data/xcmon"
    frequency := 5000
    expiry := 1800000
    buffer := defaultCapacity }

end Settings

/-
  Why settings are turned down: the file is not UTF-8, it is
  not TOML or its values are not of the right kind, or one of
  the settings is empty or zero.
-/
inductive SettingsError where
  | unreadable
  | malformed
  | emptyStorePath
  | zeroFrequency
  | zeroExpiry
  | zeroBuffer
  deriving DecidableEq, Repr

/- The wording for settings that are turned down. -/
def SettingsError.message : SettingsError → String
  | .unreadable => "failed to read config file"
  | .malformed => "failed to parse config file"
  | .emptyStorePath =>
      "validation error: store.path must not be empty"
  | .zeroFrequency =>
      "validation error: scheduler.frequency_ms must be "
        ++ "greater than zero"
  | .zeroExpiry =>
      "validation error: janitor.sweep_expiry_ms must be "
        ++ "greater than zero"
  | .zeroBuffer =>
      "validation error: matching.notification_buffer must be "
        ++ "greater than zero"

namespace Settings

------------------------------------------------------------
-- From a table
------------------------------------------------------------

/-
  What a section says of an entry. A section may be an array,
  whose first item is then the entry, and a date-time says
  nothing.
-/
def entry
    (name : String) :
    Option Toml.Value → Except SettingsError (Option Toml.Value)
  | none => .ok none
  | some (.table _ entries) => .ok (Entries.find? name entries)
  | some (.array items) => .ok items.head?
  | some .dateTime => .ok none
  | some _ => .error .malformed

/- An entry that is a text. -/
def textOr
    (usual : String) :
    Option Toml.Value → Except SettingsError String
  | none => .ok usual
  | some (.text s) => .ok s
  | some _ => .error .malformed

/- An entry that is a natural number. -/
def countOr
    (usual : Nat) :
    Option Toml.Value → Except SettingsError Nat
  | none => .ok usual
  | some (.integer i) =>
      if 0 ≤ i then .ok i.toNat else .error .malformed
  | some _ => .error .malformed

/- The settings in the table of a file. -/
def ofTable
    (t : Toml.Table) : Except SettingsError Settings := do
  let path ← entry "path" (t.find? "store")
  let frequency ← entry "frequency_ms" (t.find? "scheduler")
  let expiry ← entry "sweep_expiry_ms" (t.find? "janitor")
  let buffer ← entry "notification_buffer" (t.find? "matching")
  let storePath ← textOr usual.storePath path
  let frequency ← countOr usual.frequency frequency
  let expiry ← countOr usual.expiry expiry
  let buffer ← countOr usual.buffer buffer
  .ok { storePath, frequency, expiry, buffer }

/- The settings in the bytes of a file. -/
def ofBytes
    (bytes : List UInt8) : Except SettingsError Settings :=
  match String.fromUTF8? (ByteArray.mk bytes.toArray) with
  | none => .error .unreadable
  | some text =>
      match Toml.parse text with
      | none => .error .malformed
      | some t => ofTable t

------------------------------------------------------------
-- Loading
------------------------------------------------------------

/- Turns down settings that are empty or zero. -/
def check
    (s : Settings) : Except SettingsError Settings :=
  if s.storePath = "" then .error .emptyStorePath
  else if s.frequency = 0 then .error .zeroFrequency
  else if s.expiry = 0 then .error .zeroExpiry
  else if s.buffer = 0 then .error .zeroBuffer
  else .ok s

/-
  The settings of a file, or the usual ones where there is no
  file.
-/
def ofFile : Option (List UInt8) → Except SettingsError Settings
  | none => .ok usual
  | some bytes => ofBytes bytes

/- Loads the settings. -/
def load
    (file : Option (List UInt8))
    (storePath : Option String) :
    Except SettingsError Settings := do
  let s ← ofFile file
  check { s with storePath := storePath.getD s.storePath }

end Settings

end JourneyMatch

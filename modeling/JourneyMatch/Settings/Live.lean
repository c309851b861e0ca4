import JourneyMatch.Cell
import JourneyMatch.Settings.Basic

/-
  This file defines the settings of a service that runs. The
  store stays where it is; the other settings are cells, and
  a reload replaces all of them or none.

  Key definitions include:
    * `LiveSettings`
    * `LiveSettings.reload`
-/

namespace JourneyMatch

/- The settings of a service that runs. -/
structure LiveSettings where
  storePath : String
  frequency : Cell Nat
  expiry : Cell Nat
  buffer : Cell Nat

namespace LiveSettings

/- The settings with which a service begins. -/
def new
    (s : Settings) : LiveSettings :=
  { storePath := s.storePath
    frequency := .new s.frequency
    expiry := .new s.expiry
    buffer := .new s.buffer }

/- Replaces the settings in the cells. -/
def install
    (s : Settings)
    (l : LiveSettings) : LiveSettings :=
  { l with
    frequency := l.frequency.update s.frequency
    expiry := l.expiry.update s.expiry
    buffer := l.buffer.update s.buffer }

/-
  Loads the settings again. A file that does not load changes
  nothing.
-/
def reload
    (file : Option (List UInt8))
    (storePath : Option String)
    (l : LiveSettings) : LiveSettings :=
  match Settings.load file storePath with
  | .ok s => l.install s
  | .error _ => l

end LiveSettings

end JourneyMatch

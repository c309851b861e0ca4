import JourneyMatch.Proofs.Json.Accepted
import JourneyMatch.Settings.Basic

/-
  This file says what settings are that were loaded. Each is
  the one that the file states, or the usual one where the
  file states none, and where a store path is given besides,
  it is that one. None is empty or zero.

  Key definitions include:
    * `Settings.stated?`
    * `Settings.Stated`
    * `Settings.Sound`
    * `Settings.Loaded`

  Main statements:
    * `Settings.loaded_of_load`
-/

namespace JourneyMatch

namespace Settings

------------------------------------------------------------
-- What a file states
------------------------------------------------------------

/- The table in the bytes of a file. -/
def table?
    (bytes : List UInt8) : Option Toml.Table :=
  (String.fromUTF8? (ByteArray.mk bytes.toArray)).bind Toml.parse

/- What a section says under a name. -/
def said?
    (name : String)
    (v : Option Toml.Value) : Option Toml.Value :=
  (entry name v).toOption.join

/-
  What a file states under a name of a section. No file
  states nothing.
-/
def stated?
    (title name : String)
    (file : Option (List UInt8)) : Option Toml.Value :=
  (file.bind table?).bind fun t => said? name (t.find? title)

/- Whether a text is the one stated, or the usual one. -/
def Worded
    (usual text : String) : Option Toml.Value → Prop
  | none => text = usual
  | some v => v = .text text

/- Whether a number is the one stated, or the usual one. -/
def Counted
    (usual count : Nat) : Option Toml.Value → Prop
  | none => count = usual
  | some v => v = .integer count

/-
  Whether settings are what is stated under the names of the
  sections, or the usual ones.
-/
structure Stated
    (told : String → String → Option Toml.Value)
    (s : Settings) : Prop where
  storePath :
    Worded usual.storePath s.storePath (told "store" "path")
  frequency :
    Counted usual.frequency s.frequency
      (told "scheduler" "frequency_ms")
  expiry :
    Counted usual.expiry s.expiry
      (told "janitor" "sweep_expiry_ms")
  buffer :
    Counted usual.buffer s.buffer
      (told "matching" "notification_buffer")

/- Whether nothing in settings is empty or zero. -/
structure Sound
    (s : Settings) : Prop where
  storePath_ne : s.storePath ≠ ""
  frequency_pos : 0 < s.frequency
  expiry_pos : 0 < s.expiry
  buffer_pos : 0 < s.buffer

/-
  What is known of settings that were loaded from a file,
  with a store path that may be given besides.
-/
structure Loaded
    (file : Option (List UInt8))
    (storePath : Option String)
    (s : Settings) : Prop where
  sound : s.Sound
  stated :
    ∃ own : Settings,
      own.Stated (fun title name => stated? title name file)
        ∧ s
          = { own with
              storePath := storePath.getD own.storePath }

------------------------------------------------------------
-- From a file
------------------------------------------------------------

theorem worded_of_textOr
    {usual text : String}
    {v : Option Toml.Value}
    (hText : textOr usual v = .ok text) :
    Worded usual text v := by
  rcases v with _ | v
  · cases hText
    rfl
  · cases v <;> cases hText
    rfl

theorem counted_of_countOr
    {usual count : Nat}
    {v : Option Toml.Value}
    (hCount : countOr usual v = .ok count) :
    Counted usual count v := by
  rcases v with _ | v
  · cases hCount
    rfl
  · cases v with
    | integer i =>
        rw [countOr] at hCount
        split at hCount
        · rename_i hNatural
          cases hCount
          exact congrArg _ (Int.toNat_of_nonneg hNatural).symm
        · cases hCount
    | _ => cases hCount

theorem said?_of_entry
    {name : String}
    {v found : Option Toml.Value}
    (hEntry : entry name v = .ok found) :
    said? name v = found := by
  rw [said?, hEntry]
  rfl

theorem stated_of_ofTable
    {t : Toml.Table}
    {s : Settings}
    (hTable : ofTable t = .ok s) :
    Stated (fun title name => said? name (t.find? title)) s := by
  rcases Except.exists_of_bind_eq_ok hTable with
    ⟨path, hPath, hTable⟩
  rcases Except.exists_of_bind_eq_ok hTable with
    ⟨frequency, hFrequency, hTable⟩
  rcases Except.exists_of_bind_eq_ok hTable with
    ⟨expiry, hExpiry, hTable⟩
  rcases Except.exists_of_bind_eq_ok hTable with
    ⟨buffer, hBuffer, hTable⟩
  rcases Except.exists_of_bind_eq_ok hTable with
    ⟨storePath, hStorePath, hTable⟩
  rcases Except.exists_of_bind_eq_ok hTable with
    ⟨period, hPeriod, hTable⟩
  rcases Except.exists_of_bind_eq_ok hTable with
    ⟨millis, hMillis, hTable⟩
  rcases Except.exists_of_bind_eq_ok hTable with
    ⟨capacity, hCapacity, hTable⟩
  cases hTable
  rw [← said?_of_entry hPath] at hStorePath
  rw [← said?_of_entry hFrequency] at hPeriod
  rw [← said?_of_entry hExpiry] at hMillis
  rw [← said?_of_entry hBuffer] at hCapacity
  exact
    { storePath := worded_of_textOr hStorePath
      frequency := counted_of_countOr hPeriod
      expiry := counted_of_countOr hMillis
      buffer := counted_of_countOr hCapacity }

theorem stated_of_ofFile
    {file : Option (List UInt8)}
    {s : Settings}
    (hFile : ofFile file = .ok s) :
    Stated (fun title name => stated? title name file) s := by
  cases file with
  | none =>
      cases hFile
      exact ⟨rfl, rfl, rfl, rfl⟩
  | some bytes =>
      rw [ofFile, ofBytes] at hFile
      split at hFile
      · cases hFile
      · rename_i text hText
        split at hFile
        · cases hFile
        · rename_i t hParse
          have hTable : table? bytes = some t := by
            rw [table?, hText, Option.bind_some, hParse]
          simp only [stated?, Option.bind_some, hTable]
          exact stated_of_ofTable hFile

------------------------------------------------------------
-- Loading
------------------------------------------------------------

/- Settings are checked and not changed. -/
theorem check_eq_ok_iff
    {s t : Settings} :
    check s = .ok t ↔ t = s ∧ s.Sound := by
  constructor
  · intro hCheck
    unfold check at hCheck
    split at hCheck
    · cases hCheck
    split at hCheck
    · cases hCheck
    split at hCheck
    · cases hCheck
    split at hCheck
    · cases hCheck
    rename_i hPath hFrequency hExpiry hBuffer
    cases hCheck
    exact
      ⟨rfl, hPath, Nat.pos_of_ne_zero hFrequency,
        Nat.pos_of_ne_zero hExpiry, Nat.pos_of_ne_zero hBuffer⟩
  · rintro ⟨rfl, hSound⟩
    rw [check, if_neg hSound.storePath_ne,
      if_neg (Nat.ne_of_gt hSound.frequency_pos),
      if_neg (Nat.ne_of_gt hSound.expiry_pos),
      if_neg (Nat.ne_of_gt hSound.buffer_pos)]

theorem loaded_of_load
    {file : Option (List UInt8)}
    {storePath : Option String}
    {s : Settings}
    (hLoad : load file storePath = .ok s) :
    Loaded file storePath s := by
  rcases Except.exists_of_bind_eq_ok hLoad with
    ⟨own, hFile, hCheck⟩
  rcases check_eq_ok_iff.mp hCheck with ⟨rfl, hSound⟩
  exact ⟨hSound, own, stated_of_ofFile hFile, rfl⟩

end Settings

end JourneyMatch

import Mathlib.Data.List.Forall2
import JourneyMatch.Store.Basic

/-
  This file says what a list of entries of a level gives. All
  of its texts have to decode. A list that decodes as a whole
  decodes in every part that is cut off or picked out by key,
  and gives that part of the values.

  Key definitions include:
    * `Decodes`

  Main statements:
    * `decodeEntries_eq_ok_iff`
    * `decodeEntries_take`
    * `decodeEntries_filter`
    * `exists_decodeEntries`
    * `keys_of_decodeEntries`
-/

namespace JourneyMatch

variable {α : Type} [Wire α]

/- Whether a value is what the text of an entry decodes to. -/
def Decodes
    (entry : String × String)
    (value : String × α) : Prop :=
  value.1 = entry.1 ∧ decodeStored α entry.2 = .ok value.2

/- Entries are read one by one, and every one is. -/
theorem decodeEntries_eq_ok_iff
    {entries : List (String × String)}
    {values : List (String × α)} :
    decodeEntries α entries = .ok values
      ↔ List.Forall₂ Decodes entries values := by
  induction entries generalizing values with
  | nil => simp [decodeEntries, eq_comm]
  | cons entry rest ih =>
      rcases entry with ⟨key, text⟩
      rw [List.forall₂_cons_left_iff]
      simp only [decodeEntries]
      constructor
      · intro hRead
        cases hText : decodeStored α text with
        | error cause => simp [hText] at hRead
        | ok value =>
            cases hRest : decodeEntries α rest with
            | error cause => simp [hText, hRest] at hRead
            | ok others =>
                simp only [hText, hRest, Except.ok.injEq]
                  at hRead
                exact
                  ⟨(key, value), others, ⟨rfl, hText⟩,
                    ih.mp hRest, hRead.symm⟩
      · rintro ⟨⟨name, value⟩, others, ⟨hKey, hText⟩, hRest, rfl⟩
        cases hKey
        rw [hText, ih.mpr hRest]

/- The first entries give the first values. -/
theorem decodeEntries_take
    {entries : List (String × String)}
    {values : List (String × α)}
    (hRead : decodeEntries α entries = .ok values)
    (count : Nat) :
    decodeEntries α (entries.take count)
      = .ok (values.take count) :=
  decodeEntries_eq_ok_iff.mpr
    (List.forall₂_take count (decodeEntries_eq_ok_iff.mp hRead))

/- Entries that are picked out by key give their values. -/
theorem decodeEntries_filter
    {entries : List (String × String)}
    {values : List (String × α)}
    (hRead : decodeEntries α entries = .ok values)
    (picks : String → Bool) :
    decodeEntries α (entries.filter fun entry => picks entry.1)
      = .ok (values.filter fun value => picks value.1) := by
  refine
    decodeEntries_eq_ok_iff.mpr
      (List.rel_filter ?_ (decodeEntries_eq_ok_iff.mp hRead))
  rintro entry value ⟨hKey, -⟩
  simp only [hKey]

/- Entries that are readable one by one are so as a list. -/
theorem exists_decodeEntries
    {entries : List (String × String)}
    (hReadable :
      ∀ entry ∈ entries,
        ∃ value, decodeStored α entry.2 = .ok value) :
    ∃ values, decodeEntries α entries = .ok values := by
  induction entries with
  | nil => exact ⟨[], rfl⟩
  | cons entry rest ih =>
      rcases hReadable entry List.mem_cons_self with
        ⟨value, hText⟩
      rcases
          ih fun other hMem =>
            hReadable other (List.mem_cons_of_mem entry hMem)
        with ⟨values, hRest⟩
      refine ⟨(entry.1, value) :: values, ?_⟩
      rw [decodeEntries_eq_ok_iff] at hRest ⊢
      exact .cons ⟨rfl, hText⟩ hRest

/- Every value is read from an entry. -/
theorem exists_entry_of_decodeEntries
    {entries : List (String × String)}
    {values : List (String × α)}
    (hRead : decodeEntries α entries = .ok values) :
    ∀ value ∈ values, ∃ entry ∈ entries, Decodes entry value := by
  have hBoth := decodeEntries_eq_ok_iff.mp hRead
  clear hRead
  induction hBoth with
  | nil => exact fun value hMem => nomatch hMem
  | cons hFirst _ ih =>
      intro value hMem
      rcases List.mem_cons.mp hMem with hSame | hThere
      · rw [hSame]
        exact ⟨_, List.mem_cons_self, hFirst⟩
      · rcases ih value hThere with ⟨entry, hEntry, hDecodes⟩
        exact ⟨entry, List.mem_cons_of_mem _ hEntry, hDecodes⟩

/- Values have the keys of their entries. -/
theorem keys_of_decodeEntries
    {entries : List (String × String)}
    {values : List (String × α)}
    (hRead : decodeEntries α entries = .ok values) :
    values.map (·.1) = entries.map (·.1) := by
  have hBoth := decodeEntries_eq_ok_iff.mp hRead
  clear hRead
  induction hBoth with
  | nil => rfl
  | cons hFirst _ ih =>
      rw [List.map_cons, List.map_cons, hFirst.1, ih]

end JourneyMatch

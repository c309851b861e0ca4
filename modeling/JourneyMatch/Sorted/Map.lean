import JourneyMatch.Sorted.Entries

/-
  This file defines maps from texts, kept in ascending order
  of keys.

  Key definitions include:
    * `SortedMap`
    * `SortedMap.find?`
    * `SortedMap.insert`
    * `SortedMap.erase`
    * `SortedMap.find?_insert`
    * `SortedMap.find?_erase`
    * `SortedMap.mem_entries_iff`
    * `SortedMap.mem_keys_iff`
-/

namespace JourneyMatch

/- A map with its entries in ascending order of keys. -/
structure SortedMap (β : Type) where
  entries : List (String × β)
  ascending : Entries.Ascending entries

namespace SortedMap

variable {β : Type}

/- The map without entries. -/
def empty : SortedMap β :=
  ⟨[], .nil⟩

instance : Inhabited (SortedMap β) :=
  ⟨empty⟩

/- The value under a key. -/
def find?
    (m : SortedMap β)
    (key : String) : Option β :=
  Entries.find? key m.entries

/- Whether there is a value under a key. -/
def contains
    (m : SortedMap β)
    (key : String) : Bool :=
  (m.find? key).isSome

/- Puts a value under a key. -/
def insert
    (m : SortedMap β)
    (key : String)
    (value : β) : SortedMap β :=
  ⟨Entries.insert key value m.entries,
    Entries.ascending_insert key value m.ascending⟩

/- Removes what stands under a key. -/
def erase
    (m : SortedMap β)
    (key : String) : SortedMap β :=
  ⟨Entries.erase key m.entries,
    Entries.ascending_erase key m.ascending⟩

/- Puts values under keys, one after the other. -/
def insertAll
    (m : SortedMap β)
    (entries : List (String × β)) : SortedMap β :=
  entries.foldl (fun m entry => m.insert entry.1 entry.2) m

/- The number of entries. -/
def size
    (m : SortedMap β) : Nat :=
  m.entries.length

/- The keys, in ascending order. -/
def keys
    (m : SortedMap β) : List String :=
  m.entries.map (·.1)

------------------------------------------------------------
-- Laws
------------------------------------------------------------

@[simp] theorem find?_empty
    (key : String) :
    (empty : SortedMap β).find? key = none :=
  rfl

@[simp] theorem find?_insert
    (m : SortedMap β)
    (key other : String)
    (value : β) :
    (m.insert key value).find? other
      = if key = other then some value else m.find? other :=
  Entries.find?_insert key other value m.entries

@[simp] theorem find?_erase
    (m : SortedMap β)
    (key other : String) :
    (m.erase key).find? other
      = if key = other then none else m.find? other :=
  Entries.find?_erase key other m.entries

/- Inserting what stands under a key changes nothing. -/
theorem insert_of_find?
    {m : SortedMap β}
    {key : String}
    {value : β}
    (hFind : m.find? key = some value) :
    m.insert key value = m := by
  obtain ⟨entries, hAsc⟩ := m
  simp only [insert, mk.injEq]
  exact Entries.insert_of_find? hAsc hFind

/- The entries are what the keys find. -/
theorem mem_entries_iff
    {m : SortedMap β}
    {key : String}
    {value : β} :
    (key, value) ∈ m.entries ↔ m.find? key = some value :=
  ⟨Entries.find?_of_mem m.ascending, Entries.mem_of_find?⟩

/- The keys are those under which something is found. -/
theorem mem_keys_iff
    {m : SortedMap β}
    {key : String} :
    key ∈ m.keys ↔ m.find? key ≠ none := by
  rw [Option.ne_none_iff_exists', keys, List.mem_map]
  constructor
  · rintro ⟨⟨name, value⟩, hEntry, rfl⟩
    exact ⟨value, mem_entries_iff.mp hEntry⟩
  · rintro ⟨value, hFind⟩
    exact ⟨(key, value), mem_entries_iff.mpr hFind, rfl⟩

end SortedMap

end JourneyMatch

/-
  This file defines lists of entries in ascending order of
  their keys. Keys are texts, in the order of their
  characters, which is also that of their UTF-8 bytes.

  Key definitions include:
    * `Entries.Ascending`
    * `Entries.insert`
    * `Entries.erase`
    * `Entries.find?`
    * `Entries.find?_insert`
    * `Entries.find?_erase`
-/

namespace JourneyMatch

namespace Entries

variable {β : Type}

------------------------------------------------------------
-- Operations
------------------------------------------------------------

/- Each key is below all keys after it. -/
def Ascending
    (entries : List (String × β)) : Prop :=
  entries.Pairwise fun a b => a.1 < b.1

/-
  Puts a value under a key, in place of one that stands there.
-/
def insert
    (key : String)
    (value : β) :
    List (String × β) → List (String × β)
  | [] => [(key, value)]
  | (name, old) :: rest =>
      if key < name then
        (key, value) :: (name, old) :: rest
      else if key = name then
        (key, value) :: rest
      else
        (name, old) :: insert key value rest

/- Removes the entry of a key. -/
def erase
    (key : String)
    (entries : List (String × β)) : List (String × β) :=
  entries.filter fun entry => entry.1 ≠ key

/- The value under a key. -/
def find?
    (key : String) :
    List (String × β) → Option β
  | [] => none
  | (name, value) :: rest =>
      if name = key then some value else find? key rest

------------------------------------------------------------
-- Order
------------------------------------------------------------

/- The entries of an inserted list are the new and the old. -/
theorem mem_of_mem_insert
    {key : String}
    {value : β}
    {entries : List (String × β)}
    {entry : String × β}
    (hMem : entry ∈ insert key value entries) :
    entry = (key, value) ∨ entry ∈ entries := by
  induction entries with
  | nil => simpa [insert] using hMem
  | cons head rest ih =>
      obtain ⟨name, old⟩ := head
      simp only [insert] at hMem
      split at hMem
      · simpa using hMem
      · split at hMem
        · rcases List.mem_cons.mp hMem with h | h
          · exact .inl h
          · exact .inr (List.mem_cons_of_mem _ h)
        · rcases List.mem_cons.mp hMem with h | h
          · exact .inr (h ▸ List.mem_cons_self)
          · rcases ih h with h | h
            · exact .inl h
            · exact .inr (List.mem_cons_of_mem _ h)

/- Insertion keeps the order. -/
theorem ascending_insert
    (key : String)
    (value : β)
    {entries : List (String × β)}
    (hAsc : Ascending entries) :
    Ascending (insert key value entries) := by
  induction entries with
  | nil => simp [insert, Ascending]
  | cons head rest ih =>
      obtain ⟨name, old⟩ := head
      obtain ⟨hHead, hRest⟩ := List.pairwise_cons.mp hAsc
      simp only [insert]
      split
      · rename_i hLt
        refine List.pairwise_cons.mpr ⟨?_, hAsc⟩
        intro entry hEntry
        rcases List.mem_cons.mp hEntry with h | h
        · exact h ▸ hLt
        · exact String.lt_trans hLt (hHead entry h)
      · rename_i hNotLt
        split
        · rename_i hEq
          subst hEq
          exact List.pairwise_cons.mpr ⟨hHead, hRest⟩
        · rename_i hNe
          refine List.pairwise_cons.mpr ⟨?_, ih hRest⟩
          intro entry hEntry
          rcases mem_of_mem_insert hEntry with h | h
          · subst h
            by_cases hLt : name < key
            · exact hLt
            · exact absurd
                (String.le_antisymm
                  (String.not_lt.mp hLt)
                  (String.not_lt.mp hNotLt))
                hNe
          · exact hHead entry h

/- Removal keeps the order. -/
theorem ascending_erase
    (key : String)
    {entries : List (String × β)}
    (hAsc : Ascending entries) :
    Ascending (erase key entries) :=
  hAsc.sublist List.filter_sublist

------------------------------------------------------------
-- Look-up
------------------------------------------------------------

/- What is found after an insertion. -/
theorem find?_insert
    (key other : String)
    (value : β)
    (entries : List (String × β)) :
    find? other (insert key value entries)
      = if key = other then some value
        else find? other entries := by
  induction entries with
  | nil => simp [insert, find?]
  | cons head rest ih =>
      obtain ⟨name, old⟩ := head
      simp only [insert]
      split
      · simp [find?]
      · split
        · rename_i hEq
          subst hEq
          simp only [find?]
          split <;> rfl
        · rename_i hNe
          simp only [find?, ih]
          by_cases hName : name = other
          · subst hName
            simp [hNe]
          · simp [hName]

/- What is found after a removal. -/
theorem find?_erase
    (key other : String)
    (entries : List (String × β)) :
    find? other (erase key entries)
      = if key = other then none
        else find? other entries := by
  induction entries with
  | nil => simp [erase, find?]
  | cons head rest ih =>
      obtain ⟨name, old⟩ := head
      simp only [erase, List.filter_cons] at ih ⊢
      by_cases hKey : name = key
      · subst hKey
        simp only [ne_eq, not_true_eq_false, decide_false,
          Bool.false_eq_true, if_false, ih, find?]
        split <;> rfl
      · simp only [ne_eq, hKey, not_false_eq_true,
          decide_true, if_true, find?, ih]
        by_cases hName : name = other
        · subst hName
          simp [Ne.symm hKey]
        · simp [hName]

/- Only the key of an entry finds it. -/
theorem mem_of_find?
    {key : String}
    {value : β}
    {entries : List (String × β)}
    (hFind : find? key entries = some value) :
    (key, value) ∈ entries := by
  induction entries with
  | nil => simp [find?] at hFind
  | cons head rest ih =>
      obtain ⟨name, old⟩ := head
      simp only [find?] at hFind
      split at hFind
      · rename_i hEq
        cases hFind
        exact hEq ▸ List.mem_cons_self
      · exact List.mem_cons_of_mem _ (ih hFind)

/- In ascending order every entry is found by its key. -/
theorem find?_of_mem
    {key : String}
    {value : β}
    {entries : List (String × β)}
    (hAsc : Ascending entries)
    (hMem : (key, value) ∈ entries) :
    find? key entries = some value := by
  induction entries with
  | nil => simp at hMem
  | cons head rest ih =>
      obtain ⟨name, old⟩ := head
      obtain ⟨hHead, hRest⟩ := List.pairwise_cons.mp hAsc
      rcases List.mem_cons.mp hMem with h | h
      · cases h
        simp [find?]
      · have hLt := hHead _ h
        have hNe : name ≠ key := fun hEq =>
          String.lt_irrefl key (hEq ▸ hLt)
        simp [find?, hNe, ih hRest h]

/- Inserting what stands under a key changes nothing. -/
theorem insert_of_find?
    {key : String}
    {value : β}
    {entries : List (String × β)}
    (hAsc : Ascending entries)
    (hFind : find? key entries = some value) :
    insert key value entries = entries := by
  induction entries with
  | nil => simp [find?] at hFind
  | cons head rest ih =>
      obtain ⟨name, old⟩ := head
      obtain ⟨hHead, hRest⟩ := List.pairwise_cons.mp hAsc
      simp only [find?] at hFind
      split at hFind
      · rename_i hEq
        subst hEq
        cases hFind
        rw [insert, if_neg (String.lt_irrefl name), if_pos rfl]
      · rename_i hNe
        have hLt : name < key := hHead _ (mem_of_find? hFind)
        rw [insert, if_neg (String.lt_asymm hLt),
          if_neg (Ne.symm hNe), ih hRest hFind]

end Entries

end JourneyMatch

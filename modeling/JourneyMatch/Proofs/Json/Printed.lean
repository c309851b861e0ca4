import JourneyMatch.Proofs.Json.Double
import JourneyMatch.Proofs.Json.Quoted

/-
  This file says what it means that a reader treats a printed
  value the same way whatever follows it, and how readers of
  arrays and objects do so when the readers of their parts do.

  Key definitions include:
    * `Reads`
    * `BeginsValue`
    * `Piece`
    * `Entry`

  Main statements:
    * `readItems_bracketed`
    * `readMembers_braced`
    * `skipMembers_braced`
-/

namespace JourneyMatch

------------------------------------------------------------
-- Readers of printed values
------------------------------------------------------------

/-
  Whether a reader has a fixed result on a text and stops
  right behind it, whatever follows.
-/
def Reads
    {α : Type}
    (reader : Reader α)
    (text : List Char)
    (result : Except ReadError α) : Prop :=
  ∀ rest,
    Delimited rest →
      reader (text ++ rest) = result.map fun x => (x, rest)

/- A text that begins as a value does. -/
def BeginsValue
    (text : List Char) : Prop :=
  ∃ c tail,
    text = c :: tail
      ∧ isBlank c = false
      ∧ c ≠ ',' ∧ c ≠ ']' ∧ c ≠ '}'

theorem BeginsValue.ne_nil
    {text : List Char}
    (hBegins : BeginsValue text) :
    text ≠ [] := by
  rcases hBegins with ⟨c, tail, hText, -⟩
  rw [hText]
  exact List.cons_ne_nil c tail

/- There are no blanks in front of a character that is none. -/
theorem skipBlanks_cons
    {c : Char}
    (hBlank : isBlank c = false)
    (rest : List Char) :
    skipBlanks (c :: rest) = c :: rest := by
  simp [skipBlanks, hBlank]

theorem BeginsValue.skipBlanks_append
    {text : List Char}
    (hBegins : BeginsValue text)
    (rest : List Char) :
    skipBlanks (text ++ rest) = text ++ rest := by
  rcases hBegins with ⟨c, tail, hText, hBlank, -⟩
  rw [hText, List.cons_append, skipBlanks_cons hBlank]

------------------------------------------------------------
-- Parts and commas
------------------------------------------------------------

/- A comma in front of each part. -/
def commaed
    (parts : List (List Char)) : List Char :=
  parts.flatMap fun part => ',' :: part

theorem joinCommas_cons
    (part : List Char)
    (parts : List (List Char)) :
    joinCommas (part :: parts) = part ++ commaed parts := by
  induction parts generalizing part with
  | nil => simp [joinCommas, commaed]
  | cons next parts ih =>
      rw [joinCommas, ih next]
      simp [commaed]

theorem commaed_cons
    (part : List Char)
    (parts : List (List Char)) :
    commaed (part :: parts) = ',' :: (part ++ commaed parts) := by
  simp [commaed]

/- Another part or a closing bracket may follow a value. -/
theorem delimited_commaed
    (parts : List (List Char))
    {rest : List Char}
    (hRest : Delimited rest) :
    Delimited (commaed parts ++ rest) := by
  cases parts with
  | nil => exact hRest
  | cons part parts =>
      rw [commaed_cons, List.cons_append]
      exact Delimited.comma _

theorem length_le_commaed
    (parts : List (List Char)) :
    parts.length ≤ (commaed parts).length := by
  induction parts with
  | nil => exact Nat.zero_le _
  | cons part parts ih =>
      simp only [commaed_cons, List.length_cons,
        List.length_append]
      omega

/- Parts that are not empty are no more than characters. -/
theorem length_le_joinCommas
    {parts : List (List Char)}
    (hParts : ∀ part ∈ parts, part ≠ []) :
    parts.length ≤ (joinCommas parts).length := by
  cases parts with
  | nil => exact Nat.zero_le _
  | cons part parts =>
      have hRest := length_le_commaed parts
      have hPart :=
        List.length_pos_iff.mpr (hParts part List.mem_cons_self)
      simp only [joinCommas_cons, List.length_cons,
        List.length_append]
      omega

------------------------------------------------------------
-- Arrays
------------------------------------------------------------

/- A printed item and what its reader makes of it. -/
structure Piece (α : Type) where
  text : List Char
  result : Except ReadError α

/- The results of items, or the first error among them. -/
def inOrder
    {α : Type} :
    List (Except ReadError α) → Except ReadError (List α)
  | [] => .ok []
  | result :: results => do
      let x ← result
      let xs ← inOrder results
      .ok (x :: xs)

theorem nextItem_first
    {text : List Char}
    (hBegins : BeginsValue text)
    (rest : List Char) :
    nextItem true (text ++ rest) = .ok (some (text ++ rest)) := by
  rcases hBegins with
    ⟨c, tail, hText, hBlank, hComma, hBracket, -⟩
  subst hText
  unfold nextItem
  rw [List.cons_append, skipBlanks_cons hBlank]
  split
  · rename_i hCase
    cases hCase
  · rename_i hCase
    cases hCase
    exact absurd rfl hBracket
  · rename_i hCase
    cases hCase
    exact absurd rfl hComma
  · rfl

theorem closeArray_bracket
    (rest : List Char) :
    closeArray (']' :: rest) = .ok ((), rest) := by
  have hFront : isBlank ']' = false := by decide
  simp [closeArray, skipBlanks_cons hFront]

theorem nextItem_bracket
    (first : Bool)
    (rest : List Char) :
    nextItem first (']' :: rest) = .ok none := by
  have hFront : isBlank ']' = false := by decide
  simp [nextItem, skipBlanks_cons hFront]

/- The first item is found like one behind a comma. -/
theorem nextItem_of_first
    {cs item : List Char}
    (hNext : nextItem true cs = .ok (some item)) :
    nextItem false (',' :: cs) = .ok (some item) := by
  have hFront : isBlank ',' = false := by decide
  unfold nextItem at hNext ⊢
  rw [skipBlanks_cons hFront]
  simp only [if_true, Bool.false_eq_true, if_false] at hNext ⊢
  split at hNext
  · cases hNext
  · cases hNext
  · rename_i hComma
    cases hNext
    rw [hComma]
    rfl
  · rename_i hNonempty hBracket hComma
    cases hNext
    split
    · exact absurd ‹_› hNonempty
    · exact absurd ‹_› (hBracket _)
    · rfl

theorem nextItem_comma
    {text : List Char}
    (hBegins : BeginsValue text)
    (rest : List Char) :
    nextItem false (',' :: (text ++ rest))
      = .ok (some (text ++ rest)) :=
  nextItem_of_first (nextItem_first hBegins rest)

theorem readItemsWithin_of_first
    {α : Type}
    {item : Reader α}
    {fuel : Nat}
    {cs next : List Char}
    (hNext : nextItem true cs = .ok (some next)) :
    readItemsWithin item (fuel + 1) false (',' :: cs)
      = readItemsWithin item (fuel + 1) true cs := by
  simp only [readItemsWithin, hNext, nextItem_of_first hNext,
    bind, Except.bind]

/- The items after the first, up to the closing bracket. -/
theorem readItemsWithin_commaed
    {α : Type}
    {item : Reader α}
    {pieces : List (Piece α)}
    {fuel : Nat}
    (hPieces :
      ∀ p ∈ pieces,
        BeginsValue p.text ∧ Reads item p.text p.result)
    (hFuel : pieces.length < fuel)
    (rest : List Char) :
    readItemsWithin item fuel false
        (commaed (pieces.map Piece.text) ++ ']' :: rest)
      = (inOrder (pieces.map Piece.result)).map
        fun xs => (xs, rest) := by
  induction pieces generalizing fuel with
  | nil =>
      obtain ⟨fuel, rfl⟩ :=
        Nat.exists_eq_succ_of_ne_zero (Nat.ne_zero_of_lt hFuel)
      simp only [List.map_nil, commaed, List.flatMap_nil,
        List.nil_append, readItemsWithin, nextItem_bracket,
        closeArray_bracket, bind, Except.bind, inOrder,
        Except.map]
  | cons p pieces ih =>
      obtain ⟨fuel, rfl⟩ :=
        Nat.exists_eq_succ_of_ne_zero (Nat.ne_zero_of_lt hFuel)
      rcases hPieces p List.mem_cons_self with ⟨hBegins, hReads⟩
      have hRest :=
        ih (fun q hMem => hPieces q (List.mem_cons_of_mem p hMem))
          (Nat.lt_of_succ_lt_succ hFuel)
      have hItem :=
        hReads _
          (delimited_commaed (pieces.map Piece.text)
            (Delimited.bracket rest))
      rw [List.map_cons, commaed_cons, List.cons_append,
        List.append_assoc, readItemsWithin]
      simp only [nextItem_comma hBegins, bind, Except.bind,
        hItem, List.map_cons, inOrder]
      cases p.result with
      | error cause => rfl
      | ok x =>
          simp only [Except.map, hRest]
          cases inOrder (pieces.map Piece.result) <;> rfl

/- An array is read by reading its items in order. -/
theorem readItems_bracketed
    {α : Type}
    {item : Reader α}
    {pieces : List (Piece α)}
    (hPieces :
      ∀ p ∈ pieces,
        BeginsValue p.text ∧ Reads item p.text p.result)
    (rest : List Char) :
    readItems item
        (joinCommas (pieces.map Piece.text) ++ ']' :: rest)
      = (inOrder (pieces.map Piece.result)).map
        fun xs => (xs, rest) := by
  have hNonempty :
      ∀ part ∈ pieces.map Piece.text, part ≠ [] := by
    intro part hMem
    rcases List.mem_map.mp hMem with ⟨p, hPiece, hText⟩
    rw [← hText]
    exact (hPieces p hPiece).1.ne_nil
  have hLength := length_le_joinCommas hNonempty
  rw [List.length_map] at hLength
  have hFuel :
      pieces.length
        < (joinCommas (pieces.map Piece.text)
          ++ ']' :: rest).length + 1 := by
    rw [List.length_append]
    omega
  have hAll := readItemsWithin_commaed hPieces hFuel rest
  unfold readItems
  cases pieces with
  | nil =>
      simp only [List.map_nil, joinCommas, List.nil_append,
        readItemsWithin, nextItem_bracket, closeArray_bracket,
        bind, Except.bind, inOrder, Except.map]
  | cons p pieces =>
      have hBegins := (hPieces p List.mem_cons_self).1
      rw [List.map_cons, joinCommas_cons, List.append_assoc]
        at hAll ⊢
      rw [commaed_cons, List.cons_append, List.append_assoc,
        readItemsWithin_of_first (nextItem_first hBegins _)]
        at hAll
      exact hAll

------------------------------------------------------------
-- Objects
------------------------------------------------------------

/-
  A printed member, and what its reader makes of it in the
  state that the members before have left.
-/
structure Entry (σ : Type) where
  key : String
  text : List Char
  effect : σ → Except ReadError σ

namespace Entry

/- The key and the value of a member. -/
def printed
    {σ : Type}
    (e : Entry σ) : List Char :=
  keyed e.key e.text

/- The state after members, or the first error among them. -/
def run
    {σ : Type} :
    List (Entry σ) → σ → Except ReadError σ
  | [], state => .ok state
  | e :: entries, state => do
      let state ← e.effect state
      run entries state

end Entry

/- A key between quotes is not a blank and not empty. -/
theorem keyed_append
    (key : String)
    (text rest : List Char) :
    keyed key text ++ rest
      = '"' :: (Quoted.encode key.toList
        ++ '"' :: ':' :: (text ++ rest)) := by
  simp [keyed, Quoted.write]

theorem nextKey_first
    (key : String)
    (text rest : List Char) :
    nextKey true (keyed key text ++ rest)
      = .ok (.key (Quoted.encode key.toList
        ++ '"' :: ':' :: (text ++ rest))) := by
  have hFront : isBlank '"' = false := by decide
  simp [keyed_append, nextKey, skipBlanks_cons hFront]

theorem nextKey_brace
    (first : Bool)
    (rest : List Char) :
    nextKey first ('}' :: rest) = .ok (.closed rest) := by
  have hFront : isBlank '}' = false := by decide
  simp [nextKey, skipBlanks_cons hFront]

theorem readColon_colon
    (rest : List Char) :
    readColon (':' :: rest) = .ok ((), rest) := by
  have hFront : isBlank ':' = false := by decide
  simp [readColon, skipBlanks_cons hFront]

/- The first key is found like one behind a comma. -/
theorem nextKey_of_first
    {cs key : List Char}
    (hNext : nextKey true cs = .ok (.key key)) :
    nextKey false (',' :: cs) = .ok (.key key) := by
  have hFront : isBlank ',' = false := by decide
  unfold nextKey at hNext ⊢
  rw [skipBlanks_cons hFront]
  simp only [if_true, Bool.false_eq_true, if_false] at hNext ⊢
  split at hNext
  · cases hNext
  · cases hNext
  · rename_i hQuote
    cases hNext
    rw [hQuote]
    rfl
  · cases hNext
  · cases hNext

theorem nextKey_comma
    (key : String)
    (text rest : List Char) :
    nextKey false (',' :: (keyed key text ++ rest))
      = .ok (.key (Quoted.encode key.toList
        ++ '"' :: ':' :: (text ++ rest))) :=
  nextKey_of_first (nextKey_first key text rest)

theorem readMembersWithin_of_first
    {σ : Type}
    {member : String → σ → Reader σ}
    {fuel : Nat}
    {state : σ}
    {cs key : List Char}
    (hNext : nextKey true cs = .ok (.key key)) :
    readMembersWithin member (fuel + 1) false state (',' :: cs)
      = readMembersWithin member (fuel + 1) true state cs := by
  simp only [readMembersWithin, hNext, nextKey_of_first hNext,
    bind, Except.bind]

theorem skipMembersWithin_of_first
    {value : Reader Unit}
    {fuel : Nat}
    {cs key : List Char}
    (hNext : nextKey true cs = .ok (.key key)) :
    skipMembersWithin value (fuel + 1) false (',' :: cs)
      = skipMembersWithin value (fuel + 1) true cs := by
  simp only [skipMembersWithin, hNext, nextKey_of_first hNext,
    bind, Except.bind]

/- The members after the first, up to the closing brace. -/
theorem readMembersWithin_commaed
    {σ : Type}
    {member : String → σ → Reader σ}
    {entries : List (Entry σ)}
    {fuel : Nat}
    (hEntries :
      ∀ e ∈ entries, ∀ state,
        Reads (member e.key state) (':' :: e.text)
          (e.effect state))
    (hFuel : entries.length < fuel)
    (state : σ)
    (rest : List Char) :
    readMembersWithin member fuel false state
        (commaed (entries.map Entry.printed) ++ '}' :: rest)
      = (Entry.run entries state).map
        fun state => (state, rest) := by
  induction entries generalizing fuel state with
  | nil =>
      obtain ⟨fuel, rfl⟩ :=
        Nat.exists_eq_succ_of_ne_zero (Nat.ne_zero_of_lt hFuel)
      simp only [List.map_nil, commaed, List.flatMap_nil,
        List.nil_append, readMembersWithin, nextKey_brace,
        bind, Except.bind, Entry.run, Except.map]
  | cons e entries ih =>
      obtain ⟨fuel, rfl⟩ :=
        Nat.exists_eq_succ_of_ne_zero (Nat.ne_zero_of_lt hFuel)
      have hMember :=
        hEntries e List.mem_cons_self state _
          (delimited_commaed (entries.map Entry.printed)
            (Delimited.brace rest))
      have hRest :=
        ih (fun d hMem =>
          hEntries d (List.mem_cons_of_mem e hMem))
          (Nat.lt_of_succ_lt_succ hFuel)
      rw [List.cons_append] at hMember
      rw [List.map_cons, commaed_cons, List.cons_append,
        List.append_assoc, readMembersWithin]
      rw [Entry.printed, nextKey_comma]
      simp only [bind, Except.bind, Quoted.read_encode, hMember,
        Entry.run]
      cases e.effect state with
      | error cause => rfl
      | ok after =>
          simp only [Except.map]
          rw [hRest]
          rfl

/- Members are no more than the characters of an object. -/
theorem length_le_printed
    {σ : Type}
    (entries : List (Entry σ)) :
    entries.length
      ≤ (joinCommas (entries.map Entry.printed)).length := by
  have hNonempty :
      ∀ part ∈ entries.map Entry.printed, part ≠ [] := by
    intro part hMem
    rcases List.mem_map.mp hMem with ⟨e, -, hText⟩
    rw [← hText]
    simp [Entry.printed, keyed, Quoted.write]
  have hLength := length_le_joinCommas hNonempty
  rwa [List.length_map] at hLength

/- An object is read by reading its members in order. -/
theorem readMembers_braced
    {σ : Type}
    {member : String → σ → Reader σ}
    {entries : List (Entry σ)}
    (hEntries :
      ∀ e ∈ entries, ∀ state,
        Reads (member e.key state) (':' :: e.text)
          (e.effect state))
    (state : σ)
    (rest : List Char) :
    readMembers member state
        (joinCommas (entries.map Entry.printed) ++ '}' :: rest)
      = (Entry.run entries state).map
        fun state => (state, rest) := by
  have hLength := length_le_printed entries
  have hFuel :
      entries.length
        < (joinCommas (entries.map Entry.printed)
          ++ '}' :: rest).length + 1 := by
    rw [List.length_append]
    omega
  have hAll :=
    readMembersWithin_commaed hEntries hFuel state rest
  unfold readMembers
  cases entries with
  | nil =>
      simp only [List.map_nil, joinCommas, List.nil_append,
        readMembersWithin, nextKey_brace, bind, Except.bind,
        Entry.run, Except.map]
  | cons e entries =>
      have hNext :=
        nextKey_first e.key e.text
          (commaed (entries.map Entry.printed) ++ '}' :: rest)
      rw [← Entry.printed] at hNext
      rw [List.map_cons, joinCommas_cons, List.append_assoc]
        at hAll ⊢
      rw [commaed_cons, List.cons_append, List.append_assoc,
        readMembersWithin_of_first hNext] at hAll
      exact hAll

------------------------------------------------------------
-- Objects that nobody asks for
------------------------------------------------------------

/- A printed member with its value. -/
def keyedPair
    (member : String × List Char) : List Char :=
  keyed member.1 member.2

theorem skipMembersWithin_commaed
    {value : Reader Unit}
    {members : List (String × List Char)}
    {fuel : Nat}
    (hMembers : ∀ p ∈ members, Reads value p.2 (.ok ()))
    (hFuel : members.length < fuel)
    (rest : List Char) :
    skipMembersWithin value fuel false
        (commaed (members.map keyedPair) ++ '}' :: rest)
      = .ok ((), rest) := by
  induction members generalizing fuel with
  | nil =>
      obtain ⟨fuel, rfl⟩ :=
        Nat.exists_eq_succ_of_ne_zero (Nat.ne_zero_of_lt hFuel)
      simp only [List.map_nil, commaed, List.flatMap_nil,
        List.nil_append, skipMembersWithin, nextKey_brace,
        bind, Except.bind]
  | cons p members ih =>
      obtain ⟨fuel, rfl⟩ :=
        Nat.exists_eq_succ_of_ne_zero (Nat.ne_zero_of_lt hFuel)
      have hValue :=
        hMembers p List.mem_cons_self _
          (delimited_commaed (members.map keyedPair)
            (Delimited.brace rest))
      have hRest :=
        ih (fun q hMem =>
          hMembers q (List.mem_cons_of_mem p hMem))
          (Nat.lt_of_succ_lt_succ hFuel)
      rw [List.map_cons, commaed_cons, List.cons_append,
        List.append_assoc, skipMembersWithin]
      rw [keyedPair, nextKey_comma]
      simp only [bind, Except.bind, Quoted.skip_encode,
        readColon_colon, hValue, Except.map, hRest]

/- An object is passed over member by member. -/
theorem skipMembers_braced
    {value : Reader Unit}
    {members : List (String × List Char)}
    (hMembers : ∀ p ∈ members, Reads value p.2 (.ok ()))
    {fuel : Nat}
    (hFuel : members.length < fuel)
    (rest : List Char) :
    skipMembersWithin value fuel true
        (joinCommas (members.map keyedPair) ++ '}' :: rest)
      = .ok ((), rest) := by
  rcases Nat.exists_eq_succ_of_ne_zero
      (Nat.ne_zero_of_lt hFuel) with
    ⟨fuel, rfl⟩
  have hAll := skipMembersWithin_commaed hMembers hFuel rest
  cases members with
  | nil =>
      simp only [List.map_nil, joinCommas, List.nil_append,
        skipMembersWithin, nextKey_brace, bind, Except.bind]
  | cons p members =>
      have hNext :=
        nextKey_first p.1 p.2
          (commaed (members.map keyedPair) ++ '}' :: rest)
      rw [← keyedPair] at hNext
      rw [List.map_cons, joinCommas_cons, List.append_assoc]
      rw [List.map_cons, commaed_cons, List.cons_append,
        List.append_assoc, skipMembersWithin_of_first hNext]
        at hAll
      exact hAll

/- Members are no more than the characters of an object. -/
theorem length_le_keyedPair
    (members : List (String × List Char)) :
    members.length
      ≤ (joinCommas (members.map keyedPair)).length := by
  have hNonempty :
      ∀ part ∈ members.map keyedPair, part ≠ [] := by
    intro part hMem
    rcases List.mem_map.mp hMem with ⟨p, -, hText⟩
    rw [← hText]
    simp [keyedPair, keyed, Quoted.write]
  have hLength := length_le_joinCommas hNonempty
  rwa [List.length_map] at hLength

end JourneyMatch

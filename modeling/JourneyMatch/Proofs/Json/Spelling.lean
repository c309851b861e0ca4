import JourneyMatch.Proofs.Json.Blank
import JourneyMatch.Proofs.Json.Nesting

/-
  This file says which texts stand for a JSON value. A text
  spells a value if it consists of the tokens of the value in
  their order, where blanks may stand in front of and behind
  each token, numbers and quoted texts may be written in any
  way that is read as they are, and members keep their order
  and number. The texts that are read as a value are those
  that spell it, as far as its nesting is allowed.

  Key definitions include:
    * `Json.Padded`
    * `Json.Spelled`

  Main statements:
    * `Json.readBack_of_depth_le`
    * `Json.spelled_of_read`
    * `Json.readWhole?_read_iff`
    * `Json.spelled_write`
-/

namespace JourneyMatch

namespace Json

------------------------------------------------------------
-- Spelled values
------------------------------------------------------------

/- A text with blanks around it. -/
def Padded
    (core : List Char → Prop)
    (text : List Char) : Prop :=
  ∃ before middle after,
    Blanks before
      ∧ core middle
      ∧ Blanks after
      ∧ text = before ++ (middle ++ after)

/-
  A key, in any way in which it may be written, with a colon
  and a value.
-/
def Keyed
    (name : String)
    (value : List Char → Prop)
    (text : List Char) : Prop :=
  ∃ key gap before rest,
    Quoted.read key = .ok (name, [])
      ∧ Blanks gap
      ∧ Blanks before
      ∧ value rest
      ∧ text = '"' :: (key ++ (gap ++ ':' :: (before ++ rest)))

mutual

/- Whether a text consists of the tokens of a value. -/
def Spelled :
    Json → List Char → Prop
  | .null, text => text = nullText
  | .bool value, text => text = boolText value
  | .number value, text =>
      readNumber false text = .ok (value, [])
        ∨ ∃ digits,
          text = '-' :: digits
            ∧ readNumber true digits = .ok (value, [])
  | .string value, text =>
      ∃ chars,
        text = '"' :: chars
          ∧ Quoted.read chars = .ok (value, [])
  | .array items, text =>
      ∃ parts blanks,
        SpelledItems items parts
          ∧ Blanks blanks
          ∧ text = '[' :: (joinCommas parts ++ (blanks ++ [']']))
  | .object members, text =>
      ∃ parts blanks,
        SpelledMembers members parts
          ∧ Blanks blanks
          ∧ text = '{' :: (joinCommas parts ++ (blanks ++ ['}']))

/- Whether texts are those of the items, with blanks. -/
def SpelledItems :
    List Json → List (List Char) → Prop
  | [], parts => parts = []
  | item :: items, parts =>
      ∃ part others,
        parts = part :: others
          ∧ Padded (Spelled item) part
          ∧ SpelledItems items others

/- Whether texts are those of the members, with blanks. -/
def SpelledMembers :
    List (String × Json) → List (List Char) → Prop
  | [], parts => parts = []
  | (name, value) :: members, parts =>
      ∃ part others,
        parts = part :: others
          ∧ Padded (Keyed name (Spelled value)) part
          ∧ SpelledMembers members others

end

/- A text that spells a value begins as one. -/
theorem beginsValue_of_spelled
    {j : Json}
    {text : List Char}
    (hSpelled : Spelled j text) :
    BeginsValue text := by
  cases j with
  | null =>
      rw [Spelled] at hSpelled
      rw [hSpelled]
      exact beginsValue_write .null
  | bool value =>
      rw [Spelled] at hSpelled
      rw [hSpelled]
      exact beginsValue_write (.bool value)
  | number value =>
      rw [Spelled] at hSpelled
      rcases hSpelled with hDigits | ⟨digits, hText, -⟩
      · rcases exists_digit_of_readNumber hDigits with
          ⟨c, tail, hText, hDigit⟩
        rw [hText]
        exact beginsValue_digit tail hDigit
      · rw [hText]
        exact ⟨'-', digits, rfl, by decide, by decide,
          by decide, by decide⟩
  | string value =>
      rw [Spelled] at hSpelled
      rcases hSpelled with ⟨chars, hText, -⟩
      rw [hText]
      exact ⟨'"', chars, rfl, by decide, by decide, by decide,
        by decide⟩
  | array items =>
      rw [Spelled] at hSpelled
      rcases hSpelled with ⟨parts, blanks, -, -, hText⟩
      rw [hText]
      exact ⟨'[', _, rfl, by decide, by decide, by decide,
        by decide⟩
  | object members =>
      rw [Spelled] at hSpelled
      rcases hSpelled with ⟨parts, blanks, -, -, hText⟩
      rw [hText]
      exact ⟨'{', _, rfl, by decide, by decide, by decide,
        by decide⟩

/- Items are no more than the characters of their texts. -/
theorem length_le_of_spelledItems
    {items : List Json}
    {parts : List (List Char)}
    (hItems : SpelledItems items parts) :
    items.length ≤ (joinCommas parts).length := by
  have hParts :
      items.length = parts.length
        ∧ ∀ part ∈ parts, part ≠ [] := by
    induction items generalizing parts with
    | nil =>
        rw [SpelledItems] at hItems
        rw [hItems]
        simp
    | cons item items ih =>
        rw [SpelledItems] at hItems
        rcases hItems with ⟨part, others, hParts, hPart, hRest⟩
        rcases ih hRest with ⟨hLength, hNonempty⟩
        rcases hPart with ⟨before, core, after, -, hCore, -, hText⟩
        have hSome := (beginsValue_of_spelled hCore).ne_nil
        rw [hParts]
        constructor
        · rw [List.length_cons, List.length_cons, hLength]
        · intro other hMem
          rcases List.mem_cons.mp hMem with hHere | hThere
          · rw [hHere, hText]
            simp [hSome]
          · exact hNonempty other hThere
  rw [hParts.1]
  exact length_le_joinCommas hParts.2

/- So are members. -/
theorem length_le_of_spelledMembers
    {members : List (String × Json)}
    {parts : List (List Char)}
    (hMembers : SpelledMembers members parts) :
    members.length ≤ (joinCommas parts).length := by
  have hParts :
      members.length = parts.length
        ∧ ∀ part ∈ parts, part ≠ [] := by
    induction members generalizing parts with
    | nil =>
        rw [SpelledMembers] at hMembers
        rw [hMembers]
        simp
    | cons member members ih =>
        rw [SpelledMembers] at hMembers
        rcases hMembers with
          ⟨part, others, hParts, hPart, hRest⟩
        rcases ih hRest with ⟨hLength, hNonempty⟩
        rcases hPart with
          ⟨before, core, after, -, ⟨key, gap, space, text, -, -,
            -, -, hCore⟩, -, hText⟩
        rw [hParts]
        constructor
        · rw [List.length_cons, List.length_cons, hLength]
        · intro other hMem
          rcases List.mem_cons.mp hMem with hHere | hThere
          · rw [hHere, hText, hCore]
            simp
          · exact hNonempty other hThere
  rw [hParts.1]
  exact length_le_joinCommas hParts.2

------------------------------------------------------------
-- What spells a value is read as it
------------------------------------------------------------

/-
  Whether every text that spells a value is read as it, up to
  its end, whatever stops it.
-/
def ReadBack
    (depth : Nat)
    (j : Json) : Prop :=
  ∀ text rest,
    Spelled j text →
      Stops rest →
        read depth (text ++ rest) = .ok (j, rest)

/- The items after the first, up to the closing bracket. -/
theorem readItemsWithin_of_spelled
    {depth fuel : Nat}
    {items : List Json}
    {parts : List (List Char)}
    {before blanks : List Char}
    (hRead : ∀ item ∈ items, item.ReadBack depth)
    (hItems : SpelledItems items parts)
    (hBefore : Blanks before)
    (hBlanks : Blanks blanks)
    (hFuel : items.length < fuel)
    (rest : List Char) :
    readItemsWithin (read depth) fuel false
        (before ++ (commaed parts ++ (blanks ++ ']' :: rest)))
      = .ok (items, rest) := by
  rw [hBefore.readItemsWithin_append]
  induction items generalizing parts before fuel with
  | nil =>
      obtain ⟨fuel, rfl⟩ :=
        Nat.exists_eq_succ_of_ne_zero (Nat.ne_zero_of_lt hFuel)
      rw [SpelledItems] at hItems
      rw [hItems]
      simp only [commaed, List.flatMap_nil, List.nil_append,
        hBlanks.readItemsWithin_append]
      simp only [readItemsWithin, nextItem_bracket,
        closeArray_bracket, bind, Except.bind]
  | cons item items ih =>
      obtain ⟨fuel, rfl⟩ :=
        Nat.exists_eq_succ_of_ne_zero (Nat.ne_zero_of_lt hFuel)
      rw [SpelledItems] at hItems
      rcases hItems with ⟨part, others, hParts, hPart, hRest⟩
      rcases hPart with
        ⟨space, core, after, hSpace, hCore, hAfter, hText⟩
      have hStops :
          Stops (after
            ++ (commaed others ++ (blanks ++ ']' :: rest))) :=
        hAfter.stops_append
          (stops_commaed others
            (hBlanks.stops_append (Delimited.bracket rest).stops))
      have hItem :=
        hRead item List.mem_cons_self core _ hCore hStops
      have hOthers :=
        ih (fun k hMem => hRead k (List.mem_cons_of_mem item hMem))
          hRest hAfter (Nat.lt_of_succ_lt_succ hFuel)
      rw [← hAfter.readItemsWithin_append] at hOthers
      rw [hParts, commaed_cons, hText, readItemsWithin]
      simp only [List.cons_append, List.append_assoc,
        hSpace.nextItem_comma_append,
        nextItem_comma (beginsValue_of_spelled hCore), hItem,
        hOthers, bind, Except.bind]

/- The first item is read like one behind a comma. -/
theorem readItems_of_spelled
    {depth : Nat}
    {items : List Json}
    {parts : List (List Char)}
    {blanks : List Char}
    (hRead : ∀ item ∈ items, item.ReadBack depth)
    (hItems : SpelledItems items parts)
    (hBlanks : Blanks blanks)
    (rest : List Char) :
    readItems (read depth)
        (joinCommas parts ++ (blanks ++ ']' :: rest))
      = .ok (items, rest) := by
  have hLength := length_le_of_spelledItems hItems
  have hFuel :
      items.length
        < (joinCommas parts
          ++ (blanks ++ ']' :: rest)).length + 1 := by
    rw [List.length_append]
    omega
  have hAll :=
    readItemsWithin_of_spelled hRead hItems .nil hBlanks hFuel
      rest
  unfold readItems
  cases items with
  | nil =>
      rw [SpelledItems] at hItems
      rw [hItems]
      simp only [joinCommas, List.nil_append,
        hBlanks.readItemsWithin_append]
      simp only [readItemsWithin, nextItem_bracket,
        closeArray_bracket, bind, Except.bind]
  | cons item items =>
      rw [SpelledItems] at hItems
      rcases hItems with ⟨part, others, hParts, hPart, -⟩
      rcases hPart with
        ⟨space, core, after, hSpace, hCore, -, hText⟩
      have hNext :
          nextItem true
              (joinCommas parts ++ (blanks ++ ']' :: rest))
            = .ok
              (some (core ++ (after ++ (commaed others
                ++ (blanks ++ ']' :: rest))))) := by
        rw [hParts, joinCommas_cons, hText]
        simp only [List.append_assoc, hSpace.nextItem_append,
          nextItem_first (beginsValue_of_spelled hCore)]
      have hComma :
          commaed parts = ',' :: joinCommas parts := by
        rw [hParts, commaed_cons, joinCommas_cons]
      rw [List.nil_append, hComma, List.cons_append,
        readItemsWithin_of_first hNext] at hAll
      exact hAll

/- The colon and the value of a member. -/
theorem pushMember_of_spelled
    {depth : Nat}
    {value : Json}
    {gap before text rest : List Char}
    (name : String)
    (hRead : value.ReadBack depth)
    (hGap : Blanks gap)
    (hBefore : Blanks before)
    (hText : Spelled value text)
    (hStops : Stops rest)
    (members : List (String × Json)) :
    pushMember (read depth) name members
        (gap ++ ':' :: (before ++ (text ++ rest)))
      = .ok ((name, value) :: members, rest) := by
  simp only [pushMember, hGap.readColon_append,
    readColon_colon, hBefore.read_append,
    hRead text rest hText hStops, bind, Except.bind]

/- The members after the first, up to the closing brace. -/
theorem readMembersWithin_of_spelled
    {depth fuel : Nat}
    {members : List (String × Json)}
    {parts : List (List Char)}
    {before blanks : List Char}
    (hRead : ∀ member ∈ members, member.2.ReadBack depth)
    (hMembers : SpelledMembers members parts)
    (hBefore : Blanks before)
    (hBlanks : Blanks blanks)
    (hFuel : members.length < fuel)
    (earlier : List (String × Json))
    (rest : List Char) :
    readMembersWithin (pushMember (read depth)) fuel false
        earlier
        (before ++ (commaed parts ++ (blanks ++ '}' :: rest)))
      = .ok (members.reverse ++ earlier, rest) := by
  rw [hBefore.readMembersWithin_append]
  induction members generalizing parts before fuel earlier with
  | nil =>
      obtain ⟨fuel, rfl⟩ :=
        Nat.exists_eq_succ_of_ne_zero (Nat.ne_zero_of_lt hFuel)
      rw [SpelledMembers] at hMembers
      rw [hMembers]
      simp only [commaed, List.flatMap_nil, List.nil_append,
        hBlanks.readMembersWithin_append]
      simp only [readMembersWithin, nextKey_brace, bind,
        Except.bind, List.reverse_nil, List.nil_append]
  | cons member members ih =>
      obtain ⟨fuel, rfl⟩ :=
        Nat.exists_eq_succ_of_ne_zero (Nat.ne_zero_of_lt hFuel)
      rcases member with ⟨name, value⟩
      rw [SpelledMembers] at hMembers
      rcases hMembers with ⟨part, others, hParts, hPart, hRest⟩
      rcases hPart with
        ⟨space, core, after, hSpace, hKeyed, hAfter, hText⟩
      rcases hKeyed with
        ⟨key, gap, room, text, hKey, hGap, hRoom, hValue, hCore⟩
      have hName :
          ∀ more, Quoted.read (key ++ more) = .ok (name, more) :=
        fun _ => Quoted.takesFront_read.of_alone hKey trivial
      have hStops :
          Stops (after
            ++ (commaed others ++ (blanks ++ '}' :: rest))) :=
        hAfter.stops_append
          (stops_commaed others
            (hBlanks.stops_append (Delimited.brace rest).stops))
      have hMember :=
        pushMember_of_spelled name (hRead _ List.mem_cons_self)
          hGap hRoom hValue hStops earlier
      have hOthers :=
        ih (fun k hMem => hRead k (List.mem_cons_of_mem _ hMem))
          hRest hAfter (Nat.lt_of_succ_lt_succ hFuel)
          ((name, value) :: earlier)
      rw [← hAfter.readMembersWithin_append] at hOthers
      rw [hParts, commaed_cons, hText, hCore, readMembersWithin]
      simp only [List.cons_append, List.append_assoc,
        hSpace.nextKey_comma_append, nextKey_comma_quote, hName,
        hMember, hOthers, bind, Except.bind,
        List.reverse_cons, List.nil_append]

/- The first member is read like one behind a comma. -/
theorem readMembers_of_spelled
    {depth : Nat}
    {members : List (String × Json)}
    {parts : List (List Char)}
    {blanks : List Char}
    (hRead : ∀ member ∈ members, member.2.ReadBack depth)
    (hMembers : SpelledMembers members parts)
    (hBlanks : Blanks blanks)
    (rest : List Char) :
    readMembers (pushMember (read depth)) []
        (joinCommas parts ++ (blanks ++ '}' :: rest))
      = .ok (members.reverse, rest) := by
  have hLength := length_le_of_spelledMembers hMembers
  have hFuel :
      members.length
        < (joinCommas parts
          ++ (blanks ++ '}' :: rest)).length + 1 := by
    rw [List.length_append]
    omega
  have hAll :=
    readMembersWithin_of_spelled hRead hMembers .nil hBlanks
      hFuel [] rest
  unfold readMembers
  cases members with
  | nil =>
      rw [SpelledMembers] at hMembers
      rw [hMembers]
      simp only [joinCommas, List.nil_append,
        hBlanks.readMembersWithin_append]
      simp only [readMembersWithin, nextKey_brace, bind,
        Except.bind, List.reverse_nil]
  | cons member members =>
      rw [SpelledMembers] at hMembers
      rcases hMembers with ⟨part, others, hParts, hPart, -⟩
      rcases hPart with
        ⟨space, core, after, hSpace, hKeyed, -, hText⟩
      rcases hKeyed with
        ⟨key, gap, room, text, -, -, -, -, hCore⟩
      have hNext :
          nextKey true
              (joinCommas parts ++ (blanks ++ '}' :: rest))
            = .ok
              (.key (key ++ (gap ++ ':' :: (room ++ (text
                ++ (after ++ (commaed others
                  ++ (blanks ++ '}' :: rest)))))))) := by
        rw [hParts, joinCommas_cons, hText, hCore]
        simp only [List.append_assoc, List.cons_append,
          hSpace.nextKey_append, nextKey_quote]
      have hComma :
          commaed parts = ',' :: joinCommas parts := by
        rw [hParts, commaed_cons, joinCommas_cons]
      rw [List.nil_append, hComma, List.cons_append,
        readMembersWithin_of_first hNext, List.append_nil]
        at hAll
      exact hAll

mutual

/- What spells a value is read as it, if it is not too deep. -/
theorem readBack_of_depth_le :
    (j : Json) →
    {depth : Nat} →
    j.depth ≤ depth →
    j.ReadBack depth
  | .null, depth, _ => by
      intro text rest hSpelled _
      rw [Spelled] at hSpelled
      rw [hSpelled]
      cases depth <;> rfl
  | .bool value, depth, _ => by
      intro text rest hSpelled _
      rw [Spelled] at hSpelled
      rw [hSpelled]
      cases value <;> cases depth <;> rfl
  | .number value, depth, _ => by
      intro text rest hSpelled hStops
      rw [Spelled] at hSpelled
      rcases hSpelled with hPlain | ⟨digits, hText, hDigits⟩
      · rcases exists_digit_of_readNumber hPlain with
          ⟨c, tail, hText, hDigit⟩
        have hRead :=
          (takesFront_readNumber false).of_alone hPlain hStops
        rw [hText, List.cons_append] at hRead ⊢
        rw [read_digit depth _ hDigit, hRead]
        rfl
      · have hRead :=
          (takesFront_readNumber true).of_alone hDigits hStops
        have hFront : isBlank '-' = false := by decide
        rw [hText, List.cons_append, read,
          skipBlanks_cons hFront]
        simp only [hRead, bind, Except.bind]
  | .string value, depth, _ => by
      intro text rest hSpelled hStops
      rw [Spelled] at hSpelled
      rcases hSpelled with ⟨chars, hText, hChars⟩
      have hRead :
          Quoted.read (chars ++ rest) = .ok (value, rest) :=
        Quoted.takesFront_read.of_alone hChars trivial
      have hFront : isBlank '"' = false := by decide
      rw [hText, List.cons_append, read, skipBlanks_cons hFront]
      simp only [hRead, bind, Except.bind]
  | .array items, depth, hDepth => by
      intro text rest hSpelled hStops
      rw [Spelled] at hSpelled
      rcases hSpelled with
        ⟨parts, blanks, hItems, hBlanks, hText⟩
      obtain ⟨depth, rfl⟩ :=
        Nat.exists_eq_succ_of_ne_zero (Nat.ne_zero_of_lt hDepth)
      have hRead :=
        readItems_of_spelled
          (readBack_items items (Nat.le_of_succ_le_succ hDepth))
          hItems hBlanks rest
      have hFront : isBlank '[' = false := by decide
      rw [hText, List.cons_append, read, skipBlanks_cons hFront]
      simp only [List.append_assoc, List.singleton_append,
        hRead, bind, Except.bind]
  | .object members, depth, hDepth => by
      intro text rest hSpelled hStops
      rw [Spelled] at hSpelled
      rcases hSpelled with
        ⟨parts, blanks, hMembers, hBlanks, hText⟩
      obtain ⟨depth, rfl⟩ :=
        Nat.exists_eq_succ_of_ne_zero (Nat.ne_zero_of_lt hDepth)
      have hRead :=
        readMembers_of_spelled
          (readBack_members members
            (Nat.le_of_succ_le_succ hDepth))
          hMembers hBlanks rest
      have hFront : isBlank '{' = false := by decide
      rw [hText, List.cons_append, read, skipBlanks_cons hFront]
      simp only [List.append_assoc, List.singleton_append,
        hRead, bind, Except.bind, List.reverse_reverse]

theorem readBack_items :
    (items : List Json) →
    {depth : Nat} →
    depthItems items ≤ depth →
    ∀ item ∈ items, item.ReadBack depth
  | [], _, _ => by simp
  | first :: items, depth, hDepth => by
      rw [depthItems, Nat.max_le] at hDepth
      intro item hMem
      rcases List.mem_cons.mp hMem with hHere | hThere
      · rw [hHere]
        exact readBack_of_depth_le first hDepth.1
      · exact readBack_items items hDepth.2 item hThere

theorem readBack_members :
    (members : List (String × Json)) →
    {depth : Nat} →
    depthMembers members ≤ depth →
    ∀ member ∈ members, member.2.ReadBack depth
  | [], _, _ => by simp
  | (name, value) :: members, depth, hDepth => by
      rw [depthMembers, Nat.max_le] at hDepth
      intro member hMem
      rcases List.mem_cons.mp hMem with hHere | hThere
      · rw [hHere]
        exact readBack_of_depth_le value hDepth.1
      · exact readBack_members members hDepth.2 member hThere

end

------------------------------------------------------------
-- What is read has been spelled
------------------------------------------------------------

/-
  Whether all that is read as a value, behind blanks, spells
  the value.
-/
def Spells
    (depth : Nat) : Prop :=
  ∀ cs j rest,
    read depth cs = .ok (j, rest) →
      ∃ blanks text,
        Blanks blanks
          ∧ Spelled j text
          ∧ cs = blanks ++ (text ++ rest)

/- Without its comma, the first part is followed by the others. -/
theorem eq_joinCommas_of_commaed
    {cs before blanks rest : List Char}
    {parts : List (List Char)}
    {close : Char}
    (hBefore : Blanks before)
    (hBlanks : Blanks blanks)
    (hText :
      ',' :: cs
        = before ++ (commaed parts ++ (blanks ++ close :: rest)))
    (hClose : close ≠ ',') :
    cs = joinCommas parts ++ (blanks ++ close :: rest) := by
  have hNoBlank :
      ∀ {front tail : List Char},
        Blanks front →
          ',' :: cs = front ++ tail → ',' :: cs = tail := by
    intro front tail hFront hSame
    cases front with
    | nil => exact hSame
    | cons c front =>
        cases hSame
        exact absurd (hFront ',' List.mem_cons_self) (by decide)
  have hParts := hNoBlank hBefore hText
  cases parts with
  | nil =>
      have hEnd := hNoBlank hBlanks hParts
      cases hEnd
      exact absurd rfl hClose
  | cons part parts =>
      rw [commaed_cons, List.cons_append] at hParts
      rw [joinCommas_cons]
      exact (List.cons.inj hParts).2

/- The items behind a comma each, up to the closing bracket. -/
theorem Spells.readItemsWithin
    {depth fuel : Nat}
    {cs rest : List Char}
    {items : List Json}
    (hSpells : Spells depth)
    (hRead :
      readItemsWithin (read depth) fuel false cs
        = .ok (items, rest)) :
    ∃ before parts blanks,
      Blanks before
        ∧ SpelledItems items parts
        ∧ Blanks blanks
        ∧ cs = before ++ (commaed parts
          ++ (blanks ++ ']' :: rest)) := by
  induction fuel generalizing cs items with
  | zero => cases hRead
  | succ fuel ih =>
      rw [JourneyMatch.readItemsWithin] at hRead
      rcases Except.exists_of_bind_eq_ok hRead with
        ⟨next, hNext, hMore⟩
      cases next with
      | none =>
          rcases Except.exists_of_bind_eq_ok hMore with
            ⟨⟨_, others⟩, hClose, hEnd⟩
          cases hEnd
          rcases exists_of_closeArray hClose with
            ⟨blanks, hBlanks, hText⟩
          exact ⟨[], [], blanks, .nil, rfl, hBlanks, hText⟩
      | some item =>
          rcases Except.exists_of_bind_eq_ok hMore with
            ⟨⟨j, others⟩, hItem, hLast⟩
          rcases Except.exists_of_bind_eq_ok hLast with
            ⟨⟨js, last⟩, hItems, hEnd⟩
          cases hEnd
          rcases exists_of_nextItem_comma hNext with
            ⟨before, space, hBefore, hSpace, hComma⟩
          rcases hSpells _ _ _ hItem with
            ⟨room, text, hRoom, hText, hFront⟩
          rcases ih hItems with
            ⟨after, parts, blanks, hAfter, hParts, hBlanks,
              hOthers⟩
          refine
            ⟨before, ((space ++ room) ++ (text ++ after)) :: parts,
              blanks, hBefore, ?_, hBlanks, ?_⟩
          · exact ⟨_, parts, rfl,
              ⟨space ++ room, text, after, hSpace.append hRoom,
                hText, hAfter, rfl⟩, hParts⟩
          · rw [hComma, hFront, hOthers, commaed_cons]
            simp only [List.cons_append, List.append_assoc]

theorem Spells.readItems
    {depth : Nat}
    {cs rest : List Char}
    {items : List Json}
    (hSpells : Spells depth)
    (hRead : readItems (read depth) cs = .ok (items, rest)) :
    ∃ parts blanks,
      SpelledItems items parts
        ∧ Blanks blanks
        ∧ cs = joinCommas parts ++ (blanks ++ ']' :: rest) := by
  unfold JourneyMatch.readItems at hRead
  have hFirst := hRead
  rw [JourneyMatch.readItemsWithin] at hFirst
  rcases Except.exists_of_bind_eq_ok hFirst with
    ⟨next, hNext, hMore⟩
  cases next with
  | none =>
      rcases Except.exists_of_bind_eq_ok hMore with
        ⟨⟨_, others⟩, hClose, hEnd⟩
      cases hEnd
      rcases exists_of_closeArray hClose with
        ⟨blanks, hBlanks, hText⟩
      exact ⟨[], blanks, rfl, hBlanks, hText⟩
  | some item =>
      rw [← readItemsWithin_of_first hNext] at hRead
      rcases hSpells.readItemsWithin hRead with
        ⟨before, parts, blanks, hBefore, hParts, hBlanks, hText⟩
      exact
        ⟨parts, blanks, hParts, hBlanks,
          eq_joinCommas_of_commaed hBefore hBlanks hText
            (by decide)⟩

/- A key that is read, with its colon and its value. -/
theorem Spells.pushMember
    {depth : Nat}
    {key : List Char}
    {name : String}
    {afterKey rest : List Char}
    {earlier after : List (String × Json)}
    (hSpells : Spells depth)
    (hKey : Quoted.read key = .ok (name, afterKey))
    (hPush :
      pushMember (read depth) name earlier afterKey
        = .ok (after, rest)) :
    ∃ value text,
      after = (name, value) :: earlier
        ∧ Keyed name (Spelled value) text
        ∧ '"' :: key = text ++ rest := by
  rcases Except.exists_of_bind_eq_ok hPush with
    ⟨⟨_, afterColon⟩, hColon, hMore⟩
  rcases Except.exists_of_bind_eq_ok hMore with
    ⟨⟨value, others⟩, hValue, hEnd⟩
  cases hEnd
  rcases Quoted.takesFront_read _ _ _ hKey with
    ⟨front, hFront, hTakes⟩
  have hAlone := hTakes [] trivial
  rw [List.append_nil] at hAlone
  rcases exists_of_readColon hColon with
    ⟨gap, hGap, hColonText⟩
  rcases hSpells _ _ _ hValue with
    ⟨room, text, hRoom, hText, hValueText⟩
  refine
    ⟨value, '"' :: (front ++ (gap ++ ':' :: (room ++ text))), rfl,
      ⟨front, gap, room, text, hAlone, hGap, hRoom, hText, rfl⟩,
      ?_⟩
  rw [hFront, hColonText, hValueText]
  simp only [List.cons_append, List.append_assoc]

/- The members behind a comma each, up to the closing brace. -/
theorem Spells.readMembersWithin
    {depth fuel : Nat}
    {cs rest : List Char}
    {earlier after : List (String × Json)}
    (hSpells : Spells depth)
    (hRead :
      readMembersWithin (JourneyMatch.pushMember (read depth))
          fuel false earlier cs
        = .ok (after, rest)) :
    ∃ members before parts blanks,
      after = members.reverse ++ earlier
        ∧ Blanks before
        ∧ SpelledMembers members parts
        ∧ Blanks blanks
        ∧ cs = before ++ (commaed parts
          ++ (blanks ++ '}' :: rest)) := by
  induction fuel generalizing cs earlier with
  | zero => cases hRead
  | succ fuel ih =>
      rw [JourneyMatch.readMembersWithin] at hRead
      rcases Except.exists_of_bind_eq_ok hRead with
        ⟨next, hNext, hMore⟩
      cases next with
      | closed others =>
          cases hMore
          rcases exists_of_nextKey_closed hNext with
            ⟨blanks, hBlanks, hText⟩
          exact ⟨[], [], [], blanks, rfl, .nil, rfl, hBlanks,
            hText⟩
      | key others =>
          rcases Except.exists_of_bind_eq_ok hMore with
            ⟨⟨name, afterKey⟩, hKey, hLast⟩
          rcases Except.exists_of_bind_eq_ok hLast with
            ⟨⟨state, afterOne⟩, hPush, hMembers⟩
          rcases exists_of_nextKey_comma hNext with
            ⟨before, space, hBefore, hSpace, hComma⟩
          rcases hSpells.pushMember hKey hPush with
            ⟨value, text, hState, hText, hFront⟩
          rcases ih hMembers with
            ⟨members, behind, parts, blanks, hAfter, hBehind,
              hParts, hBlanks, hOthers⟩
          refine
            ⟨(name, value) :: members, before,
              (space ++ (text ++ behind)) :: parts, blanks, ?_,
              hBefore, ?_, hBlanks, ?_⟩
          · rw [hAfter, hState]
            simp
          · exact ⟨_, parts, rfl,
              ⟨space, text, behind, hSpace, hText, hBehind, rfl⟩,
              hParts⟩
          · rw [hComma, hFront, hOthers, commaed_cons]
            simp only [List.cons_append, List.append_assoc]

theorem Spells.readMembers
    {depth : Nat}
    {cs rest : List Char}
    {after : List (String × Json)}
    (hSpells : Spells depth)
    (hRead :
      readMembers (JourneyMatch.pushMember (read depth)) [] cs
        = .ok (after, rest)) :
    ∃ parts blanks,
      SpelledMembers after.reverse parts
        ∧ Blanks blanks
        ∧ cs = joinCommas parts ++ (blanks ++ '}' :: rest) := by
  unfold JourneyMatch.readMembers at hRead
  have hFirst := hRead
  rw [JourneyMatch.readMembersWithin] at hFirst
  rcases Except.exists_of_bind_eq_ok hFirst with
    ⟨next, hNext, hMore⟩
  cases next with
  | closed others =>
      cases hMore
      rcases exists_of_nextKey_closed hNext with
        ⟨blanks, hBlanks, hText⟩
      exact ⟨[], blanks, rfl, hBlanks, hText⟩
  | key others =>
      rw [← readMembersWithin_of_first hNext] at hRead
      rcases hSpells.readMembersWithin hRead with
        ⟨members, before, parts, blanks, hAfter, hBefore,
          hParts, hBlanks, hText⟩
      rw [List.append_nil] at hAfter
      rw [hAfter, List.reverse_reverse]
      exact
        ⟨parts, blanks, hParts, hBlanks,
          eq_joinCommas_of_commaed hBefore hBlanks hText
            (by decide)⟩

/- What is read as a value spells it, behind blanks. -/
theorem spelled_of_read :
    (depth : Nat) →
    Spells depth
  | depth, cs, j, rest, hRead => by
      rcases exists_blanks cs with ⟨blanks, hBlanks, hText⟩
      refine ⟨blanks, ?_⟩
      rw [read] at hRead
      split at hRead
      · cases hRead
      · rename_i hFront
        rcases Except.exists_of_bind_eq_ok hRead with
          ⟨⟨_, others⟩, hWord, hEnd⟩
        cases hEnd
        rw [hFront, eq_of_readWord hWord] at hText
        exact ⟨nullText, hBlanks, rfl, hText⟩
      · rename_i hFront
        rcases Except.exists_of_bind_eq_ok hRead with
          ⟨⟨_, others⟩, hWord, hEnd⟩
        cases hEnd
        rw [hFront, eq_of_readWord hWord] at hText
        exact ⟨boolText true, hBlanks, rfl, hText⟩
      · rename_i hFront
        rcases Except.exists_of_bind_eq_ok hRead with
          ⟨⟨_, others⟩, hWord, hEnd⟩
        cases hEnd
        rw [hFront, eq_of_readWord hWord] at hText
        exact ⟨boolText false, hBlanks, rfl, hText⟩
      · rename_i hFront
        rcases Except.exists_of_bind_eq_ok hRead with
          ⟨⟨s, others⟩, hString, hEnd⟩
        cases hEnd
        rcases Quoted.takesFront_read _ _ _ hString with
          ⟨chars, hChars, hTakes⟩
        have hAlone := hTakes [] trivial
        rw [List.append_nil] at hAlone
        rw [hFront, hChars] at hText
        exact ⟨'"' :: chars, hBlanks, ⟨chars, rfl, hAlone⟩, hText⟩
      · rename_i hFront
        rcases Except.exists_of_bind_eq_ok hRead with
          ⟨⟨n, others⟩, hNumber, hEnd⟩
        cases hEnd
        rcases takesFront_readNumber true _ _ _ hNumber with
          ⟨digits, hDigits, hTakes⟩
        have hAlone := hTakes [] .nil
        rw [List.append_nil] at hAlone
        rw [hFront, hDigits] at hText
        exact ⟨'-' :: digits, hBlanks,
          .inr ⟨digits, rfl, hAlone⟩, hText⟩
      · rename_i hFront
        cases depth with
        | zero => cases hRead
        | succ depth =>
            rcases Except.exists_of_bind_eq_ok hRead with
              ⟨⟨items, others⟩, hItems, hEnd⟩
            cases hEnd
            rcases (spelled_of_read depth).readItems hItems with
              ⟨parts, space, hParts, hSpace, hInner⟩
            rw [hFront, hInner] at hText
            refine
              ⟨'[' :: (joinCommas parts ++ (space ++ [']'])),
                hBlanks, ⟨parts, space, hParts, hSpace, rfl⟩, ?_⟩
            rw [hText]
            simp only [List.cons_append, List.append_assoc,
              List.nil_append]
      · rename_i hFront
        cases depth with
        | zero => cases hRead
        | succ depth =>
            rcases Except.exists_of_bind_eq_ok hRead with
              ⟨⟨members, others⟩, hMembers, hEnd⟩
            cases hEnd
            rcases (spelled_of_read depth).readMembers hMembers
              with ⟨parts, space, hParts, hSpace, hInner⟩
            rw [hFront, hInner] at hText
            refine
              ⟨'{' :: (joinCommas parts ++ (space ++ ['}'])),
                hBlanks, ⟨parts, space, hParts, hSpace, rfl⟩, ?_⟩
            rw [hText]
            simp only [List.cons_append, List.append_assoc,
              List.nil_append]
      · rename_i hFront
        split at hRead
        · rcases Except.exists_of_bind_eq_ok hRead with
            ⟨⟨n, others⟩, hNumber, hEnd⟩
          cases hEnd
          rcases takesFront_readNumber false _ _ _ hNumber with
            ⟨digits, hDigits, hTakes⟩
          have hAlone := hTakes [] .nil
          rw [List.append_nil] at hAlone
          rw [hFront, hDigits] at hText
          exact ⟨digits, hBlanks, .inl hAlone, hText⟩
        · cases hRead

------------------------------------------------------------
-- Whole texts
------------------------------------------------------------

/-
  A whole text is read as a value if and only if it spells
  the value and is nested as far as allowed.
-/
theorem readWhole?_read_iff
    {depth : Nat}
    {text : String}
    {j : Json} :
    readWhole? (read depth) text = .ok j ↔
      Padded (Spelled j) text.toList ∧ j.depth ≤ depth := by
  constructor
  · intro hWhole
    rcases Except.exists_of_bind_eq_ok hWhole with
      ⟨⟨value, rest⟩, hRead, hMore⟩
    rcases Except.exists_of_bind_eq_ok hMore with
      ⟨_, hEnd, hSame⟩
    cases hSame
    rcases spelled_of_read depth _ _ _ hRead with
      ⟨blanks, front, hBlanks, hFront, hText⟩
    exact
      ⟨⟨blanks, front, rest, hBlanks, hFront,
          readEnd_eq_ok_iff.mp hEnd, hText⟩,
        (yields_read depth _ _ _ hRead).depth⟩
  · rintro ⟨⟨before, front, after, hBefore, hFront, hAfter,
      hText⟩, hDepth⟩
    have hStops : Stops after := by
      have hNothing := hAfter.stops_append Stops.nil
      rwa [List.append_nil] at hNothing
    have hRead :=
      readBack_of_depth_le j hDepth front after hFront hStops
    rw [readWhole?, hText, hBefore.read_append, hRead]
    simp only [bind, Except.bind, readEnd_eq_ok_iff.mpr hAfter]

/- A printed value with exact numbers spells it. -/
theorem spelled_write
    {j : Json}
    (hNumbers : ∀ n ∈ j.numbers, n.Exact) :
    Spelled j j.write := by
  have hReads := j.reads j.depth [] Delimited.nil
  rw [j.reread_eq hNumbers j.depth, unlessDeeper,
    if_pos (Nat.le_refl _)] at hReads
  rcases spelled_of_read j.depth _ _ _ hReads with
    ⟨blanks, text, hBlanks, hText, hWrite⟩
  rw [List.append_nil, List.append_nil] at hWrite
  -- A printed value does not begin with a blank.
  rcases j.beginsValue_write with ⟨c, tail, hFront, hBlank, -⟩
  cases blanks with
  | nil =>
      rw [hWrite]
      exact hText
  | cons d blanks =>
      rw [hFront] at hWrite
      cases hWrite
      rw [hBlanks c List.mem_cons_self] at hBlank
      cases hBlank

end Json

end JourneyMatch

import JourneyMatch.Proofs.Json.Spelling
import JourneyMatch.Proofs.Pending.Taking
import JourneyMatch.Proofs.Wire.Standing

/-
  This file says which texts are read as an event that was
  read before: the one that is printed for it, and every one
  that holds the same members, in any order and with any
  blanks, beside further members that are no fields. The tag
  may stand anywhere, since the other members are kept until
  the kind is known.

  Key definitions include:
    * `Envelope.Gathered`
    * `Event.Stands`

  Main statements:
    * `Envelope.read_of_object`
    * `Event.parse_of_stands`
    * `Event.parse_spelled`
-/

namespace JourneyMatch

------------------------------------------------------------
-- Envelopes and objects
------------------------------------------------------------

/- Packing a kind as the place of its name loses nothing. -/
theorem EventKind.ofPlace_place
    (k : EventKind) :
    ofPlace k.place = k := by
  cases k <;> rfl

/- A text that is read as a JSON value is read as a text. -/
theorem readText_of_read
    {depth : Nat}
    {cs rest : List Char}
    {s : String}
    (hRead : Json.read depth cs = .ok (.string s, rest)) :
    readText cs = .ok (s, rest) := by
  rcases Json.spelled_of_read depth _ _ _ hRead with
    ⟨blanks, text, hBlanks, hSpelled, hText⟩
  rw [Json.Spelled] at hSpelled
  rcases hSpelled with ⟨chars, hQuoted, hChars⟩
  have hTakes : Quoted.read (chars ++ rest) = .ok (s, rest) :=
    Quoted.takesFront_read.of_alone hChars trivial
  have hFront : isBlank '"' = false := by decide
  rw [readText, hText, hBlanks.skipBlanks_append, hQuoted,
    List.cons_append, skipBlanks_cons hFront]
  exact hTakes

/- The name of a kind is read as the kind. -/
theorem EventKind.read_of_read
    {depth : Nat}
    {cs rest : List Char}
    {kind : EventKind}
    (hRead :
      Json.read depth cs = .ok (.string kind.name, rest)) :
    EventKind.read cs = .ok (kind, rest) := by
  have hNodup : names.Nodup := by decide
  have hPlace : variant? names kind.name = .ok kind.place :=
    variant?_get hNodup kind.place
  simp only [EventKind.read, readVariantName,
    readText_of_read hRead, hPlace, ofPlace_place, bind,
    Except.bind]

/- What is read as an object begins with a brace. -/
theorem Json.exists_of_read_object
    {depth : Nat}
    {cs rest : List Char}
    {members : List (String × Json)}
    (hRead : read depth cs = .ok (.object members, rest)) :
    ∃ within tail,
      depth = within + 1
        ∧ skipBlanks cs = '{' :: tail
        ∧ readMembers (pushMember (read within)) [] tail
          = .ok (members.reverse, rest) := by
  have hDepth := (yields_read depth _ _ _ hRead).depth
  rcases spelled_of_read depth _ _ _ hRead with
    ⟨blanks, text, hBlanks, hSpelled, hText⟩
  rw [Spelled] at hSpelled
  rcases hSpelled with ⟨parts, space, hParts, hSpace, hBraced⟩
  obtain ⟨within, rfl⟩ :=
    Nat.exists_eq_succ_of_ne_zero (Nat.ne_zero_of_lt hDepth)
  refine
    ⟨within, joinCommas parts ++ (space ++ '}' :: rest), rfl,
      ?_, ?_⟩
  · have hFront : isBlank '{' = false := by decide
    rw [hText, hBlanks.skipBlanks_append, hBraced,
      List.cons_append, skipBlanks_cons hFront]
    simp only [List.append_assoc, List.singleton_append]
  · exact
      readMembers_of_spelled
        (readBack_members members (Nat.le_of_succ_le_succ hDepth))
        hParts hSpace rest

namespace Envelope

/-
  What becomes of an envelope when members are read one after
  the other: a tag with the name of a kind is taken for it if
  there is none, and every other member is kept.
-/
inductive Gathered :
    List (String × Json) → Partial → Partial → Prop where
  | nil
      (state : Partial) :
      Gathered [] state state
  | tag
      {kind : EventKind}
      {rest : List (String × Json)}
      {state after : Partial}
      (hFirst : state.kind = none)
      (hRest :
        Gathered rest { state with kind := some kind } after) :
      Gathered
        ((Event.tag, .string kind.name) :: rest) state after
  | other
      {key : String}
      {value : Json}
      {rest : List (String × Json)}
      {state after : Partial}
      (hKey : key ≠ Event.tag)
      (hRest :
        Gathered rest
          { state with
            members := (key, value) :: state.members }
          after) :
      Gathered ((key, value) :: rest) state after

theorem Gathered.append
    {first second : List (String × Json)}
    {state middle after : Partial}
    (hFirst : Gathered first state middle)
    (hSecond : Gathered second middle after) :
    Gathered (first ++ second) state after := by
  induction hFirst with
  | nil state => exact hSecond
  | tag hNone _ ih => exact .tag hNone (ih hSecond)
  | other hKey _ ih => exact .other hKey (ih hSecond)

/- Members that are no tags are all kept. -/
theorem gathered_of_others
    {members : List (String × Json)}
    (hOthers : ∀ member ∈ members, member.1 ≠ Event.tag)
    (state : Partial) :
    Gathered members state
      { state with members := members.reverse ++ state.members }
    := by
  induction members generalizing state with
  | nil => exact .nil state
  | cons member rest ih =>
      rcases member with ⟨key, value⟩
      have hRest :=
        ih (fun m hMem => hOthers m (List.mem_cons_of_mem _ hMem))
          { state with members := (key, value) :: state.members }
      rw [List.reverse_cons, List.append_assoc]
      exact .other (hOthers _ List.mem_cons_self) hRest

/- One tag, wherever it stands among other members. -/
theorem exists_gathered
    {kind : EventKind}
    {content members : List (String × Json)}
    (hOthers : ∀ member ∈ content, member.1 ≠ Event.tag)
    (hPerm :
      ((Event.tag, .string kind.name) :: content).Perm members) :
    ∃ kept,
      content.Perm kept
        ∧ Gathered members ⟨none, []⟩
          ⟨some kind, kept.reverse⟩ := by
  have hTag :
      (Event.tag, .string kind.name) ∈ members :=
    hPerm.mem_iff.mp List.mem_cons_self
  rcases List.append_of_mem hTag with ⟨before, after, hSplit⟩
  subst hSplit
  have hKept : content.Perm (before ++ after) :=
    (hPerm.trans List.perm_middle).cons_inv
  have hKeys :
      ∀ member ∈ before ++ after, member.1 ≠ Event.tag :=
    fun member hMem => hOthers member (hKept.mem_iff.mpr hMem)
  have hBefore :=
    gathered_of_others
      (fun member hMem =>
        hKeys member (List.mem_append_left after hMem))
      ⟨none, []⟩
  have hAfter :=
    gathered_of_others
      (fun member hMem =>
        hKeys member (List.mem_append_right before hMem))
      ⟨some kind, before.reverse ++ []⟩
  refine ⟨before ++ after, hKept, ?_⟩
  rw [List.reverse_append]
  rw [List.append_nil] at hBefore hAfter
  exact hBefore.append (.tag rfl hAfter)

/-
  An envelope is read like the object that it is: the members
  that are read of the object are gathered.
-/
theorem readMembersWithin_of_push
    {depth fuel : Nat}
    {first : Bool}
    {cs rest : List Char}
    {earlier all : List (String × Json)}
    (hRead :
      readMembersWithin (pushMember (Json.read depth)) fuel first
          earlier cs
        = .ok (all, rest)) :
    ∃ members,
      all = members.reverse ++ earlier
        ∧ ∀ state after,
          Gathered members state after →
            readMembersWithin (readMember depth) fuel first
                state cs
              = .ok (after, rest) := by
  induction fuel generalizing first cs earlier with
  | zero => cases hRead
  | succ fuel ih =>
      rw [readMembersWithin] at hRead
      rcases Except.exists_of_bind_eq_ok hRead with
        ⟨next, hNext, hMore⟩
      cases next with
      | closed others =>
          cases hMore
          refine ⟨[], rfl, ?_⟩
          intro state after hGathered
          cases hGathered
          rw [readMembersWithin, hNext]
          rfl
      | key others =>
          rcases Except.exists_of_bind_eq_ok hMore with
            ⟨⟨key, afterKey⟩, hKey, hLast⟩
          rcases Except.exists_of_bind_eq_ok hLast with
            ⟨⟨pushed, afterOne⟩, hPush, hOthers⟩
          rcases Except.exists_of_bind_eq_ok hPush with
            ⟨⟨_, afterColon⟩, hColon, hValue⟩
          rcases Except.exists_of_bind_eq_ok hValue with
            ⟨⟨value, afterValue⟩, hJson, hEnd⟩
          cases hEnd
          rcases ih hOthers with ⟨members, hAll, hGather⟩
          refine ⟨(key, value) :: members, ?_, ?_⟩
          · rw [hAll]
            simp
          · intro state after hGathered
            rw [readMembersWithin, hNext]
            simp only [bind, Except.bind, hKey]
            cases hGathered with
            | tag hNone hRest =>
                have hKind := EventKind.read_of_read hJson
                simp only [readMember, if_true, hNone,
                  Option.isSome_none, Bool.false_eq_true,
                  if_false, hColon, hKind, bind, Except.bind]
                exact hGather _ _ hRest
            | other hOther hRest =>
                simp only [readMember, if_neg hOther,
                  pushMember, hColon, hJson, bind, Except.bind]
                exact hGather _ _ hRest

/- An object with one tag is read as an envelope. -/
theorem read_of_object
    {depth : Nat}
    {cs rest : List Char}
    {kind : EventKind}
    {members kept : List (String × Json)}
    (hRead : Json.read depth cs = .ok (.object members, rest))
    (hGathered :
      Gathered members ⟨none, []⟩ ⟨some kind, kept.reverse⟩) :
    read depth cs = .ok (⟨kind, .object kept⟩, rest) := by
  rcases Json.exists_of_read_object hRead with
    ⟨within, tail, hDepth, hFront, hMembers⟩
  subst hDepth
  rcases readMembersWithin_of_push hMembers with
    ⟨found, hFound, hGather⟩
  rw [List.append_nil, List.reverse_inj] at hFound
  subst hFound
  have hObject :
      readMembers (readMember within) ⟨none, []⟩ tail
        = .ok (⟨some kind, kept.reverse⟩, rest) :=
    hGather _ _ hGathered
  unfold read
  rw [hFront]
  simp only [readObject, hObject, bind, Except.bind,
    List.reverse_reverse]

end Envelope

------------------------------------------------------------
-- What stands for an event
------------------------------------------------------------

namespace Event

/- The fields of the message of an event. -/
def fields : Event → Fields
  | .sent _ => Sent.fields
  | .received _ => Received.fields
  | .relayed _ => Relayed.fields

/- The message of an event as the values of its fields. -/
def packed :
    (e : Event) → e.fields.Carrier
  | .sent m => Wire.pack m
  | .received m => Wire.pack m
  | .relayed m => Wire.pack m

/-
  Whether JSON stands for an event: an object with the tag,
  the members for its fields and others, in any order.
-/
def Stands
    (e : Event)
    (j : Json) : Prop :=
  ∃ own others members,
    j = .object members
      ∧ e.fields.Stands e.packed own
      ∧ (∀ member ∈ others,
        member.1 ∉ e.fields.names ∧ member.1 ≠ tag)
      ∧ ((tag, .string e.kind.name) :: (own ++ others)).Perm
        members

/- The JSON that is printed for an event. -/
def tagged
    (e : Event) : Json :=
  .object
    ((tag, .string e.kind.name) :: e.fields.json e.packed)

theorem write_tagged
    (e : Event) :
    e.tagged.write = e.write := by
  have hFields :
      Json.writeMembers (e.fields.json e.packed)
        = e.writeFields := by
    cases e <;> exact Fields.write_json _ _
  rw [tagged, Json.write, Json.writeMembers, hFields]
  rfl

theorem stands_tagged
    (e : Event) :
    e.Stands e.tagged :=
  ⟨e.fields.json e.packed, [], _, rfl, e.fields.stands_json _,
    by simp, by rw [List.append_nil]⟩

theorem json_eq
    (e : Event) :
    e.json = .object (e.fields.json e.packed) := by
  cases e <;> rfl

/- The tag is not nested. -/
theorem depth_tagged
    (e : Event) :
    e.tagged.depth = e.json.depth := by
  rw [json_eq, tagged, Json.depth, Json.depth,
    Json.depthMembers, Json.depth, Nat.zero_max]

theorem Decoded.fields
    {depth : Nat}
    {e : Event}
    (hDecoded : e.Decoded depth) :
    (Shape.record e.fields).Decoded depth e.packed := by
  cases e with
  | sent m => exact hDecoded
  | received m => exact hDecoded
  | relayed m => exact hDecoded

/- No field of a message has the name of the tag. -/
theorem tag_notMem_names
    (e : Event) :
    tag ∉ e.fields.names := by
  have hSent : tag ∉ Sent.fields.names := by decide
  have hReceived : tag ∉ Received.fields.names := by decide
  have hRelayed : tag ∉ Relayed.fields.names := by decide
  cases e with
  | sent m => exact hSent
  | received m => exact hReceived
  | relayed m => exact hRelayed

------------------------------------------------------------
-- What stands for an event is read as it
------------------------------------------------------------

/- The members of a message, beside others, are decoded. -/
theorem open?_of_stands
    {depth : Nat}
    {e : Event}
    {content : Json}
    (hDecoded : e.Decoded depth)
    (hStands : (Shape.record e.fields).Stands e.packed content) :
    Envelope.open? ⟨e.kind, content⟩ = .ok e := by
  have hHolds := hDecoded.fields.holds
  cases e with
  | sent m =>
      have hDecode :=
        (Wire.shape Sent).decode_of_stands (by decide)
          (by decide) (Wire.pack m) hHolds hStands
      simp only [Envelope.open?, kind, Wire.decode, hDecode,
        Except.map, Wire.unpack_pack]
  | received m =>
      have hDecode :=
        (Wire.shape Received).decode_of_stands (by decide)
          (by decide) (Wire.pack m) hHolds hStands
      simp only [Envelope.open?, kind, Wire.decode, hDecode,
        Except.map, Wire.unpack_pack]
  | relayed m =>
      have hDecode :=
        (Wire.shape Relayed).decode_of_stands (by decide)
          (by decide) (Wire.pack m) hHolds hStands
      simp only [Envelope.open?, kind, Wire.decode, hDecode,
        Except.map, Wire.unpack_pack]

/-
  A text that spells what stands for an event, nested as far
  as allowed, is read as the event.
-/
theorem parse_of_stands
    {depth : Nat}
    {e : Event}
    {j : Json}
    {text : String}
    (hDecoded : e.Decoded depth)
    (hStands : e.Stands j)
    (hDepth : j.depth ≤ greatestDepth)
    (hText : Json.Padded (Json.Spelled j) text.toList) :
    parse text = .ok e := by
  rcases hStands with
    ⟨own, others, members, hSame, hOwn, hOthers, hPerm⟩
  subst hSame
  have hWhole :=
    Json.readWhole?_read_iff.mpr ⟨hText, hDepth⟩
  rcases Except.exists_of_bind_eq_ok hWhole with
    ⟨⟨value, rest⟩, hRead, hMore⟩
  rcases Except.exists_of_bind_eq_ok hMore with ⟨_, hEnd, hSame⟩
  cases hSame
  -- No member but the tag has its name.
  have hKeys :
      ∀ member ∈ own ++ others, member.1 ≠ tag := by
    intro member hMem
    rcases List.mem_append.mp hMem with hIn | hOut
    · intro hEq
      exact e.tag_notMem_names
        (hEq ▸ e.fields.mem_names_of_stands hOwn member hIn)
    · exact (hOthers member hOut).2
  rcases Envelope.exists_gathered hKeys hPerm with
    ⟨kept, hKept, hGathered⟩
  have hEnvelope := Envelope.read_of_object hRead hGathered
  have hOpen :=
    open?_of_stands hDecoded
      ⟨own, others, kept, rfl, hOwn,
        fun member hMem => (hOthers member hMem).1, hKept⟩
  simp only [parse, readWhole?, Event.read, hEnvelope, hOpen,
    fromMismatch, hEnd, bind, Except.bind]

/- A printed event without doubles is read as it was. -/
theorem parse_text
    {e : Event}
    (hDecoded : e.Decoded greatestDepth)
    (hFree : e.DoubleFree) :
    parse e.text = .ok e := by
  have hExact :
      ∀ n ∈ e.tagged.numbers, n.Exact := by
    have hIntegers := hFree
    rw [DoubleFree, json_eq] at hIntegers
    exact
      Shape.exact_of_holds (.record e.fields) e.packed
        (hDecoded.fields.holds_exact hIntegers)
  have hSpelled := Json.spelled_write hExact
  rw [write_tagged] at hSpelled
  refine
    parse_of_stands hDecoded e.stands_tagged ?_
      ⟨[], e.write, [], .nil, hSpelled, .nil, ?_⟩
  · rw [depth_tagged]
    exact hDecoded.depth_le
  · rw [text, String.toList_ofList, List.nil_append,
      List.append_nil]

/-
  An event that was read from some text and has no doubles is
  read again from the text that is printed for it, and from
  every text, nested as far as allowed, that spells the same
  members: in any order in each of its objects, with any
  blanks between tokens, and beside any members that are no
  fields in the objects that have fields.
-/
theorem parse_spelled
    {source : String}
    {e : Event}
    (hParse : parse source = .ok e)
    (hFree : e.DoubleFree) :
    parse e.text = .ok e
      ∧ ∀ j text,
        e.Stands j →
          j.depth ≤ greatestDepth →
            Json.Padded (Json.Spelled j) text.toList →
              parse text = .ok e := by
  have hDecoded := decoded_of_parse hParse
  refine ⟨parse_text hDecoded hFree, ?_⟩
  intro j text hStands hDepth hText
  exact parse_of_stands hDecoded hStands hDepth hText

/- The members of a message seen before, one by one. -/
def seenMembers : List (String × Json) :=
  [ ("subscriptionId", .string "journeys"),
    ("messageHash", .string "0x01"),
    ("chainId", .string "target"),
    ("blockHash", .string "0xcafe"),
    ("blockNumber", .number (.integer 9)),
    ("outcome", .string "Success"),
    ("event", .null) ]

/-
  The message with its members in the opposite order, the tag
  last, behind one that is no field.
-/
def seenBackwards : Json :=
  .object
    ((tag, .string "xcm.received")
      :: (seenMembers ++ [("note", .array [.null])])).reverse

theorem parse_spelled_seenReceived :
    let e := received seenReceived
    let text := String.ofList ('\n' :: (seenBackwards.write ++ [' ']))
    parse e.text = .ok e
      ∧ e.DoubleFree
      ∧ e.Stands seenBackwards
      ∧ seenBackwards.depth ≤ greatestDepth
      ∧ Json.Padded (Json.Spelled seenBackwards) text.toList
      ∧ parse text = .ok e := by
  intro e text
  have hFree : e.DoubleFree := by decide +kernel
  have hNull : Json.null.AsRead := ⟨trivial, nofun⟩
  have hDecoded : e.Decoded greatestDepth :=
    ⟨⟨trivial, trivial, trivial, trivial, trivial, trivial,
        trivial, trivial, trivial, trivial, hNull, trivial⟩,
      by decide⟩
  have hParse := parse_text hDecoded hFree
  have hStands : e.Stands seenBackwards :=
    ⟨seenMembers, [("note", .array [.null])], _, rfl,
      Fields.stands_json Received.fields
        (Wire.pack seenReceived),
      by decide, (List.reverse_perm _).symm⟩
  have hDepth : seenBackwards.depth ≤ greatestDepth := by
    decide
  have hNumbers : ∀ n ∈ seenBackwards.numbers, n.Exact := by
    have hNine :
        ∀ n ∈ seenBackwards.numbers, n = .integer 9 := by
      decide
    intro n hMem
    exact ⟨9, hNine n hMem, by constructor <;> decide⟩
  have hText :
      Json.Padded (Json.Spelled seenBackwards) text.toList := by
    refine
      ⟨['\n'], seenBackwards.write, [' '], by decide,
        Json.spelled_write hNumbers, by decide, ?_⟩
    exact String.toList_ofList
  exact
    ⟨hParse, hFree, hStands, hDepth, hText,
      (parse_spelled hParse hFree).2 _ _ hStands hDepth hText⟩

end Event

end JourneyMatch

import JourneyMatch.Proofs.Json.Accepted
import JourneyMatch.Proofs.Pending.Decoding
import JourneyMatch.Proofs.Wire.Decoding

/-
  This file says what becomes of an event that was read, once
  it is stored. Its text may be nested as far as any text,
  but its record is nested one level more. If the event has
  no doubles, that level alone decides whether the record is
  read as it was.

  Key definitions include:
    * `Number.IsInteger`
    * `Event.DoubleFree`

  Main statements:
    * `Envelope.yields_read`
    * `Event.depth_le_of_parse`
    * `Event.reread_of_parse`
-/

namespace JourneyMatch

------------------------------------------------------------
-- Packing what was unpacked
------------------------------------------------------------

theorem Outcome.place_ofPlace
    (i : Fin Outcome.names.length) :
    (Outcome.ofPlace i).place = i := by
  rcases i with ⟨_ | _ | i, hBound⟩
  · rfl
  · rfl
  · exact absurd hBound (by simp [Outcome.names])

theorem LegType.place_ofPlace
    (i : Fin LegType.names.length) :
    (LegType.ofPlace i).place = i := by
  rcases i with ⟨_ | _ | _ | i, hBound⟩
  · rfl
  · rfl
  · rfl
  · exact absurd hBound (by simp [LegType.names])

theorem Waypoint.pack_unpack
    (x : (Wire.shape Waypoint).Carrier) :
    Wire.pack (Wire.unpack x : Waypoint) = x := by
  rcases x with
    ⟨chain, hash, number, timestamp, outcome, error, event, _⟩
  change
    (chain, hash, number, timestamp,
      (Outcome.ofPlace outcome).place, error, event, ()) = _
  rw [Outcome.place_ofPlace]

theorem Leg.pack_unpack
    (x : Leg.fields.Carrier) :
    (Leg.unpack x).pack = x := by
  rcases x with ⟨source, target, legType, relay, _⟩
  have hRelay :
      (relay.map ChainId.mk).map ChainId.text = relay := by
    cases relay <;> rfl
  change
    (source, target, (LegType.ofPlace legType).place,
      (relay.map ChainId.mk).map ChainId.text, ()) = _
  rw [LegType.place_ofPlace, hRelay]

theorem Leg.map_pack_unpack
    (xs : List Leg.fields.Carrier) :
    (xs.map Leg.unpack).map Leg.pack = xs := by
  induction xs with
  | nil => rfl
  | cons x xs ih =>
      rw [List.map_cons, List.map_cons, Leg.pack_unpack, ih]

theorem Sent.pack_unpack
    (x : (Wire.shape Sent).Carrier) :
    Wire.pack (Wire.unpack x : Sent) = x := by
  rcases x with
    ⟨subscription, hash, topic, legs, index, sender, origin,
      waypoint, destination, _⟩
  have hLegs := Leg.map_pack_unpack legs
  have hOrigin := Waypoint.pack_unpack origin
  have hWaypoint := Waypoint.pack_unpack waypoint
  change
    (subscription, hash, topic,
      (legs.map Leg.unpack).map Leg.pack, index, sender,
      Wire.pack (Wire.unpack origin : Waypoint),
      Wire.pack (Wire.unpack waypoint : Waypoint),
      destination, ()) = _
  rw [hLegs, hOrigin, hWaypoint]

theorem Received.pack_unpack
    (x : (Wire.shape Received).Carrier) :
    Wire.pack (Wire.unpack x : Received) = x := by
  rcases x with
    ⟨subscription, hash, topic, chain, block, number, timestamp,
      outcome, error, assets, event, _⟩
  change
    (subscription, hash, topic, chain, block, number, timestamp,
      (Outcome.ofPlace outcome).place, error, assets, event,
      ()) = _
  rw [Outcome.place_ofPlace]

theorem Relayed.pack_unpack
    (x : (Wire.shape Relayed).Carrier) :
    Wire.pack (Wire.unpack x : Relayed) = x := by
  rcases x with
    ⟨subscription, hash, topic, chain, recipient, index, block,
      number, timestamp, outcome, error, event, _⟩
  change
    (subscription, hash, topic, chain, recipient, index, block,
      number, timestamp, (Outcome.ofPlace outcome).place, error,
      event, ()) = _
  rw [Outcome.place_ofPlace]

------------------------------------------------------------
-- Messages that were decoded
------------------------------------------------------------

/- Whether a number is an integer. -/
def Number.IsInteger
    (n : Number) : Prop :=
  ∃ value, n = .integer value

theorem Number.Kept.exact
    {n : Number}
    (hKept : n.Kept)
    (hInteger : n.IsInteger) :
    n.Exact := by
  rcases hInteger with ⟨value, hValue⟩
  subst hValue
  exact ⟨value, rfl, hKept⟩

/- Without doubles, what is decoded has exact numbers. -/
theorem Shape.Decoded.holds_exact
    {depth : Nat}
    {shape : Shape}
    {x : shape.Carrier}
    (hDecoded : shape.Decoded depth x)
    (hIntegers : ∀ n ∈ (shape.json x).numbers, n.IsInteger) :
    shape.Holds Json.Exact x := by
  have hExact :
      ∀ j : Json,
        j.AsRead → (∀ n ∈ j.numbers, n.IsInteger) → j.Exact :=
    fun j hRead hNumbers =>
      ⟨hRead.settled, fun n hMem =>
        (hRead.numbers n hMem).exact (hNumbers n hMem)⟩
  exact
    shape.holds_of_numbers hExact x hDecoded.holds hIntegers

namespace Wire

variable {α : Type} [Wire α]

/- What is decoded is as reading leaves it. -/
theorem decoded_of_decode
    {depth : Nat}
    {j : Json}
    {x : α}
    (hPack :
      ∀ y : (shape α).Carrier, pack (unpack y : α) = y)
    (hKept : j.KeptWithin depth)
    (hDecode : decode α j = .ok x) :
    (shape α).Decoded depth (pack x) := by
  unfold decode at hDecode
  cases hShape : (shape α).decode j with
  | error cause =>
      rw [hShape] at hDecode
      cases hDecode
  | ok y =>
      rw [hShape] at hDecode
      cases hDecode
      rw [hPack]
      exact (shape α).decoded_of_decode hKept hShape

/- Without doubles, its nesting decides whether it is reread. -/
theorem reread_eq_of_decoded
    {depth : Nat}
    {x : α}
    (hRegular : (shape α).regular = true)
    (hDecoded : (shape α).Decoded depth (pack x))
    (hIntegers : ∀ n ∈ (json x).numbers, n.IsInteger)
    (allowed : Nat) :
    reread allowed x
      = unlessDeeper (json x).depth allowed x := by
  have hHolds := hDecoded.holds_exact hIntegers
  unfold reread
  rw [(shape α).reread_eq hRegular (pack x) hHolds allowed,
    map_unlessDeeper, unpack_pack]
  rfl

end Wire

------------------------------------------------------------
-- Envelopes
------------------------------------------------------------

namespace Envelope

theorem yields_readObject
    (depth : Nat) :
    Yields (readObject depth)
      fun v => v.content.KeptWithin (depth + 1) := by
  intro cs v rest hRead
  rcases Except.exists_of_bind_eq_ok hRead with
    ⟨⟨read, others⟩, hMembers, hRest⟩
  -- Every member but the kind is kept as a JSON value.
  have hMember :
      ∀ (key : String) (state : Partial),
        (∀ m ∈ state.members, m.2.KeptWithin depth) →
          Yields (readMember depth key state)
            fun after =>
              ∀ m ∈ after.members, m.2.KeptWithin depth := by
    intro key state hBefore cs after rest hOne
    unfold readMember at hOne
    split at hOne
    · split at hOne
      · cases hOne
      · rcases Except.exists_of_bind_eq_ok hOne with
          ⟨colon, -, hName⟩
        rcases Except.exists_of_bind_eq_ok hName with
          ⟨kind, -, hEnd⟩
        cases hEnd
        exact hBefore
    · rcases Except.exists_of_bind_eq_ok hOne with
        ⟨⟨members, others⟩, hPush, hEnd⟩
      cases hEnd
      exact
        (Json.yields_read depth).pushMember key hBefore
          _ _ _ hPush
  have hKept :=
    Yields.readMembers hMember (by simp) _ _ _ hMembers
  simp only at hRest
  split at hRest
  · cases hRest
  · cases hRest
    exact .object fun m hMem =>
      hKept m (List.mem_reverse.mp hMem)

theorem yields_readArray
    (depth : Nat) :
    Yields (readArray depth)
      fun v => v.content.KeptWithin (depth + 1) := by
  intro cs v rest hRead
  rcases Except.exists_of_bind_eq_ok hRead with
    ⟨next, -, hRest⟩
  cases next with
  | none => cases hRest
  | some cs =>
      rcases Except.exists_of_bind_eq_ok hRest with
        ⟨⟨kind, others⟩, -, hItems⟩
      rcases Except.exists_of_bind_eq_ok hItems with
        ⟨⟨items, last⟩, hValues, hEnd⟩
      cases hEnd
      exact .array
        ((Json.yields_read depth).readItemsWithin _ _ _ _ _
          hValues)

/- What is read of an envelope is nested as far as allowed. -/
theorem yields_read
    (depth : Nat) :
    Yields (read depth) fun v => v.content.KeptWithin depth := by
  intro cs v rest hRead
  unfold read at hRead
  split at hRead
  · cases hRead
  · exact yields_readObject _ _ _ _ hRead
  · cases hRead
  · exact yields_readArray _ _ _ _ hRead
  · cases hRead

end Envelope

------------------------------------------------------------
-- Events
------------------------------------------------------------

namespace Event

/- An event that was read was decoded from an envelope. -/
theorem exists_envelope
    {text : String}
    {e : Event}
    (hParse : parse text = .ok e) :
    ∃ envelope : Envelope,
      envelope.content.KeptWithin greatestDepth
        ∧ envelope.open? = .ok e := by
  rcases Except.exists_of_bind_eq_ok hParse with
    ⟨⟨event, rest⟩, hRead, hEnd⟩
  rcases Except.exists_of_bind_eq_ok hEnd with
    ⟨_, -, hSame⟩
  cases hSame
  rcases Except.exists_of_bind_eq_ok hRead with
    ⟨⟨envelope, others⟩, hEnvelope, hOpen⟩
  refine ⟨envelope, Envelope.yields_read _ _ _ _ hEnvelope, ?_⟩
  cases hDecode : envelope.open? with
  | error cause => simp [hDecode, fromMismatch, bind,
      Except.bind] at hOpen
  | ok event =>
      simp only [hDecode, fromMismatch, bind, Except.bind]
        at hOpen
      cases hOpen
      rfl

/-
  Whether the message of an event is as reading leaves it,
  and nested so far at most.
-/
def Decoded
    (depth : Nat) : Event → Prop
  | .sent m => (Wire.shape Sent).Decoded depth (Wire.pack m)
  | .received m =>
      (Wire.shape Received).Decoded depth (Wire.pack m)
  | .relayed m =>
      (Wire.shape Relayed).Decoded depth (Wire.pack m)

/- What was decoded from an envelope is as reading leaves it. -/
theorem decoded_of_open?
    {depth : Nat}
    {envelope : Envelope}
    {e : Event}
    (hKept : envelope.content.KeptWithin depth)
    (hOpen : envelope.open? = .ok e) :
    e.Decoded depth := by
  unfold Envelope.open? at hOpen
  split at hOpen
  · cases hDecode : Wire.decode Sent envelope.content with
    | error cause =>
        rw [hDecode] at hOpen
        cases hOpen
    | ok m =>
        rw [hDecode] at hOpen
        cases hOpen
        exact
          Wire.decoded_of_decode Sent.pack_unpack hKept hDecode
  · cases hDecode : Wire.decode Received envelope.content with
    | error cause =>
        rw [hDecode] at hOpen
        cases hOpen
    | ok m =>
        rw [hDecode] at hOpen
        cases hOpen
        exact
          Wire.decoded_of_decode Received.pack_unpack hKept
            hDecode
  · cases hDecode : Wire.decode Relayed envelope.content with
    | error cause =>
        rw [hDecode] at hOpen
        cases hOpen
    | ok m =>
        rw [hDecode] at hOpen
        cases hOpen
        exact
          Wire.decoded_of_decode Relayed.pack_unpack hKept
            hDecode

theorem decoded_of_parse
    {text : String}
    {e : Event}
    (hParse : parse text = .ok e) :
    e.Decoded greatestDepth := by
  rcases exists_envelope hParse with ⟨envelope, hKept, hOpen⟩
  exact decoded_of_open? hKept hOpen

theorem Decoded.depth_le
    {depth : Nat}
    {e : Event}
    (hDecoded : e.Decoded depth) :
    e.json.depth ≤ depth := by
  cases e with
  | sent m => exact Shape.Decoded.depth hDecoded
  | received m => exact Shape.Decoded.depth hDecoded
  | relayed m => exact Shape.Decoded.depth hDecoded

/- An event that was read is nested as far as any text. -/
theorem depth_le_of_parse
    {text : String}
    {e : Event}
    (hParse : parse text = .ok e) :
    e.json.depth ≤ greatestDepth :=
  (decoded_of_parse hParse).depth_le

/- Whether all numbers in the message are integers. -/
def DoubleFree
    (e : Event) : Prop :=
  ∀ n ∈ e.json.numbers, n.IsInteger

theorem Decoded.reread_eq
    {depth : Nat}
    {e : Event}
    (hDecoded : e.Decoded depth)
    (hFree : e.DoubleFree) :
    e.reread
      = if e.json.depth ≤ 126 then
          .ok e
        else
          .error (.codec (.malformed .tooDeep)) := by
  cases e with
  | sent m =>
      have hReread :=
        Wire.reread_eq_of_decoded (by decide) hDecoded hFree 126
      rw [reread, hReread, unlessDeeper, json]
      by_cases hDepth : (Wire.json m).depth ≤ 126 <;>
        simp only [hDepth, if_true, if_false]
  | received m =>
      have hReread :=
        Wire.reread_eq_of_decoded (by decide) hDecoded hFree 126
      rw [reread, hReread, unlessDeeper, json]
      by_cases hDepth : (Wire.json m).depth ≤ 126 <;>
        simp only [hDepth, if_true, if_false]
  | relayed m =>
      have hReread :=
        Wire.reread_eq_of_decoded (by decide) hDecoded hFree 126
      rw [reread, hReread, unlessDeeper, json]
      by_cases hDepth : (Wire.json m).depth ≤ 126 <;>
        simp only [hDepth, if_true, if_false]

/-
  The record of an event that was read, and that has no
  doubles, is read as it was, unless it is too deep.
-/
theorem reread_of_parse
    {text : String}
    {e : Event}
    (hParse : parse text = .ok e)
    (hFree : e.DoubleFree) :
    e.reread
      = if e.json.depth ≤ 126 then
          .ok e
        else
          .error (.codec (.malformed .tooDeep)) :=
  (decoded_of_parse hParse).reread_eq hFree

end Event

end JourneyMatch

import JourneyMatch.Proofs.Pending.Decoding

/-
  This file says that the legs of a sent message survive in
  its record: whatever is read of the record has the same
  legs and the same index among them.

  Main statements:
    * `Sent.legs_of_reread`
    * `Event.sent_of_reread`
-/

namespace JourneyMatch

------------------------------------------------------------
-- Legs
------------------------------------------------------------

/- No part of a leg is without a shape. -/
theorem Leg.holds
    (P : Json → Prop)
    (x : Leg.fields.Carrier) :
    (Shape.record Leg.fields).Holds P x := by
  rcases x with ⟨source, target, legType, relay, ⟨⟩⟩
  refine ⟨trivial, trivial, trivial, ?_, trivial⟩
  cases relay with
  | none => trivial
  | some chain => exact ⟨trivial, nofun⟩

/- Whatever is read of a sent message has the same legs. -/
theorem Sent.legs_of_reread
    {m x : Sent}
    {depth : Nat}
    (hReread : Wire.reread depth m = .ok x) :
    x.legs = m.legs ∧ x.legIndex = m.legIndex := by
  rcases Wire.exists_of_reread hReread with ⟨y, hShape, hSame⟩
  subst hSame
  rcases Shape.exists_slots_of_reread hShape with
    ⟨depth, slots, -, hSlots, hClose⟩
  have hText :
      ∀ s, Shape.text.Holds Json.Exact s :=
    fun _ => trivial
  have hWord :
      ∀ n, Shape.word64.Holds Json.Exact n :=
    fun _ => trivial
  have hTopic :
      (Shape.optional .text).Holds Json.Exact
        m.messageId := by
    cases m.messageId with
    | none => trivial
    | some topic => exact ⟨trivial, nofun⟩
  have hLegs :
      (Shape.list (.record Leg.fields)).Holds
        Json.Exact (m.legs.map Leg.pack) :=
    fun l _ => Leg.holds Json.Exact l
  -- The fields stand in their order up to the index.
  rcases Fields.close_rereadSlots_cons rfl rfl
      (hText m.subscription) hSlots hClose with
    ⟨-, slots, hSlots, hClose⟩
  rcases Fields.close_rereadSlots_cons rfl rfl
      (hText m.messageHash) hSlots hClose with
    ⟨-, slots, hSlots, hClose⟩
  rcases Fields.close_rereadSlots_cons rfl rfl hTopic
      hSlots hClose with
    ⟨-, slots, hSlots, hClose⟩
  rcases Fields.close_rereadSlots_cons rfl (by decide)
      hLegs hSlots hClose with
    ⟨hSame, slots, hSlots, hClose⟩
  rcases Fields.close_rereadSlots_cons rfl rfl
      (hWord m.legIndex) hSlots hClose with
    ⟨hIndex, -⟩
  constructor
  · change y.2.2.2.1.map Leg.unpack = m.legs
    rw [hSame]
    exact Leg.map_unpack_pack m.legs
  · exact hIndex

/- Whatever is read of a sent message's record is one. -/
theorem Event.sent_of_reread
    {m : Sent}
    {e : Event}
    (hReread : (Event.sent m).reread = .ok e) :
    ∃ x : Sent,
      e = .sent x
        ∧ x.legs = m.legs
        ∧ x.legIndex = m.legIndex := by
  cases hMessage : Wire.reread 126 m with
  | error cause => simp [reread, hMessage] at hReread
  | ok x =>
      simp only [reread, hMessage] at hReread
      cases hReread
      exact ⟨x, rfl, Sent.legs_of_reread hMessage⟩

end JourneyMatch

import JourneyMatch.Proofs.Matcher.Meeting

/-
  This file says how a meeting goes where it is known what
  waits under the key: nothing, the other side of the leg, or
  a record that does not decode.

  Main statements:
    * `Matcher.Meeting.of_empty`
    * `Matcher.Meeting.of_alone`
    * `Matcher.Meeting.of_unread`
    * `Matcher.Meeting.of_received`
    * `Matcher.Meeting.of_sent`
-/

namespace JourneyMatch

namespace Matcher

namespace Meeting

variable {now : Readings}
variable {key : String}
variable {m after : Matcher}
variable {e : Event}
variable {reply : Reply}

/- An event that finds nothing under its key waits there. -/
theorem of_empty
    (hMeeting : Meeting now key m e reply after)
    (hEmpty : ∀ n, Pending.text? n key m.store = none) :
    reply = ⟨.ok .pending, []⟩
      ∧ after = m.stored now key e := by
  have hNone : ∀ n, Pending.record? n key m.store = .ok none :=
    fun n => Pending.record?_of_text?_eq_none (hEmpty n)
  cases hMeeting with
  | unread hRead =>
      rw [hNone] at hRead
      cases hRead
  | unreadRelay _ hRead =>
      rw [hNone] at hRead
      cases hRead
  | sentMatched hInbound =>
      rw [hNone] at hInbound
      cases hInbound
  | @sentWaits message relayed old _ hRelayed hOld =>
      rw [hNone] at hRelayed hOld
      cases hOld
      cases relayed with
      | some r => cases hRelayed
      | none => exact ⟨rfl, rfl⟩
  | receivedMatched hOutbound =>
      rw [hNone] at hOutbound
      cases hOutbound
  | receivedWaits _ hOld =>
      rw [hNone] at hOld
      cases hOld
      exact ⟨rfl, rfl⟩
  | relayedTold hOutbound =>
      rw [hNone] at hOutbound
      cases hOutbound
  | relayedWaits _ hOld =>
      rw [hNone] at hOld
      cases hOld
      exact ⟨rfl, rfl⟩
  | overwritten _ _ hOwn =>
      rw [hNone] at hOwn
      cases hOwn

/-
  An event that was not sent, and whose counterpart is
  missing, waits in place of what stood there before.
-/
theorem of_alone
    {old : Option (PendingRecord Event)}
    (hMeeting : Meeting now key m e reply after)
    (hName : e.nameSpace ≠ .awaitingDestination)
    (hAlone :
      Pending.record? e.counterpart key m.store = .ok none)
    (hOld :
      Pending.record? e.nameSpace key m.store = .ok old) :
    reply = ⟨.ok .pending, []⟩
      ∧ after = (m.stored now key e).cancelOld old := by
  cases hMeeting with
  | unread hRead => cases hAlone.symm.trans hRead
  | unreadRelay => exact absurd rfl hName
  | sentMatched => exact absurd rfl hName
  | sentWaits => exact absurd rfl hName
  | receivedMatched hOutbound =>
      cases hAlone.symm.trans hOutbound
  | receivedWaits _ hOwn =>
      cases hOld.symm.trans hOwn
      exact ⟨rfl, rfl⟩
  | relayedTold hOutbound =>
      cases hAlone.symm.trans hOutbound
  | relayedWaits _ hOwn =>
      cases hOld.symm.trans hOwn
      exact ⟨rfl, rfl⟩
  | overwritten _ _ hOwn => cases hOld.symm.trans hOwn

/- An event whose other side does not decode fails. -/
theorem of_unread
    {cause : StoreError}
    (hMeeting : Meeting now key m e reply after)
    (hRead :
      Pending.record? e.counterpart key m.store
        = .error cause) :
    reply = .failed cause ∧ after = m := by
  cases hMeeting with
  | unread hOther =>
      rw [hRead] at hOther
      cases hOther
      exact ⟨rfl, rfl⟩
  | unreadRelay hInbound =>
      cases hRead.symm.trans hInbound
  | sentMatched hInbound => cases hRead.symm.trans hInbound
  | sentWaits hInbound => cases hRead.symm.trans hInbound
  | receivedMatched hOutbound =>
      cases hRead.symm.trans hOutbound
  | receivedWaits hOutbound => cases hRead.symm.trans hOutbound
  | relayedTold hOutbound => cases hRead.symm.trans hOutbound
  | relayedWaits hOutbound => cases hRead.symm.trans hOutbound
  | overwritten hCounterpart =>
      cases hRead.symm.trans hCounterpart

/- A sent message meets the received one, and no relay. -/
theorem of_received
    {sent : Sent}
    {received : Received}
    {r : PendingRecord Event}
    (hMeeting : Meeting now key m (.sent sent) reply after)
    (hInbound :
      Pending.record? .awaitingOrigin key m.store
        = .ok (some r))
    (hMessage : r.message = .received received)
    (hRelay :
      Pending.record? .relayed key m.store = .ok none) :
    reply = ⟨.ok .matched, [.ofLeg sent received]⟩ := by
  cases hMeeting with
  | unread hRead => cases hRead.symm.trans hInbound
  | unreadRelay _ hRead => cases hRead.symm.trans hRelay
  | @sentMatched message inbound relayed hFound hTold =>
      cases hFound.symm.trans hInbound
      cases hMessage
      cases relayed with
      | some other => cases hTold.symm.trans hRelay
      | none => rfl
  | sentWaits hMissing => cases hMissing.symm.trans hInbound
  | overwritten hMissing => cases hMissing.symm.trans hInbound

/- A received message meets the sent one. -/
theorem of_sent
    {sent : Sent}
    {received : Received}
    {r : PendingRecord Event}
    (hMeeting :
      Meeting now key m (.received received) reply after)
    (hOutbound :
      Pending.record? .awaitingDestination key m.store
        = .ok (some r))
    (hMessage : r.message = .sent sent) :
    reply = ⟨.ok .matched, [.ofLeg sent received]⟩ := by
  cases hMeeting with
  | unread hRead => cases hRead.symm.trans hOutbound
  | @receivedMatched message outbound hFound =>
      cases hFound.symm.trans hOutbound
      cases hMessage
      rfl
  | receivedWaits hMissing => cases hMissing.symm.trans hOutbound
  | overwritten hMissing => cases hMissing.symm.trans hOutbound

end Meeting

end Matcher

end JourneyMatch

import JourneyMatch.Proofs.Matcher.Leg
import JourneyMatch.Proofs.Matcher.Run
import JourneyMatch.Proofs.Pending.Decoding

/-
  This file shows that a call tells of one subscription, that
  of its event. The message that waits under a key is one of
  the subscription in front of the key, and so is the event
  that meets it.

  Main statements:
    * `Matcher.Authored.subscription_record?`
    * `Matcher.Authored.subscription_notice`
    * `Matcher.Authored.filter_notices`
-/

namespace JourneyMatch

------------------------------------------------------------
-- The subscription of a notification
------------------------------------------------------------

namespace Matcher

/- What is read under a key is of the key's subscription. -/
theorem Authored.subscription_record?
    {allowed : Event → Prop}
    {m : Matcher}
    {e : Event}
    {n : Namespace}
    {key : String}
    {r : PendingRecord Event}
    (hAuthored : m.Authored allowed)
    (hKey : e.key = .ok key)
    (hRecord : Pending.record? n key m.store = .ok (some r)) :
    r.message.subscription = e.subscription := by
  rcases Pending.record?_eq_some_iff.mp hRecord with
    ⟨text, hText, hDecode⟩
  rcases hAuthored n key text hText with
    ⟨x, task, storedAt, -, hName, hOther, hWritten⟩
  subst hName hWritten
  rw [Event.decode_recordText] at hDecode
  cases hReread : x.reread with
  | error cause =>
      rw [hReread] at hDecode
      cases hDecode
  | ok y =>
      rw [hReread] at hDecode
      cases hDecode
      exact
        (Event.subscription_reread hReread).trans
          (Event.subscription_eq_of_key_eq hOther hKey)

/- A meeting tells of the subscription of its event. -/
theorem Meeting.subscription_notice
    {allowed : Event → Prop}
    {now : Readings}
    {key : String}
    {m after : Matcher}
    {e : Event}
    {reply : Reply}
    {notice : Notification}
    (hMeeting : Meeting now key m e reply after)
    (hAuthored : m.Authored allowed)
    (hKey : e.key = .ok key)
    (hNotice : notice ∈ reply.notifications) :
    notice.subscription = e.subscription := by
  have hRelay :
      ∀ (message : Sent) relayed,
        notice ∈ relayNotice message relayed →
          notice.subscription = message.subscription := by
    intro message relayed hMem
    cases relayed with
    | none => cases hMem
    | some r =>
        rw [List.mem_singleton.mp hMem]
        rfl
  cases hMeeting with
  | unread => cases hNotice
  | unreadRelay => cases hNotice
  | overwritten => cases hNotice
  | receivedWaits => cases hNotice
  | relayedWaits => cases hNotice
  | @sentMatched message inbound relayed =>
      rcases List.mem_append.mp hNotice with hTold | hLeg
      · exact hRelay message relayed hTold
      · rw [List.mem_singleton.mp hLeg]
        rfl
  | @sentWaits message relayed =>
      exact hRelay message relayed hNotice
  | receivedMatched hOutbound =>
      rw [List.mem_singleton.mp hNotice]
      exact hAuthored.subscription_record? hKey hOutbound
  | relayedTold hOutbound =>
      rw [List.mem_singleton.mp hNotice]
      exact hAuthored.subscription_record? hKey hOutbound

/- A call tells of the subscription of its event. -/
theorem Authored.subscription_notice
    {allowed : Event → Prop}
    {m : Matcher}
    {e : Event}
    {notice : Notification}
    (hAuthored : m.Authored allowed)
    (now : Readings)
    (hNotice : notice ∈ (m.handle now e).1.notifications) :
    notice.subscription = e.subscription := by
  rcases m.handle_cases now e with
    ⟨reason, hHandle⟩
      | ⟨key, reply, after, hKey, hHandle, hMeeting⟩
  · rw [hHandle] at hNotice
    cases hNotice
  · rw [hHandle] at hNotice
    exact hMeeting.subscription_notice hAuthored hKey hNotice

/- So a call tells all of a subscription, or nothing. -/
theorem Authored.filter_notices
    {allowed : Event → Prop}
    {m : Matcher}
    (hAuthored : m.Authored allowed)
    (now : Readings)
    (e : Event)
    (subscription : String) :
    (m.handle now e).1.notifications.filter
        (·.subscription = subscription)
      = if e.subscription = subscription then
          (m.handle now e).1.notifications
        else [] := by
  by_cases hSame : e.subscription = subscription
  · rw [if_pos hSame]
    apply List.filter_eq_self.mpr
    intro notice hNotice
    exact decide_eq_true
      ((hAuthored.subscription_notice now hNotice).trans hSame)
  · rw [if_neg hSame]
    apply List.filter_eq_nil_iff.mpr
    intro notice hNotice hTold
    have hNamed := of_decide_eq_true hTold
    rw [hAuthored.subscription_notice now hNotice] at hNamed
    exact hSame hNamed

end Matcher

end JourneyMatch

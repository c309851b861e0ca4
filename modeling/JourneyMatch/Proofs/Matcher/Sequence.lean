import JourneyMatch.Proofs.Matcher.Counterpart
import JourneyMatch.Proofs.Matcher.Run
import JourneyMatch.Proofs.Pending.Decoding

/-
  This file treats calls that are made one after the other.
  A call leaves the entries of all keys but its own alone, so
  that the two sides of a leg meet whatever calls of other
  keys come between them.

  Main statements:
    * `Matcher.handleAll_append`
    * `Matcher.text?_handleAll_of_ne`
    * `Matcher.handle_pair`
-/

namespace JourneyMatch

namespace Matcher

------------------------------------------------------------
-- Calls one after the other
------------------------------------------------------------

/- A call leaves the entries of all keys but its own alone. -/
theorem text?_handle_of_ne
    {e : Event}
    {key : String}
    (now : Readings)
    (m : Matcher)
    (hOther : e.key ≠ .ok key)
    (n : Namespace) :
    Pending.text? n key (m.handle now e).2.store
      = Pending.text? n key m.store := by
  rcases m.handle_cases now e with
    ⟨reason, hHandle⟩
      | ⟨own, reply, after, hKey, hHandle, hMeeting⟩
  · rw [hHandle]
  · rw [hHandle]
    apply hMeeting.text?_of_ne
    intro hSame
    exact hOther (hSame ▸ hKey)

theorem handleAll_cons
    (now : Readings)
    (e : Event)
    (es : List Event)
    (m : Matcher) :
    m.handleAll now (e :: es)
      = ((m.handle now e).1
          :: ((m.handle now e).2.handleAll now es).1,
        ((m.handle now e).2.handleAll now es).2) :=
  rfl

/- Calls in two parts. -/
theorem handleAll_append
    (now : Readings)
    (first second : List Event)
    (m : Matcher) :
    m.handleAll now (first ++ second)
      = ((m.handleAll now first).1
          ++ ((m.handleAll now first).2.handleAll now second).1,
        ((m.handleAll now first).2.handleAll now second).2) := by
  induction first generalizing m with
  | nil => rfl
  | cons e first ih =>
      rw [List.cons_append, handleAll_cons, handleAll_cons, ih,
        List.cons_append]

theorem length_handleAll
    (now : Readings)
    (es : List Event)
    (m : Matcher) :
    (m.handleAll now es).1.length = es.length := by
  induction es generalizing m with
  | nil => rfl
  | cons e es ih =>
      rw [handleAll_cons, List.length_cons, ih,
        List.length_cons]

theorem stopped_handleAll
    (now : Readings)
    (es : List Event)
    (m : Matcher) :
    (m.handleAll now es).2.stopped = m.stopped := by
  induction es generalizing m with
  | nil => rfl
  | cons e es ih =>
      rw [handleAll_cons, ih]
      exact stopped_handle now e m

theorem text?_handleAll_of_ne
    {es : List Event}
    {key : String}
    (now : Readings)
    (m : Matcher)
    (hOthers : ∀ e ∈ es, e.key ≠ .ok key)
    (n : Namespace) :
    Pending.text? n key (m.handleAll now es).2.store
      = Pending.text? n key m.store := by
  induction es generalizing m with
  | nil => rfl
  | cons e es ih =>
      rw [handleAll_cons,
        ih _ fun x hMem =>
          hOthers x (List.mem_cons_of_mem e hMem)]
      exact text?_handle_of_ne now m
        (hOthers e List.mem_cons_self) n

------------------------------------------------------------
-- The two sides of a leg
------------------------------------------------------------

/- Whether events are the two sides of a leg, in any order. -/
inductive Sides
    (sent : Sent)
    (received : Received) : Event → Event → Prop where
  | inOrder : Sides sent received (.sent sent) (.received received)
  | reversed :
      Sides sent received (.received received) (.sent sent)

/-
  The first side finds nothing under its key and waits; the
  second finds the first and matches it, whatever calls of
  other keys come between them.
-/
theorem handle_pair
    (now : Readings)
    {m : Matcher}
    {sent : Sent}
    {received : Received}
    {e x : Event}
    {key : String}
    {between : List Event}
    (hSides : Sides sent received e x)
    (hRuns : m.stopped = false)
    (hKey : e.key = .ok key)
    (hSame : x.key = .ok key)
    (hStorable : e.Storable)
    (hEmpty : ∀ n, Pending.text? n key m.store = none)
    (hOthers : ∀ o ∈ between, o.key ≠ .ok key) :
    (m.handle now e).1 = ⟨.ok .pending, []⟩
      ∧ (((m.handle now e).2.handleAll now between).2.handle
          now x).1
        = ⟨.ok .matched, [.ofLeg sent received]⟩ := by
  rcases (m.meeting_meet now key e).of_empty hEmpty with
    ⟨hReply, hStored⟩
  rw [← handle_of_key now hRuns hKey] at hReply hStored
  refine ⟨hReply, ?_⟩
  have hText :
      ∀ n,
        Pending.text? n key
            ((m.handle now e).2.handleAll now between).2.store
          = if n = e.nameSpace then
              some (m.newText now key e)
            else none := by
    intro n
    rw [text?_handleAll_of_ne now _ hOthers, hStored,
      text?_stored, hEmpty]
    simp only [and_true]
  have hRecord :
      Pending.record? e.nameSpace key
          ((m.handle now e).2.handleAll now between).2.store
        = .ok (some
          ⟨e, (m.expiryTask now e.nameSpace key).key,
            Int64.ofInt now.stored.unixMillis⟩) :=
    Pending.record?_eq_some_iff.mpr
      ⟨m.newText now key e, by rw [hText, if_pos rfl],
        hStorable.decode_recordText _ _⟩
  have hRunning :
      ((m.handle now e).2.handleAll now between).2.stopped
        = false := by
    rw [stopped_handleAll, stopped_handle]
    exact hRuns
  rw [handle_of_key now hRunning hSame]
  have hMeeting :=
    meeting_meet now key x
      ((m.handle now e).2.handleAll now between).2
  cases hSides with
  | inOrder => exact hMeeting.of_sent hRecord rfl
  | reversed =>
      refine hMeeting.of_received hRecord rfl ?_
      apply Pending.record?_of_text?_eq_none
      rw [hText]
      rfl

end Matcher

end JourneyMatch

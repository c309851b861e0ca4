import JourneyMatch.Proofs.Matcher.Meeting
import JourneyMatch.Proofs.Matcher.Removal

/-
  This file defines the histories of a matcher: from the
  empty store on, events arrive, entries are cleared, deleted
  and swept, and the usual expiry changes. In every state of
  such a history each entry is the record of an event of its
  key, and no key waits on both sides.

  Key definitions include:
    * `Move`
    * `Matcher.move`
    * `Matcher.Reachable`
    * `Matcher.feed`
    * `Matcher.Authored`
    * `Matcher.Apart`

  Main statements:
    * `Matcher.Reachable.authored`
    * `Matcher.Reachable.apart`
    * `Matcher.Reachable.sides_apart`
    * `Matcher.Reachable.stopped_eq`
-/

namespace JourneyMatch

------------------------------------------------------------
-- Histories
------------------------------------------------------------

/- What can happen to a matcher while it runs. -/
inductive Move where
  | event (now : Readings) (e : Event)
  | clear (subscription : String)
  | delete (n : Namespace) (key : String)
  | setExpiry (millis : Nat)
  | sweep (now : Instant)

/- Whether a move brings no event but an allowed one. -/
def Move.Admits
    (allowed : Event → Prop) : Move → Prop
  | .event _ e => allowed e
  | _ => True

namespace Matcher

/- A matcher after a move. -/
def move
    (m : Matcher) : Move → Matcher
  | .event now e => (m.handle now e).2
  | .clear subscription => (m.clear subscription).2
  | .delete n key =>
      { m with store := (Admin.deletePending n key m.store).2 }
  | .setExpiry millis => { m with expiry := millis }
  | .sweep now =>
      { m with
        store := (fireDue Service.firstListeners now m.store).2 }

/-
  The states of the histories that begin on the empty store
  and bring allowed events alone.
-/
inductive Reachable
    (allowed : Event → Prop)
    (expiry : Nat)
    (tags : TagSource) : Matcher → Prop where
  | start :
      Reachable allowed expiry tags (begin expiry tags .empty)
  | step
      {m : Matcher}
      (next : Move)
      (hBefore : Reachable allowed expiry tags m)
      (hNext : next.Admits allowed) :
      Reachable allowed expiry tags (m.move next)

/- Handles events that arrive each at its time. -/
def feed :
    List (Readings × Event) → Matcher → List Reply × Matcher
  | [], m => ([], m)
  | (now, e) :: rest, m =>
      let (reply, m) := m.handle now e
      let (replies, m) := feed rest m
      (reply :: replies, m)

theorem feed_cons
    (now : Readings)
    (e : Event)
    (rest : List (Readings × Event))
    (m : Matcher) :
    m.feed ((now, e) :: rest)
      = ((m.handle now e).1 :: ((m.handle now e).2.feed rest).1,
        ((m.handle now e).2.feed rest).2) :=
  rfl

/- Calls in two parts. -/
theorem feed_append
    (first second : List (Readings × Event))
    (m : Matcher) :
    m.feed (first ++ second)
      = ((m.feed first).1 ++ ((m.feed first).2.feed second).1,
        ((m.feed first).2.feed second).2) := by
  induction first generalizing m with
  | nil => rfl
  | cons call first ih =>
      rcases call with ⟨now, e⟩
      rw [List.cons_append, feed_cons, feed_cons, ih,
        List.cons_append]

/- Whether every entry is the record of an event of its key. -/
def Authored
    (allowed : Event → Prop)
    (m : Matcher) : Prop :=
  ∀ n key text,
    Pending.text? n key m.store = some text →
      ∃ e task storedAt,
        allowed e
          ∧ e.nameSpace = n
          ∧ e.key = .ok key
          ∧ text = e.recordText task storedAt

/- Whether no key waits in both of two namespaces. -/
def Apart
    (a b : Namespace)
    (m : Matcher) : Prop :=
  ∀ key,
    Pending.text? a key m.store = none
      ∨ Pending.text? b key m.store = none

------------------------------------------------------------
-- Removals
------------------------------------------------------------

theorem Authored.of_within
    {allowed : Event → Prop}
    {m after : Matcher}
    (hAuthored : m.Authored allowed)
    (hWithin : after.store.Within m.store) :
    after.Authored allowed :=
  fun n key text hText =>
    hAuthored n key text (hWithin.entries n key text hText)

theorem Apart.of_within
    {a b : Namespace}
    {m after : Matcher}
    (hApart : m.Apart a b)
    (hWithin : after.store.Within m.store) :
    after.Apart a b := by
  have hNone :
      ∀ n key,
        Pending.text? n key m.store = none →
          Pending.text? n key after.store = none := by
    intro n key hBefore
    cases hAfter : Pending.text? n key after.store with
    | none => rfl
    | some text =>
        rw [hWithin.entries n key text hAfter] at hBefore
        cases hBefore
  intro key
  exact (hApart key).imp (hNone _ key) (hNone _ key)

/- A move that brings no event adds nothing. -/
theorem within_move
    (m : Matcher)
    {next : Move}
    (hNext : next.Admits fun _ => False) :
    (m.move next).store.Within m.store := by
  cases next with
  | event now e => exact hNext.elim
  | clear subscription =>
      exact Store.Within.clear subscription m
  | delete n key => exact Store.Within.deletePending n key _
  | setExpiry millis => exact Store.Within.refl _
  | sweep now => exact Store.Within.fireDue now _

/- It draws no tag. -/
theorem tags_move
    (m : Matcher)
    {next : Move}
    (hNext : next.Admits fun _ => False) :
    (m.move next).tags = m.tags := by
  cases next with
  | event now e => exact hNext.elim
  | clear subscription =>
      rw [move, clear_rest]
  | delete n key => rfl
  | setExpiry millis => rfl
  | sweep now => rfl

------------------------------------------------------------
-- Events
------------------------------------------------------------

/-
  A call turns an event away and changes nothing, or lets it
  meet what waits under its key.
-/
theorem handle_cases
    (now : Readings)
    (e : Event)
    (m : Matcher) :
    (∃ reason, m.handle now e = (.rejected reason, m))
      ∨ ∃ key reply after,
        e.key = .ok key
          ∧ m.handle now e = (reply, after)
          ∧ Meeting now key m e reply after := by
  cases hStopped : m.stopped with
  | true => exact .inl ⟨_, handle_of_stopped now e hStopped⟩
  | false =>
      cases hKey : e.key with
      | error reason =>
          exact .inl ⟨_, handle_of_reason now hStopped hKey⟩
      | ok key =>
          exact .inr
            ⟨key, _, _, rfl, handle_of_key now hStopped hKey,
              m.meeting_meet now key e⟩

/- A call does not stop the matcher. -/
theorem stopped_handle
    (now : Readings)
    (e : Event)
    (m : Matcher) :
    (m.handle now e).2.stopped = m.stopped := by
  rcases m.handle_cases now e with
    ⟨reason, hHandle⟩
      | ⟨key, reply, after, -, hHandle, hMeeting⟩
  · rw [hHandle]
  · rw [hHandle]
    exact hMeeting.stopped_eq

theorem Meeting.authored
    {now : Readings}
    {key : String}
    {m after : Matcher}
    {e : Event}
    {reply : Reply}
    {allowed : Event → Prop}
    (hMeeting : Meeting now key m e reply after)
    (hKey : e.key = .ok key)
    (hAllowed : allowed e)
    (hAuthored : m.Authored allowed) :
    after.Authored allowed := by
  intro n other text hText
  rcases hMeeting.text?_cases hText with
    hOld | ⟨hName, hOther, hNew, -⟩
  · exact hAuthored n other text hOld
  · subst hName hOther hNew
    exact ⟨e, _, _, hAllowed, rfl, hKey, rfl⟩

theorem Authored.handle
    {allowed : Event → Prop}
    {m : Matcher}
    {e : Event}
    (hAuthored : m.Authored allowed)
    (hAllowed : allowed e)
    (now : Readings) :
    (m.handle now e).2.Authored allowed := by
  rcases m.handle_cases now e with
    ⟨reason, hHandle⟩
      | ⟨key, reply, after, hKey, hHandle, hMeeting⟩
  · rw [hHandle]
    exact hAuthored
  · rw [hHandle]
    exact hMeeting.authored hKey hAllowed hAuthored

/-
  A call keeps two namespaces apart if it does so under its
  own key.
-/
theorem Meeting.apart_of_key
    {now : Readings}
    {key : String}
    {m after : Matcher}
    {e : Event}
    {reply : Reply}
    {a b : Namespace}
    (hMeeting : Meeting now key m e reply after)
    (hApart : m.Apart a b)
    (hOwn :
      Pending.text? a key after.store = none
        ∨ Pending.text? b key after.store = none) :
    after.Apart a b := by
  intro other
  by_cases hSame : other = key
  · subst hSame
    exact hOwn
  · rw [hMeeting.text?_of_ne hSame, hMeeting.text?_of_ne hSame]
    exact hApart other

/- An event is only stored where its counterpart is missing. -/
theorem Meeting.sides_apart
    {now : Readings}
    {key : String}
    {m after : Matcher}
    {e : Event}
    {reply : Reply}
    (hMeeting : Meeting now key m e reply after)
    (hApart : m.Apart .awaitingDestination .awaitingOrigin) :
    after.Apart .awaitingDestination .awaitingOrigin := by
  apply hMeeting.apart_of_key hApart
  cases hSent :
      Pending.text? .awaitingDestination key after.store with
  | none => exact .inl rfl
  | some sent =>
      right
      cases hReceived :
          Pending.text? .awaitingOrigin key after.store with
      | none => rfl
      | some received =>
          rcases hMeeting.text?_cases hSent with
            hOldSent | ⟨hName, -, -, hAlone⟩
          · have hNoReceived := (hApart key).resolve_left
              (by rw [hOldSent]; exact Option.some_ne_none sent)
            rcases hMeeting.text?_cases hReceived with
              hOldReceived | ⟨hName, -, -, hAlone⟩
            · rw [hNoReceived] at hOldReceived
              cases hOldReceived
            · -- The received one is new, so no sent one waits.
              cases e with
              | received message =>
                  have hNoSent :=
                    Pending.text?_eq_none_of_record? hAlone
                  rw [Event.counterpart, hOldSent] at hNoSent
                  cases hNoSent
              | sent message => cases hName
              | relayed message => cases hName
          · -- The sent one is new, so no received one waits.
            cases e with
            | sent message =>
                have hNoReceived :=
                  Pending.text?_eq_none_of_record? hAlone
                rcases hMeeting.text?_cases hReceived with
                  hOldReceived | ⟨hOther, -⟩
                · rw [Event.counterpart, hOldReceived]
                    at hNoReceived
                  cases hNoReceived
                · cases hOther
            | received message => cases hName
            | relayed message => cases hName

------------------------------------------------------------
-- Invariants of every history
------------------------------------------------------------

namespace Reachable

variable {allowed : Event → Prop}
variable {expiry : Nat}
variable {tags : TagSource}
variable {m : Matcher}

/- A matcher that begins on the empty store has no entry. -/
theorem text?_begin
    (expiry : Nat)
    (tags : TagSource)
    (n : Namespace)
    (key : String) :
    Pending.text? n key (begin expiry tags .empty).store
      = none := by
  cases n <;> rfl

/- A move brings an allowed event, or none. -/
theorem admits_cases
    {next : Move}
    (hNext : next.Admits allowed) :
    (∃ now e, next = .event now e ∧ allowed e)
      ∨ next.Admits fun _ => False := by
  cases next with
  | event now e => exact .inl ⟨now, e, rfl, hNext⟩
  | clear => exact .inr trivial
  | delete => exact .inr trivial
  | setExpiry => exact .inr trivial
  | sweep => exact .inr trivial

theorem authored
    (hReachable : Reachable allowed expiry tags m) :
    m.Authored allowed := by
  induction hReachable with
  | start =>
      intro n key text hText
      rw [text?_begin] at hText
      cases hText
  | @step m next hBefore hNext ih =>
      rcases admits_cases hNext with
        ⟨now, e, hEvent, hAllowed⟩ | hRemoval
      · subst hEvent
        exact ih.handle hAllowed now
      · exact ih.of_within (m.within_move hRemoval)

/- What every call keeps apart is so in every state. -/
theorem apart
    {a b : Namespace}
    (hCall :
      ∀ {now key m e reply after},
        Meeting now key m e reply after →
          m.Apart a b → after.Apart a b)
    (hReachable : Reachable allowed expiry tags m) :
    m.Apart a b := by
  induction hReachable with
  | start => exact fun key => .inl (text?_begin _ _ _ key)
  | @step m next hBefore hNext ih =>
      rcases admits_cases hNext with
        ⟨now, e, hEvent, -⟩ | hRemoval
      · subst hEvent
        rcases m.handle_cases now e with
          ⟨reason, hHandle⟩
            | ⟨key, reply, after, -, hHandle, hMeeting⟩
        · simpa only [move, hHandle] using ih
        · simpa only [move, hHandle] using hCall hMeeting ih
      · exact ih.of_within (m.within_move hRemoval)

/- No key waits on both of its sides. -/
theorem sides_apart
    (hReachable : Reachable allowed expiry tags m) :
    m.Apart .awaitingDestination .awaitingOrigin :=
  hReachable.apart Meeting.sides_apart

/- No history stops the matcher. -/
theorem stopped_eq
    (hReachable : Reachable allowed expiry tags m) :
    m.stopped = false := by
  induction hReachable with
  | start => rfl
  | @step m next hBefore hNext ih =>
      cases next with
      | event now e => exact (stopped_handle now e m).trans ih
      | clear subscription =>
          rw [move, clear_rest]
          exact ih
      | delete n key => exact ih
      | setExpiry millis => exact ih
      | sweep now => exact ih

end Reachable

end Matcher

end JourneyMatch

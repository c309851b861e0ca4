import JourneyMatch.Proofs.Matcher.Run
import JourneyMatch.Proofs.Pending.Decoding

/-
  This file defines what the matcher keeps for one leg of one
  message, without keys, records and tasks: the side that
  waits, if one does, and a relay that waits to be told. A
  meeting does to the entries of a key what it does to the
  place that they show.

  Key definitions include:
    * `Slot`
    * `Place`
    * `Place.meet`
    * `Place.message`
    * `Place.Shown`
    * `Place.of`

  Main statements:
    * `Matcher.Meeting.shown`
    * `Matcher.shown_of`
-/

namespace JourneyMatch

------------------------------------------------------------
-- Places
------------------------------------------------------------

/- The side of a leg that waits for the other one. -/
inductive Slot where
  | empty
  | out (sent : Sent)
  | into (received : Received)

/- What waits for a leg: one side at most, and a relay. -/
structure Place where
  slot : Slot
  relay : Option Relayed

namespace Place

/- What is told of a relay when its message arrives. -/
def told
    (message : Sent)
    (relay : Option Relayed) : List Notification :=
  relay.toList.map (.ofRelay message)

/-
  An event comes to a place. The two sides of the leg meet
  and leave the slot empty. A sent message first tells of
  the relay that waits, and takes it away; a received message
  leaves it.
-/
def meet :
    Event → Place → Reply × Place
  | .sent message, ⟨.into received, relay⟩ =>
      (⟨.ok .matched,
          told message relay ++ [.ofLeg message received]⟩,
        ⟨.empty, none⟩)
  | .sent message, ⟨.empty, relay⟩ =>
      (⟨.ok .pending, told message relay⟩, ⟨.out message, none⟩)
  | .sent message, ⟨.out _, relay⟩ =>
      (⟨.ok .pending, told message relay⟩, ⟨.out message, none⟩)
  | .received message, ⟨.out sent, relay⟩ =>
      (⟨.ok .matched, [.ofLeg sent message]⟩, ⟨.empty, relay⟩)
  | .received message, ⟨.empty, relay⟩ =>
      (⟨.ok .pending, []⟩, ⟨.into message, relay⟩)
  | .received message, ⟨.into _, relay⟩ =>
      (⟨.ok .pending, []⟩, ⟨.into message, relay⟩)
  | .relayed message, ⟨.out sent, relay⟩ =>
      (⟨.ok .relayed, [.ofRelay sent message]⟩,
        ⟨.out sent, relay⟩)
  | .relayed message, ⟨.empty, _⟩ =>
      (⟨.ok .pending, []⟩, ⟨.empty, some message⟩)
  | .relayed message, ⟨.into received, _⟩ =>
      (⟨.ok .pending, []⟩, ⟨.into received, some message⟩)

/- The message that a place has in a namespace. -/
def message :
    Place → Namespace → Option Event
  | ⟨.out sent, _⟩, .awaitingDestination => some (.sent sent)
  | ⟨.into received, _⟩, .awaitingOrigin =>
      some (.received received)
  | ⟨_, relay⟩, .relayed => relay.map .relayed
  | _, _ => none

/- Whether the entries of a key are what a place has. -/
def Shown
    (key : String)
    (s : Store)
    (p : Place) : Prop :=
  ∀ n, Pending.message? n key s = .ok (p.message n)

/- The place that the entries of a key show. -/
def of
    (key : String)
    (s : Store) : Place :=
  { slot :=
      match Pending.message? .awaitingDestination key s,
          Pending.message? .awaitingOrigin key s with
      | .ok (some (.sent sent)), _ => .out sent
      | _, .ok (some (.received received)) => .into received
      | _, _ => .empty
    relay :=
      match Pending.message? .relayed key s with
      | .ok (some (.relayed relayed)) => some relayed
      | _ => none }

------------------------------------------------------------
-- What a place has
------------------------------------------------------------

theorem slot_of_message_awaitingOrigin
    {p : Place}
    {received : Received}
    (hMessage :
      p.message .awaitingOrigin = some (.received received)) :
    p.slot = .into received := by
  rcases p with ⟨slot, relay⟩
  cases slot with
  | empty => cases hMessage
  | out sent => cases hMessage
  | into other =>
      cases hMessage
      rfl

theorem slot_of_message_awaitingDestination
    {p : Place}
    {sent : Sent}
    (hMessage :
      p.message .awaitingDestination = some (.sent sent)) :
    p.slot = .out sent := by
  rcases p with ⟨slot, relay⟩
  cases slot with
  | empty => cases hMessage
  | into received => cases hMessage
  | out other =>
      cases hMessage
      rfl

theorem message_relayed
    (p : Place) :
    p.message .relayed = p.relay.map .relayed := by
  rcases p with ⟨slot, relay⟩
  cases slot <;> rfl

/- The records that have been read are what a place has. -/
theorem Shown.message_eq
    {key : String}
    {s : Store}
    {p : Place}
    {n : Namespace}
    {found : Option (PendingRecord Event)}
    (hShown : p.Shown key s)
    (hRecord : Pending.record? n key s = .ok found) :
    found.map PendingRecord.message = p.message n := by
  have hMessage := hShown n
  rw [Pending.message?, hRecord] at hMessage
  exact Except.ok.inj hMessage

theorem Shown.relay_eq
    {key : String}
    {s : Store}
    {p : Place}
    {relayed : Option (PendingRecord Relayed)}
    (hShown : p.Shown key s)
    (hRecord :
      Pending.record? .relayed key s
        = .ok (relayed.map (·.map .relayed))) :
    p.relay = relayed.map PendingRecord.message := by
  have hMessage := hShown.message_eq hRecord
  rw [message_relayed] at hMessage
  cases relayed with
  | none =>
      cases hRelay : p.relay with
      | none => rfl
      | some r =>
          rw [hRelay] at hMessage
          cases hMessage
  | some found =>
      cases hRelay : p.relay with
      | none =>
          rw [hRelay] at hMessage
          cases hMessage
      | some r =>
          rw [hRelay] at hMessage
          cases hMessage
          rfl

/- No entry of a place fails to be read. -/
theorem Shown.readable
    {key : String}
    {s : Store}
    {p : Place}
    {n : Namespace}
    {cause : StoreError}
    (hShown : p.Shown key s) :
    Pending.record? n key s ≠ .error cause := by
  intro hRecord
  have hMessage := hShown n
  rw [Pending.message?, hRecord] at hMessage
  cases hMessage

/- No other place is shown than the one that is read. -/
theorem Shown.of_eq
    {key : String}
    {s : Store}
    {p : Place}
    (hShown : p.Shown key s) :
    of key s = p := by
  rcases p with ⟨slot, relay⟩
  cases slot with
  | empty => cases relay <;> simp only [of, hShown _] <;> rfl
  | out sent =>
      cases relay <;> simp only [of, hShown _] <;> rfl
  | into received =>
      cases relay <;> simp only [of, hShown _] <;> rfl

/- Places are seen through the texts of their key alone. -/
theorem Shown.congr
    {key : String}
    {s t : Store}
    {p : Place}
    (hShown : p.Shown key s)
    (hTexts :
      ∀ n, Pending.text? n key t = Pending.text? n key s) :
    p.Shown key t := by
  intro n
  rw [Pending.message?_congr (hTexts n)]
  exact hShown n

end Place

------------------------------------------------------------
-- Entries of a key
------------------------------------------------------------

namespace Pending

theorem message?_of_text?_eq_none
    {n : Namespace}
    {key : String}
    {s : Store}
    (hText : text? n key s = none) :
    message? n key s = .ok none := by
  rw [message?, record?_of_text?_eq_none hText]
  rfl

/- Where no message waits, there is no entry. -/
theorem text?_eq_none_of_message?
    {n : Namespace}
    {key : String}
    {s : Store}
    (hMessage : message? n key s = .ok none) :
    text? n key s = none := by
  apply text?_eq_none_of_record?
  rw [message?] at hMessage
  cases hRecord : record? n key s with
  | error cause =>
      rw [hRecord] at hMessage
      cases hMessage
  | ok found =>
      cases found with
      | none => rfl
      | some r =>
          rw [hRecord] at hMessage
          cases hMessage

/- A storable event is read as it was stored. -/
theorem message?_of_recordText
    {e : Event}
    {n : Namespace}
    {key task : String}
    {storedAt : Int64}
    {s : Store}
    (hStorable : e.Storable)
    (hName : e.nameSpace = n)
    (hText :
      text? n key s = some (e.recordText task storedAt)) :
    message? n key s = .ok (some e) := by
  subst hName
  have hRecord :=
    record?_eq_some_iff.mpr
      ⟨_, hText, hStorable.decode_recordText task storedAt⟩
  rw [message?, hRecord]
  rfl

end Pending

------------------------------------------------------------
-- Meetings
------------------------------------------------------------

namespace Matcher

theorem relayNotice_eq
    (message : Sent)
    (relayed : Option (PendingRecord Relayed)) :
    relayNotice message relayed
      = Place.told message
        (relayed.map PendingRecord.message) := by
  cases relayed with
  | none => rfl
  | some r =>
      rw [relayNotice, Notification.ofSent_relayed]
      rfl

/- After an event was stored, its entry is read as it was. -/
theorem message?_stored
    {e : Event}
    (hStorable : e.Storable)
    (now : Readings)
    (key : String)
    (old : Option (PendingRecord Event))
    (m : Matcher) :
    Pending.message? e.nameSpace key
        ((m.stored now key e).cancelOld old).store
      = .ok (some e) := by
  apply Pending.message?_of_recordText hStorable rfl
  rw [text?_cancelOld, text?_stored, if_pos ⟨rfl, rfl⟩]
  rfl

/- The other namespaces of its key are as they were. -/
theorem message?_stored_of_ne
    {e : Event}
    {n : Namespace}
    (hOther : n ≠ e.nameSpace)
    (now : Readings)
    (key : String)
    (old : Option (PendingRecord Event))
    (m : Matcher) :
    Pending.message? n key
        ((m.stored now key e).cancelOld old).store
      = Pending.message? n key m.store := by
  apply Pending.message?_congr
  rw [text?_cancelOld, text?_stored,
    if_neg fun hHere => hOther hHere.1]

/- Cancelling a task leaves the place that is shown. -/
theorem shown_cancel
    {key : String}
    {m : Matcher}
    {p : Place}
    (hShown : p.Shown key m.store)
    (task : String) :
    p.Shown key (m.cancel task).store := by
  apply hShown.congr
  intro n
  rw [store_cancel, Pending.text?_cancel]

theorem shown_cancelRelay
    {key : String}
    {m : Matcher}
    {p : Place}
    (hShown : p.Shown key m.store)
    (relayed : Option (PendingRecord Relayed)) :
    p.Shown key (m.cancelRelay relayed).store := by
  apply hShown.congr
  intro n
  rw [text?_cancelRelay]

/- An entry is removed together with what the place had. -/
theorem shown_remove
    {key : String}
    {m : Matcher}
    {n : Namespace}
    {p q : Place}
    (hShown : p.Shown key m.store)
    (hGone : q.message n = none)
    (hOthers : ∀ k, k ≠ n → q.message k = p.message k) :
    q.Shown key (m.remove n key).store := by
  intro k
  by_cases hName : k = n
  · subst hName
    rw [hGone]
    apply Pending.message?_of_text?_eq_none
    rw [store_remove, Pending.text?_remove, if_pos ⟨rfl, rfl⟩]
  · rw [hOthers k hName, ← hShown k]
    apply Pending.message?_congr
    rw [store_remove, Pending.text?_remove,
      if_neg fun hHere => hName hHere.1]

/- A storable event is stored where the place has it. -/
theorem shown_stored
    {now : Readings}
    {key : String}
    {m : Matcher}
    {e : Event}
    {p q : Place}
    (hShown : p.Shown key m.store)
    (hStorable : e.Storable)
    (hOwn : q.message e.nameSpace = some e)
    (hOthers :
      ∀ n, n ≠ e.nameSpace → q.message n = p.message n)
    (old : Option (PendingRecord Event)) :
    q.Shown key ((m.stored now key e).cancelOld old).store := by
  intro n
  by_cases hName : n = e.nameSpace
  · subst hName
    rw [hOwn]
    exact message?_stored hStorable now key old m
  · rw [hOthers n hName, message?_stored_of_ne hName]
    exact hShown n

/- A relay is dropped from the place that has it. -/
theorem shown_dropRelay
    {key : String}
    {m : Matcher}
    {p : Place}
    {relayed : Option (PendingRecord Relayed)}
    (hShown : p.Shown key m.store)
    (hRelay : p.relay = relayed.map PendingRecord.message) :
    Place.Shown key (m.dropRelay key relayed).store
      ⟨p.slot, none⟩ := by
  cases relayed with
  | none =>
      rcases p with ⟨slot, relay⟩
      subst hRelay
      exact hShown
  | some r =>
      rw [dropRelay_eq]
      apply shown_remove hShown
      · rw [Place.message_relayed]
        rfl
      · intro n hOther
        rcases p with ⟨slot, relay⟩
        cases n with
        | awaitingDestination => cases slot <;> rfl
        | awaitingOrigin => cases slot <;> rfl
        | relayed => exact absurd rfl hOther

/- A sent message that meets a received one takes it away. -/
theorem shown_sentMatched
    {key task : String}
    {m : Matcher}
    {received : Received}
    {relay : Option Relayed}
    (hShown : Place.Shown key m.store ⟨.into received, relay⟩)
    (relayed : Option (PendingRecord Relayed)) :
    Place.Shown key
      ((((m.remove .awaitingOrigin key).remove
        .relayed key).cancel task).cancelRelay relayed).store
      ⟨.empty, none⟩ := by
  have hNoOrigin :
      Place.Shown key (m.remove .awaitingOrigin key).store
        ⟨.empty, relay⟩ := by
    apply shown_remove hShown rfl
    intro n hOther
    cases n with
    | awaitingDestination => rfl
    | awaitingOrigin => exact absurd rfl hOther
    | relayed => rfl
  apply shown_cancelRelay
  apply shown_cancel
  apply shown_remove hNoOrigin rfl
  intro n hOther
  cases n with
  | awaitingDestination => rfl
  | awaitingOrigin => rfl
  | relayed => exact absurd rfl hOther

/- One that waits takes the relay out of its place. -/
theorem shown_sentWaits
    {key : String}
    {m : Matcher}
    {message : Sent}
    {slot : Slot}
    {relayed : Option (PendingRecord Relayed)}
    (hShown :
      Place.Shown key m.store
        ⟨slot, relayed.map PendingRecord.message⟩)
    (hStorable : (Event.sent message).Storable)
    (hNone :
      Place.message ⟨slot, relayed.map PendingRecord.message⟩
        .awaitingOrigin = none)
    (now : Readings)
    (old : Option (PendingRecord Event)) :
    Place.Shown key
      ((((m.stored now key (.sent message)).cancelOld
        old).dropRelay key relayed).cancelRelay relayed).store
      ⟨.out message, none⟩ := by
  have hStored :
      Place.Shown key
        ((m.stored now key (.sent message)).cancelOld old).store
        ⟨.out message, relayed.map PendingRecord.message⟩ := by
    apply shown_stored hShown hStorable rfl
    intro n hOther
    cases n with
    | awaitingDestination => exact absurd rfl hOther
    | awaitingOrigin => exact hNone.symm
    | relayed =>
        rw [Place.message_relayed, Place.message_relayed]
  exact shown_cancelRelay (shown_dropRelay hStored rfl) relayed

/- A received message that meets a sent one leaves the relay. -/
theorem shown_receivedMatched
    {key : String}
    {m : Matcher}
    {sent : Sent}
    {relay : Option Relayed}
    (hShown : Place.Shown key m.store ⟨.out sent, relay⟩)
    (task : String) :
    Place.Shown key
      ((m.remove .awaitingDestination key).cancel task).store
      ⟨.empty, relay⟩ := by
  apply shown_cancel
  apply shown_remove hShown rfl
  intro n hOther
  cases n with
  | awaitingDestination => exact absurd rfl hOther
  | awaitingOrigin => rfl
  | relayed => rfl

/- One that waits does, too. -/
theorem shown_receivedWaits
    {key : String}
    {m : Matcher}
    {message : Received}
    {slot : Slot}
    {relay : Option Relayed}
    (hShown : Place.Shown key m.store ⟨slot, relay⟩)
    (hStorable : (Event.received message).Storable)
    (hNone :
      Place.message ⟨slot, relay⟩ .awaitingDestination = none)
    (now : Readings)
    (old : Option (PendingRecord Event)) :
    Place.Shown key
      ((m.stored now key (.received message)).cancelOld
        old).store
      ⟨.into message, relay⟩ := by
  apply shown_stored hShown hStorable rfl
  intro n hOther
  cases n with
  | awaitingDestination => exact hNone.symm
  | awaitingOrigin => exact absurd rfl hOther
  | relayed =>
      rw [Place.message_relayed, Place.message_relayed]

/- A relay that waits leaves the side that does. -/
theorem shown_relayedWaits
    {key : String}
    {m : Matcher}
    {message : Relayed}
    {slot : Slot}
    {relay : Option Relayed}
    (hShown : Place.Shown key m.store ⟨slot, relay⟩)
    (hStorable : (Event.relayed message).Storable)
    (now : Readings)
    (old : Option (PendingRecord Event)) :
    Place.Shown key
      ((m.stored now key (.relayed message)).cancelOld
        old).store
      ⟨slot, some message⟩ := by
  apply shown_stored hShown hStorable
  · rw [Event.nameSpace, Place.message_relayed]
    rfl
  · intro n hOther
    cases n with
    | awaitingDestination => cases slot <;> rfl
    | awaitingOrigin => cases slot <;> rfl
    | relayed => exact absurd rfl hOther

/-
  A meeting with a storable event gives the reply of the
  place that the entries of its key show, and leaves the
  entries of the place afterwards.
-/
theorem Meeting.shown
    {now : Readings}
    {key : String}
    {m after : Matcher}
    {e : Event}
    {reply : Reply}
    {p : Place}
    (hMeeting : Meeting now key m e reply after)
    (hStorable : e.Storable)
    (hShown : p.Shown key m.store) :
    reply = (p.meet e).1
      ∧ (p.meet e).2.Shown key after.store := by
  cases hMeeting with
  | unread hRead => exact absurd hRead hShown.readable
  | unreadRelay hInbound hRead =>
      exact absurd hRead hShown.readable
  | overwritten hCounterpart hRelayed hOwn =>
      exact absurd hOwn hShown.readable
  | @sentMatched message inbound relayed hInbound hRelayed =>
      have hSlot :=
        Place.slot_of_message_awaitingOrigin
          (hShown.message_eq hInbound).symm
      have hRelay := hShown.relay_eq hRelayed
      rcases p with ⟨slot, relay⟩
      subst hSlot hRelay
      exact ⟨by rw [relayNotice_eq]; rfl,
        shown_sentMatched hShown relayed⟩
  | @sentWaits message relayed old hInbound hRelayed hOld =>
      have hNone := (hShown.message_eq hInbound).symm
      have hRelay := hShown.relay_eq hRelayed
      rcases p with ⟨slot, relay⟩
      subst hRelay
      have hAfter :=
        shown_sentWaits hShown hStorable hNone now old
      cases slot with
      | into received => cases hNone
      | empty => exact ⟨by rw [relayNotice_eq]; rfl, hAfter⟩
      | out sent => exact ⟨by rw [relayNotice_eq]; rfl, hAfter⟩
  | @receivedMatched message outbound hOutbound =>
      have hSlot :=
        Place.slot_of_message_awaitingDestination
          (hShown.message_eq hOutbound).symm
      rcases p with ⟨slot, relay⟩
      subst hSlot
      exact ⟨rfl, shown_receivedMatched hShown _⟩
  | @receivedWaits message old hOutbound hOld =>
      have hNone := (hShown.message_eq hOutbound).symm
      rcases p with ⟨slot, relay⟩
      have hAfter :=
        shown_receivedWaits hShown hStorable hNone now old
      cases slot with
      | out sent => cases hNone
      | empty => exact ⟨rfl, hAfter⟩
      | into received => exact ⟨rfl, hAfter⟩
  | @relayedTold message outbound hOutbound =>
      have hSlot :=
        Place.slot_of_message_awaitingDestination
          (hShown.message_eq hOutbound).symm
      rcases p with ⟨slot, relay⟩
      subst hSlot
      exact ⟨rfl, hShown⟩
  | @relayedWaits message old hOutbound hOld =>
      have hNone := (hShown.message_eq hOutbound).symm
      rcases p with ⟨slot, relay⟩
      have hAfter := shown_relayedWaits hShown hStorable now old
      cases slot with
      | out sent => cases hNone
      | empty => exact ⟨rfl, hAfter⟩
      | into received => exact ⟨rfl, hAfter⟩

------------------------------------------------------------
-- The place of a key
------------------------------------------------------------

/- An entry is read as the storable event that it is of. -/
theorem Authored.message?_cases
    {allowed : Event → Prop}
    {m : Matcher}
    (hAuthored : m.Authored allowed)
    (hAllowed : ∀ e, allowed e → e.Storable)
    (n : Namespace)
    (key : String) :
    (Pending.text? n key m.store = none
        ∧ Pending.message? n key m.store = .ok none)
      ∨ ∃ e,
        e.nameSpace = n
          ∧ Pending.message? n key m.store
            = .ok (some e) := by
  cases hText : Pending.text? n key m.store with
  | none =>
      exact .inl
        ⟨rfl, Pending.message?_of_text?_eq_none hText⟩
  | some text =>
      rcases hAuthored n key text hText with
        ⟨e, task, storedAt, hEvent, hName, -, hRecord⟩
      subst hRecord
      exact .inr
        ⟨e, hName,
          Pending.message?_of_recordText
            (hAllowed e hEvent) hName hText⟩

/-
  Where all entries are of storable events and no key waits
  on both sides, the entries of a key show a place.
-/
theorem shown_of
    {allowed : Event → Prop}
    {m : Matcher}
    (hAuthored : m.Authored allowed)
    (hAllowed : ∀ e, allowed e → e.Storable)
    (hSides : m.Apart .awaitingDestination .awaitingOrigin)
    (key : String) :
    (Place.of key m.store).Shown key m.store := by
  suffices hPlace : ∃ p : Place, p.Shown key m.store by
    rcases hPlace with ⟨p, hShown⟩
    rw [hShown.of_eq]
    exact hShown
  have hRelay :
      ∃ relay : Option Relayed,
        Pending.message? .relayed key m.store
          = .ok (relay.map .relayed) := by
    rcases hAuthored.message?_cases hAllowed .relayed key with
      ⟨-, hNone⟩ | ⟨e, hName, hSome⟩
    · exact ⟨none, hNone⟩
    · cases e with
      | sent message => cases hName
      | received message => cases hName
      | relayed message => exact ⟨some message, hSome⟩
  rcases hRelay with ⟨relay, hRelay⟩
  rcases
    hAuthored.message?_cases hAllowed .awaitingDestination key
    with ⟨-, hDestination⟩ | ⟨e, hName, hDestination⟩
  · rcases
      hAuthored.message?_cases hAllowed .awaitingOrigin key
      with ⟨-, hOrigin⟩ | ⟨e, hName, hOrigin⟩
    · refine ⟨⟨.empty, relay⟩, fun n => ?_⟩
      cases n with
      | awaitingDestination => exact hDestination
      | awaitingOrigin => exact hOrigin
      | relayed => exact hRelay
    · cases e with
      | sent message => cases hName
      | relayed message => cases hName
      | received message =>
          refine ⟨⟨.into message, relay⟩, fun n => ?_⟩
          cases n with
          | awaitingDestination => exact hDestination
          | awaitingOrigin => exact hOrigin
          | relayed => exact hRelay
  · cases e with
    | received message => cases hName
    | relayed message => cases hName
    | sent message =>
        have hOrigin :
            Pending.message? .awaitingOrigin key m.store
              = .ok none := by
          rcases hSides key with hNone | hNone
          · rw [Pending.message?_of_text?_eq_none hNone]
              at hDestination
            cases hDestination
          · exact Pending.message?_of_text?_eq_none hNone
        refine ⟨⟨.out message, relay⟩, fun n => ?_⟩
        cases n with
        | awaitingDestination => exact hDestination
        | awaitingOrigin => exact hOrigin
        | relayed => exact hRelay

end Matcher

end JourneyMatch

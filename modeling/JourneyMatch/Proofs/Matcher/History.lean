import Mathlib.Data.List.Induction
import JourneyMatch.Proofs.Matcher.Leg
import JourneyMatch.Proofs.Matcher.Run
import JourneyMatch.Proofs.Pending.Legs

/-
  This file traces every entry back to the call that wrote
  it. In a history of a matcher each entry was stored by an
  event of that history, under the key of that event and in
  the namespace of its kind; and no key waits as a sent
  message and on another side as well.

  Key definitions include:
    * `Matcher.moveAll`
    * `Matcher.Wrote`
    * `Matcher.WrittenBy`
    * `Matcher.Traced`
    * `Event.WaitsUnder`

  Main statements:
    * `Matcher.Meeting.relays_apart`
    * `Matcher.traced_moveAll`
    * `Matcher.moveAll_entries`
-/

namespace JourneyMatch

------------------------------------------------------------
-- Events that wait under a key
------------------------------------------------------------

theorem messageIdentity_ne_empty
    {messageId : Option String}
    {messageHash identity : String}
    (hIdentity :
      messageIdentity messageId messageHash = some identity) :
    identity ≠ "" := by
  unfold messageIdentity at hIdentity
  cases hTopic : messageId.filter (· ≠ "") with
  | some topic =>
      rw [hTopic] at hIdentity
      cases hIdentity
      simpa using (Option.filter_eq_some_iff.mp hTopic).2
  | none =>
      rw [hTopic] at hIdentity
      simp only at hIdentity
      split at hIdentity
      · rename_i hHash
        cases hIdentity
        exact hHash
      · cases hIdentity

/- No identity is empty. -/
theorem Event.identity_ne_empty
    {e : Event}
    {identity : String}
    (hIdentity : e.identity = some identity) :
    identity ≠ "" := by
  cases e with
  | sent m => exact messageIdentity_ne_empty hIdentity
  | received m => exact messageIdentity_ne_empty hIdentity
  | relayed m => exact messageIdentity_ne_empty hIdentity

/- Whether the index of a sent message lies within its legs. -/
def Sent.IndexWithin
    (m : Sent) : Prop :=
  m.legIndex.toNat < m.legs.length

/- The index behind such a one is still a word. -/
theorem Sent.IndexWithin.toNat_succ
    {m : Sent}
    (hIndex : m.IndexWithin)
    (hLegs : m.legs.length < UInt64.size) :
    (m.legIndex + 1).toNat = m.legIndex.toNat + 1 := by
  unfold IndexWithin at hIndex
  have hOne : (1 : UInt64).toNat = 1 := rfl
  rw [UInt64.toNat_add, hOne]
  apply Nat.mod_eq_of_lt
  have hSize : UInt64.size = 2 ^ 64 := rfl
  omega

/-
  What is known of an event that waits under a key of a
  namespace.
-/
structure Event.WaitsUnder
    (n : Namespace)
    (key : String)
    (e : Event) : Prop where
  subscription : ValidSubscription e.subscription
  leg :
    ∃ identity chain,
      e.identity = some identity
        ∧ identity ≠ ""
        ∧ e.nextChain? = some chain
        ∧ key
          = pendingKey e.subscription
            (correlationKey identity chain)
  kind :
    match n with
    | .awaitingDestination =>
        ∃ m, e = .sent m ∧ m.IndexWithin
    | .awaitingOrigin => ∃ m, e = .received m
    | .relayed => ∃ m, e = .relayed m

/- An event with a key waits under it. -/
theorem Event.waitsUnder_of_key
    {e : Event}
    {key : String}
    (hKey : e.key = .ok key) :
    e.WaitsUnder e.nameSpace key := by
  rcases key_eq_ok_iff.mp hKey with ⟨id, hLeg, hSame⟩
  rcases legId?_eq_ok_iff.mp hLeg with
    ⟨hValid, hSubscription, hIdentity, hChain⟩
  constructor
  · rw [hSubscription]
    exact hValid
  · refine
      ⟨id.identity, id.chain, hIdentity,
        identity_ne_empty hIdentity, hChain, ?_⟩
    rw [hSubscription]
    exact hSame.symm
  · cases e with
    | sent m =>
        refine ⟨m, rfl, ?_⟩
        rcases Option.map_eq_some_iff.mp hChain with
          ⟨leg, hFound, -⟩
        exact (List.getElem?_eq_some_iff.mp hFound).1
    | received m => exact ⟨m, rfl⟩
    | relayed m => exact ⟨m, rfl⟩

namespace Matcher

------------------------------------------------------------
-- Histories as lists of moves
------------------------------------------------------------

/- A matcher after moves, one after the other. -/
def moveAll :
    List Move → Matcher → Matcher
  | [], m => m
  | next :: rest, m => moveAll rest (m.move next)

theorem moveAll_append
    (first second : List Move)
    (m : Matcher) :
    m.moveAll (first ++ second)
      = (m.moveAll first).moveAll second := by
  induction first generalizing m with
  | nil => rfl
  | cons next first ih => exact ih (m.move next)

/- The moves of a history lead to a state of it. -/
theorem Reachable.moveAll
    {allowed : Event → Prop}
    {expiry : Nat}
    {tags : TagSource}
    {m : Matcher}
    {history : List Move}
    (hReachable : Reachable allowed expiry tags m)
    (hHistory : ∀ next ∈ history, next.Admits allowed) :
    Reachable allowed expiry tags (m.moveAll history) := by
  induction history generalizing m with
  | nil => exact hReachable
  | cons next history ih =>
      exact
        ih (.step next hReachable
            (hHistory next List.mem_cons_self))
          fun other hMem =>
            hHistory other (List.mem_cons_of_mem next hMem)

------------------------------------------------------------
-- Who wrote an entry
------------------------------------------------------------

/-
  Whether a call with an event has written a text under a key
  of a namespace.
-/
structure Wrote
    (now : Readings)
    (e : Event)
    (n : Namespace)
    (key text : String)
    (m : Matcher) : Prop where
  nameSpace : e.nameSpace = n
  ownKey : e.key = .ok key
  ownText : text = m.newText now key e
  stands :
    Pending.text? n key (m.handle now e).2.store = some text

/- What a call leaves was there before, or the call wrote it. -/
theorem text?_handle_cases
    {now : Readings}
    {e : Event}
    {m : Matcher}
    {n : Namespace}
    {key text : String}
    (hText :
      Pending.text? n key (m.handle now e).2.store
        = some text) :
    Pending.text? n key m.store = some text
      ∨ m.Wrote now e n key text := by
  rcases m.handle_cases now e with
    ⟨reason, hHandle⟩
      | ⟨own, reply, after, hKey, hHandle, hMeeting⟩
  · rw [hHandle] at hText
    exact .inl hText
  · have hAfter := hText
    rw [hHandle] at hAfter
    rcases hMeeting.text?_cases hAfter with
      hOld | ⟨hName, hSame, hNew, -⟩
    · exact .inl hOld
    · subst hName hSame
      exact .inr ⟨rfl, hKey, hNew, hText⟩

/-
  Whether a text was written under a key by an event of a
  history, which arrived at what the moves before it had led
  to, and has stood there since.
-/
structure WrittenBy
    (start : Matcher)
    (n : Namespace)
    (key text : String)
    (earlier : List Move)
    (now : Readings)
    (e : Event)
    (later : List Move) : Prop where
  wrote : (start.moveAll earlier).Wrote now e n key text
  since :
    ∀ between,
      between <+: later →
        Pending.text? n key
            (start.moveAll
              (earlier ++ .event now e :: between)).store
          = some text

/- Whether every entry was written by an event of a history. -/
def Traced
    (start : Matcher)
    (history : List Move) : Prop :=
  ∀ n key text,
    Pending.text? n key (start.moveAll history).store
        = some text →
      ∃ earlier now e later,
        history = earlier ++ .event now e :: later
          ∧ start.WrittenBy n key text earlier now e later

/- One more move at the end of a history. -/
theorem Traced.concat
    {start : Matcher}
    {history : List Move}
    (hTraced : Traced start history)
    (next : Move) :
    Traced start (history ++ [next]) := by
  intro n key text hText
  have hLast :
      start.moveAll (history ++ [next])
        = (start.moveAll history).move next :=
    moveAll_append history [next] start
  have hAfter := hText
  rw [hLast] at hAfter
  -- An entry from before was written before, and still stands.
  have hOld :
      Pending.text? n key (start.moveAll history).store
          = some text →
        ∃ earlier now e later,
          history ++ [next] = earlier ++ .event now e :: later
            ∧ start.WrittenBy n key text earlier now e
              later := by
    intro hBefore
    rcases hTraced n key text hBefore with
      ⟨earlier, now, e, later, hHistory, hWritten⟩
    have hLonger :
        history ++ [next]
          = earlier ++ .event now e :: (later ++ [next]) := by
      rw [hHistory, List.append_assoc, List.cons_append]
    refine
      ⟨earlier, now, e, later ++ [next], hLonger,
        hWritten.wrote, ?_⟩
    intro between hPrefix
    rcases List.prefix_concat_iff.mp hPrefix with
      hWhole | hPart
    · rw [hWhole, ← hLonger]
      exact hText
    · exact hWritten.since between hPart
  have hAdmits : next.Admits fun _ => True := by
    cases next <;> trivial
  rcases Reachable.admits_cases hAdmits with
    ⟨now, e, hEvent, -⟩ | hRemoval
  · subst hEvent
    rcases text?_handle_cases hAfter with hBefore | hWrote
    · exact hOld hBefore
    · refine ⟨history, now, e, [], rfl, hWrote, ?_⟩
      intro between hPrefix
      rw [List.prefix_nil.mp hPrefix]
      exact hText
  · exact hOld
      ((within_move _ hRemoval).entries n key text hAfter)

/- Every entry of a history was written by one of its events. -/
theorem traced_moveAll
    (expiry : Nat)
    (tags : TagSource)
    (history : List Move) :
    Traced (begin expiry tags .empty) history := by
  induction history using List.reverseRecOn with
  | nil =>
      intro n key text hText
      rw [moveAll, Reachable.text?_begin] at hText
      cases hText
  | append_singleton history next ih => exact ih.concat next

------------------------------------------------------------
-- Relays that have not been told
------------------------------------------------------------

/-
  A sent message that is stored where none was tells the
  relay of its key, which does not wait any longer.
-/
theorem Meeting.relay_told
    {now : Readings}
    {key text : String}
    {m after : Matcher}
    {message : Sent}
    {reply : Reply}
    (hMeeting : Meeting now key m (.sent message) reply after)
    (hBefore :
      Pending.text? .awaitingDestination key m.store = none)
    (hAfter :
      Pending.text? .awaitingDestination key after.store
        = some text) :
    Pending.text? .relayed key after.store = none := by
  cases hMeeting with
  | unread =>
      rw [hBefore] at hAfter
      cases hAfter
  | unreadRelay =>
      rw [hBefore] at hAfter
      cases hAfter
  | sentMatched =>
      simp [hBefore] at hAfter
  | @sentWaits _ relayed old hInbound hRelayed =>
      cases relayed with
      | none =>
          have hNone := Pending.text?_eq_none_of_record? hRelayed
          simp [dropRelay_eq, hNone, Event.nameSpace]
      | some r => simp [dropRelay_eq]
  | overwritten _ _ hOwn =>
      have hNone := Pending.record?_of_text?_eq_none hBefore
      cases hOwn.symm.trans hNone

/- No call makes a key wait as a sent message and as a relay. -/
theorem Meeting.relays_apart
    {now : Readings}
    {key : String}
    {m after : Matcher}
    {e : Event}
    {reply : Reply}
    (hMeeting : Meeting now key m e reply after)
    (hApart : m.Apart .awaitingDestination .relayed) :
    after.Apart .awaitingDestination .relayed := by
  apply hMeeting.apart_of_key hApart
  cases hSent :
      Pending.text? .awaitingDestination key after.store with
  | none => exact .inl rfl
  | some sent =>
      right
      cases hRelay : Pending.text? .relayed key after.store with
      | none => rfl
      | some relay =>
          rcases hMeeting.text?_cases hRelay with
            hOldRelay | ⟨hName, -, -, hAlone⟩
          · -- The relay waited before, so no sent one did.
            have hNoSent := (hApart key).resolve_right
              (by rw [hOldRelay]; exact Option.some_ne_none relay)
            rcases hMeeting.text?_cases hSent with
              hOldSent | ⟨hName, -⟩
            · rw [hNoSent] at hOldSent
              cases hOldSent
            · cases e with
              | sent message =>
                  rw [hMeeting.relay_told hNoSent hSent]
                    at hRelay
                  cases hRelay
              | received message => cases hName
              | relayed message => cases hName
          · -- The relay is new, so no sent one waits.
            cases e with
            | sent message => cases hName
            | received message => cases hName
            | relayed message =>
                have hNoSent :=
                  Pending.text?_eq_none_of_record? hAlone
                rcases hMeeting.text?_cases hSent with
                  hOldSent | ⟨hName, -⟩
                · rw [Event.counterpart, hOldSent] at hNoSent
                  cases hNoSent
                · cases hName

theorem Reachable.relays_apart
    {allowed : Event → Prop}
    {expiry : Nat}
    {tags : TagSource}
    {m : Matcher}
    (hReachable : Reachable allowed expiry tags m) :
    m.Apart .awaitingDestination .relayed :=
  hReachable.apart Meeting.relays_apart

------------------------------------------------------------
-- Entries of histories
------------------------------------------------------------

/- A sent message that is read was stored with its legs. -/
theorem Wrote.indexWithin
    {now : Readings}
    {e : Event}
    {key text : String}
    {m : Matcher}
    {r : PendingRecord Event}
    (hWrote : m.Wrote now e .awaitingDestination key text)
    (hRead :
      Namespace.decode text .awaitingDestination = .ok r) :
    ∃ message, r.message = .sent message ∧ message.IndexWithin := by
  rcases (hWrote.nameSpace ▸
      Event.waitsUnder_of_key hWrote.ownKey).kind with
    ⟨written, hSent, hIndex⟩
  subst hSent
  have hText := hWrote.ownText
  rw [newText] at hText
  have hDecode :=
    Event.decode_recordText (.sent written)
      (m.expiryTask now (Event.sent written).nameSpace key).key
      (Int64.ofInt now.stored.unixMillis)
  rw [← hText] at hDecode
  rw [Event.nameSpace, hRead] at hDecode
  cases hReread : (Event.sent written).reread with
  | error cause =>
      rw [hReread] at hDecode
      cases hDecode
  | ok x =>
      rw [hReread] at hDecode
      cases hDecode
      rcases Event.sent_of_reread hReread with
        ⟨message, hMessage, hLegs, hSame⟩
      refine ⟨message, hMessage, ?_⟩
      unfold Sent.IndexWithin
      rw [hLegs, hSame]
      exact hIndex

/-
  In every history, no key waits as a sent message and on
  another side; every entry was written by an event of the
  history and has stood since, under that event's key, which
  is made of a proper subscription and an identity that is
  not empty; and the index of a sent message that waits, as
  it was stored and as it is read, lies within its legs, so
  that it has a next one.
-/
theorem moveAll_entries
    (expiry : Nat)
    (tags : TagSource)
    (history : List Move) :
    let start := begin expiry tags .empty
    let m := start.moveAll history
    (∀ key,
        (Pending.text? .awaitingDestination key m.store = none
            ∨ Pending.text? .awaitingOrigin key m.store = none)
          ∧ (Pending.text? .awaitingDestination key m.store = none
            ∨ Pending.text? .relayed key m.store = none))
      ∧ (∀ n key text,
        Pending.text? n key m.store = some text →
          ∃ earlier now e later,
            history = earlier ++ .event now e :: later
              ∧ start.WrittenBy n key text earlier now e later
              ∧ e.WaitsUnder n key)
      ∧ ∀ key r,
        Pending.record? .awaitingDestination key m.store
            = .ok (some r) →
          ∃ message,
            r.message = .sent message
              ∧ message.IndexWithin
              ∧ (message.legs.length < UInt64.size →
                (message.legIndex + 1).toNat
                  = message.legIndex.toNat + 1) := by
  intro start m
  have hReachable : Reachable (fun _ => True) expiry tags m :=
    Reachable.start.moveAll fun next _ => by
      cases next <;> trivial
  have hTraced := traced_moveAll expiry tags history
  refine ⟨?_, ?_, ?_⟩
  · exact fun key =>
      ⟨hReachable.sides_apart key, hReachable.relays_apart key⟩
  · intro n key text hText
    rcases hTraced n key text hText with
      ⟨earlier, now, e, later, hHistory, hWritten⟩
    have hWaits :=
      Event.waitsUnder_of_key hWritten.wrote.ownKey
    rw [hWritten.wrote.nameSpace] at hWaits
    exact ⟨earlier, now, e, later, hHistory, hWritten, hWaits⟩
  · intro key r hRecord
    rcases Pending.record?_eq_some_iff.mp hRecord with
      ⟨text, hText, hRead⟩
    rcases hTraced _ key text hText with
      ⟨earlier, now, e, later, -, hWritten⟩
    rcases hWritten.wrote.indexWithin hRead with
      ⟨message, hMessage, hIndex⟩
    exact ⟨message, hMessage, hIndex, hIndex.toNat_succ⟩

end Matcher

end JourneyMatch

import JourneyMatch.Matcher.Basic
import JourneyMatch.Proofs.Correlation

/-
  This file names what waits for its other side: a leg of a
  message, by the subscription, the identity of the message,
  and the chain it is expected on. The key of an event is
  that of its leg, and tells legs apart as far as digests
  tell identities apart; it always gives the subscription
  back.

  Key definitions include:
    * `LegId`
    * `Event.messageName?`
    * `Event.arrival?`
    * `Event.legId?`

  Main statements:
    * `LegId.key_injective`
    * `Event.key_eq_ok_iff`
    * `Event.subscription_eq_of_key_eq`
-/

namespace JourneyMatch

------------------------------------------------------------
-- Legs
------------------------------------------------------------

/-
  What tells a leg of a message apart: the subscription, the
  identity of the message, and the chain it is expected on.
-/
structure LegId where
  subscription : String
  identity : String
  chain : ChainId
  deriving DecidableEq, Repr

namespace LegId

/- The key under which a leg waits. -/
def key
    (id : LegId) : String :=
  pendingKey id.subscription
    (correlationKey id.identity id.chain)

/- Whether events can be of a leg. -/
structure Proper
    (identities : String → Prop)
    (id : LegId) : Prop where
  subscription : ValidSubscription id.subscription
  identity : identities id.identity

/- No two legs have the same key. -/
theorem key_injective
    {identities : String → Prop}
    {a b : LegId}
    (hSeparates : Separates identities)
    (hFirst : a.Proper identities)
    (hSecond : b.Proper identities)
    (hKey : a.key = b.key) :
    a = b := by
  rcases pendingKey_injective hSeparates hFirst.subscription
      hSecond.subscription hFirst.identity hSecond.identity
      hKey with
    ⟨hSubscription, hIdentity, hChain⟩
  cases a
  cases b
  subst hSubscription hIdentity hChain
  rfl

end LegId

------------------------------------------------------------
-- The legs of events
------------------------------------------------------------

/-
  What names a message: its topic, unless it is missing or
  empty, and otherwise its hash, unless that is empty.
-/
def topicOrHash
    (topic : Option String)
    (hash : String) : Option String :=
  if topic.getD "" ≠ "" then
    topic
  else if hash ≠ "" then
    some hash
  else
    none

theorem messageIdentity_eq_topicOrHash
    (topic : Option String)
    (hash : String) :
    messageIdentity topic hash = topicOrHash topic hash := by
  unfold messageIdentity topicOrHash
  cases topic with
  | none => rfl
  | some topic =>
      by_cases hEmpty : topic = ""
      · simp [Option.filter, hEmpty]
      · simp [Option.filter, hEmpty]

namespace Event

/- What names the message of an event. -/
def messageName? : Event → Option String
  | .sent m => topicOrHash m.messageId m.messageHash
  | .received m => topicOrHash m.messageId m.messageHash
  | .relayed m => topicOrHash m.messageId m.messageHash

/-
  The chain where the leg of an event ends: the target of the
  leg that a sent message begins, the chain on which a
  received one was seen, and the recipient of a relayed one.
-/
def arrival? : Event → Option ChainId
  | .sent m => m.legs[m.legIndex.toNat]?.map Leg.target
  | .received m => some m.chain
  | .relayed m => some m.recipient

theorem identity_eq_messageName?
    (e : Event) :
    e.identity = e.messageName? := by
  cases e with
  | sent m => exact messageIdentity_eq_topicOrHash _ _
  | received m => exact messageIdentity_eq_topicOrHash _ _
  | relayed m => exact messageIdentity_eq_topicOrHash _ _

theorem nextChain?_eq_arrival?
    (e : Event) :
    e.nextChain? = e.arrival? := by
  cases e <;> rfl

/-
  The leg of an event. What is wrong with its name, its
  subscription and its leg is found in this order.
-/
def legId?
    (e : Event) : Except RejectReason LegId :=
  match e.messageName? with
  | none => .error .missingIdentity
  | some identity =>
      if ValidSubscription e.subscription then
        match e.arrival? with
        | none => .error .invalidLeg
        | some chain => .ok ⟨e.subscription, identity, chain⟩
      else
        .error .invalidSubscription

/- An event has the key of its leg. -/
theorem key_eq_map_legId?
    (e : Event) :
    e.key = e.legId?.map LegId.key := by
  unfold key legId?
  rw [identity_eq_messageName?, nextChain?_eq_arrival?]
  cases e.messageName? with
  | none => rfl
  | some identity =>
      dsimp only
      split
      · cases e.arrival? <;> rfl
      · rfl

theorem legId?_eq_ok_iff
    {e : Event}
    {id : LegId} :
    e.legId? = .ok id ↔
      ValidSubscription id.subscription
        ∧ e.subscription = id.subscription
        ∧ e.identity = some id.identity
        ∧ e.nextChain? = some id.chain := by
  unfold legId?
  rcases id with ⟨subscription, identity, chain⟩
  rw [identity_eq_messageName?, nextChain?_eq_arrival?]
  cases e.messageName? with
  | none => simp
  | some known =>
      by_cases hValid : ValidSubscription e.subscription
      · cases e.arrival? with
        | none => simp [hValid]
        | some next =>
            simp only [if_pos hValid, Except.ok.injEq,
              LegId.mk.injEq, Option.some.injEq]
            constructor
            · rintro ⟨hSame, hIdentity, hChain⟩
              subst hSame
              exact ⟨hValid, rfl, hIdentity, hChain⟩
            · rintro ⟨-, hSame, hIdentity, hChain⟩
              exact ⟨hSame, hIdentity, hChain⟩
      · simp only [if_neg hValid, reduceCtorEq, false_iff]
        rintro ⟨hOther, hSame, -⟩
        exact hValid (hSame ▸ hOther)

/- An event has a key if it has a leg. -/
theorem key_eq_ok_iff
    {e : Event}
    {key : String} :
    e.key = .ok key ↔
      ∃ id : LegId, e.legId? = .ok id ∧ id.key = key := by
  rw [key_eq_map_legId?]
  cases e.legId? with
  | error reason => simp [Except.map]
  | ok id => simp [Except.map]

/- Events of one key are of one subscription. -/
theorem subscription_eq_of_key_eq
    {e x : Event}
    {key : String}
    (hFirst : e.key = .ok key)
    (hSecond : x.key = .ok key) :
    e.subscription = x.subscription := by
  rcases key_eq_ok_iff.mp hFirst with ⟨a, hLeg, hKey⟩
  rcases key_eq_ok_iff.mp hSecond with ⟨b, hOther, hSame⟩
  rcases legId?_eq_ok_iff.mp hLeg with ⟨hValid, hFront, -⟩
  rcases legId?_eq_ok_iff.mp hOther with ⟨hAlso, hBack, -⟩
  rw [hFront, hBack]
  exact
    (subscription_eq_of_pendingKey_eq hValid hAlso
      (hKey.trans hSame.symm)).1

end Event

end JourneyMatch

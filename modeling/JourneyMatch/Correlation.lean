import JourneyMatch.Base64
import JourneyMatch.Observation.Message
import JourneyMatch.Sha256

/-
  This file defines the keys by which the two sides of a leg
  find each other. One message can be on its way to several
  chains, so that a key names both the message and the chain
  on which it is expected next.

  Key definitions include:
    * `correlationKey`
    * `pendingKey`
    * `subscriptionStart`
    * `ValidSubscription`
-/

namespace JourneyMatch

/- The digest of an identity, as a text. -/
def identityDigest
    (identity : String) : String :=
  String.ofList
    (Base64.encode (Sha256.digest identity.toUTF8.data.toList))

/- The digest of the identity, a colon, and the chain. -/
def correlationKey
    (identity : String)
    (chain : ChainId) : String :=
  identityDigest identity ++ ":" ++ chain.text

/- What every key of a subscription begins with. -/
def subscriptionStart
    (subscription : String) : String :=
  subscription ++ ":"

/- The key of a pending entry. -/
def pendingKey
    (subscription correlation : String) : String :=
  subscriptionStart subscription ++ correlation

/-
  The subscriptions that keys can be made of: the colon that
  follows them in a key is the first one.
-/
def ValidSubscription
    (subscription : String) : Prop :=
  subscription ≠ "" ∧ ':' ∉ subscription.toList

instance
    (subscription : String) :
    Decidable (ValidSubscription subscription) := by
  unfold ValidSubscription
  infer_instance

end JourneyMatch

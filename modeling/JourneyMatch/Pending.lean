import JourneyMatch.Correlation
import JourneyMatch.Store.Basic

/-
  This file defines the observations that wait for their
  counterpart. They are kept in three namespaces, each of
  which is a level of the store.

  Key definitions include:
    * `Namespace`
    * `Namespace.ofText?`
    * `PendingRecord`
    * `Pending.level`
    * `Pending.subscriptionKeys`
    * `Pending.size`
-/

namespace JourneyMatch

------------------------------------------------------------
-- Namespaces
------------------------------------------------------------

/-
  Sent messages wait for the destination to report, received
  ones for their sent side, and relayed ones as well.
-/
inductive Namespace where
  | awaitingDestination
  | awaitingOrigin
  | relayed
  deriving DecidableEq, Repr

namespace Namespace

/- All namespaces, in their order. -/
def all : List Namespace :=
  [.awaitingDestination, .awaitingOrigin, .relayed]

/- What the name of every namespace begins with. -/
def nameStart : String :=
  "pending:"

/- The last part of the name of a namespace. -/
def shortName : Namespace → String
  | .awaitingDestination => "awaiting-destination"
  | .awaitingOrigin => "awaiting-origin"
  | .relayed => "relayed"

/- The name of a namespace, which is that of its level. -/
def name
    (n : Namespace) : String :=
  nameStart ++ n.shortName

/- The namespace of a name or of the last part of one. -/
def ofText?
    (text : String) : Option Namespace :=
  all.find? fun n => n.name = text || n.shortName = text

end Namespace

/- The wording for a text that names no namespace. -/
def unknownNamespaceMessage
    (text : String) : String :=
  "unknown pending namespace: " ++ text

------------------------------------------------------------
-- Records
------------------------------------------------------------

/-
  A stored observation, with the key of the task that removes
  it, and the time of storing in milliseconds.
-/
structure PendingRecord (α : Type) where
  message : α
  expiryTask : String
  storedAt : Int64

/- The fields of a record around those of its message. -/
def PendingRecord.fields
    (message : Shape) : Fields :=
  .cons "message" message .required <|
  .cons "expiryTask" .text .required <|
  .cons "storedAt" .signed64 .required .nil

instance
    {α : Type}
    [Wire α] :
    Wire (PendingRecord α) where
  shape := .record (PendingRecord.fields (Wire.shape α))
  pack r := (Wire.pack r.message, r.expiryTask, r.storedAt, ())
  unpack
    | (message, expiryTask, storedAt, ()) =>
      ⟨Wire.unpack message, expiryTask, storedAt⟩
  unpack_pack r := by
    cases r
    simp only [Wire.unpack_pack]

------------------------------------------------------------
-- Views of the store
------------------------------------------------------------

namespace Pending

/- The entries of a namespace. -/
def level
    (n : Namespace)
    (s : Store) : Level :=
  s.level n.name

/-
  The keys of a subscription in all namespaces, in the order
  of the namespaces and then of the keys.
-/
def subscriptionKeys
    (subscription : String)
    (s : Store) : List (Namespace × String) :=
  Namespace.all.flatMap fun n =>
    ((level n s).startingWith
      (subscriptionStart subscription)).map
        fun entry => (n, entry.1)

/- The number of entries in all namespaces. -/
def size
    (s : Store) : Nat :=
  (Namespace.all.flatMap fun n => (level n s).entries).length

end Pending

end JourneyMatch

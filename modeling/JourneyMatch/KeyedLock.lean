import JourneyMatch.Sorted.Map

/-
  This file defines a lock for each key. A key gets a slot on
  first use, and all who ask for the key while it has the
  slot stand in one line for it. The first in the line owns
  the slot; it holds the lock once it has looked.

  Who releases a slot that nobody else refers to takes it
  away. Who gives up a wait leaves the slot where it is.

  Key definitions include:
    * `Claim`
    * `KeyedLock`
    * `KeyedLock.owner?`
    * `KeyedLock.standing`
    * `KeyedLock.lock`
    * `KeyedLock.poll`
    * `KeyedLock.drop`
-/

namespace JourneyMatch

------------------------------------------------------------
-- Claims
------------------------------------------------------------

/-
  A claim to the lock of a key: who makes it, the slot, and
  whether the lock has been taken.
-/
structure Claim where
  handle : String
  key : String
  slot : Nat
  held : Bool
  deriving DecidableEq, Repr

/- How a handle stands: it holds, it waits, or neither. -/
inductive Standing where
  | held
  | waiting
  | absent
  deriving DecidableEq, Repr

/-
  The slots in use by key, the claims in the order in which
  they were made, and the number of the next new slot.
-/
structure KeyedLock where
  slots : SortedMap Nat
  claims : List Claim
  fresh : Nat

namespace KeyedLock

/- The lock that nobody has asked for. -/
def empty : KeyedLock :=
  ⟨.empty, [], 0⟩

/- The claim of a handle. -/
def claim?
    (handle : String)
    (l : KeyedLock) : Option Claim :=
  l.claims.find? fun c => c.handle = handle

/- The owner of a slot is the earliest claim to it. -/
def owner?
    (slot : Nat)
    (l : KeyedLock) : Option Claim :=
  l.claims.find? fun c => c.slot = slot

/- How a handle stands. -/
def standing
    (handle : String)
    (l : KeyedLock) : Standing :=
  match l.claim? handle with
  | none => .absent
  | some c => if c.held then .held else .waiting

/-
  How many refer to a slot: the table, if it is the slot of
  the key there, and each claim twice.
-/
def references
    (key : String)
    (slot : Nat)
    (l : KeyedLock) : Nat :=
  (if l.slots.find? key = some slot then 1 else 0)
    + 2 * l.claims.countP (·.slot = slot)

------------------------------------------------------------
-- Steps
------------------------------------------------------------

/- Takes the lock for a handle, if it owns its slot. -/
def poll
    (handle : String)
    (l : KeyedLock) : KeyedLock :=
  match l.claim? handle with
  | none => l
  | some c =>
      if l.owner? c.slot = some c then
        { l with
          claims :=
            l.claims.map fun d =>
              if d = c then { c with held := true } else d }
      else
        l

/- Finds the slot of a key, or makes a new one. -/
def slotFor
    (key : String)
    (l : KeyedLock) : Nat × KeyedLock :=
  match l.slots.find? key with
  | some slot => (slot, l)
  | none =>
      (l.fresh,
        { l with
          slots := l.slots.insert key l.fresh
          fresh := l.fresh + 1 })

/- Makes a claim to a key, and tries it once. -/
def lock
    (handle key : String)
    (l : KeyedLock) : KeyedLock :=
  let (slot, l) := l.slotFor key
  poll handle
    { l with
      claims := l.claims ++ [⟨handle, key, slot, false⟩] }

/-
  Ends the claim of a handle. One that held the lock takes
  the slot away when only the table and itself refer to it
  any more: what it held has been released, so that it counts
  once.
-/
def drop
    (handle : String)
    (l : KeyedLock) : KeyedLock :=
  match l.claim? handle with
  | none => l
  | some c =>
      let rest := { l with claims := l.claims.erase c }
      if c.held && rest.references c.key c.slot + 1 = 2 then
        { rest with slots := rest.slots.erase c.key }
      else
        rest

end KeyedLock

end JourneyMatch

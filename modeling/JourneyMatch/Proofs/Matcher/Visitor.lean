import JourneyMatch.Proofs.KeyedLock
import JourneyMatch.Proofs.Matcher.Meeting

/-
  This file defines the calls of the matcher that come to its
  gate: events, clearings, and calls that stop it. It says
  how far each can have come, and which steps it makes while
  it works. A call that nothing comes between does what the
  matcher does.

  Key definitions include:
    * `Request`
    * `Answer`
    * `Request.answered`
    * `Visitor`
    * `Stage`
    * `Visitor.Proceeds`
    * `Visitor.Runs`

  Main statements:
    * `Visitor.Proceeds.stopped_eq`
    * `Visitor.Proceeds.untold`
    * `Visitor.runs_handle`
    * `Visitor.runs_clear`
    * `Visitor.runs_answered`
-/

namespace JourneyMatch

------------------------------------------------------------
-- Calls and how far they have come
------------------------------------------------------------

/- What a call asks of the matcher. -/
inductive Request where
  | event (e : Event)
  | clear (subscription : String)
  | stop

/- What a call returns, with the notifications it has told. -/
inductive Answer where
  | event (reply : Reply)
  | clear (result : Except MatchError Nat)
  | stop

/- The notifications that belong to an answer. -/
def Answer.notifications : Answer → List Notification
  | .event reply => reply.notifications
  | .clear _ => []
  | .stop => []

/- The answer of a stopped matcher, whatever else is asked. -/
def Request.turnedAway : Request → Answer
  | .event _ => .event (.rejected .stopped)
  | .clear _ => .clear (.error .stopped)
  | .stop => .stop

/- Nothing is told to one who is turned away. -/
theorem Request.notifications_turnedAway
    (r : Request) :
    r.turnedAway.notifications = [] := by
  cases r <;> rfl

/-
  What the matcher answers to a request that comes alone, and
  what the matcher is then.
-/
def Request.answered
    (now : Readings)
    (m : Matcher) : Request → Answer × Matcher
  | .event e => (.event (m.handle now e).1, (m.handle now e).2)
  | .clear subscription =>
      (.clear (m.clear subscription).1, (m.clear subscription).2)
  | .stop => (.stop, m.stop)

/- A stopped matcher turns away whatever is asked. -/
theorem Request.answered_of_stopped
    {m : Matcher}
    (now : Readings)
    (r : Request)
    (hStopped : m.stopped = true) :
    r.answered now m = (r.turnedAway, m) := by
  cases r with
  | event e =>
      rw [answered, Matcher.handle_of_stopped now e hStopped]
      rfl
  | clear subscription =>
      simp [answered, Matcher.clear, turnedAway, hStopped]
  | stop =>
      rw [answered, Matcher.stop, ← hStopped]
      rfl

/- A call, with the handle by which it asks for permits. -/
structure Visitor where
  handle : String
  request : Request

/-
  How far a call has come. Outside it has no permit yet. Let
  in, it looks whether the matcher is stopped, and begins if
  it is not.

  An event then has its key, asks for the lock of the key, has
  run, and tells what is left of its notifications. A clearing
  has the keys that are left and a count; for each it asks for
  the lock, takes the entry and cancels its task. Ready, it is
  about to give its permit back and return.

  A call that stops the matcher has the gate for itself while
  it closes and once it has closed.
-/
inductive Stage where
  | outside
  | letIn
  | begun
  | keyed (key : String)
  | asked (key : String)
  | ran (reply : Reply)
  | telling (reply : Reply) (left : List Notification)
  | clearing (keys : List (Namespace × String)) (count : Nat)
  | claiming
      (n : Namespace) (key : String)
      (keys : List (Namespace × String)) (count : Nat)
  | taken
      (entry : Except StoreError (Option (PendingRecord Json)))
      (keys : List (Namespace × String)) (count : Nat)
  | cancelling
      (task : String)
      (keys : List (Namespace × String)) (count : Nat)
  | ready (answer : Answer)
  | closing
  | closed
  | done (answer : Answer)

namespace Stage

/- Whether a call has found the matcher running and works. -/
def Working : Stage → Prop
  | .begun => True
  | .keyed _ => True
  | .asked _ => True
  | .ran _ => True
  | .telling _ _ => True
  | .clearing _ _ => True
  | .claiming _ _ _ _ => True
  | .taken _ _ _ => True
  | .cancelling _ _ _ => True
  | _ => False

/- Whether a call has a permit beside others. -/
def Inside
    (p : Stage) : Prop :=
  p = .letIn ∨ p.Working ∨ ∃ answer, p = .ready answer

/- Whether a call has the gate for itself. -/
def Alone
    (p : Stage) : Prop :=
  p = .closing ∨ p = .closed

/- Whether a call has returned. -/
def Ended
    (p : Stage) : Prop :=
  ∃ answer, p = .done answer

/- The notifications that a call has to tell, once known. -/
def due : Stage → List Notification
  | .ran reply => reply.notifications
  | .telling reply _ => reply.notifications
  | .ready answer => answer.notifications
  | .done answer => answer.notifications
  | _ => []

/- The notifications that a call has not told yet. -/
def untold : Stage → List Notification
  | .ran reply => reply.notifications
  | .telling _ left => left
  | _ => []

/- A call with a permit does not have the gate for itself. -/
theorem Inside.not_alone
    {p : Stage}
    (hInside : p.Inside) :
    ¬ p.Alone := by
  rintro (rfl | rfl) <;>
    simp [Inside, Working] at hInside

/- A call that works has a permit. -/
theorem Working.inside
    {p : Stage}
    (hWorking : p.Working) :
    p.Inside :=
  .inr (.inl hWorking)

/-
  Whether a call that stops the matcher has done so: it has
  closed the gate, or has returned.
-/
def Past
    (p : Stage) : Prop :=
  p = .closed ∨ p.Ended

/-
  How many steps are left at most for a call of a stopped
  matcher.
-/
def left : Stage → Nat
  | .outside => 4
  | .letIn => 2
  | .ready _ => 1
  | .closing => 2
  | .closed => 1
  | _ => 0

end Stage

------------------------------------------------------------
-- What a call does inside
------------------------------------------------------------

/- What the steps of a working call act on. -/
structure Desk where
  matcher : Matcher
  lock : KeyedLock
  stage : Stage

/-
  The steps of a working call, with the notifications that
  each of them tells. They do not see the gate.
-/
inductive Visitor.Proceeds
    (c : Visitor) :
    Desk → List Notification → Desk → Prop where
  | reject
      {m : Matcher}
      {l : KeyedLock}
      {e : Event}
      {reason : RejectReason}
      (hRequest : c.request = .event e)
      (hKey : e.key = .error reason) :
      Proceeds c ⟨m, l, .begun⟩ []
        ⟨m, l, .ready (.event (.rejected reason))⟩
  | pass
      {m : Matcher}
      {l : KeyedLock}
      {e : Event}
      {key : String}
      (hRequest : c.request = .event e)
      (hKey : e.key = .ok key) :
      Proceeds c ⟨m, l, .begun⟩ [] ⟨m, l, .keyed key⟩
  | ask
      {m : Matcher}
      {l : KeyedLock}
      {key : String} :
      Proceeds c ⟨m, l, .keyed key⟩ []
        ⟨m, l.lock c.handle key, .asked key⟩
  | enter
      {m : Matcher}
      {l : KeyedLock}
      {e : Event}
      {key : String}
      (now : Readings)
      (hRequest : c.request = .event e)
      (hHeld :
        (l.poll c.handle).standing c.handle = .held) :
      Proceeds c ⟨m, l, .asked key⟩ []
        ⟨(m.meet now key e).2, l.poll c.handle,
          .ran (m.meet now key e).1⟩
  | release
      {m : Matcher}
      {l : KeyedLock}
      {reply : Reply} :
      Proceeds c ⟨m, l, .ran reply⟩ []
        ⟨m, l.drop c.handle, .telling reply reply.notifications⟩
  | tell
      {m : Matcher}
      {l : KeyedLock}
      {reply : Reply}
      {notice : Notification}
      {left : List Notification} :
      Proceeds c ⟨m, l, .telling reply (notice :: left)⟩
        [notice] ⟨m, l, .telling reply left⟩
  | told
      {m : Matcher}
      {l : KeyedLock}
      {reply : Reply} :
      Proceeds c ⟨m, l, .telling reply []⟩ []
        ⟨m, l, .ready (.event reply)⟩
  | refuse
      {m : Matcher}
      {l : KeyedLock}
      {subscription : String}
      (hRequest : c.request = .clear subscription)
      (hInvalid : ¬ ValidSubscription subscription) :
      Proceeds c ⟨m, l, .begun⟩ []
        ⟨m, l,
          .ready
            (.clear (.error (.invalidSubscription subscription)))⟩
  | list
      {m : Matcher}
      {l : KeyedLock}
      {subscription : String}
      (hRequest : c.request = .clear subscription)
      (hValid : ValidSubscription subscription) :
      Proceeds c ⟨m, l, .begun⟩ []
        ⟨m, l,
          .clearing
            (Pending.subscriptionKeys subscription m.store) 0⟩
  | claim
      {m : Matcher}
      {l : KeyedLock}
      {n : Namespace}
      {key : String}
      {keys : List (Namespace × String)}
      {count : Nat} :
      Proceeds c ⟨m, l, .clearing ((n, key) :: keys) count⟩ []
        ⟨m, l.lock c.handle key, .claiming n key keys count⟩
  | take
      {m : Matcher}
      {l : KeyedLock}
      {n : Namespace}
      {key : String}
      {keys : List (Namespace × String)}
      {count : Nat}
      {r : PendingRecord Json}
      {store : Store}
      (hHeld :
        (l.poll c.handle).standing c.handle = .held)
      (hTake :
        m.store.onLevel n.name
            (fun l => l.take (PendingRecord Json) key)
          = (.ok (some r), store)) :
      Proceeds c ⟨m, l, .claiming n key keys count⟩ []
        ⟨{ m with store }, l.poll c.handle,
          .taken (.ok (some r)) keys count⟩
  | miss
      {m : Matcher}
      {l : KeyedLock}
      {n : Namespace}
      {key : String}
      {keys : List (Namespace × String)}
      {count : Nat}
      {entry : Except StoreError (Option (PendingRecord Json))}
      {store : Store}
      (hHeld :
        (l.poll c.handle).standing c.handle = .held)
      (hTake :
        m.store.onLevel n.name
            (fun l => l.take (PendingRecord Json) key)
          = (entry, store))
      (hNone : ∀ r, entry ≠ .ok (some r)) :
      Proceeds c ⟨m, l, .claiming n key keys count⟩ []
        ⟨m, l.poll c.handle, .taken entry keys count⟩
  | fail
      {m : Matcher}
      {l : KeyedLock}
      {cause : StoreError}
      {keys : List (Namespace × String)}
      {count : Nat} :
      Proceeds c ⟨m, l, .taken (.error cause) keys count⟩ []
        ⟨m, l.drop c.handle,
          .ready (.clear (.error (.store cause)))⟩
  | skip
      {m : Matcher}
      {l : KeyedLock}
      {keys : List (Namespace × String)}
      {count : Nat} :
      Proceeds c ⟨m, l, .taken (.ok none) keys count⟩ []
        ⟨m, l.drop c.handle, .clearing keys count⟩
  | free
      {m : Matcher}
      {l : KeyedLock}
      {r : PendingRecord Json}
      {keys : List (Namespace × String)}
      {count : Nat} :
      Proceeds c ⟨m, l, .taken (.ok (some r)) keys count⟩ []
        ⟨m, l.drop c.handle,
          .cancelling r.expiryTask keys count⟩
  | cancel
      {m : Matcher}
      {l : KeyedLock}
      {task : String}
      {keys : List (Namespace × String)}
      {count : Nat} :
      Proceeds c ⟨m, l, .cancelling task keys count⟩ []
        ⟨m.cancel task, l, .clearing keys (count + 1)⟩
  | cleared
      {m : Matcher}
      {l : KeyedLock}
      {count : Nat} :
      Proceeds c ⟨m, l, .clearing [] count⟩ []
        ⟨m, l, .ready (.clear (.ok count))⟩

namespace Visitor.Proceeds

variable {c : Visitor}
variable {v w : Desk}
variable {said : List Notification}

/- A working call works on or is ready. -/
theorem stages
    (hProceeds : c.Proceeds v said w) :
    v.stage.Working
      ∧ (w.stage.Working ∨ ∃ answer, w.stage = .ready answer) := by
  cases hProceeds <;> simp [Stage.Working]

/- It does not mark the matcher as stopped, nor as running. -/
theorem stopped_eq
    (hProceeds : c.Proceeds v said w) :
    w.matcher.stopped = v.matcher.stopped := by
  cases hProceeds with
  | @enter m l e key now hRequest hHeld =>
      exact (m.meeting_meet now key e).stopped_eq
  | _ => rfl

/-
  What it has told and has not told yet is what is due, if
  this has been so.
-/
theorem untold
    (hProceeds : c.Proceeds v said w)
    {before : List Notification}
    (hBefore : before ++ v.stage.untold = v.stage.due) :
    (before ++ said) ++ w.stage.untold = w.stage.due := by
  cases hProceeds <;>
    simp_all [Stage.untold, Stage.due, Answer.notifications,
      Reply.rejected]

end Visitor.Proceeds

------------------------------------------------------------
-- A call that nothing comes between
------------------------------------------------------------

namespace Visitor

/- Steps of a working call, one after the other. -/
inductive Runs
    (c : Visitor) :
    Desk → List Notification → Desk → Prop where
  | refl
      {v : Desk} :
      Runs c v [] v
  | step
      {v w x : Desk}
      {said more : List Notification}
      (hFirst : c.Proceeds v said w)
      (hRest : Runs c w more x) :
      Runs c v (said ++ more) x

/- A call tells what is left, and is ready. -/
theorem runs_telling
    (c : Visitor)
    (m : Matcher)
    (l : KeyedLock)
    (reply : Reply)
    (left : List Notification) :
    c.Runs ⟨m, l, .telling reply left⟩ left
      ⟨m, l, .ready (.event reply)⟩ := by
  induction left with
  | nil => exact .step .told .refl
  | cons notice left ih => exact .step .tell ih

/-
  An event has the reply of the matcher, tells what belongs
  to it, and leaves the lock as idle as it was.
-/
theorem runs_handle
    {c : Visitor}
    {m : Matcher}
    {l : KeyedLock}
    {e : Event}
    (now : Readings)
    (hRequest : c.request = .event e)
    (hRuns : m.stopped = false)
    (hIdle : l.Idle) :
    ∃ free : KeyedLock,
      free.Idle
        ∧ c.Runs ⟨m, l, .begun⟩ (m.handle now e).1.notifications
          ⟨(m.handle now e).2, free,
            .ready (.event (m.handle now e).1)⟩ := by
  cases hKey : e.key with
  | error reason =>
      rw [Matcher.handle_of_reason now hRuns hKey]
      exact ⟨l, hIdle, .step (.reject hRequest hKey) .refl⟩
  | ok key =>
      rw [Matcher.handle_of_key now hRuns hKey]
      have hHeld := hIdle.standing_lock c.handle key
      exact
        ⟨_, hIdle.drop_lock c.handle key,
          .step (.pass hRequest hKey) <|
          .step .ask <|
          .step (.enter now hRequest hHeld) <|
          .step .release <|
          runs_telling c _ _ _ _⟩

/- The keys that are left are cleared as the matcher does. -/
theorem runs_clearKeys
    (c : Visitor)
    (keys : List (Namespace × String))
    (m : Matcher)
    {l : KeyedLock}
    (hIdle : l.Idle)
    (count : Nat) :
    ∃ free : KeyedLock,
      free.Idle
        ∧ c.Runs ⟨m, l, .clearing keys count⟩ []
          ⟨(m.clearKeys keys).2, free,
            .ready
              (.clear
                (((m.clearKeys keys).1.map (count + ·)).mapError
                  .store))⟩ := by
  induction keys generalizing m l count with
  | nil => exact ⟨l, hIdle, .step .cleared .refl⟩
  | cons head rest ih =>
      rcases head with ⟨n, key⟩
      have hHeld := hIdle.standing_lock c.handle key
      have hFreed := hIdle.drop_lock c.handle key
      rcases hTake :
          m.store.onLevel n.name
            fun l => l.take (PendingRecord Json) key with
        ⟨cause | _ | r, store⟩
      · have hNone :
            ∀ r : PendingRecord Json,
              (.error cause : Except StoreError _)
                ≠ .ok (some r) := by
          intro r hSame
          cases hSame
        rw [Matcher.clearKeys, hTake]
        exact
          ⟨_, hFreed, .step .claim <|
            .step (.miss hHeld hTake hNone) <|
            .step .fail .refl⟩
      · have hNone :
            ∀ r : PendingRecord Json,
              (.ok none : Except StoreError _)
                ≠ .ok (some r) := by
          intro r hSame
          cases hSame
        rw [Matcher.clearKeys, hTake]
        rcases ih m hFreed count with ⟨free, hFree, hRest⟩
        exact
          ⟨free, hFree, .step .claim <|
            .step (.miss hHeld hTake hNone) <|
            .step .skip hRest⟩
      · rw [Matcher.clearKeys, hTake]
        rcases ih ({ m with store }.cancel r.expiryTask) hFreed
            (count + 1) with ⟨free, hFree, hRest⟩
        refine
          ⟨free, hFree, .step .claim <|
            .step (.take hHeld hTake) <|
            .step .free <|
            .step .cancel ?_⟩
        have hCount :
            ∀ result : Except StoreError Nat,
              (result.map (· + 1)).map (count + ·)
                = result.map (count + 1 + ·) := by
          intro result
          cases result with
          | error cause => rfl
          | ok found =>
              exact congrArg Except.ok (by simp; omega)
        change
          c.Runs _ []
            ⟨_, free,
              .ready (.clear (((Except.map (· + 1) _).map
                (count + ·)).mapError .store))⟩
        rw [hCount]
        exact hRest

/- A clearing has the result of the matcher. -/
theorem runs_clear
    {c : Visitor}
    {m : Matcher}
    {l : KeyedLock}
    {subscription : String}
    (hRequest : c.request = .clear subscription)
    (hRuns : m.stopped = false)
    (hIdle : l.Idle) :
    ∃ free : KeyedLock,
      free.Idle
        ∧ c.Runs ⟨m, l, .begun⟩ []
          ⟨(m.clear subscription).2, free,
            .ready (.clear (m.clear subscription).1)⟩ := by
  by_cases hValid : ValidSubscription subscription
  · rcases c.runs_clearKeys
        (Pending.subscriptionKeys subscription m.store) m hIdle
        0 with ⟨free, hFree, hKeys⟩
    have hClear :
        m.clear subscription
          = (((m.clearKeys (Pending.subscriptionKeys subscription
                m.store)).1.map (0 + ·)).mapError .store,
              (m.clearKeys (Pending.subscriptionKeys subscription
                m.store)).2) := by
      simp only [Matcher.clear, hRuns, Bool.false_eq_true,
        if_false, hValid, if_true, Nat.zero_add]
      rcases m.clearKeys
          (Pending.subscriptionKeys subscription m.store) with
        ⟨cause | count, after⟩ <;> rfl
    rw [hClear]
    exact
      ⟨free, hFree, .step (.list hRequest hValid) hKeys⟩
  · have hClear :
        m.clear subscription
          = (.error (.invalidSubscription subscription), m) := by
      simp [Matcher.clear, hRuns, hValid]
    rw [hClear]
    exact ⟨l, hIdle, .step (.refuse hRequest hValid) .refl⟩

/- A call is answered as the matcher answers it alone. -/
theorem runs_answered
    {c : Visitor}
    {m : Matcher}
    {l : KeyedLock}
    (now : Readings)
    (hRequest : c.request ≠ .stop)
    (hRuns : m.stopped = false)
    (hIdle : l.Idle) :
    ∃ free : KeyedLock,
      free.Idle
        ∧ c.Runs ⟨m, l, .begun⟩
          (c.request.answered now m).1.notifications
          ⟨(c.request.answered now m).2, free,
            .ready (c.request.answered now m).1⟩ := by
  cases hAsked : c.request with
  | event e => exact runs_handle now hAsked hRuns hIdle
  | clear subscription => exact runs_clear hAsked hRuns hIdle
  | stop => exact absurd hAsked hRequest

end Visitor

end JourneyMatch
